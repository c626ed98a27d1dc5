/-
The adaptive election timeout (`adaptive_timeout.c`).

The numbers of type `double` are rational numbers here.  The conversion of the raw timeout to
`uint32_t` is a parameter, so that nothing below depends on how it rounds or what it does with a
number that does not fit.  The mutex, which every function holds for as long as it works on the
timeout, is left out.
-/
import Oceanliner.Globals

namespace Oceanliner

/-- `AdaptiveTimeoutConfig`. -/
structure AdaptiveTimeoutConfig where
  alpha : ℚ
  beta : ℚ
  safetyFactor : ℚ
  minTimeout : ℕ
  maxTimeout : ℕ
  initialTimeout : ℕ
deriving DecidableEq

/-- `struct timespec`. -/
structure Timespec where
  tvSec : ℤ
  tvNsec : ℤ
deriving DecidableEq, Repr

/-- `AdaptiveTimeout`. -/
structure AdaptiveTimeout where
  estimatedRtt : ℚ
  rttDev : ℚ
  currentTimeout : ℕ
  lastRequest : Timespec
  totalRpcs : ℕ
  missedHeartbeats : ℕ
  minRtt : ℚ
  maxRtt : ℚ
  avgRtt : ℚ
  config : AdaptiveTimeoutConfig
deriving DecidableEq

/-- `init_with_config`; `lastRequest` is what the memory held. -/
def initWithConfig (lastRequest : Timespec) (config : AdaptiveTimeoutConfig) : AdaptiveTimeout where
  estimatedRtt := config.initialTimeout
  rttDev := 0
  currentTimeout := config.initialTimeout
  lastRequest := lastRequest
  totalRpcs := 0
  missedHeartbeats := 0
  minRtt := 0
  maxRtt := 0
  avgRtt := 0
  config := config

/-- The `default_config` of `adaptive_timeout_init`. -/
def defaultConfig : AdaptiveTimeoutConfig where
  alpha := 1 / 8
  beta := 1 / 4
  safetyFactor := 3 / 2
  minTimeout := 150
  maxTimeout := 300
  initialTimeout := 200

/-- `adaptive_timeout_init`. -/
def adaptiveTimeoutInit (lastRequest : Timespec) : AdaptiveTimeout :=
  initWithConfig lastRequest defaultConfig

/-- `adaptive_timeout_reset`. -/
def adaptiveTimeoutReset (t : AdaptiveTimeout) : AdaptiveTimeout :=
  { t with
    estimatedRtt := t.config.initialTimeout
    rttDev := 0
    currentTimeout := t.config.initialTimeout
    totalRpcs := 0
    missedHeartbeats := 0
    minRtt := 0
    maxRtt := 0
    avgRtt := 0 }

/-- `adaptive_timeout_rpc_start`. -/
def adaptiveTimeoutRpcStart (now : Timespec) (t : AdaptiveTimeout) : AdaptiveTimeout :=
  { t with lastRequest := now }

/-- The round-trip time in milliseconds. -/
def rttSince (lastRequest now : Timespec) : ℚ :=
  (now.tvSec - lastRequest.tvSec : ℤ) * 1000 + (now.tvNsec - lastRequest.tvNsec : ℤ) / 1000000

/-- The two bounds on `new_timeout`. -/
def boundTimeout (config : AdaptiveTimeoutConfig) (newTimeout : ℕ) : ℕ :=
  let newTimeout := if newTimeout < config.minTimeout then config.minTimeout else newTimeout
  if newTimeout > config.maxTimeout then config.maxTimeout else newTimeout

/-- What `adaptive_timeout_rpc_end` does with the round-trip time. -/
def recordRtt (convert : ℚ → ℕ) (rtt : ℚ) (t : AdaptiveTimeout) : AdaptiveTimeout :=
  let totalRpcs := u64 (t.totalRpcs + 1)
  let err := rtt - t.estimatedRtt
  let estimatedRtt := t.estimatedRtt + t.config.alpha * err
  let rttDev := t.rttDev + t.config.beta * (|err| - t.rttDev)
  { t with
    totalRpcs := totalRpcs
    minRtt := if t.minRtt = 0 ∨ rtt < t.minRtt then rtt else t.minRtt
    maxRtt := if rtt > t.maxRtt then rtt else t.maxRtt
    avgRtt := (t.avgRtt * (u64 (totalRpcs + (2 ^ 64 - 1)) : ℕ) + rtt) / totalRpcs
    estimatedRtt := estimatedRtt
    rttDev := rttDev
    currentTimeout := boundTimeout t.config (convert (estimatedRtt + t.config.safetyFactor * rttDev)) }

/-- `adaptive_timeout_rpc_end`. -/
def adaptiveTimeoutRpcEnd (convert : ℚ → ℕ) (now : Timespec) (t : AdaptiveTimeout) :
    AdaptiveTimeout :=
  recordRtt convert (rttSince t.lastRequest now) t

/-- `adaptive_timeout_record_heartbeat`. -/
def adaptiveTimeoutRecordHeartbeat (t : AdaptiveTimeout) : AdaptiveTimeout :=
  { t with currentTimeout := t.config.minTimeout }

/-- `adaptive_timeout_record_vote`. -/
def adaptiveTimeoutRecordVote (t : AdaptiveTimeout) : AdaptiveTimeout :=
  { t with currentTimeout := t.config.minTimeout }

/-- `adaptive_timeout_check_missed_heartbeat`. -/
def adaptiveTimeoutCheckMissedHeartbeat (t : AdaptiveTimeout) : AdaptiveTimeout :=
  let currentTimeout := u32 (t.currentTimeout * 3 / 2)
  { t with
    missedHeartbeats := u64 (t.missedHeartbeats + 1)
    currentTimeout :=
      if currentTimeout > t.config.maxTimeout then t.config.maxTimeout else currentTimeout }

/-! ### The bounds -/

/-- The bounds of a configuration are in order. -/
structure AdaptiveTimeoutConfig.Ordered (config : AdaptiveTimeoutConfig) : Prop where
  min_le : config.minTimeout ≤ config.initialTimeout
  le_max : config.initialTimeout ≤ config.maxTimeout

/-- The current timeout lies between the bounds of its configuration. -/
structure AdaptiveTimeout.InBounds (t : AdaptiveTimeout) : Prop where
  min_le : t.config.minTimeout ≤ t.currentTimeout
  le_max : t.currentTimeout ≤ t.config.maxTimeout

/-- Half as much again as the current timeout is within 32 bits, or what the reduction to 32 bits
leaves of it is not below the lower bound. -/
def AdaptiveTimeout.GrowsInRange (t : AdaptiveTimeout) : Prop :=
  3 * t.currentTimeout < 2 ^ 33 ∨ 2 ^ 33 + 2 * t.config.minTimeout ≤ 3 * t.currentTimeout

section Bounds

variable {t : AdaptiveTimeout}

lemma initWithConfig_inBounds (lastRequest : Timespec) {config : AdaptiveTimeoutConfig}
    (h : config.Ordered) : (initWithConfig lastRequest config).InBounds :=
  ⟨h.min_le, h.le_max⟩

/-- What stands at the lower bound is in bounds. -/
lemma inBounds_of_min (h : t.config.Ordered) (hmin : t.currentTimeout = t.config.minTimeout) :
    t.InBounds :=
  ⟨hmin.ge, hmin.le.trans (h.min_le.trans h.le_max)⟩

/-- The two comparisons are a maximum and a minimum. -/
lemma boundTimeout_eq (config : AdaptiveTimeoutConfig) (newTimeout : ℕ) :
    boundTimeout config newTimeout = min (max config.minTimeout newTimeout) config.maxTimeout := by
  rw [boundTimeout]
  split <;> split <;> omega

lemma recordRtt_inBounds (convert : ℚ → ℕ) (rtt : ℚ) (h : t.config.Ordered) :
    (recordRtt convert rtt t).InBounds := by
  have hle := h.min_le.trans h.le_max
  constructor
  · show t.config.minTimeout ≤ boundTimeout t.config _
    rw [boundTimeout_eq]
    exact le_min (le_max_left _ _) hle
  · show boundTimeout t.config _ ≤ t.config.maxTimeout
    rw [boundTimeout_eq]
    exact min_le_right _ _

/-- What a missed heartbeat makes of the current timeout. -/
lemma checkMissedHeartbeat_currentTimeout (t : AdaptiveTimeout) :
    (adaptiveTimeoutCheckMissedHeartbeat t).currentTimeout =
      min (u32 (t.currentTimeout * 3 / 2)) t.config.maxTimeout := by
  show (if _ then _ else _) = _
  rw [min_def]
  split <;> split <;> omega

/-- A missed heartbeat keeps the range exactly when the product does not come out too small. -/
lemma checkMissedHeartbeat_inBounds_iff (h : t.InBounds) (hmax : t.config.maxTimeout < 2 ^ 32) :
    (adaptiveTimeoutCheckMissedHeartbeat t).InBounds ↔ t.GrowsInRange := by
  have hmin := h.min_le
  have hle := h.le_max
  have hgrown := checkMissedHeartbeat_currentTimeout t
  have hbounds : (adaptiveTimeoutCheckMissedHeartbeat t).InBounds ↔
      t.config.minTimeout ≤ u32 (t.currentTimeout * 3 / 2) := by
    constructor
    · intro hin
      exact (hin.min_le.trans_eq hgrown).trans (min_le_left _ _)
    · intro hlow
      constructor
      · rw [hgrown]
        exact le_min hlow (hmin.trans hle)
      · rw [hgrown]
        exact min_le_right _ _
  rw [hbounds, AdaptiveTimeout.GrowsInRange]
  rcases lt_or_ge (t.currentTimeout * 3 / 2) (2 ^ 32) with hfits | hlarge
  · rw [u32_of_lt hfits]
    omega
  · -- the product is below twice 2 ^ 32, so the reduction takes 2 ^ 32 away once
    have hreduced : u32 (t.currentTimeout * 3 / 2) = t.currentTimeout * 3 / 2 - 2 ^ 32 := by
      rw [u32, Nat.mod_eq_sub_mod hlarge, Nat.mod_eq_of_lt (by omega)]
    rw [hreduced]
    omega

/-- As long as the upper bound can grow by half without leaving 32 bits, the current timeout grows
up to it. -/
lemma checkMissedHeartbeat_inBounds (h : t.InBounds) (hmax : t.config.maxTimeout * 3 / 2 < 2 ^ 32) :
    (adaptiveTimeoutCheckMissedHeartbeat t).InBounds := by
  have hle := h.le_max
  exact (checkMissedHeartbeat_inBounds_iff h (by omega)).2 (.inl (by omega))

end Bounds

end Oceanliner
