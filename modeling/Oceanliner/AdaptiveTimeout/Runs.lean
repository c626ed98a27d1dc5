/-
# Runs of the adaptive timeout

The functions of `adaptive_timeout.c` that write to the timeout, as the steps of a transition
system; `adaptive_timeout_get_current` and `adaptive_timeout_get_stats` only read it.  The state is
the timeout together with the round-trip times measured since it was initialised or last reset.
The times that the clock shows and the value to which a raw timeout converts come with the
actions.

The first use is the range of `current_timeout`.  A missed heartbeat multiplies it by 1.5, reduces
the product to 32 bits and compares the result with the upper bound only, so the range is kept
exactly as long as no product is reduced to something below the lower bound.
-/
import Oceanliner.AdaptiveTimeout
import Oceanliner.Lib.Transition

open Transition

namespace Oceanliner

/-- What is done with an adaptive timeout. -/
inductive AdaptiveAction where
  | rpcStart (now : Timespec)
  | rpcEnd (convert : ℚ → ℕ) (now : Timespec)
  | recordHeartbeat
  | recordVote
  | checkMissedHeartbeat
  | reset

/-- An adaptive timeout and the round-trip times that it has seen since the last reset. -/
structure MeasuredTimeout where
  timeout : AdaptiveTimeout
  rtts : List ℚ

/-- A timeout that has been initialised. -/
def MeasuredTimeout.init (lastRequest : Timespec) (config : AdaptiveTimeoutConfig) :
    MeasuredTimeout :=
  ⟨initWithConfig lastRequest config, []⟩

/-- One call.  Every function runs in every state. -/
def adaptiveStep (s : MeasuredTimeout) : AdaptiveAction → Option MeasuredTimeout
  | .rpcStart now => some { s with timeout := adaptiveTimeoutRpcStart now s.timeout }
  | .rpcEnd convert now =>
      some
        { timeout := adaptiveTimeoutRpcEnd convert now s.timeout
          rtts := s.rtts ++ [rttSince s.timeout.lastRequest now] }
  | .recordHeartbeat => some { s with timeout := adaptiveTimeoutRecordHeartbeat s.timeout }
  | .recordVote => some { s with timeout := adaptiveTimeoutRecordVote s.timeout }
  | .checkMissedHeartbeat =>
      some { s with timeout := adaptiveTimeoutCheckMissedHeartbeat s.timeout }
  | .reset => some ⟨adaptiveTimeoutReset s.timeout, []⟩

section Steps

variable {s s' : MeasuredTimeout} {a : AdaptiveAction} {as : List AdaptiveAction}

/-- Every list of calls is a run. -/
lemma exists_run_adaptiveStep (s : MeasuredTimeout) (as : List AdaptiveAction) :
    ∃ s', run adaptiveStep s as = some s' := by
  have hstep : ∀ s a, True → ∃ s', adaptiveStep s a = some s' ∧ True := fun s a _ => by
    cases a <;> exact ⟨_, rfl, trivial⟩
  obtain ⟨s', hrun, -⟩ := run_total (I := fun _ => True) (s := s) hstep trivial as
  exact ⟨s', hrun⟩

/-- No call changes the configuration. -/
lemma adaptiveStep_config (h : adaptiveStep s a = some s') :
    s'.timeout.config = s.timeout.config := by
  cases a <;> obtain rfl := Option.some.inj h <;> rfl

lemma run_adaptiveStep_config (h : run adaptiveStep s as = some s') :
    s'.timeout.config = s.timeout.config :=
  run_invariant (I := fun s₁ => s₁.timeout.config = s.timeout.config)
    (fun _ _ _ hs hstep => (adaptiveStep_config hstep).trans hs) rfl h

end Steps

/-- Two RPCs that take so many milliseconds. -/
def twoRpcs (first second : ℕ) : List AdaptiveAction :=
  [.rpcStart ⟨10, 0⟩, .rpcEnd (fun _ => 200) ⟨10, first * 1000000⟩,
    .rpcStart ⟨20, 0⟩, .rpcEnd (fun _ => 200) ⟨20, second * 1000000⟩]

lemma exists_run_twoRpcs (lastRequest : Timespec) (config : AdaptiveTimeoutConfig)
    (first second : ℕ) :
    ∃ s, run adaptiveStep (.init lastRequest config) (twoRpcs first second) = some s ∧
      s.rtts = [(first : ℚ), (second : ℚ)] := by
  have hrtt : ∀ sec k : ℕ, rttSince ⟨sec, 0⟩ ⟨sec, k * 1000000⟩ = k := by
    intro sec k
    simp [rttSince]
  refine ⟨_, rfl, ?_⟩
  show [rttSince ⟨10, 0⟩ ⟨10, first * 1000000⟩, rttSince ⟨20, 0⟩ ⟨20, second * 1000000⟩] = _
  rw [← hrtt 10 first, ← hrtt 20 second]
  rfl

/-! ### The range of the current timeout -/

/-- The condition on a call under which the current timeout stays in its range. -/
def KeepsRange (s : MeasuredTimeout) : AdaptiveAction → Prop
  | .checkMissedHeartbeat => s.timeout.GrowsInRange
  | _ => True

/-- The other calls keep the range, whatever the raw timeout converts to. -/
lemma adaptiveStep_inBounds_iff {s s' : MeasuredTimeout} {a : AdaptiveAction}
    (hordered : s.timeout.config.Ordered) (hmax : s.timeout.config.maxTimeout < 2 ^ 32)
    (hin : s.timeout.InBounds) (h : adaptiveStep s a = some s') :
    s'.timeout.InBounds ↔ KeepsRange s a := by
  cases a with
  | rpcStart now =>
      obtain rfl := Option.some.inj h
      exact iff_true_intro ⟨hin.min_le, hin.le_max⟩
  | rpcEnd convert now =>
      obtain rfl := Option.some.inj h
      exact iff_true_intro (recordRtt_inBounds convert _ hordered)
  | recordHeartbeat =>
      obtain rfl := Option.some.inj h
      exact iff_true_intro (inBounds_of_min hordered rfl)
  | recordVote =>
      obtain rfl := Option.some.inj h
      exact iff_true_intro (inBounds_of_min hordered rfl)
  | checkMissedHeartbeat =>
      obtain rfl := Option.some.inj h
      exact checkMissedHeartbeat_inBounds_iff hin hmax
  | reset =>
      obtain rfl := Option.some.inj h
      exact iff_true_intro ⟨hordered.min_le, hordered.le_max⟩

/-- **The range of the current timeout.**  In a run from the initialisation, the current timeout
lies between the bounds after every call if and only if, at every missed heartbeat, the product
with 1.5 fits in 32 bits or is reduced to something that is not below the lower bound. -/
theorem currentTimeout_range_iff (lastRequest : Timespec) (config : AdaptiveTimeoutConfig)
    (hordered : config.Ordered) (hmax : config.maxTimeout < 2 ^ 32) (as : List AdaptiveAction) :
    EveryStep adaptiveStep (fun _ s => s.timeout.InBounds) (.init lastRequest config) as ↔
      Guarded adaptiveStep KeepsRange (.init lastRequest config) as := by
  obtain ⟨s, hrun⟩ := exists_run_adaptiveStep (.init lastRequest config) as
  refine always_iff_guarded (I := fun s => s.timeout.config = config)
    (fun s a s' hs h => (adaptiveStep_config h).trans hs) ?_ rfl
    (initWithConfig_inBounds lastRequest hordered) hrun
  rintro s a s' rfl hin h
  exact adaptiveStep_inBounds_iff hordered hmax hin h

/-- With the default configuration, a slow RPC and two missed heartbeats. -/
theorem currentTimeout_range_default :
    EveryStep adaptiveStep (fun _ s => s.timeout.InBounds) (.init ⟨0, 0⟩ defaultConfig)
      [.rpcEnd (fun _ => 4000000000) ⟨0, 0⟩, .checkMissedHeartbeat, .checkMissedHeartbeat, .reset,
        .recordHeartbeat] := by
  refine (currentTimeout_range_iff ⟨0, 0⟩ defaultConfig ⟨by decide, by decide⟩ (by decide) _).2 ?_
  -- the RPC and the first missed heartbeat leave the timeout at 300 ms
  exact (guarded_cons rfl).2 ⟨trivial, (guarded_cons rfl).2 ⟨.inl (by decide),
    (guarded_cons rfl).2 ⟨.inl (by decide), (guarded_cons rfl).2 ⟨trivial,
      (guarded_cons rfl).2 ⟨trivial, trivial⟩⟩⟩⟩⟩

/-- Bounds that are in order, but above 2863311530. -/
def largeBounds : AdaptiveTimeoutConfig :=
  { defaultConfig with
    minTimeout := 3000000000
    maxTimeout := 4000000000
    initialTimeout := 3000000000 }

/-- After one missed heartbeat 4500000000 has become 205032704. -/
theorem currentTimeout_below_minTimeout :
    largeBounds.Ordered ∧ largeBounds.maxTimeout < 2 ^ 32 ∧
      run adaptiveStep (.init ⟨0, 0⟩ largeBounds) [.checkMissedHeartbeat] =
        some ⟨{ initWithConfig ⟨0, 0⟩ largeBounds with
          missedHeartbeats := 1
          currentTimeout := 205032704 }, []⟩ ∧
      ¬ EveryStep adaptiveStep (fun _ s => s.timeout.InBounds) (.init ⟨0, 0⟩ largeBounds)
        [.checkMissedHeartbeat] := by
  refine ⟨⟨by decide, by decide⟩, by decide, rfl, fun h => ?_⟩
  have hin := (h _ rfl).1.min_le
  revert hin
  decide

/-- The configurations with which no run leaves the range: the upper bound can grow by half within
32 bits, or there is no lower bound. -/
lemma currentTimeout_range_iff_config {config : AdaptiveTimeoutConfig} (hordered : config.Ordered)
    (hmax : config.maxTimeout < 2 ^ 32) (lastRequest : Timespec) :
    (∀ as, EveryStep adaptiveStep (fun _ s => s.timeout.InBounds) (.init lastRequest config) as) ↔
      config.maxTimeout * 3 / 2 < 2 ^ 32 ∨ config.minTimeout = 0 := by
  have hle := hordered.min_le.trans hordered.le_max
  constructor
  · intro hall
    -- an RPC takes the timeout to the least value whose product is too large, or to the lower bound
    let t := adaptiveTimeoutRpcEnd (fun _ => 2863311531) ⟨0, 0⟩ (initWithConfig lastRequest config)
    obtain ⟨hrpc, hlater⟩ :=
      hall [.rpcEnd (fun _ => 2863311531) ⟨0, 0⟩, .checkMissedHeartbeat] _ rfl
    have hcheck : (adaptiveTimeoutCheckMissedHeartbeat t).InBounds := (hlater _ rfl).1
    have hgrows : 3 * boundTimeout config 2863311531 < 2 ^ 33 ∨
        2 ^ 33 + 2 * config.minTimeout ≤ 3 * boundTimeout config 2863311531 :=
      (checkMissedHeartbeat_inBounds_iff (t := t) hrpc hmax).1 hcheck
    rw [boundTimeout_eq] at hgrows
    omega
  · intro hconfig as
    have hkeep : ∀ s a s', s.timeout.config = config ∧ s.timeout.InBounds → True →
        adaptiveStep s a = some s' → s'.timeout.config = config ∧ s'.timeout.InBounds := by
      rintro s a s' ⟨rfl, hin⟩ - h
      refine ⟨adaptiveStep_config h, (adaptiveStep_inBounds_iff hordered hmax hin h).2 ?_⟩
      cases a with
      | checkMissedHeartbeat =>
          have hcurrent := hin.le_max
          show _ ∨ _
          omega
      | _ => trivial
    exact (Guarded.always hkeep (Guarded.of_forall (P := fun _ => True) fun _ _ => trivial)
      ⟨rfl, initWithConfig_inBounds lastRequest hordered⟩).mono fun _ _ h => h.2

end Oceanliner
