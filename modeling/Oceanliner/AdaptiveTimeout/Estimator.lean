/-
# The estimate of the round-trip time

`adaptive_timeout_rpc_end` moves `estimated_rtt` towards the measured time by the part `alpha` of
the distance, and `rtt_dev` towards that distance by the part `beta`.  Both distances are taken
before the estimate moves.  An interval that holds the initial timeout and the times measured since
the last reset therefore holds the estimate, and the deviation is at most its length
(`EstimatesWithin`).
-/
import Oceanliner.AdaptiveTimeout.Runs
import Oceanliner.Lib.Averages

open Transition Averages

namespace Oceanliner

/-- The timeout that is computed from the estimate, before it is converted to an integer. -/
def AdaptiveTimeout.rawTimeout (t : AdaptiveTimeout) : ℚ :=
  t.estimatedRtt + t.config.safetyFactor * t.rttDev

/-- The estimate lies in an interval, and the deviation is at most the length of the interval. -/
structure AdaptiveTimeout.EstimatesWithin (lo hi : ℚ) (t : AdaptiveTimeout) : Prop where
  estimatedRtt : t.estimatedRtt ∈ Set.Icc lo hi
  rttDev : t.rttDev ∈ Set.Icc 0 (hi - lo)

/-- The weights of a configuration make averages of the estimate and the deviation. -/
structure AdaptiveTimeoutConfig.Weighted (config : AdaptiveTimeoutConfig) : Prop where
  alpha : config.alpha ∈ Set.Icc 0 1
  beta : config.beta ∈ Set.Icc 0 1
  safetyFactor : 0 ≤ config.safetyFactor

section Steps

variable {t : AdaptiveTimeout} {lo hi : ℚ}

/-- After the initialisation and after a reset. -/
lemma estimatesWithin_initial (hest : t.estimatedRtt ∈ Set.Icc lo hi) (hdev : t.rttDev = 0) :
    t.EstimatesWithin lo hi where
  estimatedRtt := hest
  rttDev := by
    rw [hdev]
    exact ⟨le_rfl, sub_nonneg.2 (hest.1.trans hest.2)⟩

/-- One more round-trip time from the interval. -/
lemma AdaptiveTimeout.EstimatesWithin.recordRtt (h : t.EstimatesWithin lo hi)
    (hweights : t.config.Weighted) (convert : ℚ → ℕ) {rtt : ℚ} (hrtt : rtt ∈ Set.Icc lo hi) :
    (recordRtt convert rtt t).EstimatesWithin lo hi where
  estimatedRtt := smooth_mem_Icc hweights.alpha h.estimatedRtt hrtt
  rttDev := smooth_mem_Icc hweights.beta h.rttDev (abs_sub_mem_Icc h.estimatedRtt hrtt)

lemma AdaptiveTimeout.EstimatesWithin.rawTimeout_mem (h : t.EstimatesWithin lo hi)
    (hsafety : 0 ≤ t.config.safetyFactor) :
    t.rawTimeout ∈ Set.Icc lo (hi + t.config.safetyFactor * (hi - lo)) := by
  obtain ⟨hlo, hhi⟩ := h.estimatedRtt
  obtain ⟨hdev, hmost⟩ := h.rttDev
  constructor
  · exact hlo.trans (le_add_of_nonneg_right (mul_nonneg hsafety hdev))
  · exact add_le_add hhi (mul_le_mul_of_nonneg_left hmost hsafety)

/-- The current timeout after an RPC is the raw timeout, converted and bounded. -/
lemma recordRtt_currentTimeout (convert : ℚ → ℕ) (rtt : ℚ) (t : AdaptiveTimeout) :
    (recordRtt convert rtt t).currentTimeout =
      boundTimeout t.config (convert (recordRtt convert rtt t).rawTimeout) := rfl

end Steps

/-- Every interval that holds the initial timeout and the round-trip times bounds the estimates. -/
def MeasuredTimeout.Bounded (s : MeasuredTimeout) : Prop :=
  ∀ lo hi, (∀ v ∈ (s.timeout.config.initialTimeout : ℚ) :: s.rtts, v ∈ Set.Icc lo hi) →
    s.timeout.EstimatesWithin lo hi

section Runs

variable {s s' : MeasuredTimeout} {lastRequest : Timespec} {config : AdaptiveTimeoutConfig}
  {as : List AdaptiveAction}

lemma adaptiveStep_bounded {a : AdaptiveAction} (h : s.Bounded)
    (hweights : s.timeout.config.Weighted) (hstep : adaptiveStep s a = some s') : s'.Bounded := by
  cases a with
  | rpcEnd convert now =>
      obtain rfl := Option.some.inj hstep
      intro lo hi hvalues
      obtain ⟨hinitial, hrtts⟩ := List.forall_mem_cons.1 hvalues
      have hold := h lo hi (List.forall_mem_cons.2
        ⟨hinitial, fun v hv => hrtts v (List.mem_append_left _ hv)⟩)
      exact hold.recordRtt hweights convert (hrtts _ List.mem_concat_self)
  | reset =>
      obtain rfl := Option.some.inj hstep
      exact fun lo hi hvalues => estimatesWithin_initial (hvalues _ List.mem_cons_self) rfl
  | _ =>
      obtain rfl := Option.some.inj hstep
      exact fun lo hi hvalues => ⟨(h lo hi hvalues).estimatedRtt, (h lo hi hvalues).rttDev⟩

lemma run_adaptiveStep_bounded (hweights : config.Weighted)
    (hrun : run adaptiveStep (.init lastRequest config) as = some s) : s.Bounded := by
  have hinv : s.timeout.config = config ∧ s.Bounded := by
    refine run_invariant (I := fun s => s.timeout.config = config ∧ s.Bounded) ?_ ⟨rfl, ?_⟩ hrun
    · rintro s a s' ⟨rfl, h⟩ hstep
      exact ⟨adaptiveStep_config hstep, adaptiveStep_bounded h hweights hstep⟩
    · exact fun lo hi hvalues => estimatesWithin_initial (hvalues _ List.mem_cons_self) rfl
  exact hinv.2

end Runs

/-- **The estimator stays within its inputs.**  After every run, with `lo` and `hi` the least and
the greatest among the initial timeout and the round-trip times since the last reset, the estimate
lies between `lo` and `hi`, the deviation between 0 and `hi - lo`, and the raw timeout between `lo`
and `hi + safety_factor * (hi - lo)`.  It is not negative when no round-trip time is, and it is what
the last call, if it ended an RPC, has converted. -/
theorem estimator_bounded (lastRequest : Timespec) (config : AdaptiveTimeoutConfig)
    (hweights : config.Weighted) (as : List AdaptiveAction) (s : MeasuredTimeout)
    (hrun : run adaptiveStep (.init lastRequest config) as = some s) (lo hi : ℚ)
    (hlo : IsLeast {v | v ∈ (config.initialTimeout : ℚ) :: s.rtts} lo)
    (hhi : IsGreatest {v | v ∈ (config.initialTimeout : ℚ) :: s.rtts} hi) :
    (lo ≤ s.timeout.estimatedRtt ∧ s.timeout.estimatedRtt ≤ hi) ∧
      (0 ≤ s.timeout.rttDev ∧ s.timeout.rttDev ≤ hi - lo) ∧
      (lo ≤ s.timeout.rawTimeout ∧
        s.timeout.rawTimeout ≤ hi + config.safetyFactor * (hi - lo)) ∧
      ((∀ r ∈ s.rtts, 0 ≤ r) → 0 ≤ s.timeout.rawTimeout) ∧
      ∀ bs convert now, as = bs ++ [.rpcEnd convert now] →
        s.timeout.currentTimeout = boundTimeout config (convert s.timeout.rawTimeout) := by
  have hconfig : s.timeout.config = config := run_adaptiveStep_config hrun
  have hwithin : s.timeout.EstimatesWithin lo hi := by
    refine run_adaptiveStep_bounded hweights hrun lo hi fun v hv => ?_
    rw [hconfig] at hv
    exact ⟨hlo.2 hv, hhi.2 hv⟩
  have hraw := hwithin.rawTimeout_mem (hconfig ▸ hweights.safetyFactor)
  rw [hconfig] at hraw
  refine ⟨hwithin.estimatedRtt, hwithin.rttDev, hraw, fun hnonneg => ?_, ?_⟩
  · have hlo_nonneg : 0 ≤ lo := by
      rcases List.mem_cons.1 hlo.1 with rfl | hmem
      · exact Nat.cast_nonneg _
      · exact hnonneg lo hmem
    exact hlo_nonneg.trans hraw.1
  · rintro bs convert now rfl
    obtain ⟨s₁, hbefore, hlast⟩ := run_append_eq_some.1 hrun
    obtain ⟨s₂, hstep, hend⟩ := run_cons_eq_some.1 hlast
    obtain rfl := Option.some.inj hend
    obtain rfl := Option.some.inj hstep
    have hconfig₁ : s₁.timeout.config = config := run_adaptiveStep_config hbefore
    rw [← hconfig₁]
    exact recordRtt_currentTimeout convert _ s₁.timeout

/-- Two RPCs of 5 and 3 milliseconds with the default configuration. -/
theorem estimator_bounded_five_three :
    ∃ s, run adaptiveStep (.init ⟨0, 0⟩ defaultConfig) (twoRpcs 5 3) = some s ∧
      (3 ≤ s.timeout.estimatedRtt ∧ s.timeout.estimatedRtt ≤ 200) ∧
      0 ≤ s.timeout.rawTimeout ∧ s.timeout.currentTimeout = boundTimeout defaultConfig 200 := by
  obtain ⟨s, hrun, hrtts⟩ := exists_run_twoRpcs ⟨0, 0⟩ defaultConfig 5 3
  have hweights : defaultConfig.Weighted := by
    refine ⟨⟨?_, ?_⟩, ⟨?_, ?_⟩, ?_⟩ <;> norm_num [defaultConfig]
  have hset : {v | v ∈ (defaultConfig.initialTimeout : ℚ) :: s.rtts} = {200, 5, 3} := by
    ext v
    simp [hrtts, defaultConfig]
  have hbounds : ∀ v ∈ ({200, 5, 3} : Set ℚ), 3 ≤ v ∧ v ≤ 200 := by
    rintro v (rfl | rfl | rfl) <;> norm_num
  obtain ⟨hest, -, -, hraw, hcurrent⟩ :=
    estimator_bounded ⟨0, 0⟩ defaultConfig hweights _ s hrun 3 200
      (by rw [hset]; exact ⟨by simp, fun v hv => (hbounds v hv).1⟩)
      (by rw [hset]; exact ⟨by simp, fun v hv => (hbounds v hv).2⟩)
  have hend : twoRpcs 5 3 =
      (twoRpcs 5 3).dropLast ++ [.rpcEnd (fun _ => 200) ⟨20, (3 : ℕ) * 1000000⟩] := rfl
  refine ⟨s, hrun, hest, hraw fun r hr => ?_, hcurrent _ _ _ hend⟩
  rw [hrtts] at hr
  rcases List.mem_pair.1 hr with rfl | rfl <;> exact Nat.cast_nonneg _

end Oceanliner
