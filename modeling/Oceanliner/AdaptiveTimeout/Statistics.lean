/-
# The statistics of the round-trip times

`adaptive_timeout_rpc_end` keeps the number, the least, the greatest and the mean of the round-trip
times it has measured.  `StatisticsOf` says what the fields hold after any run, with the least
value kept as `min_rtt` is: with 0 for "not measured yet".  When the fields are the true statistics
of the times (`TrueStatistics`) follows from the library.
-/
import Oceanliner.AdaptiveTimeout.Runs
import Oceanliner.Lib.Averages

open Transition Averages

namespace Oceanliner

/-- The fields for the statistics hold what is kept of a list of round-trip times. -/
structure AdaptiveTimeout.StatisticsOf (rtts : List ℚ) (t : AdaptiveTimeout) : Prop where
  totalRpcs : t.totalRpcs = u64 rtts.length
  minRtt : t.minRtt = markedMin rtts
  maxRtt : IsGreatest {r | r ∈ 0 :: rtts} t.maxRtt
  avgRtt : rtts.length < 2 ^ 64 → t.avgRtt = mean rtts

/-- The fields for the statistics hold the number, the least, the greatest and the mean of a list of
round-trip times. -/
structure AdaptiveTimeout.TrueStatistics (rtts : List ℚ) (t : AdaptiveTimeout) : Prop where
  totalRpcs : t.totalRpcs = rtts.length
  minRtt : IsLeast {r | r ∈ rtts} t.minRtt
  maxRtt : IsGreatest {r | r ∈ rtts} t.maxRtt
  avgRtt : t.avgRtt = mean rtts
  min_le_avg : t.minRtt ≤ t.avgRtt
  avg_le_max : t.avgRtt ≤ t.maxRtt

section Steps

variable {t : AdaptiveTimeout} {rtts : List ℚ}

/-- The fields that the statistics are in after the initialisation and after a reset. -/
lemma statisticsOf_nil (htotal : t.totalRpcs = 0) (hmin : t.minRtt = 0) (hmax : t.maxRtt = 0)
    (havg : t.avgRtt = 0) : t.StatisticsOf [] where
  totalRpcs := htotal
  minRtt := hmin
  maxRtt := by
    rw [hmax]
    exact ⟨List.mem_singleton_self 0, fun r hr => (List.mem_singleton.1 hr).le⟩
  avgRtt _ := by
    rw [havg]
    exact (zero_div _).symm

/-- One more round-trip time. -/
lemma AdaptiveTimeout.StatisticsOf.recordRtt (h : t.StatisticsOf rtts) (convert : ℚ → ℕ) (rtt : ℚ) :
    (recordRtt convert rtt t).StatisticsOf (rtts ++ [rtt]) where
  totalRpcs := by
    show u64 (t.totalRpcs + 1) = _
    rw [h.totalRpcs, List.length_append, List.length_singleton, u64, u64, u64, Nat.mod_add_mod]
  minRtt := by
    show (if t.minRtt = 0 ∨ rtt < t.minRtt then rtt else t.minRtt) = _
    rw [h.minRtt, markedMin_concat]
  maxRtt := isGreatest_concat h.maxRtt rtt
  avgRtt hlen := by
    rw [List.length_append, List.length_singleton] at hlen
    have htotal : u64 (t.totalRpcs + 1) = rtts.length + 1 := by
      rw [h.totalRpcs, u64_of_lt (n := rtts.length) (by omega), u64_of_lt hlen]
    have hbefore : u64 (rtts.length + 1 + (2 ^ 64 - 1)) = rtts.length := by
      rw [u64]
      omega
    show (t.avgRtt * (u64 (u64 (t.totalRpcs + 1) + (2 ^ 64 - 1)) : ℕ) + rtt) /
      (u64 (t.totalRpcs + 1) : ℕ) = _
    rw [htotal, hbefore, h.avgRtt (by omega), mean_concat]

/-- Every call keeps the statistics of the round-trip times since the last reset. -/
lemma adaptiveStep_statisticsOf {s s' : MeasuredTimeout} {a : AdaptiveAction}
    (h : s.timeout.StatisticsOf s.rtts) (hstep : adaptiveStep s a = some s') :
    s'.timeout.StatisticsOf s'.rtts := by
  cases a with
  | rpcEnd convert now =>
      obtain rfl := Option.some.inj hstep
      exact h.recordRtt convert _
  | reset =>
      obtain rfl := Option.some.inj hstep
      exact statisticsOf_nil rfl rfl rfl rfl
  | _ =>
      obtain rfl := Option.some.inj hstep
      exact ⟨h.totalRpcs, h.minRtt, h.maxRtt, h.avgRtt⟩

lemma run_adaptiveStep_statisticsOf {lastRequest : Timespec} {config : AdaptiveTimeoutConfig}
    {as : List AdaptiveAction} {s : MeasuredTimeout}
    (hrun : run adaptiveStep (.init lastRequest config) as = some s) :
    s.timeout.StatisticsOf s.rtts :=
  run_invariant (I := fun s => s.timeout.StatisticsOf s.rtts)
    (fun _ _ _ h hstep => adaptiveStep_statisticsOf h hstep)
    (statisticsOf_nil rfl rfl rfl rfl) hrun

/-- What is kept of the round-trip times is true of them as long as they can be counted and the
mark of the least one does no harm. -/
lemma AdaptiveTimeout.StatisticsOf.true_iff (h : t.StatisticsOf rtts) (hne : rtts ≠ [])
    (hnonneg : ∀ r ∈ rtts, 0 ≤ r) :
    t.TrueStatistics rtts ↔ rtts.length < 2 ^ 64 ∧ (0 ∉ rtts ∨ rtts.getLast hne = 0) := by
  rw [← isLeast_markedMin_iff hne hnonneg, ← h.minRtt]
  constructor
  · intro htrue
    refine ⟨?_, htrue.minRtt⟩
    rw [← htrue.totalRpcs, h.totalRpcs]
    exact Nat.mod_lt _ (Nat.two_pow_pos 64)
  · rintro ⟨hlen, hleast⟩
    have hgreatest := isGreatest_of_cons_zero hne hnonneg h.maxRtt
    have hmean := h.avgRtt hlen
    exact
      { totalRpcs := h.totalRpcs.trans (u64_of_lt hlen)
        minRtt := hleast
        maxRtt := hgreatest
        avgRtt := hmean
        min_le_avg := hmean ▸ le_mean hne fun r hr => hleast.2 hr
        avg_le_max := hmean ▸ mean_le hne fun r hr => hgreatest.2 hr }

end Steps

/-- **The statistics.**  After every run in which a round-trip time has been measured since the last
reset, and none was negative, `total_rpcs`, `min_rtt`, `max_rtt` and `avg_rtt` are their number,
minimum, maximum and mean if and only if there are fewer than 2 ^ 64 of them and either none was 0
or the last one was. -/
theorem rttStatistics_iff (lastRequest : Timespec) (config : AdaptiveTimeoutConfig)
    (as : List AdaptiveAction) (s : MeasuredTimeout)
    (hrun : run adaptiveStep (.init lastRequest config) as = some s) (hne : s.rtts ≠ [])
    (hnonneg : ∀ r ∈ s.rtts, 0 ≤ r) :
    s.timeout.TrueStatistics s.rtts ↔
      s.rtts.length < 2 ^ 64 ∧ (0 ∉ s.rtts ∨ s.rtts.getLast hne = 0) :=
  (run_adaptiveStep_statisticsOf hrun).true_iff hne hnonneg

/-- Two RPCs of 5 and 3 milliseconds. -/
theorem rttStatistics_five_three :
    ∃ s, run adaptiveStep (.init ⟨0, 0⟩ defaultConfig) (twoRpcs 5 3) = some s ∧
      s.rtts = [5, 3] ∧ s.timeout.TrueStatistics s.rtts := by
  obtain ⟨s, hrun, hrtts⟩ := exists_run_twoRpcs ⟨0, 0⟩ defaultConfig 5 3
  have hne : s.rtts ≠ [] := by
    rw [hrtts]
    exact List.cons_ne_nil _ _
  refine ⟨s, hrun, by simpa using hrtts,
    (rttStatistics_iff ⟨0, 0⟩ defaultConfig _ s hrun hne ?_).2 ⟨?_, .inl ?_⟩⟩
  all_goals rw [hrtts]
  · simp
  · show 2 < 2 ^ 64
    norm_num
  · simp

/-- Two RPCs of 0 and 5 milliseconds: `min_rtt` is 5. -/
theorem minRtt_after_zero :
    ∃ s, run adaptiveStep (.init ⟨0, 0⟩ defaultConfig) (twoRpcs 0 5) = some s ∧
      s.rtts = [0, 5] ∧ s.timeout.minRtt = 5 ∧ ¬ s.timeout.TrueStatistics s.rtts := by
  obtain ⟨s, hrun, hrtts⟩ := exists_run_twoRpcs ⟨0, 0⟩ defaultConfig 0 5
  have hmin : s.timeout.minRtt = 5 := by
    rw [(run_adaptiveStep_statisticsOf hrun).minRtt, hrtts]
    simp [markedMin]
  refine ⟨s, hrun, by simpa using hrtts, hmin, fun htrue => ?_⟩
  have hzero : (0 : ℚ) ∈ s.rtts := by simp [hrtts]
  have hle : s.timeout.minRtt ≤ 0 := htrue.minRtt.2 hzero
  rw [hmin] at hle
  norm_num at hle

end Oceanliner
