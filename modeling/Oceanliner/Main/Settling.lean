/-
# What a leader has taken in, the cluster finishes

In a calm run `thread_3` does not wait in vain, and no step of the threads 2, 3 and 5 fails as long
as the batches are within the limits.  So these threads can stop only when every batch that
`thread_1` has enqueued is in every log file, applied to every store and answered to its clients
(`writes_settle`).  That they do stop is said in `inner_steps_end`.
-/
import Oceanliner.Main.Failures
import Oceanliner.Main.Work

open Bytes MapOps Transition

namespace Oceanliner

variable {n : ℕ} {DB : Type}

/-- Everything that the leader has enqueued is in every log file and in every store, which node `j`
has started with as the map `m j`, and the leader has answered it. -/
structure Settled (view : DB → List UInt8 → Option (List UInt8))
    (m : Fin n → List UInt8 → Option (List UInt8)) (leader : Fin n) (c : Cluster n DB) : Prop where
  logFile : ∀ j, (c.node j).logFile = (c.node leader).enqueued
  stored : ∀ j, view (c.node j).diskMap = MapOps.exec (m j)
    (((c.node leader).enqueued.flatMap CmdBuffer.commandBytes).map mapOp)
  acked : (c.node leader).acked.map Prod.snd =
    (c.node leader).enqueued.flatMap CmdBuffer.commandBytes

/-- None of the threads 2, 3 and 5 can take a step. -/
def AtRest (R : RocksDb DB) (c : Cluster n DB) : Prop :=
  ∀ a, ClusterAction.Inner a → clusterStep R c a = none

namespace AtRest

variable {R : RocksDb DB} {leader : Fin n} {raft : RaftVars} {c : Cluster n DB}
  (hrest : AtRest R c) (hc : CalmCluster leader raft c)

include hrest

lemma thread2Step_eq (i : Fin n) : thread2Step i (c.node i) = none :=
  Option.map_eq_none_iff.1 (hrest (.thread2 i) trivial)

lemma thread3Step_eq (i : Fin n) : thread3Step i (c.node i) = none :=
  Option.map_eq_none_iff.1 (hrest (.thread3 i) trivial)

lemma thread5Step_eq (i : Fin n) : thread5Step R (c.node i) = none :=
  Option.map_eq_none_iff.1 (hrest (.thread5 i) trivial)

include hc

/-- No assertion of `thread_2` fails, so it has nothing left to do. -/
lemma thread2_idle (i : Fin n) : (c.node i).thread2 = .idle :=
  hc.thread2_idle (hrest.thread2Step_eq i)

lemma link_eq_nil (a b : Fin n) : c.link a b = [] := by
  cases hlink : c.link a b with
  | nil => rfl
  | cons m rest =>
      have hstep := hrest (.receive b a) trivial
      rw [clusterStep, hlink] at hstep
      have hreceive := Option.map_eq_none_iff.1 hstep
      rw [thread2Receive, hrest.thread2_idle hc b] at hreceive
      split at hreceive
      · split at hreceive <;> cases hreceive
      · rename_i hbusy
        exact absurd rfl hbusy

/-- `thread_3` of the leader has its majority, since all the others have answered. -/
lemma thread3_idle (hterm : raft.lastAppliedTerm = raft.currentTerm) (hawaits : Awaits leader c)
    (hlimits : WithinLimits (c.node leader).enqueued) :
    (c.node leader).thread3 = .idle ∧ (c.node leader).queue13 = [] := by
  cases hc.thread3_waits hterm hlimits (hrest.thread3Step_eq leader) with
  | batch hidle hqueue => exact ⟨hidle, hqueue⟩
  | @ok w r counted hfrom hfew hqueue =>
      -- nothing is on the way, so the answers of all the others have been counted
      have hcounted : ∀ j, j ≠ leader → j ∈ counted.map Prod.fst := by
        intro j hj
        have hsome := hawaits (by rw [hfrom]; trivial) j hj
        rw [awaited, Network.conveyor, hrest.link_eq_nil hc, hrest.link_eq_nil hc,
          hrest.thread2_idle hc, hrest.thread2_idle hc, arrivedOks, hfrom, hqueue] at hsome
        simp only [Thread3.counted, Thread3.unsent, Thread2.okRead, Thread2.unanswered,
          List.filter_nil, List.map_nil, List.flatMap_nil, List.append_nil, ne_eq,
          List.map_eq_nil_iff, List.filter_eq_nil_iff, not_forall] at hsome
        obtain ⟨ok, hok, hj'⟩ := hsome
        rw [not_not, decide_eq_true_eq] at hj'
        exact List.mem_map.2 ⟨ok, hok, hj'⟩
      have hlength : n - 1 ≤ counted.length := by
        have hsub : Finset.univ.erase leader ⊆ (counted.map Prod.fst).toFinset := by
          intro j hj
          exact List.mem_toFinset.2 (hcounted j (Finset.ne_of_mem_erase hj))
        have hcard := (Finset.card_le_card hsub).trans (List.toFinset_card_le _)
        rwa [Finset.card_erase_of_mem (Finset.mem_univ leader), Finset.card_univ,
          Fintype.card_fin, List.length_map] at hcard
      omega

/-- **Where the cluster rests, everything is done.** -/
theorem settled (hterm : raft.lastAppliedTerm = raft.currentTerm) (hawaits : Awaits leader c)
    {view : DB → List UInt8 → Option (List UInt8)}
    {m : Fin n → List UInt8 → Option (List UInt8)} (hcarry : AllCarryOut view m c)
    (hlogged : ∀ i, HoldsLogged (c.node i)) (hlimits : WithinLimits (c.node leader).enqueued) :
    Settled view m leader c := by
  have hleading := hc.replicating.leading.logged
  -- the log files
  obtain ⟨hidle3, hqueue13⟩ := hrest.thread3_idle hc hterm hawaits hlimits
  have hlogFile : ∀ j, (c.node j).logFile = (c.node leader).enqueued := by
    intro j
    by_cases hj : j = leader
    · subst hj
      rw [hidle3, hqueue13, Thread3.toLog, List.map_nil, List.append_nil, List.append_nil]
        at hleading
      exact hleading
    · have hsent := hc.replicating.sent j hj
      rw [pipeline, Network.conveyor, hrest.link_eq_nil hc, hrest.link_eq_nil hc, received,
        hrest.thread2_idle hc, unsentBatches, hidle3, hqueue13] at hsent
      simpa [Thread2.toLog, Thread3.unsent] using hsent
  -- the stores
  have hidle5 : ∀ i, (c.node i).thread5 = .idle ∧ (c.node i).queue35 = [] := fun i =>
    hc.thread5_waits hcarry hlogged hlimits (hrest.thread5Step_eq i)
  have happlied : ∀ i, (c.node i).applied.map Prod.snd =
      (c.node leader).enqueued.flatMap CmdBuffer.commandBytes := by
    intro i
    obtain ⟨todo, htodo, heq⟩ := hc.replicating.appliesLog i
    have hwritten : (c.node i).thread3.written = [] := by
      by_cases hi : i = leader
      · rw [hi, hidle3]
        rfl
      · rw [(hc.replicating.following i hi).thread3]
        rfl
    rw [(hidle5 i).1] at htodo
    obtain rfl := htodo
    rw [(hidle5 i).2, hrest.thread2_idle hc, hwritten, hlogFile i] at heq
    simpa [Thread2.written] using heq
  refine ⟨hlogFile, fun j => ?_, ?_⟩
  · rw [(hcarry.node j).stored, ← happlied j, operations, List.map_map]
    rfl
  · have hanswered := (hc.node leader).answered rfl
    rw [(hidle5 leader).1] at hanswered
    rw [← happlied leader, ← hanswered]
    exact congrArg _ (List.append_nil _).symm

end AtRest

/-! ### Runs -/

lemma ClusterAction.Inner.ofThreads {a : ClusterAction n} (h : a.Inner) :
    a.OfThreads ∧ a.WellFormed := by
  cases a with
  | candidate => exact h.elim
  | requestVote => exact h.elim
  | thread1 => exact h.elim
  | _ => exact ⟨trivial, trivial⟩

lemma enqueued_of_moves {c c' : Cluster n DB} {k : Fin n} {s : Server n DB}
    {popped pushed : Fin n → List (Message n)} (hmoves : Network.Moves c k s popped pushed c')
    (h : s.enqueued = (c.node k).enqueued) (i : Fin n) :
    (c'.node i).enqueued = (c.node i).enqueued := by
  by_cases hi : i = k
  · rw [hi, hmoves.node_self, h]
  · rw [hmoves.node_of_ne hi]

/-- Only `thread_1` enqueues batches. -/
lemma inner_enqueued {R : RocksDb DB} {c c' : Cluster n DB} {a : ClusterAction n} (ha : a.Inner)
    (h : clusterStep R c a = some c') (i : Fin n) : (c'.node i).enqueued = (c.node i).enqueued := by
  cases a with
  | thread1 => exact ha.elim
  | receive k j =>
      rw [clusterStep] at h
      split at h
      · cases h
      · rename_i m rest hlink
        obtain ⟨s, hs, rfl⟩ := Option.map_eq_some_iff.1 h
        refine enqueued_of_moves (c.moves_receive s hlink) ?_ i
        have hspec : Thread2Outcome k (c.node k) (some (j, m)) s none := thread2Receive_spec hs
        cases hspec <;> rfl
  | thread2 k =>
      obtain ⟨⟨s, out⟩, hs, rfl⟩ := Option.map_eq_some_iff.1 h
      refine enqueued_of_moves (c.moves_send k s out) ?_ i
      cases thread2Step_spec hs <;> rfl
  | thread3 k =>
      obtain ⟨⟨s, out⟩, hs, rfl⟩ := Option.map_eq_some_iff.1 h
      refine enqueued_of_moves (c.moves_send k s out) ?_ i
      cases thread3Step_spec hs <;> rfl
  | thread5 k =>
      obtain ⟨s, hs, rfl⟩ := Option.map_eq_some_iff.1 h
      refine enqueued_of_moves (c.moves_send k s none) ?_ i
      cases thread5Step_spec hs <;> rfl
  | candidate => exact ha.elim
  | requestVote => exact ha.elim

lemma inner_run_enqueued {R : RocksDb DB} {c c' : Cluster n DB} {as : List (ClusterAction n)}
    (has : ∀ a ∈ as, a.Inner) (hrun : run (clusterStep R) c as = some c') (i : Fin n) :
    (c'.node i).enqueued = (c.node i).enqueued :=
  (Guarded.of_forall has).invariant (I := fun c' => (c'.node i).enqueued = (c.node i).enqueued)
    (fun _ _ _ heq ha hstep => (inner_enqueued ha hstep i).trans heq) rfl hrun

lemma NodeStep.enqueued_isPrefix {R : RocksDb DB} {i : Fin n} {a : ClusterAction n}
    {s s' : Server n DB} {taken : List (CmdBuffer n)} (h : NodeStep R i a s s' taken) :
    s.enqueued <+: s'.enqueued := by
  cases h with
  | stays => exact List.prefix_rfl
  | thread1 h =>
      obtain ⟨fresh, -, henqueued⟩ := h.unsent
      rw [henqueued]
      exact List.prefix_append _ _
  | thread2 h => cases h <;> exact List.prefix_rfl
  | thread3 h => cases h <;> exact List.prefix_rfl
  | thread5 h => cases h <;> exact List.prefix_rfl
  | election => exact List.prefix_rfl

lemma run_enqueued_isPrefix {R : RocksDb DB} {c c' : Cluster n DB} {as : List (ClusterAction n)}
    (hrun : run (clusterStep R) c as = some c') (i : Fin n) :
    (c.node i).enqueued <+: (c'.node i).enqueued :=
  run_invariant (I := fun c' => (c.node i).enqueued <+: (c'.node i).enqueued)
    (fun _ _ _ hle hstep => hle.trans (clusterStep_node hstep i).enqueued_isPrefix)
    List.prefix_rfl hrun

/-- What the threads keep to, when one node leads from the start. -/
lemma calm_of_threads {R : RocksDb DB} {view : DB → List UInt8 → Option (List UInt8)}
    (hR : R.Ideal view) {raft : Fin n → RaftVars} {diskMap : Fin n → DB} {leader : Fin n}
    {term lastIndex : ℕ}
    (hstart : StableLeader leader term term lastIndex (Cluster.start raft diskMap))
    {as : List (ClusterAction n)} (has : ∀ a ∈ as, a.OfThreads ∧ a.WellFormed) {c : Cluster n DB}
    (hrun : run (clusterStep R) (Cluster.start raft diskMap) as = some c) :
    CalmCluster leader (raft leader) c ∧ Awaits leader c ∧
      AllCarryOut view (fun j => view (diskMap j)) c ∧ ∀ i, HoldsLogged (c.node i) := by
  have hlead : (raft leader).state = .leader := hstart.leads
  have hterm : (raft leader).lastAppliedTerm = (raft leader).currentTerm :=
    (hstart.lastApplied leader).1.trans hstart.term_eq.symm
  exact (Guarded.of_forall has).invariant
    (I := fun c => CalmCluster leader (raft leader) c ∧ Awaits leader c ∧
      AllCarryOut view (fun j => view (diskMap j)) c ∧ ∀ i, HoldsLogged (c.node i))
    (fun c a c' ⟨hc, hawaits, hcarry, hlogged⟩ ⟨ha, hformed⟩ hstep =>
      ⟨hc.step hlead ha hstep, hawaits.step hterm hc ha hstep, hcarry.step hR hformed hstep,
        fun i => (clusterStep_node hstep i).holdsLogged (hlogged i)⟩)
    ⟨CalmCluster.start hstart, fun hcollecting => hcollecting.elim,
      AllCarryOut.start view raft diskMap, by rintro i b ⟨⟩⟩ hrun

/-- **What a stable leader has taken in, the cluster finishes.**  Let one of at most `MAX_NODES`
nodes lead from the start, with no term above its own and the same last applied entry, of its own
term, on every node; and let the threads of `main.c` take any steps, with well-formed datagrams.
As long as every batch of the leader fits into a message, no value is longer than `string` and all
the batches together are a log file below 2 GiB, no step fails in any state of the run, with reads
of one message each.  In whatever order the threads 2, 3 and 5 then go on, they take at most as many
steps as there is work left, and when none of them can go on, every batch that the leader has
enqueued is in every log file, applied to every store and answered. -/
theorem writes_settle (R : RocksDb DB) {view : DB → List UInt8 → Option (List UInt8)}
    (hR : R.Ideal view) (hn : n ≤ maxNodes) (raft : Fin n → RaftVars) (diskMap : Fin n → DB)
    {leader : Fin n} {term lastIndex : ℕ}
    (hstart : StableLeader leader term term lastIndex (Cluster.start raft diskMap))
    (as : List (ClusterAction n)) (has : ∀ a ∈ as, a.OfThreads ∧ a.WellFormed) {c : Cluster n DB}
    (hrun : run (clusterStep R) (Cluster.start raft diskMap) as = some c)
    (hlimits : WithinLimits (c.node leader).enqueued)
    (as' : List (ClusterAction n)) (has' : ∀ a ∈ as', a.Inner) {c' : Cluster n DB}
    (hrun' : run (clusterStep R) c as' = some c') :
    (∀ before after c₀, as ++ as' = before ++ after →
        run (clusterStep R) (Cluster.start raft diskMap) before = some c₀ → NoneFails R c₀) ∧
      as'.length ≤ c.work ∧
      (AtRest R c' → Settled view (fun j => view (diskMap j)) leader c') := by
  have hterm : (raft leader).lastAppliedTerm = (raft leader).currentTerm :=
    (hstart.lastApplied leader).1.trans hstart.term_eq.symm
  have hthreads : ∀ a ∈ as ++ as', a.OfThreads ∧ a.WellFormed := by
    intro a ha
    rcases List.mem_append.1 ha with ha | ha
    · exact has a ha
    · exact (has' a ha).ofThreads
  have hwhole := run_append_eq_some.2 ⟨c, hrun, hrun'⟩
  have hlimits' : WithinLimits (c'.node leader).enqueued := by
    rwa [inner_run_enqueued has' hrun']
  refine ⟨?_, ?_, ?_⟩
  · intro before after c₀ hsplit hbefore
    rw [hsplit] at hwhole hthreads
    obtain ⟨c₁, hc₁, hafter⟩ := run_append_eq_some.1 hwhole
    obtain rfl : c₁ = c₀ := Option.some.inj (hc₁.symm.trans hbefore)
    obtain ⟨hc, -, hcarry, hlogged⟩ :=
      calm_of_threads hR hstart (fun a ha => hthreads a (List.mem_append_left _ ha)) hbefore
    exact hc.noneFails hn hterm hcarry hlogged
      (hlimits'.of_isPrefix (run_enqueued_isPrefix hafter leader))
  · have hle := run_length_le (fun c a c' ha hstep => inner_work_lt ha hstep) has' hrun'
    omega
  · intro hrest
    obtain ⟨hc, hawaits, hcarry, hlogged⟩ := calm_of_threads hR hstart hthreads hwhole
    exact hrest.settled hc hterm hawaits hcarry hlogged hlimits'

/-- Node `0` has enqueued a SET; wherever the cluster of three comes to rest, it is done. -/
theorem writes_settle_first : ∃ c as' c',
    run (clusterStep mapDb) (Cluster.start (firstLeads (n := 3)) fun _ _ => none) admitSet = some c ∧
      run (clusterStep mapDb) c as' = some c' ∧ (c'.node 0).enqueued ≠ [] ∧
        NoneFails mapDb c ∧ Settled id (fun _ _ => none) 0 c' := by
  have hsome : ∃ c, run (clusterStep mapDb) (Cluster.start (firstLeads (n := 3)) fun _ _ => none)
      admitSet = some c ∧ (c.node 0).enqueued ≠ [] ∧ WithinLimits (c.node 0).enqueued :=
    ⟨_, rfl, by decide +kernel, by decide +kernel, by decide +kernel, by decide +kernel⟩
  obtain ⟨c, hrun, hne, hlimits⟩ := hsome
  obtain ⟨as', c', has', hrun', hrest⟩ :=
    exists_run_to_rest (fun _ _ _ ha hstep => inner_work_lt (R := mapDb) ha hstep) c
  have hstart : StableLeader 0 1 1 0 (Cluster.start (firstLeads (n := 3))
      fun _ => (fun _ => none : List UInt8 → Option (List UInt8))) := by
    decide +kernel
  obtain ⟨hnone, -, hsettled⟩ := writes_settle mapDb mapDb_ideal (by decide) firstLeads
    (fun _ _ => none) hstart admitSet (by decide +kernel) hrun hlimits as' has' hrun'
  refine ⟨c, as', c', hrun, hrun', ?_, hnone _ _ c rfl hrun, hsettled hrest⟩
  rw [inner_run_enqueued has' hrun']
  exact hne

end Oceanliner
