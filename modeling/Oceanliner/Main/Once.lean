/-
# Every batch at most once

In every run of a cluster, with any elections and any terms, a log file has no batch that its
origin has not enqueued, and none twice; so no batch is given to a store twice
(`logged_once`).

The batches that a node has opened in a term move along a pipeline to every other node.  On the
way they get lost, when a node has heard of a later term or refuses them, but they are neither
doubled nor exchanged.  The numbers of the batches that a node enqueues only grow.
-/
import Oceanliner.Main.Agreement

open Network (Moves conveyor)
open Transition

namespace Oceanliner

variable {n : ℕ} {DB : Type}

/-! ### The numbers of batches -/

/-- The batches that `thread_1` has enqueued, and the one that it has opened. -/
def openedBatches (s : Server n DB) : List (CmdBuffer n) :=
  s.enqueued ++ s.thread1.buffers.toList.map Prod.fst

/-- Node `i` numbers its batches in the order in which it opens them. -/
structure NumbersBatches (i : Fin n) (s : Server n DB) : Prop where
  origin : ∀ w ∈ openedBatches s, w.id.origin = i
  increasing : (serials (openedBatches s)).Pairwise (· < ·)
  below : ∀ k ∈ serials (openedBatches s), k < s.opened

section Numbers

variable {R : RocksDb DB} {i : Fin n} {a : ClusterAction n} {s s' : Server n DB}
  {fresh : List (CmdBuffer n)}

namespace NumbersBatches

/-- What has been opened may get lost. -/
lemma of_sublist (hs : NumbersBatches i s) (hopened : s'.opened = s.opened)
    (horigin : ∀ w ∈ openedBatches s', w.id.origin = i)
    (hsub : List.Sublist (serials (openedBatches s')) (serials (openedBatches s))) :
    NumbersBatches i s' where
  origin := horigin
  increasing := hs.increasing.sublist hsub
  below := by
    intro k hk
    rw [hopened]
    exact hs.below k (hsub.subset hk)

lemma of_thread1 (hs : NumbersBatches i s) (h : Thread1Outcome i s s') :
    NumbersBatches i s' := by
  have horigin := hs.origin
  rw [openedBatches] at horigin
  cases h with
  | seesLeader hidle =>
      refine hs.of_sublist rfl ?_ ?_
      · simpa [openedBatches, hidle, Thread1.buffers] using horigin
      · simp [openedBatches, hidle, Thread1.buffers]
  | opens hseen =>
      have hincreasing := hs.increasing
      have hbelow := hs.below
      have hnone : openedBatches s = s.enqueued := by
        simp [openedBatches, hseen, Thread1.buffers]
      rw [hnone] at hincreasing hbelow
      rw [← openedBatches, hnone] at horigin
      have hnew : openedBatches { s with
          thread1 := .filling (thread1Open s.raft ⟨i, s.opened⟩) (thread1Open s.raft ⟨i, s.opened⟩)
          opened := s.opened + 1 } = s.enqueued ++ [thread1Open s.raft ⟨i, s.opened⟩] := rfl
      refine ⟨?_, ?_, ?_⟩
      · rw [hnew]
        intro w hw
        rcases List.mem_append.1 hw with hold | hlast
        · exact horigin w hold
        · rw [List.mem_singleton.1 hlast]
          rfl
      · rw [hnew, serials, List.map_append, List.pairwise_append]
        refine ⟨hincreasing, List.pairwise_singleton _ _, ?_⟩
        intro k hk k' hk'
        rw [List.mem_singleton.1 hk']
        exact hbelow k hk
      · rw [hnew, serials, List.map_append]
        intro k hk
        rcases List.mem_append.1 hk with hold | hlast
        · exact Nat.lt_succ_of_lt (hbelow k hold)
        · rw [List.mem_singleton.1 hlast]
          exact Nat.lt_succ_self s.opened
  | goesOn hfrom hto =>
      refine hs.of_sublist rfl ?_ ?_
      · simpa [openedBatches, hfrom, hto] using horigin
      · simp [openedBatches, hfrom, hto]
  | admitsRead hfrom hto =>
      refine hs.of_sublist rfl ?_ ?_
      · simpa [openedBatches, hfrom, hto] using horigin
      · simp [openedBatches, hfrom, hto]
  | @admitsWrite w _ _ _ hfrom hto =>
      refine hs.of_sublist rfl ?_ ?_
      · rw [hfrom] at horigin
        rw [openedBatches, hto]
        intro w' hw'
        rcases List.mem_append.1 hw' with hold | hlast
        · exact horigin w' (List.mem_append_left _ hold)
        · rw [List.mem_singleton.1 hlast]
          exact horigin w (List.mem_append_right _ (List.mem_singleton_self w))
      · simp [openedBatches, hfrom, hto, CmdBuffer.push]
  | abandons hfrom =>
      refine hs.of_sublist rfl ?_ ?_
      · intro w hw
        rw [openedBatches] at hw
        exact horigin w (List.mem_append_left _ (by simpa [Thread1.buffers] using hw))
      · simp [openedBatches, Thread1.buffers]
  | enqueues hfrom =>
      refine hs.of_sublist rfl ?_ ?_
      · simpa [openedBatches, hfrom, Thread1.buffers] using horigin
      · simp [openedBatches, hfrom, Thread1.buffers]

lemma step (hs : NumbersBatches i s) (h : NodeStep R i a s s' fresh) : NumbersBatches i s' := by
  cases h with
  | stays => exact hs
  | thread1 h => exact hs.of_thread1 h
  | thread2 h => cases h <;> exact { hs with }
  | thread3 h => cases h <;> exact { hs with }
  | thread5 h => cases h <;> exact { hs with }
  | election => exact { hs with }

lemma of_run {raft : Fin n → RaftVars} {diskMap : Fin n → DB} {as : List (ClusterAction n)}
    {c : Cluster n DB} (hrun : run (clusterStep R) (Cluster.start raft diskMap) as = some c) :
    NumbersBatches i (c.node i) :=
  run_invariant (I := fun c => NumbersBatches i (c.node i))
    (fun _ _ _ hc hstep => hc.step (clusterStep_node hstep i))
    ⟨by rintro w ⟨⟩, List.Pairwise.nil, by rintro k ⟨⟩⟩ hrun

/-- No two batches that a node has enqueued have one number. -/
lemma nodup (hs : NumbersBatches i s) : (s.enqueued.map (·.id.serial)).Nodup := by
  have hincreasing := hs.increasing
  rw [serials, openedBatches, List.map_append] at hincreasing
  exact (List.pairwise_append.1 hincreasing).1.imp Nat.ne_of_lt

end NumbersBatches

end Numbers

/-! ### Pipelines -/

/-- The batches of the term between node `i` and the log file of node `j`, the oldest first. -/
def lossyPipeline (term : ℕ) (c : Cluster n DB) (i j : Fin n) : List (CmdBuffer n) :=
  conveyor (fun _ _ => []) (fun s _ => batchesOf i term (kept true s))
    (fun s j => batchesOf i term (unsentBatches s j)) (fun m => batchesOf i term m.entries)
    (fun _ => []) c i j

/-- What `thread_2` reads from a leader it takes or refuses. -/
lemma kept_sublist_of_thread2 {leader i : Fin n} {term : ℕ} {s s' : Server n DB}
    {popped out : Outgoing n} (h : Thread2Outcome i s popped s' out)
    (hpopped : ∀ j m, popped = some (j, m) → MessageFrom j i m) :
    List.Sublist (batchesOf leader term (kept true s'))
      (batchesOf leader term (kept true s) ++
        (onLink popped leader).flatMap fun m => batchesOf leader term m.entries) := by
  cases h with
  | discards => exact List.sublist_append_left _ _
  | @reads j m _ hidle =>
      have hkept : kept true s = s.logFile := by
        simp [kept, hidle, Thread2.taken, Thread2.toLog]
      rw [hkept, kept, batchesOf_append]
      refine (List.Sublist.refl _).append ?_
      show List.Sublist (batchesOf leader term m.entries) _
      rw [onLink_some]
      by_cases hj : leader = j
      · rw [if_pos hj, List.flatMap_singleton]
      · rw [batchesOf_of_sender (hpopped j m rfl) (Ne.symm hj)]
        exact List.nil_sublist _
  | accepts hfrom hbody =>
      simp [kept, hfrom, Thread2.taken, Thread2.toLog, Message.entries, hbody]
  | repliesOk hfrom => simp [kept, hfrom, Thread2.taken, Thread2.toLog]
  | logs hfrom => simp [kept, hfrom, Thread2.taken, Thread2.toLog]
  | countsVote hfrom _ hto =>
      rcases hto with rfl | rfl
      · simp [kept, hfrom, Thread2.taken, Thread2.toLog]
      · simp [kept, hfrom, Thread2.taken, Thread2.toLog]
  | _ => simp [kept, Thread2.taken, Thread2.toLog]

/-- The batches that a leader has opened in a term are on their way at most once. -/
structure PipedOnce (leader : Fin n) (term : ℕ) (c : Cluster n DB) : Prop where
  origins : ClusterOrigins c
  own : OwnLogged leader term (c.node leader)
  piped : ∀ j, j ≠ leader →
    List.Sublist (lossyPipeline term c leader j) (batchesOf leader term (c.node leader).enqueued)

namespace PipedOnce

variable {R : RocksDb DB} {leader : Fin n} {term : ℕ} {c c' : Cluster n DB} {a : ClusterAction n}

/-- Node `k` takes a step, and takes or loses what comes off the pipelines of others. -/
lemma of_moves {k : Fin n} {s : Server n DB} {popped out : Outgoing n}
    (hc : PipedOnce leader term c) (hstep : clusterStep R c a = some c')
    (hmoves : Moves c k s (onLink popped) (onLink out) c')
    {fresh : List (CmdBuffer n)} (hfresh : AddsBatches k (c.node k) s out fresh)
    (hkept : k ≠ leader → List.Sublist (batchesOf leader term (kept true s))
      (batchesOf leader term (kept true (c.node k)) ++
        (onLink popped leader).flatMap fun m => batchesOf leader term m.entries)) :
    PipedOnce leader term c' where
  origins := hc.origins.step hstep
  own := by
    by_cases hk : k = leader
    · subst hk
      rw [hmoves.node_self]
      exact hfresh.own term hc.own
    · rw [hmoves.node_of_ne (Ne.symm hk)]
      exact hc.own
  piped := by
    intro j hj
    by_cases hk : k = leader
    · subst hk
      rw [hmoves.node_self, hfresh.enqueued, batchesOf_append]
      refine List.Sublist.trans ?_ ((hc.piped j hj).append (List.Sublist.refl _))
      refine Network.conveyor_near Network.appends_sublist hmoves hj ?_ ?_
      · rw [List.flatMap_eq_nil_iff.2 fun _ _ => rfl, List.append_nil]
      · rw [← batchesOf_flatMap, ← batchesOf_append, hfresh.unsent j hj, batchesOf_append]
    · rw [hmoves.node_of_ne (Ne.symm hk)]
      refine List.Sublist.trans ?_ (hc.piped j hj)
      by_cases hjk : j = k
      · subst hjk
        refine Network.conveyor_far Network.appends_sublist hmoves (Ne.symm hj) ?_
        rw [List.flatMap_eq_nil_iff.2 fun _ _ => rfl, List.nil_append]
        exact hkept hk
      · rw [lossyPipeline, Network.conveyor_of_ne _ _ _ _ _ hmoves (Ne.symm hk) hjk,
          ← lossyPipeline]

theorem step (hc : PipedOnce leader term c) (hstep : clusterStep R c a = some c') :
    PipedOnce leader term c' := by
  cases clusterStep_spec hstep with
  | @thread1 _ i s _ h hmoves =>
      obtain ⟨fresh, hfresh⟩ := h.addsBatches
      refine hc.of_moves hstep hmoves hfresh fun _ => ?_
      rw [onLink_none, List.flatMap_nil, List.append_nil]
      cases h <;> exact List.Sublist.refl _
  | @thread2 _ i popped out s _ h hmoves =>
      exact hc.of_moves hstep hmoves (h.addsBatches (hc.origins.node i).thread2) fun _ =>
        kept_sublist_of_thread2 h fun j m hm => hc.origins.popped h hmoves hm
  | @thread3 i out s _ h hmoves =>
      refine hc.of_moves hstep hmoves h.addsBatches fun hi => ?_
      rw [onLink_none, List.flatMap_nil, List.append_nil,
        kept_of_thread3 (hc.origins.node i).thread3 hi h]
  | @thread5 i s _ h hmoves =>
      refine hc.of_moves hstep hmoves h.addsBatches fun _ => ?_
      rw [onLink_none, List.flatMap_nil, List.append_nil]
      cases h <;> exact List.Sublist.refl _
  | @election _ i r out _ hout hmoves =>
      refine hc.of_moves hstep hmoves (addsBatches_of_election (no_entries_of_election hout))
        fun _ => ?_
      rw [onLink_none, List.flatMap_nil, List.append_nil]
      exact List.Sublist.refl _

lemma of_run {raft : Fin n → RaftVars} {diskMap : Fin n → DB} {as : List (ClusterAction n)}
    (hrun : run (clusterStep R) (Cluster.start raft diskMap) as = some c) :
    PipedOnce leader term c :=
  run_invariant (fun _ _ _ hc hstep => hc.step hstep)
    ⟨ClusterOrigins.start raft diskMap, rfl, fun _ _ => List.Sublist.refl _⟩ hrun

/-- A log file has the batches of the leader in their order, with gaps. -/
lemma logFile_sublist (hc : PipedOnce leader term c) (i : Fin n) :
    List.Sublist (batchesOf leader term (c.node i).logFile)
      (batchesOf leader term (c.node leader).enqueued) := by
  by_cases hi : i = leader
  · subst hi
    rw [← hc.own, ownBatches, batchesOf_append]
    exact List.sublist_append_left _ _
  · have hkept : List.Sublist (batchesOf leader term (c.node i).logFile)
        (batchesOf leader term (kept true (c.node i))) := by
      rw [kept, batchesOf_append]
      exact List.sublist_append_left _ _
    refine List.Sublist.trans ?_ (hc.piped i hi)
    rw [lossyPipeline, conveyor]
    refine List.Sublist.trans ?_ (List.sublist_append_right _ _)
    refine List.Sublist.trans ?_ (List.sublist_append_right _ _)
    exact hkept.trans (List.sublist_append_left _ _)

end PipedOnce

/-! ### Runs -/

section Runs

variable {R : RocksDb DB} {raft : Fin n → RaftVars} {diskMap : Fin n → DB}
  {as : List (ClusterAction n)} {c : Cluster n DB}

lemma mem_batchesOf {b : CmdBuffer n} {bs : List (CmdBuffer n)} :
    b ∈ batchesOf b.id.origin b.term bs ↔ b ∈ bs := by
  simp [batchesOf]

/-- What a log file has was enqueued by its origin. -/
lemma mem_enqueued_of_logFile
    (hrun : run (clusterStep R) (Cluster.start raft diskMap) as = some c) {i : Fin n}
    {b : CmdBuffer n} (hb : b ∈ (c.node i).logFile) : b ∈ (c.node b.id.origin).enqueued :=
  mem_batchesOf.1 (((PipedOnce.of_run hrun).logFile_sublist i).subset (mem_batchesOf.2 hb))

/-- A log file has no batch twice. -/
lemma logFile_nodup (hrun : run (clusterStep R) (Cluster.start raft diskMap) as = some c)
    (i : Fin n) : (c.node i).logFile.Nodup := by
  rw [List.nodup_iff_sublist]
  intro b hb
  have hown : List.Sublist [b, b] (batchesOf b.id.origin b.term (c.node i).logFile) := by
    have hfilter := hb.filter fun b' => decide (b'.id.origin = b.id.origin ∧ b'.term = b.term)
    simpa [batchesOf] using hfilter
  have henqueued : List.Sublist [b, b] (c.node b.id.origin).enqueued :=
    (hown.trans ((PipedOnce.of_run hrun).logFile_sublist i)).trans List.filter_sublist
  exact List.nodup_iff_sublist.1 (NumbersBatches.of_run hrun).nodup.of_map b henqueued

/-- Two batches of a log file have two names. -/
lemma logFile_nodup_id (hrun : run (clusterStep R) (Cluster.start raft diskMap) as = some c)
    (i : Fin n) : ((c.node i).logFile.map CmdBuffer.id).Nodup := by
  refine (logFile_nodup hrun i).map_on ?_
  intro b hb b' hb' hid
  have hmem := mem_enqueued_of_logFile hrun hb
  have hmem' := mem_enqueued_of_logFile hrun hb'
  rw [← hid] at hmem'
  exact List.inj_on_of_nodup_map (NumbersBatches.of_run hrun).nodup hmem hmem'
    (congrArg BatchId.serial hid)

end Runs

/-- **Every batch at most once.**  In every run of a cluster, with any elections and any order of
steps, a log file has only batches that their origins have enqueued, no two of one name, and
`thread_5` takes no two batches of one name. -/
theorem logged_once (R : RocksDb DB) (raft : Fin n → RaftVars) (diskMap : Fin n → DB)
    (as : List (ClusterAction n)) {c : Cluster n DB}
    (hrun : run (clusterStep R) (Cluster.start raft diskMap) as = some c) (i : Fin n) :
    (∀ b ∈ (c.node i).logFile, b ∈ (c.node b.id.origin).enqueued) ∧
      ((c.node i).logFile.map CmdBuffer.id).Nodup ∧
        ((trace (clusterStep R) (takenBatches i) (Cluster.start raft diskMap) as).map
          CmdBuffer.id).Nodup := by
  have hlogged : ((c.node i).logFile.map CmdBuffer.id).Nodup := logFile_nodup_id hrun i
  refine ⟨fun b hb => mem_enqueued_of_logFile hrun hb, hlogged, ?_⟩
  have hstart : LogsTaken ((Cluster.start raft diskMap : Cluster n DB).node i) [] :=
    List.Perm.refl []
  have htaken := run_invariant_trace (takenBatches i)
    (I := fun c taken => LogsTaken (c.node i) taken)
    (fun c taken a c' hc hstep => (clusterStep_node hstep i).logsTaken hc) hstart hrun
  rw [List.nil_append, LogsTaken] at htaken
  have hall := (htaken.map CmdBuffer.id).nodup_iff.2 hlogged
  rw [List.map_append] at hall
  exact hall.of_append_left

/-- Node `1` has written a batch of node `0` to its log file and taken it. -/
theorem logged_once_first : ∃ c,
    run (clusterStep mapDb) (Cluster.start (firstLeads (n := 3)) fun _ _ => none)
        (admitSet ++ replicateSet ++ standsMeanwhile 1 2 0) = some c ∧
      (c.node 1).logFile.length = 1 ∧
        ((trace (clusterStep mapDb) (takenBatches 1)
          (Cluster.start (firstLeads (n := 3)) fun _ _ => none)
          (admitSet ++ replicateSet ++ standsMeanwhile 1 2 0)).map CmdBuffer.id).Nodup := by
  have hend : ∃ c,
      run (clusterStep mapDb) (Cluster.start (firstLeads (n := 3)) fun _ _ => none)
          (admitSet ++ replicateSet ++ standsMeanwhile 1 2 0) = some c ∧
        (c.node 1).logFile.length = 1 := ⟨_, rfl, by decide +kernel⟩
  obtain ⟨c, hrun, hlength⟩ := hend
  exact ⟨c, hrun, hlength, (logged_once mapDb firstLeads (fun _ _ => none) _ hrun 1).2.2⟩

end Oceanliner
