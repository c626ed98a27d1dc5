/-
# The log file comes before the store

Whoever leads, and however the threads of a node are interleaved, `thread_5` takes only batches
that `thread_2` or `thread_3` of its node has written to the log file, and takes none more often
than it has been written.  What it applies are the commands of these batches, one after the
other.

The log file has the order in which batches are applied as long as `thread_2` and `thread_3` do
not write while the other one has written a batch that it has not enqueued.  Then the store is
what a prefix of the log file makes of the store at the start.
-/
import Oceanliner.Main.Reads

open Bytes MapOps Transition
open Network (Moves)

namespace Oceanliner

variable {n : ℕ} {DB : Type}

/-! ### What `thread_5` takes -/

/-- The batch that `thread_5` takes in its next step, if it takes one. -/
def thread5Takes (s : Server n DB) : List (CmdBuffer n) :=
  match s.thread5 with
  | .idle => s.queue35.head?.toList
  | _ => []

/-- The batch that `thread_5` of node `i` takes in a step of the cluster, if it takes one. -/
def takenBatches (i : Fin n) (c : Cluster n DB) : ClusterAction n → List (CmdBuffer n)
  | .thread5 j => if j = i then thread5Takes (c.node i) else []
  | _ => []

/-- The batches that are in the log file and that `thread_5` has not taken. -/
def loggedAhead (s : Server n DB) : List (CmdBuffer n) :=
  s.queue35 ++ (s.thread2.written ++ s.thread3.written)

/-- The batch that `thread_2` is about to write. -/
def Thread2.toWrite : Thread2 n → List (CmdBuffer n)
  | .logging b => [b]
  | _ => []

/-- The batch that `thread_3` is about to write. -/
def Thread3.toWrite : Thread3 n → List (CmdBuffer n)
  | .logging w => [w]
  | _ => []

/-- What a step does with the log file and `_3_to_5`, when `own` is the batch that the thread has
written and not enqueued, and `logging` says that it is about to write one. -/
inductive LogStep (s s' : Server n DB) (logging : Prop) (own own' : List (CmdBuffer n)) : Prop
  | silent (hlog : s'.logFile = s.logFile) (hqueue : s'.queue35 = s.queue35) (hown : own' = own)
  | logs {b : CmdBuffer n} (hlogging : logging) (hlog : s'.logFile = s.logFile ++ [b])
      (hqueue : s'.queue35 = s.queue35) (hfrom : own = []) (hto : own' = [b])
  | enqueues {b : CmdBuffer n} (hlog : s'.logFile = s.logFile)
      (hqueue : s'.queue35 = s.queue35 ++ [b]) (hfrom : own = [b]) (hto : own' = [])

/-- What no thread but `thread_5` changes. -/
structure SameStore (s s' : Server n DB) : Prop where
  thread5 : s'.thread5 = s.thread5
  applied : s'.applied = s.applied
  diskMap : s'.diskMap = s.diskMap

section Steps

variable {R : RocksDb DB} {i : Fin n} {s s' : Server n DB}

lemma Thread1Outcome.sameStore (h : Thread1Outcome i s s') : SameStore s s' := by
  cases h <;> exact ⟨rfl, rfl, rfl⟩

lemma Thread1Outcome.loggedAhead_eq (h : Thread1Outcome i s s') :
    s'.logFile = s.logFile ∧ s'.thread2 = s.thread2 ∧ s'.thread3 = s.thread3 ∧
      s'.queue35 = s.queue35 := by
  cases h <;> exact ⟨rfl, rfl, rfl, rfl⟩

lemma Thread2Outcome.sameStore {popped out : Outgoing n} (h : Thread2Outcome i s popped s' out) :
    SameStore s s' := by
  cases h <;> exact ⟨rfl, rfl, rfl⟩

lemma Thread2Outcome.thread3_eq {popped out : Outgoing n}
    (h : Thread2Outcome i s popped s' out) : s'.thread3 = s.thread3 := by
  cases h <;> rfl

lemma Thread2Outcome.logStep {popped out : Outgoing n} (h : Thread2Outcome i s popped s' out) :
    LogStep s s' (∃ b, s.thread2 = .logging b) s.thread2.written s'.thread2.written := by
  cases h with
  | discards => exact .silent rfl rfl rfl
  | reads hidle => exact .silent rfl rfl (by rw [hidle]; rfl)
  | accepts hfrom => exact .silent rfl rfl (by rw [hfrom]; rfl)
  | refuses hfrom => exact .silent rfl rfl (by rw [hfrom]; rfl)
  | votes hfrom => exact .silent rfl rfl (by rw [hfrom]; rfl)
  | takesOk hfrom => exact .silent rfl rfl (by rw [hfrom]; rfl)
  | takesErr hfrom => exact .silent rfl rfl (by rw [hfrom]; rfl)
  | countsVote hfrom _ hto =>
      rcases hto with rfl | rfl
      · exact .silent rfl rfl (by rw [hfrom]; rfl)
      · exact .silent rfl rfl (by rw [hfrom]; rfl)
  | repliesOk hfrom => exact .silent rfl rfl (by rw [hfrom]; rfl)
  | replies hfrom => exact .silent rfl rfl (by rw [hfrom]; rfl)
  | @logs b hfrom => exact .logs ⟨b, hfrom⟩ rfl rfl (by rw [hfrom]; rfl) rfl
  | enqueues hfrom => exact .enqueues rfl rfl (by rw [hfrom]; rfl) rfl
  | becomesLeader hfrom => exact .silent rfl rfl (by rw [hfrom]; rfl)

lemma Thread3Outcome.sameStore {out : Outgoing n} (h : Thread3Outcome i s s' out) :
    SameStore s s' := by
  cases h <;> exact ⟨rfl, rfl, rfl⟩

lemma Thread3Outcome.thread2_eq {out : Outgoing n} (h : Thread3Outcome i s s' out) :
    s'.thread2 = s.thread2 := by
  cases h <;> rfl

lemma Thread3Outcome.logStep {out : Outgoing n} (h : Thread3Outcome i s s' out) :
    LogStep s s' (∃ w, s.thread3 = .logging w) s.thread3.written s'.thread3.written := by
  cases h with
  | takes hidle => exact .silent rfl rfl (by rw [hidle]; rfl)
  | builds hfrom => exact .silent rfl rfl (by rw [hfrom]; rfl)
  | sends hfrom => exact .silent rfl rfl (by rw [hfrom]; rfl)
  | waits hfrom => exact .silent rfl rfl (by rw [hfrom]; rfl)
  | counts hfrom => exact .silent rfl rfl (by rw [hfrom]; rfl)
  | skips => exact .silent rfl rfl rfl
  | commits hfrom => exact .silent rfl rfl (by rw [hfrom]; rfl)
  | @logs w hfrom => exact .logs ⟨w, hfrom⟩ rfl rfl (by rw [hfrom]; rfl) rfl
  | enqueues hfrom => exact .enqueues rfl rfl (by rw [hfrom]; rfl) rfl

end Steps

/-! ### Node by node -/

/-- What a step of the cluster does to a node, and the batch that `thread_5` takes in it. -/
inductive NodeStep (R : RocksDb DB) (i : Fin n) (a : ClusterAction n) (s : Server n DB) :
    Server n DB → List (CmdBuffer n) → Prop
  | stays : NodeStep R i a s s []
  | thread1 {s' : Server n DB} (h : Thread1Outcome i s s') : NodeStep R i a s s' []
  | thread2 {popped out : Outgoing n} {s' : Server n DB} (h : Thread2Outcome i s popped s' out)
      (ha : a = .thread2 i ∨ s.thread2.toWrite = []) : NodeStep R i a s s' []
  | thread3 {out : Outgoing n} {s' : Server n DB} (h : Thread3Outcome i s s' out)
      (ha : a = .thread3 i) : NodeStep R i a s s' []
  | thread5 {s' : Server n DB} (h : Thread5Outcome R s s') : NodeStep R i a s s' (thread5Takes s)
  | election {raft : RaftVars} : NodeStep R i a s { s with raft := raft } []

lemma nodeStep_of_moves {R : RocksDb DB} {c c' : Cluster n DB} {i k : Fin n}
    {a : ClusterAction n} {s : Server n DB} {popped pushed : Fin n → List (Message n)}
    (hmoves : Moves c k s popped pushed c') (h : NodeStep R k a (c.node k) s []) :
    NodeStep R i a (c.node i) (c'.node i) [] := by
  by_cases hi : i = k
  · subst hi
    rw [hmoves.node_self]
    exact h
  · rw [hmoves.node_of_ne hi]
    exact .stays

lemma toWrite_of_receive {s s' : Server n DB} {m : Message n} (h : thread2Receive s m = some s') :
    s.thread2.toWrite = [] := by
  rw [thread2Receive] at h
  split at h
  · rename_i hidle
    rw [hidle]
    rfl
  · cases h

lemma clusterStep_node {R : RocksDb DB} {c c' : Cluster n DB} {a : ClusterAction n}
    (h : clusterStep R c a = some c') (i : Fin n) :
    NodeStep R i a (c.node i) (c'.node i) (takenBatches i c a) := by
  cases a with
  | thread1 k event =>
      obtain ⟨s, hs, rfl⟩ := Option.map_eq_some_iff.1 h
      exact nodeStep_of_moves (c.moves_send k s none) (.thread1 (thread1Step_spec hs))
  | receive k j =>
      rw [clusterStep] at h
      split at h
      · cases h
      · rename_i m rest hlink
        obtain ⟨s, hs, rfl⟩ := Option.map_eq_some_iff.1 h
        exact nodeStep_of_moves (c.moves_receive s hlink)
          (.thread2 (thread2Receive_spec (j := j) hs) (.inr (toWrite_of_receive hs)))
  | thread2 k =>
      obtain ⟨⟨s, out⟩, hs, rfl⟩ := Option.map_eq_some_iff.1 h
      exact nodeStep_of_moves (c.moves_send k s out) (.thread2 (thread2Step_spec hs) (.inl rfl))
  | thread3 k =>
      obtain ⟨⟨s, out⟩, hs, rfl⟩ := Option.map_eq_some_iff.1 h
      exact nodeStep_of_moves (c.moves_send k s out) (.thread3 (thread3Step_spec hs) rfl)
  | thread5 k =>
      obtain ⟨s, hs, rfl⟩ := Option.map_eq_some_iff.1 h
      have hmoves := c.moves_send k s none
      rw [takenBatches]
      by_cases hk : k = i
      · subst hk
        rw [if_pos rfl, hmoves.node_self]
        exact .thread5 (thread5Step_spec hs)
      · rw [if_neg hk, hmoves.node_of_ne (Ne.symm hk)]
        exact .stays
  | candidate k =>
      obtain rfl := Option.some.inj h
      exact nodeStep_of_moves (c.moves_send k _ none) .election
  | requestVote k j =>
      rw [clusterStep] at h
      split at h
      · obtain rfl := Option.some.inj h
        exact nodeStep_of_moves (c.moves_send k (c.node k) _) .stays
      · cases h

/-! ### What has been taken -/

/-- `thread_5` applies the commands of the batches it has taken, in order. -/
def AppliesTaken (s : Server n DB) (taken : List (CmdBuffer n)) : Prop :=
  ∃ todo, s.thread5.ToApply todo ∧
    s.applied.map Prod.snd ++ todo = taken.flatMap CmdBuffer.commandBytes

/-- The log file holds what `thread_5` has taken and what it is going to take. -/
def LogsTaken (s : Server n DB) (taken : List (CmdBuffer n)) : Prop :=
  (taken ++ loggedAhead s).Perm s.logFile

section Invariants

variable {R : RocksDb DB} {i : Fin n} {a : ClusterAction n} {s s' : Server n DB}
  {taken fresh : List (CmdBuffer n)}

lemma AppliesTaken.of_sameStore (hs : AppliesTaken s taken) (h : SameStore s s') :
    AppliesTaken s' taken := by
  obtain ⟨todo, htodo, heq⟩ := hs
  refine ⟨todo, ?_, ?_⟩
  · rw [h.thread5]
    exact htodo
  · rw [h.applied]
    exact heq

lemma Thread5Outcome.appliesTaken (h : Thread5Outcome R s s') (hs : AppliesTaken s taken) :
    AppliesTaken s' (taken ++ thread5Takes s) := by
  obtain ⟨todo, htodo, heq⟩ := hs
  cases h with
  | @takes b rest hidle hqueue =>
      rw [hidle] at htodo
      obtain rfl := htodo
      rw [thread5Takes, hidle, hqueue]
      refine ⟨b.commandBytes, ⟨[], b.commands, rfl, rfl, rfl⟩, ?_⟩
      rw [List.append_nil] at heq
      rw [List.flatMap_append, ← heq]
      simp
  | @applies b processed length diskMap hfrom hlt hcommand =>
      rw [hfrom] at htodo
      obtain ⟨done, rest, hcommands, rfl, rfl⟩ := htodo
      obtain ⟨r, rest', rfl, hnext, rfl⟩ := applies_next hcommands hlt hcommand
      rw [thread5Takes, hfrom, List.append_nil]
      refine ⟨rest'.map KvsRecord.bytes, ⟨done ++ [r], rest', ?_, ?_, rfl⟩, ?_⟩
      · rw [hcommands, List.append_assoc]
        rfl
      · exact (length_recordBytes_concat done r).symm
      · rw [← heq, List.map_append, List.append_assoc, List.map_cons]
        simp only [List.map_cons, List.map_nil, hnext]
        rfl
  | @finishes b processed hfrom hend =>
      rw [hfrom] at htodo
      obtain ⟨done, rest, hcommands, hprocessed, rfl⟩ := htodo
      obtain rfl := rest_eq_nil hcommands (hend.symm.trans hprocessed).le
      rw [thread5Takes, hfrom, List.append_nil]
      exact ⟨[], rfl, heq⟩
  | answers hfrom =>
      rw [hfrom] at htodo
      rw [thread5Takes, hfrom, List.append_nil]
      exact ⟨todo, htodo, heq⟩
  | keepsSilent hfrom =>
      rw [hfrom] at htodo
      rw [thread5Takes, hfrom, List.append_nil]
      exact ⟨todo, htodo, heq⟩

/-- Where `thread_5` takes a batch, it comes off `_3_to_5`. -/
lemma Thread5Outcome.loggedAhead_eq (h : Thread5Outcome R s s') :
    s'.logFile = s.logFile ∧ loggedAhead s = thread5Takes s ++ loggedAhead s' ∧
      s'.thread2 = s.thread2 ∧ s'.thread3 = s.thread3 := by
  cases h with
  | @takes b rest hidle hqueue =>
      refine ⟨rfl, ?_, rfl, rfl⟩
      rw [loggedAhead, thread5Takes, hidle, hqueue]
      rfl
  | applies hfrom => exact ⟨rfl, by rw [thread5Takes, hfrom]; rfl, rfl, rfl⟩
  | finishes hfrom => exact ⟨rfl, by rw [thread5Takes, hfrom]; rfl, rfl, rfl⟩
  | answers hfrom => exact ⟨rfl, by rw [thread5Takes, hfrom]; rfl, rfl, rfl⟩
  | keepsSilent hfrom => exact ⟨rfl, by rw [thread5Takes, hfrom]; rfl, rfl, rfl⟩

lemma NodeStep.appliesTaken (h : NodeStep R i a s s' fresh) (hs : AppliesTaken s taken) :
    AppliesTaken s' (taken ++ fresh) := by
  cases h with
  | stays => rwa [List.append_nil]
  | thread1 h =>
      rw [List.append_nil]
      exact hs.of_sameStore h.sameStore
  | thread2 h =>
      rw [List.append_nil]
      exact hs.of_sameStore h.sameStore
  | thread3 h =>
      rw [List.append_nil]
      exact hs.of_sameStore h.sameStore
  | thread5 h => exact h.appliesTaken hs
  | election =>
      rw [List.append_nil]
      exact hs.of_sameStore ⟨rfl, rfl, rfl⟩

/-- What a thread writes and enqueues, it adds to what `thread_5` is going to take. -/
lemma LogStep.perm {logging : Prop} {own own' other : List (CmdBuffer n)}
    (h : LogStep s s' logging own own') (hs : (taken ++ (s.queue35 ++ (own ++ other))).Perm s.logFile) :
    (taken ++ (s'.queue35 ++ (own' ++ other))).Perm s'.logFile := by
  cases h with
  | silent hlog hqueue hown => rwa [hlog, hqueue, hown]
  | @logs b _ hlog hqueue hfrom hto =>
      rw [hlog, hqueue, hto]
      rw [hfrom, List.nil_append, ← List.append_assoc] at hs
      rw [← List.append_assoc, ← List.append_assoc]
      have hswap : ([b] ++ other).Perm (other ++ [b]) := List.perm_append_comm
      have hmid := hswap.append_left (taken ++ s.queue35)
      rw [← List.append_assoc, ← List.append_assoc] at hmid
      exact hmid.trans (hs.append_right [b])
  | enqueues hlog hqueue hfrom hto =>
      rw [hlog, hqueue, hto]
      rw [hfrom] at hs
      simpa only [List.append_assoc, List.nil_append] using hs

lemma NodeStep.logsTaken (h : NodeStep R i a s s' fresh) (hs : LogsTaken s taken) :
    LogsTaken s' (taken ++ fresh) := by
  cases h with
  | stays => rwa [List.append_nil]
  | thread1 h =>
      obtain ⟨hlog, hthread2, hthread3, hqueue⟩ := h.loggedAhead_eq
      rwa [LogsTaken, loggedAhead, hlog, hthread2, hthread3, hqueue, List.append_nil]
  | thread2 h =>
      rw [LogsTaken, List.append_nil, loggedAhead, h.thread3_eq]
      exact h.logStep.perm hs
  | thread3 h =>
      rw [LogsTaken, List.append_nil, loggedAhead, h.thread2_eq]
      have hswap : ∀ q own : List (CmdBuffer n), (taken ++ (q ++ (s.thread2.written ++ own))).Perm
          (taken ++ (q ++ (own ++ s.thread2.written))) := fun q own =>
        (List.perm_append_comm.append_left q).append_left taken
      exact (hswap _ _).trans (h.logStep.perm ((hswap _ _).symm.trans hs))
  | thread5 h =>
      obtain ⟨hlog, hahead, -⟩ := h.loggedAhead_eq
      rwa [LogsTaken, hlog, List.append_assoc, ← hahead]
  | election => rwa [List.append_nil]

end Invariants

/-- **The log file comes before the store.**  In every run of a cluster and on every node, the
batches that `thread_5` has taken are in the log file, each as often as it has been taken or more
often, and what it has applied are the first commands of these batches, in order. -/
theorem applied_written_ahead (R : RocksDb DB) (raft : Fin n → RaftVars) (diskMap : Fin n → DB)
    (as : List (ClusterAction n)) {c : Cluster n DB}
    (hrun : run (clusterStep R) (Cluster.start raft diskMap) as = some c) (i : Fin n) :
    List.Subperm (trace (clusterStep R) (takenBatches i) (Cluster.start raft diskMap) as)
        (c.node i).logFile ∧
      (c.node i).applied.map Prod.snd <+:
        (trace (clusterStep R) (takenBatches i) (Cluster.start raft diskMap) as).flatMap
          CmdBuffer.commandBytes := by
  have hstart : LogsTaken ((Cluster.start raft diskMap : Cluster n DB).node i) [] ∧
      AppliesTaken ((Cluster.start raft diskMap : Cluster n DB).node i) [] :=
    ⟨List.Perm.refl [], [], rfl, rfl⟩
  have hboth := run_invariant_trace (takenBatches i)
    (I := fun c taken => LogsTaken (c.node i) taken ∧ AppliesTaken (c.node i) taken)
    (fun c taken a c' hc hstep =>
      ⟨(clusterStep_node hstep i).logsTaken hc.1, (clusterStep_node hstep i).appliesTaken hc.2⟩)
    hstart hrun
  obtain ⟨hlogs, todo, -, heq⟩ := hboth
  rw [List.nil_append] at hlogs heq
  exact ⟨(List.sublist_append_left _ _).subperm.trans hlogs.subperm, _, heq⟩

/-- A follower has applied the first batch. -/
theorem applied_written_ahead_first : ∃ c,
    run (clusterStep mapDb) (Cluster.start firstLeads fun _ _ => none)
        (admitSet ++ replicateSet ++ [.thread2 1, .thread2 1, .thread5 1, .thread5 1]) = some c ∧
      (c.node 1).applied ≠ [] ∧
        List.Subperm (trace (clusterStep mapDb) (takenBatches 1)
          (Cluster.start firstLeads fun _ _ => none)
          (admitSet ++ replicateSet ++ [.thread2 1, .thread2 1, .thread5 1, .thread5 1]))
          (c.node 1).logFile ∧
        (c.node 1).applied.map Prod.snd <+: (trace (clusterStep mapDb) (takenBatches 1)
          (Cluster.start firstLeads fun _ _ => none)
          (admitSet ++ replicateSet ++ [.thread2 1, .thread2 1, .thread5 1, .thread5 1])).flatMap
            CmdBuffer.commandBytes :=
  ⟨_, rfl, by decide +kernel,
    applied_written_ahead mapDb firstLeads (fun _ _ => none) _ rfl 1⟩

/-! ### One writer at a time -/

/-- Neither of `thread_2` and `thread_3` writes to the log file while the other one has written a
batch that it has not enqueued. -/
def WritesAlone (c : Cluster n DB) : ClusterAction n → Prop
  | .thread2 i => (c.node i).thread2.toWrite = [] ∨ (c.node i).thread3.written = []
  | .thread3 i => (c.node i).thread3.toWrite = [] ∨ (c.node i).thread2.written = []
  | _ => True

instance (c : Cluster n DB) : ∀ a, Decidable (WritesAlone c a)
  | .thread1 _ _ => isTrue trivial
  | .receive _ _ => isTrue trivial
  | .thread2 i =>
      inferInstanceAs (Decidable ((c.node i).thread2.toWrite = [] ∨ (c.node i).thread3.written = []))
  | .thread3 i =>
      inferInstanceAs (Decidable ((c.node i).thread3.toWrite = [] ∨ (c.node i).thread2.written = []))
  | .thread5 _ => isTrue trivial
  | .candidate _ => isTrue trivial
  | .requestVote _ _ => isTrue trivial

/-- The log file holds what `thread_5` has taken and what it is going to take, in this order. -/
structure LogsInOrder (s : Server n DB) (taken : List (CmdBuffer n)) : Prop where
  logged : taken ++ loggedAhead s = s.logFile
  alone : s.thread2.written = [] ∨ s.thread3.written = []

namespace LogsInOrder

variable {R : RocksDb DB} {i : Fin n} {a : ClusterAction n} {s s' : Server n DB}
  {taken fresh : List (CmdBuffer n)}

lemma of_thread2 (hs : LogsInOrder s taken) {popped out : Outgoing n}
    (h : Thread2Outcome i s popped s' out)
    (halone : s.thread2.toWrite = [] ∨ s.thread3.written = []) : LogsInOrder s' taken := by
  have hlogged := hs.logged
  have hother := h.thread3_eq
  rw [loggedAhead] at hlogged
  cases h.logStep with
  | silent hlog hqueue hown =>
      refine ⟨?_, ?_⟩
      · rw [loggedAhead, hlog, hqueue, hown, hother, hlogged]
      · rw [hown, hother]
        exact hs.alone
  | @logs b hlogging hlog hqueue hfrom hto =>
      obtain ⟨b', hb'⟩ := hlogging
      -- `thread_3` has enqueued what it has written
      have hnone : s.thread3.written = [] := by
        refine halone.resolve_left ?_
        rw [hb']
        rintro ⟨⟩
      refine ⟨?_, .inr (by rw [hother, hnone])⟩
      rw [hfrom, hnone, List.append_nil, List.append_nil] at hlogged
      rw [loggedAhead, hlog, hqueue, hto, hother, hnone, List.append_nil, ← List.append_assoc,
        hlogged]
  | enqueues hlog hqueue hfrom hto =>
      refine ⟨?_, .inl hto⟩
      rw [hfrom] at hlogged
      rw [loggedAhead, hlog, hqueue, hto, hother, ← hlogged, List.nil_append, List.append_assoc]

lemma of_thread3 (hs : LogsInOrder s taken) {out : Outgoing n} (h : Thread3Outcome i s s' out)
    (halone : s.thread3.toWrite = [] ∨ s.thread2.written = []) : LogsInOrder s' taken := by
  have hlogged := hs.logged
  have hother := h.thread2_eq
  rw [loggedAhead] at hlogged
  cases h.logStep with
  | silent hlog hqueue hown =>
      refine ⟨?_, ?_⟩
      · rw [loggedAhead, hlog, hqueue, hown, hother, hlogged]
      · rw [hown, hother]
        exact hs.alone
  | @logs b hlogging hlog hqueue hfrom hto =>
      obtain ⟨w, hw⟩ := hlogging
      have hnone : s.thread2.written = [] := by
        refine halone.resolve_left ?_
        rw [hw]
        rintro ⟨⟩
      refine ⟨?_, .inl (by rw [hother, hnone])⟩
      rw [hfrom, hnone, List.append_nil, List.append_nil] at hlogged
      rw [loggedAhead, hlog, hqueue, hto, hother, hnone, List.nil_append, ← List.append_assoc,
        hlogged]
  | enqueues hlog hqueue hfrom hto =>
      -- only one of the two has written a batch that it has not enqueued
      have hnone : s.thread2.written = [] := by
        refine hs.alone.resolve_right ?_
        rw [hfrom]
        rintro ⟨⟩
      refine ⟨?_, .inr hto⟩
      rw [hfrom, hnone, List.nil_append] at hlogged
      rw [loggedAhead, hlog, hqueue, hto, hother, hnone, ← hlogged, List.nil_append,
        List.append_nil]

lemma of_thread5 (hs : LogsInOrder s taken) (h : Thread5Outcome R s s') :
    LogsInOrder s' (taken ++ thread5Takes s) := by
  obtain ⟨hlog, hahead, hthread2, hthread3⟩ := h.loggedAhead_eq
  refine ⟨?_, ?_⟩
  · rw [List.append_assoc, ← hahead, hlog, hs.logged]
  · rw [hthread2, hthread3]
    exact hs.alone

lemma of_thread1 (hs : LogsInOrder s taken) (h : Thread1Outcome i s s') :
    LogsInOrder s' taken := by
  obtain ⟨hlog, hthread2, hthread3, hqueue⟩ := h.loggedAhead_eq
  refine ⟨?_, ?_⟩
  · rw [loggedAhead, hlog, hthread2, hthread3, hqueue, ← hs.logged, loggedAhead]
  · rw [hthread2, hthread3]
    exact hs.alone

/-- What one thread after the other writes stays in order. -/
theorem step {c c' : Cluster n DB} (hs : LogsInOrder (c.node i) taken) (halone : WritesAlone c a)
    (h : clusterStep R c a = some c') :
    LogsInOrder (c'.node i) (taken ++ takenBatches i c a) := by
  have hnode := clusterStep_node h i
  generalize takenBatches i c a = fresh at hnode
  generalize hs' : c'.node i = s' at hnode
  cases hnode with
  | stays => rwa [List.append_nil]
  | thread1 hout =>
      rw [List.append_nil]
      exact hs.of_thread1 hout
  | thread2 hout ha =>
      rw [List.append_nil]
      refine hs.of_thread2 hout ?_
      rcases ha with rfl | hnone
      · exact halone
      · exact .inl hnone
  | thread3 hout ha =>
      subst ha
      rw [List.append_nil]
      exact hs.of_thread3 hout halone
  | thread5 hout => exact hs.of_thread5 hout
  | election =>
      rw [List.append_nil]
      exact { hs with }

end LogsInOrder

/-! ### The store -/

/-- The datagrams received are commands of clients. -/
def ClusterAction.WellFormed : ClusterAction n → Prop
  | .thread1 _ (.datagram bytes _) => Oceanliner.WellFormed bytes
  | _ => True

instance : ∀ a : ClusterAction n, Decidable a.WellFormed
  | .thread1 _ (.datagram bytes _) => inferInstanceAs (Decidable (Oceanliner.WellFormed bytes))
  | .thread1 _ (.tick _) => isTrue trivial
  | .receive _ _ => isTrue trivial
  | .thread2 _ => isTrue trivial
  | .thread3 _ => isTrue trivial
  | .thread5 _ => isTrue trivial
  | .candidate _ => isTrue trivial
  | .requestVote _ _ => isTrue trivial

/-- The write batches on their way to the store of a node, its own and those it has read. -/
def incoming (s : Server n DB) : List (CmdBuffer n) :=
  writeBatches s ++ (s.thread2.toLog ++ s.thread2.written)

/-- The node carries out SETs and DELETEs on a store that has started as the map `m`, and sends
no batches but those. -/
structure CarriesOut (view : DB → List UInt8 → Option (List UInt8))
    (m : List UInt8 → Option (List UInt8)) (s : Server n DB) : Prop where
  batches : ∀ b ∈ incoming s, WriteBatch b
  reply : ∀ dest reply accepted, s.thread2 = .replying dest reply accepted → reply.entries = []
  thread5 : s.thread5.Between
  stored : view s.diskMap = MapOps.exec m (operations s.applied)

namespace CarriesOut

variable {R : RocksDb DB} {view : DB → List UInt8 → Option (List UInt8)}
  {m : List UInt8 → Option (List UInt8)} {i : Fin n} {s s' : Server n DB}

lemma of_writeBatches (hs : CarriesOut view m s) {b : CmdBuffer n} (hb : b ∈ writeBatches s) :
    WriteBatch b :=
  hs.batches b (List.mem_append_left _ hb)

/-- A step of `thread_1`, whose buffer holds SETs and DELETEs again. -/
lemma of_thread1 (hs : CarriesOut view m s) {t : Thread1 n}
    {queue13 : List (CmdBuffer n × CmdBuffer n)} {opened : ℕ} {enqueued : List (CmdBuffer n)}
    {admitted : List (List UInt8)}
    (hopen : ∀ p ∈ queue13 ++ t.buffers.toList, WriteBatch p.1) :
    CarriesOut view m { s with
      thread1 := t, queue13 := queue13, opened := opened, enqueued := enqueued
      admitted := admitted } := by
  refine { hs with batches := ?_ }
  intro b hb
  have hbatches := hs.batches
  simp only [incoming, writeBatches, openBatches, List.mem_append] at hb hbatches
  rcases hb with (hb | hb | hb | hb) | hb
  · exact hbatches b (.inl (.inl hb))
  · exact hbatches b (.inl (.inr (.inl hb)))
  · exact hbatches b (.inl (.inr (.inr (.inl hb))))
  · obtain ⟨p, hp, rfl⟩ := List.mem_map.1 hb
    exact hopen p hp
  · exact hbatches b (.inr hb)

lemma openBatches_spec (hs : CarriesOut view m s) :
    ∀ p ∈ s.queue13 ++ s.thread1.buffers.toList, WriteBatch p.1 := by
  intro p hp
  refine hs.of_writeBatches ?_
  rw [writeBatches]
  exact List.mem_append_right _ (List.mem_append_right _ (List.mem_append_right _
    (List.mem_map_of_mem hp)))

lemma thread1Step (hs : CarriesOut view m s) {event : Thread1Event}
    (hevent : (ClusterAction.thread1 i event).WellFormed)
    (h : Oceanliner.thread1Step i s event = some s') : CarriesOut view m s' := by
  have hopen := hs.openBatches_spec
  cases event with
  | tick timeUp =>
      rcases thread1Step_tick h with ⟨t, hto, rfl⟩ | ⟨t, hfrom, hto, rfl⟩ |
        ⟨w, r, hfrom, hwhy, rfl⟩ | ⟨w, r, enqueued, hfrom, rfl⟩
      · rw [← hto] at hopen
        exact hs.of_thread1 hopen
      · refine hs.of_thread1 fun p hp => ?_
        rw [hto, Option.toList_some] at hp
        rcases List.mem_append.1 hp with hp | hp
        · exact hopen p (List.mem_append_left _ hp)
        · obtain rfl := List.mem_singleton.1 hp
          exact .of_nil rfl
      · exact hs.of_thread1 fun p hp => hopen p
          (List.mem_append_left _ (by simpa [Thread1.buffers] using hp))
      · rw [hfrom, Option.toList_some] at hopen
        exact hs.of_thread1 fun p hp => hopen p (by simpa [Thread1.buffers] using hp)
  | datagram bytes memory =>
      obtain ⟨w, r, w', r', t, admitted, c, hfrom, hto, rfl, -, hlen, hwhich⟩ :=
        thread1Step_datagram hevent h
      have hbuffers : s.thread1.buffers = some (w, r) := by rw [hfrom]; rfl
      rw [hbuffers, Option.toList_some] at hopen
      have hw : WriteBatch w := hopen (w, r) (by simp)
      have hw' : WriteBatch w' := by
        rcases hwhich with ⟨-, -, -, rfl, -⟩ | ⟨-, hop, hroom, rfl, -⟩
        · exact hw
        · exact hw.push hop hroom hlen
      refine hs.of_thread1 fun p hp => ?_
      rw [hto, Option.toList_some] at hp
      rcases List.mem_append.1 hp with hp | hp
      · exact hopen p (List.mem_append_left _ hp)
      · obtain rfl := List.mem_singleton.1 hp
        exact hw'

/-- A step of `thread_2`, which holds SETs and DELETEs again. -/
lemma with_thread2 (hs : CarriesOut view m s) {raft : RaftVars} {t : Thread2 n}
    {queue23 : List (AppendOk n)} {logFile : List (CmdBuffer n)}
    (ht : ∀ b ∈ t.toLog ++ t.written, WriteBatch b)
    (hreply : ∀ dest reply accepted, t = .replying dest reply accepted → reply.entries = []) :
    CarriesOut view m
      { s with raft := raft, thread2 := t, queue23 := queue23, logFile := logFile } := by
  refine { hs with batches := ?_, reply := hreply }
  intro b hb
  rcases List.mem_append.1 hb with hb | hb
  · exact hs.of_writeBatches hb
  · exact ht b hb

/-- `thread_2` passes on what it has read. -/
lemma of_thread2 (hs : CarriesOut view m s) {popped out : Outgoing n}
    (h : Thread2Outcome i s popped s' out)
    (hpopped : ∀ j msg, popped = some (j, msg) → ∀ b ∈ msg.entries, WriteBatch b) :
    CarriesOut view m s' ∧ ∀ j msg, out = some (j, msg) → msg.entries = [] := by
  have hholds : ∀ b ∈ s.thread2.toLog ++ s.thread2.written, WriteBatch b := fun b hb =>
    hs.batches b (List.mem_append_right _ hb)
  have hnone : ∀ b ∈ ([] ++ [] : List (CmdBuffer n)), WriteBatch b := by rintro b ⟨⟩
  cases h with
  | discards => exact ⟨hs, by rintro j msg ⟨⟩⟩
  | @reads j msg raft hidle =>
      refine ⟨hs.with_thread2 ?_ (by rintro dest reply accepted ⟨⟩), by rintro j msg ⟨⟩⟩
      show ∀ b ∈ msg.entries ++ [], WriteBatch b
      rw [List.append_nil]
      exact hpopped j msg rfl
  | @accepts msg _ _ _ entries hfrom hbody =>
      have hentries : (Thread2.handling msg).toLog = [entries] := by
        rw [Thread2.toLog, Message.entries, hbody]
      rw [hfrom, hentries] at hholds
      exact ⟨hs.with_thread2 hholds (by rintro dest reply accepted ⟨⟩; rfl), by rintro j msg ⟨⟩⟩
  | refuses =>
      exact ⟨hs.with_thread2 hnone (by rintro dest reply accepted ⟨⟩; rfl), by rintro j msg ⟨⟩⟩
  | votes =>
      exact ⟨hs.with_thread2 hnone (by rintro dest reply accepted ⟨⟩; rfl), by rintro j msg ⟨⟩⟩
  | takesOk =>
      exact ⟨hs.with_thread2 hnone (by rintro dest reply accepted ⟨⟩), by rintro j msg ⟨⟩⟩
  | takesErr =>
      exact ⟨hs.with_thread2 hnone (by rintro dest reply accepted ⟨⟩), by rintro j msg ⟨⟩⟩
  | countsVote hfrom hbody hto =>
      rcases hto with rfl | rfl
      · exact ⟨hs.with_thread2 hnone (by rintro dest reply accepted ⟨⟩), by rintro j msg ⟨⟩⟩
      · exact ⟨hs.with_thread2 hnone (by rintro dest reply accepted ⟨⟩), by rintro j msg ⟨⟩⟩
  | @repliesOk dest reply b hfrom =>
      rw [hfrom] at hholds
      refine ⟨hs.with_thread2 hholds (by rintro dest reply accepted ⟨⟩), ?_⟩
      rintro j msg ⟨⟩
      exact hs.reply dest reply _ hfrom
  | @replies dest reply hfrom =>
      refine ⟨hs.with_thread2 hnone (by rintro dest reply accepted ⟨⟩), ?_⟩
      rintro j msg ⟨⟩
      exact hs.reply dest reply _ hfrom
  | @logs b hfrom =>
      rw [hfrom] at hholds
      exact ⟨hs.with_thread2 hholds (by rintro dest reply accepted ⟨⟩), by rintro j msg ⟨⟩⟩
  | @enqueues b hfrom =>
      refine ⟨{ hs with batches := ?_, reply := by rintro dest reply accepted ⟨⟩ },
        by rintro j msg ⟨⟩⟩
      -- the batch moves from `thread_2` to the queue
      intro b' hb'
      have hb : WriteBatch b := hholds b (by rw [hfrom]; exact List.mem_singleton_self b)
      have hwrites := hs.batches
      simp only [incoming, writeBatches, List.mem_append, List.mem_singleton] at hb' hwrites
      rcases hb' with ((hb' | rfl) | hb') | hb' | hb'
      · exact hwrites b' (.inl (.inl hb'))
      · exact hb
      · exact hwrites b' (.inl (.inr hb'))
      · cases hb'
      · cases hb'
  | becomesLeader =>
      exact ⟨hs.with_thread2 hnone (by rintro dest reply accepted ⟨⟩), by rintro j msg ⟨⟩⟩

/-- `thread_3` sends its write batch. -/
lemma of_thread3 (hs : CarriesOut view m s) {out : Outgoing n} (h : Thread3Outcome i s s' out) :
    CarriesOut view m s' ∧ ∀ j msg, out = some (j, msg) → ∀ b ∈ msg.entries, WriteBatch b := by
  have hbatches : ∀ b ∈ incoming s', WriteBatch b := by
    rw [incoming, h.writeBatches_eq, h.thread2_eq]
    exact hs.batches
  have hstore := h.sameStore
  have hthread2 := h.thread2_eq
  refine ⟨⟨hbatches, ?_, ?_, ?_⟩, ?_⟩
  · rw [hthread2]
    exact hs.reply
  · rw [hstore.thread5]
    exact hs.thread5
  · rw [hstore.diskMap, hstore.applied]
    exact hs.stored
  · intro j msg hout b hb
    cases h with
    | @sends w r prevLogTerm prevLogIndex dest rest hfrom =>
        obtain ⟨rfl, rfl⟩ := Prod.mk.inj (Option.some.inj hout)
        obtain rfl := List.mem_singleton.1 hb
        refine hs.of_writeBatches ?_
        rw [writeBatches, hfrom]
        exact List.mem_append_right _ (List.mem_append_right _
          (List.mem_append_left _ (List.mem_singleton_self _)))
    | _ => cases hout

/-- `thread_5` carries the next command out. -/
lemma of_thread5 (hR : R.Ideal view) (hs : CarriesOut view m s) (h : Thread5Outcome R s s') :
    CarriesOut view m s' := by
  have hthread5 := hs.thread5
  cases h with
  | @takes b rest hidle hqueue =>
      have hbatches := hs.batches
      have heq : incoming s =
          b :: incoming { s with thread5 := .applying b 0, queue35 := rest } := by
        simp only [incoming, writeBatches, hqueue]
        rfl
      rw [heq] at hbatches
      exact { hs with
        batches := fun b' hb' => hbatches b' (List.mem_cons_of_mem b hb')
        thread5 := ⟨hbatches b List.mem_cons_self, [], b.commands, rfl, rfl⟩ }
  | @applies b processed length diskMap hfrom hlt hcommand =>
      rw [hfrom] at hthread5
      obtain ⟨hb, before, rest, hcommands, rfl⟩ := hthread5
      obtain ⟨r, rest', rfl, hat, rfl⟩ := applies_next hcommands hlt hcommand
      have hview := thread5Command_view hR hb hcommands hcommand
      refine { hs with thread5 := ⟨hb, before ++ [r], rest', ?_, ?_⟩, stored := ?_ }
      · rw [hcommands, List.append_assoc]
        rfl
      · exact (length_recordBytes_concat before r).symm
      · rw [hview, hs.stored, operations, operations, List.map_append, exec_append]
        simp only [List.map_cons, List.map_nil, hat]
        rfl
  | finishes => exact { hs with thread5 := trivial }
  | answers hfrom =>
      rw [hfrom] at hthread5
      exact { hs with thread5 := hthread5 }
  | keepsSilent hfrom =>
      rw [hfrom] at hthread5
      exact { hs with thread5 := hthread5 }

end CarriesOut

/-- Every node carries out SETs and DELETEs, and no others are on their way. -/
structure AllCarryOut (view : DB → List UInt8 → Option (List UInt8))
    (m : Fin n → List UInt8 → Option (List UInt8)) (c : Cluster n DB) : Prop where
  node : ∀ i, CarriesOut view (m i) (c.node i)
  link : ∀ a b, ∀ msg ∈ c.link a b, ∀ e ∈ msg.entries, WriteBatch e

namespace AllCarryOut

variable {R : RocksDb DB} {view : DB → List UInt8 → Option (List UInt8)}
  {m : Fin n → List UInt8 → Option (List UInt8)} {c c' : Cluster n DB}

lemma start (view : DB → List UInt8 → Option (List UInt8)) (raft : Fin n → RaftVars)
    (diskMap : Fin n → DB) :
    AllCarryOut view (fun i => view (diskMap i)) (Cluster.start raft diskMap) where
  node := fun i =>
    { batches := by rintro b ⟨⟩
      reply := by rintro dest reply accepted ⟨⟩
      thread5 := trivial
      stored := rfl }
  link := by rintro a b msg ⟨⟩

lemma of_moves (hc : AllCarryOut view m c) {k : Fin n} {s : Server n DB} {popped out : Outgoing n}
    (hmoves : Moves c k s (onLink popped) (onLink out) c') (hs : CarriesOut view (m k) s)
    (hout : ∀ j msg, out = some (j, msg) → ∀ b ∈ msg.entries, WriteBatch b) :
    AllCarryOut view m c' where
  node := hmoves.forall_node (P := fun i s => CarriesOut view (m i) s) hc.node hs
  link := hmoves.forall_link (P := fun _ _ msg => ∀ e ∈ msg.entries, WriteBatch e) hc.link
    fun j msg hmsg => hout j msg (mem_onLink.1 hmsg)

theorem step (hR : R.Ideal view) (hc : AllCarryOut view m c) {a : ClusterAction n}
    (ha : a.WellFormed) (h : clusterStep R c a = some c') : AllCarryOut view m c' := by
  cases a with
  | thread1 k event =>
      obtain ⟨s, hs, rfl⟩ := Option.map_eq_some_iff.1 h
      exact hc.of_moves (c.moves_send k s none) ((hc.node k).thread1Step ha hs)
        (by rintro j msg ⟨⟩)
  | receive k j =>
      rw [clusterStep] at h
      split at h
      · cases h
      · rename_i msg rest hlink
        obtain ⟨s, hs, rfl⟩ := Option.map_eq_some_iff.1 h
        have hpopped : ∀ j' msg', (some (j, msg) : Outgoing n) = some (j', msg') →
            ∀ b ∈ msg'.entries, WriteBatch b := by
          rintro j' msg' ⟨⟩
          exact hc.link j k msg (by rw [hlink]; exact List.mem_cons_self)
        have hout : Thread2Outcome k (c.node k) (some (j, msg)) s none := thread2Receive_spec hs
        exact hc.of_moves (c.moves_receive s hlink) ((hc.node k).of_thread2 hout hpopped).1
          (by rintro j msg ⟨⟩)
  | thread2 k =>
      obtain ⟨⟨s, out⟩, hs, rfl⟩ := Option.map_eq_some_iff.1 h
      obtain ⟨hnode, hout⟩ := (hc.node k).of_thread2 (thread2Step_spec hs) (by rintro j msg ⟨⟩)
      refine hc.of_moves (c.moves_send k s out) hnode fun j msg hmsg b hb => ?_
      rw [hout j msg hmsg] at hb
      cases hb
  | thread3 k =>
      obtain ⟨⟨s, out⟩, hs, rfl⟩ := Option.map_eq_some_iff.1 h
      obtain ⟨hnode, hout⟩ := (hc.node k).of_thread3 (thread3Step_spec hs)
      exact hc.of_moves (c.moves_send k s out) hnode hout
  | thread5 k =>
      obtain ⟨s, hs, rfl⟩ := Option.map_eq_some_iff.1 h
      exact hc.of_moves (c.moves_send k s none) ((hc.node k).of_thread5 hR (thread5Step_spec hs))
        (by rintro j msg ⟨⟩)
  | candidate k =>
      obtain rfl := Option.some.inj h
      exact hc.of_moves (c.moves_send k _ none) { hc.node k with } (by rintro j msg ⟨⟩)
  | requestVote k j =>
      rw [clusterStep] at h
      split at h
      · obtain rfl := Option.some.inj h
        refine hc.of_moves (c.moves_send k (c.node k) _) (hc.node k) ?_
        rintro j' msg ⟨⟩ b ⟨⟩
      · cases h

end AllCarryOut

/-- **The store replays the log file.**  In every run of a cluster that receives well-formed
datagrams and in which `thread_2` and `thread_3` of a node do not write at the same time, whoever
leads, the store of every node is what the commands at the beginning of its log file make of the
store it has started with. -/
theorem store_replays_log (R : RocksDb DB) {view : DB → List UInt8 → Option (List UInt8)}
    (hR : R.Ideal view) (raft : Fin n → RaftVars) (diskMap : Fin n → DB)
    (as : List (ClusterAction n)) (has : ∀ a ∈ as, a.WellFormed)
    (halone : Guarded (clusterStep R) WritesAlone (Cluster.start raft diskMap) as)
    {c : Cluster n DB} (hrun : run (clusterStep R) (Cluster.start raft diskMap) as = some c)
    (i : Fin n) :
    ∃ commands, commands <+: (c.node i).logFile.flatMap CmdBuffer.commandBytes ∧
      view (c.node i).diskMap = MapOps.exec (view (diskMap i)) (commands.map mapOp) := by
  have hcarry := (Guarded.of_forall has).invariant (fun c a c' hc ha h => hc.step hR ha h)
    (AllCarryOut.start view raft diskMap) hrun
  have hstart : LogsInOrder ((Cluster.start raft diskMap : Cluster n DB).node i) [] ∧
      AppliesTaken ((Cluster.start raft diskMap : Cluster n DB).node i) [] :=
    ⟨⟨rfl, .inl rfl⟩, [], rfl, rfl⟩
  obtain ⟨hlogs, todo, -, heq⟩ := halone.invariant_trace (takenBatches i)
    (I := fun c taken => LogsInOrder (c.node i) taken ∧ AppliesTaken (c.node i) taken)
    (fun c taken a c' hc ha hstep =>
      ⟨hc.1.step ha hstep, (clusterStep_node hstep i).appliesTaken hc.2⟩) hstart hrun
  refine ⟨(c.node i).applied.map Prod.snd, ?_, ?_⟩
  · rw [← hlogs.logged, List.flatMap_append, ← heq]
    exact (List.prefix_append _ _).trans (List.prefix_append _ _)
  · rw [(hcarry.node i).stored, operations, List.map_map]
    rfl

/-- The leader and a follower have applied the first batch. -/
theorem store_replays_log_first : ∃ c,
    run (clusterStep mapDb) (Cluster.start firstLeads fun _ _ => none)
        (admitSet ++ replicateSet ++ [.thread2 1, .thread2 1, .thread5 1, .thread5 1] ++ answerSet) =
      some c ∧ (c.node 1).applied ≠ [] ∧
        ∃ commands, commands <+: (c.node 1).logFile.flatMap CmdBuffer.commandBytes ∧
          (c.node 1).diskMap = MapOps.exec (fun _ => none) (commands.map mapOp) :=
  ⟨_, rfl, by decide +kernel,
    store_replays_log mapDb mapDb_ideal firstLeads (fun _ _ => none)
      (admitSet ++ replicateSet ++ [.thread2 1, .thread2 1, .thread5 1, .thread5 1] ++ answerSet)
      (by decide +kernel) (by decide +kernel) rfl 1⟩

end Oceanliner
