/-
Majorities behind acknowledged and applied writes.

`thread_3` counts OKs until it has a majority, writes the batch to the log file and passes it
to `thread_5`.  If every OK it counts answers the very batch it waits for, and comes from a
node that has that batch in its log file already, then the log file of a node holds only such
batches of its own that a majority has (`Quorate`).  Neither is so in `main.c`: `thread_2`
sends its OK before it writes the log file, an OK names its batch by `last_applied_*` alone,
and `thread_2` passes a batch to `thread_5` as soon as it has accepted it.
-/
import Oceanliner.Lib.Ballot
import Oceanliner.Main.Replies

open Ballot (Majority)
open Network (Moves)
open Transition

namespace Oceanliner

variable {n : ℕ} {DB : Type}

/-! ### Majorities -/

/-- The nodes with the batch in their log file. -/
def loggedBy (logs : Fin n → List (CmdBuffer n)) (b : CmdBuffer n) : Finset (Fin n) :=
  Finset.univ.filter fun j => b ∈ logs j

/-- The nodes that have accepted the batch: the one that created it, and those with the batch
in their log file. -/
def acceptedBy (logs : Fin n → List (CmdBuffer n)) (b : CmdBuffer n) : Finset (Fin n) :=
  Finset.univ.filter fun j => j = b.id.origin ∨ b ∈ logs j

/-- The log files of a cluster. -/
def Cluster.logs (c : Cluster n DB) (j : Fin n) : List (CmdBuffer n) := (c.node j).logFile

section Majorities

variable {logs logs' : Fin n → List (CmdBuffer n)} {b : CmdBuffer n}

lemma mem_loggedBy {j : Fin n} : j ∈ loggedBy logs b ↔ b ∈ logs j := by
  simp [loggedBy]

lemma mem_acceptedBy {j : Fin n} : j ∈ acceptedBy logs b ↔ j = b.id.origin ∨ b ∈ logs j := by
  simp [acceptedBy]

lemma loggedBy_mono (h : ∀ j, logs j ⊆ logs' j) : loggedBy logs b ⊆ loggedBy logs' b := by
  intro j hj
  exact mem_loggedBy.2 (h j (mem_loggedBy.1 hj))

lemma acceptedBy_mono (h : ∀ j, logs j ⊆ logs' j) : acceptedBy logs b ⊆ acceptedBy logs' b := by
  intro j hj
  exact mem_acceptedBy.2 ((mem_acceptedBy.1 hj).imp_right fun hb => h j hb)

lemma loggedBy_subset_acceptedBy : loggedBy logs b ⊆ acceptedBy logs b := by
  intro j hj
  exact mem_acceptedBy.2 (.inr (mem_loggedBy.1 hj))

/-- Once its creator has the batch in its log file too, those that have accepted it are those
that have it in their log file. -/
lemma acceptedBy_subset_loggedBy (h : b ∈ logs b.id.origin) :
    acceptedBy logs b ⊆ loggedBy logs b := by
  intro j hj
  rcases mem_acceptedBy.1 hj with rfl | hb
  · exact mem_loggedBy.2 h
  · exact mem_loggedBy.2 hb

/-- Enough OKs from different nodes make a majority, with the node that has counted them. -/
lemma majority_of_counted {nodes : List (Fin n)} (hnodup : nodes.Nodup)
    (hothers : ∀ j ∈ nodes, j ≠ b.id.origin) (hlogged : ∀ j ∈ nodes, b ∈ logs j)
    (hquorum : n / 2 < 1 + nodes.length) : Majority (acceptedBy logs b) := by
  have hnot : b.id.origin ∉ nodes.toFinset := by
    intro hmem
    exact hothers _ (List.mem_toFinset.1 hmem) rfl
  have hsub : insert b.id.origin nodes.toFinset ⊆ acceptedBy logs b := by
    intro j hj
    rcases Finset.mem_insert.1 hj with rfl | hj
    · exact mem_acceptedBy.2 (.inl rfl)
    · exact mem_acceptedBy.2 (.inr (hlogged j (List.mem_toFinset.1 hj)))
  refine Majority.mono hsub ?_
  rw [Majority, Fintype.card_fin, Finset.card_insert_of_notMem hnot,
    List.toFinset_card_of_nodup hnodup]
  omega

end Majorities

/-! ### The conditions -/

/-- The OK that `thread_3` is about to count, with the batch that it waits for. -/
def nextOk (s : Server n DB) : Option (AppendOk n × CmdBuffer n) :=
  match s.thread3, s.queue23 with
  | .waiting w _ counted, ok :: _ =>
      if 1 + counted.length ≤ n / 2 ∧ thread3Counts ok w = true then some (ok, w) else none
  | _, _ => none

/-- The batch of the command that `thread_5` is about to answer. -/
def nextAnswer (s : Server n DB) : Option (CmdBuffer n) :=
  match s.thread5 with
  | .answering b _ _ => if s.raft.state = .leader then some b else none
  | _ => none

/-- The batch that `thread_5` is about to take from its queue. -/
def nextTaken (s : Server n DB) : Option (CmdBuffer n) :=
  match s.thread5, s.queue35 with
  | .idle, b :: _ => some b
  | _, _ => none

/-- An OK that is counted answers the batch that `thread_3` waits for, and its sender has the
batch in its log file. -/
def CountsLogged (c : Cluster n DB) : ClusterAction n → Prop
  | .thread3 i => ∀ p ∈ nextOk (c.node i), p.1.answers = p.2 ∧ p.2 ∈ c.logs p.1.nodeId
  | _ => True

/-- The creator of a batch has it in its log file when a command of it is answered. -/
def AnswersLogged (c : Cluster n DB) : ClusterAction n → Prop
  | .thread5 i => ∀ b ∈ nextAnswer (c.node i), b ∈ c.logs b.id.origin
  | _ => True

/-- The creator of a batch has it in its log file when `thread_5` takes it. -/
def TakesLogged (c : Cluster n DB) : ClusterAction n → Prop
  | .thread5 i => ∀ b ∈ nextTaken (c.node i), b ∈ c.logs b.id.origin
  | _ => True

instance (c : Cluster n DB) (a : ClusterAction n) : Decidable (CountsLogged c a) :=
  match a with
  | .thread3 i => inferInstanceAs (Decidable (∀ p ∈ nextOk (c.node i), _ ∧ _))
  | .thread1 _ _ | .receive _ _ | .thread2 _ | .thread5 _ | .candidate _ | .requestVote _ _ =>
      isTrue trivial

instance (c : Cluster n DB) (a : ClusterAction n) : Decidable (AnswersLogged c a) :=
  match a with
  | .thread5 i => inferInstanceAs (Decidable (∀ b ∈ nextAnswer (c.node i), _))
  | .thread1 _ _ | .receive _ _ | .thread2 _ | .thread3 _ | .candidate _ | .requestVote _ _ =>
      isTrue trivial

instance (c : Cluster n DB) (a : ClusterAction n) : Decidable (TakesLogged c a) :=
  match a with
  | .thread5 i => inferInstanceAs (Decidable (∀ b ∈ nextTaken (c.node i), _))
  | .thread1 _ _ | .receive _ _ | .thread2 _ | .thread3 _ | .candidate _ | .requestVote _ _ =>
      isTrue trivial

/-! ### The log files -/

/-- The batch that `thread_5` works on. -/
def Thread5.batch : Thread5 n → List (CmdBuffer n)
  | .idle => []
  | .applying b _ => [b]
  | .answering b _ _ => [b]

/-- With the given log files, the OKs that `thread_3` has counted are from nodes that have its
batch, and it writes only batches that a majority has accepted. -/
def Thread3.Quorate (logs : Fin n → List (CmdBuffer n)) : Thread3 n → Prop
  | .waiting w _ counted => ∀ ok ∈ counted, ok.2 = w ∧ w ∈ logs ok.1
  | .logging w => Majority (acceptedBy logs w)
  | _ => True

/-- With the given log files, the log file of node `i` has only such batches of its own that a
majority has, and everything on the way to its store is in its log file. -/
structure Quorate (logs : Fin n → List (CmdBuffer n)) (i : Fin n) (s : Server n DB) : Prop where
  thread3 : s.thread3.Quorate logs
  logFile : ∀ b ∈ s.logFile, b.id.origin = i → Majority (loggedBy logs b)
  written2 : ∀ b ∈ s.thread2.written, b ∈ s.logFile
  written3 : ∀ b ∈ s.thread3.written, b ∈ s.logFile
  queue35 : ∀ b ∈ s.queue35, b ∈ s.logFile
  thread5 : ∀ b ∈ s.thread5.batch, b ∈ s.logFile

lemma Thread3.Quorate.mono {logs logs' : Fin n → List (CmdBuffer n)} {t : Thread3 n}
    (ht : t.Quorate logs) (h : ∀ j, logs j ⊆ logs' j) : t.Quorate logs' := by
  cases t with
  | waiting w r counted => exact fun ok hok => (ht ok hok).imp_right fun hw => h ok.1 hw
  | logging w => exact Majority.mono (acceptedBy_mono h) ht
  | _ => trivial

namespace Quorate

variable {logs logs' : Fin n → List (CmdBuffer n)} {i : Fin n} {s s' : Server n DB}

lemma mono (hs : Quorate logs i s) (h : ∀ j, logs j ⊆ logs' j) : Quorate logs' i s :=
  { hs with
    thread3 := hs.thread3.mono h
    logFile := fun b hb hi => (hs.logFile b hb hi).mono (loggedBy_mono h) }

lemma of_thread1 (hs : Quorate logs i s) (h : Thread1Outcome i s s') : Quorate logs i s' := by
  cases h <;> exact { hs with }

lemma of_thread2 {popped out : Outgoing n} (hs : Quorate logs i s)
    (h : Thread2Outcome i s popped s' out) (hothers : s.thread2.FromOthers i) :
    Quorate logs i s' := by
  cases h with
  | discards => exact hs
  | countsVote hfrom hbody hto =>
      refine { hs with written2 := ?_ }
      rcases hto with rfl | rfl
      · rintro b ⟨⟩
      · rintro b ⟨⟩
  | @logs b hfrom =>
      -- the batch is another node's, so nothing is said about its majority
      rw [hfrom] at hothers
      have hgrow : s.logFile ⊆ s.logFile ++ [b] := List.subset_append_left _ _
      exact { hs with
        logFile := by
          intro b' hb' hi
          rcases List.mem_append.1 hb' with hold | hnew
          · exact hs.logFile b' hold hi
          · rw [List.mem_singleton.1 hnew] at hi
            exact absurd hi hothers
        written2 := fun b' hb' => List.mem_append_right _ hb'
        written3 := fun b' hb' => hgrow (hs.written3 b' hb')
        queue35 := fun b' hb' => hgrow (hs.queue35 b' hb')
        thread5 := fun b' hb' => hgrow (hs.thread5 b' hb') }
  | @enqueues b hfrom =>
      have hwritten := hs.written2
      rw [hfrom] at hwritten
      refine { hs with written2 := by rintro b ⟨⟩, queue35 := ?_ }
      intro b' hb'
      rcases List.mem_append.1 hb' with hold | hnew
      · exact hs.queue35 b' hold
      · exact hwritten b' hnew
  | _ => exact { hs with written2 := by rintro b ⟨⟩ }

lemma of_thread3 {out : Outgoing n} (hs : Quorate logs i s) (h : Thread3Outcome i s s' out)
    (horigins : Origins i s) (hlogs : s'.logFile ⊆ logs i)
    (hguard : ∀ p ∈ nextOk s, p.1.answers = p.2 ∧ p.2 ∈ logs p.1.nodeId)
    (hnodup : (s.thread3.counted.map Prod.fst).Nodup) : Quorate logs i s' := by
  have hthread3 := hs.thread3
  have howned := horigins.thread3
  cases h with
  | waits => exact { hs with thread3 := by rintro ok ⟨⟩, written3 := by rintro b ⟨⟩ }
  | @counts w r counted ok rest hfrom hqueue hwaits hcounts =>
      rw [hfrom] at hthread3
      refine { hs with thread3 := ?_, written3 := by rintro b ⟨⟩ }
      intro ok' hok'
      rcases List.mem_append.1 hok' with hold | hnew
      · exact hthread3 ok' hold
      · -- the condition on the OK that is counted now
        obtain rfl := List.mem_singleton.1 hnew
        refine hguard (ok, w) ?_
        rw [nextOk, hfrom, hqueue]
        simp [hwaits, hcounts]
  | skips => exact { hs with }
  | @commits w r counted hfrom hquorum =>
      -- the OKs are of different nodes, and the node itself makes one more
      rw [hfrom] at hthread3 howned hnodup
      obtain ⟨horigin, hothers⟩ := howned
      refine { hs with thread3 := majority_of_counted hnodup ?_ ?_ ?_, written3 := by rintro b ⟨⟩ }
      · intro j hj
        obtain ⟨ok, hok, rfl⟩ := List.mem_map.1 hj
        rw [horigin]
        exact hothers ok hok
      · intro j hj
        obtain ⟨ok, hok, rfl⟩ := List.mem_map.1 hj
        exact (hthread3 ok hok).2
      · rw [List.length_map]
        exact hquorum
  | @logs w hfrom =>
      rw [hfrom] at hthread3 howned
      have hgrow : s.logFile ⊆ s.logFile ++ [w] := List.subset_append_left _ _
      exact { hs with
        thread3 := trivial
        logFile := by
          intro b hb hi
          rcases List.mem_append.1 hb with hold | hnew
          · exact hs.logFile b hold hi
          · -- now its creator has it in its log file too
            rw [List.mem_singleton.1 hnew]
            refine Majority.mono (acceptedBy_subset_loggedBy ?_) hthread3
            rw [howned]
            exact hlogs (List.mem_append_right _ (List.mem_singleton_self w))
        written2 := fun b hb => hgrow (hs.written2 b hb)
        written3 := fun b hb => List.mem_append_right _ hb
        queue35 := fun b hb => hgrow (hs.queue35 b hb)
        thread5 := fun b hb => hgrow (hs.thread5 b hb) }
  | @enqueues w hfrom =>
      have hwritten := hs.written3
      rw [hfrom] at hwritten
      refine { hs with thread3 := trivial, written3 := by rintro b ⟨⟩, queue35 := ?_ }
      intro b hb
      rcases List.mem_append.1 hb with hold | hnew
      · exact hs.queue35 b hold
      · exact hwritten b hnew
  | _ => exact { hs with thread3 := trivial, written3 := by rintro b ⟨⟩ }

/-- What `thread_5` is about to take is in the log file. -/
lemma nextTaken (hs : Quorate logs i s) {b : CmdBuffer n} (hb : b ∈ nextTaken s) :
    b ∈ s.logFile := by
  rw [Oceanliner.nextTaken] at hb
  split at hb
  · rename_i b' rest hidle hqueue
    obtain rfl := Option.some.inj hb
    refine hs.queue35 b' ?_
    rw [hqueue]
    exact List.mem_cons_self
  · cases hb

lemma of_thread5 {R : RocksDb DB} (hs : Quorate logs i s) (h : Thread5Outcome R s s') :
    Quorate logs i s' := by
  have hbatch := hs.thread5
  cases h with
  | takes hidle hqueue =>
      have hqueue35 := hs.queue35
      rw [hqueue] at hqueue35
      refine { hs with
        queue35 := fun b hb => hqueue35 b (List.mem_cons_of_mem _ hb)
        thread5 := ?_ }
      intro b hb
      rw [List.mem_singleton.1 hb]
      exact hqueue35 _ List.mem_cons_self
  | applies hfrom =>
      rw [hfrom] at hbatch
      exact { hs with thread5 := hbatch }
  | finishes => exact { hs with thread5 := by rintro b ⟨⟩ }
  | answers hfrom =>
      rw [hfrom] at hbatch
      exact { hs with thread5 := hbatch }
  | keepsSilent hfrom =>
      rw [hfrom] at hbatch
      exact { hs with thread5 := hbatch }

end Quorate

/-! ### Log files grow -/

section Logs

variable {R : RocksDb DB} {i : Fin n} {s s' : Server n DB}

lemma Thread1Outcome.logFile (h : Thread1Outcome i s s') : s'.logFile = s.logFile := by
  cases h <;> rfl

lemma Thread5Outcome.logFile (h : Thread5Outcome R s s') : s'.logFile = s.logFile := by
  cases h <;> rfl

lemma Thread2Outcome.logFile_subset {popped out : Outgoing n}
    (h : Thread2Outcome i s popped s' out) : s.logFile ⊆ s'.logFile := by
  cases h with
  | logs => exact List.subset_append_left _ _
  | _ => exact List.Subset.refl _

lemma Thread3Outcome.logFile_subset {out : Outgoing n} (h : Thread3Outcome i s s' out) :
    s.logFile ⊆ s'.logFile := by
  cases h with
  | logs => exact List.subset_append_left _ _
  | _ => exact List.Subset.refl _

lemma logs_subset_of_moves {c c' : Cluster n DB} {popped pushed : Fin n → List (Message n)}
    (hmoves : Moves c i s popped pushed c') (h : (c.node i).logFile ⊆ s.logFile) :
    ∀ j, c.logs j ⊆ c'.logs j := by
  intro j
  rw [Cluster.logs, Cluster.logs]
  by_cases hj : j = i
  · rw [hj, hmoves.node_self]
    exact h
  · rw [hmoves.node_of_ne hj]
    exact List.Subset.refl _

theorem logs_grow {c c' : Cluster n DB} {a : ClusterAction n}
    (hstep : clusterStep R c a = some c') : ∀ j, c.logs j ⊆ c'.logs j := by
  cases clusterStep_spec hstep with
  | thread1 h hmoves => exact logs_subset_of_moves hmoves (h.logFile ▸ List.Subset.refl _)
  | thread2 h hmoves => exact logs_subset_of_moves hmoves h.logFile_subset
  | thread3 h hmoves => exact logs_subset_of_moves hmoves h.logFile_subset
  | thread5 h hmoves => exact logs_subset_of_moves hmoves (h.logFile ▸ List.Subset.refl _)
  | election hout hmoves => exact logs_subset_of_moves hmoves (List.Subset.refl _)

end Logs

/-! ### The invariant -/

/-- Batches are where they belong, no OK is counted twice, and the log files are quorate. -/
structure ClusterQuorate (c : Cluster n DB) : Prop where
  origins : ClusterOrigins c
  inOrder : InOrder c
  node : ∀ i, Quorate c.logs i (c.node i)

namespace ClusterQuorate

variable {R : RocksDb DB} {c c' : Cluster n DB} {a : ClusterAction n}

lemma start (raft : Fin n → RaftVars) (diskMap : Fin n → DB) :
    ClusterQuorate (Cluster.start raft diskMap) where
  origins := ClusterOrigins.start raft diskMap
  inOrder := InOrder.start raft diskMap
  node := fun i =>
    { thread3 := trivial
      logFile := by rintro b ⟨⟩
      written2 := by rintro b ⟨⟩
      written3 := by rintro b ⟨⟩
      queue35 := by rintro b ⟨⟩
      thread5 := by rintro b ⟨⟩ }

/-- The OKs counted are from different nodes. -/
lemma counted_nodup (hc : ClusterQuorate c) (i : Fin n) :
    ((c.node i).thread3.counted.map Prod.fst).Nodup := by
  have hthread3 := (hc.node i).thread3
  cases hstate : (c.node i).thread3 with
  | waiting w r counted =>
      rw [hstate] at hthread3
      exact hc.inOrder.counted_nodup (hc.origins.node i) hstate fun ok hok => (hthread3 ok hok).1
  | _ => exact List.nodup_nil

/-- **Log files stay quorate.** -/
theorem step (hc : ClusterQuorate c) (hguard : CountsLogged c a)
    (hstep : clusterStep R c a = some c') : ClusterQuorate c' := by
  have hgrow := logs_grow hstep
  refine ⟨hc.origins.step hstep, hc.inOrder.step hc.origins hstep, ?_⟩
  have hnode := fun i => (hc.node i).mono hgrow
  cases clusterStep_spec hstep with
  | @thread1 _ i s _ h hmoves => exact hmoves.forall_node hnode ((hnode i).of_thread1 h)
  | @thread2 _ i popped out s _ h hmoves =>
      exact hmoves.forall_node hnode ((hnode i).of_thread2 h (hc.origins.node i).thread2)
  | @thread3 i out s _ h hmoves =>
      refine hmoves.forall_node hnode ((hnode i).of_thread3 h (hc.origins.node i) ?_ ?_ ?_)
      · rw [Cluster.logs, hmoves.node_self]
        exact List.Subset.refl _
      · exact fun p hp => (hguard p hp).imp_right fun hw => hgrow _ hw
      · exact hc.counted_nodup i
  | @thread5 i s _ h hmoves => exact hmoves.forall_node hnode ((hnode i).of_thread5 h)
  | @election _ i raft out _ hout hmoves =>
      exact hmoves.forall_node hnode { hnode i with }

/-- A batch in the log file of its creator is in the log files of a majority. -/
lemma majority (hc : ClusterQuorate c) {b : CmdBuffer n} (hb : b ∈ c.logs b.id.origin) :
    Majority (loggedBy c.logs b) :=
  (hc.node b.id.origin).logFile b hb rfl

end ClusterQuorate

/-! ### Acknowledged writes -/

/-- Every batch of which a node has answered a command is in the log files of a majority. -/
def AckedLogged (logs : Fin n → List (CmdBuffer n)) (s : Server n DB) : Prop :=
  ∀ p ∈ s.acked, Majority (loggedBy logs p.1)

lemma AckedLogged.step {R : RocksDb DB} {c c' : Cluster n DB} {a : ClusterAction n}
    (hacked : ∀ i, AckedLogged c.logs (c.node i)) (hc : ClusterQuorate c)
    (hguard : AnswersLogged c a) (hstep : clusterStep R c a = some c') :
    ∀ i, AckedLogged c'.logs (c'.node i) := by
  have hgrow := logs_grow hstep
  have hnode : ∀ i, AckedLogged c'.logs (c.node i) :=
    fun i p hp => (hacked i p hp).mono (loggedBy_mono hgrow)
  cases clusterStep_spec hstep with
  | @thread1 _ i s _ h hmoves =>
      refine hmoves.forall_node (P := fun _ => AckedLogged c'.logs) hnode ?_
      cases h <;> exact hnode i
  | @thread2 _ i popped out s _ h hmoves =>
      refine hmoves.forall_node (P := fun _ => AckedLogged c'.logs) hnode ?_
      cases h <;> exact hnode i
  | @thread3 i out s _ h hmoves =>
      refine hmoves.forall_node (P := fun _ => AckedLogged c'.logs) hnode ?_
      cases h <;> exact hnode i
  | @thread5 i s _ h hmoves =>
      refine hmoves.forall_node (P := fun _ => AckedLogged c'.logs) hnode ?_
      cases h with
      | @answers b processed length hfrom hleader =>
          intro p hp
          rcases List.mem_append.1 hp with hold | hnew
          · exact hnode i p hold
          · rw [List.mem_singleton.1 hnew]
            refine (hc.majority (hguard b ?_)).mono (loggedBy_mono hgrow)
            rw [nextAnswer, hfrom]
            simp [hleader]
      | _ => exact hnode i
  | @election _ i raft out _ hout hmoves =>
      exact hmoves.forall_node (P := fun _ => AckedLogged c'.logs) hnode (hnode i)

/-- **Acknowledged writes are on a majority.**  In a run in which `thread_3` counts only OKs
for the batch it waits for, from nodes that have it in their log file, and in which a leader's
`thread_5` answers only commands of batches that their creator has in its log file, every
command that has been answered is of a batch that more than half of the nodes have in their
log file. -/
theorem acked_on_majority (R : RocksDb DB) (raft : Fin n → RaftVars) (diskMap : Fin n → DB)
    (as : List (ClusterAction n)) {c : Cluster n DB}
    (hguard : Guarded (clusterStep R) (fun c a => CountsLogged c a ∧ AnswersLogged c a)
      (Cluster.start raft diskMap) as)
    (hrun : run (clusterStep R) (Cluster.start raft diskMap) as = some c) (i : Fin n) :
    ∀ p ∈ (c.node i).acked, n < 2 * (loggedBy c.logs p.1).card := by
  have hinit : ClusterQuorate (Cluster.start raft diskMap) ∧
      ∀ i, AckedLogged (Cluster.start raft diskMap).logs ((Cluster.start raft diskMap).node i) :=
    ⟨ClusterQuorate.start raft diskMap, by rintro i p ⟨⟩⟩
  have hall := hguard.invariant
    (I := fun c => ClusterQuorate c ∧ ∀ i, AckedLogged c.logs (c.node i))
    (fun c a c' hc hg hstep =>
      ⟨hc.1.step hg.1 hstep, AckedLogged.step hc.2 hc.1 hg.2 hstep⟩) hinit hrun
  intro p hp
  have hmajority := hall.2 i p hp
  rwa [Majority, Fintype.card_fin] at hmajority

/-- When node `1` writes its log file before the OK is counted, the SET is on two nodes. -/
theorem acked_on_majority_first : ∃ c,
    run (clusterStep mapDb) (Cluster.start firstLeads fun _ _ => none)
        (admitSet ++ replicateSet ++ [.thread2 1] ++ answerSet) = some c ∧
      (c.node 0).acked ≠ [] ∧
        ∀ p ∈ (c.node 0).acked, 3 < 2 * (loggedBy c.logs p.1).card :=
  ⟨_, rfl, by decide +kernel,
    acked_on_majority mapDb firstLeads (fun _ _ => none)
      (admitSet ++ replicateSet ++ [.thread2 1] ++ answerSet) (by decide +kernel) rfl 0⟩

/-- The OK of node `1` is counted before node `1` writes its log file, and the client is
answered when only node `0` has written its own. -/
theorem acked_on_one_node : ∃ c,
    run (clusterStep mapDb) (Cluster.start firstLeads fun _ _ => none)
        (admitSet ++ replicateSet ++ answerSet) = some c ∧
      ∃ p ∈ (c.node 0).acked, loggedBy c.logs p.1 = {0} ∧
        ¬ 3 < 2 * (loggedBy c.logs p.1).card :=
  ⟨_, rfl, by decide +kernel⟩

/-! ### Applied writes -/

/-- Every batch that `thread_5` has taken or applied a command of is accepted by a majority. -/
structure AppliedAccepted (logs : Fin n → List (CmdBuffer n)) (s : Server n DB) : Prop where
  batch : ∀ b ∈ s.thread5.batch, Majority (acceptedBy logs b)
  applied : ∀ p ∈ s.applied, Majority (acceptedBy logs p.1)

namespace AppliedAccepted

variable {logs : Fin n → List (CmdBuffer n)} {i : Fin n} {s s' : Server n DB} {R : RocksDb DB}

lemma of_thread5 (hs : AppliedAccepted logs s) (h : Thread5Outcome R s s')
    (htaken : ∀ b ∈ nextTaken s, Majority (acceptedBy logs b)) : AppliedAccepted logs s' := by
  have hbatch := hs.batch
  cases h with
  | @takes b rest hidle hqueue =>
      refine { hs with batch := ?_ }
      intro b' hb'
      rw [List.mem_singleton.1 hb']
      refine htaken b ?_
      rw [nextTaken, hidle, hqueue]
      rfl
  | @applies b processed length diskMap hfrom =>
      rw [hfrom] at hbatch
      refine ⟨hbatch, ?_⟩
      intro p hp
      rcases List.mem_append.1 hp with hold | hnew
      · exact hs.applied p hold
      · rw [List.mem_singleton.1 hnew]
        exact hbatch b (List.mem_singleton_self b)
  | finishes => exact { hs with batch := by rintro b ⟨⟩ }
  | answers hfrom =>
      rw [hfrom] at hbatch
      exact { hs with batch := hbatch }
  | keepsSilent hfrom =>
      rw [hfrom] at hbatch
      exact { hs with batch := hbatch }

/-- In a cluster of at most three nodes, the creator of a batch and one more node are a
majority. -/
lemma majority_of_le_three {b : CmdBuffer n} (hn : n ≤ 3) (hi : b ∈ logs i)
    (hne : i ≠ b.id.origin) : Majority (acceptedBy logs b) := by
  have hsub : {i, b.id.origin} ⊆ acceptedBy logs b := by
    intro j hj
    rcases Finset.mem_insert.1 hj with rfl | hj
    · exact mem_acceptedBy.2 (.inr hi)
    · exact mem_acceptedBy.2 (.inl (Finset.mem_singleton.1 hj))
  refine Majority.mono hsub ?_
  rw [Majority, Fintype.card_fin, Finset.card_pair hne]
  omega

lemma step {c c' : Cluster n DB} {a : ClusterAction n}
    (happlied : ∀ i, AppliedAccepted c.logs (c.node i)) (hc : ClusterQuorate c)
    (hguard : n ≤ 3 ∨ TakesLogged c a) (hstep : clusterStep R c a = some c') :
    ∀ i, AppliedAccepted c'.logs (c'.node i) := by
  have hgrow := logs_grow hstep
  have hnode : ∀ i, AppliedAccepted c'.logs (c.node i) := fun i =>
    { batch := fun b hb => ((happlied i).batch b hb).mono (acceptedBy_mono hgrow)
      applied := fun p hp => ((happlied i).applied p hp).mono (acceptedBy_mono hgrow) }
  cases clusterStep_spec hstep with
  | @thread1 _ i s _ h hmoves =>
      refine hmoves.forall_node (P := fun _ => AppliedAccepted c'.logs) hnode ?_
      cases h <;> exact { hnode i with }
  | @thread2 _ i popped out s _ h hmoves =>
      refine hmoves.forall_node (P := fun _ => AppliedAccepted c'.logs) hnode ?_
      cases h <;> exact { hnode i with }
  | @thread3 i out s _ h hmoves =>
      refine hmoves.forall_node (P := fun _ => AppliedAccepted c'.logs) hnode ?_
      cases h <;> exact { hnode i with }
  | @thread5 i s _ h hmoves =>
      refine hmoves.forall_node (P := fun _ => AppliedAccepted c'.logs) hnode ?_
      refine (hnode i).of_thread5 h fun b hb => ?_
      have hlogged : b ∈ c.logs b.id.origin → Majority (acceptedBy c'.logs b) := fun hlog =>
        ((hc.majority hlog).mono loggedBy_subset_acceptedBy).mono (acceptedBy_mono hgrow)
      have hown : b ∈ c.logs i := (hc.node i).nextTaken hb
      rcases hguard with hn | htakes
      · -- the batch is the node's own, or the node and the creator are two of three
        by_cases hi : i = b.id.origin
        · exact hlogged (hi ▸ hown)
        · exact majority_of_le_three hn (hgrow i hown) hi
      · exact hlogged (htakes b hb)
  | @election _ i raft out _ hout hmoves =>
      exact hmoves.forall_node (P := fun _ => AppliedAccepted c'.logs) hnode { hnode i with }

end AppliedAccepted

/-- **Applied writes are accepted by a majority.**  In a run in which `thread_3` counts only
OKs for the batch it waits for, from nodes that have it in their log file, and in which
`thread_5` takes only batches that their creator has in its log file, unless there are at most
three nodes, every command that has been applied is of a batch that more than half of the nodes
have accepted. -/
theorem applied_on_majority (R : RocksDb DB) (raft : Fin n → RaftVars) (diskMap : Fin n → DB)
    (as : List (ClusterAction n)) {c : Cluster n DB}
    (hguard : Guarded (clusterStep R) (fun c a => CountsLogged c a ∧ (n ≤ 3 ∨ TakesLogged c a))
      (Cluster.start raft diskMap) as)
    (hrun : run (clusterStep R) (Cluster.start raft diskMap) as = some c) (i : Fin n) :
    ∀ p ∈ (c.node i).applied, n < 2 * (acceptedBy c.logs p.1).card := by
  have hinit : ClusterQuorate (Cluster.start raft diskMap) ∧
      ∀ i, AppliedAccepted (Cluster.start raft diskMap).logs
        ((Cluster.start raft diskMap).node i) :=
    ⟨ClusterQuorate.start raft diskMap,
      fun i => { batch := by rintro b ⟨⟩, applied := by rintro p ⟨⟩ }⟩
  have hall := hguard.invariant
    (I := fun c => ClusterQuorate c ∧ ∀ i, AppliedAccepted c.logs (c.node i))
    (fun c a c' hc hg hstep =>
      ⟨hc.1.step hg.1 hstep, AppliedAccepted.step hc.2 hc.1 hg.2 hstep⟩) hinit hrun
  intro p hp
  have hmajority := (hall.2 i).applied p hp
  rwa [Majority, Fintype.card_fin] at hmajority

/-- Node `0` and node `1` apply the SET when both have it in their log file. -/
theorem applied_on_majority_first : ∃ c,
    run (clusterStep mapDb) (Cluster.start firstLeads fun _ _ => none)
        (admitSet ++ replicateSet ++ [.thread2 1, .thread2 1] ++ answerSet ++
          [.thread5 1, .thread5 1]) = some c ∧
      (c.node 1).applied ≠ [] ∧
        ∀ p ∈ (c.node 1).applied, 3 < 2 * (acceptedBy c.logs p.1).card :=
  ⟨_, rfl, by decide +kernel,
    applied_on_majority mapDb firstLeads (fun _ _ => none)
      (admitSet ++ replicateSet ++ [.thread2 1, .thread2 1] ++ answerSet ++
        [.thread5 1, .thread5 1]) (by decide +kernel) rfl 1⟩

/-- In a cluster of five nodes, node `0` sends a batch to node `1`, which applies it at once. -/
theorem applied_on_two_of_five : ∃ c,
    run (clusterStep mapDb) (Cluster.start firstLeads fun _ _ => none)
        (admitSet ++ ([.thread3 0, .thread3 0, .thread3 0, .receive 1 0, .thread2 1, .thread2 1,
          .thread2 1, .thread2 1, .thread5 1, .thread5 1] : List (ClusterAction 5))) = some c ∧
      ∃ p ∈ (c.node 1).applied, acceptedBy c.logs p.1 = {0, 1} ∧
        ¬ 5 < 2 * (acceptedBy c.logs p.1).card :=
  ⟨_, rfl, by decide +kernel⟩

end Oceanliner
