/-
# The term of a committed batch

A follower's OK repeats the `prev_log_term` of the message it answers.  That is the
`last_applied_term` of the leader, which no thread advances, and `thread_3` counts the OK for a
batch of that term only.  So in a cluster of two nodes or more a leader commits no batch of a
later term: the batches of its own that it writes to its log file, and those whose commands it
answers, all have the `last_applied_term` it has started with.
-/
import Oceanliner.Main.Quorum

open Network (Moves)
open Transition

namespace Oceanliner

variable {n : ℕ} {DB : Type}

/-! ### No thread advances it -/

/-- The last applied entry is the same. -/
def RaftVars.SameLast (raft raft' : RaftVars) : Prop :=
  raft'.lastAppliedTerm = raft.lastAppliedTerm ∧ raft'.lastAppliedIndex = raft.lastAppliedIndex

lemma thread2Term_sameLast {raft raft' : RaftVars} {term : ℕ}
    (h : thread2Term raft term = some raft') : raft.SameLast raft' := by
  rw [thread2Term] at h
  split at h
  · obtain rfl := Option.some.inj h
    exact ⟨rfl, rfl⟩
  · split at h
    · cases h
    · obtain rfl := Option.some.inj h
      exact ⟨rfl, rfl⟩

/-- What a step of the cluster does to the raft variables of node `i`. -/
inductive RaftStep (i : Fin n) (a : ClusterAction n) (raft : RaftVars) : RaftVars → Prop
  | stays : RaftStep i a raft raft
  | hears {term : ℕ} {raft' : RaftVars} (hterm : thread2Term raft term = some raft') :
      RaftStep i a raft raft'
  | counts (votes : ℕ) : RaftStep i a raft { raft with votesReceived := votes }
  | leads : RaftStep i a raft { raft with state := .leader }
  | stands (ha : a = .candidate i) : RaftStep i a raft (becomeCandidate raft)

section RaftStep

variable {i : Fin n} {a : ClusterAction n}

lemma thread2Receive_raft {s s' : Server n DB} {m : Message n}
    (h : thread2Receive s m = some s') : RaftStep i a s.raft s'.raft := by
  rw [thread2Receive] at h
  split at h
  · split at h
    · rename_i hterm
      obtain rfl := Option.some.inj h
      exact .hears hterm
    · obtain rfl := Option.some.inj h
      exact .stays
  · cases h

lemma thread2Handle_raft {self : Fin n} {s s' : Server n DB} {m : Message n}
    (h : thread2Handle self s m = some s') : RaftStep i a s.raft s'.raft := by
  rw [thread2Handle] at h
  split at h
  · obtain rfl := Option.some.inj h
    exact .stays
  · obtain rfl := Option.some.inj h
    exact .stays
  · split at h
    · obtain rfl := Option.some.inj h
      exact .stays
    · obtain rfl := Option.some.inj h
      exact .stays
  · rename_i voteGranted _
    split at h
    · cases h
    · obtain rfl := Option.some.inj h
      show RaftStep i a s.raft (thread2CountVote s.raft m.term voteGranted)
      rw [thread2CountVote]
      split
      · exact .counts _
      · exact .stays

lemma thread2Step_raft {self : Fin n} {s s' : Server n DB} {out : Outgoing n}
    (h : thread2Step self s = some (s', out)) : RaftStep i a s.raft s'.raft := by
  rw [thread2Step] at h
  split at h
  · cases h
  · obtain ⟨s₁, hhandle, heq⟩ := Option.map_eq_some_iff.1 h
    obtain ⟨rfl, rfl⟩ := Prod.mk.inj heq
    exact thread2Handle_raft hhandle
  · obtain ⟨rfl, rfl⟩ := Prod.mk.inj (Option.some.inj h)
    exact .stays
  · obtain ⟨rfl, rfl⟩ := Prod.mk.inj (Option.some.inj h)
    exact .stays
  · obtain ⟨rfl, rfl⟩ := Prod.mk.inj (Option.some.inj h)
    exact .stays
  · obtain ⟨rfl, rfl⟩ := Prod.mk.inj (Option.some.inj h)
    exact .leads

lemma raftStep_of_moves {c c' : Cluster n DB} {k : Fin n} {s : Server n DB}
    {popped pushed : Fin n → List (Message n)} (hmoves : Moves c k s popped pushed c')
    (h : RaftStep k a (c.node k).raft s.raft) (i : Fin n) :
    RaftStep i a (c.node i).raft (c'.node i).raft := by
  by_cases hi : i = k
  · rw [hi, hmoves.node_self]
    exact h
  · rw [hmoves.node_of_ne hi]
    exact .stays

lemma clusterStep_raft {R : RocksDb DB} {c c' : Cluster n DB} (h : clusterStep R c a = some c')
    (i : Fin n) : RaftStep i a (c.node i).raft (c'.node i).raft := by
  cases a with
  | thread1 k event =>
      obtain ⟨s, hs, rfl⟩ := Option.map_eq_some_iff.1 h
      refine raftStep_of_moves (c.moves_send k s none) ?_ i
      cases thread1Step_spec hs <;> exact .stays
  | receive k j =>
      rw [clusterStep] at h
      split at h
      · cases h
      · rename_i m rest hlink
        obtain ⟨s, hs, rfl⟩ := Option.map_eq_some_iff.1 h
        exact raftStep_of_moves (c.moves_receive s hlink) (thread2Receive_raft hs) i
  | thread2 k =>
      obtain ⟨⟨s, out⟩, hs, rfl⟩ := Option.map_eq_some_iff.1 h
      exact raftStep_of_moves (c.moves_send k s out) (thread2Step_raft hs) i
  | thread3 k =>
      obtain ⟨⟨s, out⟩, hs, rfl⟩ := Option.map_eq_some_iff.1 h
      refine raftStep_of_moves (c.moves_send k s out) ?_ i
      cases thread3Step_spec hs <;> exact .stays
  | thread5 k =>
      obtain ⟨s, hs, rfl⟩ := Option.map_eq_some_iff.1 h
      refine raftStep_of_moves (c.moves_send k s none) ?_ i
      cases thread5Step_spec hs <;> exact .stays
  | candidate k =>
      obtain rfl := Option.some.inj h
      have hmoves := c.moves_send k { c.node k with raft := becomeCandidate (c.node k).raft } none
      exact raftStep_of_moves hmoves (.stands rfl) i
  | requestVote k j =>
      rw [clusterStep] at h
      split at h
      · obtain rfl := Option.some.inj h
        exact raftStep_of_moves (c.moves_send k (c.node k) _) .stays i
      · cases h

lemma RaftStep.sameLast {raft raft' : RaftVars} (h : RaftStep i a raft raft') :
    raft.SameLast raft' := by
  cases h with
  | stays => exact ⟨rfl, rfl⟩
  | hears hterm => exact thread2Term_sameLast hterm
  | counts => exact ⟨rfl, rfl⟩
  | leads => exact ⟨rfl, rfl⟩
  | stands => exact ⟨rfl, rfl⟩

/-- No step of a cluster changes what a node takes for the last entry it has applied. -/
lemma clusterStep_sameLast {R : RocksDb DB} {c c' : Cluster n DB}
    (h : clusterStep R c a = some c') (i : Fin n) :
    (c.node i).raft.SameLast (c'.node i).raft :=
  (clusterStep_raft h i).sameLast

end RaftStep

/-! ### Where the last applied term is named -/

/-- A message from `a` to `b` names the last applied term of the node whose batch it is about. -/
def Message.NamesLast (lastTerm : Fin n → ℕ) (a b : Fin n) (m : Message n) : Prop :=
  match m.body with
  | .appendEntries prevLogTerm _ _ _ => prevLogTerm = lastTerm a
  | .respAppendEntries true term _ _ => term = lastTerm b
  | _ => True

/-- What `thread_2` of node `i` has read, and what it is about to send. -/
def Thread2.NamesLast (lastTerm : Fin n → ℕ) (i : Fin n) : Thread2 n → Prop
  | .handling m => m.NamesLast lastTerm m.senderNodeId i
  | .replying dest reply _ => reply.NamesLast lastTerm i dest
  | _ => True

/-- `thread_3` counts OKs only for a batch of the last applied term. -/
def Thread3.NamesLast (lastTerm : ℕ) : Thread3 n → Prop
  | .idle => True
  | .building _ _ => True
  | .sending _ _ prevLogTerm _ _ => prevLogTerm = lastTerm
  | .waiting w _ counted => counted ≠ [] → w.term = lastTerm
  | .logging w => w.term = lastTerm
  | .enqueueing w => w.term = lastTerm

/-- The batches that have been written to the log file, and those on their way from there to the
clients. -/
def committedBatches (s : Server n DB) : List (CmdBuffer n) :=
  s.logFile ++ (s.thread2.written ++ (s.queue35 ++ (s.thread5.batch ++ s.acked.map Prod.fst)))

/-- Node `i` commits batches of its own only when they are of its last applied term. -/
structure CommitsLast (lastTerm : Fin n → ℕ) (i : Fin n) (s : Server n DB) : Prop where
  thread2 : s.thread2.NamesLast lastTerm i
  queue23 : ∀ ok ∈ s.queue23, ok.term = lastTerm i
  thread3 : s.thread3.NamesLast (lastTerm i)
  committed : ∀ b ∈ committedBatches s, b.id.origin = i → b.term = lastTerm i

namespace CommitsLast

variable {lastTerm : Fin n → ℕ} {i : Fin n} {s s' : Server n DB}

lemma start (lastTerm : Fin n → ℕ) (i : Fin n) (raft : RaftVars) (diskMap : DB) :
    CommitsLast lastTerm i (Server.start raft diskMap) where
  thread2 := trivial
  queue23 := by rintro ok ⟨⟩
  thread3 := trivial
  committed := by rintro b ⟨⟩

lemma of_thread1 (hs : CommitsLast lastTerm i s) (h : Thread1Outcome i s s') :
    CommitsLast lastTerm i s' := by
  cases h <;> exact { hs with }

lemma of_thread5 {R : RocksDb DB} (hs : CommitsLast lastTerm i s) (h : Thread5Outcome R s s') :
    CommitsLast lastTerm i s' := by
  have hcommitted := hs.committed
  simp only [committedBatches, List.mem_append] at hcommitted
  have hbatch : ∀ b, b ∈ s.thread5.batch → b.id.origin = i → b.term = lastTerm i :=
    fun b hb => hcommitted b (.inr (.inr (.inr (.inl hb))))
  cases h with
  | @takes b rest hidle hqueue =>
      refine { hs with committed := ?_ }
      intro b' hb'
      refine hcommitted b' ?_
      rw [hqueue, List.mem_cons]
      simp only [committedBatches, Thread5.batch, List.mem_append, List.mem_singleton] at hb'
      tauto
  | @applies b processed length diskMap hfrom =>
      rw [hfrom] at hbatch hcommitted
      refine { hs with committed := ?_ }
      intro b' hb'
      simp only [committedBatches, List.mem_append] at hb'
      exact hcommitted b' hb'
  | finishes hfrom =>
      refine { hs with committed := ?_ }
      intro b' hb'
      refine hcommitted b' ?_
      simp only [committedBatches, Thread5.batch, List.mem_append] at hb'
      tauto
  | @answers b processed length hfrom =>
      rw [hfrom] at hbatch hcommitted
      refine { hs with committed := ?_ }
      intro b' hb'
      refine hcommitted b' ?_
      simp only [committedBatches, Thread5.batch, List.map_append, List.mem_append,
        List.map_cons, List.map_nil, List.mem_singleton] at hb' ⊢
      tauto
  | keepsSilent hfrom =>
      rw [hfrom] at hcommitted
      refine { hs with committed := ?_ }
      intro b' hb'
      simp only [committedBatches, List.mem_append] at hb'
      exact hcommitted b' hb'

/-- `thread_2` has read what the sender has named, and answers it with the same term. -/
lemma of_thread2 {popped out : Outgoing n} (hs : CommitsLast lastTerm i s)
    (horigins : s.thread2.FromOthers i) (h : Thread2Outcome i s popped s' out)
    (hpopped : ∀ j m, popped = some (j, m) → m.senderNodeId = j ∧ m.NamesLast lastTerm j i) :
    CommitsLast lastTerm i s' ∧ ∀ j m, out = some (j, m) → m.NamesLast lastTerm i j := by
  have hthread2 := hs.thread2
  have hcommitted := hs.committed
  simp only [committedBatches, List.mem_append] at hcommitted
  -- most steps leave what is committed as it is
  have hsilent : ∀ {t : Thread2 n}, t.written = [] → ∀ b,
      b ∈ s.logFile ++ (t.written ++ (s.queue35 ++ (s.thread5.batch ++ s.acked.map Prod.fst))) →
        b.id.origin = i → b.term = lastTerm i := by
    intro t ht b hb
    rw [ht] at hb
    simp only [List.mem_append, List.not_mem_nil, false_or] at hb
    exact hcommitted b (by tauto)
  cases h with
  | discards => exact ⟨hs, by rintro j m ⟨⟩⟩
  | @reads j m raft hidle hterm =>
      -- what the sender has named comes in with its message
      obtain ⟨rfl, hm⟩ := hpopped j m rfl
      exact ⟨{ hs with thread2 := hm, committed := hsilent (t := .handling m) rfl },
        by rintro j m ⟨⟩⟩
  | @accepts m prevLogTerm prevLogIndex leaderCommit entries hfrom hbody haccepts =>
      rw [hfrom, Thread2.NamesLast, Message.NamesLast, hbody] at hthread2
      refine ⟨{ hs with thread2 := hthread2, committed := hsilent (t := .replying _ _ _) rfl }, ?_⟩
      rintro j m ⟨⟩
  | refuses hfrom hbody hrefuses =>
      exact ⟨{ hs with thread2 := trivial, committed := hsilent (t := .replying _ _ _) rfl },
        by rintro j m ⟨⟩⟩
  | votes hfrom hbody =>
      exact ⟨{ hs with thread2 := trivial, committed := hsilent (t := .replying _ _ _) rfl },
        by rintro j m ⟨⟩⟩
  | @takesOk m term logIdx answers hfrom hbody =>
      rw [hfrom, Thread2.NamesLast, Message.NamesLast, hbody] at hthread2
      refine ⟨{ hs with
        thread2 := trivial
        queue23 := ?_
        committed := hsilent (t := .idle) rfl }, by rintro j m ⟨⟩⟩
      intro ok hok
      rcases List.mem_append.1 hok with hold | hnew
      · exact hs.queue23 ok hold
      · obtain rfl := List.mem_singleton.1 hnew
        exact hthread2
  | takesErr =>
      exact ⟨{ hs with thread2 := trivial, committed := hsilent (t := .idle) rfl },
        by rintro j m ⟨⟩⟩
  | countsVote hfrom hbody hto =>
      rcases hto with rfl | rfl
      · exact ⟨{ hs with thread2 := trivial, committed := hsilent (t := .becomingLeader) rfl },
          by rintro j m ⟨⟩⟩
      · exact ⟨{ hs with thread2 := trivial, committed := hsilent (t := .idle) rfl },
          by rintro j m ⟨⟩⟩
  | repliesOk hfrom =>
      rw [hfrom] at hthread2
      refine ⟨{ hs with thread2 := trivial, committed := hsilent (t := .logging _) rfl }, ?_⟩
      rintro j m ⟨⟩
      exact hthread2
  | replies hfrom =>
      rw [hfrom] at hthread2
      refine ⟨{ hs with thread2 := trivial, committed := hsilent (t := .idle) rfl }, ?_⟩
      rintro j m ⟨⟩
      exact hthread2
  | @logs b hfrom =>
      rw [hfrom] at horigins
      refine ⟨{ hs with thread2 := trivial, committed := ?_ }, by rintro j m ⟨⟩⟩
      intro b' hb' horigin
      simp only [committedBatches, Thread2.written, List.mem_append, List.mem_singleton] at hb'
      -- a batch that has come in a message is one of another node
      by_cases hb : b' = b
      · subst hb
        exact absurd horigin horigins
      · exact hcommitted b' (by tauto) horigin
  | @enqueues b hfrom =>
      rw [hfrom] at hcommitted
      refine ⟨{ hs with thread2 := trivial, committed := ?_ }, by rintro j m ⟨⟩⟩
      intro b' hb'
      simp only [committedBatches, Thread2.written, List.mem_append, List.mem_singleton] at hb'
      refine hcommitted b' ?_
      simp only [Thread2.written, List.mem_singleton]
      tauto
  | becomesLeader =>
      exact ⟨{ hs with thread2 := trivial, committed := hsilent (t := .idle) rfl },
        by rintro j m ⟨⟩⟩

/-- `thread_3` commits a batch after it has counted an OK, unless the node is alone. -/
lemma of_thread3 {out : Outgoing n} (hn : 2 ≤ n) (hs : CommitsLast lastTerm i s)
    (hraft : s.raft.lastAppliedTerm = lastTerm i) (h : Thread3Outcome i s s' out) :
    CommitsLast lastTerm i s' ∧ ∀ j m, out = some (j, m) → m.NamesLast lastTerm i j := by
  have hthread3 := hs.thread3
  have hqueue23 := hs.queue23
  have hcommitted := hs.committed
  simp only [committedBatches, List.mem_append] at hcommitted
  cases h with
  | takes => exact ⟨{ hs with thread3 := trivial }, by rintro j m ⟨⟩⟩
  | builds => exact ⟨{ hs with thread3 := hraft }, by rintro j m ⟨⟩⟩
  | sends hfrom =>
      rw [hfrom] at hthread3
      refine ⟨{ hs with thread3 := hthread3 }, ?_⟩
      rintro j m ⟨⟩
      exact hthread3
  | waits => exact ⟨{ hs with thread3 := fun hnil => absurd rfl hnil }, by rintro j m ⟨⟩⟩
  | @counts w r counted ok rest hfrom hqueue hwaits hcounts =>
      rw [hqueue] at hqueue23
      rw [thread3Counts, Bool.and_eq_true, decide_eq_true_eq] at hcounts
      refine ⟨{ hs with
        queue23 := fun ok' hok' => hqueue23 ok' (List.mem_cons_of_mem ok hok')
        thread3 := fun _ => ?_ }, by rintro j m ⟨⟩⟩
      rw [← hcounts.1]
      exact hqueue23 ok List.mem_cons_self
  | @skips w r counted ok rest hfrom hqueue =>
      rw [hqueue] at hqueue23
      exact ⟨{ hs with queue23 := fun ok' hok' => hqueue23 ok' (List.mem_cons_of_mem ok hok') },
        by rintro j m ⟨⟩⟩
  | @commits w r counted hfrom hquorum =>
      rw [hfrom] at hthread3
      -- a node that is not alone has counted an OK, and the first one has fixed the term
      have hsome : counted ≠ [] := by
        rintro rfl
        rw [List.length_nil] at hquorum
        omega
      exact ⟨{ hs with thread3 := hthread3 hsome }, by rintro j m ⟨⟩⟩
  | @logs w hfrom =>
      rw [hfrom] at hthread3
      refine ⟨{ hs with thread3 := hthread3, committed := ?_ }, by rintro j m ⟨⟩⟩
      intro b hb horigin
      simp only [committedBatches, List.mem_append, List.mem_singleton] at hb
      by_cases hw : b = w
      · rw [hw]
        exact hthread3
      · exact hcommitted b (by tauto) horigin
  | @enqueues w hfrom =>
      rw [hfrom] at hthread3
      refine ⟨{ hs with thread3 := trivial, committed := ?_ }, by rintro j m ⟨⟩⟩
      intro b hb horigin
      simp only [committedBatches, List.mem_append, List.mem_singleton] at hb
      by_cases hw : b = w
      · rw [hw]
        exact hthread3
      · exact hcommitted b (by tauto) horigin

end CommitsLast

/-! ### Runs -/

/-- Every node and every message names the last applied terms, and no node has advanced its
own. -/
structure AllCommitLast (lastTerm : Fin n → ℕ) (c : Cluster n DB) : Prop where
  origins : ClusterOrigins c
  raft : ∀ i, (c.node i).raft.lastAppliedTerm = lastTerm i
  node : ∀ i, CommitsLast lastTerm i (c.node i)
  link : ∀ a b, ∀ m ∈ c.link a b, m.NamesLast lastTerm a b

namespace AllCommitLast

variable {R : RocksDb DB} {lastTerm : Fin n → ℕ} {c c' : Cluster n DB} {a : ClusterAction n}

lemma start (raft : Fin n → RaftVars) (diskMap : Fin n → DB) :
    AllCommitLast (fun i => (raft i).lastAppliedTerm) (Cluster.start raft diskMap) where
  origins := ClusterOrigins.start raft diskMap
  raft := fun _ => rfl
  node := fun i => CommitsLast.start _ i _ _
  link := by rintro a b m ⟨⟩

lemma of_moves (hc : AllCommitLast lastTerm c) (hstep : clusterStep R c a = some c') {k : Fin n}
    {s : Server n DB} {popped out : Outgoing n}
    (hmoves : Moves c k s (onLink popped) (onLink out) c') (hs : CommitsLast lastTerm k s)
    (hout : ∀ j m, out = some (j, m) → m.NamesLast lastTerm k j) : AllCommitLast lastTerm c' where
  origins := hc.origins.step hstep
  raft := fun i => (clusterStep_sameLast hstep i).1.trans (hc.raft i)
  node := hmoves.forall_node hc.node hs
  link := hmoves.forall_link hc.link fun j m hm => hout j m (mem_onLink.1 hm)

theorem step (hn : 2 ≤ n) (hc : AllCommitLast lastTerm c) (hstep : clusterStep R c a = some c') :
    AllCommitLast lastTerm c' := by
  cases clusterStep_spec hstep with
  | @thread1 _ i s _ h hmoves =>
      exact hc.of_moves hstep hmoves ((hc.node i).of_thread1 h) (by rintro j m ⟨⟩)
  | @thread2 _ i popped out s _ h hmoves =>
      have hpopped : ∀ j m, popped = some (j, m) →
          m.senderNodeId = j ∧ m.NamesLast lastTerm j i := by
        rintro j m rfl
        refine ⟨(hc.origins.popped h hmoves rfl).sender, hc.link j i m ?_⟩
        refine hmoves.mem_of_popped (mem_onLink.2 rfl) fun _ => ?_
        rw [h.out_eq_none, onLink_none]
      obtain ⟨hs, hout⟩ := (hc.node i).of_thread2 (hc.origins.node i).thread2 h hpopped
      exact hc.of_moves hstep hmoves hs hout
  | @thread3 i out s _ h hmoves =>
      obtain ⟨hs, hout⟩ := (hc.node i).of_thread3 hn (hc.raft i) h
      exact hc.of_moves hstep hmoves hs hout
  | @thread5 i s _ h hmoves =>
      exact hc.of_moves hstep hmoves ((hc.node i).of_thread5 h) (by rintro j m ⟨⟩)
  | @election _ i raft out _ hout hmoves =>
      refine hc.of_moves hstep hmoves { hc.node i with } ?_
      rintro j m rfl
      rcases hout with hnone | ⟨j₁, hne, hsome⟩
      · cases hnone
      · obtain ⟨rfl, rfl⟩ := Prod.mk.inj (Option.some.inj hsome)
        trivial

end AllCommitLast

end Oceanliner
