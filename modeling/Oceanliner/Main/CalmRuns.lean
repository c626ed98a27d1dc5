/-
# Runs in which the threads are left to themselves

When one node leads from the start, nobody starts an election and all nodes have the same last
applied entry, then nothing but the leader's batches and the OKs for them is ever on the way
(`CalmCluster`).  Nothing of that gets lost: while `thread_3` of the leader collects OKs for a
batch, the answer of every other node has been counted or is still to come (`Awaits`).  What a node
is about to apply is in its log file (`HoldsLogged`).
-/
import Oceanliner.Main.Acks
import Oceanliner.Main.CommitTerms
import Oceanliner.Main.WriteAhead

open Network (Moves Flows conveyor)

namespace Oceanliner

variable {n : ℕ} {DB : Type}

/-- A step of one of the threads of `main.c`. -/
def ClusterAction.OfThreads : ClusterAction n → Prop
  | .candidate _ => False
  | .requestVote _ _ => False
  | _ => True

instance : ∀ a : ClusterAction n, Decidable a.OfThreads
  | .candidate _ => isFalse id
  | .requestVote _ _ => isFalse id
  | .thread1 _ _ => isTrue trivial
  | .receive _ _ => isTrue trivial
  | .thread2 _ => isTrue trivial
  | .thread3 _ => isTrue trivial
  | .thread5 _ => isTrue trivial

/-! ### What is on the way -/

/-- A message on the link from `a` to `b` is a batch of the leader, or an OK for one. -/
def Replicates (leader : Fin n) (raft : RaftVars) (a b : Fin n) (m : Message n) : Prop :=
  m.term = raft.currentTerm ∧
    match m.body with
    | .appendEntries prevLogTerm prevLogIndex _ _ =>
        a = leader ∧ prevLogTerm = raft.lastAppliedTerm ∧ prevLogIndex = raft.lastAppliedIndex
    | .respAppendEntries success term logIdx _ =>
        b = leader ∧ success = true ∧ term = raft.lastAppliedTerm ∧
          logIdx = u64 (raft.lastAppliedIndex + 1)
    | _ => False

/-- `thread_2` of node `i` deals with nothing else. -/
def Thread2.Replicates (leader : Fin n) (raft : RaftVars) (i : Fin n) : Thread2 n → Prop
  | .handling m => Oceanliner.Replicates leader raft m.senderNodeId i m
  | .replying dest reply _ => Oceanliner.Replicates leader raft i dest reply
  | .becomingLeader => False
  | _ => True

/-- The batch of `thread_3` has been opened in the given state, and is sent as such. -/
def Thread3.OpenedIn (raft : RaftVars) : Thread3 n → Prop
  | .building w _ => Oceanliner.OpenedIn raft w
  | .sending w _ prevLogTerm prevLogIndex _ => Oceanliner.OpenedIn raft w ∧
      prevLogTerm = raft.lastAppliedTerm ∧ prevLogIndex = raft.lastAppliedIndex
  | .waiting w _ _ => Oceanliner.OpenedIn raft w
  | _ => True

/-- The leader has its state unchanged; the others are no leaders and are in no later term. -/
structure CalmRaft (leader : Fin n) (raft : RaftVars) (i : Fin n) (r : RaftVars) : Prop where
  leads : i = leader → r = raft
  follows : i ≠ leader → r.state ≠ .leader ∧ r.currentTerm ≤ raft.currentTerm ∧ raft.SameLast r

lemma CalmRaft.sameLast {leader i : Fin n} {raft r : RaftVars} (h : CalmRaft leader raft i r) :
    raft.SameLast r := by
  by_cases hi : i = leader
  · rw [h.leads hi]
    exact ⟨rfl, rfl⟩
  · exact (h.follows hi).2.2

lemma CalmRaft.currentTerm_le {leader i : Fin n} {raft r : RaftVars}
    (h : CalmRaft leader raft i r) : r.currentTerm ≤ raft.currentTerm := by
  by_cases hi : i = leader
  · rw [h.leads hi]
  · exact (h.follows hi).2.1

/-- What node `i` holds belongs to the replication of the leader's batches, and the leader answers
every command it has applied. -/
structure CalmNode (leader : Fin n) (raft : RaftVars) (i : Fin n) (s : Server n DB) : Prop where
  calm : CalmRaft leader raft i s.raft
  reading : ∀ m, s.thread2 = .handling m → s.raft.currentTerm = raft.currentTerm
  thread2 : s.thread2.Replicates leader raft i
  queue23 : ∀ ok ∈ s.queue23,
    ok.term = raft.lastAppliedTerm ∧ ok.logIndex = u64 (raft.lastAppliedIndex + 1)
  buffers : ∀ w r, s.thread1.buffers = some (w, r) → OpenedIn raft w ∧ OpenedIn raft r
  queue13 : ∀ p ∈ s.queue13, OpenedIn raft p.1 ∧ OpenedIn raft p.2
  thread3 : s.thread3.OpenedIn raft
  answered : i = leader → s.acked ++ s.thread5.unanswered = s.applied

section Steps

variable {R : RocksDb DB} {leader : Fin n} {raft : RaftVars} {i : Fin n} {s s' : Server n DB}

namespace CalmNode

/-- The leader opens its batches in its own state. -/
lemma of_thread1 (hs : CalmNode leader raft leader s) {event : Thread1Event}
    (h : thread1Step leader s event = some s') : CalmNode leader raft leader s' := by
  have hbuffers := hs.buffers
  cases event with
  | tick timeUp =>
      rcases thread1Step_tick h with ⟨t, hto, rfl⟩ | ⟨t, hfrom, hto, rfl⟩ |
        ⟨w, r, hfrom, hwhy, rfl⟩ | ⟨w, r, enqueued, hfrom, rfl⟩
      · rw [← hto] at hbuffers
        exact { hs with buffers := hbuffers }
      · refine { hs with buffers := ?_ }
        intro w r hopen
        obtain ⟨rfl, rfl⟩ := Prod.mk.inj (Option.some.inj (hto.symm.trans hopen))
        rw [hs.calm.leads rfl]
        exact ⟨⟨rfl, rfl⟩, ⟨rfl, rfl⟩⟩
      · exact { hs with buffers := by rintro w r ⟨⟩ }
      · refine { hs with buffers := by rintro w r ⟨⟩, queue13 := ?_ }
        intro p hp
        rcases List.mem_append.1 hp with hold | hnew
        · exact hs.queue13 p hold
        · rw [List.mem_singleton.1 hnew]
          exact hbuffers w r hfrom
  | datagram bytes memory =>
      rw [thread1Step] at h
      split at h
      · rename_i w r hfrom
        obtain ⟨⟨w', r'⟩, hadmit, rfl⟩ := Option.map_eq_some_iff.1 h
        obtain ⟨hw, hr⟩ := hbuffers w r (by rw [hfrom]; rfl)
        refine { hs with buffers := ?_ }
        refine Thread1.forall_buffers (Thread1.buffers_closing_or_filling _ w' r') ?_
        rcases thread1Admit_spec hadmit with ⟨-, rfl, record, rfl⟩ | ⟨-, rfl, record, rfl, -⟩
        · exact ⟨hw, hr.push record⟩
        · exact ⟨hw.push record, hr⟩
      · cases h

/-- Whoever reads a message is then in the leader's term. -/
lemma of_receive (hs : CalmNode leader raft i s) {j : Fin n} {m : Message n}
    (hm : Replicates leader raft j i m) (hsender : m.senderNodeId = j)
    (h : thread2Receive s m = some s') : CalmNode leader raft i s' ∧ s'.thread2 = .handling m := by
  have hle := hs.calm.currentTerm_le
  rw [thread2Receive] at h
  split at h
  · split at h
    · rename_i r hterm
      obtain rfl := Option.some.inj h
      have hsame := thread2Term_sameLast hterm
      have hcalm : CalmRaft leader raft i r ∧ r.currentTerm = raft.currentTerm := by
        rw [thread2Term, hm.1] at hterm
        split at hterm
        · rename_i hgt
          obtain rfl := Option.some.inj hterm
          -- a follower of an earlier term takes the term of the leader
          refine ⟨⟨fun hi => ?_, fun _ => ⟨by rintro ⟨⟩, le_rfl, ?_⟩⟩, rfl⟩
          · rw [hs.calm.leads hi] at hgt
            exact absurd hgt (lt_irrefl _)
          · exact hs.calm.sameLast
        · rename_i hgt
          split at hterm
          · cases hterm
          · obtain rfl := Option.some.inj hterm
            exact ⟨hs.calm, by omega⟩
      refine ⟨{ hs with calm := hcalm.1, reading := ?_, thread2 := ?_ }, rfl⟩
      · exact fun _ _ => hcalm.2
      · show Replicates leader raft m.senderNodeId i m
        rw [hsender]
        exact hm
    · -- no message is outdated
      rename_i hterm
      have hlt := thread2Term_eq_none hterm
      rw [hm.1] at hlt
      omega
  · cases h

/-- `thread_2` accepts the leader's batches, and passes on the OKs for them. -/
lemma of_thread2 (hs : CalmNode leader raft i s) {out : Outgoing n}
    (h : thread2Step i s = some (s', out)) :
    CalmNode leader raft i s' ∧ ∀ j m, out = some (j, m) → Replicates leader raft i j m := by
  have hthread2 := hs.thread2
  have hreading := hs.reading
  cases thread2Step_spec h with
  | @accepts m prevLogTerm prevLogIndex leaderCommit entries hfrom hbody haccepts =>
      rw [hfrom, Thread2.Replicates, Replicates, hbody] at hthread2
      obtain ⟨-, hsender, rfl, rfl⟩ := hthread2
      refine ⟨{ hs with reading := by rintro m ⟨⟩, thread2 := ?_ }, by rintro j m ⟨⟩⟩
      exact ⟨hreading m hfrom, hsender, rfl, rfl, rfl⟩
  | @refuses m prevLogTerm prevLogIndex leaderCommit entries hfrom hbody hrefuses =>
      -- the leader's values of `last_applied_*` are the node's own
      rw [hfrom, Thread2.Replicates, Replicates, hbody] at hthread2
      obtain ⟨-, -, rfl, rfl⟩ := hthread2
      obtain ⟨hterm, hindex⟩ := hs.calm.sameLast
      simp [thread2Accepts, hterm, hindex] at hrefuses
  | votes hfrom hbody =>
      rw [hfrom, Thread2.Replicates, Replicates, hbody] at hthread2
      -- nobody stands for election
      exact hthread2.2.elim
  | @takesOk m term logIdx answers hfrom hbody =>
      rw [hfrom, Thread2.Replicates, Replicates, hbody] at hthread2
      obtain ⟨-, -, -, rfl, rfl⟩ := hthread2
      refine ⟨{ hs with reading := by rintro m ⟨⟩, thread2 := trivial, queue23 := ?_ },
        by rintro j m ⟨⟩⟩
      intro ok hok
      rcases List.mem_append.1 hok with hold | hnew
      · exact hs.queue23 ok hold
      · rw [List.mem_singleton.1 hnew]
        exact ⟨rfl, rfl⟩
  | takesErr hfrom hbody =>
      rw [hfrom, Thread2.Replicates, Replicates, hbody] at hthread2
      exact absurd hthread2.2.2.1 Bool.false_ne_true
  | countsVote hfrom hbody hto =>
      rw [hfrom, Thread2.Replicates, Replicates, hbody] at hthread2
      exact hthread2.2.elim
  | repliesOk hfrom =>
      rw [hfrom] at hthread2
      refine ⟨{ hs with reading := by rintro m ⟨⟩, thread2 := trivial }, ?_⟩
      rintro j m ⟨⟩
      exact hthread2
  | replies hfrom =>
      rw [hfrom] at hthread2
      refine ⟨{ hs with reading := by rintro m ⟨⟩, thread2 := trivial }, ?_⟩
      rintro j m ⟨⟩
      exact hthread2
  | logs hfrom =>
      exact ⟨{ hs with reading := by rintro m ⟨⟩, thread2 := trivial }, by rintro j m ⟨⟩⟩
  | enqueues hfrom =>
      exact ⟨{ hs with reading := by rintro m ⟨⟩, thread2 := trivial }, by rintro j m ⟨⟩⟩
  | becomesLeader hfrom =>
      rw [hfrom] at hthread2
      exact hthread2.elim

/-- `thread_3` of the leader sends its batches under its own term. -/
lemma of_thread3 (hs : CalmNode leader raft leader s) {out : Outgoing n}
    (h : Thread3Outcome leader s s' out) :
    CalmNode leader raft leader s' ∧
      ∀ j m, out = some (j, m) → Replicates leader raft leader j m := by
  have hthread3 := hs.thread3
  have hqueue23 := hs.queue23
  cases h with
  | @takes w r rest hidle hqueue =>
      have hqueue13 := hs.queue13
      rw [hqueue] at hqueue13
      exact ⟨{ hs with
        queue13 := fun p hp => hqueue13 p (List.mem_cons_of_mem _ hp)
        thread3 := (hqueue13 (w, r) List.mem_cons_self).1 }, by rintro j m ⟨⟩⟩
  | builds hfrom =>
      rw [hfrom] at hthread3
      refine ⟨{ hs with thread3 := ⟨hthread3, ?_⟩ }, by rintro j m ⟨⟩⟩
      rw [hs.calm.leads rfl]
      exact ⟨rfl, rfl⟩
  | @sends w r prevLogTerm prevLogIndex dest rest hfrom =>
      rw [hfrom] at hthread3
      obtain ⟨hw, rfl, rfl⟩ := hthread3
      refine ⟨{ hs with thread3 := ⟨hw, rfl, rfl⟩ }, ?_⟩
      rintro j m ⟨⟩
      exact ⟨hw.term, rfl, rfl, rfl⟩
  | waits hfrom =>
      rw [hfrom] at hthread3
      exact ⟨{ hs with thread3 := hthread3.1 }, by rintro j m ⟨⟩⟩
  | @counts w r counted ok rest hfrom hqueue =>
      rw [hfrom] at hthread3
      rw [hqueue] at hqueue23
      exact ⟨{ hs with
        queue23 := fun ok' hok' => hqueue23 ok' (List.mem_cons_of_mem _ hok')
        thread3 := hthread3 }, by rintro j m ⟨⟩⟩
  | @skips w r counted ok rest hfrom hqueue =>
      rw [hqueue] at hqueue23
      exact ⟨{ hs with queue23 := fun ok' hok' => hqueue23 ok' (List.mem_cons_of_mem _ hok') },
        by rintro j m ⟨⟩⟩
  | commits => exact ⟨{ hs with thread3 := trivial }, by rintro j m ⟨⟩⟩
  | logs => exact ⟨{ hs with thread3 := trivial }, by rintro j m ⟨⟩⟩
  | enqueues => exact ⟨{ hs with thread3 := trivial }, by rintro j m ⟨⟩⟩

/-- `thread_5` of the leader answers what it applies. -/
lemma of_thread5 (hlead : raft.state = .leader) (hs : CalmNode leader raft i s)
    (h : thread5Step R s = some s') : CalmNode leader raft i s' := by
  have hanswered := hs.answered
  rw [thread5Step] at h
  split at h
  · rename_i hfrom
    split at h
    · cases h
    · split at h
      · cases h
      · obtain rfl := Option.some.inj h
        rw [hfrom] at hanswered
        exact { hs with answered := hanswered }
  · rename_i b processed hfrom
    rw [hfrom] at hanswered
    split at h
    · obtain ⟨⟨diskMap, length⟩, -, rfl⟩ := Option.map_eq_some_iff.1 h
      refine { hs with answered := fun hi => ?_ }
      rw [← hanswered hi]
      simp [Thread5.unanswered]
    · split at h
      · obtain rfl := Option.some.inj h
        exact { hs with answered := hanswered }
      · cases h
  · rename_i b processed length hfrom
    obtain rfl := Option.some.inj h
    rw [hfrom] at hanswered
    refine { hs with answered := fun hi => ?_ }
    have hstate : s.raft.state = .leader := by
      rw [hs.calm.leads hi]
      exact hlead
    rw [← hanswered hi]
    simp [Thread5.unanswered, hstate]

end CalmNode

end Steps

/-- One leader replicates its batches, and nothing else happens. -/
structure CalmCluster (leader : Fin n) (raft : RaftVars) (c : Cluster n DB) : Prop where
  replicating : Replicating leader raft.currentTerm raft.lastAppliedTerm raft.lastAppliedIndex c
  node : ∀ i, CalmNode leader raft i (c.node i)
  link : ∀ a b, ∀ m ∈ c.link a b, Replicates leader raft a b m

namespace CalmCluster

variable {R : RocksDb DB} {leader : Fin n} {raft : RaftVars} {c c' : Cluster n DB}
  {a : ClusterAction n}

lemma stable (hc : CalmCluster leader raft c) (hlead : raft.state = .leader) :
    StableLeader leader raft.currentTerm raft.lastAppliedTerm raft.lastAppliedIndex c where
  leads := by
    rw [(hc.node leader).calm.leads rfl]
    exact hlead
  only := by
    intro j hj
    by_contra hne
    exact ((hc.node j).calm.follows hne).1 hj
  term_eq := by rw [(hc.node leader).calm.leads rfl]
  term_le := fun j => (hc.node j).calm.currentTerm_le
  lastApplied := fun j => (hc.node j).calm.sameLast

lemma start {raft : Fin n → RaftVars} {diskMap : Fin n → DB} {term lastTerm lastIndex : ℕ}
    (h : StableLeader leader term lastTerm lastIndex (Cluster.start raft diskMap)) :
    CalmCluster leader (raft leader) (Cluster.start raft diskMap) where
  replicating := Replicating.start leader _ _ _ raft diskMap
  node := fun i =>
    { calm :=
        { leads := by
            rintro rfl
            rfl
          follows := fun hi => ⟨fun hleads => hi (h.only i hleads),
            (h.term_le i).trans h.term_eq.ge, (h.lastApplied i).1.trans (h.lastApplied leader).1.symm,
            (h.lastApplied i).2.trans (h.lastApplied leader).2.symm⟩ }
      reading := by rintro m ⟨⟩
      thread2 := trivial
      queue23 := by rintro ok ⟨⟩
      buffers := by rintro w r ⟨⟩
      queue13 := by rintro p ⟨⟩
      thread3 := trivial
      answered := fun _ => rfl }
  link := by rintro a b m ⟨⟩

lemma of_moves (hc : CalmCluster leader raft c)
    (hreplicating : Replicating leader raft.currentTerm raft.lastAppliedTerm
      raft.lastAppliedIndex c') {k : Fin n} {s : Server n DB} {popped out : Outgoing n}
    (hmoves : Moves c k s (onLink popped) (onLink out) c') (hs : CalmNode leader raft k s)
    (hout : ∀ j m, out = some (j, m) → Replicates leader raft k j m) :
    CalmCluster leader raft c' where
  replicating := hreplicating
  node := hmoves.forall_node hc.node hs
  link := hmoves.forall_link hc.link fun j m hm => hout j m (mem_onLink.1 hm)

/-- **The threads keep to the replication of the leader's batches.** -/
theorem step (hlead : raft.state = .leader) (hc : CalmCluster leader raft c) (ha : a.OfThreads)
    (h : clusterStep R c a = some c') : CalmCluster leader raft c' := by
  have hreplicating := hc.replicating.step (hc.stable hlead) h
  cases a with
  | thread1 k event =>
      obtain ⟨s, hs, rfl⟩ := Option.map_eq_some_iff.1 h
      by_cases hk : k = leader
      · subst hk
        exact hc.of_moves hreplicating (c.moves_send k s none) ((hc.node k).of_thread1 hs)
          (by rintro j m ⟨⟩)
      · exact absurd (thread1Step_spec hs) ((hc.replicating.following k hk).no_thread1
          ((hc.node k).calm.follows hk).1)
  | receive k j =>
      rw [clusterStep] at h
      split at h
      · cases h
      · rename_i m rest hlink
        obtain ⟨s, hs, rfl⟩ := Option.map_eq_some_iff.1 h
        have hm : m ∈ c.link j k := by
          rw [hlink]
          exact List.mem_cons_self
        exact hc.of_moves hreplicating (c.moves_receive s hlink)
          ((hc.node k).of_receive (hc.link j k m hm) (hc.replicating.origins.link j k m hm).sender
            hs).1 (by rintro j m ⟨⟩)
  | thread2 k =>
      obtain ⟨⟨s, out⟩, hs, rfl⟩ := Option.map_eq_some_iff.1 h
      obtain ⟨hnode, hout⟩ := (hc.node k).of_thread2 hs
      exact hc.of_moves hreplicating (c.moves_send k s out) hnode hout
  | thread3 k =>
      obtain ⟨⟨s, out⟩, hs, rfl⟩ := Option.map_eq_some_iff.1 h
      by_cases hk : k = leader
      · subst hk
        obtain ⟨hnode, hout⟩ := (hc.node k).of_thread3 (thread3Step_spec hs)
        exact hc.of_moves hreplicating (c.moves_send k s out) hnode hout
      · exact absurd (thread3Step_spec hs) (hc.replicating.following k hk).no_thread3
  | thread5 k =>
      obtain ⟨s, hs, rfl⟩ := Option.map_eq_some_iff.1 h
      exact hc.of_moves hreplicating (c.moves_send k s none) ((hc.node k).of_thread5 hlead hs)
        (by rintro j m ⟨⟩)
  | candidate k => exact ha.elim
  | requestVote k j => exact ha.elim

end CalmCluster

/-! ### No answer gets lost -/

/-- The batches that `thread_3` of node `i` has sent to node `j`, or is about to send, and whose
answers it has not taken for granted yet, the oldest first. -/
def awaited (c : Cluster n DB) (i j : Fin n) : List (CmdBuffer n) :=
  conveyor (fun s j => arrivedOks s j ++ s.thread2.okRead j) (fun s i => s.thread2.unanswered i)
    (fun s j => s.thread3.unsent j) Message.entries Message.oks c i j

/-- A step of node `k` loses no batch that is awaited, and adds none. -/
abbrev KeepsAwaited (k : Fin n) (s : Server n DB) (popped : Outgoing n) (s' : Server n DB)
    (out : Outgoing n) : Prop :=
  Flows (fun s j => arrivedOks s j ++ s.thread2.okRead j) (fun s i => s.thread2.unanswered i)
    (fun s j => s.thread3.unsent j) Message.entries Message.oks Eq k s (onLink popped) (onLink out)
    s' []

/-- `thread_3` has taken a batch and does not have a majority yet. -/
def Thread3.Collecting : Thread3 n → Prop
  | .sending _ _ _ _ _ => True
  | .waiting _ _ _ => True
  | _ => False

section Flows

variable {R : RocksDb DB} {leader : Fin n} {raft : RaftVars} {k : Fin n} {s s' : Server n DB}

/-- A step in which `thread_2` reads or answers. -/
lemma keepsAwaited_of_thread2 {popped out : Outgoing n} (hthread3 : s'.thread3 = s.thread3)
    (hout : ∀ j, (onLink out j).flatMap Message.entries = [])
    (hoks : ∀ j, (s'.queue23.filter (·.nodeId = j)).map AppendOk.answers ++ s'.thread2.okRead j =
      (s.queue23.filter (·.nodeId = j)).map AppendOk.answers ++
        (s.thread2.okRead j ++ (onLink popped j).flatMap Message.oks))
    (hanswers : ∀ j, (onLink out j).flatMap Message.oks ++ s'.thread2.unanswered j =
      s.thread2.unanswered j ++ (onLink popped j).flatMap Message.entries) :
    KeepsAwaited k s popped s' out where
  head := by
    intro j _
    rw [arrivedOks, arrivedOks, hthread3, List.append_assoc, hoks j]
    simp only [List.append_assoc]
  mid := fun j _ => hanswers j
  tail := by
    intro j _
    rw [hout j, hthread3, List.nil_append, List.append_nil]

/-- A step in which no message is read or sent and only other threads move. -/
lemma keepsAwaited_of_same (hthread2 : s'.thread2 = s.thread2) (hthread3 : s'.thread3 = s.thread3)
    (hqueue23 : s'.queue23 = s.queue23) : KeepsAwaited k s none s' none where
  head := by
    intro j _
    rw [arrivedOks, arrivedOks, hthread2, hthread3, hqueue23]
    exact (List.append_nil _).symm
  mid := by
    intro j _
    rw [hthread2]
    exact (List.append_nil _).symm
  tail := by
    intro j _
    rw [hthread3]
    exact (List.append_nil _).symm

/-- No message is outdated and no batch is refused, so every batch that is read is answered. -/
lemma CalmNode.keepsAwaited_thread2 (hs : CalmNode leader raft k s) {popped out : Outgoing n}
    (h : Thread2Outcome k s popped s' out) (horigins : s.thread2.FromOthers k)
    (hpopped : ∀ j m, popped = some (j, m) → m.senderNodeId = j ∧ Replicates leader raft j k m) :
    KeepsAwaited k s popped s' out := by
  have hout := h.no_entries horigins
  have hthread2 := hs.thread2
  cases h with
  | @discards j m hterm =>
      have hle := hs.calm.currentTerm_le
      rw [(hpopped j m rfl).2.1] at hterm
      omega
  | @reads j₀ m raft hidle hterm =>
      have hsender := (hpopped j₀ m rfl).1
      refine keepsAwaited_of_thread2 rfl hout (fun j => ?_) (fun j => ?_)
      · by_cases hj : j = j₀
        · simp [hidle, Thread2.okRead, hsender, hj]
        · simp [hidle, Thread2.okRead, hsender, hj, Ne.symm hj]
      · by_cases hj : j = j₀
        · simp [hidle, Thread2.unanswered, hsender, hj]
        · simp [hidle, Thread2.unanswered, hsender, hj, Ne.symm hj]
  | accepts hfrom hbody haccepts =>
      refine keepsAwaited_of_thread2 rfl hout (fun j => ?_) (fun j => ?_)
      · simp [hfrom, Thread2.okRead, Message.oks, hbody]
      · simp [hfrom, Thread2.unanswered, Message.oks, Message.entries, hbody]
  | refuses hfrom hbody hrefuses =>
      rw [hfrom, Thread2.Replicates, Replicates, hbody] at hthread2
      obtain ⟨-, -, rfl, rfl⟩ := hthread2
      obtain ⟨hterm, hindex⟩ := hs.calm.sameLast
      simp [thread2Accepts, hterm, hindex] at hrefuses
  | votes hfrom hbody =>
      rw [hfrom, Thread2.Replicates, Replicates, hbody] at hthread2
      exact hthread2.2.elim
  | @takesOk m term logIdx answers hfrom hbody =>
      refine keepsAwaited_of_thread2 rfl hout (fun j => ?_) (fun j => ?_)
      · by_cases hj : m.senderNodeId = j
        · simp [hfrom, Thread2.okRead, Message.oks, hbody, hj]
        · simp [hfrom, Thread2.okRead, hj]
      · simp [hfrom, Thread2.unanswered, Message.entries, hbody]
  | takesErr hfrom hbody =>
      rw [hfrom, Thread2.Replicates, Replicates, hbody] at hthread2
      exact absurd hthread2.2.2.1 Bool.false_ne_true
  | countsVote hfrom hbody hto =>
      rw [hfrom, Thread2.Replicates, Replicates, hbody] at hthread2
      exact hthread2.2.elim
  | @repliesOk dest reply b hfrom =>
      refine keepsAwaited_of_thread2 rfl hout (fun j => ?_) (fun j => ?_)
      · simp [hfrom, Thread2.okRead]
      · by_cases hj : j = dest
        · simp [hfrom, Thread2.unanswered, hj]
        · simp [hfrom, Thread2.unanswered, hj, Ne.symm hj]
  | @replies dest reply hfrom =>
      refine keepsAwaited_of_thread2 rfl hout (fun j => ?_) (fun j => ?_)
      · simp [hfrom, Thread2.okRead]
      · by_cases hj : j = dest
        · simp [hfrom, Thread2.unanswered, hj]
        · simp [hfrom, Thread2.unanswered, hj, Ne.symm hj]
  | logs hfrom =>
      refine keepsAwaited_of_thread2 rfl hout (fun j => ?_) (fun j => ?_)
      · simp [hfrom, Thread2.okRead]
      · simp [hfrom, Thread2.unanswered]
  | enqueues hfrom =>
      refine keepsAwaited_of_thread2 rfl hout (fun j => ?_) (fun j => ?_)
      · simp [hfrom, Thread2.okRead]
      · simp [hfrom, Thread2.unanswered]
  | becomesLeader hfrom =>
      rw [hfrom] at hthread2
      exact hthread2.elim

/-- In the leader's term every OK counts, so `thread_3` skips none. -/
lemma CalmNode.counts (hs : CalmNode leader raft leader s)
    (hterm : raft.lastAppliedTerm = raft.currentTerm) {w r : CmdBuffer n}
    {counted : List (Fin n × CmdBuffer n)} (hfrom : s.thread3 = .waiting w r counted)
    {ok : AppendOk n} (hok : ok ∈ s.queue23) : thread3Counts ok w = true := by
  have hthread3 := hs.thread3
  rw [hfrom] at hthread3
  obtain ⟨hokTerm, hokIndex⟩ := hs.queue23 ok hok
  rw [thread3Counts, hokTerm, hokIndex, hthread3.term, hthread3.logIndex, hterm]
  simp

/-- What `thread_3` has sent it waits for, until it has a majority. -/
lemma CalmNode.keepsAwaited_thread3 (hs : CalmNode leader raft leader s)
    (hterm : raft.lastAppliedTerm = raft.currentTerm) {out : Outgoing n}
    (hstep : thread3Step leader s = some (s', out)) (hto : s'.thread3.Collecting) :
    (s.thread3.Collecting ∧ KeepsAwaited leader s none s' out) ∨
      ∃ w r prevLogTerm prevLogIndex,
        s'.thread3 = .sending w r prevLogTerm prevLogIndex (peers leader) := by
  have h := thread3Step_spec hstep
  have hoks := h.no_oks
  have hthread2 := h.thread2_eq
  have hnew : ∀ {s₁ : Server n DB}, s₁.thread2 = s.thread2 →
      (∀ j, arrivedOks s₁ j = arrivedOks s j) →
      (∀ j, j ≠ leader → (onLink out j).flatMap Message.entries ++ s₁.thread3.unsent j =
        s.thread3.unsent j) → KeepsAwaited leader s none s₁ out := by
    intro s₁ hsame harrived hunsent
    refine ⟨fun j _ => ?_, fun j _ => ?_, fun j hj => ?_⟩
    · rw [harrived j, hsame, onLink_none, List.flatMap_nil, List.append_nil]
    · rw [hoks j, hsame, onLink_none, List.flatMap_nil, List.append_nil, List.nil_append]
    · rw [hunsent j hj, List.append_nil]
  cases h with
  | takes => exact hto.elim
  | builds => exact .inr ⟨_, _, _, _, rfl⟩
  | @sends w r prevLogTerm prevLogIndex dest rest hfrom =>
      refine .inl ⟨by rw [hfrom]; trivial, hnew rfl (fun j => ?_) fun j _ => ?_⟩
      · simp [arrivedOks, hfrom, Thread3.counted]
      · by_cases hdest : j = dest
        · simp [hfrom, Thread3.unsent, hdest, Message.entries, thread3Message]
        · simp [hfrom, Thread3.unsent, hdest, Ne.symm hdest]
  | waits hfrom =>
      refine .inl ⟨by rw [hfrom]; trivial, hnew rfl (fun j => ?_) fun j _ => ?_⟩
      · simp [arrivedOks, hfrom, Thread3.counted]
      · simp [hfrom, Thread3.unsent]
  | @counts w r counted ok rest hfrom hqueue =>
      refine .inl ⟨by rw [hfrom]; trivial, hnew rfl (fun j => ?_) fun j _ => ?_⟩
      · by_cases hok : ok.nodeId = j
        · simp [arrivedOks, hfrom, hqueue, Thread3.counted, hok]
        · simp [arrivedOks, hfrom, hqueue, Thread3.counted, hok]
      · simp [hfrom, Thread3.unsent]
  | @skips w r counted ok rest hfrom hqueue =>
      have hmem : ok ∈ s.queue23 := by
        rw [hqueue]
        exact List.mem_cons_self
      have hcounts := hs.counts hterm hfrom hmem
      simp only [thread3Step, hfrom, hqueue, hcounts, if_true] at hstep
      split at hstep
      · have hsame := congrArg (fun p => p.1.thread3) (Option.some.inj hstep)
        simp at hsame
      · have hsame := congrArg (fun p => p.1.thread3) (Option.some.inj hstep)
        simp at hsame
  | commits => exact hto.elim
  | logs => exact hto.elim
  | enqueues => exact hto.elim

end Flows

/-- While `thread_3` of the leader collects OKs, every other node's answer is counted or to come. -/
def Awaits (leader : Fin n) (c : Cluster n DB) : Prop :=
  (c.node leader).thread3.Collecting → ∀ j, j ≠ leader → awaited c leader j ≠ []

namespace Awaits

variable {R : RocksDb DB} {leader : Fin n} {raft : RaftVars} {c c' : Cluster n DB}
  {a : ClusterAction n}

lemma of_keeps (hawaits : Awaits leader c) {k : Fin n} {s : Server n DB} {popped out : Outgoing n}
    (hmoves : Moves c k s (onLink popped) (onLink out) c')
    (hkeeps : KeepsAwaited k (c.node k) popped s out)
    (hcollecting : (c'.node leader).thread3.Collecting → (c.node leader).thread3.Collecting) :
    Awaits leader c' := by
  intro hto j hj
  have heq := Network.conveyor_moves _ _ _ _ _ Network.appends_eq hmoves hkeeps (Ne.symm hj)
  rw [ite_self, List.append_nil] at heq
  rw [awaited, heq]
  exact hawaits (hcollecting hto) j hj

/-- A step of a thread that leaves `thread_3` where it is. -/
lemma of_same (hawaits : Awaits leader c) {k : Fin n} {s : Server n DB} {popped out : Outgoing n}
    (hmoves : Moves c k s (onLink popped) (onLink out) c')
    (hkeeps : KeepsAwaited k (c.node k) popped s out) (hthread3 : s.thread3 = (c.node k).thread3) :
    Awaits leader c' := by
  refine hawaits.of_keeps hmoves hkeeps fun hto => ?_
  by_cases hk : leader = k
  · rw [hk, hmoves.node_self, hthread3] at hto
    rw [hk]
    exact hto
  · rw [hmoves.node_of_ne hk] at hto
    exact hto

theorem step (hterm : raft.lastAppliedTerm = raft.currentTerm) (hc : CalmCluster leader raft c)
    (hawaits : Awaits leader c) (ha : a.OfThreads) (h : clusterStep R c a = some c') :
    Awaits leader c' := by
  cases a with
  | thread1 k event =>
      obtain ⟨s, hs, rfl⟩ := Option.map_eq_some_iff.1 h
      refine hawaits.of_same (c.moves_send k s none) ?_ ?_
      · cases thread1Step_spec hs <;> exact keepsAwaited_of_same rfl rfl rfl
      · cases thread1Step_spec hs <;> rfl
  | receive k j =>
      rw [clusterStep] at h
      split at h
      · cases h
      · rename_i m rest hlink
        obtain ⟨s, hs, rfl⟩ := Option.map_eq_some_iff.1 h
        have hm : m ∈ c.link j k := by
          rw [hlink]
          exact List.mem_cons_self
        have hout : Thread2Outcome k (c.node k) (some (j, m)) s none := thread2Receive_spec hs
        refine hawaits.of_same (c.moves_receive s hlink) ?_ hout.thread3_eq
        refine (hc.node k).keepsAwaited_thread2 hout (hc.replicating.origins.node k).thread2 ?_
        rintro j' m' ⟨⟩
        exact ⟨(hc.replicating.origins.link j k m hm).sender, hc.link j k m hm⟩
  | thread2 k =>
      obtain ⟨⟨s, out⟩, hs, rfl⟩ := Option.map_eq_some_iff.1 h
      have hout := thread2Step_spec hs
      exact hawaits.of_same (c.moves_send k s out) ((hc.node k).keepsAwaited_thread2 hout
        (hc.replicating.origins.node k).thread2 (by rintro j m ⟨⟩)) hout.thread3_eq
  | thread3 k =>
      obtain ⟨⟨s, out⟩, hs, rfl⟩ := Option.map_eq_some_iff.1 h
      have hmoves := c.moves_send k s out
      by_cases hk : k = leader
      · subst hk
        by_cases hto : s.thread3.Collecting
        · rcases (hc.node k).keepsAwaited_thread3 hterm hs hto with ⟨hfrom, hkeeps⟩ |
            ⟨w, r, prevLogTerm, prevLogIndex, hsending⟩
          · exact hawaits.of_keeps hmoves hkeeps fun _ => hfrom
          · -- it is still to be sent to every other node
            intro _ j hj hnone
            rw [awaited, conveyor, hmoves.node_self, hsending, Thread3.unsent, peers_filter hj]
              at hnone
            simp at hnone
        · intro hcollecting
          rw [hmoves.node_self] at hcollecting
          exact absurd hcollecting hto
      · exact absurd (thread3Step_spec hs) (hc.replicating.following k hk).no_thread3
  | thread5 k =>
      obtain ⟨s, hs, rfl⟩ := Option.map_eq_some_iff.1 h
      refine hawaits.of_same (c.moves_send k s none) ?_ ?_
      · cases thread5Step_spec hs <;> exact keepsAwaited_of_same rfl rfl rfl
      · cases thread5Step_spec hs <;> rfl
  | candidate k => exact ha.elim
  | requestVote k j => exact ha.elim

end Awaits

/-! ### What is applied has been logged -/

/-- The batches between the log file and the end of `thread_5`'s work are in the log file. -/
def HoldsLogged (s : Server n DB) : Prop := ∀ b ∈ loggedAhead s ++ s.thread5.batch, b ∈ s.logFile

section Logged

variable {R : RocksDb DB} {i : Fin n} {a : ClusterAction n} {s s' : Server n DB}
  {fresh : List (CmdBuffer n)}

lemma LogStep.holds {logging : Prop} {own own' other : List (CmdBuffer n)}
    (h : LogStep s s' logging own own')
    (hs : ∀ b ∈ s.queue35 ++ (own ++ other) ++ s.thread5.batch, b ∈ s.logFile)
    (hthread5 : s'.thread5 = s.thread5) :
    ∀ b ∈ s'.queue35 ++ (own' ++ other) ++ s'.thread5.batch, b ∈ s'.logFile := by
  rw [hthread5]
  simp only [List.mem_append] at hs ⊢
  cases h with
  | silent hlog hqueue hown =>
      rw [hlog, hqueue, hown]
      exact hs
  | @logs b _ hlog hqueue hfrom hto =>
      rw [hlog, hqueue, hto]
      intro b' hb'
      rw [List.mem_singleton] at hb'
      rw [List.mem_append, List.mem_singleton]
      by_cases hb : b' = b
      · exact .inr hb
      · exact .inl (hs b' (by tauto))
  | @enqueues b hlog hqueue hfrom hto =>
      rw [hlog, hqueue, hto]
      rw [hfrom] at hs
      intro b' hb'
      rw [List.mem_append] at hb'
      exact hs b' (by tauto)

lemma NodeStep.holdsLogged (h : NodeStep R i a s s' fresh) (hs : HoldsLogged s) :
    HoldsLogged s' := by
  cases h with
  | stays => exact hs
  | thread1 h =>
      obtain ⟨hlog, hthread2, hthread3, hqueue⟩ := h.loggedAhead_eq
      rw [HoldsLogged, loggedAhead, hlog, hthread2, hthread3, hqueue, h.sameStore.thread5]
      exact hs
  | thread2 h =>
      rw [HoldsLogged, loggedAhead, h.thread3_eq]
      exact h.logStep.holds hs h.sameStore.thread5
  | thread3 h =>
      have hswap : ∀ (q own other batch : List (CmdBuffer n)) b,
          b ∈ q ++ (own ++ other) ++ batch ↔ b ∈ q ++ (other ++ own) ++ batch := by
        intro q own other batch b
        simp only [List.mem_append, or_comm (a := b ∈ own)]
      rw [HoldsLogged, loggedAhead, h.thread2_eq]
      intro b hb
      exact h.logStep.holds (fun b' hb' => hs b' ((hswap _ _ _ _ _).1 hb')) h.sameStore.thread5 b
        ((hswap _ _ _ _ _).1 hb)
  | thread5 h =>
      have hlogged : ∀ b, b ∈ loggedAhead s ∨ b ∈ s.thread5.batch → b ∈ s.logFile :=
        fun b hb => hs b (List.mem_append.2 hb)
      obtain ⟨hlog, hahead, -⟩ := h.loggedAhead_eq
      rw [hahead] at hlogged
      intro b hb
      rw [hlog]
      refine hlogged b ?_
      rw [List.mem_append] at hb ⊢
      rcases hb with hb | hb
      · exact .inl (.inr hb)
      · cases h with
        | takes hidle hqueue =>
            rw [thread5Takes, hidle, hqueue]
            exact .inl (.inl hb)
        | applies hfrom =>
            rw [hfrom]
            exact .inr hb
        | finishes => cases hb
        | answers hfrom =>
            rw [hfrom]
            exact .inr hb
        | keepsSilent hfrom =>
            rw [hfrom]
            exact .inr hb
  | election => exact hs

end Logged

end Oceanliner
