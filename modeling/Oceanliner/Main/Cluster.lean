/-
The cluster: nodes that run the threads of `main.c`, with a reliable FIFO link from each node
to each other node.

In one step of the cluster one thread of one node takes a step.  Two more actions stand for
what `main.c` leaves to others, so that roles can change in a run: a node may become a
candidate and may ask another one for its vote (`raft_become_candidate` and the RPC of
`raft_core.c`).  Messages arrive whole.

What a step of a thread can do is said once, in the `Outcome`s below, and the invariants are
proved by cases on them.
-/
import Oceanliner.Lib.Network
import Oceanliner.Lib.Transition
import Oceanliner.Main.Threads

open Network (Moves)

namespace Oceanliner

variable {n : ℕ} {DB : Type}

/-- The nodes and the links between them. -/
abbrev Cluster (n : ℕ) (DB : Type) := Network.Net (Fin n) (Server n DB) (Message n)

/-- The steps of a cluster.  `receive i j` is `thread_2` of node `i` reading the next message
from node `j`. -/
inductive ClusterAction (n : ℕ) where
  | thread1 (i : Fin n) (event : Thread1Event)
  | receive (i j : Fin n)
  | thread2 (i : Fin n)
  | thread3 (i : Fin n)
  | thread5 (i : Fin n)
  | candidate (i : Fin n)
  | requestVote (i j : Fin n)

/-- The messages to node `j` among those a step sends. -/
def onLink (out : Outgoing n) (j : Fin n) : List (Message n) :=
  match out with
  | some (dest, m) => if j = dest then [m] else []
  | none => []

@[simp] lemma onLink_none (j : Fin n) : onLink (none : Outgoing n) j = [] := rfl

@[simp] lemma onLink_some (dest j : Fin n) (m : Message n) :
    onLink (some (dest, m)) j = if j = dest then [m] else [] := rfl

lemma mem_onLink {out : Outgoing n} {j : Fin n} {m : Message n} :
    m ∈ onLink out j ↔ out = some (j, m) := by
  rcases out with _ | ⟨dest, m'⟩
  · simp
  · rw [onLink_some]
    split
    · rename_i hj
      subst hj
      simp [eq_comm]
    · rename_i hj
      simp [Ne.symm hj]

/-- A node becomes a candidate, as `raft_become_candidate` does. -/
def becomeCandidate (raft : RaftVars) : RaftVars :=
  { raft with state := .candidate, currentTerm := u64 (raft.currentTerm + 1), votesReceived := 1 }

/-- The vote request of a candidate. -/
def requestVoteMessage (self : Fin n) (raft : RaftVars) : Message n where
  term := raft.currentTerm
  senderNodeId := self
  body := .requestVote raft.lastAppliedTerm raft.lastAppliedIndex

namespace Cluster

/-- Node `i` has become `s` and has sent a message. -/
def send (c : Cluster n DB) (i : Fin n) (s : Server n DB) (out : Outgoing n) : Cluster n DB where
  node := Function.update c.node i s
  link := fun a b => c.link a b ++ if a = i then onLink out b else []

/-- Node `i` has become `s` and has read a message from node `j`, after which `rest` is left. -/
def receive (c : Cluster n DB) (i j : Fin n) (s : Server n DB) (rest : List (Message n)) :
    Cluster n DB where
  node := Function.update c.node i s
  link := fun a b => if b = i ∧ a = j then rest else c.link a b

lemma moves_send (c : Cluster n DB) (i : Fin n) (s : Server n DB) (out : Outgoing n) :
    Moves c i s (onLink none) (onLink out) (c.send i s out) where
  node_eq := rfl
  link_eq := by
    intro a b
    rw [onLink_none, ite_self, List.nil_append]
    rfl

lemma moves_receive (c : Cluster n DB) {i j : Fin n} (s : Server n DB) {m : Message n}
    {rest : List (Message n)} (h : c.link j i = m :: rest) :
    Moves c i s (onLink (some (j, m))) (onLink none) (c.receive i j s rest) where
  node_eq := rfl
  link_eq := by
    intro a b
    rw [onLink_none, ite_self, List.append_nil, onLink_some]
    show _ ++ (if b = i ∧ a = j then rest else c.link a b) = c.link a b
    by_cases hb : b = i
    · by_cases ha : a = j
      · rw [if_pos hb, if_pos ha, if_pos ⟨hb, ha⟩, hb, ha, h]
        rfl
      · rw [if_pos hb, if_neg ha, if_neg (fun hand => ha hand.2)]
        rfl
    · rw [if_neg hb, if_neg (fun hand => hb hand.1)]
      rfl

/-- A cluster whose nodes have just started their threads. -/
def start (raft : Fin n → RaftVars) (diskMap : Fin n → DB) : Cluster n DB where
  node := fun i => .start (raft i) (diskMap i)
  link := fun _ _ => []

end Cluster

/-- A step of the cluster. -/
def clusterStep (R : RocksDb DB) (c : Cluster n DB) : ClusterAction n → Option (Cluster n DB)
  | .thread1 i event => (thread1Step i (c.node i) event).map fun s => c.send i s none
  | .receive i j =>
      match c.link j i with
      | [] => none
      | m :: rest => (thread2Receive (c.node i) m).map fun s => c.receive i j s rest
  | .thread2 i => (thread2Step i (c.node i)).map fun (s, out) => c.send i s out
  | .thread3 i => (thread3Step i (c.node i)).map fun (s, out) => c.send i s out
  | .thread5 i => (thread5Step R (c.node i)).map fun s => c.send i s none
  | .candidate i =>
      some (c.send i { c.node i with raft := becomeCandidate (c.node i).raft } none)
  | .requestVote i j =>
      if (c.node i).raft.state = .candidate ∧ i ≠ j then
        some (c.send i (c.node i) (some (j, requestVoteMessage i (c.node i).raft)))
      else none

/-! ### What the threads can do -/

/-- The buffers that `thread_1` holds. -/
def Thread1.buffers : Thread1 n → Option (CmdBuffer n × CmdBuffer n)
  | .idle => none
  | .leaderSeen => none
  | .filling w r => some (w, r)
  | .receiving w r => some (w, r)
  | .closing w r => some (w, r)
  | .enqueueing w r => some (w, r)

/-- After a datagram `thread_1` holds its buffers, whether it closes the batch or goes on. -/
lemma Thread1.buffers_closing_or_filling (full : Bool) (w r : CmdBuffer n) :
    Thread1.buffers (if full = true then .closing w r else .filling w r) = some (w, r) := by
  cases full <;> rfl

/-- `thread_1` holds at most one pair of buffers. -/
lemma Thread1.forall_buffers {t : Thread1 n} {w r : CmdBuffer n} (h : t.buffers = some (w, r))
    {p : CmdBuffer n → CmdBuffer n → Prop} (hp : p w r) :
    ∀ w₁ r₁, t.buffers = some (w₁, r₁) → p w₁ r₁ := by
  intro w₁ r₁ h₁
  obtain ⟨rfl, rfl⟩ := Prod.mk.inj (Option.some.inj (h.symm.trans h₁))
  exact hp

/-- The batch that `thread_2` has written to the log file and not enqueued. -/
def Thread2.written : Thread2 n → List (CmdBuffer n)
  | .enqueueing b => [b]
  | _ => []

/-- The batch that `thread_3` has written to the log file and not enqueued. -/
def Thread3.written : Thread3 n → List (CmdBuffer n)
  | .enqueueing w => [w]
  | _ => []

/-- The outcomes of a step of `thread_1`. -/
inductive Thread1Outcome (self : Fin n) (s : Server n DB) : Server n DB → Prop
  | seesLeader (hidle : s.thread1 = .idle) (hleader : s.raft.state = .leader) :
      Thread1Outcome self s { s with thread1 := .leaderSeen }
  | opens (hseen : s.thread1 = .leaderSeen) :
      Thread1Outcome self s
        { s with
          thread1 := .filling (thread1Open s.raft ⟨self, s.opened⟩)
            (thread1Open s.raft ⟨self, s.opened⟩)
          opened := s.opened + 1 }
  | goesOn {w r : CmdBuffer n} {t : Thread1 n} (hfrom : s.thread1.buffers = some (w, r))
      (hto : t.buffers = some (w, r)) :
      Thread1Outcome self s { s with thread1 := t }
  | admitsRead {w r r' : CmdBuffer n} {t : Thread1 n} (hfrom : s.thread1.buffers = some (w, r))
      (hto : t.buffers = some (w, r')) :
      Thread1Outcome self s { s with thread1 := t }
  | admitsWrite {w r : CmdBuffer n} {t : Thread1 n} {record : KvsRecord}
      (hfrom : s.thread1.buffers = some (w, r)) (hto : t.buffers = some (w.push record, r)) :
      Thread1Outcome self s
        { s with thread1 := t, admitted := s.admitted ++ [record.bytes] }
  | abandons {w r : CmdBuffer n} (hfrom : s.thread1 = .closing w r)
      (hwhy : s.raft.currentTerm ≠ w.term ∨ w.commands = []) :
      Thread1Outcome self s { s with thread1 := .idle }
  | enqueues {w r : CmdBuffer n} (hfrom : s.thread1 = .enqueueing w r) :
      Thread1Outcome self s
        { s with
          thread1 := .idle
          queue13 := s.queue13 ++ [(w, r)]
          enqueued := s.enqueued ++ [w] }

/-- A record takes at least 32 bytes, so a buffer without bytes has no commands. -/
lemma CmdBuffer.commands_eq_nil {b : CmdBuffer n} (h : b.cmdsLength = 0) : b.commands = [] := by
  rw [cmdsLength, data] at h
  cases hrs : b.commands with
  | nil => rfl
  | cons r rs =>
      have hr := r.thirtyTwo_le_length
      rw [hrs, recordBytes_cons, List.length_append] at h
      omega

lemma thread1Admit_spec {w r w' r' : CmdBuffer n} {bytes : List UInt8} {memory : ℕ → UInt8}
    (h : thread1Admit w r bytes memory = some (w', r')) :
    (isGet bytes = true ∧ w' = w ∧ ∃ record, r' = r.push record) ∨
      (isGet bytes = false ∧ r' = r ∧
        ∃ record : KvsRecord, w' = w.push record ∧
          record.bytes = bytes ++ padding bytes.length memory) := by
  rw [thread1Admit] at h
  split at h
  · cases hget : isGet bytes with
    | true =>
        simp only [hget, if_true] at h
        split at h
        · cases h
        · obtain ⟨rfl, rfl⟩ := Prod.mk.inj (Option.some.inj h)
          exact .inl ⟨rfl, rfl, _, rfl⟩
    | false =>
        simp only [hget, Bool.false_eq_true, if_false] at h
        split at h
        · cases h
        · obtain ⟨rfl, rfl⟩ := Prod.mk.inj (Option.some.inj h)
          exact .inr ⟨rfl, rfl, _, rfl, rfl⟩
  · cases h

lemma thread1Step_spec {self : Fin n} {s s' : Server n DB} {event : Thread1Event}
    (h : thread1Step self s event = some s') : Thread1Outcome self s s' := by
  cases event with
  | tick timeUp =>
      rw [thread1Step] at h
      split at h
      · rename_i hfrom
        split at h
        · rename_i hleader
          obtain rfl := Option.some.inj h
          exact .seesLeader hfrom hleader
        · cases h
      · rename_i hfrom
        obtain rfl := Option.some.inj h
        exact .opens hfrom
      · rename_i w r hfrom
        have hbuffers : s.thread1.buffers = some (w, r) := by rw [hfrom]; rfl
        split at h
        · obtain rfl := Option.some.inj h
          exact .goesOn hbuffers rfl
        · obtain rfl := Option.some.inj h
          exact .goesOn hbuffers rfl
      · rename_i w r hfrom
        have hbuffers : s.thread1.buffers = some (w, r) := by rw [hfrom]; rfl
        obtain rfl := Option.some.inj h
        exact .goesOn hbuffers rfl
      · rename_i w r hfrom
        have hbuffers : s.thread1.buffers = some (w, r) := by rw [hfrom]; rfl
        split at h
        · rename_i hterm
          obtain rfl := Option.some.inj h
          exact .abandons hfrom (.inl hterm)
        · split at h
          · rename_i hempty
            obtain rfl := Option.some.inj h
            exact .abandons hfrom (.inr (CmdBuffer.commands_eq_nil hempty.1))
          · obtain rfl := Option.some.inj h
            exact .goesOn hbuffers rfl
      · rename_i hfrom
        obtain rfl := Option.some.inj h
        exact .enqueues hfrom
  | datagram bytes memory =>
      rw [thread1Step] at h
      split at h
      · rename_i w r hfrom
        have hbuffers : s.thread1.buffers = some (w, r) := by rw [hfrom]; rfl
        obtain ⟨⟨w', r'⟩, hadmit, rfl⟩ := Option.map_eq_some_iff.1 h
        rcases thread1Admit_spec hadmit with ⟨hget, rfl, record, rfl⟩ | ⟨hget, rfl, record, rfl, hbytes⟩
        · simp only [hget, if_true]
          exact .admitsRead hbuffers (Thread1.buffers_closing_or_filling _ _ _)
        · simp only [hget, Bool.false_eq_true, if_false]
          rw [← hbytes]
          exact .admitsWrite hbuffers (Thread1.buffers_closing_or_filling _ _ _)
      · cases h

/-- The outcomes of a step of `thread_2`: the message it reads, if it does, the node afterwards
and the message it sends, if it does. -/
inductive Thread2Outcome (self : Fin n) (s : Server n DB) :
    Outgoing n → Server n DB → Outgoing n → Prop
  | discards {j : Fin n} {m : Message n} (hterm : m.term < s.raft.currentTerm) :
      Thread2Outcome self s (some (j, m)) s none
  | reads {j : Fin n} {m : Message n} {raft : RaftVars} (hidle : s.thread2 = .idle)
      (hterm : thread2Term s.raft m.term = some raft) :
      Thread2Outcome self s (some (j, m)) { s with raft := raft, thread2 := .handling m } none
  | accepts {m : Message n} {prevLogTerm prevLogIndex leaderCommit : ℕ} {entries : CmdBuffer n}
      (hfrom : s.thread2 = .handling m)
      (hbody : m.body = .appendEntries prevLogTerm prevLogIndex leaderCommit entries)
      (haccepts : thread2Accepts s.raft prevLogTerm prevLogIndex = true) :
      Thread2Outcome self s none
        { s with
          thread2 := .replying m.senderNodeId
            ⟨s.raft.currentTerm, self,
              .respAppendEntries true prevLogTerm (u64 (prevLogIndex + 1)) entries⟩
            (some entries) }
        none
  | refuses {m : Message n} {prevLogTerm prevLogIndex leaderCommit : ℕ} {entries : CmdBuffer n}
      (hfrom : s.thread2 = .handling m)
      (hbody : m.body = .appendEntries prevLogTerm prevLogIndex leaderCommit entries)
      (hrefuses : thread2Accepts s.raft prevLogTerm prevLogIndex = false) :
      Thread2Outcome self s none
        { s with
          thread2 := .replying m.senderNodeId
            ⟨s.raft.currentTerm, self,
              .respAppendEntries false s.raft.lastAppliedTerm s.raft.lastAppliedIndex entries⟩
            none }
        none
  | votes {m : Message n} {lastLogTerm lastLogIndex : ℕ} (hfrom : s.thread2 = .handling m)
      (hbody : m.body = .requestVote lastLogTerm lastLogIndex) :
      Thread2Outcome self s none
        { s with
          thread2 := .replying m.senderNodeId
            (thread2RequestVote self s.raft lastLogTerm lastLogIndex) none }
        none
  | takesOk {m : Message n} {term logIdx : ℕ} {answers : CmdBuffer n}
      (hfrom : s.thread2 = .handling m)
      (hbody : m.body = .respAppendEntries true term logIdx answers) :
      Thread2Outcome self s none
        { s with
          thread2 := .idle
          queue23 := s.queue23 ++ [⟨m.senderNodeId, term, logIdx, answers⟩] }
        none
  | takesErr {m : Message n} {term logIdx : ℕ} {answers : CmdBuffer n}
      (hfrom : s.thread2 = .handling m)
      (hbody : m.body = .respAppendEntries false term logIdx answers) :
      Thread2Outcome self s none { s with thread2 := .idle } none
  | countsVote {m : Message n} {voteGranted : Bool} {raft : RaftVars} {t : Thread2 n}
      (hfrom : s.thread2 = .handling m) (hbody : m.body = .respRequestVote voteGranted)
      (hto : t = .becomingLeader ∨ t = .idle) :
      Thread2Outcome self s none { s with raft := raft, thread2 := t } none
  | repliesOk {dest : Fin n} {reply : Message n} {b : CmdBuffer n}
      (hfrom : s.thread2 = .replying dest reply (some b)) :
      Thread2Outcome self s none { s with thread2 := .logging b } (some (dest, reply))
  | replies {dest : Fin n} {reply : Message n} (hfrom : s.thread2 = .replying dest reply none) :
      Thread2Outcome self s none { s with thread2 := .idle } (some (dest, reply))
  | logs {b : CmdBuffer n} (hfrom : s.thread2 = .logging b) :
      Thread2Outcome self s none
        { s with thread2 := .enqueueing b, logFile := s.logFile ++ [b] } none
  | enqueues {b : CmdBuffer n} (hfrom : s.thread2 = .enqueueing b) :
      Thread2Outcome self s none { s with thread2 := .idle, queue35 := s.queue35 ++ [b] } none
  | becomesLeader (hfrom : s.thread2 = .becomingLeader) :
      Thread2Outcome self s none
        { s with thread2 := .idle, raft := { s.raft with state := .leader } } none

lemma thread2Term_eq_none {raft : RaftVars} {term : ℕ} (h : thread2Term raft term = none) :
    term < raft.currentTerm := by
  rw [thread2Term] at h
  split at h
  · cases h
  · split at h
    · rename_i hlt
      exact hlt
    · cases h

lemma thread2Receive_spec {self j : Fin n} {s s' : Server n DB} {m : Message n}
    (h : thread2Receive s m = some s') : Thread2Outcome self s (some (j, m)) s' none := by
  rw [thread2Receive] at h
  split at h
  · rename_i hidle
    split at h
    · rename_i raft hterm
      obtain rfl := Option.some.inj h
      exact .reads hidle hterm
    · rename_i hterm
      obtain rfl := Option.some.inj h
      exact .discards (thread2Term_eq_none hterm)
  · cases h

lemma thread2Handle_spec {self : Fin n} {s s' : Server n DB} {m : Message n}
    (hfrom : s.thread2 = .handling m) (h : thread2Handle self s m = some s') :
    Thread2Outcome self s none s' none := by
  rw [thread2Handle] at h
  split at h
  · rename_i prevLogTerm prevLogIndex leaderCommit entries hbody
    obtain rfl := Option.some.inj h
    cases haccepts : thread2Accepts s.raft prevLogTerm prevLogIndex with
    | true =>
        simp only [thread2AppendEntries, haccepts, if_true]
        exact .accepts hfrom hbody haccepts
    | false =>
        simp only [thread2AppendEntries, haccepts, Bool.false_eq_true, if_false]
        exact .refuses hfrom hbody haccepts
  · rename_i hbody
    obtain rfl := Option.some.inj h
    exact .votes hfrom hbody
  · rename_i success term logIdx answers hbody
    cases success with
    | true =>
        obtain rfl := Option.some.inj h
        exact .takesOk hfrom hbody
    | false =>
        obtain rfl := Option.some.inj h
        exact .takesErr hfrom hbody
  · rename_i voteGranted hbody
    split at h
    · cases h
    · obtain rfl := Option.some.inj h
      refine .countsVote hfrom hbody ?_
      split
      · exact .inl rfl
      · exact .inr rfl

lemma thread2Step_spec {self : Fin n} {s s' : Server n DB} {out : Outgoing n}
    (h : thread2Step self s = some (s', out)) : Thread2Outcome self s none s' out := by
  rw [thread2Step] at h
  split at h
  · cases h
  · rename_i m hfrom
    obtain ⟨s₁, hhandle, heq⟩ := Option.map_eq_some_iff.1 h
    obtain ⟨rfl, rfl⟩ := Prod.mk.inj heq
    exact thread2Handle_spec hfrom hhandle
  · rename_i dest reply accepted hfrom
    cases accepted with
    | none =>
        obtain ⟨rfl, rfl⟩ := Prod.mk.inj (Option.some.inj h)
        exact .replies hfrom
    | some b =>
        obtain ⟨rfl, rfl⟩ := Prod.mk.inj (Option.some.inj h)
        exact .repliesOk hfrom
  · rename_i b hfrom
    obtain ⟨rfl, rfl⟩ := Prod.mk.inj (Option.some.inj h)
    exact .logs hfrom
  · rename_i b hfrom
    obtain ⟨rfl, rfl⟩ := Prod.mk.inj (Option.some.inj h)
    exact .enqueues hfrom
  · rename_i hfrom
    obtain ⟨rfl, rfl⟩ := Prod.mk.inj (Option.some.inj h)
    exact .becomesLeader hfrom

/-- The outcomes of a step of `thread_3`. -/
inductive Thread3Outcome (self : Fin n) (s : Server n DB) : Server n DB → Outgoing n → Prop
  | takes {w r : CmdBuffer n} {rest : List (CmdBuffer n × CmdBuffer n)}
      (hidle : s.thread3 = .idle) (hqueue : s.queue13 = (w, r) :: rest) :
      Thread3Outcome self s { s with thread3 := .building w r, queue13 := rest } none
  | builds {w r : CmdBuffer n} (hfrom : s.thread3 = .building w r) :
      Thread3Outcome self s
        { s with
          thread3 := .sending w r s.raft.lastAppliedTerm s.raft.lastAppliedIndex (peers self) }
        none
  | sends {w r : CmdBuffer n} {prevLogTerm prevLogIndex : ℕ} {dest : Fin n}
      {rest : List (Fin n)}
      (hfrom : s.thread3 = .sending w r prevLogTerm prevLogIndex (dest :: rest)) :
      Thread3Outcome self s { s with thread3 := .sending w r prevLogTerm prevLogIndex rest }
        (some (dest, thread3Message self w prevLogTerm prevLogIndex))
  | waits {w r : CmdBuffer n} {prevLogTerm prevLogIndex : ℕ}
      (hfrom : s.thread3 = .sending w r prevLogTerm prevLogIndex []) :
      Thread3Outcome self s { s with thread3 := .waiting w r [] } none
  | counts {w r : CmdBuffer n} {counted : List (Fin n × CmdBuffer n)} {ok : AppendOk n}
      {rest : List (AppendOk n)} (hfrom : s.thread3 = .waiting w r counted)
      (hqueue : s.queue23 = ok :: rest) (hwaits : 1 + counted.length ≤ n / 2)
      (hcounts : thread3Counts ok w = true) :
      Thread3Outcome self s
        { s with
          thread3 := .waiting w r (counted ++ [(ok.nodeId, ok.answers)])
          queue23 := rest }
        none
  | skips {w r : CmdBuffer n} {counted : List (Fin n × CmdBuffer n)} {ok : AppendOk n}
      {rest : List (AppendOk n)} (hfrom : s.thread3 = .waiting w r counted)
      (hqueue : s.queue23 = ok :: rest) :
      Thread3Outcome self s { s with queue23 := rest } none
  | commits {w r : CmdBuffer n} {counted : List (Fin n × CmdBuffer n)}
      (hfrom : s.thread3 = .waiting w r counted) (hquorum : n / 2 < 1 + counted.length) :
      Thread3Outcome self s { s with thread3 := .logging w } none
  | logs {w : CmdBuffer n} (hfrom : s.thread3 = .logging w) :
      Thread3Outcome self s
        { s with thread3 := .enqueueing w, logFile := s.logFile ++ [w] } none
  | enqueues {w : CmdBuffer n} (hfrom : s.thread3 = .enqueueing w) :
      Thread3Outcome self s { s with thread3 := .idle, queue35 := s.queue35 ++ [w] } none

lemma thread3Step_spec {self : Fin n} {s s' : Server n DB} {out : Outgoing n}
    (h : thread3Step self s = some (s', out)) : Thread3Outcome self s s' out := by
  rw [thread3Step] at h
  split at h
  · rename_i hidle
    split at h
    · cases h
    · rename_i w r rest hqueue
      split at h
      · cases h
      · obtain ⟨rfl, rfl⟩ := Prod.mk.inj (Option.some.inj h)
        exact .takes hidle hqueue
  · rename_i hfrom
    obtain ⟨rfl, rfl⟩ := Prod.mk.inj (Option.some.inj h)
    exact .builds hfrom
  · rename_i hfrom
    obtain ⟨rfl, rfl⟩ := Prod.mk.inj (Option.some.inj h)
    exact .waits hfrom
  · rename_i hfrom
    obtain ⟨rfl, rfl⟩ := Prod.mk.inj (Option.some.inj h)
    exact .sends hfrom
  · rename_i w r counted hfrom
    split at h
    · rename_i hwaits
      split at h
      · cases h
      · rename_i ok rest hqueue
        split at h
        · rename_i hcounts
          obtain ⟨rfl, rfl⟩ := Prod.mk.inj (Option.some.inj h)
          exact .counts hfrom hqueue hwaits hcounts
        · split at h
          · obtain ⟨rfl, rfl⟩ := Prod.mk.inj (Option.some.inj h)
            exact .skips hfrom hqueue
          · cases h
    · rename_i hquorum
      obtain ⟨rfl, rfl⟩ := Prod.mk.inj (Option.some.inj h)
      exact .commits hfrom (Nat.lt_of_not_le hquorum)
  · rename_i hfrom
    obtain ⟨rfl, rfl⟩ := Prod.mk.inj (Option.some.inj h)
    exact .logs hfrom
  · rename_i hfrom
    obtain ⟨rfl, rfl⟩ := Prod.mk.inj (Option.some.inj h)
    exact .enqueues hfrom

/-- Between two batches `thread_3` can only take the next one. -/
lemma Thread3Outcome.of_idle {self : Fin n} {s s' : Server n DB} {out : Outgoing n}
    (h : Thread3Outcome self s s' out) (hidle : s.thread3 = .idle) :
    ∃ w r rest, s.queue13 = (w, r) :: rest ∧
      s' = { s with thread3 := .building w r, queue13 := rest } := by
  cases h with
  | @takes w r rest _ hqueue => exact ⟨w, r, rest, hqueue, rfl⟩
  | builds hfrom => rw [hidle] at hfrom; cases hfrom
  | sends hfrom => rw [hidle] at hfrom; cases hfrom
  | waits hfrom => rw [hidle] at hfrom; cases hfrom
  | counts hfrom => rw [hidle] at hfrom; cases hfrom
  | skips hfrom => rw [hidle] at hfrom; cases hfrom
  | commits hfrom => rw [hidle] at hfrom; cases hfrom
  | logs hfrom => rw [hidle] at hfrom; cases hfrom
  | enqueues hfrom => rw [hidle] at hfrom; cases hfrom

/-- The outcomes of a step of `thread_5`. -/
inductive Thread5Outcome (R : RocksDb DB) (s : Server n DB) : Server n DB → Prop
  | takes {b : CmdBuffer n} {rest : List (CmdBuffer n)} (hidle : s.thread5 = .idle)
      (hqueue : s.queue35 = b :: rest) :
      Thread5Outcome R s { s with thread5 := .applying b 0, queue35 := rest }
  | applies {b : CmdBuffer n} {processed length : ℕ} {diskMap : DB}
      (hfrom : s.thread5 = .applying b processed) (hlt : processed < b.cmdsLength)
      (hcommand : thread5Command R s.diskMap b processed = some (diskMap, length)) :
      Thread5Outcome R s
        { s with
          thread5 := .answering b processed length
          diskMap := diskMap
          applied := s.applied ++ [(b, commandAt b.data processed)] }
  | finishes {b : CmdBuffer n} {processed : ℕ} (hfrom : s.thread5 = .applying b processed)
      (hend : processed = b.cmdsLength) :
      Thread5Outcome R s { s with thread5 := .idle }
  | answers {b : CmdBuffer n} {processed length : ℕ}
      (hfrom : s.thread5 = .answering b processed length) (hleader : s.raft.state = .leader) :
      Thread5Outcome R s
        { s with
          thread5 := .applying b (processed + length)
          acked := s.acked ++ [(b, commandAt b.data processed)] }
  | keepsSilent {b : CmdBuffer n} {processed length : ℕ}
      (hfrom : s.thread5 = .answering b processed length) :
      Thread5Outcome R s { s with thread5 := .applying b (processed + length) }

lemma thread5Step_spec {R : RocksDb DB} {s s' : Server n DB} (h : thread5Step R s = some s') :
    Thread5Outcome R s s' := by
  rw [thread5Step] at h
  split at h
  · rename_i hidle
    split at h
    · cases h
    · rename_i hqueue
      split at h
      · cases h
      · obtain rfl := Option.some.inj h
        exact .takes hidle hqueue
  · rename_i hfrom
    split at h
    · rename_i hlt
      obtain ⟨⟨diskMap, length⟩, hcommand, rfl⟩ := Option.map_eq_some_iff.1 h
      exact .applies hfrom hlt hcommand
    · split at h
      · rename_i hend
        obtain rfl := Option.some.inj h
        exact .finishes hfrom hend
      · cases h
  · rename_i hfrom
    obtain rfl := Option.some.inj h
    split
    · rename_i hleader
      exact .answers hfrom hleader
    · exact .keepsSilent hfrom

/-- The outcomes of a step of the cluster.  The last one is a step that `main.c` does not take:
it changes the role of a node, or asks for a vote. -/
inductive ClusterOutcome (R : RocksDb DB) (c : Cluster n DB) :
    ClusterAction n → Cluster n DB → Prop
  | thread1 {a : ClusterAction n} {i : Fin n} {s : Server n DB} {c' : Cluster n DB}
      (h : Thread1Outcome i (c.node i) s)
      (hmoves : Moves c i s (onLink none) (onLink none) c') : ClusterOutcome R c a c'
  | thread2 {a : ClusterAction n} {i : Fin n} {popped out : Outgoing n} {s : Server n DB}
      {c' : Cluster n DB} (h : Thread2Outcome i (c.node i) popped s out)
      (hmoves : Moves c i s (onLink popped) (onLink out) c') : ClusterOutcome R c a c'
  | thread3 {i : Fin n} {out : Outgoing n} {s : Server n DB} {c' : Cluster n DB}
      (h : Thread3Outcome i (c.node i) s out)
      (hmoves : Moves c i s (onLink none) (onLink out) c') :
      ClusterOutcome R c (.thread3 i) c'
  | thread5 {i : Fin n} {s : Server n DB} {c' : Cluster n DB}
      (h : Thread5Outcome R (c.node i) s)
      (hmoves : Moves c i s (onLink none) (onLink none) c') :
      ClusterOutcome R c (.thread5 i) c'
  | election {a : ClusterAction n} {i : Fin n} {raft : RaftVars} {out : Outgoing n}
      {c' : Cluster n DB}
      (hout : out = none ∨
        ∃ j, i ≠ j ∧ out = some (j, requestVoteMessage i (c.node i).raft))
      (hmoves : Moves c i { c.node i with raft := raft } (onLink none) (onLink out) c') :
      ClusterOutcome R c a c'

theorem clusterStep_spec {R : RocksDb DB} {c c' : Cluster n DB} {a : ClusterAction n}
    (h : clusterStep R c a = some c') : ClusterOutcome R c a c' := by
  cases a with
  | thread1 i event =>
      obtain ⟨s, hs, rfl⟩ := Option.map_eq_some_iff.1 h
      exact .thread1 (thread1Step_spec hs) (c.moves_send i s none)
  | receive i j =>
      rw [clusterStep] at h
      split at h
      · cases h
      · rename_i m rest hlink
        obtain ⟨s, hs, rfl⟩ := Option.map_eq_some_iff.1 h
        exact .thread2 (thread2Receive_spec hs) (c.moves_receive s hlink)
  | thread2 i =>
      obtain ⟨⟨s, out⟩, hs, rfl⟩ := Option.map_eq_some_iff.1 h
      exact .thread2 (thread2Step_spec hs) (c.moves_send i s out)
  | thread3 i =>
      obtain ⟨⟨s, out⟩, hs, rfl⟩ := Option.map_eq_some_iff.1 h
      exact .thread3 (thread3Step_spec hs) (c.moves_send i s out)
  | thread5 i =>
      obtain ⟨s, hs, rfl⟩ := Option.map_eq_some_iff.1 h
      exact .thread5 (thread5Step_spec hs) (c.moves_send i s none)
  | candidate i =>
      obtain rfl := Option.some.inj h
      exact .election (.inl rfl) (c.moves_send i _ none)
  | requestVote i j =>
      rw [clusterStep] at h
      split at h
      · rename_i hcandidate
        obtain rfl := Option.some.inj h
        exact .election (.inr ⟨j, hcandidate.2, rfl⟩) (c.moves_send i (c.node i) _)
      · cases h

/-! ### The first batch of a cluster -/

/-- Node `0` is the leader of term `1`. -/
def firstLeads {n : ℕ} (i : Fin n) : RaftVars where
  state := if i.val = 0 then .leader else .follower
  currentTerm := 1
  votesReceived := 0
  lastAppliedTerm := 1
  lastAppliedIndex := 0

/-- Node `0` admits a SET and passes the batch to `thread_3`. -/
def admitSet {n : ℕ} [NeZero n] : List (ClusterAction n) :=
  [.thread1 0 (.tick false), .thread1 0 (.tick false), .thread1 0 (.tick false),
    .thread1 0 (.datagram (shortBytes 2) fun _ => 0), .thread1 0 (.tick true),
    .thread1 0 (.tick false), .thread1 0 (.tick false)]

/-- Node `0` sends the batch to the nodes `1` and `2`, and node `1` sends its OK. -/
def replicateSet : List (ClusterAction 3) :=
  [.thread3 0, .thread3 0, .thread3 0, .thread3 0, .thread3 0, .receive 1 0, .thread2 1,
    .thread2 1]

/-- Node `0` counts the OK, writes its log file, applies the SET and answers the client. -/
def answerSet : List (ClusterAction 3) :=
  [.receive 0 1, .thread2 0, .thread3 0, .thread3 0, .thread3 0, .thread3 0, .thread5 0,
    .thread5 0, .thread5 0]

end Oceanliner
