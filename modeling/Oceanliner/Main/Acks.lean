/-
# What a follower's OK is counted for

A batch gets its term and index from `thread_1`, `thread_3` sends it behind `last_applied_*`,
the follower's OK repeats the `prev_log_term` of the message and the index after its
`prev_log_index`, and `thread_3` compares both with the batch.  The indices always agree.  The
terms agree only when the last entry the leader has applied is of the current term.
-/
import Oceanliner.Lib.Transition
import Oceanliner.Main.Cluster
import Oceanliner.Main.Inbox

open Transition

namespace Oceanliner

variable {n : ℕ} {DB : Type}

/-- A node whose threads 1 and 3 run while `raft_state` stays as it is, and what `thread_3` has
sent. -/
structure Sender (n : ℕ) (DB : Type) where
  server : Server n DB
  sent : List (Fin n × Message n)

/-- The steps of the threads 1 and 3, and `thread_2` passing on an OK. -/
inductive SenderAction (n : ℕ) where
  | thread1 (event : Thread1Event)
  | thread3
  | passesOn (ok : AppendOk n)

/-- A step of the threads 1 and 3, or an OK from `thread_2`. -/
def senderStep (self : Fin n) (s : Sender n DB) : SenderAction n → Option (Sender n DB)
  | .thread1 event =>
      (thread1Step self s.server event).map fun server => { s with server := server }
  | .thread3 =>
      (thread3Step self s.server).map fun (server, out) => ⟨server, s.sent ++ out.toList⟩
  | .passesOn ok =>
      some { s with server := { s.server with queue23 := s.server.queue23 ++ [ok] } }

/-- The threads start in the given state of the node. -/
def Sender.start (raft : RaftVars) (diskMap : DB) : Sender n DB := ⟨.start raft diskMap, []⟩

/-- How an OK comes about: the follower `peer` accepts the message `m` and replies with success,
and `thread_2` of the leader passes the reply on as `ok`. -/
def OkPassedOn (self peer : Fin n) (follower leader : Server n DB) (m : Message n)
    (ok : AppendOk n) : Prop :=
  ∃ follower' reply leader' term logIdx b,
    thread2Process peer follower m = some (follower', [(self, reply)]) ∧
      reply.body = .respAppendEntries true term logIdx b ∧
        thread2Process self leader reply = some (leader', []) ∧
          leader'.queue23 = leader.queue23 ++ [ok]

/-- The OK names the batch by its term and index, so that `thread_3` counts it. -/
def CountedFor (ok : AppendOk n) (b : CmdBuffer n) : Prop :=
  (ok.term, ok.logIndex) = (b.term, b.logIndex) ∧ thread3Counts ok b = true

/-! ### The batches on their way -/

/-- The batch was opened in the given state of the node. -/
structure OpenedIn (raft : RaftVars) (b : CmdBuffer n) : Prop where
  term : b.term = raft.currentTerm
  logIndex : b.logIndex = u64 (raft.lastAppliedIndex + 1)

/-- The batch of `thread_3` was opened in the given state, and what it sends names the last
entry applied there. -/
def Thread3.SendsIn (raft : RaftVars) : Thread3 n → Prop
  | .building w _ => OpenedIn raft w
  | .sending w _ prevLogTerm prevLogIndex _ =>
      OpenedIn raft w ∧ prevLogTerm = raft.lastAppliedTerm ∧ prevLogIndex = raft.lastAppliedIndex
  | _ => True

/-- Everything on its way from `thread_1` to the links was opened in the given state. -/
structure SendingIn (leader : Fin n) (raft : RaftVars) (s : Sender n DB) : Prop where
  raft_eq : s.server.raft = raft
  buffers : ∀ w r, s.server.thread1.buffers = some (w, r) → OpenedIn raft w
  queue13 : ∀ p ∈ s.server.queue13, OpenedIn raft p.1
  thread3 : s.server.thread3.SendsIn raft
  sent : ∀ p ∈ s.sent, ∃ b, OpenedIn raft b ∧
    p.2 = thread3Message leader b raft.lastAppliedTerm raft.lastAppliedIndex

lemma OpenedIn.push {raft : RaftVars} {b : CmdBuffer n} (h : OpenedIn raft b) (r : KvsRecord) :
    OpenedIn raft (b.push r) := ⟨h.term, h.logIndex⟩

namespace SendingIn

variable {leader : Fin n} {raft : RaftVars} {s s' : Sender n DB}

lemma start (leader : Fin n) (raft : RaftVars) (diskMap : DB) :
    SendingIn leader raft (Sender.start raft diskMap) where
  raft_eq := rfl
  buffers := by rintro w r ⟨⟩
  queue13 := by rintro p ⟨⟩
  thread3 := trivial
  sent := by rintro p ⟨⟩

lemma of_thread1 (hs : SendingIn leader raft s) {server : Server n DB}
    (h : Thread1Outcome leader s.server server) :
    SendingIn leader raft { s with server := server } := by
  have hbuffers := hs.buffers
  cases h with
  | seesLeader => exact { hs with buffers := by rintro w r ⟨⟩ }
  | opens =>
      refine { hs with buffers := ?_ }
      rintro w r ⟨⟩
      rw [hs.raft_eq]
      exact ⟨rfl, rfl⟩
  | goesOn hfrom hto =>
      rw [hfrom, ← hto] at hbuffers
      exact { hs with buffers := hbuffers }
  | admitsRead hfrom hto =>
      refine { hs with buffers := Thread1.forall_buffers hto ?_ }
      exact hbuffers _ _ hfrom
  | admitsWrite hfrom hto =>
      refine { hs with buffers := Thread1.forall_buffers hto ?_ }
      exact (hbuffers _ _ hfrom).push _
  | abandons => exact { hs with buffers := by rintro w r ⟨⟩ }
  | @enqueues w r hfrom =>
      refine { hs with buffers := by rintro w r ⟨⟩, queue13 := ?_ }
      intro p hp
      rcases List.mem_append.1 hp with hold | hnew
      · exact hs.queue13 p hold
      · rw [List.mem_singleton.1 hnew]
        exact hbuffers w r (by rw [hfrom]; rfl)

lemma of_thread3 (hs : SendingIn leader raft s) {server : Server n DB} {out : Outgoing n}
    (h : Thread3Outcome leader s.server server out) :
    SendingIn leader raft ⟨server, s.sent ++ out.toList⟩ := by
  have hthread3 := hs.thread3
  have hsent := hs.sent
  cases h with
  | @takes w r rest hidle hqueue =>
      have hqueue13 := hs.queue13
      rw [hqueue] at hqueue13
      refine { hs with queue13 := ?_, thread3 := ?_, sent := by simpa using hsent }
      · exact fun p hp => hqueue13 p (List.mem_cons_of_mem _ hp)
      · exact hqueue13 (w, r) List.mem_cons_self
  | builds hfrom =>
      rw [hfrom] at hthread3
      refine { hs with thread3 := ?_, sent := by simpa using hsent }
      rw [hs.raft_eq]
      exact ⟨hthread3, rfl, rfl⟩
  | @sends w r prevLogTerm prevLogIndex dest rest hfrom =>
      rw [hfrom] at hthread3
      obtain ⟨hw, rfl, rfl⟩ := hthread3
      refine { hs with thread3 := ⟨hw, rfl, rfl⟩, sent := ?_ }
      intro p hp
      rcases List.mem_append.1 hp with hold | hnew
      · exact hsent p hold
      · rw [List.mem_singleton.1 hnew]
        exact ⟨w, hw, rfl⟩
  | skips => exact { hs with sent := by simpa using hsent }
  | _ => exact { hs with thread3 := trivial, sent := by simpa using hsent }

lemma step (hs : SendingIn leader raft s) {a : SenderAction n} (h : senderStep leader s a = some s') :
    SendingIn leader raft s' := by
  cases a with
  | thread1 event =>
      obtain ⟨server, hserver, rfl⟩ := Option.map_eq_some_iff.1 h
      exact hs.of_thread1 (thread1Step_spec hserver)
  | thread3 =>
      obtain ⟨⟨server, out⟩, hserver, rfl⟩ := Option.map_eq_some_iff.1 h
      exact hs.of_thread3 (thread3Step_spec hserver)
  | passesOn ok =>
      obtain rfl := Option.some.inj h
      exact { hs with }

lemma of_run {diskMap : DB} {as : List (SenderAction n)}
    (hrun : run (senderStep leader) (Sender.start raft diskMap) as = some s) :
    SendingIn leader raft s :=
  run_invariant (fun _ _ _ hs h => hs.step h) (.start leader raft diskMap) hrun

end SendingIn

/-! ### When the OK is counted -/

/-- The follower's OK repeats what the message says about the entry before its own. -/
lemma okPassedOn {self peer : Fin n} {follower leader : Server n DB} {m : Message n}
    {prevLogTerm prevLogIndex leaderCommit : ℕ} {b : CmdBuffer n}
    (hbody : m.body = .appendEntries prevLogTerm prevLogIndex leaderCommit b)
    (hsender : m.senderNodeId = self)
    (hfollower : follower.thread2 = .idle) (hterm : follower.raft.currentTerm ≤ m.term)
    (haccepts : thread2Accepts follower.raft prevLogTerm prevLogIndex = true)
    (hleader : leader.thread2 = .idle) (hcurrent : leader.raft.currentTerm ≤ m.term) :
    OkPassedOn self peer follower leader m ⟨peer, prevLogTerm, u64 (prevLogIndex + 1), b⟩ := by
  have haccepts' : thread2Accepts (raiseTerm follower.raft m.term) prevLogTerm prevLogIndex =
      true := by
    rw [thread2Accepts, raiseTerm_lastAppliedTerm, raiseTerm_lastAppliedIndex]
    exact haccepts
  have hreply : thread2Process peer follower m = _ :=
    thread2Process_appendEntries hfollower hterm hbody
  rw [hsender] at hreply
  have hreplyBody : (thread2AppendEntries peer (raiseTerm follower.raft m.term) prevLogTerm
      prevLogIndex b).body = .respAppendEntries true prevLogTerm (u64 (prevLogIndex + 1)) b := by
    rw [thread2AppendEntries]
    exact if_pos haccepts'
  have hreplyTerm : leader.raft.currentTerm ≤ (thread2AppendEntries peer
      (raiseTerm follower.raft m.term) prevLogTerm prevLogIndex b).term := by
    show leader.raft.currentTerm ≤ (raiseTerm follower.raft m.term).currentTerm
    rw [raiseTerm_currentTerm hterm]
    exact hcurrent
  exact ⟨_, _, _, _, _, _, hreply, hreplyBody,
    thread2Process_ok hleader hreplyTerm hreplyBody, rfl⟩

/-- The term is the only thing that can differ. -/
lemma countedFor_iff {raft : RaftVars} {b : CmdBuffer n} (hb : OpenedIn raft b) (peer : Fin n) :
    CountedFor ⟨peer, raft.lastAppliedTerm, u64 (raft.lastAppliedIndex + 1), b⟩ b ↔
      raft.lastAppliedTerm = raft.currentTerm := by
  rw [CountedFor, thread3Counts, hb.term, hb.logIndex]
  simp

/-- **When an OK is counted for the batch it acknowledges.**  Every AppendEntries message that
the threads 1 and 3 send in a state of the leader carries a batch; every follower that accepts
it causes an OK, and the OK is counted for the batch exactly when the last entry the leader has
applied is of the current term. -/
theorem ok_counted_iff {self : Fin n} {raft : RaftVars} {diskMap : DB}
    {as : List (SenderAction n)} {s : Sender n DB}
    (hrun : run (senderStep self) (Sender.start raft diskMap) as = some s) {peer : Fin n}
    {m : Message n} (hsent : (peer, m) ∈ s.sent) :
    ∃ b leaderCommit,
      m.body = .appendEntries raft.lastAppliedTerm raft.lastAppliedIndex leaderCommit b ∧
        ∀ follower leader : Server n DB, follower.thread2 = .idle →
          follower.raft.currentTerm ≤ m.term →
          thread2Accepts follower.raft raft.lastAppliedTerm raft.lastAppliedIndex = true →
          leader.thread2 = .idle → leader.raft = raft →
            ∃ ok, OkPassedOn self peer follower leader m ok ∧
              (CountedFor ok b ↔ raft.lastAppliedTerm = raft.currentTerm) := by
  obtain ⟨b, hb, rfl⟩ := (SendingIn.of_run hrun).sent _ hsent
  refine ⟨b, _, rfl, fun follower leader hfollower hterm haccepts hleader hraft => ?_⟩
  refine ⟨_, okPassedOn rfl rfl hfollower hterm haccepts hleader ?_, countedFor_iff hb peer⟩
  rw [hraft]
  exact hb.term.ge

/-! ### The first batch ever -/

/-- `thread_1` takes a SET and `thread_3` sends the batch to node `1`. -/
def sendSet : List (SenderAction 3) :=
  [.thread1 (.tick false), .thread1 (.tick false), .thread1 (.tick false),
    .thread1 (.datagram (shortBytes 2) fun _ => 0), .thread1 (.tick true),
    .thread1 (.tick false), .thread1 (.tick false), .thread3, .thread3, .thread3]

/-- The leader of term 1 in a cluster in which nothing has been applied. -/
def freshLeader : RaftVars where
  state := .leader
  currentTerm := 1
  votesReceived := 0
  lastAppliedTerm := 0
  lastAppliedIndex := 0

/-- A follower that has applied the same entry. -/
def RaftVars.asFollower (raft : RaftVars) : RaftVars := { raft with state := .follower }

theorem ok_counted_first : ∃ s m,
    run (senderStep (0 : Fin 3)) (Sender.start (firstLeads (0 : Fin 3)) ()) sendSet = some s ∧
      (1, m) ∈ s.sent ∧
        ∃ b leaderCommit, m.body = .appendEntries 1 0 leaderCommit b ∧
          ∃ ok, OkPassedOn 0 1 (.start (firstLeads (1 : Fin 3)) ())
              (.start (firstLeads (0 : Fin 3)) ()) m ok ∧
            CountedFor ok b := by
  have hrun : ∃ s m, run (senderStep (0 : Fin 3)) (Sender.start (firstLeads (0 : Fin 3)) ())
      sendSet = some s ∧ (1, m) ∈ s.sent ∧ m.term = 1 := ⟨_, _, rfl, List.mem_cons_self, rfl⟩
  obtain ⟨s, m, hrun, hsent, hterm⟩ := hrun
  obtain ⟨b, leaderCommit, hbody, hok⟩ := ok_counted_iff hrun hsent
  obtain ⟨ok, hpath, hiff⟩ := hok (.start (firstLeads (1 : Fin 3)) ())
    (.start (firstLeads (0 : Fin 3)) ()) rfl (by rw [hterm]; decide) rfl rfl rfl
  exact ⟨s, m, hrun, hsent, b, leaderCommit, hbody, ok, hpath, hiff.2 rfl⟩

/-- In a new cluster the OK for the first batch carries the term 0 and is not counted. -/
theorem ok_not_counted : ∃ s m,
    run (senderStep (0 : Fin 3)) (Sender.start freshLeader ()) sendSet = some s ∧
      (1, m) ∈ s.sent ∧
        ∃ b leaderCommit, m.body = .appendEntries 0 0 leaderCommit b ∧
          (b.term, b.logIndex) = (1, 1) ∧
            thread2Accepts freshLeader.asFollower 0 0 = true ∧
              OkPassedOn 0 1 (.start freshLeader.asFollower ()) (.start freshLeader ()) m
                ⟨1, 0, 1, b⟩ ∧
                ¬ CountedFor ⟨1, 0, 1, b⟩ b := by
  refine ⟨_, _, rfl, List.mem_cons_self, _, _, rfl, rfl, rfl, ?_, ?_⟩
  · show OkPassedOn _ _ _ _ _ ⟨1, 0, u64 (0 + 1), _⟩
    exact okPassedOn rfl rfl rfl (Nat.le_refl 1) rfl rfl (Nat.le_refl 1)
  · exact fun h => absurd (congrArg Prod.fst h.1) (by decide)

end Oceanliner
