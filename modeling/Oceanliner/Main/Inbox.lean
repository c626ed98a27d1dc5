/-
# Whole messages in `thread_2`

`thread_2` handles one message after the other: it checks the term, handles the message and is
back at the top of its loop before it reads the next one.  This file runs the steps of
`Oceanliner.Main.Threads` through from one message to the next and says what comes out for each
kind of message that is not outdated.
-/
import Oceanliner.Main.Threads

namespace Oceanliner

variable {n : ℕ} {DB : Type}

/-- `thread_2` goes on until it is back at the top of its loop: the node then, and the messages
sent on the way.  `none` is a failed assertion. -/
def thread2Finish (self : Fin n) : ℕ → Server n DB →
    Option (Server n DB × List (Fin n × Message n))
  | 0, s => if s.thread2 = .idle then some (s, []) else none
  | k + 1, s =>
      if s.thread2 = .idle then some (s, [])
      else
        (thread2Step self s).bind fun (s', out) =>
          (thread2Finish self k s').map fun (s'', sent) => (s'', out.toList ++ sent)

/-- `thread_2` reads a message and handles it.  It takes at most four steps: handle, reply,
write the log file and enqueue. -/
def thread2Process (self : Fin n) (s : Server n DB) (m : Message n) :
    Option (Server n DB × List (Fin n × Message n)) :=
  (thread2Receive s m).bind (thread2Finish self 4)

/-- `raft_state` after the check of a term that is not outdated. -/
def raiseTerm (raft : RaftVars) (term : ℕ) : RaftVars :=
  if term > raft.currentTerm then { raft with currentTerm := term, state := .follower } else raft

section RaiseTerm

variable (raft : RaftVars) (term : ℕ)

@[simp] lemma raiseTerm_lastAppliedTerm :
    (raiseTerm raft term).lastAppliedTerm = raft.lastAppliedTerm := by
  rw [raiseTerm]
  split <;> rfl

@[simp] lemma raiseTerm_lastAppliedIndex :
    (raiseTerm raft term).lastAppliedIndex = raft.lastAppliedIndex := by
  rw [raiseTerm]
  split <;> rfl

lemma raiseTerm_currentTerm {raft : RaftVars} {term : ℕ} (h : raft.currentTerm ≤ term) :
    (raiseTerm raft term).currentTerm = term := by
  rw [raiseTerm]
  split
  · rfl
  · show raft.currentTerm = term
    omega

lemma thread2Term_eq {raft : RaftVars} {term : ℕ} (h : raft.currentTerm ≤ term) :
    thread2Term raft term = some (raiseTerm raft term) := by
  rw [thread2Term, raiseTerm]
  split
  · rfl
  · rw [if_neg (by omega)]

end RaiseTerm

/-! ### The messages that are not outdated -/

/-- The messages of a sequence whose term is not below the current one, `t` at the start; each
of them raises the current term to its own. -/
def notOutdated {M : Type} (term : M → ℕ) : ℕ → List M → List M
  | _, [] => []
  | t, m :: ms => if term m < t then notOutdated term t ms else m :: notOutdated term (term m) ms

section NotOutdated

variable {M : Type} {term : M → ℕ} {t : ℕ} {ms : List M} {m : M}

lemma notOutdated_of_lt (h : term m < t) : notOutdated term t (m :: ms) = notOutdated term t ms := by
  rw [notOutdated, if_pos h]

lemma notOutdated_of_le (h : t ≤ term m) :
    notOutdated term t (m :: ms) = m :: notOutdated term (term m) ms := by
  rw [notOutdated, if_neg (not_lt.2 h)]

lemma le_of_mem_notOutdated (h : m ∈ notOutdated term t ms) : t ≤ term m := by
  induction ms generalizing t with
  | nil => cases h
  | cons m' ms ih =>
      rw [notOutdated] at h
      split at h
      · exact ih h
      · rename_i hterm
        rcases List.mem_cons.1 h with rfl | hrest
        · exact not_lt.1 hterm
        · exact (not_lt.1 hterm).trans (ih hrest)

end NotOutdated

/-- Whether a message is a reply to a vote request. -/
def Message.isVoteReply (m : Message n) : Bool :=
  match m.body with
  | .respRequestVote _ => true
  | _ => false

lemma isVoteReply_iff {m : Message n} :
    m.isVoteReply = true ↔ ∃ voteGranted, m.body = .respRequestVote voteGranted := by
  rw [Message.isVoteReply]
  split
  · rename_i voteGranted hbody
    exact iff_of_true rfl ⟨voteGranted, hbody⟩
  · rename_i hbody
    exact iff_of_false Bool.false_ne_true fun ⟨voteGranted, h⟩ => hbody voteGranted h

/-! ### One message -/

section Process

variable {self : Fin n} {s : Server n DB} {m : Message n} (hidle : s.thread2 = .idle)

include hidle

lemma thread2Process_outdated (hterm : m.term < s.raft.currentTerm) :
    thread2Process self s m = some (s, []) := by
  have hnone : thread2Term s.raft m.term = none := by
    rw [thread2Term, if_neg (by omega), if_pos hterm]
  rw [thread2Process, thread2Receive, hidle]
  simp only [hnone, Option.bind_some]
  rw [thread2Finish, if_pos hidle]

variable (hterm : s.raft.currentTerm ≤ m.term)

include hterm

lemma thread2Receive_eq :
    thread2Receive s m =
      some { s with raft := raiseTerm s.raft m.term, thread2 := .handling m } := by
  rw [thread2Receive, hidle]
  simp only [thread2Term_eq hterm]

/-- An AppendEntries is answered; if it is accepted, its batch goes to the log file and on to
`thread_5`. -/
lemma thread2Process_appendEntries {prevLogTerm prevLogIndex leaderCommit : ℕ}
    {entries : CmdBuffer n}
    (hbody : m.body = .appendEntries prevLogTerm prevLogIndex leaderCommit entries) :
    let accepted := if thread2Accepts s.raft prevLogTerm prevLogIndex then [entries] else []
    thread2Process self s m = some
      ({ s with
          raft := raiseTerm s.raft m.term
          logFile := s.logFile ++ accepted
          queue35 := s.queue35 ++ accepted },
        [(m.senderNodeId, thread2AppendEntries self (raiseTerm s.raft m.term) prevLogTerm
          prevLogIndex entries)]) := by
  have haccepts : thread2Accepts (raiseTerm s.raft m.term) prevLogTerm prevLogIndex =
      thread2Accepts s.raft prevLogTerm prevLogIndex := by
    rw [thread2Accepts, thread2Accepts, raiseTerm_lastAppliedTerm, raiseTerm_lastAppliedIndex]
  rw [thread2Process, thread2Receive_eq hidle hterm]
  cases s
  obtain rfl := hidle
  cases hacc : thread2Accepts _ prevLogTerm prevLogIndex with
  | true => simp [thread2Finish, thread2Step, thread2Handle, hbody, haccepts, hacc]
  | false => simp [thread2Finish, thread2Step, thread2Handle, hbody, haccepts, hacc]

lemma thread2Process_requestVote {lastLogTerm lastLogIndex : ℕ}
    (hbody : m.body = .requestVote lastLogTerm lastLogIndex) :
    thread2Process self s m = some
      ({ s with raft := raiseTerm s.raft m.term },
        [(m.senderNodeId, thread2RequestVote self (raiseTerm s.raft m.term) lastLogTerm
          lastLogIndex)]) := by
  rw [thread2Process, thread2Receive_eq hidle hterm]
  cases s
  obtain rfl := hidle
  simp [thread2Finish, thread2Step, thread2Handle, hbody]

/-- An OK goes on to `thread_3`. -/
lemma thread2Process_ok {term logIdx : ℕ} {answers : CmdBuffer n}
    (hbody : m.body = .respAppendEntries true term logIdx answers) :
    thread2Process self s m = some
      ({ s with
          raft := raiseTerm s.raft m.term
          queue23 := s.queue23 ++ [⟨m.senderNodeId, term, logIdx, answers⟩] },
        []) := by
  rw [thread2Process, thread2Receive_eq hidle hterm]
  cases s
  obtain rfl := hidle
  simp [thread2Finish, thread2Step, thread2Handle, hbody]

end Process

end Oceanliner
