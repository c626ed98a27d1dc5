/-
# Replies to vote requests in `thread_2`

A reply to a vote request that is not outdated is handled under the assertion that the node is a
candidate.  The check of the term in front of it makes a node a follower when the reply has a later
term, and a node that has won is leader when the replies of the other nodes come, so either kind of
reply stops the program.  A vote that a node grants twice is counted twice.  So the replies that
come after a candidacy are handled as they should be exactly when they fit (`vote_replies_iff`).
-/
import Oceanliner.Lib.Transition
import Oceanliner.Main.Cluster
import Oceanliner.Main.Inbox

open Transition

namespace Oceanliner

variable {n : ℕ} {DB : Type}

/-- A node between two messages, with the nodes that have granted it their votes in its term while
it was a candidate. -/
structure Voting (n : ℕ) (DB : Type) where
  server : Server n DB
  granted : Finset (Fin n)

/-- The node becomes a candidate, which votes for itself. -/
def Voting.candidacy (self : Fin n) (server : Server n DB) : Voting n DB where
  server := { server with raft := becomeCandidate server.raft }
  granted := {self}

/-- The voters after a message.  With a later term the votes are void, and a vote that is granted
counts when it finds a candidate of its term. -/
def grantedAfter (s : Voting n DB) (m : Message n) : Finset (Fin n) :=
  if s.server.raft.currentTerm < m.term then ∅
  else if m.body = .respRequestVote true ∧ m.term = s.server.raft.currentTerm ∧
      s.server.raft.state = .candidate then
    insert m.senderNodeId s.granted
  else s.granted

/-- `thread_2` processes a message. -/
def votingStep (self : Fin n) (s : Voting n DB) (m : Message n) : Option (Voting n DB) :=
  (thread2Process self s.server m).map fun r => ⟨r.1, grantedAfter s m⟩

/-- The node is leader exactly when more than half of the nodes have granted it their votes. -/
def Voting.LeaderByMajority (s : Voting n DB) : Prop :=
  s.server.raft.state = .leader ↔ n / 2 < s.granted.card

/-! ### The replies -/

/-- The replies to vote requests among the messages, without those that are outdated for a node
whose term is `term` at the start. -/
def timelyReplies (term : ℕ) (ms : List (Message n)) : List (Message n) :=
  (notOutdated Message.term term ms).filter Message.isVoteReply

/-- The senders of the replies that grant a vote. -/
def granters (ms : List (Message n)) : List (Fin n) :=
  (ms.filter fun m => m.body = .respRequestVote true).map Message.senderNodeId

/-- The replies that are not outdated, to a candidate of the term that the nodes `earlier` have
granted their votes already: all of them are of the term, there is no majority before the last one,
and where there is one then, no node has granted its vote twice. -/
structure RepliesFit (i : Fin n) (term : ℕ) (earlier : List (Fin n))
    (replies : List (Message n)) : Prop where
  inTerm : ∀ m ∈ replies, m.term = term
  noMajority : 1 + (earlier ++ granters replies.dropLast).length ≤ n / 2
  distinct : n / 2 < 1 + (earlier ++ granters replies).length →
    (i :: (earlier ++ granters replies)).Nodup

/-! ### One message -/

section Process

variable (self : Fin n) {s : Server n DB} {m : Message n} (hidle : s.thread2 = .idle)
  (hterm : s.raft.currentTerm ≤ m.term)

include hidle hterm

/-- A message that is no reply to a vote request changes at most the term and the role. -/
lemma thread2Process_other (hbody : ∀ voteGranted, m.body ≠ .respRequestVote voteGranted) :
    ∃ s' sent, thread2Process self s m = some (s', sent) ∧ s'.thread2 = .idle ∧
      s'.raft = raiseTerm s.raft m.term := by
  cases hm : m.body with
  | appendEntries prevLogTerm prevLogIndex leaderCommit entries =>
      exact ⟨_, _, thread2Process_appendEntries hidle hterm hm, hidle, rfl⟩
  | requestVote lastLogTerm lastLogIndex =>
      exact ⟨_, _, thread2Process_requestVote hidle hterm hm, hidle, rfl⟩
  | respAppendEntries success term logIdx answers =>
      cases success with
      | true => exact ⟨_, _, thread2Process_ok hidle hterm hm, hidle, rfl⟩
      | false =>
          refine ⟨{ s with raft := raiseTerm s.raft m.term }, [], ?_, hidle, rfl⟩
          rw [thread2Process, thread2Receive_eq hidle hterm]
          cases s
          obtain rfl := hidle
          simp [thread2Finish, thread2Step, thread2Handle, hm]
  | respRequestVote voteGranted => exact absurd hm (hbody voteGranted)

/-- A reply to a vote request that finds no candidate stops the program. -/
lemma thread2Process_reply_none {voteGranted : Bool} (hbody : m.body = .respRequestVote voteGranted)
    (hstate : (raiseTerm s.raft m.term).state ≠ .candidate) : thread2Process self s m = none := by
  rw [thread2Process, thread2Receive_eq hidle hterm]
  cases s
  obtain rfl := hidle
  simp [thread2Finish, thread2Step, thread2Handle, hbody, hstate]

/-- Another one is counted, and with a majority the node becomes leader. -/
lemma thread2Process_reply {voteGranted : Bool} (hbody : m.body = .respRequestVote voteGranted)
    (hstate : (raiseTerm s.raft m.term).state = .candidate) :
    let raft := thread2CountVote (raiseTerm s.raft m.term) m.term voteGranted
    thread2Process self s m = some
      ({ s with raft := if raft.votesReceived > n / 2 then { raft with state := .leader } else raft },
        []) := by
  intro raft
  have hhandle : ∀ t : Server n DB, t.raft = raiseTerm s.raft m.term →
      thread2Handle self t m = some { t with
        raft := raft
        thread2 := if raft.votesReceived > n / 2 then .becomingLeader else .idle } := by
    intro t ht
    rw [thread2Handle, hbody]
    simp only [ht, hstate, ne_eq, not_true, if_false]
    rfl
  rw [thread2Process, thread2Receive_eq hidle hterm, Option.bind_some]
  cases s
  obtain rfl := hidle
  by_cases hmaj : raft.votesReceived > n / 2
  · simp [thread2Finish, thread2Step, hhandle, hmaj]
  · simp [thread2Finish, thread2Step, hhandle, hmaj]

end Process

/-! ### Handling as it should be -/

/-- No assertion fails on the messages, and after each of them the node is leader exactly by a
majority. -/
def HandlesAll (self : Fin n) (s : Voting n DB) (ms : List (Message n)) : Prop :=
  (run (votingStep self) s ms).isSome ∧
    EveryStep (votingStep self) (fun _ s => s.LeaderByMajority) s ms

section Handles

variable {self : Fin n} {s s' : Voting n DB} {m : Message n} {ms : List (Message n)}

lemma handlesAll_nil : HandlesAll self s [] := ⟨rfl, trivial⟩

lemma handlesAll_cons (h : votingStep self s m = some s') :
    HandlesAll self s (m :: ms) ↔ s'.LeaderByMajority ∧ HandlesAll self s' ms := by
  rw [HandlesAll, HandlesAll, everyStep_cons h, run, h, Option.bind_some]
  tauto

lemma not_handlesAll_cons (h : votingStep self s m = none) : ¬ HandlesAll self s (m :: ms) := by
  rintro ⟨hsome, -⟩
  rw [run, h] at hsome
  cases hsome

/-! ### Which replies count -/

lemma timelyReplies_of_lt {term : ℕ} (h : m.term < term) :
    timelyReplies term (m :: ms) = timelyReplies term ms := by
  rw [timelyReplies, notOutdated_of_lt h, timelyReplies]

lemma timelyReplies_other {term : ℕ} (h : term ≤ m.term) (hm : m.isVoteReply = false) :
    timelyReplies term (m :: ms) = timelyReplies m.term ms := by
  rw [timelyReplies, notOutdated_of_le h, List.filter_cons_of_neg (by simp [hm]), timelyReplies]

lemma timelyReplies_reply {term : ℕ} (h : term ≤ m.term) (hm : m.isVoteReply = true) :
    timelyReplies term (m :: ms) = m :: timelyReplies m.term ms := by
  rw [timelyReplies, notOutdated_of_le h, List.filter_cons_of_pos hm, timelyReplies]

lemma le_of_mem_timelyReplies {term : ℕ} (h : m ∈ timelyReplies term ms) : term ≤ m.term :=
  le_of_mem_notOutdated (List.mem_filter.1 h).1

end Handles

namespace RepliesFit

variable {self : Fin n} {term : ℕ} {earlier : List (Fin n)} {m : Message n}
  {replies : List (Message n)}

lemma nil (hfew : 1 + earlier.length ≤ n / 2) : RepliesFit self term earlier [] where
  inTerm := by rintro m ⟨⟩
  noMajority := by simpa [granters] using hfew
  distinct := by
    intro hmany
    simp only [granters, List.filter_nil, List.map_nil, List.append_nil] at hmany
    omega

/-- Replies of later terms do not fit. -/
lemma iff_nil_of_lt (hfew : 1 + earlier.length ≤ n / 2) (hlater : ∀ m ∈ replies, term < m.term) :
    RepliesFit self term earlier replies ↔ replies = [] := by
  constructor
  · intro h
    refine List.eq_nil_iff_forall_not_mem.2 fun m hm => ?_
    have heq := h.inTerm m hm
    have hlt := hlater m hm
    omega
  · rintro rfl
    exact nil hfew

lemma granters_granted (hbody : m.body = .respRequestVote true) :
    granters (m :: replies) = m.senderNodeId :: granters replies := by
  simp [granters, hbody]

lemma granters_refused (hbody : m.body = .respRequestVote false) :
    granters (m :: replies) = granters replies := by
  simp [granters, hbody]

lemma cons_refused_iff (hterm : m.term = term) (hbody : m.body = .respRequestVote false) :
    RepliesFit self term earlier (m :: replies) ↔ RepliesFit self term earlier replies := by
  have hlast : 1 + (earlier ++ granters (m :: replies).dropLast).length ≤ n / 2 ↔
      1 + (earlier ++ granters replies.dropLast).length ≤ n / 2 := by
    cases replies with
    | nil => rfl
    | cons m' rest => rw [List.dropLast_cons_cons, granters_refused hbody]
  constructor
  · rintro ⟨hin, hno, hdistinct⟩
    rw [granters_refused hbody] at hdistinct
    exact ⟨fun m' hm' => hin m' (List.mem_cons_of_mem _ hm'), hlast.1 hno, hdistinct⟩
  · rintro ⟨hin, hno, hdistinct⟩
    rw [← granters_refused hbody] at hdistinct
    exact ⟨List.forall_mem_cons.2 ⟨hterm, hin⟩, hlast.2 hno, hdistinct⟩

/-- A grant that does not make the majority. -/
lemma cons_granted_iff (hterm : m.term = term) (hbody : m.body = .respRequestVote true)
    (hfew : 1 + (earlier ++ [m.senderNodeId]).length ≤ n / 2) :
    RepliesFit self term earlier (m :: replies) ↔
      RepliesFit self term (earlier ++ [m.senderNodeId]) replies := by
  have hall : earlier ++ granters (m :: replies) =
      earlier ++ [m.senderNodeId] ++ granters replies := by
    rw [granters_granted hbody, List.append_assoc, List.singleton_append]
  have hlast : 1 + (earlier ++ granters (m :: replies).dropLast).length ≤ n / 2 ↔
      1 + (earlier ++ [m.senderNodeId] ++ granters replies.dropLast).length ≤ n / 2 := by
    cases replies with
    | nil =>
        refine iff_of_true ?_ (by simpa [granters] using hfew)
        rw [List.length_append] at hfew
        simp [granters]
        omega
    | cons m' rest =>
        rw [List.dropLast_cons_cons, granters_granted hbody, List.append_assoc, List.singleton_append]
  constructor
  · rintro ⟨hin, hno, hdistinct⟩
    rw [hall] at hdistinct
    exact ⟨fun m' hm' => hin m' (List.mem_cons_of_mem _ hm'), hlast.1 hno, hdistinct⟩
  · rintro ⟨hin, hno, hdistinct⟩
    rw [← hall] at hdistinct
    exact ⟨List.forall_mem_cons.2 ⟨hterm, hin⟩, hlast.2 hno, hdistinct⟩

/-- The grant that makes the majority has to be the last reply, and of a new voter. -/
lemma cons_decides_iff (hterm : m.term = term) (hbody : m.body = .respRequestVote true)
    (hfew : 1 + earlier.length ≤ n / 2)
    (hmany : n / 2 < 1 + (earlier ++ [m.senderNodeId]).length) :
    RepliesFit self term earlier (m :: replies) ↔
      (self :: (earlier ++ [m.senderNodeId])).Nodup ∧ replies = [] := by
  constructor
  · rintro ⟨-, hno, hdistinct⟩
    cases replies with
    | nil =>
        rw [granters_granted hbody] at hdistinct
        exact ⟨hdistinct hmany, rfl⟩
    | cons m' rest =>
        rw [List.dropLast_cons_cons, granters_granted hbody] at hno
        simp only [List.length_append, List.length_cons, List.length_nil] at hno hmany
        omega
  · rintro ⟨hnodup, rfl⟩
    refine ⟨by simpa using hterm, by simpa [granters] using hfew, fun _ => ?_⟩
    rw [granters_granted hbody]
    exact hnodup

end RepliesFit

/-! ### Steps -/

section Step

variable {self : Fin n} {s : Voting n DB} {m : Message n} (hidle : s.server.thread2 = .idle)

include hidle

lemma votingStep_outdated (h : m.term < s.server.raft.currentTerm) :
    votingStep self s m = some s := by
  rw [votingStep, thread2Process_outdated hidle h, grantedAfter, if_neg (by omega),
    if_neg (by omega)]
  rfl

variable (hterm : s.server.raft.currentTerm ≤ m.term)

include hterm

variable (self) in
/-- A message that is no reply leaves the votes as they are, or makes them void. -/
lemma votingStep_other (hm : m.isVoteReply = false) :
    ∃ server, votingStep self s m =
        some ⟨server, if s.server.raft.currentTerm < m.term then ∅ else s.granted⟩ ∧
      server.thread2 = .idle ∧ server.raft = raiseTerm s.server.raft m.term := by
  have hbody : ∀ voteGranted, m.body ≠ .respRequestVote voteGranted := by
    intro voteGranted h
    rw [isVoteReply_iff.2 ⟨voteGranted, h⟩] at hm
    cases hm
  obtain ⟨server, sent, hprocess, hidle', hraft⟩ := thread2Process_other self hidle hterm hbody
  refine ⟨server, ?_, hidle', hraft⟩
  rw [votingStep, hprocess, grantedAfter, if_neg fun h : _ ∧ _ => hbody true h.1]
  rfl

/-- A reply that finds no candidate of its term stops the program. -/
lemma votingStep_reply_none (hm : m.isVoteReply = true)
    (h : s.server.raft.state ≠ .candidate ∨ s.server.raft.currentTerm < m.term) :
    votingStep self s m = none := by
  obtain ⟨voteGranted, hbody⟩ := isVoteReply_iff.1 hm
  have hstate : (raiseTerm s.server.raft m.term).state ≠ .candidate := by
    rw [raiseTerm]
    split
    · rintro ⟨⟩
    · rename_i hle
      exact h.resolve_right hle
  rw [votingStep, thread2Process_reply_none self hidle hterm hbody hstate]
  rfl

end Step

/-- A reply that finds a candidate of its term is counted, and with a majority the node becomes
leader. -/
lemma votingStep_reply (self : Fin n) {s : Voting n DB} {m : Message n} {voteGranted : Bool}
    (hidle : s.server.thread2 = .idle) (hterm : m.term = s.server.raft.currentTerm)
    (hstate : s.server.raft.state = .candidate) (hbody : m.body = .respRequestVote voteGranted) :
    let raft := thread2CountVote s.server.raft m.term voteGranted
    votingStep self s m = some
      ⟨{ s.server with
          raft := if raft.votesReceived > n / 2 then { raft with state := .leader } else raft },
        if voteGranted then insert m.senderNodeId s.granted else s.granted⟩ := by
  intro raft
  have hraise : raiseTerm s.server.raft m.term = s.server.raft := by
    rw [raiseTerm, if_neg (by omega)]
  have hprocess := thread2Process_reply self hidle hterm.ge hbody (by rw [hraise]; exact hstate)
  simp only [hraise] at hprocess
  have hgranted : grantedAfter s m =
      if voteGranted then insert m.senderNodeId s.granted else s.granted := by
    rw [grantedAfter, if_neg (by omega)]
    cases voteGranted with
    | true => rw [if_pos ⟨hbody, hterm, hstate⟩, if_pos rfl]
    | false => rw [if_neg (by simp [hbody]), if_neg (by simp)]
  rw [votingStep, hprocess, Option.map_some, hgranted]

/-- Once a node is no candidate any more, every reply that is not outdated stops the program. -/
lemma handlesAll_of_decided (self : Fin n) {s : Voting n DB} (ms : List (Message n))
    (hidle : s.server.thread2 = .idle) (hstate : s.server.raft.state ≠ .candidate)
    (hleader : s.LeaderByMajority) :
    HandlesAll self s ms ↔ timelyReplies s.server.raft.currentTerm ms = [] := by
  induction ms generalizing s with
  | nil => exact iff_of_true handlesAll_nil rfl
  | cons m ms ih =>
      rcases lt_or_ge m.term s.server.raft.currentTerm with hold | hterm
      · rw [handlesAll_cons (votingStep_outdated hidle hold), timelyReplies_of_lt hold,
          ih hidle hstate hleader]
        exact and_iff_right hleader
      · cases hm : m.isVoteReply with
        | true =>
            refine iff_of_false (not_handlesAll_cons ?_) ?_
            · exact votingStep_reply_none hidle hterm hm (.inl hstate)
            · rw [timelyReplies_reply hterm hm]
              exact List.cons_ne_nil _ _
        | false =>
            obtain ⟨server, hstep, hidle', hraft⟩ := votingStep_other self hidle hterm hm
            have hcurrent : server.raft.currentTerm = m.term := by
              rw [hraft, raiseTerm_currentTerm hterm]
            have hnext : server.raft.state ≠ .candidate ∧ Voting.LeaderByMajority
                ⟨server, if s.server.raft.currentTerm < m.term then ∅ else s.granted⟩ := by
              rw [Voting.LeaderByMajority, hraft, raiseTerm]
              split
              · exact ⟨by rintro ⟨⟩, iff_of_false (by rintro ⟨⟩) (by simp)⟩
              · exact ⟨hstate, hleader⟩
            rw [handlesAll_cons hstep, ih hidle' hnext.1 hnext.2, timelyReplies_other hterm hm]
            show _ ∧ timelyReplies server.raft.currentTerm ms = [] ↔ _
            rw [hcurrent]
            exact and_iff_right hnext.2

/-- A candidate that has counted the votes of the nodes `earlier`, and has no majority. -/
structure Voting.Counts (s : Voting n DB) (i : Fin n) (term : ℕ) (earlier : List (Fin n)) :
    Prop where
  idle : s.server.thread2 = .idle
  state : s.server.raft.state = .candidate
  term_eq : s.server.raft.currentTerm = term
  votes : s.server.raft.votesReceived = 1 + earlier.length
  few : 1 + earlier.length ≤ n / 2
  granted : s.granted = (i :: earlier).toFinset

lemma Voting.Counts.leaderByMajority {s : Voting n DB} {i : Fin n} {term : ℕ}
    {earlier : List (Fin n)} (hs : s.Counts i term earlier) : s.LeaderByMajority := by
  refine iff_of_false (by rw [hs.state]; rintro ⟨⟩) ?_
  have hcard := List.toFinset_card_le (i :: earlier)
  have hfew := hs.few
  rw [hs.granted]
  rw [List.length_cons] at hcard
  omega

/-- A candidate that has got the votes of `voters`, the last of them just now. -/
def Voting.afterGrant (s : Voting n DB) (i : Fin n) (voters : List (Fin n)) : Voting n DB where
  server :=
    { s.server with
      raft :=
        { s.server.raft with
          votesReceived := 1 + voters.length
          state := if 1 + voters.length > n / 2 then .leader else .candidate } }
  granted := (i :: voters).toFinset

section Counts

variable {self : Fin n} {s : Voting n DB} {m : Message n} {term : ℕ} {earlier : List (Fin n)}
  (hs : s.Counts self term earlier) (hterm : m.term = term)

include hs hterm

/-- A refusal changes nothing. -/
lemma Voting.Counts.refused (hbody : m.body = .respRequestVote false) :
    votingStep self s m = some s := by
  have hstep := votingStep_reply self hs.idle (hterm.trans hs.term_eq.symm) hs.state hbody
  have hcount : thread2CountVote s.server.raft m.term false = s.server.raft := by
    rw [thread2CountVote, if_neg (by simp)]
  have hfew := hs.few
  have hvotes := hs.votes
  simp only [hcount] at hstep
  rw [hstep, if_neg (by omega)]
  rfl

/-- A grant adds a vote, and maybe a voter. -/
lemma Voting.Counts.granted_step (hn : n ≤ maxNodes) (hbody : m.body = .respRequestVote true) :
    votingStep self s m = some (s.afterGrant self (earlier ++ [m.senderNodeId])) := by
  have hstep := votingStep_reply self hs.idle (hterm.trans hs.term_eq.symm) hs.state hbody
  have hfew := hs.few
  have hvotes : u32 (s.server.raft.votesReceived + 1) =
      1 + (earlier ++ [m.senderNodeId]).length := by
    rw [maxNodes] at hn
    rw [hs.votes, u32_of_lt (by omega), List.length_append, List.length_singleton, Nat.add_assoc]
  have hcount : thread2CountVote s.server.raft m.term true =
      { s.server.raft with votesReceived := 1 + (earlier ++ [m.senderNodeId]).length } := by
    rw [thread2CountVote, if_pos ⟨hs.term_eq.trans hterm.symm, rfl⟩, hvotes]
  have hvoters : insert m.senderNodeId s.granted =
      (self :: (earlier ++ [m.senderNodeId])).toFinset := by
    rw [hs.granted]
    ext i
    simp only [Finset.mem_insert, List.mem_toFinset, List.mem_cons, List.mem_append,
      List.not_mem_nil, or_false]
    tauto
  simp only [hcount, hvoters, if_true] at hstep
  rw [hstep, Voting.afterGrant]
  split
  · rfl
  · rw [← hs.state]

omit hterm

/-- Without a majority the counting goes on. -/
lemma Voting.Counts.afterGrant {voters : List (Fin n)} (hfew : 1 + voters.length ≤ n / 2) :
    (s.afterGrant self voters).Counts self term voters where
  idle := hs.idle
  state := if_neg (by omega)
  term_eq := hs.term_eq
  votes := rfl
  few := hfew
  granted := rfl

/-- With the vote that makes the majority, the node is leader as it should be when all voters are
different. -/
lemma Voting.Counts.leaderByMajority_iff (i : Fin n)
    (hmany : n / 2 < 1 + (earlier ++ [i]).length) :
    (s.afterGrant self (earlier ++ [i])).LeaderByMajority ↔ (self :: (earlier ++ [i])).Nodup := by
  have hfew := hs.few
  have hlength : (self :: (earlier ++ [i])).length = n / 2 + 1 := by
    simp only [List.length_cons, List.length_append, List.length_nil] at hmany ⊢
    omega
  have hleader : (s.afterGrant self (earlier ++ [i])).server.raft.state = .leader := if_pos hmany
  have hle := List.toFinset_card_le (self :: (earlier ++ [i]))
  rw [Voting.LeaderByMajority, iff_true_left hleader, ← Multiset.coe_nodup,
    ← Multiset.toFinset_card_eq_card_iff_nodup]
  show n / 2 < (self :: (earlier ++ [i])).toFinset.card ↔
    (self :: (earlier ++ [i])).toFinset.card = (self :: (earlier ++ [i])).length
  omega

end Counts

/-- **What a candidate handles.** -/
theorem handlesAll_iff (hn : n ≤ maxNodes) {self : Fin n} {term : ℕ} {earlier : List (Fin n)}
    {s : Voting n DB} (ms : List (Message n)) (hs : s.Counts self term earlier) :
    HandlesAll self s ms ↔ RepliesFit self term earlier (timelyReplies term ms) := by
  induction ms generalizing s earlier with
  | nil => exact iff_of_true handlesAll_nil (.nil hs.few)
  | cons m ms ih =>
      have hidle := hs.idle
      obtain rfl := hs.term_eq
      rcases lt_or_ge m.term s.server.raft.currentTerm with hold | hterm
      · rw [handlesAll_cons (votingStep_outdated hidle hold), timelyReplies_of_lt hold, ih hs]
        exact and_iff_right hs.leaderByMajority
      rcases hterm.lt_or_eq with hlater | heq
      · -- the node becomes a follower
        cases hm : m.isVoteReply with
        | true =>
            refine iff_of_false (not_handlesAll_cons ?_) fun hfit => ?_
            · exact votingStep_reply_none hidle hterm hm (.inr hlater)
            · have hin := hfit.inTerm m (by rw [timelyReplies_reply hterm hm]; simp)
              omega
        | false =>
            obtain ⟨server, hstep, hidle', hraft⟩ := votingStep_other self hidle hterm hm
            rw [raiseTerm, if_pos hlater] at hraft
            rw [if_pos hlater] at hstep
            have hleader : Voting.LeaderByMajority ⟨server, ∅⟩ := by
              rw [Voting.LeaderByMajority, hraft]
              exact iff_of_false (by rintro ⟨⟩) (by simp)
            have hdecided := handlesAll_of_decided self (s := ⟨server, ∅⟩) ms hidle'
              (by rw [hraft]; rintro ⟨⟩) hleader
            have hcurrent : server.raft.currentTerm = m.term := by rw [hraft]
            rw [handlesAll_cons hstep, hdecided, timelyReplies_other hterm hm]
            show _ ∧ timelyReplies server.raft.currentTerm ms = [] ↔ _
            rw [hcurrent, RepliesFit.iff_nil_of_lt hs.few fun m' hm' =>
              hlater.trans_le (le_of_mem_timelyReplies hm')]
            exact and_iff_right hleader
      cases hm : m.isVoteReply with
      | false =>
          obtain ⟨server, hstep, hidle', hraft⟩ := votingStep_other self hidle hterm hm
          rw [raiseTerm, if_neg (by omega)] at hraft
          rw [if_neg (by omega)] at hstep
          have hnext : Voting.Counts ⟨server, s.granted⟩ self s.server.raft.currentTerm earlier := by
            refine ⟨hidle', ?_, ?_, ?_, hs.few, hs.granted⟩
            · rw [hraft]
              exact hs.state
            · rw [hraft]
            · rw [hraft]
              exact hs.votes
          rw [handlesAll_cons hstep, ih hnext, timelyReplies_other hterm hm, ← heq]
          exact and_iff_right hnext.leaderByMajority
      | true =>
          obtain ⟨voteGranted, hbody⟩ := isVoteReply_iff.1 hm
          rw [timelyReplies_reply hterm hm, ← heq]
          cases voteGranted with
          | false =>
              rw [handlesAll_cons (hs.refused heq.symm hbody), ih hs,
                RepliesFit.cons_refused_iff heq.symm hbody]
              exact and_iff_right hs.leaderByMajority
          | true =>
              rw [handlesAll_cons (hs.granted_step heq.symm hn hbody)]
              rcases le_or_gt (1 + (earlier ++ [m.senderNodeId]).length) (n / 2) with hfew | hmany
              · have hnext := hs.afterGrant hfew
                rw [ih hnext, RepliesFit.cons_granted_iff heq.symm hbody hfew]
                exact and_iff_right hnext.leaderByMajority
              · rw [RepliesFit.cons_decides_iff heq.symm hbody hs.few hmany]
                have hleads := hs.leaderByMajority_iff m.senderNodeId hmany
                have hstate : (s.afterGrant self (earlier ++ [m.senderNodeId])).server.raft.state =
                    .leader := if_pos hmany
                rw [← hleads]
                exact and_congr_right fun hleader =>
                  handlesAll_of_decided self ms hidle (by rw [hstate]; rintro ⟨⟩) hleader

/-! ### Runs -/

/-- **Replies to vote requests are handled as they should be**: on the messages that come after a
candidacy no assertion fails, and the node is always leader exactly when more than half of the nodes
have granted it their votes in its term, if and only if there are at least two nodes and the replies
that are not outdated fit. -/
theorem vote_replies_iff (hn : n ≤ maxNodes) (self : Fin n) {server : Server n DB}
    (hidle : server.thread2 = .idle) (ms : List (Message n)) :
    ((run (votingStep self) (.candidacy self server) ms).isSome ∧
        (Voting.candidacy self server).LeaderByMajority ∧
        EveryStep (votingStep self) (fun _ s => s.LeaderByMajority) (.candidacy self server) ms) ↔
      2 ≤ n ∧ RepliesFit self (becomeCandidate server.raft).currentTerm []
        (timelyReplies (becomeCandidate server.raft).currentTerm ms) := by
  rcases le_or_gt 2 n with h2 | hone
  · have hcounts : (Voting.candidacy self server).Counts self
        (becomeCandidate server.raft).currentTerm [] :=
      ⟨hidle, rfl, rfl, rfl, by simpa using (by omega : 1 ≤ n / 2), rfl⟩
    rw [← handlesAll_iff hn ms hcounts, HandlesAll]
    have hleader := hcounts.leaderByMajority
    tauto
  · -- the only node of a cluster has a majority and is candidate
    refine iff_of_false (fun h => ?_) (by omega)
    have hmajority : n / 2 < (Voting.candidacy self server).granted.card := by
      show n / 2 < ({self} : Finset (Fin n)).card
      rw [Finset.card_singleton]
      omega
    exact absurd (h.2.1.2 hmajority) (by simp [Voting.candidacy, becomeCandidate])

/-- A reply to a vote request. -/
def voteReply (sender : Fin n) (term : ℕ) (voteGranted : Bool) : Message n :=
  ⟨term, sender, .respRequestVote voteGranted⟩

/-- A node that has not taken part in anything. -/
def freshServer : Server n Unit := .start ⟨.follower, 0, 0, 0, 0⟩ ()

/-- The nodes `i` and `k` grant their votes, and `j` refuses it.  Before that comes an outdated
grant, and behind it a vote request of a later term. -/
def mixedReplies (i j k l : Fin n) : List (Message n) :=
  [voteReply l 0 true, voteReply i 1 true, voteReply j 1 false, voteReply k 1 true,
    ⟨2, l, .requestVote 0 0⟩]

/-- Two of five nodes grant their votes, and one refuses it. -/
theorem vote_replies_first :
    (run (votingStep 0) (.candidacy 0 (freshServer (n := 5))) (mixedReplies 1 2 3 4)).isSome ∧
      (Voting.candidacy 0 (freshServer (n := 5))).LeaderByMajority ∧
      EveryStep (votingStep 0) (fun _ s => s.LeaderByMajority)
        (.candidacy 0 (freshServer (n := 5))) (mixedReplies 1 2 3 4) := by
  refine (vote_replies_iff (by decide) 0 (show (freshServer (n := 5)).thread2 = .idle from rfl)
    (mixedReplies 1 2 3 4)).2 ⟨by decide, ?_⟩
  have hreplies : timelyReplies (becomeCandidate (freshServer (n := 5)).raft).currentTerm
      (mixedReplies (1 : Fin 5) 2 3 4) =
        [voteReply 1 1 true, voteReply 2 1 false, voteReply 3 1 true] := by decide
  rw [hreplies]
  exact ⟨by decide, by decide, by decide⟩

/-- Of three nodes, the second one makes the first one leader.  When the third one grants its vote
as well, the assertion fails on the new leader, and when it refuses it from a later term, on a
follower.  Of five nodes, one is leader with two voters when one of them sends its grant twice. -/
theorem vote_replies_second :
    run (votingStep 0) (.candidacy 0 (freshServer (n := 3)))
        [voteReply 1 1 true, voteReply 2 1 true] = none ∧
      run (votingStep 0) (.candidacy 0 (freshServer (n := 3))) [voteReply 2 2 false] = none ∧
      ∃ s, run (votingStep 0) (.candidacy 0 (freshServer (n := 5)))
          [voteReply 1 1 true, voteReply 1 1 true] = some s ∧
        s.server.raft.state = .leader ∧ s.granted.card = 2 ∧ ¬ s.LeaderByMajority := by
  refine ⟨rfl, rfl, _, rfl, rfl, rfl, fun h => ?_⟩
  exact absurd (h.1 rfl) (by decide)

end Oceanliner
