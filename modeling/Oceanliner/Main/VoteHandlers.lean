/-
# The two vote handlers

`main.c` answers vote requests in `thread_2`, `raft_core.c` in `raft_handle_request_vote`.  Both
refuse outdated requests and candidates whose log is behind; but only the second one looks at
`voted_for`, so `thread_2` votes for every candidate of a term that is up to date.
`vote_handlers_agree_iff` says for which sequences of requests this makes no difference.
-/
import Oceanliner.Main.Inbox
import Oceanliner.RaftCore.Rpc

namespace Oceanliner

variable {DB : Type}

/-- A vote request of a node whose id is not 0, with the clock and the buffer for the reply that
`raft_handle_request_vote` finds when the request comes. -/
structure VoteRequest where
  term : ℕ
  senderNodeId : Fin maxNodes
  lastLogTerm : ℕ
  lastLogIndex : ℕ
  clk : Clock
  resp : RaftMsg RaftRequestVoteResp
  sender_ne : senderNodeId ≠ 0

namespace VoteRequest

/-- The request as `thread_2` reads it. -/
def message (req : VoteRequest) : Message maxNodes where
  term := req.term
  senderNodeId := req.senderNodeId
  body := .requestVote req.lastLogTerm req.lastLogIndex

/-- The request as `raft_handle_request_vote` gets it. -/
def raftMsg (req : VoteRequest) : RaftMsg RaftRequestVoteReq where
  bodyLength := 16
  term := req.term
  senderNodeId := req.senderNodeId
  rpcType := .requestVote
  data := ⟨req.lastLogIndex, req.lastLogTerm⟩

/-- The candidate's log is not behind one that ends with the given term and index. -/
def UpToDate (lastTerm lastIndex : ℕ) (req : VoteRequest) : Prop :=
  req.lastLogTerm > lastTerm ∨ (req.lastLogTerm = lastTerm ∧ req.lastLogIndex ≥ lastIndex)

instance (lastTerm lastIndex : ℕ) : DecidablePred (UpToDate lastTerm lastIndex) :=
  fun _ => inferInstanceAs (Decidable (_ ∨ _))

end VoteRequest

/-- A message grants a vote. -/
def Message.grantsVote {n : ℕ} (m : Message n) : Bool := decide (m.body = .respRequestVote true)

/-- Which of a sequence of requests `thread_2` grants; a request that it drops gets no reply. -/
def thread2Votes (self : Fin maxNodes) (s : Server maxNodes DB) :
    List VoteRequest → Option (List Bool)
  | [] => some []
  | req :: reqs =>
      (thread2Process self s req.message).bind fun (s', sent) =>
        (thread2Votes self s' reqs).map fun votes => sent.any (·.2.grantsVote) :: votes

/-- Which of them `raft_handle_request_vote` grants. -/
def raftVotes (node : RaftNode) : List VoteRequest → List Bool
  | [] => []
  | req :: reqs =>
      let r := raftHandleRequestVote req.clk node req.raftMsg req.resp
      r.2.data.voteGranted :: raftVotes r.1 reqs

/-- A node of `raft_core.c` and `raft_state` of `main.c`, with its field `voted_for`, which
`thread_2` neither reads nor writes.  The index of the last entry of a log is its length. -/
structure SameVoter (node : RaftNode) (raft : RaftVars) (votedFor : ℕ) : Prop where
  currentTerm : node.currentTerm = raft.currentTerm
  state : node.state = raft.state
  votedFor : node.votedFor = votedFor
  lastIndex : node.log.count = raft.lastAppliedIndex
  lastTerm : node.log.lastTerm = raft.lastAppliedTerm

/-- The requests that can be granted at all: not outdated, and from an up-to-date candidate. -/
def eligible (raft : RaftVars) (t : ℕ) (reqs : List VoteRequest) : List VoteRequest :=
  (notOutdated VoteRequest.term t reqs).filter
    (VoteRequest.UpToDate raft.lastAppliedTerm raft.lastAppliedIndex)

/-- In each term only one candidate asks for a vote that it can get; in the current term it is
the one the node has voted for, if it has voted. -/
structure OneCandidate (raft : RaftVars) (votedFor t : ℕ) (reqs : List VoteRequest) : Prop where
  current : ∀ req ∈ eligible raft t reqs, req.term = t →
    votedFor = 0 ∨ votedFor = req.senderNodeId
  unique : (eligible raft t reqs).Pairwise fun req req' =>
    req.term = req'.term → req.senderNodeId = req'.senderNodeId

/-! ### One request -/

lemma logOk_iff {node : RaftNode} {raft : RaftVars} (hindex : node.log.count = raft.lastAppliedIndex)
    (hterm : node.log.lastTerm = raft.lastAppliedTerm) (req : VoteRequest) :
    logOk node req.raftMsg.data = true ↔
      req.UpToDate raft.lastAppliedTerm raft.lastAppliedIndex := by
  rw [logOk, hindex, hterm, VoteRequest.UpToDate]
  show (if req.lastLogTerm > _ then true else if req.lastLogTerm = _ ∧ req.lastLogIndex ≥ _ then
    true else false) = true ↔ _
  split
  · rename_i hgt
    exact iff_of_true rfl (Or.inl hgt)
  · rename_i hle
    split
    · rename_i hsame
      exact iff_of_true rfl (Or.inr hsame)
    · rename_i hother
      exact iff_of_false Bool.false_ne_true fun h => h.elim hle hother

/-- The reply of `thread_2` grants the vote exactly when the candidate is up to date. -/
lemma thread2RequestVote_grants (self : Fin maxNodes) (raft : RaftVars) (req : VoteRequest) :
    (thread2RequestVote self raft req.lastLogTerm req.lastLogIndex).grantsVote = true ↔
      req.UpToDate raft.lastAppliedTerm raft.lastAppliedIndex := by
  rw [Message.grantsVote, thread2RequestVote, VoteRequest.UpToDate, decide_eq_true_eq,
    MessageBody.respRequestVote.injEq]
  split
  · rename_i hlt
    exact iff_of_false Bool.false_ne_true (by omega)
  · split
    · rename_i hsame
      rw [decide_eq_true_eq]
      omega
    · exact iff_of_true rfl (by omega)

/-- The vote a node still holds when it has moved to the term of a request. -/
def heldVote (t votedFor : ℕ) (req : VoteRequest) : ℕ := if req.term > t then 0 else votedFor

/-- What `raft_handle_request_vote` does with a request that is not outdated: it grants the vote
if the candidate is up to date and the node holds no vote for another one. -/
structure HandlesCurrent (node : RaftNode) (req : VoteRequest) (granted : Bool)
    (node' : RaftNode) : Prop where
  granted_iff : granted = true ↔
    (heldVote node.currentTerm node.votedFor req = 0 ∨
      heldVote node.currentTerm node.votedFor req = req.senderNodeId) ∧
        logOk node req.raftMsg.data = true
  currentTerm : node'.currentTerm = req.term
  state : node'.state = if req.term > node.currentTerm then .follower else node.state
  votedFor : node'.votedFor =
    if granted = true then req.senderNodeId.val else heldVote node.currentTerm node.votedFor req
  log : node'.log = node.log

lemma raftHandleRequestVote_current {node : RaftNode} {req : VoteRequest}
    (h : node.currentTerm ≤ req.term) :
    HandlesCurrent node req
      (raftHandleRequestVote req.clk node req.raftMsg req.resp).2.data.voteGranted
      (raftHandleRequestVote req.clk node req.raftMsg req.resp).1 := by
  have hsender : u32 req.senderNodeId = req.senderNodeId := by
    have hmax : maxNodes < 2 ^ 32 := by decide
    exact u32_of_lt (req.senderNodeId.2.trans hmax)
  unfold raftHandleRequestVote
  simp only
  rw [if_neg (show ¬ req.raftMsg.term < node.currentTerm from not_lt.2 h)]
  by_cases hgt : req.raftMsg.term > node.currentTerm
  · have hheld : heldVote node.currentTerm node.votedFor req = 0 := if_pos hgt
    simp only [hgt, if_true]
    split
    · rename_i hok
      exact ⟨iff_of_true rfl ⟨Or.inl hheld, hok.2⟩, rfl, (if_pos hgt).symm, hsender, rfl⟩
    · rename_i hok
      exact ⟨iff_of_false Bool.false_ne_true fun hand => hok ⟨Or.inl trivial, hand.2⟩, rfl,
        (if_pos hgt).symm, hheld.symm, rfl⟩
  · have hheld : heldVote node.currentTerm node.votedFor req = node.votedFor := if_neg hgt
    have hsame : node.currentTerm = req.term := le_antisymm h (not_lt.1 hgt)
    simp only [hgt, if_false]
    split
    · rename_i hok
      exact ⟨iff_of_true rfl (hheld.symm ▸ hok), hsame, (if_neg hgt).symm, hsender, rfl⟩
    · rename_i hok
      exact ⟨iff_of_false Bool.false_ne_true (hheld.symm ▸ hok), hsame, (if_neg hgt).symm,
        hheld.symm, rfl⟩

/-! ### The condition, request by request -/

section OneCandidate

variable {raft : RaftVars} {votedFor t : ℕ} {req : VoteRequest} {reqs : List VoteRequest}

lemma eligible_outdated (h : req.term < t) : eligible raft t (req :: reqs) = eligible raft t reqs := by
  rw [eligible, notOutdated_of_lt h, eligible]

lemma eligible_current (h : t ≤ req.term) :
    eligible raft t (req :: reqs) =
      if req.UpToDate raft.lastAppliedTerm raft.lastAppliedIndex then
        req :: eligible raft req.term reqs
      else eligible raft req.term reqs := by
  rw [eligible, notOutdated_of_le h, List.filter_cons, eligible]
  simp only [decide_eq_true_eq]

lemma le_of_mem_eligible {req' : VoteRequest} (h : req' ∈ eligible raft t reqs) : t ≤ req'.term :=
  le_of_mem_notOutdated (List.mem_of_mem_filter h)

lemma oneCandidate_outdated (h : req.term < t) :
    OneCandidate raft votedFor t (req :: reqs) ↔ OneCandidate raft votedFor t reqs := by
  have heq : eligible raft t (req :: reqs) = eligible raft t reqs := eligible_outdated h
  exact ⟨fun hc => ⟨heq ▸ hc.current, heq ▸ hc.unique⟩,
    fun hc => ⟨heq.symm ▸ hc.current, heq.symm ▸ hc.unique⟩⟩

lemma oneCandidate_raiseTerm (term : ℕ) :
    OneCandidate (raiseTerm raft term) votedFor t reqs ↔ OneCandidate raft votedFor t reqs := by
  have heq : eligible (raiseTerm raft term) t reqs = eligible raft t reqs := by
    rw [eligible, eligible, raiseTerm_lastAppliedTerm, raiseTerm_lastAppliedIndex]
  exact ⟨fun hc => ⟨heq ▸ hc.current, heq ▸ hc.unique⟩,
    fun hc => ⟨heq.symm ▸ hc.current, heq.symm ▸ hc.unique⟩⟩

/-- A request that nobody grants changes the condition only in that it ends the old term. -/
lemma oneCandidate_behind (h : t ≤ req.term)
    (hbehind : ¬ req.UpToDate raft.lastAppliedTerm raft.lastAppliedIndex) :
    OneCandidate raft votedFor t (req :: reqs) ↔
      OneCandidate raft (heldVote t votedFor req) req.term reqs := by
  have heq : eligible raft t (req :: reqs) = eligible raft req.term reqs := by
    rw [eligible_current h, if_neg hbehind]
  constructor
  · rintro ⟨hcurrent, hunique⟩
    rw [heq] at hcurrent hunique
    refine ⟨fun req' hreq' hterm => ?_, hunique⟩
    rw [heldVote]
    split
    · exact Or.inl rfl
    · exact hcurrent req' hreq' (by omega)
  · rintro ⟨hcurrent, hunique⟩
    rw [← heq] at hcurrent hunique
    refine ⟨fun req' hreq' hterm => ?_, hunique⟩
    have hle : req.term ≤ req'.term := le_of_mem_eligible (heq ▸ hreq')
    have hheld : heldVote t votedFor req = votedFor := if_neg (by omega)
    rw [← hheld]
    exact hcurrent req' hreq' (by omega)

/-- A request that `thread_2` grants must find no vote for another candidate, and binds the
requests behind it. -/
lemma oneCandidate_upToDate (h : t ≤ req.term)
    (hup : req.UpToDate raft.lastAppliedTerm raft.lastAppliedIndex) :
    OneCandidate raft votedFor t (req :: reqs) ↔
      (heldVote t votedFor req = 0 ∨ heldVote t votedFor req = req.senderNodeId) ∧
        OneCandidate raft req.senderNodeId req.term reqs := by
  have heq : eligible raft t (req :: reqs) = req :: eligible raft req.term reqs := by
    rw [eligible_current h, if_pos hup]
  have hsender : req.senderNodeId.val ≠ 0 := fun h0 => req.sender_ne (Fin.ext h0)
  constructor
  · rintro ⟨hcurrent, hunique⟩
    rw [heq] at hcurrent hunique
    obtain ⟨hfirst, hrest⟩ := List.pairwise_cons.1 hunique
    refine ⟨?_, fun req' hreq' hterm => Or.inr ?_, hrest⟩
    · rw [heldVote]
      split
      · exact Or.inl rfl
      · exact hcurrent req List.mem_cons_self (by omega)
    · exact congrArg Fin.val (hfirst req' hreq' hterm.symm)
  · rintro ⟨hheld, hcurrent, hunique⟩
    have hfirst : ∀ req' ∈ eligible raft req.term reqs, req.term = req'.term →
        req.senderNodeId = req'.senderNodeId := fun req' hreq' hterm =>
      Fin.ext ((hcurrent req' hreq' hterm.symm).resolve_left hsender)
    constructor
    · rw [heq]
      intro req' hreq' hterm
      -- a request of the term `t` finds the old vote
      have hsame : req.term = t ∧ (req' = req ∨ req' ∈ eligible raft req.term reqs) := by
        rcases List.mem_cons.1 hreq' with rfl | hmem
        · exact ⟨hterm, Or.inl rfl⟩
        · have hle : req.term ≤ req'.term := le_of_mem_eligible hmem
          exact ⟨by omega, Or.inr hmem⟩
      rw [heldVote, if_neg (by omega)] at hheld
      rcases hsame.2 with rfl | hmem
      · exact hheld
      · rwa [← hfirst req' hmem (by omega)]
    · rw [heq]
      exact List.pairwise_cons.2 ⟨hfirst, hunique⟩

end OneCandidate

/-! ### Sequences of requests -/

lemma HandlesCurrent.sameVoter {node node' : RaftNode} {raft : RaftVars} {req : VoteRequest}
    {granted : Bool} {votedFor : ℕ} (h : HandlesCurrent node req granted node')
    (hsame : SameVoter node raft votedFor) (hterm : raft.currentTerm ≤ req.term) :
    SameVoter node' (raiseTerm raft req.term) node'.votedFor where
  currentTerm := by rw [h.currentTerm, raiseTerm_currentTerm hterm]
  state := by
    rw [h.state, raiseTerm, hsame.currentTerm, hsame.state]
    split <;> rfl
  votedFor := rfl
  lastIndex := by rw [h.log, hsame.lastIndex, raiseTerm_lastAppliedIndex]
  lastTerm := by rw [h.log, hsame.lastTerm, raiseTerm_lastAppliedTerm]

section Votes

variable {self : Fin maxNodes} {s : Server maxNodes DB} {req : VoteRequest}
  {reqs : List VoteRequest} (hidle : s.thread2 = .idle)

include hidle

lemma thread2Votes_outdated (h : req.term < s.raft.currentTerm) :
    thread2Votes self s (req :: reqs) = (thread2Votes self s reqs).map (false :: ·) := by
  rw [thread2Votes, thread2Process_outdated hidle h]
  rfl

lemma thread2Votes_current (h : s.raft.currentTerm ≤ req.term) :
    thread2Votes self s (req :: reqs) =
      (thread2Votes self { s with raft := raiseTerm s.raft req.term } reqs).map
        (decide (req.UpToDate s.raft.lastAppliedTerm s.raft.lastAppliedIndex) :: ·) := by
  have hgrants : (thread2RequestVote self (raiseTerm s.raft req.term) req.lastLogTerm
      req.lastLogIndex).grantsVote =
        decide (req.UpToDate s.raft.lastAppliedTerm s.raft.lastAppliedIndex) := by
    have hiff := thread2RequestVote_grants self (raiseTerm s.raft req.term) req
    rw [raiseTerm_lastAppliedTerm, raiseTerm_lastAppliedIndex] at hiff
    rw [Bool.eq_iff_iff, hiff, decide_eq_true_eq]
  rw [thread2Votes, thread2Process_requestVote hidle h rfl, Option.bind_some]
  simp only [List.any_cons, List.any_nil, Bool.or_false]
  show Option.map _ (thread2Votes self { s with raft := raiseTerm s.raft req.term } reqs) = _
  rw [← hgrants]
  rfl

end Votes

lemma raftVotes_outdated {node : RaftNode} {req : VoteRequest} {reqs : List VoteRequest}
    (h : req.term < node.currentTerm) :
    raftVotes node (req :: reqs) = false :: raftVotes node reqs := by
  have hstale : raftHandleRequestVote req.clk node req.raftMsg req.resp =
      (node, { req.resp with
        rpcType := .respRequestVote
        term := node.currentTerm
        data := { voteGranted := false } }) := by
    unfold raftHandleRequestVote
    simp only
    rw [if_pos (show req.raftMsg.term < node.currentTerm from h)]
  rw [raftVotes, hstale]

/-- **When the two vote handlers agree.** -/
theorem vote_handlers_agree_iff {self : Fin maxNodes} {node : RaftNode} {s : Server maxNodes DB}
    {votedFor : ℕ} (hsame : SameVoter node s.raft votedFor) (hidle : s.thread2 = .idle)
    (reqs : List VoteRequest) :
    ∃ votes, thread2Votes self s reqs = some votes ∧
      (votes = raftVotes node reqs ↔
        OneCandidate s.raft votedFor s.raft.currentTerm reqs) := by
  induction reqs generalizing node s votedFor with
  | nil => exact ⟨[], rfl, iff_of_true rfl ⟨by rintro req ⟨⟩, .nil⟩⟩
  | cons req reqs ih =>
      by_cases hterm : req.term < s.raft.currentTerm
      · -- both drop the request
        obtain ⟨votes, hvotes, hiff⟩ := ih hsame hidle
        refine ⟨false :: votes, ?_, ?_⟩
        · rw [thread2Votes_outdated hidle hterm, hvotes]
          rfl
        · rw [raftVotes_outdated (by rwa [hsame.currentTerm]), oneCandidate_outdated hterm, ← hiff]
          exact List.cons_inj_right false
      · rw [not_lt] at hterm
        have hcore := raftHandleRequestVote_current
          (show node.currentTerm ≤ req.term by rwa [hsame.currentTerm])
        rw [raftVotes]
        generalize raftHandleRequestVote req.clk node req.raftMsg req.resp = r at hcore ⊢
        obtain ⟨votes, hvotes, hiff⟩ := ih
          (s := { s with raft := raiseTerm s.raft req.term }) (hcore.sameVoter hsame hterm) hidle
        have hgranted := hcore.granted_iff
        have hvoted := hcore.votedFor
        rw [logOk_iff hsame.lastIndex hsame.lastTerm, hsame.currentTerm, hsame.votedFor]
          at hgranted
        rw [hsame.currentTerm, hsame.votedFor] at hvoted
        refine ⟨_ :: votes, by rw [thread2Votes_current hidle hterm, hvotes]; rfl, ?_⟩
        rw [oneCandidate_raiseTerm, raiseTerm_currentTerm hterm, hvoted] at hiff
        by_cases hup : req.UpToDate s.raft.lastAppliedTerm s.raft.lastAppliedIndex
        · rw [oneCandidate_upToDate hterm hup]
          by_cases hheld : heldVote s.raft.currentTerm votedFor req = 0 ∨
              heldVote s.raft.currentTerm votedFor req = req.senderNodeId
          · have htrue : r.2.data.voteGranted = true := hgranted.2 ⟨hheld, hup⟩
            rw [htrue, if_pos rfl] at hiff
            rw [htrue, decide_eq_true hup, List.cons_inj_right, hiff, and_iff_right hheld]
          · -- only `thread_2` grants the vote
            have hfalse : r.2.data.voteGranted = false :=
              Bool.eq_false_iff.2 fun h => hheld (hgranted.1 h).1
            rw [hfalse, decide_eq_true hup]
            exact iff_of_false (by simp) (fun h => hheld h.1)
        · have hfalse : r.2.data.voteGranted = false :=
            Bool.eq_false_iff.2 fun h => hup (hgranted.1 h).2
          rw [hfalse, if_neg Bool.false_ne_true] at hiff
          rw [oneCandidate_behind hterm hup, hfalse, decide_eq_false hup, List.cons_inj_right, hiff]

/-! ### Two candidates -/

/-- The request of a candidate with an empty log in term 1. -/
def firstRequest (senderNodeId : Fin maxNodes) (h : senderNodeId ≠ 0) : VoteRequest where
  term := 1
  senderNodeId := senderNodeId
  lastLogTerm := 0
  lastLogIndex := 0
  clk := ⟨0, 0⟩
  resp := ⟨0, 0, 0, .respRequestVote, ⟨false⟩⟩
  sender_ne := h

/-- A node that has just started. -/
def newVars : RaftVars where
  state := .follower
  currentTerm := 0
  votesReceived := 0
  lastAppliedTerm := 0
  lastAppliedIndex := 0

lemma sameVoter_new : SameVoter (raftInit 3 ⟨0, 0⟩) newVars 0 := ⟨rfl, rfl, rfl, rfl, rfl⟩

/-- Node 1 asks in term 1 and again, then node 2 in term 2, and late the request of another
candidate of term 1 comes in. -/
def oneCandidateATerm : List VoteRequest :=
  [firstRequest ⟨1, by decide⟩ (by decide), firstRequest ⟨1, by decide⟩ (by decide),
    { firstRequest ⟨2, by decide⟩ (by decide) with term := 2 },
    firstRequest ⟨4, by decide⟩ (by decide)]

lemma oneCandidate_oneCandidateATerm : OneCandidate newVars 0 0 oneCandidateATerm where
  current := fun _ _ _ => .inl rfl
  unique := by decide

/-- Both grant the first three and refuse the last one. -/
theorem vote_handlers_agree_first :
    thread2Votes 3 (Server.start newVars ()) oneCandidateATerm = some [true, true, true, false] ∧
      raftVotes (raftInit 3 ⟨0, 0⟩) oneCandidateATerm = [true, true, true, false] := by
  obtain ⟨votes, hvotes, hiff⟩ :=
    vote_handlers_agree_iff (s := Server.start newVars ()) sameVoter_new rfl oneCandidateATerm
  have hgranted : thread2Votes 3 (Server.start newVars ()) oneCandidateATerm =
      some [true, true, true, false] := rfl
  obtain rfl := Option.some.inj (hvotes.symm.trans hgranted)
  exact ⟨hgranted, (hiff.2 oneCandidate_oneCandidateATerm).symm⟩

/-- Of two candidates of one term `thread_2` votes for both. -/
theorem vote_handlers_disagree :
    SameVoter (raftInit 3 ⟨0, 0⟩) newVars 0 ∧
      thread2Votes 3 (Server.start newVars ())
        [firstRequest 1 (by decide), firstRequest 2 (by decide)] = some [true, true] ∧
      raftVotes (raftInit 3 ⟨0, 0⟩)
        [firstRequest 1 (by decide), firstRequest 2 (by decide)] = [true, false] :=
  ⟨sameVoter_new, rfl, rfl⟩

end Oceanliner
