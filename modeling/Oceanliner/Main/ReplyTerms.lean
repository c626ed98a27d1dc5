/-
# The term in a reply

Both handlers of `raft_core.c` fill in the term of the reply before they raise the term of the
node.  A node that has just learnt of a later term answers with its old one
(`reply_terms_iff`), and the candidate that asked drops such a vote as outdated
(`granted_vote_counted_iff`).
-/
import Oceanliner.Main.Threads
import Oceanliner.RaftCore.OneVote

namespace Oceanliner

/-! ### The handlers -/

section Handlers

variable (clk : Clock) (node : RaftNode)

/-- The node after a vote request is in the later one of the two terms. -/
lemma raftHandleRequestVote_currentTerm (req : RaftMsg RaftRequestVoteReq)
    (resp : RaftMsg RaftRequestVoteResp) :
    (raftHandleRequestVote clk node req resp).1.currentTerm = max node.currentTerm req.term := by
  cases hr : raftHandleRequestVote clk node req resp with
  | mk node' resp' =>
      have hout := raftHandleRequestVote_outcome hr
      generalize resp'.data.voteGranted = granted at hout
      cases hout with
      | refuse hle => exact (max_eq_left hle).symm
      | refuseLater hlt => exact (max_eq_right hlt.le).symm
      | grant heq hfree hlog => exact (max_eq_left heq.le).symm
      | grantLater hlt hlog => exact (max_eq_right hlt.le).symm

variable {clk node}

lemma raftHandleAppendEntries_currentTerm {node' : RaftNode} {req : RaftMsg RaftAppendEntriesReq}
    {resp resp' : RaftMsg RaftAppendEntriesResp}
    (h : raftHandleAppendEntries clk node req resp = some (node', resp')) :
    node'.currentTerm = max node.currentTerm req.term := by
  cases raftHandleAppendEntries_outcome h with
  | stale hlt => exact (max_eq_left hlt.le).symm
  | same heq => exact (max_eq_left heq.le).symm
  | later hlt => exact (max_eq_right hlt.le).symm

/-- The reply to an AppendEntries carries the term the node had before the request. -/
lemma raftHandleAppendEntries_respTerm {node' : RaftNode} {req : RaftMsg RaftAppendEntriesReq}
    {resp resp' : RaftMsg RaftAppendEntriesResp}
    (h : raftHandleAppendEntries clk node req resp = some (node', resp')) :
    resp'.term = node.currentTerm := by
  rw [raftHandleAppendEntries_resp h]

end Handlers

/-- A reply carries the term in which the node is now. -/
def CarriesTerm {β : Type} (r : RaftNode × RaftMsg β) : Prop := r.2.term = r.1.currentTerm

instance {β : Type} (r : RaftNode × RaftMsg β) : Decidable (CarriesTerm r) :=
  inferInstanceAs (Decidable (_ = _))

lemma carriesTerm_requestVote_iff (clk : Clock) (node : RaftNode)
    (req : RaftMsg RaftRequestVoteReq) (resp : RaftMsg RaftRequestVoteResp) :
    CarriesTerm (raftHandleRequestVote clk node req resp) ↔ req.term ≤ node.currentTerm := by
  rw [CarriesTerm, raftHandleRequestVote_respTerm, raftHandleRequestVote_currentTerm,
    left_eq_sup]

lemma carriesTerm_appendEntries_iff {clk : Clock} {node : RaftNode}
    {req : RaftMsg RaftAppendEntriesReq} {resp : RaftMsg RaftAppendEntriesResp}
    {r : RaftNode × RaftMsg RaftAppendEntriesResp}
    (h : raftHandleAppendEntries clk node req resp = some r) :
    CarriesTerm r ↔ req.term ≤ node.currentTerm := by
  rw [CarriesTerm, raftHandleAppendEntries_respTerm h, raftHandleAppendEntries_currentTerm h,
    left_eq_sup]

/-! ### The candidate -/

section Candidate

variable {n : ℕ} {DB : Type}

/-- The reply of a vote request on its way to the candidate. -/
def voteRespMessage (sender : Fin n) (resp : RaftMsg RaftRequestVoteResp) : Message n where
  term := resp.term
  senderNodeId := sender
  body := .respRequestVote resp.data.voteGranted

/-- `thread_2` reads a reply to a vote request, does not drop it, and adds the vote to those
received. -/
def CountsVote (self : Fin n) (s : Server n DB) (m : Message n) : Prop :=
  ∃ s₁ s₂, thread2Receive s m = some s₁ ∧ s₁.thread2 = .handling m ∧
    thread2Handle self s₁ m = some s₂ ∧
    s₂.raft = { s.raft with votesReceived := u32 (s.raft.votesReceived + 1) }

variable {self sender : Fin n} {s : Server n DB} {resp : RaftMsg RaftRequestVoteResp}

/-- A granted vote of the candidate's own term is counted. -/
lemma countsVote_of_term_eq (hidle : s.thread2 = .idle) (hstate : s.raft.state = .candidate)
    (hgranted : resp.data.voteGranted = true) (hterm : resp.term = s.raft.currentTerm) :
    CountsVote self s (voteRespMessage sender resp) := by
  have hcheck : thread2Term s.raft resp.term = some s.raft := by
    rw [thread2Term, hterm, if_neg (lt_irrefl _), if_neg (lt_irrefl _)]
  have hcount : thread2CountVote s.raft resp.term resp.data.voteGranted =
      { s.raft with votesReceived := u32 (s.raft.votesReceived + 1) } := by
    rw [thread2CountVote, if_pos ⟨hterm.symm, hgranted⟩]
  refine ⟨{ s with thread2 := .handling (voteRespMessage sender resp) },
    { s with
      raft := { s.raft with votesReceived := u32 (s.raft.votesReceived + 1) }
      thread2 :=
        if u32 (s.raft.votesReceived + 1) > n / 2 then .becomingLeader else .idle },
    ?_, rfl, ?_, rfl⟩
  · simp only [thread2Receive, hidle, voteRespMessage, hcheck]
  · simp only [thread2Handle, voteRespMessage, hstate, ne_eq, not_true, if_false, hcount]

/-- An outdated message is dropped. -/
lemma not_countsVote_of_term_lt (hidle : s.thread2 = .idle)
    (hterm : resp.term < s.raft.currentTerm) :
    ¬ CountsVote self s (voteRespMessage sender resp) := by
  rintro ⟨s₁, s₂, hreceive, hhandling, -, -⟩
  have hcheck : thread2Term s.raft resp.term = none := by
    rw [thread2Term, if_neg (not_lt.2 hterm.le), if_pos hterm]
  simp only [thread2Receive, hidle, voteRespMessage, hcheck] at hreceive
  obtain rfl := Option.some.inj hreceive
  rw [hidle] at hhandling
  cases hhandling

end Candidate

/-- Where the vote that `resp` may grant reaches a candidate that is still in the term `term` of
its request, it is counted. -/
def GrantCounts (term : ℕ) (resp : RaftMsg RaftRequestVoteResp) : Prop :=
  resp.data.voteGranted = true → ∀ {n : ℕ} {DB : Type} (self sender : Fin n) (s : Server n DB),
    s.thread2 = .idle → s.raft.state = .candidate → s.raft.currentTerm = term →
      CountsVote self s (voteRespMessage sender resp)

/-- **What becomes of a granted vote.**  The candidate counts it exactly when its request was not
of a later term than that of the node that granted it. -/
theorem granted_vote_counted_iff {n : ℕ} {DB : Type} {clk : Clock} {node : RaftNode}
    {req : RaftMsg RaftRequestVoteReq} {resp : RaftMsg RaftRequestVoteResp}
    (hgranted : (raftHandleRequestVote clk node req resp).2.data.voteGranted = true)
    {self sender : Fin n} {s : Server n DB} (hidle : s.thread2 = .idle)
    (hstate : s.raft.state = .candidate) (hterm : s.raft.currentTerm = req.term) :
    CountsVote self s (voteRespMessage sender (raftHandleRequestVote clk node req resp).2) ↔
      req.term ≤ node.currentTerm := by
  have hresp := raftHandleRequestVote_respTerm clk node req resp
  constructor
  · intro hcounts
    by_contra hlt
    exact not_countsVote_of_term_lt hidle (by omega) hcounts
  · intro hle
    refine countsVote_of_term_eq hidle hstate hgranted ?_
    -- the node does not grant a vote of an earlier term than its own
    cases hr : raftHandleRequestVote clk node req resp with
    | mk node' resp' =>
        rw [hr] at hgranted hresp
        have hout := raftHandleRequestVote_outcome hr
        rw [hgranted] at hout
        cases hout with
        | grant heq hfree hlog => omega
        | grantLater hlt hlog => omega

/-- **The term in a reply** is the node's own exactly when the request is not of a later term than
the node was in, for both handlers; and then a granted vote is counted. -/
theorem reply_terms_iff (clk : Clock) (node : RaftNode) :
    (∀ req resp,
      CarriesTerm (raftHandleRequestVote clk node req resp) ∧
          GrantCounts req.term (raftHandleRequestVote clk node req resp).2 ↔
        req.term ≤ node.currentTerm) ∧
      ∀ req resp r, raftHandleAppendEntries clk node req resp = some r →
        (CarriesTerm r ↔ req.term ≤ node.currentTerm) := by
  refine ⟨fun req resp => ?_, fun req resp r h => carriesTerm_appendEntries_iff h⟩
  rw [carriesTerm_requestVote_iff]
  refine ⟨And.left, fun hle => ⟨hle, ?_⟩⟩
  intro hgranted n DB self sender s hidle hstate hterm
  exact (granted_vote_counted_iff hgranted hidle hstate hterm).2 hle

/-- Node `1` in term `1` is asked for its vote in that term. -/
theorem reply_terms_same_term :
    CarriesTerm (raftHandleRequestVote ⟨0, 0⟩ { raftInit 1 ⟨0, 0⟩ with currentTerm := 1 }
        (requestVoteMsg 1 2 0 0) voteRespBuffer) ∧
      GrantCounts 1 (raftHandleRequestVote ⟨0, 0⟩ { raftInit 1 ⟨0, 0⟩ with currentTerm := 1 }
        (requestVoteMsg 1 2 0 0) voteRespBuffer).2 :=
  ((reply_terms_iff ⟨0, 0⟩ { raftInit 1 ⟨0, 0⟩ with currentTerm := 1 }).1
    (requestVoteMsg 1 2 0 0) voteRespBuffer).2 le_rfl

/-- Node `1` in term `0` grants its vote for term `1`: its reply carries the term `0`, and the
candidate drops it. -/
theorem reply_terms_later_term :
    (raftHandleRequestVote ⟨0, 0⟩ (raftInit 1 ⟨0, 0⟩) (requestVoteMsg 1 2 0 0)
        voteRespBuffer).2.data.voteGranted = true ∧
      ¬ CarriesTerm (raftHandleRequestVote ⟨0, 0⟩ (raftInit 1 ⟨0, 0⟩) (requestVoteMsg 1 2 0 0)
        voteRespBuffer) ∧
      ¬ GrantCounts 1 (raftHandleRequestVote ⟨0, 0⟩ (raftInit 1 ⟨0, 0⟩) (requestVoteMsg 1 2 0 0)
        voteRespBuffer).2 := by
  refine ⟨by decide, by decide, fun h => ?_⟩
  -- the candidate, node `2` of three, in term `1` and with its own vote
  have hcounts := h (by decide) (2 : Fin 3) 1 (Server.start ⟨.candidate, 1, 1, 0, 0⟩ ()) rfl rfl rfl
  exact not_countsVote_of_term_lt rfl (by decide) hcounts

end Oceanliner
