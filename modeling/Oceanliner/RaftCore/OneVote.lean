/-
# One vote in each term

A node remembers its vote in `voted_for`, where `0` means that it has none.  This file
follows the votes a node casts: those it grants to others, and the one it gives itself when
it starts an election.  As long as no vote is recorded under the id `0` and the term does not
wrap around, the votes of one term name one candidate (`votes_unique`); a vote for the
node with id `0` is forgotten at once, and the node votes again (`vote_for_zero_forgotten`).
-/
import Oceanliner.RaftCore.Rpc
import Oceanliner.Lib.Transition

open Transition

namespace Oceanliner

/-- The operations of a node that touch its vote. -/
inductive VoteAction where
  | startElection (clk : Clock)
  | becomeCandidate (clk : Clock)
  | requestVote (clk : Clock) (req : RaftMsg RaftRequestVoteReq)
      (resp : RaftMsg RaftRequestVoteResp)
  | appendEntries (clk : Clock) (req : RaftMsg RaftAppendEntriesReq)
      (resp : RaftMsg RaftAppendEntriesResp)
deriving DecidableEq

/-- The sender of the vote request an action processes is below `n`. -/
def VoteAction.SenderBelow (n : ℕ) : VoteAction → Prop
  | startElection _ => True
  | becomeCandidate _ => True
  | requestVote _ req _ => req.senderNodeId < n
  | appendEntries _ _ _ => True

/-- A vote: the term in which it is cast, and the candidate it names. -/
structure Vote where
  term : ℕ
  candidate : ℕ
deriving DecidableEq, Repr

/-- A node together with the votes it has cast so far. -/
structure Voter where
  node : RaftNode
  votes : List Vote

/-- One operation.  A node that becomes a candidate votes for itself; a granted request is a
vote for its sender, in the term the node is in afterwards. -/
def voteStep (s : Voter) : VoteAction → Option Voter
  | .startElection clk =>
      let node := raftStartElection clk s.node
      some ⟨node, s.votes ++ [⟨node.currentTerm, node.nodeId⟩]⟩
  | .becomeCandidate clk =>
      let node := raftBecomeCandidate clk s.node
      some ⟨node, s.votes ++ [⟨node.currentTerm, node.nodeId⟩]⟩
  | .requestVote clk req resp =>
      let r := raftHandleRequestVote clk s.node req resp
      some ⟨r.1, s.votes ++
        if r.2.data.voteGranted then [⟨r.1.currentTerm, req.senderNodeId⟩] else []⟩
  | .appendEntries clk req resp =>
      (raftHandleAppendEntries clk s.node req resp).map fun r => ⟨r.1, s.votes⟩

lemma voteStep_requestVote {s s' : Voter} {clk : Clock} {req : RaftMsg RaftRequestVoteReq}
    {resp : RaftMsg RaftRequestVoteResp} (h : voteStep s (.requestVote clk req resp) = some s') :
    ∃ node' resp', raftHandleRequestVote clk s.node req resp = (node', resp') ∧
      s' = ⟨node', s.votes ++
        if resp'.data.voteGranted then [⟨node'.currentTerm, req.senderNodeId⟩] else []⟩ :=
  ⟨_, _, rfl, (Option.some.inj h).symm⟩

lemma voteStep_appendEntries {s s' : Voter} {clk : Clock} {req : RaftMsg RaftAppendEntriesReq}
    {resp : RaftMsg RaftAppendEntriesResp}
    (h : voteStep s (.appendEntries clk req resp) = some s') :
    ∃ node' resp', raftHandleAppendEntries clk s.node req resp = some (node', resp') ∧
      s' = ⟨node', s.votes⟩ := by
  obtain ⟨⟨node', resp'⟩, hr, rfl⟩ := Option.map_eq_some_iff.1 h
  exact ⟨node', resp', hr, rfl⟩

/-- What is known of the votes of a node: they all name somebody, and those of the current
term name the id in `voted_for`. -/
structure Voter.OneVote (s : Voter) : Prop where
  candidate_ne : ∀ v ∈ s.votes, v.candidate ≠ 0
  term_le : ∀ v ∈ s.votes, v.term ≤ s.node.currentTerm
  current : ∀ v ∈ s.votes, v.term = s.node.currentTerm → s.node.votedFor = v.candidate
  unique : ∀ v ∈ s.votes, ∀ w ∈ s.votes, v.term = w.term → v.candidate = w.candidate

/-- The action records no vote for the id `0`, and does not wrap the term around.  A request
of the node with id `0` is let through only when it is refused: it is stale, or the node has
a vote for somebody else in its term, or the sender's log is behind. -/
def KeepsVote (node : RaftNode) : VoteAction → Prop
  | .startElection _ => node.nodeId ≠ 0 ∧ node.currentTerm < 2 ^ 64 - 1
  | .becomeCandidate _ => node.nodeId ≠ 0 ∧ node.currentTerm < 2 ^ 64 - 1
  | .requestVote _ req _ =>
      req.senderNodeId ≠ 0 ∨ req.term < node.currentTerm ∨
        (req.term = node.currentTerm ∧ node.votedFor ≠ 0) ∨ logOk node req.data = false
  | .appendEntries _ _ _ => True

/-- The node a step leads to and the vote it casts, if it casts one.  Every operation either
casts no vote and forgets none of the current term, or casts one that `voted_for` remembers
and that no earlier vote of its term contradicts. -/
structure VoteTransition (node : RaftNode) (cast : List Vote) (node' : RaftNode) : Prop where
  nodeId_eq : node'.nodeId = node.nodeId
  term_le : node.currentTerm ≤ node'.currentTerm
  keeps : node'.currentTerm = node.currentTerm → node.votedFor ≠ 0 →
    node'.votedFor = node.votedFor
  cast_ne : ∀ v ∈ cast, v.candidate ≠ 0
  cast_current : ∀ v ∈ cast, v.term = node'.currentTerm ∧ node'.votedFor = v.candidate
  cast_single : cast.length ≤ 1

/-- The invariant survives every such transition. -/
lemma Voter.OneVote.transition {s : Voter} (h : s.OneVote) {cast : List Vote} {node' : RaftNode}
    (ht : VoteTransition s.node cast node') : Voter.OneVote ⟨node', s.votes ++ cast⟩ := by
  have hold : ∀ v ∈ s.votes, v.term = node'.currentTerm → node'.votedFor = v.candidate := by
    intro v hv hterm
    have hle := h.term_le v hv
    have hmono := ht.term_le
    have hcur := h.current v hv (by omega)
    rw [ht.keeps (by omega) (by rw [hcur]; exact h.candidate_ne v hv), hcur]
  have hall : ∀ v ∈ s.votes ++ cast, v.term = node'.currentTerm →
      node'.votedFor = v.candidate := by
    intro v hv hterm
    rcases List.mem_append.1 hv with hv | hv
    · exact hold v hv hterm
    · exact (ht.cast_current v hv).2
  refine ⟨?_, ?_, hall, ?_⟩
  · intro v hv
    rcases List.mem_append.1 hv with hv | hv
    · exact h.candidate_ne v hv
    · exact ht.cast_ne v hv
  · intro v hv
    rcases List.mem_append.1 hv with hv | hv
    · exact (h.term_le v hv).trans ht.term_le
    · exact le_of_eq (ht.cast_current v hv).1
  · intro v hv w hw hvw
    -- two old votes are compared by the invariant; a new one is of the current term
    rcases List.mem_append.1 hv with hv' | hv'
    · rcases List.mem_append.1 hw with hw' | hw'
      · exact h.unique v hv' w hw' hvw
      · have hwt := (ht.cast_current w hw').1
        rw [← hall v hv (hvw.trans hwt), hall w hw hwt]
    · have hvt := (ht.cast_current v hv').1
      rw [← hall v hv hvt, hall w hw (hvw.symm.trans hvt)]

/-! ### The operations are such transitions -/

lemma voteTransition_candidate {node node' : RaftNode} (hid : node.nodeId ≠ 0)
    (hterm : node.currentTerm < 2 ^ 64 - 1) (hid' : node'.nodeId = node.nodeId)
    (hterm' : node'.currentTerm = u64 (node.currentTerm + 1))
    (hvote' : node'.votedFor = node.nodeId) :
    VoteTransition node [⟨node'.currentTerm, node'.nodeId⟩] node' := by
  rw [u64_of_lt (by omega)] at hterm'
  refine ⟨hid', by omega, fun h => by omega, ?_, ?_, le_rfl⟩
  · intro v hv
    obtain rfl := List.mem_singleton.1 hv
    simpa [hid'] using hid
  · intro v hv
    obtain rfl := List.mem_singleton.1 hv
    exact ⟨rfl, by rw [hvote', hid']⟩

lemma voteTransition_appendEntries {clk : Clock} {node node' : RaftNode}
    {req : RaftMsg RaftAppendEntriesReq} (h : AppendEntriesOutcome clk node req node') :
    VoteTransition node [] node' := by
  cases h with
  | stale hlt => exact ⟨rfl, le_rfl, fun _ _ => rfl, by simp, by simp, by simp⟩
  | same heq => exact ⟨rfl, le_rfl, fun _ _ => rfl, by simp, by simp, by simp⟩
  | later hgt =>
      exact ⟨rfl, le_of_lt hgt, fun h => absurd h (by simp only; omega), by simp, by simp,
        by simp⟩

lemma voteTransition_requestVote {clk : Clock} {node node' : RaftNode} {granted : Bool}
    {req : RaftMsg RaftRequestVoteReq} {resp : RaftMsg RaftRequestVoteResp}
    (hsender : req.senderNodeId < 2 ^ 32) (hkeeps : KeepsVote node (.requestVote clk req resp))
    (h : RequestVoteOutcome clk node req node' granted) :
    VoteTransition node (if granted then [⟨node'.currentTerm, req.senderNodeId⟩] else [])
      node' := by
  cases h with
  | refuse hle => exact ⟨rfl, le_rfl, fun _ _ => rfl, by simp, by simp, by simp⟩
  | refuseLater hlt =>
      exact ⟨rfl, le_of_lt hlt, fun h => absurd h (by simp only; omega), by simp, by simp,
        by simp⟩
  | grant heq hfree hlog =>
      have hne : req.senderNodeId ≠ 0 := by
        intro h0
        rcases hkeeps with hne | hlt | ⟨-, hvote⟩ | hno
        · exact hne h0
        · omega
        · rcases hfree with hfree | hfree
          · exact hvote hfree
          · exact hvote (hfree.trans h0)
        · rw [hlog] at hno
          cases hno
      refine ⟨rfl, le_rfl, ?_, ?_, ?_, by simp⟩
      · intro _ hvote
        rcases hfree with hfree | hfree
        · exact absurd hfree hvote
        · exact (u32_of_lt hsender).trans hfree.symm
      · intro v hv
        obtain rfl := List.mem_singleton.1 (by simpa using hv)
        exact hne
      · intro v hv
        obtain rfl := List.mem_singleton.1 (by simpa using hv)
        exact ⟨rfl, u32_of_lt hsender⟩
  | grantLater hlt hlog =>
      have hne : req.senderNodeId ≠ 0 := by
        intro h0
        rcases hkeeps with hne | hlt' | ⟨heq, -⟩ | hno
        · exact hne h0
        · omega
        · omega
        · rw [hlog] at hno
          cases hno
      refine ⟨rfl, le_of_lt hlt, fun h => absurd h (by simp only; omega), ?_, ?_, by simp⟩
      · intro v hv
        obtain rfl := List.mem_singleton.1 (by simpa using hv)
        exact hne
      · intro v hv
        obtain rfl := List.mem_singleton.1 (by simpa using hv)
        exact ⟨rfl, u32_of_lt hsender⟩

/-- Every action that keeps the vote is a transition of this kind. -/
lemma voteStep_transition {s s' : Voter} {a : VoteAction} (hG : KeepsVote s.node a)
    (hsender : a.SenderBelow (2 ^ 32)) (h : voteStep s a = some s') :
    ∃ cast, s'.votes = s.votes ++ cast ∧ VoteTransition s.node cast s'.node := by
  cases a with
  | startElection clk =>
      obtain rfl := Option.some.inj h
      exact ⟨_, rfl, voteTransition_candidate hG.1 hG.2 rfl rfl rfl⟩
  | becomeCandidate clk =>
      obtain rfl := Option.some.inj h
      exact ⟨_, rfl, voteTransition_candidate hG.1 hG.2 rfl rfl rfl⟩
  | requestVote clk req resp =>
      obtain ⟨node', resp', hr, rfl⟩ := voteStep_requestVote h
      exact ⟨_, rfl, voteTransition_requestVote hsender hG (raftHandleRequestVote_outcome hr)⟩
  | appendEntries clk req resp =>
      obtain ⟨node', resp', hr, rfl⟩ := voteStep_appendEntries h
      exact ⟨[], (List.append_nil _).symm,
        voteTransition_appendEntries (raftHandleAppendEntries_outcome hr)⟩

lemma Voter.OneVote.step {s s' : Voter} {a : VoteAction} (hinv : s.OneVote)
    (hG : KeepsVote s.node a) (hsender : a.SenderBelow (2 ^ 32))
    (h : voteStep s a = some s') : s'.OneVote := by
  obtain ⟨cast, hcast, ht⟩ := voteStep_transition hG hsender h
  have := hinv.transition ht
  rwa [← hcast] at this

/-- A node that has just been initialised, with no votes. -/
def voterInit (nodeId : ℕ) (clk : Clock) : Voter := ⟨raftInit nodeId clk, []⟩

lemma voterInit_oneVote (nodeId : ℕ) (clk : Clock) : (voterInit nodeId clk).OneVote :=
  ⟨by simp [voterInit], by simp [voterInit], by simp [voterInit], by simp [voterInit]⟩

/-- **One vote per term.**  In every run whose steps record no vote for the id `0` and do not
wrap the term around, the votes a node casts in one term name one candidate. -/
theorem votes_unique (nodeId : ℕ) (clk : Clock) (as : List VoteAction) {s : Voter}
    (hsender : ∀ a ∈ as, a.SenderBelow (2 ^ 32))
    (hG : Guarded voteStep (fun s a => KeepsVote s.node a) (voterInit nodeId clk) as)
    (hrun : run voteStep (voterInit nodeId clk) as = some s) :
    ∀ v ∈ s.votes, ∀ w ∈ s.votes, v.term = w.term → v.candidate = w.candidate := by
  have hinv : s.OneVote := by
    refine Guarded.invariant ?_ (hG.and_forall hsender) (voterInit_oneVote nodeId clk) hrun
    rintro s a s' hs ⟨hkeeps, hbelow⟩ hstep
    exact hs.step hkeeps hbelow hstep
  exact hinv.unique

/-! ### Requests by message -/

/-- A RequestVote message with the given header fields and log position. -/
def requestVoteMsg (term sender lastLogIndex lastLogTerm : ℕ) : RaftMsg RaftRequestVoteReq where
  bodyLength := 16
  term := term
  senderNodeId := sender
  rpcType := .requestVote
  data := { lastLogIndex := lastLogIndex, lastLogTerm := lastLogTerm }

/-- A reply buffer before a handler has written to it. -/
def voteRespBuffer : RaftMsg RaftRequestVoteResp where
  bodyLength := 0
  term := 0
  senderNodeId := 0
  rpcType := .respRequestVote
  data := { voteGranted := false }

/-- Node `1` answers the nodes `2` and `3` in term `1`, and stands itself in term `2`. -/
theorem votes_unique_three_steps :
    ∃ s, run voteStep (voterInit 1 ⟨0, 0⟩)
        [.requestVote ⟨0, 0⟩ (requestVoteMsg 1 2 0 0) voteRespBuffer,
          .requestVote ⟨0, 0⟩ (requestVoteMsg 1 3 0 0) voteRespBuffer,
          .startElection ⟨0, 0⟩] = some s ∧
      ∀ v ∈ s.votes, ∀ w ∈ s.votes, v.term = w.term → v.candidate = w.candidate := by
  refine ⟨_, rfl, votes_unique 1 ⟨0, 0⟩
    [.requestVote ⟨0, 0⟩ (requestVoteMsg 1 2 0 0) voteRespBuffer,
      .requestVote ⟨0, 0⟩ (requestVoteMsg 1 3 0 0) voteRespBuffer,
      .startElection ⟨0, 0⟩] ?_ ?_ rfl⟩
  · intro a ha
    simp only [List.mem_cons, List.not_mem_nil, or_false] at ha
    rcases ha with rfl | rfl | rfl
    · exact Nat.lt_of_lt_of_le (by decide : (2 : ℕ) < 4) (by norm_num)
    · exact Nat.lt_of_lt_of_le (by decide : (3 : ℕ) < 4) (by norm_num)
    · trivial
  · refine ⟨Or.inl (by decide), ?_⟩
    intro s₁ h₁
    obtain rfl := Option.some.inj h₁
    refine ⟨Or.inl (by decide), ?_⟩
    intro s₂ h₂
    obtain rfl := Option.some.inj h₂
    exact ⟨⟨by decide, by decide⟩, fun _ _ => trivial⟩

/-! ### The id zero -/

/-- A vote granted to the node with id `0` leaves no trace: any later request of the same term
whose log is up to date is granted as well, whoever sends it. -/
lemma vote_for_zero_forgotten {clk clk' : Clock} {node node' : RaftNode}
    {req₀ req : RaftMsg RaftRequestVoteReq} {resp₀ resp₀' resp : RaftMsg RaftRequestVoteResp}
    (h : raftHandleRequestVote clk node req₀ resp₀ = (node', resp₀'))
    (hgranted : resp₀'.data.voteGranted = true) (hzero : req₀.senderNodeId = 0)
    (hterm : req.term = node'.currentTerm) (hlog : logOk node' req.data = true) :
    (raftHandleRequestVote clk' node' req resp).2.data.voteGranted = true := by
  have hvote : node'.votedFor = 0 := by
    have hout := raftHandleRequestVote_outcome h
    rw [hgranted] at hout
    cases hout with
    | grant heq hfree hok => simp [hzero, u32]
    | grantLater hlt hok => simp [hzero, u32]
  have hlt : ¬ req.term < node'.currentTerm := by omega
  have hgt : ¬ req.term > node'.currentTerm := by omega
  simp [raftHandleRequestVote, hlt, hgt, hvote, hlog]

/-- Node `1` grants its vote of term `1` to the node `0`, and then to the node `2`. -/
theorem votes_not_unique_for_zero :
    ∃ s, run voteStep (voterInit 1 ⟨0, 0⟩)
        [.requestVote ⟨0, 0⟩ (requestVoteMsg 1 0 0 0) voteRespBuffer,
          .requestVote ⟨0, 0⟩ (requestVoteMsg 1 2 0 0) voteRespBuffer] = some s ∧
      ¬ ∀ v ∈ s.votes, ∀ w ∈ s.votes, v.term = w.term → v.candidate = w.candidate := by
  refine ⟨_, rfl, ?_⟩
  intro h
  exact absurd (h ⟨1, 0⟩ (by decide) ⟨1, 2⟩ (by decide) rfl) (by decide)

end Oceanliner
