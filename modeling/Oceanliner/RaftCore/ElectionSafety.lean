/-
# Election safety

A cluster of `MAX_NODES` nodes that run the handlers of `raft_core.c` over a network that may
lose, delay, reorder and duplicate messages: every message that was ever sent stays available
and may be delivered any number of times, or never.

A reply to a vote request carries the term the voter had *before* the request, so a
candidate that counts a reply of its own term counts a vote that was cast in that term.  The
votes of all nodes together form a ledger (`Oceanliner.Lib.Ballot`); a leader is elected in
it, and the ledger only grows along a run, so no term has two leaders.
-/
import Oceanliner.RaftCore.OneVote
import Oceanliner.Lib.Ballot

open Transition Ballot

namespace Oceanliner

/-- The identifiers of the nodes of a cluster: distinct, non-zero, of 32 bits. -/
structure NodeIds where
  id : Fin maxNodes → ℕ
  injective : Function.Injective id
  ne_zero : ∀ i, id i ≠ 0
  lt : ∀ i, id i < 2 ^ 32

/-- A reply to a vote request, with its two ends. -/
structure VoteReply where
  voter : Fin maxNodes
  candidate : Fin maxNodes
  msg : RaftMsg RaftRequestVoteResp
deriving DecidableEq

/-- The nodes of a cluster, the messages sent so far, and for each node the replies it has
counted, as pairs of a voter and a term. -/
structure Election where
  voter : Fin maxNodes → Voter
  requestVotes : List (Fin maxNodes × RaftMsg RaftRequestVoteReq)
  appendEntries : List (Fin maxNodes × RaftMsg RaftAppendEntriesReq)
  replies : List VoteReply
  counted : Fin maxNodes → List (Fin maxNodes × ℕ)

namespace Election

/-- The node `i`. -/
def node (s : Election) (i : Fin maxNodes) : RaftNode := (s.voter i).node

/-- The cluster after `raft_init` of every node. -/
def init (ids : NodeIds) (clk : Fin maxNodes → Clock) : Election where
  voter := fun i => voterInit (ids.id i) (clk i)
  requestVotes := []
  appendEntries := []
  replies := []
  counted := fun _ => []

/-- The same cluster with another state of node `i`. -/
def setVoter (s : Election) (i : Fin maxNodes) (v : Voter) : Election :=
  { s with voter := Function.update s.voter i v }

end Election

/-- The RequestVote message of a candidate. -/
def requestVoteOf (node : RaftNode) : RaftMsg RaftRequestVoteReq :=
  requestVoteMsg node.currentTerm node.nodeId node.log.count node.log.lastTerm

/-- The AppendEntries message of a leader with the given body. -/
def appendEntriesOf (node : RaftNode) (bodyLength : ℕ) (body : RaftAppendEntriesReq) :
    RaftMsg RaftAppendEntriesReq where
  bodyLength := bodyLength
  term := node.currentTerm
  senderNodeId := node.nodeId
  rpcType := .appendEntries
  data := body

inductive ElectionAction where
  | startElection (i : Fin maxNodes) (clk : Clock)
  | becomeCandidate (i : Fin maxNodes) (clk : Clock)
  | sendAppendEntries (i : Fin maxNodes) (bodyLength : ℕ) (body : RaftAppendEntriesReq)
  | requestVote (i from_ : Fin maxNodes) (clk : Clock) (req : RaftMsg RaftRequestVoteReq)
      (resp : RaftMsg RaftRequestVoteResp)
  | appendEntries (i from_ : Fin maxNodes) (clk : Clock) (req : RaftMsg RaftAppendEntriesReq)
      (resp : RaftMsg RaftAppendEntriesResp)
  | countVote (i : Fin maxNodes) (reply : VoteReply)

/-- One step of the cluster. -/
def electionStep (s : Election) : ElectionAction → Option Election
  | .startElection i clk =>
      (voteStep (s.voter i) (.startElection clk)).map fun v =>
        { s.setVoter i v with requestVotes := s.requestVotes ++ [(i, requestVoteOf v.node)] }
  | .becomeCandidate i clk =>
      (voteStep (s.voter i) (.becomeCandidate clk)).map fun v =>
        { s.setVoter i v with requestVotes := s.requestVotes ++ [(i, requestVoteOf v.node)] }
  | .sendAppendEntries i bodyLength body =>
      if (s.node i).state = .leader then
        some { s with
          appendEntries := s.appendEntries ++
            [(i, appendEntriesOf (s.node i) bodyLength body)] }
      else none
  | .requestVote i from_ clk req resp =>
      if (from_, req) ∈ s.requestVotes ∧ from_ ≠ i then
        (voteStep (s.voter i) (.requestVote clk req resp)).map fun v =>
          { s.setVoter i v with
            replies := s.replies ++
              [⟨i, from_, (raftHandleRequestVote clk (s.node i) req resp).2⟩] }
      else none
  | .appendEntries i from_ clk req resp =>
      if (from_, req) ∈ s.appendEntries ∧ from_ ≠ i then
        (voteStep (s.voter i) (.appendEntries clk req resp)).map fun v => s.setVoter i v
      else none
  | .countVote i reply =>
      if reply ∈ s.replies ∧ reply.candidate = i ∧ reply.voter ≠ i ∧
          reply.msg.data.voteGranted = true ∧
          (s.node i).state = .candidate ∧ reply.msg.term = (s.node i).currentTerm ∧
          (reply.voter, (s.node i).currentTerm) ∉ s.counted i then
        let (majority, node') := raftRecordVote (s.node i)
        let node'' := if majority then raftBecomeLeader node' else node'
        some { s.setVoter i ⟨node'', (s.voter i).votes⟩ with
          counted := Function.update s.counted i
            (s.counted i ++ [(reply.voter, (s.node i).currentTerm)]) }
      else none

/-- No term has reached the largest value of its type. -/
def Election.TermsBelow (s : Election) : Prop := ∀ i, (s.node i).currentTerm < 2 ^ 64 - 1

instance (s : Election) : Decidable s.TermsBelow :=
  inferInstanceAs (Decidable (∀ i, (s.node i).currentTerm < 2 ^ 64 - 1))

/-! ### The invariant -/

/-- The voters whose replies a node has counted in its current term. -/
def Election.tally (s : Election) (i : Fin maxNodes) : List (Fin maxNodes × ℕ) :=
  (s.counted i).filter fun c => c.2 = (s.node i).currentTerm

lemma Election.tally_congr {s s' : Election} {i : Fin maxNodes} (hc : s'.counted i = s.counted i)
    (ht : (s'.node i).currentTerm = (s.node i).currentTerm) : s'.tally i = s.tally i := by
  rw [tally, tally, hc, ht]

structure ElectionInv (ids : NodeIds) (s : Election) : Prop where
  id : ∀ i, (s.node i).nodeId = ids.id i
  oneVote : ∀ i, (s.voter i).OneVote
  /-- A request names its sender and a term the sender has reached. -/
  request : ∀ m ∈ s.requestVotes,
    m.2.senderNodeId = ids.id m.1 ∧ m.2.term ≤ (s.node m.1).currentTerm
  /-- A granted reply stands for a vote, in a term between that of the reply and that of the
  candidate. -/
  reply : ∀ r ∈ s.replies, r.msg.data.voteGranted = true →
    ∃ t, ⟨t, ids.id r.candidate⟩ ∈ (s.voter r.voter).votes ∧ r.msg.term ≤ t ∧
      t ≤ (s.node r.candidate).currentTerm
  counted : ∀ i, ∀ c ∈ s.counted i, c.1 ≠ i ∧ c.2 ≤ (s.node i).currentTerm ∧
    ⟨c.2, ids.id i⟩ ∈ (s.voter c.1).votes
  nodup : ∀ i, (s.counted i).Nodup
  /-- Candidates and leaders have voted for themselves. -/
  self : ∀ i, (s.node i).state ≠ .follower →
    ⟨(s.node i).currentTerm, ids.id i⟩ ∈ (s.voter i).votes
  votes : ∀ i, (s.node i).state = .candidate →
    (s.node i).votesReceived = 1 + (s.tally i).length
  /-- A leader has its own vote and those of a majority. -/
  elected : ∀ i, (s.node i).state = .leader →
    ∃ W : Finset (Fin maxNodes), Majority W ∧
      ∀ v ∈ W, ⟨(s.node i).currentTerm, ids.id i⟩ ∈ (s.voter v).votes

/-- All votes cast so far. -/
def ElectionInv.ledger {ids : NodeIds} {s : Election} (h : ElectionInv ids s) :
    Ledger (Fin maxNodes) ℕ ℕ where
  cast v t c := ⟨t, c⟩ ∈ (s.voter v).votes
  unique hc hc' := (h.oneVote _).unique _ hc _ hc' rfl

lemma electionInv_init (ids : NodeIds) (clk : Fin maxNodes → Clock) :
    ElectionInv ids (Election.init ids clk) where
  id := fun _ => rfl
  oneVote := fun i => voterInit_oneVote (ids.id i) (clk i)
  request := by simp [Election.init]
  reply := by simp [Election.init]
  counted := by simp [Election.init]
  nodup := by simp [Election.init]
  self := fun _ h => absurd rfl h
  votes := by
    intro i h
    cases h
  elected := by
    intro i h
    cases h

/-! ### Steps of one node -/

/-- What an operation of node `i` other than counting a vote does: the votes and the term only
grow, a new candidacy starts with one vote in a new term, and nobody becomes leader. -/
structure Voter.Advances (v v' : Voter) : Prop where
  nodeId_eq : v'.node.nodeId = v.node.nodeId
  oneVote : v'.OneVote
  term_le : v.node.currentTerm ≤ v'.node.currentTerm
  votes : ∀ x ∈ v.votes, x ∈ v'.votes
  role : (v'.node.state = v.node.state ∧ v'.node.currentTerm = v.node.currentTerm ∧
      v'.node.votesReceived = v.node.votesReceived) ∨
    v'.node.state = .follower ∨
    (v'.node.state = .candidate ∧ v.node.currentTerm < v'.node.currentTerm ∧
      v'.node.votesReceived = 1 ∧
      ⟨v'.node.currentTerm, v'.node.nodeId⟩ ∈ v'.votes)

lemma Voter.Advances.of_step {v v' : Voter} {a : VoteAction} (hinv : v.OneVote)
    (hG : KeepsVote v.node a) (hsender : a.SenderBelow (2 ^ 32))
    (h : voteStep v a = some v') : v.Advances v' := by
  obtain ⟨cast, hcast, ht⟩ := voteStep_transition hG hsender h
  refine ⟨ht.nodeId_eq, hinv.step hG hsender h, ht.term_le, ?_, ?_⟩
  · intro x hx
    rw [hcast]
    exact List.mem_append_left _ hx
  · cases a with
    | startElection clk =>
        obtain rfl := Option.some.inj h
        exact Or.inr (Or.inr ⟨rfl, lt_u64_succ hG.2, rfl,
          List.mem_append_right _ (List.mem_singleton.2 rfl)⟩)
    | becomeCandidate clk =>
        obtain rfl := Option.some.inj h
        exact Or.inr (Or.inr ⟨rfl, lt_u64_succ hG.2, rfl,
          List.mem_append_right _ (List.mem_singleton.2 rfl)⟩)
    | requestVote clk req resp =>
        obtain ⟨node', resp', hr, rfl⟩ := voteStep_requestVote h
        have hout := raftHandleRequestVote_outcome hr
        clear hr h hcast
        generalize resp'.data.voteGranted = g at hout ⊢
        cases hout with
        | refuse hle => exact Or.inl ⟨rfl, rfl, rfl⟩
        | refuseLater hlt => exact Or.inr (Or.inl rfl)
        | grant heq hfree hlog => exact Or.inl ⟨rfl, rfl, rfl⟩
        | grantLater hlt hlog => exact Or.inr (Or.inl rfl)
    | appendEntries clk req resp =>
        obtain ⟨node', resp', hr, rfl⟩ := voteStep_appendEntries h
        cases raftHandleAppendEntries_outcome hr with
        | stale hlt => exact Or.inl ⟨rfl, rfl, rfl⟩
        | same heq => exact Or.inl ⟨rfl, rfl, rfl⟩
        | later hgt => exact Or.inr (Or.inl rfl)

/-- Every vote of the one cluster has been cast in the other. -/
def Election.VotesKept (s s' : Election) : Prop :=
  ∀ i, ∀ x ∈ (s.voter i).votes, x ∈ (s'.voter i).votes

lemma Voter.Advances.votesKept {s : Election} {i : Fin maxNodes} {v' : Voter}
    (hv : (s.voter i).Advances v') : s.VotesKept (s.setVoter i v') := by
  intro j x hx
  by_cases hj : j = i
  · subst hj
    simpa [Election.setVoter] using hv.votes x hx
  · simpa [Election.setVoter, hj] using hx

/-- The invariant survives an operation of one node, before the message it sends is added. -/
lemma ElectionInv.setVoter {ids : NodeIds} {s : Election} (h : ElectionInv ids s)
    {i : Fin maxNodes} {v' : Voter} (hv : (s.voter i).Advances v') :
    ElectionInv ids (s.setVoter i v') := by
  have hterm : ∀ j, (s.node j).currentTerm ≤ ((s.setVoter i v').node j).currentTerm := by
    intro j
    by_cases hj : j = i
    · subst hj
      simpa [Election.setVoter, Election.node] using hv.term_le
    · simp [Election.setVoter, Election.node, hj]
  have hvotes := hv.votesKept
  have hself : (s.setVoter i v').node i = v'.node := by
    simp [Election.setVoter, Election.node]
  have hother : ∀ j, j ≠ i → (s.setVoter i v').node j = s.node j := by
    intro j hj
    simp [Election.setVoter, Election.node, hj]
  refine ⟨?_, ?_, ?_, ?_, ?_, h.nodup, ?_, ?_, ?_⟩
  · intro j
    by_cases hj : j = i
    · subst hj
      rw [hself, hv.nodeId_eq]
      exact h.id j
    · rw [hother j hj]
      exact h.id j
  · intro j
    by_cases hj : j = i
    · subst hj
      simpa [Election.setVoter] using hv.oneVote
    · simpa [Election.setVoter, hj] using h.oneVote j
  · intro m hm
    exact ⟨(h.request m hm).1, (h.request m hm).2.trans (hterm m.1)⟩
  · intro r hr hgranted
    obtain ⟨t, hcast, hle, hle'⟩ := h.reply r hr hgranted
    exact ⟨t, hvotes _ _ hcast, hle, hle'.trans (hterm _)⟩
  · intro j c hc
    obtain ⟨hne, hle, hcast⟩ := h.counted j c hc
    exact ⟨hne, hle.trans (hterm j), hvotes _ _ hcast⟩
  · intro j hj
    by_cases hji : j = i
    · subst hji
      rw [hself] at hj ⊢
      rcases hv.role with ⟨hst, hte, -⟩ | hfol | ⟨-, -, -, hmem⟩
      · rw [hst] at hj
        rw [hte]
        exact hvotes j _ (h.self j hj)
      · exact absurd hfol hj
      · rw [hv.nodeId_eq] at hmem
        have hid : (s.voter j).node.nodeId = ids.id j := h.id j
        rw [hid] at hmem
        simpa [Election.setVoter] using hmem
    · rw [hother j hji] at hj ⊢
      exact hvotes j _ (h.self j hj)
  · intro j hj
    by_cases hji : j = i
    · subst hji
      rw [hself] at hj ⊢
      rcases hv.role with ⟨hst, hte, hvr⟩ | hfol | ⟨-, hlt, hone, -⟩
      · rw [hvr]
        rw [hst] at hj
        have htally : (s.setVoter j v').tally j = s.tally j :=
          Election.tally_congr rfl (by rw [hself]; exact hte)
        rw [htally]
        exact h.votes j hj
      · rw [hfol] at hj
        cases hj
      · -- the term is new, so nothing has been counted in it
        have htally : (s.setVoter j v').tally j = [] := by
          simp only [Election.tally, hself, List.filter_eq_nil_iff, decide_eq_true_eq]
          intro c hc hct
          have hle : c.2 ≤ (s.voter j).node.currentTerm := (h.counted j c hc).2.1
          omega
        rw [htally, hone]
        rfl
    · have htally : (s.setVoter i v').tally j = s.tally j :=
        Election.tally_congr rfl (by rw [hother j hji])
      rw [hother j hji] at hj ⊢
      rw [htally]
      exact h.votes j hj
  · intro j hj
    by_cases hji : j = i
    · subst hji
      rw [hself] at hj ⊢
      rcases hv.role with ⟨hst, hte, -⟩ | hfol | ⟨hcand, -⟩
      · rw [hst] at hj
        rw [hte]
        obtain ⟨W, hW, hcast⟩ := h.elected j hj
        exact ⟨W, hW, fun w hw => hvotes w _ (hcast w hw)⟩
      · rw [hfol] at hj
        cases hj
      · rw [hcand] at hj
        cases hj
    · rw [hother j hji] at hj ⊢
      obtain ⟨W, hW, hcast⟩ := h.elected j hj
      exact ⟨W, hW, fun w hw => hvotes w _ (hcast w hw)⟩

/-! ### Messages -/

lemma ElectionInv.addRequest {ids : NodeIds} {s : Election} (h : ElectionInv ids s)
    (i : Fin maxNodes) :
    ElectionInv ids { s with
      requestVotes := s.requestVotes ++ [(i, requestVoteOf (s.node i))] } := by
  refine ⟨h.id, h.oneVote, ?_, h.reply, h.counted, h.nodup, h.self, h.votes, h.elected⟩
  intro m hm
  rcases List.mem_append.1 hm with hm | hm
  · exact h.request m hm
  · obtain rfl := List.mem_singleton.1 hm
    exact ⟨h.id i, le_rfl⟩

lemma ElectionInv.addReply {ids : NodeIds} {s : Election} (h : ElectionInv ids s)
    {r : VoteReply} (hr : r.msg.data.voteGranted = true →
      ∃ t, ⟨t, ids.id r.candidate⟩ ∈ (s.voter r.voter).votes ∧ r.msg.term ≤ t ∧
        t ≤ (s.node r.candidate).currentTerm) :
    ElectionInv ids { s with replies := s.replies ++ [r] } := by
  refine ⟨h.id, h.oneVote, h.request, ?_, h.counted, h.nodup, h.self, h.votes, h.elected⟩
  intro r' hr' hgranted
  rcases List.mem_append.1 hr' with hr' | hr'
  · exact h.reply r' hr' hgranted
  · obtain rfl := List.mem_singleton.1 hr'
    exact hr hgranted

/-- A granted request stands for a vote of the node that answers it. -/
lemma granted_reply_cast {v v' : Voter} {clk : Clock} {req : RaftMsg RaftRequestVoteReq}
    {resp : RaftMsg RaftRequestVoteResp} (h : voteStep v (.requestVote clk req resp) = some v')
    (hgranted : (raftHandleRequestVote clk v.node req resp).2.data.voteGranted = true) :
    ⟨req.term, req.senderNodeId⟩ ∈ v'.votes ∧ v.node.currentTerm ≤ req.term := by
  obtain ⟨node', resp', hr, rfl⟩ := voteStep_requestVote h
  rw [hr] at hgranted
  have hout := raftHandleRequestVote_outcome hr
  rw [hgranted] at hout ⊢
  clear hr h hgranted
  cases hout with
  | grant heq hfree hlog =>
      refine ⟨List.mem_append_right _ ?_, le_of_eq heq.symm⟩
      simp [heq]
  | grantLater hlt hlog =>
      refine ⟨List.mem_append_right _ ?_, le_of_lt hlt⟩
      simp

/-! ### Counting a reply -/

/-- A reply that a candidate may count is a vote for it in its own term.  The term of the
reply is at most that of the vote, and the term of the vote at most that of the candidate;
the first and the last are equal. -/
lemma ElectionInv.counted_cast {ids : NodeIds} {s : Election} (h : ElectionInv ids s)
    {r : VoteReply} (hr : r ∈ s.replies) (hgranted : r.msg.data.voteGranted = true)
    (hterm : r.msg.term = (s.node r.candidate).currentTerm) :
    ⟨(s.node r.candidate).currentTerm, ids.id r.candidate⟩ ∈ (s.voter r.voter).votes := by
  obtain ⟨t, hcast, hle, hle'⟩ := h.reply r hr hgranted
  have ht : t = (s.node r.candidate).currentTerm := by omega
  rwa [ht] at hcast

/-- The voters of a tally are distinct: a voter is counted once in each term. -/
lemma ElectionInv.tally_nodup {ids : NodeIds} {s : Election} (h : ElectionInv ids s)
    (i : Fin maxNodes) : ((s.tally i).map Prod.fst).Nodup := by
  refine List.Nodup.map_on ?_ ((h.nodup i).filter _)
  intro c hc d hd hcd
  have hc' := List.of_mem_filter hc
  have hd' := List.of_mem_filter hd
  simp only [decide_eq_true_eq] at hc' hd'
  exact Prod.ext hcd (hc'.trans hd'.symm)

lemma ElectionInv.tally_length_le {ids : NodeIds} {s : Election} (h : ElectionInv ids s)
    (i : Fin maxNodes) : (s.tally i).length ≤ maxNodes := by
  have hcard := Finset.card_le_univ ((s.tally i).map Prod.fst).toFinset
  rwa [List.toFinset_card_of_nodup (h.tally_nodup i), List.length_map, Fintype.card_fin]
    at hcard

/-- The voters of a tally together with the candidate itself. -/
lemma ElectionInv.majority_of_tally {ids : NodeIds} {s : Election} (h : ElectionInv ids s)
    {i : Fin maxNodes} (hself : (s.node i).state ≠ .follower)
    (hmaj : maxNodes / 2 < 1 + (s.tally i).length) :
    ∃ W : Finset (Fin maxNodes), Majority W ∧
      ∀ v ∈ W, ⟨(s.node i).currentTerm, ids.id i⟩ ∈ (s.voter v).votes := by
  have hmem : ∀ c ∈ s.tally i, c ∈ s.counted i ∧ c.2 = (s.node i).currentTerm := by
    intro c hc
    simpa [Election.tally] using hc
  have hnot : i ∉ ((s.tally i).map Prod.fst).toFinset := by
    intro hi
    obtain ⟨c, hc, hci⟩ := List.mem_map.1 (List.mem_toFinset.1 hi)
    exact (h.counted i c (hmem c hc).1).1 hci
  refine ⟨insert i ((s.tally i).map Prod.fst).toFinset, ?_, ?_⟩
  · rw [Majority, Finset.card_insert_of_notMem hnot, List.toFinset_card_of_nodup (h.tally_nodup i),
      List.length_map, Fintype.card_fin]
    unfold maxNodes at hmaj ⊢
    omega
  · intro v hv
    rcases Finset.mem_insert.1 hv with rfl | hv
    · exact h.self v hself
    · obtain ⟨c, hc, rfl⟩ := List.mem_map.1 (List.mem_toFinset.1 hv)
      obtain ⟨hcm, hct⟩ := hmem c hc
      have hcast := (h.counted i c hcm).2.2
      rwa [hct] at hcast

/-- The same cluster with other counters and another role of node `i`, and another list of
counted replies. -/
def Election.recount (s : Election) (i : Fin maxNodes) (node' : RaftNode)
    (c' : List (Fin maxNodes × ℕ)) : Election :=
  { s.setVoter i ⟨node', (s.voter i).votes⟩ with counted := Function.update s.counted i c' }

/-- The invariant survives a change of role and of counters in which the term, the vote and
the votes cast stay as they are. -/
lemma ElectionInv.recount {ids : NodeIds} {s : Election} (h : ElectionInv ids s)
    {i : Fin maxNodes} {node' : RaftNode} {c' : List (Fin maxNodes × ℕ)}
    (hid : node'.nodeId = (s.node i).nodeId)
    (hterm : node'.currentTerm = (s.node i).currentTerm)
    (hvote : node'.votedFor = (s.node i).votedFor)
    (hrole : node'.state ≠ .follower → (s.node i).state ≠ .follower)
    (hnodup : c'.Nodup)
    (hcounted : ∀ c ∈ c', c.1 ≠ i ∧ c.2 ≤ (s.node i).currentTerm ∧
      ⟨c.2, ids.id i⟩ ∈ (s.voter c.1).votes)
    (hvotes : node'.state = .candidate →
      node'.votesReceived =
        1 + (c'.filter fun c => c.2 = (s.node i).currentTerm).length)
    (helected : node'.state = .leader → ∃ W : Finset (Fin maxNodes), Majority W ∧
      ∀ v ∈ W, ⟨(s.node i).currentTerm, ids.id i⟩ ∈ (s.voter v).votes) :
    ElectionInv ids (s.recount i node' c') := by
  have hself : (s.recount i node' c').node i = node' := by
    simp [Election.recount, Election.setVoter, Election.node]
  have hother : ∀ j, j ≠ i → (s.recount i node' c').node j = s.node j := by
    intro j hj
    simp [Election.recount, Election.setVoter, Election.node, hj]
  have hcast : ∀ j, ((s.recount i node' c').voter j).votes = (s.voter j).votes := by
    intro j
    by_cases hj : j = i
    · subst hj
      simp [Election.recount, Election.setVoter]
    · simp [Election.recount, Election.setVoter, hj]
  have hterms : ∀ j, ((s.recount i node' c').node j).currentTerm = (s.node j).currentTerm := by
    intro j
    by_cases hj : j = i
    · rw [hj, hself, hterm]
    · rw [hother j hj]
  have hci : (s.recount i node' c').counted i = c' := by
    simp [Election.recount]
  have hcj : ∀ j, j ≠ i → (s.recount i node' c').counted j = s.counted j := by
    intro j hj
    simp [Election.recount, hj]
  refine ⟨?_, ?_, ?_, ?_, ?_, ?_, ?_, ?_, ?_⟩
  · intro j
    by_cases hj : j = i
    · rw [hj, hself, hid]
      exact h.id i
    · rw [hother j hj]
      exact h.id j
  · intro j
    by_cases hj : j = i
    · subst hj
      have hv : (s.recount j node' c').voter j = ⟨node', (s.voter j).votes⟩ := by
        simp [Election.recount, Election.setVoter]
      have ho := h.oneVote j
      rw [hv]
      refine ⟨ho.candidate_ne, ?_, ?_, ho.unique⟩
      · intro v hv'
        exact (ho.term_le v hv').trans (le_of_eq hterm.symm)
      · intro v hv' hvt
        exact hvote.trans (ho.current v hv' (hvt.trans hterm))
    · have hv : (s.recount i node' c').voter j = s.voter j := by
        simp [Election.recount, Election.setVoter, hj]
      rw [hv]
      exact h.oneVote j
  · intro m hm
    rw [hterms]
    exact h.request m hm
  · intro r hr hgranted
    rw [hterms, hcast]
    exact h.reply r hr hgranted
  · intro j c hc
    rw [hterms, hcast]
    by_cases hj : j = i
    · subst hj
      rw [hci] at hc
      exact hcounted c hc
    · rw [hcj j hj] at hc
      exact h.counted j c hc
  · intro j
    by_cases hj : j = i
    · rw [hj, hci]
      exact hnodup
    · rw [hcj j hj]
      exact h.nodup j
  · intro j hst
    rw [hterms, hcast]
    by_cases hj : j = i
    · subst hj
      rw [hself] at hst
      exact h.self j (hrole hst)
    · rw [hother j hj] at hst
      exact h.self j hst
  · intro j hst
    by_cases hj : j = i
    · subst hj
      rw [Election.tally, hci, hterms, hself]
      rw [hself] at hst
      exact hvotes hst
    · rw [Election.tally_congr (hcj j hj) (hterms j), hother j hj]
      rw [hother j hj] at hst
      exact h.votes j hst
  · intro j hst
    simp only [hterms, hcast]
    by_cases hj : j = i
    · subst hj
      rw [hself] at hst
      exact helected hst
    · rw [hother j hj] at hst
      exact h.elected j hst

/-- Counting a reply of another voter, while the node stays a candidate. -/
lemma ElectionInv.recordVote {ids : NodeIds} {s : Election} (h : ElectionInv ids s)
    {i v : Fin maxNodes} (hcand : (s.node i).state = .candidate) (hne : v ≠ i)
    (hnew : (v, (s.node i).currentTerm) ∉ s.counted i)
    (hcast : ⟨(s.node i).currentTerm, ids.id i⟩ ∈ (s.voter v).votes) :
    ElectionInv ids (s.recount i (raftRecordVote (s.node i)).2
      (s.counted i ++ [(v, (s.node i).currentTerm)])) := by
  have hrec : (raftRecordVote (s.node i)).2 =
      { s.node i with votesReceived := u32 ((s.node i).votesReceived + 1) } := by
    simp [raftRecordVote, hcand]
  rw [hrec]
  refine h.recount rfl rfl rfl (fun hst => hst) ?_ ?_ ?_ ?_
  · rw [List.nodup_append]
    refine ⟨h.nodup i, List.nodup_singleton _, ?_⟩
    intro a ha b hb hab
    obtain rfl := List.mem_singleton.1 hb
    exact hnew (hab ▸ ha)
  · intro c hc
    rcases List.mem_append.1 hc with hc | hc
    · exact h.counted i c hc
    · obtain rfl := List.mem_singleton.1 hc
      exact ⟨hne, le_rfl, hcast⟩
  · intro _
    have hold := h.votes i hcand
    have hle : (s.tally i).length ≤ 5 := h.tally_length_le i
    have htally : (s.counted i).filter (fun c => c.2 = (s.node i).currentTerm) = s.tally i := rfl
    have hvr : u32 ((s.node i).votesReceived + 1) = (s.node i).votesReceived + 1 :=
      u32_of_lt (by omega)
    have hone : [(v, (s.node i).currentTerm)].filter
        (fun c => c.2 = (s.node i).currentTerm) = [(v, (s.node i).currentTerm)] := by simp
    rw [List.filter_append, List.length_append, htally, hone, List.length_singleton]
    exact hvr.trans (by omega)
  · intro hst
    simp only [hcand] at hst
    cases hst

/-- **A counted vote that completes a majority makes a leader who is elected.** -/
lemma ElectionInv.countVote {ids : NodeIds} {s : Election} (h : ElectionInv ids s)
    {i v : Fin maxNodes} (hcand : (s.node i).state = .candidate) (hne : v ≠ i)
    (hnew : (v, (s.node i).currentTerm) ∉ s.counted i)
    (hcast : ⟨(s.node i).currentTerm, ids.id i⟩ ∈ (s.voter v).votes) :
    ElectionInv ids (s.recount i
      (if (raftRecordVote (s.node i)).1 then raftBecomeLeader (raftRecordVote (s.node i)).2
        else (raftRecordVote (s.node i)).2)
      (s.counted i ++ [(v, (s.node i).currentTerm)])) := by
  have h₁ := h.recordVote hcand hne hnew hcast
  split
  · rename_i hmaj
    -- the node as it stands after `raft_record_vote`, before it becomes leader
    obtain ⟨s₁, hs₁⟩ : ∃ s₁, s₁ = s.recount i (raftRecordVote (s.node i)).2
      (s.counted i ++ [(v, (s.node i).currentTerm)]) := ⟨_, rfl⟩
    rw [← hs₁] at h₁
    have hnode : s₁.node i = (raftRecordVote (s.node i)).2 := by
      simp [hs₁, Election.recount, Election.setVoter, Election.node]
    have hcand₁ : (s₁.node i).state = .candidate := by
      simp [hnode, raftRecordVote, hcand]
    have hgt : maxNodes / 2 < 1 + (s₁.tally i).length := by
      rw [← h₁.votes i hcand₁, hnode]
      simpa [raftRecordVote, hcand] using hmaj
    have helected := h₁.majority_of_tally (by simp [hcand₁]) hgt
    have h₂ : ElectionInv ids (s₁.recount i (raftBecomeLeader (s₁.node i)) (s₁.counted i)) := by
      refine h₁.recount rfl rfl rfl ?_ (h₁.nodup i) (h₁.counted i) ?_ (fun _ => helected)
      · intro _
        simp [hcand₁]
      · intro hst
        cases hst
    have heq : s₁.recount i (raftBecomeLeader (s₁.node i)) (s₁.counted i) =
        s.recount i (raftBecomeLeader (raftRecordVote (s.node i)).2)
          (s.counted i ++ [(v, (s.node i).currentTerm)]) := by
      rw [hnode, hs₁]
      simp [Election.recount, Election.setVoter]
    rwa [heq] at h₂
  · exact h₁

/-! ### Runs -/

lemma Election.recount_votesKept (s : Election) (i : Fin maxNodes) (node' : RaftNode)
    (c' : List (Fin maxNodes × ℕ)) : s.VotesKept (s.recount i node' c') := by
  intro j x hx
  by_cases hj : j = i
  · subst hj
    simpa [Election.recount, Election.setVoter] using hx
  · simpa [Election.recount, Election.setVoter, hj] using hx

/-- A node stands for election and asks for votes in its new term. -/
lemma ElectionInv.stand {ids : NodeIds} {s : Election} (h : ElectionInv ids s) {i : Fin maxNodes}
    {a : VoteAction} {v : Voter} (hkeeps : KeepsVote (s.voter i).node a)
    (hsender : a.SenderBelow (2 ^ 32)) (hv : voteStep (s.voter i) a = some v) :
    ElectionInv ids { s.setVoter i v with
        requestVotes := s.requestVotes ++ [(i, requestVoteOf v.node)] } ∧
      s.VotesKept { s.setVoter i v with
        requestVotes := s.requestVotes ++ [(i, requestVoteOf v.node)] } := by
  have hadv := Voter.Advances.of_step (h.oneVote i) hkeeps hsender hv
  have hnode : (s.setVoter i v).node i = v.node := by
    simp [Election.setVoter, Election.node]
  have hnew := (h.setVoter hadv).addRequest i
  rw [hnode] at hnew
  exact ⟨hnew, hadv.votesKept⟩

/-- **One step of the cluster keeps the invariant, and every vote.** -/
lemma electionStep_inv {ids : NodeIds} {s s' : Election} {a : ElectionAction}
    (h : ElectionInv ids s) (hbelow : s.TermsBelow) (hs : electionStep s a = some s') :
    ElectionInv ids s' ∧ s.VotesKept s' := by
  have hid : ∀ i, (s.node i).nodeId ≠ 0 := by
    intro i
    rw [h.id i]
    exact ids.ne_zero i
  cases a with
  | startElection i clk =>
      simp only [electionStep, Option.map_eq_some_iff] at hs
      obtain ⟨v, hv, rfl⟩ := hs
      have hkeeps : KeepsVote (s.voter i).node (.startElection clk) := ⟨hid i, hbelow i⟩
      exact h.stand hkeeps trivial hv
  | becomeCandidate i clk =>
      simp only [electionStep, Option.map_eq_some_iff] at hs
      obtain ⟨v, hv, rfl⟩ := hs
      have hkeeps : KeepsVote (s.voter i).node (.becomeCandidate clk) := ⟨hid i, hbelow i⟩
      exact h.stand hkeeps trivial hv
  | sendAppendEntries i bodyLength body =>
      simp only [electionStep] at hs
      split at hs
      · obtain rfl := Option.some.inj hs
        exact ⟨⟨h.id, h.oneVote, h.request, h.reply, h.counted, h.nodup, h.self, h.votes,
          h.elected⟩, fun _ _ hx => hx⟩
      · cases hs
  | requestVote i from_ clk req resp =>
      simp only [electionStep] at hs
      split at hs
      · rename_i hc
        obtain ⟨hmem, hne⟩ := hc
        obtain ⟨v, hv, rfl⟩ := Option.map_eq_some_iff.1 hs
        obtain ⟨hsender, hterm⟩ := h.request _ hmem
        simp only at hsender hterm
        have hkeeps : KeepsVote (s.voter i).node (.requestVote clk req resp) := by
          refine Or.inl ?_
          rw [hsender]
          exact ids.ne_zero from_
        have hsmall : req.senderNodeId < 2 ^ 32 := by
          rw [hsender]
          exact ids.lt from_
        have hadv := Voter.Advances.of_step (h.oneVote i) hkeeps hsmall hv
        refine ⟨(h.setVoter hadv).addReply ?_, hadv.votesKept⟩
        intro hgranted
        obtain ⟨hcast, hle⟩ := granted_reply_cast hv hgranted
        rw [hsender] at hcast
        refine ⟨req.term, ?_, ?_, ?_⟩
        · simpa [Election.setVoter] using hcast
        · rw [raftHandleRequestVote_respTerm]
          exact hle
        · simpa [Election.setVoter, Election.node, hne] using hterm
      · cases hs
  | appendEntries i from_ clk req resp =>
      simp only [electionStep] at hs
      split at hs
      · obtain ⟨v, hv, rfl⟩ := Option.map_eq_some_iff.1 hs
        have hadv := Voter.Advances.of_step (a := .appendEntries clk req resp) (h.oneVote i)
          trivial trivial hv
        exact ⟨h.setVoter hadv, hadv.votesKept⟩
      · cases hs
  | countVote i reply =>
      simp only [electionStep] at hs
      split at hs
      · rename_i hc
        obtain ⟨hmem, rfl, hne, hgranted, hcand, hterm, hnew⟩ := hc
        obtain rfl := Option.some.inj hs
        have hcast := h.counted_cast hmem hgranted hterm
        exact ⟨h.countVote hcand hne hnew hcast, s.recount_votesKept _ _ _⟩
      · cases hs

/-- **Election safety.**  In every run in which no term reaches the largest value of its type,
two leaders of one term are the same node, whether they lead at the same moment or not. -/
theorem election_safety (ids : NodeIds) (clk : Fin maxNodes → Clock)
    (as bs : List ElectionAction) {s t : Election} {i j : Fin maxNodes}
    (hG : Guarded electionStep (fun s _ => s.TermsBelow) (Election.init ids clk) (as ++ bs))
    (hs : run electionStep (Election.init ids clk) as = some s)
    (ht : run electionStep s bs = some t)
    (hi : (s.node i).state = .leader) (hj : (t.node j).state = .leader)
    (hterm : (s.node i).currentTerm = (t.node j).currentTerm) : i = j := by
  have hinv : ElectionInv ids s :=
    Guarded.invariant (fun _ _ _ h hb hstep => (electionStep_inv h hb hstep).1)
      hG.append_left (electionInv_init ids clk) hs
  have hG' := hG.append_right hs
  have hinv' : ElectionInv ids t :=
    Guarded.invariant (fun _ _ _ h hb hstep => (electionStep_inv h hb hstep).1) hG' hinv ht
  have hkept : s.VotesKept t :=
    Guarded.relation (R := Election.VotesKept) (fun _ _ _ hx => hx)
      (fun h₁ h₂ k x hx => h₂ k x (h₁ k x hx))
      (fun _ _ _ h hb hstep => electionStep_inv h hb hstep) hG' hinv ht
  have hle : hinv.ledger ≤ hinv'.ledger := fun v _ _ hcast => hkept v _ hcast
  have hwon : hinv.ledger.Elected (s.node i).currentTerm (ids.id i) := hinv.elected i hi
  have hwon' : hinv'.ledger.Elected (s.node i).currentTerm (ids.id j) := by
    rw [hterm]
    exact hinv'.elected j hj
  exact ids.injective (hwon.unique_of_le hle hwon')

/-- The ids `1`, …, `MAX_NODES`. -/
def successiveIds : NodeIds where
  id := fun i => i.val + 1
  injective := fun i j h => Fin.ext (Nat.succ_injective h)
  ne_zero := fun i => Nat.succ_ne_zero i.val
  lt := fun i => by
    have hlt : i.val < 5 := i.isLt
    omega

/-- A run in which node `0` stands in term `1`, its request reaches the nodes `1` and `2`
twice, and their second replies make it leader. -/
def firstElection : List ElectionAction :=
  let req := requestVoteMsg 1 1 0 0
  let reply (v : Fin maxNodes) : VoteReply :=
    ⟨v, 0, ⟨0, 1, 0, .respRequestVote, ⟨true⟩⟩⟩
  [.startElection 0 ⟨0, 0⟩,
    .requestVote 1 0 ⟨0, 0⟩ req voteRespBuffer, .requestVote 1 0 ⟨0, 0⟩ req voteRespBuffer,
    .requestVote 2 0 ⟨0, 0⟩ req voteRespBuffer, .requestVote 2 0 ⟨0, 0⟩ req voteRespBuffer,
    .countVote 0 (reply 1), .countVote 0 (reply 2)]

theorem election_safety_first : ∃ s,
    run electionStep (Election.init successiveIds fun _ => ⟨0, 0⟩) firstElection = some s ∧
      (s.node 0).state = .leader ∧ ∀ j, (s.node j).state = .leader →
        (s.node 0).currentTerm = (s.node j).currentTerm → 0 = j := by
  refine ⟨_, rfl, rfl, fun j hj hterm => ?_⟩
  exact election_safety successiveIds (fun _ => ⟨0, 0⟩) firstElection [] (by decide) rfl rfl rfl
    hj hterm

end Oceanliner
