/-
The messages between nodes and the two handlers of `raft_core.c` that answer them.
-/
import Oceanliner.LogFile.Append
import Oceanliner.RaftCore.Node

namespace Oceanliner

/-- `raft_rpc_type_t`, with the `RAFT_HEARTBEAT` that `main.c` uses and the header does not
declare. -/
inductive RaftRpcType where
  | appendEntries
  | requestVote
  | respAppendEntries
  | respRequestVote
  | heartbeat
deriving DecidableEq, Repr

/-- `raft_msg_t` with a body of type `β` in the place of `data`. -/
structure RaftMsg (β : Type) where
  bodyLength : ℕ
  term : ℕ
  senderNodeId : ℕ
  rpcType : RaftRpcType
  data : β
deriving DecidableEq, Repr

/-- `kvs_batch_cmd_t`. -/
structure KvsBatchCmd where
  header : KvsbHeader
  data : List UInt8
deriving DecidableEq, Repr

/-- `raft_append_entries_req_t`. -/
structure RaftAppendEntriesReq where
  prevLogIndex : ℕ
  prevLogTerm : ℕ
  leaderCommit : ℕ
  nEntries : ℕ
  entries : KvsBatchCmd
deriving DecidableEq, Repr

/-- `raft_append_entries_resp_t`. -/
structure RaftAppendEntriesResp where
  success : Bool
  logIdx : ℕ
  term : ℕ
deriving DecidableEq, Repr

/-- `raft_request_vote_req_t`. -/
structure RaftRequestVoteReq where
  lastLogIndex : ℕ
  lastLogTerm : ℕ
deriving DecidableEq, Repr

/-- `raft_request_vote_resp_t`. -/
structure RaftRequestVoteResp where
  voteGranted : Bool
deriving DecidableEq, Repr

/-- The `log_ok` of `raft_handle_request_vote`: the candidate's log is at least as up to date
as the node's own. -/
def logOk (node : RaftNode) (req : RaftRequestVoteReq) : Bool :=
  if req.lastLogTerm > node.log.lastTerm then true
  else if req.lastLogTerm = node.log.lastTerm ∧ req.lastLogIndex ≥ node.log.count then true
  else false

/-- `raft_handle_request_vote`.  The reply is written over the message `resp` of the caller,
with the term the node had when the request came. -/
def raftHandleRequestVote (clk : Clock) (node : RaftNode) (req : RaftMsg RaftRequestVoteReq)
    (resp : RaftMsg RaftRequestVoteResp) : RaftNode × RaftMsg RaftRequestVoteResp :=
  let resp := { resp with
    rpcType := .respRequestVote
    term := node.currentTerm
    data := { voteGranted := false } }
  if req.term < node.currentTerm then (node, resp)
  else
    let node :=
      if req.term > node.currentTerm then
        { node with currentTerm := req.term, state := .follower, votedFor := 0 }
      else node
    if (node.votedFor = 0 ∨ node.votedFor = req.senderNodeId) ∧ logOk node req.data then
      ({ node with votedFor := u32 req.senderNodeId, lastHeartbeat := clk.time },
        { resp with data := { voteGranted := true } })
    else (node, resp)

/-- `raft_handle_append_entries`.  `none` is the failed assertion on the message type. -/
def raftHandleAppendEntries (clk : Clock) (node : RaftNode) (req : RaftMsg RaftAppendEntriesReq)
    (resp : RaftMsg RaftAppendEntriesResp) :
    Option (RaftNode × RaftMsg RaftAppendEntriesResp) :=
  if req.rpcType ≠ .appendEntries then none
  else
    let resp := { resp with
      term := node.currentTerm
      rpcType := .respAppendEntries
      data := { resp.data with success := false } }
    if req.term < node.currentTerm then some (node, resp)
    else
      let node :=
        if req.term > node.currentTerm then
          { node with currentTerm := req.term, votedFor := 0, state := .follower }
        else node
      let node := { node with lastHeartbeat := clk.time, leaderId := u32 req.senderNodeId }
      if req.data.prevLogIndex > 0 ∧
          (req.data.prevLogIndex > node.log.count ∨
            (node.log.entries[req.data.prevLogIndex - 1]?).map RaftEntry.term
              ≠ some req.data.prevLogTerm) then
        some (node, resp)
      else some (node, { resp with data := { resp.data with success := true } })

/-! ### What the handlers change -/

/-- The outcomes of `raft_handle_append_entries`, as far as the node is concerned. -/
inductive AppendEntriesOutcome (clk : Clock) (node : RaftNode)
    (req : RaftMsg RaftAppendEntriesReq) : RaftNode → Prop where
  | stale (h : req.term < node.currentTerm) : AppendEntriesOutcome clk node req node
  | same (h : req.term = node.currentTerm) :
      AppendEntriesOutcome clk node req
        { node with lastHeartbeat := clk.time, leaderId := u32 req.senderNodeId }
  | later (h : node.currentTerm < req.term) :
      AppendEntriesOutcome clk node req
        { node with
          currentTerm := req.term
          votedFor := 0
          state := .follower
          lastHeartbeat := clk.time
          leaderId := u32 req.senderNodeId }

lemma raftHandleAppendEntries_outcome {clk : Clock} {node node' : RaftNode}
    {req : RaftMsg RaftAppendEntriesReq} {resp resp' : RaftMsg RaftAppendEntriesResp}
    (h : raftHandleAppendEntries clk node req resp = some (node', resp')) :
    AppendEntriesOutcome clk node req node' := by
  unfold raftHandleAppendEntries at h
  split at h
  · cases h
  · simp only at h
    split at h
    · rename_i hlt
      obtain ⟨rfl, -⟩ : node = node' ∧ _ := by simpa using h
      exact .stale hlt
    · rename_i hlt
      by_cases hgt : req.term > node.currentTerm
      · simp only [hgt, if_true] at h
        split at h
        · obtain ⟨rfl, -⟩ := (Prod.mk.injEq .. ▸ Option.some.inj h)
          exact .later hgt
        · obtain ⟨rfl, -⟩ := (Prod.mk.injEq .. ▸ Option.some.inj h)
          exact .later hgt
      · have heq : req.term = node.currentTerm := by omega
        simp only [hgt, if_false] at h
        split at h
        · obtain ⟨rfl, -⟩ := (Prod.mk.injEq .. ▸ Option.some.inj h)
          exact .same heq
        · obtain ⟨rfl, -⟩ := (Prod.mk.injEq .. ▸ Option.some.inj h)
          exact .same heq

/-- The node's log has the entry in front of the ones that the request brings. -/
def LogMatches (log : RaftLog) (req : RaftAppendEntriesReq) : Prop :=
  req.prevLogIndex = 0 ∨
    (log.entries[req.prevLogIndex - 1]?).map RaftEntry.term = some req.prevLogTerm

instance (log : RaftLog) (req : RaftAppendEntriesReq) : Decidable (LogMatches log req) :=
  inferInstanceAs (Decidable (_ ∨ _))

/-- The check of `raft_handle_append_entries`, negated. -/
lemma logMatches_iff (log : RaftLog) (req : RaftAppendEntriesReq) :
    LogMatches log req ↔ ¬ (req.prevLogIndex > 0 ∧ (req.prevLogIndex > log.count ∨
      (log.entries[req.prevLogIndex - 1]?).map RaftEntry.term ≠ some req.prevLogTerm)) := by
  rw [LogMatches, not_and, not_or, not_not]
  constructor
  · rintro (hzero | hterm) hpos
    · omega
    · obtain ⟨e, he, -⟩ := Option.map_eq_some_iff.1 hterm
      obtain ⟨hlt, -⟩ := List.getElem?_eq_some_iff.1 he
      have hcount : log.count = log.entries.length := rfl
      exact ⟨by omega, hterm⟩
  · intro h
    by_cases hpos : req.prevLogIndex > 0
    · exact Or.inr (h hpos).2
    · exact Or.inl (by omega)

/-- The reply of `raft_handle_append_entries`: of the buffer `resp` it keeps the sender, the length,
and the index and the term of an entry. -/
lemma raftHandleAppendEntries_resp {clk : Clock} {node node' : RaftNode}
    {req : RaftMsg RaftAppendEntriesReq} {resp resp' : RaftMsg RaftAppendEntriesResp}
    (h : raftHandleAppendEntries clk node req resp = some (node', resp')) :
    resp' =
      { resp with
        term := node.currentTerm
        rpcType := .respAppendEntries
        data :=
          { resp.data with
            success := decide (node.currentTerm ≤ req.term ∧ LogMatches node.log req.data) } } := by
  have hlog : (if req.term > node.currentTerm then
      { node with currentTerm := req.term, votedFor := 0, state := .follower }
      else node).log = node.log := by
    split <;> rfl
  unfold raftHandleAppendEntries at h
  split at h
  · cases h
  · simp only [hlog] at h
    split at h
    · rename_i hlt
      obtain ⟨-, rfl⟩ := Prod.mk.injEq .. ▸ Option.some.inj h
      rw [decide_eq_false (fun hok => absurd hok.1 (not_le.2 hlt))]
    · rename_i hlt
      split at h
      · rename_i hmismatch
        obtain ⟨-, rfl⟩ := Prod.mk.injEq .. ▸ Option.some.inj h
        rw [decide_eq_false (fun hok => (logMatches_iff _ _).1 hok.2 hmismatch)]
      · rename_i hmatch
        obtain ⟨-, rfl⟩ := Prod.mk.injEq .. ▸ Option.some.inj h
        rw [decide_eq_true ⟨not_lt.1 hlt, (logMatches_iff _ _).2 hmatch⟩]

/-- The outcomes of `raft_handle_request_vote`: the node afterwards, and whether the vote was
granted. -/
inductive RequestVoteOutcome (clk : Clock) (node : RaftNode) (req : RaftMsg RaftRequestVoteReq) :
    RaftNode → Bool → Prop where
  | refuse (h : req.term ≤ node.currentTerm) : RequestVoteOutcome clk node req node false
  | refuseLater (h : node.currentTerm < req.term) :
      RequestVoteOutcome clk node req
        { node with currentTerm := req.term, state := .follower, votedFor := 0 } false
  | grant (h : req.term = node.currentTerm)
      (hfree : node.votedFor = 0 ∨ node.votedFor = req.senderNodeId)
      (hlog : logOk node req.data = true) :
      RequestVoteOutcome clk node req
        { node with votedFor := u32 req.senderNodeId, lastHeartbeat := clk.time } true
  | grantLater (h : node.currentTerm < req.term) (hlog : logOk node req.data = true) :
      RequestVoteOutcome clk node req
        { node with
          currentTerm := req.term
          state := .follower
          votedFor := u32 req.senderNodeId
          lastHeartbeat := clk.time } true

lemma raftHandleRequestVote_outcome {clk : Clock} {node node' : RaftNode}
    {req : RaftMsg RaftRequestVoteReq} {resp resp' : RaftMsg RaftRequestVoteResp}
    (h : raftHandleRequestVote clk node req resp = (node', resp')) :
    RequestVoteOutcome clk node req node' resp'.data.voteGranted := by
  unfold raftHandleRequestVote at h
  simp only at h
  split at h
  · rename_i hlt
    obtain ⟨rfl, rfl⟩ := (Prod.mk.injEq .. ▸ h)
    exact .refuse (le_of_lt hlt)
  · rename_i hlt
    by_cases hgt : req.term > node.currentTerm
    · simp only [hgt, if_true] at h
      split at h
      · rename_i hc
        obtain ⟨rfl, rfl⟩ := (Prod.mk.injEq .. ▸ h)
        exact .grantLater hgt hc.2
      · obtain ⟨rfl, rfl⟩ := (Prod.mk.injEq .. ▸ h)
        exact .refuseLater hgt
    · have heq : req.term = node.currentTerm := by omega
      simp only [hgt, if_false] at h
      split at h
      · rename_i hc
        obtain ⟨rfl, rfl⟩ := (Prod.mk.injEq .. ▸ h)
        exact .grant heq hc.1 hc.2
      · obtain ⟨rfl, rfl⟩ := (Prod.mk.injEq .. ▸ h)
        exact .refuse (le_of_eq heq)

/-- The reply to a vote request carries the term the node had before the request. -/
lemma raftHandleRequestVote_respTerm (clk : Clock) (node : RaftNode)
    (req : RaftMsg RaftRequestVoteReq) (resp : RaftMsg RaftRequestVoteResp) :
    (raftHandleRequestVote clk node req resp).2.term = node.currentTerm := by
  unfold raftHandleRequestVote
  simp only
  split
  · rfl
  · split <;> split <;> rfl

end Oceanliner
