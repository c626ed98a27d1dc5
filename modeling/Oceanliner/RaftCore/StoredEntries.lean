/-
# What an accepted AppendEntries stores

`raft_handle_append_entries` checks the entry in front of the batch and says `success`.  It
stores nothing, commits nothing and leaves the index and the term in its reply as the buffer of
the caller had them, so that what the header promises of a success holds only where there was
nothing left to do (`append_entries_stored_iff`).
-/
import Oceanliner.KvsCommand
import Oceanliner.RaftCore.Rpc

namespace Oceanliner

/-! ### Storing an entry -/

section Stores

variable {E : Type*}

/-- The log `new` is the log `old` with the entry `e` stored behind the first `n`: these are as
they were, and where there was no such entry there, nothing of the old log is left behind it. -/
structure Stores (old : List E) (n : ℕ) (e : E) (new : List E) : Prop where
  agrees : new.take n = old.take n
  holds : new[n]? = some e
  no_conflict : old[n]? ≠ some e → new.length = n + 1

/-- Leaving a log as it is stores the entries that are there. -/
lemma stores_self_iff {log : List E} {n : ℕ} {e : E} : Stores log n e log ↔ log[n]? = some e :=
  ⟨Stores.holds, fun h => ⟨rfl, h, fun hne => absurd h hne⟩⟩

/-- Storing an entry is possible wherever the log has all the entries in front of it. -/
lemma exists_stores {log : List E} {n : ℕ} (hn : n ≤ log.length) (e : E) :
    ∃ new, Stores log n e new := by
  by_cases he : log[n]? = some e
  · exact ⟨log, stores_self_iff.2 he⟩
  · refine ⟨log.take n ++ [e], ?_, ?_, fun _ => ?_⟩
    · rw [List.take_append_of_le_length (by rw [List.length_take]; omega), List.take_take,
        min_self]
    · rw [List.getElem?_append_right (by rw [List.length_take]; omega), List.length_take,
        min_eq_left hn, Nat.sub_self, List.getElem?_cons_zero]
    · rw [List.length_append, List.length_take, min_eq_left hn, List.length_singleton]

end Stores

/-- The log entry for the batch of a request. -/
def batchEntry (req : RaftAppendEntriesReq) : RaftEntry where
  term := req.entries.header.term
  index := req.prevLogIndex + 1
  type := .command
  data := req.entries.data

/-- The term of the last committed entry, `0` when nothing has been committed. -/
def RaftNode.commitTerm (node : RaftNode) : ℕ :=
  if node.commitIndex = 0 then 0
  else ((node.log.entries[node.commitIndex - 1]?).map RaftEntry.term).getD 0

/-- An accepted batch can be stored. -/
lemma LogMatches.exists_stores {log : RaftLog} {req : RaftAppendEntriesReq}
    (h : LogMatches log req) :
    ∃ new, Stores log.entries req.prevLogIndex (batchEntry req) new := by
  refine Oceanliner.exists_stores ?_ _
  rcases h with hzero | hterm
  · omega
  · obtain ⟨e, he, -⟩ := Option.map_eq_some_iff.1 hterm
    obtain ⟨hlt, -⟩ := List.getElem?_eq_some_iff.1 he
    omega

/-- What a success of an AppendEntries means. -/
structure SuccessMeansStored (node : RaftNode) (req : RaftAppendEntriesReq) (node' : RaftNode)
    (resp : RaftAppendEntriesResp) : Prop where
  stores : Stores node.log.entries req.prevLogIndex (batchEntry req) node'.log.entries
  commitIndex : node'.commitIndex =
    max node.commitIndex (min req.leaderCommit (batchEntry req).index)
  logIdx : resp.logIdx = (batchEntry req).index
  term : resp.term = (batchEntry req).term

/-- What a refusal of an AppendEntries means. -/
structure FailureMeansUnchanged (node node' : RaftNode) (resp : RaftAppendEntriesResp) :
    Prop where
  log : node'.log = node.log
  commitIndex : node'.commitIndex = node.commitIndex
  logIdx : resp.logIdx = node.commitIndex
  term : resp.term = node.commitTerm

/-- What the answer to an AppendEntries means, with the node before and after it. -/
def AnswerMeans (node : RaftNode) (req : RaftAppendEntriesReq) (node' : RaftNode)
    (resp : RaftAppendEntriesResp) : Prop :=
  if resp.success then SuccessMeansStored node req node' resp
  else FailureMeansUnchanged node node' resp

/-! ### The handler -/

/-- The handler touches neither the log nor the commit index. -/
lemma raftHandleAppendEntries_log {clk : Clock} {node node' : RaftNode}
    {req : RaftMsg RaftAppendEntriesReq} {resp resp' : RaftMsg RaftAppendEntriesResp}
    (h : raftHandleAppendEntries clk node req resp = some (node', resp')) :
    node'.log = node.log ∧ node'.commitIndex = node.commitIndex := by
  cases raftHandleAppendEntries_outcome h with
  | stale hlt => exact ⟨rfl, rfl⟩
  | same heq => exact ⟨rfl, rfl⟩
  | later hlt => exact ⟨rfl, rfl⟩

/-- There is nothing left to do for the request: where it is accepted, the log has the batch, the
commit index is as far as the leader's, and the reply buffer names the entry; where it is refused,
the reply buffer names the last committed entry. -/
def NothingToDo (node : RaftNode) (req : RaftMsg RaftAppendEntriesReq)
    (buffer : RaftAppendEntriesResp) : Prop :=
  if node.currentTerm ≤ req.term ∧ LogMatches node.log req.data then
    node.log.entries[req.data.prevLogIndex]? = some (batchEntry req.data) ∧
      min req.data.leaderCommit (batchEntry req.data).index ≤ node.commitIndex ∧
      buffer.logIdx = (batchEntry req.data).index ∧ buffer.term = (batchEntry req.data).term
  else buffer.logIdx = node.commitIndex ∧ buffer.term = node.commitTerm

lemma successMeansStored_iff {node node' : RaftNode} {req : RaftAppendEntriesReq}
    {resp : RaftAppendEntriesResp} (hlog : node'.log = node.log)
    (hcommit : node'.commitIndex = node.commitIndex) :
    SuccessMeansStored node req node' resp ↔
      node.log.entries[req.prevLogIndex]? = some (batchEntry req) ∧
        min req.leaderCommit (batchEntry req).index ≤ node.commitIndex ∧
        resp.logIdx = (batchEntry req).index ∧ resp.term = (batchEntry req).term := by
  constructor
  · rintro ⟨hstores, hmax, hidx, hterm⟩
    rw [hlog, stores_self_iff] at hstores
    rw [hcommit] at hmax
    exact ⟨hstores, left_eq_sup.1 hmax, hidx, hterm⟩
  · rintro ⟨hholds, hle, hidx, hterm⟩
    refine ⟨?_, ?_, hidx, hterm⟩
    · rw [hlog, stores_self_iff]
      exact hholds
    · rw [hcommit]
      exact left_eq_sup.2 hle

lemma failureMeansUnchanged_iff {node node' : RaftNode} {resp : RaftAppendEntriesResp}
    (hlog : node'.log = node.log) (hcommit : node'.commitIndex = node.commitIndex) :
    FailureMeansUnchanged node node' resp ↔
      resp.logIdx = node.commitIndex ∧ resp.term = node.commitTerm :=
  ⟨fun h => ⟨h.logIdx, h.term⟩, fun h => ⟨hlog, hcommit, h.1, h.2⟩⟩

/-- **What the answer to an AppendEntries is worth.**  It means what the header says exactly when
there was nothing left to do. -/
theorem append_entries_stored_iff {clk : Clock} {node node' : RaftNode}
    {req : RaftMsg RaftAppendEntriesReq} {resp resp' : RaftMsg RaftAppendEntriesResp}
    (h : raftHandleAppendEntries clk node req resp = some (node', resp')) :
    AnswerMeans node req.data node' resp'.data ↔ NothingToDo node req resp.data := by
  obtain ⟨hlog, hcommit⟩ := raftHandleAppendEntries_log h
  rw [raftHandleAppendEntries_resp h, AnswerMeans, NothingToDo]
  by_cases haccept : node.currentTerm ≤ req.term ∧ LogMatches node.log req.data
  · simp only [decide_eq_true haccept, if_true, if_pos haccept]
    exact successMeansStored_iff hlog hcommit
  · simp only [decide_eq_false haccept, if_neg haccept, Bool.false_eq_true, if_false]
    exact failureMeansUnchanged_iff hlog hcommit

/-- The first AppendEntries of the leader of term `1`, with a SET of the key `"k"`. -/
def firstBatchMsg : RaftMsg RaftAppendEntriesReq where
  bodyLength := 120
  term := 1
  senderNodeId := 2
  rpcType := .appendEntries
  data := ⟨0, 0, 0, 1, ⟨⟨1, 1, 1, 40, (0, 0)⟩, shortBytes 2⟩⟩

/-- A node whose log has the batch already. -/
def nodeWithFirstBatch : RaftNode :=
  (raftAppendEntry (raftInit 1 ⟨0, 0⟩) (raftCreateEntry 1 .command (shortBytes 2) 40)).getD
    (raftInit 1 ⟨0, 0⟩)

/-- The batch comes a second time, with a reply buffer that names it. -/
theorem append_entries_stored_again :
    ∃ node' resp', raftHandleAppendEntries ⟨0, 0⟩ nodeWithFirstBatch firstBatchMsg
        ⟨0, 0, 0, .appendEntries, ⟨false, 1, 1⟩⟩ = some (node', resp') ∧
      resp'.data.success = true ∧
      AnswerMeans nodeWithFirstBatch firstBatchMsg.data node' resp'.data := by
  refine ⟨_, _, rfl, rfl, (append_entries_stored_iff rfl).2 ?_⟩
  rw [NothingToDo, if_pos ⟨by decide, Or.inl rfl⟩]
  exact ⟨by decide, by decide, rfl, rfl⟩

/-- The batch comes to a node with an empty log: the node answers with success, and its log is
still empty. -/
theorem append_entries_not_stored :
    ∃ node' resp', raftHandleAppendEntries ⟨0, 0⟩ (raftInit 1 ⟨0, 0⟩) firstBatchMsg
        ⟨0, 0, 0, .appendEntries, ⟨false, 0, 0⟩⟩ = some (node', resp') ∧
      resp'.data.success = true ∧ node'.log.entries = [] ∧
      ¬ AnswerMeans (raftInit 1 ⟨0, 0⟩) firstBatchMsg.data node' resp'.data := by
  refine ⟨_, _, rfl, rfl, rfl, fun h => ?_⟩
  have hstored : SuccessMeansStored (raftInit 1 ⟨0, 0⟩) firstBatchMsg.data _ _ := h
  have hlog := hstored.stores.holds
  cases hlog

end Oceanliner
