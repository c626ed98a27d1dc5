/-
The Raft node (`raft_core.h`) and its log.

Fields that only other subsystems use are left out: the state machine pointer and the apply
thread (see `Oceanliner.RaftCore.Apply`), the mutex, which every operation below holds for
as long as it runs, and the adaptive timeout, whose calls change nothing else in the node.
-/
import Oceanliner.CommandBatcher

namespace Oceanliner

/-- `raft_state_t`. -/
inductive RaftState where
  | follower
  | candidate
  | leader
deriving DecidableEq, Repr

/-- `raft_entry_type_t`. -/
inductive RaftEntryType where
  | noop
  | command
deriving DecidableEq, Repr

/-- `raft_entry_t`; `data_len` is the length of `data`. -/
structure RaftEntry where
  term : ℕ
  index : ℕ
  type : RaftEntryType
  data : List UInt8
deriving DecidableEq, Repr

/-- `sizeof(raft_entry_t)`. -/
def sizeofRaftEntry : ℕ := 40

/-- `raft_log_t`.  The entries lie in an array of `capacity` places, which is an object in
memory, so its size in bytes is a `size_t`. -/
structure RaftLog where
  entries : List RaftEntry
  capacity : ℕ
  count_le : entries.length ≤ capacity
  capacity_pos : 0 < capacity
  fits : capacity * sizeofRaftEntry < 2 ^ 64
deriving DecidableEq

namespace RaftLog

/-- The field `count`. -/
def count (log : RaftLog) : ℕ := log.entries.length

/-- The term of the last entry, `0` for an empty log. -/
def lastTerm (log : RaftLog) : ℕ :=
  match log.entries.getLast? with
  | some e => e.term
  | none => 0

/-- The store of one entry behind the last one, doubling the array when it is full.  `none`
is a `realloc` that fails, which it does at the latest when the array would outgrow the
address space. -/
def push (log : RaftLog) (entry : RaftEntry) : Option RaftLog :=
  if h : log.entries.length < log.capacity then
    some
      { entries := log.entries ++ [entry]
        capacity := log.capacity
        count_le := by
          rw [List.length_append, List.length_singleton]
          omega
        capacity_pos := log.capacity_pos
        fits := log.fits }
  else if h' : log.capacity * 2 * sizeofRaftEntry < 2 ^ 64 then
    some
      { entries := log.entries ++ [entry]
        capacity := log.capacity * 2
        count_le := by
          have h1 := log.count_le
          have h2 := log.capacity_pos
          rw [List.length_append, List.length_singleton]
          omega
        capacity_pos := by
          have h2 := log.capacity_pos
          omega
        fits := h' }
  else none

/-- The array of entries is much smaller than the address space. -/
lemma count_succ_lt (log : RaftLog) : log.count + 1 < 2 ^ 63 := by
  have hle : log.count ≤ log.capacity := log.count_le
  have hfits := log.fits
  rw [sizeofRaftEntry] at hfits
  omega

/-- The array can take one more entry: it is not full, or it can be doubled. -/
def HasRoom (log : RaftLog) : Prop :=
  log.entries.length < log.capacity ∨ log.capacity * 2 * sizeofRaftEntry < 2 ^ 64

instance (log : RaftLog) : Decidable log.HasRoom :=
  inferInstanceAs (Decidable (_ ∨ _))

lemma push_eq_none {log : RaftLog} {entry : RaftEntry} (h : log.push entry = none) :
    ¬ log.HasRoom := by
  rintro (hroom | hroom)
  · simp [push, hroom] at h
  · simp only [push, hroom, dite_true] at h
    split at h <;> cases h

lemma hasRoom_of_push {log log' : RaftLog} {entry : RaftEntry}
    (h : log.push entry = some log') : log.HasRoom := by
  unfold push at h
  split at h
  · rename_i hroom
    exact .inl hroom
  · split at h
    · rename_i hroom
      exact .inr hroom
    · cases h

lemma push_entries {log log' : RaftLog} {entry : RaftEntry}
    (h : log.push entry = some log') : log'.entries = log.entries ++ [entry] := by
  unfold push at h
  split at h
  · obtain rfl := Option.some.inj h
    rfl
  · split at h
    · obtain rfl := Option.some.inj h
      rfl
    · cases h

end RaftLog

/-- `INITIAL_LOG_CAPACITY`. -/
def initialLogCapacity : ℕ := 1024

/-- `log_init`. -/
def logInit : RaftLog where
  entries := []
  capacity := initialLogCapacity
  count_le := Nat.zero_le _
  capacity_pos := by decide
  fits := by decide

/-- `raft_node_t`. -/
structure RaftNode where
  state : RaftState
  nodeId : ℕ
  currentTerm : ℕ
  votedFor : ℕ
  votesReceived : ℕ
  lastHeartbeat : ℕ
  leaderId : ℕ
  log : RaftLog
  commitIndex : ℕ
  lastApplied : ℕ
  nextIndex : Fin maxNodes → ℕ
  matchIndex : Fin maxNodes → ℕ
  commandBatcher : CommandBatcher

/-- What the clocks say when an operation runs: `time(NULL)`, in seconds, and the monotonic
clock, in milliseconds. -/
structure Clock where
  time : ℕ
  monotonic : ℕ
deriving DecidableEq, Repr

/-- `raft_init`, when its allocations succeed. -/
def raftInit (nodeId : ℕ) (clk : Clock) : RaftNode where
  state := .follower
  nodeId := nodeId
  currentTerm := 0
  votedFor := 0
  votesReceived := 0
  lastHeartbeat := clk.time
  leaderId := 0
  log := logInit
  commitIndex := 0
  lastApplied := 0
  nextIndex := fun _ => 1
  matchIndex := fun _ => 0
  commandBatcher := commandBatcherInit defaultBatchDelayMs clk.monotonic

/-! ### Changing the role -/

/-- `raft_become_candidate`. -/
def raftBecomeCandidate (clk : Clock) (node : RaftNode) : RaftNode :=
  { node with
    state := .candidate
    currentTerm := u64 (node.currentTerm + 1)
    votedFor := node.nodeId
    votesReceived := 1
    leaderId := 0
    lastHeartbeat := clk.time }

/-- `raft_start_election`, which unlike `raft_become_candidate` keeps `leader_id`. -/
def raftStartElection (clk : Clock) (node : RaftNode) : RaftNode :=
  { node with
    state := .candidate
    currentTerm := u64 (node.currentTerm + 1)
    votedFor := node.nodeId
    votesReceived := 1
    lastHeartbeat := clk.time }

/-- `raft_become_leader`. -/
def raftBecomeLeader (node : RaftNode) : RaftNode :=
  { node with
    state := .leader
    leaderId := node.nodeId
    nextIndex := fun _ => u64 (node.log.count + 1)
    matchIndex := fun _ => 0
    commandBatcher := commandBatcherStart node.commandBatcher }

/-- `raft_record_vote`: whether the votes are a majority now. -/
def raftRecordVote (node : RaftNode) : Bool × RaftNode :=
  if node.state ≠ .candidate then (false, node)
  else
    let node' := { node with votesReceived := u32 (node.votesReceived + 1) }
    (decide (node'.votesReceived > maxNodes / 2), node')

/-! ### The log -/

/-- `raft_create_entry`.  The index is set when the entry is appended. -/
def raftCreateEntry (term : ℕ) (type : RaftEntryType) (data : List UInt8) (dataLen : ℕ) :
    RaftEntry :=
  { term := term, index := 0, type := type, data := data.take dataLen }

/-- `raft_append_entry`; `none` is the failed allocation, where it returns `-1`. -/
def raftAppendEntry (node : RaftNode) (entry : RaftEntry) : Option RaftNode :=
  (node.log.push { entry with index := node.log.count + 1 }).map fun log =>
    { node with log := log }

/-- `raft_replicate_logs`. -/
def raftReplicateLogs (node : RaftNode) : RaftNode :=
  if node.state ≠ .leader then node
  else
    { node with
      nextIndex := fun i =>
        if i.val = node.nodeId then node.nextIndex i
        else if node.nextIndex i ≤ node.log.count then node.nextIndex i + 1
        else node.nextIndex i }

/-- What an append changes in the node: the log, by one entry at its end. -/
lemma raftAppendEntry_spec {node node' : RaftNode} {entry : RaftEntry}
    (h : raftAppendEntry node entry = some node') :
    ∃ log, node' = { node with log := log } ∧
      log.entries = node.log.entries ++ [{ entry with index := node.log.count + 1 }] := by
  unfold raftAppendEntry at h
  obtain ⟨log, hlog, rfl⟩ := Option.map_eq_some_iff.1 h
  exact ⟨log, rfl, RaftLog.push_entries hlog⟩

section ReplicateLogs

variable (node : RaftNode)

@[simp] lemma raftReplicateLogs_log : (raftReplicateLogs node).log = node.log := by
  unfold raftReplicateLogs
  split <;> rfl

@[simp] lemma raftReplicateLogs_state : (raftReplicateLogs node).state = node.state := by
  unfold raftReplicateLogs
  split <;> rfl

@[simp] lemma raftReplicateLogs_currentTerm :
    (raftReplicateLogs node).currentTerm = node.currentTerm := by
  unfold raftReplicateLogs
  split <;> rfl

@[simp] lemma raftReplicateLogs_commandBatcher :
    (raftReplicateLogs node).commandBatcher = node.commandBatcher := by
  unfold raftReplicateLogs
  split <;> rfl

end ReplicateLogs

end Oceanliner
