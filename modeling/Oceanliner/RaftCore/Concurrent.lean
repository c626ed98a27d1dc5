/-
# The operations of a node as code of threads

Every function of `raft_core.c` as the `Code` of the thread that runs it, with each operation of
`node->mutex` on each of its paths, and with the code that comes after its return as an argument.
What is done between them to the node is that of the functions on `RaftNode`.  Sections under
`batch_mutex`, inside which no thread waits, are one test or one action.

The caller of the operations is one thread; the batch thread and the apply thread are its
workers.  `raft_create_entry` and `raft_free_entry`, which have no node, are left out, and so are
the adaptive timeout, which has a mutex of its own, and the messages the senders write.
-/
import Oceanliner.Lib.Locking
import Oceanliner.RaftCore.Client
import Oceanliner.RaftCore.Rpc

open Locking

namespace Oceanliner

/-- The threads of a node. -/
inductive Party where
  | caller
  | batchThread
  | applyThread
deriving DecidableEq, Repr

/-- What a step sees from outside: the clocks, and whether an allocation or the creation of a
thread succeeds. -/
structure Input where
  clk : Clock
  ok : Bool
deriving DecidableEq, Repr

instance : Inhabited Input := ⟨⟨⟨0, 0⟩, true⟩⟩

/-- What the threads share: the node, the flag `applying_entries`, and whether there is a state
machine.  `batch` and `entry` are what a thread has on its stack in the callback of the batcher;
`destroyed` is set when the node has been freed. -/
structure Shared where
  node : RaftNode
  applying : Bool
  stateMachine : Bool
  destroyed : Bool
  batch : Party → CommandBatch
  entry : Party → RaftEntry

namespace Shared

variable (d : Shared)

/-- The node is a leader. -/
def isLeader : Bool := decide (d.node.state = .leader)

/-- The flag `active` of the batcher. -/
def active : Bool := d.node.commandBatcher.active

/-- The number of commands in the current batch. -/
def pending : ℕ := d.node.commandBatcher.currentBatch.numCommands

/-- The node is changed by `f`. -/
def mapNode (f : RaftNode → RaftNode) : Shared := { d with node := f d.node }

/-- The flag `active` is set to `b`. -/
def setActive (b : Bool) : Shared :=
  d.mapNode fun node => { node with commandBatcher := { node.commandBatcher with active := b } }

/-- The thread `t` has a new entry. -/
def setEntry (t : Party) (entry : RaftEntry) : Shared :=
  { d with entry := Function.update d.entry t entry }

/-- The thread `t` copies the current batch and starts a new one. -/
def takeBatch (t : Party) (now : ℕ) : Shared :=
  { d.mapNode fun node =>
      { node with commandBatcher := commandBatcherNewBatch node.commandBatcher now } with
    batch := Function.update d.batch t d.node.commandBatcher.currentBatch }

end Shared

namespace Concurrent

/-- The code of a thread of a node. -/
abbrev NodeCode := Code Input Shared Party

variable (k : NodeCode)

/-! ### The log -/

/-- `raft_append_entry`, with the entry of the thread `t`. -/
def raftAppendEntry (t : Party) : NodeCode :=
  .lock <|
    .ite (fun _ d => (Oceanliner.raftAppendEntry d.node (d.entry t)).isNone) (.unlock k) <|
      .act
        (fun _ d => d.mapNode fun node =>
          (Oceanliner.raftAppendEntry node (d.entry t)).getD node)
        (.unlock k)

/-- The loop of `raft_replicate_logs`, which does not look at the state again. -/
def advanceNextIndex (node : RaftNode) : RaftNode :=
  { node with
    nextIndex := fun i =>
      if i.val = node.nodeId then node.nextIndex i
      else if node.nextIndex i ≤ node.log.count then node.nextIndex i + 1
      else node.nextIndex i }

/-- `raft_replicate_logs`. -/
def raftReplicateLogs : NodeCode :=
  .ite (fun _ d => !d.isLeader) k <|
    .lock <| .act (fun _ d => d.mapNode advanceNextIndex) (.unlock k)

/-- `process_raft_batch`, on the batch of the thread `t`. -/
def processRaftBatch (t : Party) : NodeCode :=
  .act
    (fun _ d => d.setEntry t
      (raftCreateEntry d.node.currentTerm .command (d.batch t).commands (d.batch t).totalLength)) <|
    raftAppendEntry (.ite (fun _ d => d.isLeader) (raftReplicateLogs k) k) t

/-! ### The command batcher -/

/-- `command_batcher_start`. -/
def commandBatcherStart : NodeCode :=
  .ite (fun _ d => d.active) k <|
    .act (fun _ d => d.setActive true) <|
      .ite (fun x _ => x.ok) (.fork .batchThread k) (.act (fun _ d => d.setActive false) k)

/-- `command_batcher_stop`. -/
def commandBatcherStop : NodeCode :=
  .ite (fun _ d => !d.active) k <|
    .act (fun _ d => d.setActive false) <|
      .join .batchThread <|
        .test (fun _ d => decide (d.pending > 0)) (fun x d => d.takeBatch .caller x.clk.monotonic)
          (processRaftBatch k .caller) k

/-- One pass of the loop of `batch_processor_thread`. -/
def batchPass : NodeCode :=
  .test (fun x d => shouldFlush d.node.commandBatcher x.clk.monotonic)
    (fun x d => d.takeBatch .batchThread x.clk.monotonic)
    (processRaftBatch .again .batchThread) .again

/-! ### Changing the role -/

/-- The part of `raft_become_follower` behind the stop of the batcher. -/
def followerTail (term : ℕ) : NodeCode :=
  .act (fun x d => d.mapNode (followerFields x.clk term)) (.unlock k)

/-- `raft_become_follower`. -/
def raftBecomeFollower (term : ℕ) : NodeCode :=
  .lock <|
    .ite (fun _ d => d.isLeader) (commandBatcherStop (followerTail k term)) (followerTail k term)

/-- `raft_become_candidate`. -/
def raftBecomeCandidate : NodeCode :=
  .lock <| .act (fun x d => d.mapNode (Oceanliner.raftBecomeCandidate x.clk)) (.unlock k)

/-- What `raft_become_leader` writes to the node. -/
def leaderFields (node : RaftNode) : RaftNode :=
  { node with
    state := .leader
    leaderId := node.nodeId
    nextIndex := fun _ => u64 (node.log.count + 1)
    matchIndex := fun _ => 0 }

/-- `raft_become_leader`. -/
def raftBecomeLeader : NodeCode :=
  .lock <| .act (fun _ d => d.mapNode leaderFields) (commandBatcherStart (.unlock k))

/-- `raft_start_election`. -/
def raftStartElection : NodeCode :=
  .lock <| .act (fun x d => d.mapNode (Oceanliner.raftStartElection x.clk)) (.unlock k)

/-- `raft_record_vote`; the state is read before the mutex is taken. -/
def raftRecordVote : NodeCode :=
  .ite (fun _ d => decide (d.node.state ≠ .candidate)) k <|
    .lock <|
      .act
        (fun _ d => d.mapNode fun node =>
          { node with votesReceived := u32 (node.votesReceived + 1) })
        (.unlock k)

/-- `raft_check_election_timeout`, which changes nothing in the node. -/
def raftCheckElectionTimeout : NodeCode := .lock (.unlock k)

/-- `raft_reset_election_timer`, which does not take the mutex. -/
def raftResetElectionTimer : NodeCode :=
  .act (fun x d => d.mapNode fun node => { node with lastHeartbeat := x.clk.time }) k

/-- `raft_check_heartbeat_status`, which neither takes the mutex nor changes the node. -/
def raftCheckHeartbeatStatus : NodeCode := k

/-! ### Messages -/

/-- `raft_handle_append_entries`, past the assertion on the message type. -/
def raftHandleAppendEntries (req : RaftMsg RaftAppendEntriesReq)
    (resp : RaftMsg RaftAppendEntriesResp) : NodeCode :=
  .lock <|
    .ite (fun _ d => decide (req.term < d.node.currentTerm)) (.unlock k) <|
      .act
        (fun x d => d.mapNode fun node =>
          ((Oceanliner.raftHandleAppendEntries x.clk node req resp).map Prod.fst).getD node) <|
        .ite
          (fun _ d => decide (req.data.prevLogIndex > 0 ∧ req.data.prevLogIndex > d.node.log.count))
          (.unlock k) <|
          .ite (fun _ d => decide ¬ LogMatches d.node.log req.data) (.unlock k) (.unlock k)

/-- `raft_handle_request_vote`. -/
def raftHandleRequestVote (req : RaftMsg RaftRequestVoteReq)
    (resp : RaftMsg RaftRequestVoteResp) : NodeCode :=
  .lock <|
    .ite (fun _ d => decide (req.term < d.node.currentTerm)) (.unlock k) <|
      .act
        (fun x d => d.mapNode fun node => (Oceanliner.raftHandleRequestVote x.clk node req resp).1)
        (.unlock k)

/-- `raft_send_append_entries`, as far as the node is concerned. -/
def raftSendAppendEntries (targetId : Fin maxNodes) (entriesLen : ℕ) : NodeCode :=
  .lock <|
    .act
      (fun _ d => d.mapNode fun node =>
        { node with
          nextIndex := Function.update node.nextIndex targetId
            (u64 (node.nextIndex targetId + entriesLen)) })
      (.unlock k)

/-- `raft_send_request_vote`, which changes nothing in the node. -/
def raftSendRequestVote : NodeCode := .lock (.unlock k)

/-- `raft_handle_client_command`; the length of a record is that of its bytes. -/
def raftHandleClientCommand (cmd : KvsRecord) : NodeCode :=
  .ite (fun _ d => !d.isLeader) k <|
    .test (fun _ d => (commandBatcherAddCommand d.node.commandBatcher cmd.bytes).1)
      (fun _ d => d.mapNode fun node =>
        { node with
          commandBatcher := (commandBatcherAddCommand node.commandBatcher cmd.bytes).2 })
      k <|
      .act
        (fun _ d => d.setEntry .caller
          (raftCreateEntry d.node.currentTerm .command cmd.bytes cmd.bytes.length)) <|
        raftAppendEntry (raftReplicateLogs k) .caller

/-! ### The state machine -/

/-- `raft_apply_committed_entries`: the loop stops at the commit index or at the end of the log. -/
def raftApplyCommittedEntries : NodeCode :=
  .ite (fun _ d => !d.stateMachine) k <|
    .lock <|
      .ite (fun _ d => decide (d.node.lastApplied ≥ d.node.commitIndex)) (.unlock k) <|
        .act
          (fun _ d => d.mapNode fun node =>
            { node with
              lastApplied := max node.lastApplied (min node.commitIndex node.log.count) })
          (.unlock k)

/-- One pass of the loop of `apply_thread_func`. -/
def applyPass : NodeCode := raftApplyCommittedEntries .again

/-- `raft_start_apply_thread`. -/
def raftStartApplyThread : NodeCode :=
  .lock <|
    .ite (fun _ d => d.applying) (.unlock k) <|
      .act (fun _ d => { d with applying := true }) <|
        .ite (fun x _ => x.ok) (.fork .applyThread (.unlock k))
          (.act (fun _ d => { d with applying := false }) (.unlock k))

/-- `raft_stop_apply_thread`, which releases the mutex before it waits. -/
def raftStopApplyThread : NodeCode :=
  .lock <|
    .ite (fun _ d => !d.applying) (.unlock k) <|
      .act (fun _ d => { d with applying := false }) (.unlock (.join .applyThread k))

/-- `raft_init_state_machine`. -/
def raftInitStateMachine : NodeCode :=
  .lock <|
    .ite (fun x _ => !x.ok) (.unlock k) (.act (fun _ d => { d with stateMachine := true }) (.unlock k))

/-- `raft_destroy`; `command_batcher_destroy` stops a batcher that is still active once more. -/
def raftDestroy : NodeCode :=
  let free := Code.act (fun _ d => { d with destroyed := true }) k
  let stopBatcher :=
    commandBatcherStop (.ite (fun _ d => d.active) (commandBatcherStop free) free)
  .ite (fun _ d => d.applying) (raftStopApplyThread stopBatcher) stopBatcher

/-! ### Calls -/

/-- The operations of `raft_core.h` on a node, with their arguments. -/
inductive Operation where
  | becomeFollower (term : ℕ)
  | becomeCandidate
  | becomeLeader
  | startElection
  | recordVote
  | checkElectionTimeout
  | resetElectionTimer
  | checkHeartbeatStatus
  | appendEntry (entry : RaftEntry)
  | replicateLogs
  | handleAppendEntries (req : RaftMsg RaftAppendEntriesReq) (resp : RaftMsg RaftAppendEntriesResp)
      (h : req.rpcType = .appendEntries)
  | handleRequestVote (req : RaftMsg RaftRequestVoteReq) (resp : RaftMsg RaftRequestVoteResp)
  | sendAppendEntries (targetId : Fin maxNodes) (entriesLen : ℕ)
  | sendRequestVote
  | handleClientCommand (cmd : KvsRecord)
  | applyCommittedEntries
  | startApplyThread
  | stopApplyThread
  | initStateMachine
  | destroy

/-- The code of a call. -/
def Operation.code : Operation → NodeCode
  | .becomeFollower term => raftBecomeFollower .done term
  | .becomeCandidate => raftBecomeCandidate .done
  | .becomeLeader => raftBecomeLeader .done
  | .startElection => raftStartElection .done
  | .recordVote => raftRecordVote .done
  | .checkElectionTimeout => raftCheckElectionTimeout .done
  | .resetElectionTimer => raftResetElectionTimer .done
  | .checkHeartbeatStatus => raftCheckHeartbeatStatus .done
  | .appendEntry entry => .act (fun _ d => d.setEntry .caller entry) (raftAppendEntry .done .caller)
  | .replicateLogs => raftReplicateLogs .done
  | .handleAppendEntries req resp _ => raftHandleAppendEntries .done req resp
  | .handleRequestVote req resp => raftHandleRequestVote .done req resp
  | .sendAppendEntries targetId entriesLen => raftSendAppendEntries .done targetId entriesLen
  | .sendRequestVote => raftSendRequestVote .done
  | .handleClientCommand cmd => raftHandleClientCommand .done cmd
  | .applyCommittedEntries => raftApplyCommittedEntries .done
  | .startApplyThread => raftStartApplyThread .done
  | .stopApplyThread => raftStopApplyThread .done
  | .initStateMachine => raftInitStateMachine .done
  | .destroy => raftDestroy .done

end Concurrent

/-! ### The threads of a node -/

/-- The threads of a node; the caller has no loop. -/
def nodeThreads : Threads Input Shared Party where
  main := .caller
  flag := fun t d =>
    match t with
    | .caller => false
    | .batchThread => d.active
    | .applyThread => d.applying
  pass := fun t =>
    match t with
    | .caller => .done
    | .batchThread => Concurrent.batchPass
    | .applyThread => Concurrent.applyPass

/-- A node with its threads. -/
abbrev NodeState := State Input Shared Party

/-- A node after `raft_init`, with no thread but its caller.  What is on the stacks does not
matter. -/
def NodeState.init (nodeId : ℕ) (clk : Clock) : NodeState where
  data :=
    { node := raftInit nodeId clk
      applying := false
      stateMachine := false
      destroyed := false
      batch := fun _ => .new 0
      entry := fun _ => ⟨0, 0, .noop, []⟩ }
  owner := none
  code := fun _ => .done

/-- The caller calls an operation. -/
def NodeState.call (s : NodeState) (op : Concurrent.Operation) : NodeState := s.goTo .caller op.code

/-- Something happens to a node: its caller, which has come to the end of the last operation, calls
the next one, or one of the threads takes a step. -/
inductive NodeEvent where
  | call (op : Concurrent.Operation)
  | step (t : Party) (x : Input)

/-- One event; a node that has been freed is not used again. -/
def nodeEvent (s : NodeState) : NodeEvent → Option NodeState
  | .call op =>
      if (s.code .caller).isDone ∧ s.data.destroyed = false then some (s.call op) else none
  | .step t x => Locking.step nodeThreads s (t, x)

end Oceanliner
