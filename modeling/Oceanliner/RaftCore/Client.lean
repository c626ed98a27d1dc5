/-
Client commands on a leader (`raft_handle_client_command`), the batches that the command
batcher hands back to the node (`process_raft_batch`), and the leader that steps down
(`raft_become_follower`), which stops the batcher.

Nobody looks at the result of `raft_append_entry`: where the append fails, both functions go
on with the log as it was.
-/
import Oceanliner.KvsCommand
import Oceanliner.RaftCore.Node

namespace Oceanliner

/-- `process_raft_batch`. -/
def processRaftBatch (batch : CommandBatch) (node : RaftNode) : RaftNode :=
  let entry := raftCreateEntry node.currentTerm .command batch.commands batch.totalLength
  let node := (raftAppendEntry node entry).getD node
  if node.state = .leader then raftReplicateLogs node else node

/-- `raft_handle_client_command`: its result and the node afterwards.  `none` is the failed
assertion on the address of the command. -/
def raftHandleClientCommand (node : RaftNode) (cmd : KvsRecord) : Option (ℤ × RaftNode) :=
  if node.state ≠ .leader then some (-2, node)
  else
    (kvsCommandLen cmd.bytes 0).map fun cmdSize =>
      let (added, batcher) :=
        commandBatcherAddCommand node.commandBatcher (cmd.bytes.take cmdSize)
      let node := { node with commandBatcher := batcher }
      if added then (0, node)
      else
        let entry := raftCreateEntry node.currentTerm .command cmd.bytes cmdSize
        let node := (raftAppendEntry node entry).getD node
        (0, raftReplicateLogs node)

/-- The node after a critical section of the batcher; a batch that was taken out goes to the
callback. -/
def processTaken (node : RaftNode) (r : Option CommandBatch × CommandBatcher) : RaftNode :=
  let node := { node with commandBatcher := r.2 }
  match r.1 with
  | some batch => processRaftBatch batch node
  | none => node

/-- One pass of the loop of `batch_processor_thread`. -/
def batchProcessorTick (now : ℕ) (node : RaftNode) : RaftNode :=
  processTaken node (batchProcessorTake node.commandBatcher now)

/-- `command_batcher_flush`. -/
def commandBatcherFlush (now : ℕ) (node : RaftNode) : RaftNode :=
  processTaken node (commandBatcherFlushTake node.commandBatcher now)

/-- `command_batcher_stop`. -/
def commandBatcherStop (now : ℕ) (node : RaftNode) : RaftNode :=
  processTaken node (commandBatcherStopTake node.commandBatcher now)

/-- What `raft_become_follower` writes to the node. -/
def followerFields (clk : Clock) (term : ℕ) (node : RaftNode) : RaftNode :=
  { node with
    state := .follower
    currentTerm := term
    votedFor := 0
    votesReceived := 0
    leaderId := 0
    lastHeartbeat := clk.time }

/-- `raft_become_follower`, when no other thread is in the way.  `none` is a leader that has commands
left in its batch: the callback of `command_batcher_stop` asks for the mutex that the node holds. -/
def raftBecomeFollower (clk : Clock) (node : RaftNode) (term : ℕ) : Option RaftNode :=
  let stopped : Option RaftNode :=
    if node.state = .leader then
      match commandBatcherStopTake node.commandBatcher clk.monotonic with
      | (none, batcher) => some { node with commandBatcher := batcher }
      | (some _, _) => none
    else some node
  stopped.map (followerFields clk term)

/-! ### What they change -/

/-- The node after one attempt to log `data` as an entry of the current term. -/
structure LogsCommands (node : RaftNode) (data : List UInt8) (node' : RaftNode) : Prop where
  state_eq : node'.state = node.state
  currentTerm_eq : node'.currentTerm = node.currentTerm
  commandBatcher_eq : node'.commandBatcher = node.commandBatcher
  entries : node'.log.entries = node.log.entries ++
      [⟨node.currentTerm, node.log.count + 1, .command, data⟩] ∨
    (¬ node.log.HasRoom ∧ node'.log.entries = node.log.entries)

lemma appendEntry_logsCommands (node : RaftNode) (data : List UInt8) (dataLen : ℕ) :
    LogsCommands node (data.take dataLen) (raftReplicateLogs
      ((raftAppendEntry node (raftCreateEntry node.currentTerm .command data dataLen)).getD
        node)) := by
  cases happ : raftAppendEntry node (raftCreateEntry node.currentTerm .command data dataLen) with
  | none =>
      have hfull : ¬ node.log.HasRoom :=
        RaftLog.push_eq_none (Option.map_eq_none_iff.1 happ)
      refine ⟨?_, ?_, ?_, Or.inr ⟨hfull, ?_⟩⟩ <;> simp
  | some node' =>
      obtain ⟨log, rfl, hlog⟩ := raftAppendEntry_spec happ
      refine ⟨?_, ?_, ?_, Or.inl ?_⟩
      · simp
      · simp
      · simp
      · simpa [raftCreateEntry] using hlog

lemma processRaftBatch_logsCommands (batch : CommandBatch) (node : RaftNode) :
    LogsCommands node batch.commands (processRaftBatch batch node) := by
  have h := appendEntry_logsCommands node batch.commands batch.totalLength
  rw [← batch.length_eq, List.take_length, batch.length_eq] at h
  -- a node that is not leader is left alone by `raft_replicate_logs` as well
  have hskip : ∀ n : RaftNode,
      (if n.state = .leader then raftReplicateLogs n else n) = raftReplicateLogs n := by
    intro n
    by_cases hn : n.state = .leader
    · rw [if_pos hn]
    · rw [if_neg hn, raftReplicateLogs, if_pos hn]
  rw [processRaftBatch, hskip]
  exact h

/-- The outcomes of `raft_handle_client_command`: its result, and the node afterwards. -/
inductive ClientOutcome (node : RaftNode) (cmd : KvsRecord) : ℤ → RaftNode → Prop where
  | refused (h : node.state ≠ .leader) : ClientOutcome node cmd (-2) node
  | batched {batcher : CommandBatcher} (h : node.state = .leader)
      (hadd : commandBatcherAddCommand node.commandBatcher cmd.bytes =
        (true, batcher)) :
      ClientOutcome node cmd 0 { node with commandBatcher := batcher }
  | direct {node' : RaftNode} (h : node.state = .leader)
      (hadd : commandBatcherAddCommand node.commandBatcher cmd.bytes =
        (false, node.commandBatcher))
      (hlog : LogsCommands node cmd.bytes node') : ClientOutcome node cmd 0 node'

lemma raftHandleClientCommand_outcome {node node' : RaftNode} {cmd : KvsRecord} {r : ℤ}
    (h : raftHandleClientCommand node cmd = some (r, node')) :
    ClientOutcome node cmd r node' := by
  unfold raftHandleClientCommand at h
  split at h
  · rename_i hst
    obtain ⟨rfl, rfl⟩ := Prod.mk.injEq .. ▸ Option.some.inj h
    exact .refused hst
  · rename_i hst
    rw [not_not] at hst
    rw [cmd.kvsCommandLen_bytes, Option.map_some, Option.some.injEq, List.take_length] at h
    cases hadd : commandBatcherAddCommand node.commandBatcher cmd.bytes with
    | mk added batcher =>
        rw [hadd] at h
        cases added with
        | true =>
            obtain ⟨rfl, rfl⟩ := Prod.mk.injEq .. ▸ h
            exact .batched hst hadd
        | false =>
            obtain ⟨rfl, -⟩ := addCommand_refuse hadd
            obtain ⟨rfl, rfl⟩ := Prod.mk.injEq .. ▸ h
            have hlog := appendEntry_logsCommands node cmd.bytes cmd.bytes.length
            rw [List.take_length] at hlog
            exact .direct hst hadd hlog

/-- The assertion on the address of the command holds. -/
lemma raftHandleClientCommand_some (node : RaftNode) (cmd : KvsRecord) :
    ∃ r, raftHandleClientCommand node cmd = some r := by
  rw [raftHandleClientCommand, cmd.kvsCommandLen_bytes]
  split
  · exact ⟨_, rfl⟩
  · rw [Option.map_some]
    exact ⟨_, rfl⟩

/-- The outcomes of a critical section with the callback behind it: nothing is taken, or the
commands of the current batch are logged and the batch is left empty. -/
inductive FlushOutcome (node : RaftNode) : RaftNode → Prop where
  | kept {batcher : CommandBatcher}
      (h : batcher.currentBatch = node.commandBatcher.currentBatch) :
      FlushOutcome node { node with commandBatcher := batcher }
  | logged {batcher : CommandBatcher} {node' : RaftNode}
      (h : 0 < node.commandBatcher.currentBatch.numCommands)
      (hnum : batcher.currentBatch.numCommands = 0)
      (hlog : LogsCommands { node with commandBatcher := batcher }
        node.commandBatcher.currentBatch.commands node') : FlushOutcome node node'

lemma processTaken_outcome {node : RaftNode} {r : Option CommandBatch × CommandBatcher}
    (h : TakesBatch node.commandBatcher r) : FlushOutcome node (processTaken node r) := by
  cases h with
  | kept h => exact .kept h
  | taken h hnum => exact .logged h hnum (processRaftBatch_logsCommands _ _)

lemma batchProcessorTick_outcome (now : ℕ) (node : RaftNode) :
    FlushOutcome node (batchProcessorTick now node) :=
  processTaken_outcome (processorTake_takes _ _)

lemma commandBatcherFlush_outcome (now : ℕ) (node : RaftNode) :
    FlushOutcome node (commandBatcherFlush now node) :=
  processTaken_outcome (flushTake_takes _ _)

lemma commandBatcherStop_outcome (now : ℕ) (node : RaftNode) :
    FlushOutcome node (commandBatcherStop now node) :=
  processTaken_outcome (stopTake_takes _ _)

/-! ### What they leave alone -/

/-- Nothing has changed but the log, the next entries for the other nodes and the batcher. -/
def TouchesLog (node node' : RaftNode) : Prop :=
  ∃ log nextIndex batcher,
    node' = { node with log := log, nextIndex := nextIndex, commandBatcher := batcher }

lemma TouchesLog.refl (node : RaftNode) : TouchesLog node node := ⟨_, _, _, rfl⟩

lemma TouchesLog.trans {node₁ node₂ node₃ : RaftNode} (h : TouchesLog node₁ node₂)
    (h' : TouchesLog node₂ node₃) : TouchesLog node₁ node₃ := by
  obtain ⟨log, nextIndex, batcher, rfl⟩ := h
  obtain ⟨log', nextIndex', batcher', rfl⟩ := h'
  exact ⟨log', nextIndex', batcher', rfl⟩

lemma raftAppendEntry_touchesLog (node : RaftNode) (entry : RaftEntry) :
    TouchesLog node ((raftAppendEntry node entry).getD node) := by
  cases happ : raftAppendEntry node entry with
  | none => exact .refl node
  | some node' =>
      obtain ⟨log, rfl, -⟩ := raftAppendEntry_spec happ
      exact ⟨log, _, _, rfl⟩

lemma raftReplicateLogs_touchesLog (node : RaftNode) : TouchesLog node (raftReplicateLogs node) := by
  rw [raftReplicateLogs]
  split
  · exact .refl node
  · exact ⟨_, _, _, rfl⟩

lemma processRaftBatch_touchesLog (batch : CommandBatch) (node : RaftNode) :
    TouchesLog node (processRaftBatch batch node) := by
  rw [processRaftBatch]
  split
  · exact (raftAppendEntry_touchesLog _ _).trans (raftReplicateLogs_touchesLog _)
  · exact raftAppendEntry_touchesLog _ _

lemma batchProcessorTick_touchesLog (now : ℕ) (node : RaftNode) :
    TouchesLog node (batchProcessorTick now node) := by
  rw [batchProcessorTick, processTaken]
  have hbatcher : ∀ batcher, TouchesLog node { node with commandBatcher := batcher } :=
    fun batcher => ⟨_, _, batcher, rfl⟩
  split
  · exact (hbatcher _).trans (processRaftBatch_touchesLog _ _)
  · exact hbatcher _

lemma raftHandleClientCommand_touchesLog {node node' : RaftNode} {cmd : KvsRecord} {r : ℤ}
    (h : raftHandleClientCommand node cmd = some (r, node')) : TouchesLog node node' := by
  unfold raftHandleClientCommand at h
  split at h
  · obtain ⟨rfl, rfl⟩ := Prod.mk.injEq .. ▸ Option.some.inj h
    exact .refl node
  · obtain ⟨cmdSize, -, hr⟩ := Option.map_eq_some_iff.1 h
    have hbatcher : ∀ batcher, TouchesLog node { node with commandBatcher := batcher } :=
      fun batcher => ⟨_, _, batcher, rfl⟩
    simp only at hr
    split at hr
    · obtain ⟨-, rfl⟩ := Prod.mk.injEq .. ▸ hr
      exact hbatcher _
    · obtain ⟨-, rfl⟩ := Prod.mk.injEq .. ▸ hr
      exact (hbatcher _).trans
        ((raftAppendEntry_touchesLog _ _).trans (raftReplicateLogs_touchesLog _))

/-- What a node that steps down keeps. -/
lemma raftBecomeFollower_eq {clk : Clock} {node node' : RaftNode} {term : ℕ}
    (h : raftBecomeFollower clk node term = some node') :
    ∃ batcher, node' = followerFields clk term { node with commandBatcher := batcher } := by
  obtain ⟨node₁, hstopped, rfl⟩ := Option.map_eq_some_iff.1 h
  split at hstopped
  · split at hstopped
    · obtain rfl := Option.some.inj hstopped
      exact ⟨_, rfl⟩
    · cases hstopped
  · obtain rfl := Option.some.inj hstopped
    exact ⟨_, rfl⟩

end Oceanliner
