/-
# The bytes of the accepted commands

A command that `raft_handle_client_command` accepts goes to the end of the current batch, or,
when the batch refuses it, straight into the log.  The second way overtakes the commands that
still wait in the batch (`accepted_bytes_reordered`), and on the first way the length passes
through a `uint32_t`, which cuts a command of more than 4 GiB short.  In every run in which
each command fits the batch whole, or finds the batch empty and is refused by it, the log and
the batch together hold the accepted commands, each of them once, whole and in the order of
the calls (`accepted_bytes_kept`).
-/
import Oceanliner.RaftCore.Client
import Oceanliner.Lib.Transition

open Transition

namespace Oceanliner

/-- A node, and the commands for which the call has returned `0`, in the order of the calls. -/
structure CommandRun where
  node : RaftNode
  accepted : List KvsRecord

inductive CommandAction where
  | command (cmd : KvsRecord)
  | tick (now : ℕ)
  | flush (now : ℕ)
  | stop (now : ℕ)
deriving DecidableEq

/-- One call, or one pass of the batch processor. -/
def commandStep (s : CommandRun) : CommandAction → Option CommandRun
  | .command cmd =>
      (raftHandleClientCommand s.node cmd).map fun r =>
        ⟨r.2, if r.1 = 0 then s.accepted ++ [cmd] else s.accepted⟩
  | .tick now => some { s with node := batchProcessorTick now s.node }
  | .flush now => some { s with node := commandBatcherFlush now s.node }
  | .stop now => some { s with node := commandBatcherStop now s.node }

/-- The data of the entries in log order, followed by what is still in the current batch. -/
def RaftNode.commandBytes (node : RaftNode) : List UInt8 :=
  (node.log.entries.map RaftEntry.data).flatten ++ node.commandBatcher.currentBatch.commands

/-- The command fits the current batch whole; or the batch is empty and refuses it, because
its length modulo `2 ^ 32` is zero or too large for a batch. -/
def FitsWhole (node : RaftNode) (cmd : KvsRecord) : Prop :=
  node.commandBatcher.currentBatch.totalLength + cmd.bytes.length ≤ maxCommandBuffer ∨
    (node.commandBatcher.currentBatch.totalLength = 0 ∧
      (u32 cmd.bytes.length = 0 ∨ maxCommandBuffer < u32 cmd.bytes.length))

/-- The condition on one action: a command of it fits whole. -/
def FitsStep (s : CommandRun) : CommandAction → Prop
  | .command cmd => FitsWhole s.node cmd
  | _ => True

/-! ### One step -/

lemma flushOutcome_commandBytes {node node' : RaftNode} (h : FlushOutcome node node')
    (hroom : node.log.HasRoom) : node'.commandBytes = node.commandBytes := by
  cases h with
  | kept hbatch => simp only [RaftNode.commandBytes, hbatch]
  | logged hpos hnum hlog =>
      rename_i batcher
      rcases hlog.entries with he | ⟨hfull, -⟩
      · have hempty : node'.commandBatcher.currentBatch.commands = [] := by
          rw [hlog.commandBatcher_eq]
          exact CommandBatch.commands_eq_nil hnum
        rw [RaftNode.commandBytes, RaftNode.commandBytes, he, hempty]
        simp
      · exact absurd hroom hfull

/-- A command that fits whole is cut nowhere, and overtakes nothing. -/
lemma clientOutcome_commandBytes {node node' : RaftNode} {cmd : KvsRecord} {r : ℤ}
    (h : ClientOutcome node cmd r node') (hroom : node.log.HasRoom)
    (hfits : FitsWhole node cmd) :
    node'.commandBytes = node.commandBytes ++ if r = 0 then cmd.bytes else [] := by
  have hpos := cmd.thirtyTwo_le_length
  have hsmall : node.commandBatcher.currentBatch.totalLength + cmd.bytes.length ≤
      maxCommandBuffer → u32 cmd.bytes.length = cmd.bytes.length := by
    intro hle
    rw [maxCommandBuffer] at hle
    exact u32_of_lt (by omega)
  cases h with
  | refused hst => simp
  | batched hst hadd =>
      obtain ⟨hne, hfit, -, hcommands⟩ := addCommand_accept hadd
      have hwhole : u32 cmd.bytes.length = cmd.bytes.length := by
        rcases hfits with hle | ⟨hzero, hzero' | hbig⟩
        · exact hsmall hle
        · exact absurd hzero' hne
        · omega
      rw [hwhole, List.take_length] at hcommands
      simp [RaftNode.commandBytes, hcommands]
  | direct hst hadd hlog =>
      have hrefused := (addCommand_refuse hadd).2
      have hempty : node.commandBatcher.currentBatch.commands = [] := by
        rw [← List.length_eq_zero_iff, node.commandBatcher.currentBatch.length_eq]
        rcases hfits with hle | ⟨hzero, -⟩
        · rw [hsmall hle] at hrefused
          omega
        · exact hzero
      rcases hlog.entries with he | ⟨hfull, -⟩
      · rw [RaftNode.commandBytes, RaftNode.commandBytes, he, hlog.commandBatcher_eq, hempty]
        simp
      · exact absurd hroom hfull

lemma commandStep_commandBytes {s s' : CommandRun} {a : CommandAction} {base : List UInt8}
    (h : s.node.commandBytes = base ++ recordBytes s.accepted) (hroom : s.node.log.HasRoom)
    (hfits : FitsStep s a) (hs : commandStep s a = some s') :
    s'.node.commandBytes = base ++ recordBytes s'.accepted := by
  cases a with
  | command cmd =>
      simp only [commandStep, Option.map_eq_some_iff] at hs
      obtain ⟨⟨r, node'⟩, hr, rfl⟩ := hs
      have hbytes := clientOutcome_commandBytes (raftHandleClientCommand_outcome hr) hroom hfits
      simp only at hbytes ⊢
      rw [hbytes, h]
      split
      · simp
      · simp
  | tick now =>
      obtain rfl := Option.some.inj hs
      exact (flushOutcome_commandBytes (batchProcessorTick_outcome _ _) hroom).trans h
  | flush now =>
      obtain rfl := Option.some.inj hs
      exact (flushOutcome_commandBytes (commandBatcherFlush_outcome _ _) hroom).trans h
  | stop now =>
      obtain rfl := Option.some.inj hs
      exact (flushOutcome_commandBytes (commandBatcherStop_outcome _ _) hroom).trans h

/-- **Accepted commands are kept, whole and in order.**  In every run in which the log always
has room and every command fits whole, the log and the current batch hold what they held at
the start, followed by the accepted commands in the order of the calls. -/
theorem accepted_bytes_kept (node : RaftNode) (as : List CommandAction) {s : CommandRun}
    (hroom : Guarded commandStep (fun s _ => s.node.log.HasRoom) ⟨node, []⟩ as)
    (hfits : Guarded commandStep FitsStep ⟨node, []⟩ as)
    (hrun : run commandStep ⟨node, []⟩ as = some s) :
    s.node.commandBytes = node.commandBytes ++ recordBytes s.accepted := by
  refine Guarded.invariant
    (I := fun t => t.node.commandBytes = node.commandBytes ++ recordBytes t.accepted)
    ?_ (hroom.and hfits) ?_ hrun
  · rintro t a t' h ⟨hr, hf⟩ hs
    exact commandStep_commandBytes h hr hf hs
  · rw [recordBytes_nil, List.append_nil]

/-- The leader of a first election, in term `1`. -/
def firstLeader : RaftNode := raftBecomeLeader (raftBecomeCandidate ⟨0, 0⟩ (raftInit 1 ⟨0, 0⟩))

instance (node : RaftNode) (cmd : KvsRecord) : Decidable (FitsWhole node cmd) :=
  inferInstanceAs (Decidable (_ ∨ _))

instance (s : CommandRun) : ∀ a, Decidable (FitsStep s a)
  | .command cmd => inferInstanceAs (Decidable (FitsWhole s.node cmd))
  | .tick _ => isTrue trivial
  | .flush _ => isTrue trivial
  | .stop _ => isTrue trivial

theorem accepted_bytes_kept_once : ∃ s,
    run commandStep ⟨firstLeader, []⟩
        [.command emptyCommand, .tick 50, .command emptyCommand, .stop 60] = some s ∧
      s.node.commandBytes = firstLeader.commandBytes ++ recordBytes s.accepted :=
  ⟨_, rfl, accepted_bytes_kept firstLeader
    [.command emptyCommand, .tick 50, .command emptyCommand, .stop 60] (by decide) (by decide)
    rfl⟩

/-! ### A command that overtakes another -/

/-- A command whose value makes it as long as a whole batch. -/
def bigCommand : KvsRecord where
  bytes := [0, 0, 0, 0] ++ Bytes.toLe 4 65500 ++ List.replicate 65528 0
  length_eq := by
    have hk : keyLength ([0, 0, 0, 0] ++ Bytes.toLe 4 65500 ++ List.replicate 65528 0) 0 = 0 := by
      rfl
    have hv : valueLength ([0, 0, 0, 0] ++ Bytes.toLe 4 65500 ++ List.replicate 65528 0) 0 =
        65500 := by
      rfl
    rw [hk, hv, kvsLen_eq (by norm_num) (by norm_num), List.length_append, List.length_append,
      Bytes.length_toLe, List.length_replicate]
    rfl

/-- The first leader, with a command in its batch. -/
def waitingLeader : RaftNode :=
  { firstLeader with
    commandBatcher :=
      { firstLeader.commandBatcher with
        currentBatch := (CommandBatch.new 0).push emptyCommand.bytes (by decide) (by decide) } }

lemma length_bigCommand : bigCommand.bytes.length = 65536 := by
  rw [bigCommand, List.length_append, List.length_append, Bytes.length_toLe,
    List.length_replicate]
  rfl

/-- A command as long as a batch is logged before the command that waits in the batch. -/
lemma overtakes_waiting {cmd : KvsRecord} {node' : RaftNode} {r : ℤ}
    (hlen : cmd.bytes.length = 65536)
    (h : raftHandleClientCommand waitingLeader cmd = some (r, node')) :
    r = 0 ∧ node'.commandBytes = cmd.bytes ++ emptyCommand.bytes := by
  have htotal : waitingLeader.commandBatcher.currentBatch.totalLength = 32 := rfl
  cases raftHandleClientCommand_outcome h with
  | refused hst => exact absurd rfl hst
  | batched hst hadd =>
      have hfit := (addCommand_accept hadd).fit
      rw [hlen, u32_of_lt (by norm_num), maxCommandBuffer, htotal] at hfit
      omega
  | direct hst hadd hlog =>
      rcases hlog.entries with he | ⟨hfull, -⟩
      · refine ⟨rfl, ?_⟩
        have hempty : waitingLeader.log.entries = [] := rfl
        have hbatch : waitingLeader.commandBatcher.currentBatch.commands =
            emptyCommand.bytes := rfl
        rw [RaftNode.commandBytes, he, hlog.commandBatcher_eq, hbatch, hempty]
        simp
      · exact absurd (by decide) hfull

theorem accepted_bytes_reordered : ∃ s,
    run commandStep ⟨firstLeader, []⟩ [.command emptyCommand, .command bigCommand] = some s ∧
      firstLeader.log.HasRoom ∧ waitingLeader.log.HasRoom ∧
      s.accepted = [emptyCommand, bigCommand] ∧
      s.node.commandBytes = bigCommand.bytes ++ emptyCommand.bytes ∧
      s.node.commandBytes ≠ firstLeader.commandBytes ++ recordBytes s.accepted := by
  have hlong := length_bigCommand
  have hfifth : bigCommand.bytes[4]? = some 220 := rfl
  generalize bigCommand = cmd at hlong hfifth ⊢
  have hfirst : commandStep ⟨firstLeader, []⟩ (.command emptyCommand) =
      some ⟨waitingLeader, [emptyCommand]⟩ := rfl
  obtain ⟨⟨r, node'⟩, hr⟩ := raftHandleClientCommand_some waitingLeader cmd
  obtain ⟨rfl, hbytes⟩ := overtakes_waiting hlong hr
  refine ⟨⟨node', [emptyCommand, cmd]⟩, ?_, by decide, by decide, rfl, hbytes, ?_⟩
  · rw [run_cons_eq_some]
    refine ⟨_, hfirst, ?_⟩
    rw [run_cons_eq_some]
    refine ⟨_, ?_, run_nil _⟩
    rw [commandStep, hr]
    rfl
  · -- the fifth byte tells the two orders apart
    have hnone : firstLeader.commandBytes = [] := rfl
    have hzero : emptyCommand.bytes[4]? = some 0 := rfl
    have hshort : emptyCommand.bytes.length = 32 := rfl
    intro heq
    rw [hbytes, hnone, List.nil_append, recordBytes_cons] at heq
    have hfive := congrArg (fun l : List UInt8 => l[4]?) heq
    rw [List.getElem?_append_left (by omega), List.getElem?_append_left (by omega), hfifth,
      hzero] at hfive
    exact absurd hfive (by decide)

end Oceanliner
