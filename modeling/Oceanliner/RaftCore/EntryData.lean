/-
# The data of the log entries

`raft_append_entry` copies an entry into the log, and with it the pointer to the entry's data.
The callers in `raft_core.c` then free that data, "since raft_append_entry makes a copy", so
that the entry in the log refers to a buffer that is gone.  This file adds the buffers and the
pointers to the node of `Oceanliner.RaftCore.Node`, whose entries keep the bytes they were
appended with, and says after which runs the entries still have these bytes
(`entries_keep_data_iff`).
-/
import Oceanliner.Lib.Memory
import Oceanliner.RaftCore.Apply
import Oceanliner.RaftCore.Client
import Oceanliner.RaftCore.ClientBytes

open Transition

namespace Oceanliner

/-- A node with the buffers that `raft_create_entry` has allocated, and the field `data` of
each entry of its log, which is null or the number of a buffer. -/
structure CellNode where
  node : RaftNode
  memory : Memory (List UInt8)
  data : List (Option ℕ)

namespace CellNode

/-- A node with an empty log. -/
def start (node : RaftNode) : CellNode := ⟨node, .empty, []⟩

/-- The data of a new entry in `raft_create_entry`. -/
def createData (s : CellNode) (data : List UInt8) (dataLen : ℕ) : Option ℕ × CellNode :=
  if dataLen > 0 then
    let (c, memory) := s.memory.malloc (data.take dataLen)
    (some c, { s with memory := memory })
  else (none, s)

/-- `raft_append_entry`; `none` is the failed allocation, where it returns `-1`. -/
def append (s : CellNode) (entry : RaftEntry) (data : Option ℕ) : Option CellNode :=
  (raftAppendEntry s.node entry).map fun node =>
    { s with node := node, data := s.data ++ [data] }

/-- `free` of the data of an entry; `none` is a second `free`, which is undefined. -/
def free (s : CellNode) (data : Option ℕ) : Option CellNode :=
  (s.memory.free data).map fun memory => { s with memory := memory }

end CellNode

/-- `process_raft_batch`. -/
def processRaftBatchCells (batch : CommandBatch) (s : CellNode) : Option CellNode :=
  let (data, s) := s.createData batch.commands batch.totalLength
  let entry := raftCreateEntry s.node.currentTerm .command batch.commands batch.totalLength
  let s := (s.append entry data).getD s
  let s := if s.node.state = .leader then { s with node := raftReplicateLogs s.node } else s
  s.free data

/-- `raft_handle_client_command`. -/
def raftHandleClientCommandCells (s : CellNode) (cmd : KvsRecord) : Option (ℤ × CellNode) :=
  if s.node.state ≠ .leader then some (-2, s)
  else
    (kvsCommandLen cmd.bytes 0).bind fun cmdSize =>
      let (added, batcher) :=
        commandBatcherAddCommand s.node.commandBatcher (cmd.bytes.take cmdSize)
      let s := { s with node := { s.node with commandBatcher := batcher } }
      if added then some (0, s)
      else
        let (data, s) := s.createData cmd.bytes cmdSize
        let entry := raftCreateEntry s.node.currentTerm .command cmd.bytes cmdSize
        let s := (s.append entry data).getD s
        let s := { s with node := raftReplicateLogs s.node }
        (s.free data).map fun s => (0, s)

/-- The node after a critical section of the batcher, with `process_raft_batch` for the batch
that was taken out. -/
def processTakenCells (s : CellNode) (r : Option CommandBatch × CommandBatcher) :
    Option CellNode :=
  let s := { s with node := { s.node with commandBatcher := r.2 } }
  match r.1 with
  | some batch => processRaftBatchCells batch s
  | none => some s

/-- The calls that append entries, with the clock where they read it. -/
inductive CellAction where
  | command (cmd : KvsRecord)
  | tick (now : ℕ)
  | stop (now : ℕ)
  | appendEntry (term : ℕ) (type : RaftEntryType) (data : List UInt8)
deriving DecidableEq

/-- `raft_handle_client_command`, one pass of the batch processor, `command_batcher_stop`, or
`raft_append_entry` with a new entry, whose data then belongs to the log. -/
def cellStep (s : CellNode) : CellAction → Option CellNode
  | .command cmd => (raftHandleClientCommandCells s cmd).map Prod.snd
  | .tick now => processTakenCells s (batchProcessorTake s.node.commandBatcher now)
  | .stop now => processTakenCells s (commandBatcherStopTake s.node.commandBatcher now)
  | .appendEntry term type data =>
      let (p, s) := s.createData data data.length
      some ((s.append (raftCreateEntry term type data data.length) p).getD s)

/-! ### The readers -/

section Readers

variable {σ : Type} (apply : σ → List UInt8 → ℕ → ℤ × σ)

/-- The entry in the place `i` of the log as a reader finds it: `data_len` bytes of the buffer
that `data` refers to.  `none` is an access to a buffer that is not live. -/
def CellNode.load (s : CellNode) (i : ℕ) : Option RaftEntry :=
  match s.node.log.entries[i]?, s.data[i]? with
  | some entry, some none => some { entry with data := [] }
  | some entry, some (some c) =>
      (s.memory.cell c).map fun bytes => { entry with data := bytes.take entry.data.length }
  | _, _ => none

/-- The loop of `raft_apply_committed_entries` with its accesses to the log. -/
def applyEntriesFromCells (s : CellNode) (commitIndex : ℕ) (t : Applying σ) (i : ℕ) :
    Option (Applying σ) :=
  if i ≤ commitIndex then
    if i > s.node.log.count then some t
    else
      (s.load (i - 1)).bind fun entry =>
        (applyEntry apply t i entry).bind fun t' =>
          applyEntriesFromCells s commitIndex t' (i + 1)
  else some t
termination_by s.node.log.count + 1 - i

/-- `raft_apply_committed_entries` with its accesses to the log. -/
def raftApplyCommittedEntriesCells (s : CellNode) (t : Applying σ) :
    Option (ℤ × Applying σ) :=
  if t.node.lastApplied ≥ t.node.commitIndex then some (0, t)
  else
    (applyEntriesFromCells apply s t.node.commitIndex t (t.node.lastApplied + 1)).map
      fun t' => (0, t')

end Readers

/-- The loop of `log_destroy`. -/
def logDestroy (s : CellNode) : Option (Memory (List UInt8)) := s.memory.freeAll s.data

/-! ### What is claimed of them -/

/-- The bytes that an entry needs a buffer for: its data, when `data_len > 0`. -/
def RaftEntry.buffered (e : RaftEntry) : Option (List UInt8) :=
  if e.data = [] then none else some e.data

/-- Each entry with data has a live buffer of its own, with the bytes it was appended with. -/
def KeepsData (s : CellNode) : Prop :=
  s.memory.Keeps RaftEntry.buffered s.node.log.entries s.data

/-- The entries keep their data, `raft_apply_committed_entries` reads these bytes, and
`log_destroy` frees each buffer once. -/
structure EntriesIntact (s : CellNode) : Prop where
  keeps : KeepsData s
  applies : ∀ {σ : Type} (apply : σ → List UInt8 → ℕ → ℤ × σ) (t : Applying σ),
    t.node = s.node →
      raftApplyCommittedEntriesCells apply s t = raftApplyCommittedEntries apply t
  destroys : (logDestroy s).isSome

/-- The step frees no data of an entry in the log: it hands no batch to `process_raft_batch` and
leaves no command to `raft_handle_client_command` itself, unless the log cannot be grown. -/
def FreesNothing (s : CellNode) : CellAction → Prop
  | .command cmd => s.node.state ≠ .leader ∨
      (u32 cmd.bytes.length ≠ 0 ∧
        s.node.commandBatcher.currentBatch.totalLength + u32 cmd.bytes.length ≤
          maxCommandBuffer) ∨ ¬ s.node.log.HasRoom
  | .tick now => (s.node.commandBatcher.active && shouldFlush s.node.commandBatcher now) = false ∨
      ¬ s.node.log.HasRoom
  | .stop _ => s.node.commandBatcher.active = false ∨
      s.node.commandBatcher.currentBatch.numCommands = 0 ∨ ¬ s.node.log.HasRoom
  | .appendEntry .. => True

/-! ### Appending -/

lemma createData_of_pos (s : CellNode) {data : List UInt8} {dataLen : ℕ} (h : 0 < dataLen) :
    s.createData data dataLen =
      (some s.memory.next, { s with memory := (s.memory.malloc (data.take dataLen)).2 }) :=
  if_pos h

/-- The outcomes of appending an entry: the log has it at its end, and its pointer with it, or
the log cannot be grown and nothing has changed. -/
inductive AppendOutcome (s : CellNode) (entry : RaftEntry) (p : Option ℕ) (s' : CellNode) :
    Prop where
  | appended (hroom : s.node.log.HasRoom)
      (hentries : s'.node.log.entries =
        s.node.log.entries ++ [{ entry with index := s.node.log.count + 1 }])
      (hdata : s'.data = s.data ++ [p]) (hmemory : s'.memory = s.memory)
  | full (hroom : ¬ s.node.log.HasRoom) (heq : s' = s)

lemma append_outcome (s : CellNode) (entry : RaftEntry) (p : Option ℕ) :
    AppendOutcome s entry p ((s.append entry p).getD s) ∧
      ((s.append entry p).getD s).node = (raftAppendEntry s.node entry).getD s.node := by
  rw [CellNode.append]
  cases happ : raftAppendEntry s.node entry with
  | none =>
      rw [raftAppendEntry, Option.map_eq_none_iff] at happ
      exact ⟨.full (RaftLog.push_eq_none happ) rfl, rfl⟩
  | some node =>
      obtain ⟨log, hlog, rfl⟩ := Option.map_eq_some_iff.1 happ
      exact ⟨.appended (RaftLog.hasRoom_of_push hlog) (RaftLog.push_entries hlog) rfl rfl, rfl⟩

/-- The outcomes of logging data in an entry and then freeing the data. -/
inductive FreedOutcome (s : CellNode) (data : List UInt8) (s' : CellNode) : Prop where
  | dangling (hroom : s.node.log.HasRoom)
      (hentries : s'.node.log.entries = s.node.log.entries ++
        [⟨s.node.currentTerm, s.node.log.count + 1, .command, data⟩])
      (hdata : s'.data = s.data ++ [some s.memory.next])
      (hcell : s'.memory.cell = s.memory.cell) (hnext : s'.memory.next = s.memory.next + 1)
  | full (hroom : ¬ s.node.log.HasRoom) (hentries : s'.node.log.entries = s.node.log.entries)
      (hdata : s'.data = s.data) (hcell : s'.memory.cell = s.memory.cell)
      (hnext : s'.memory.next = s.memory.next + 1)

/-- What both callers do with a new entry: append it, replicate, and free the data. -/
lemma appendAndFree {f : RaftNode → RaftNode} (hf : ∀ node, (f node).log = node.log)
    (s : CellNode) (data : List UInt8) (dataLen : ℕ) {s₁ s₂ : CellNode}
    (hs₁ : s₁ = { s with memory := (s.memory.malloc (data.take dataLen)).2 })
    (hs₂ : s₂ = (s₁.append (raftCreateEntry s.node.currentTerm .command data dataLen)
      (some s.memory.next)).getD s₁) :
    ∃ s', CellNode.free { s₂ with node := f s₂.node } (some s.memory.next) = some s' ∧
      s'.node = f ((raftAppendEntry s.node
        (raftCreateEntry s.node.currentTerm .command data dataLen)).getD s.node) ∧
      FreedOutcome s (data.take dataLen) s' := by
  obtain ⟨memory, hfree, hcell, hnext⟩ := s.memory.free_malloc (data.take dataLen)
  obtain ⟨houtcome, hnode⟩ := append_outcome s₁
    (raftCreateEntry s.node.currentTerm .command data dataLen) (some s.memory.next)
  rw [← hs₂] at houtcome hnode
  have hmemory : s₂.memory = (s.memory.malloc (data.take dataLen)).2 := by
    cases houtcome with
    | appended _ _ _ hmemory => rw [hmemory, hs₁]
    | full _ heq => rw [heq, hs₁]
  refine ⟨⟨f s₂.node, memory, s₂.data⟩, ?_, ?_, ?_⟩
  · rw [CellNode.free, hmemory, hfree]
    rfl
  · rw [hs₁] at hnode
    exact congrArg f hnode
  · rw [hs₁] at houtcome
    cases houtcome with
    | appended hroom hentries hdata _ =>
        refine .dangling hroom ?_ hdata hcell hnext
        rw [hf]
        exact hentries
    | full hroom heq =>
        refine .full hroom ?_ ?_ hcell hnext
        · rw [hf, heq]
        · rw [heq]

lemma processRaftBatchCells_outcome {batch : CommandBatch} (hpos : 0 < batch.numCommands)
    (s : CellNode) : ∃ s', processRaftBatchCells batch s = some s' ∧
      s'.node = processRaftBatch batch s.node ∧ FreedOutcome s batch.commands s' := by
  have hlen : 0 < batch.totalLength := hpos.trans_le batch.num_le
  obtain ⟨s', hs', hnode, houtcome⟩ := appendAndFree
    (f := fun node => if node.state = .leader then raftReplicateLogs node else node)
    (fun node => by split <;> simp) s batch.commands batch.totalLength rfl rfl
  rw [← batch.length_eq, List.take_length] at houtcome
  refine ⟨s', ?_, hnode, houtcome⟩
  rw [← hs', processRaftBatchCells, createData_of_pos s hlen]
  simp only
  split
  · rfl
  · rfl

/-- The outcomes of `raft_handle_client_command`. -/
lemma raftHandleClientCommandCells_outcome (s : CellNode) (cmd : KvsRecord) :
    ∃ r s', raftHandleClientCommandCells s cmd = some (r, s') ∧
      raftHandleClientCommand s.node cmd = some (r, s'.node) ∧
      ((FreesNothing s (.command cmd) ∧ s'.node.log = s.node.log ∧ s'.data = s.data ∧
          s'.memory = s.memory) ∨
        (s.node.state = .leader ∧
          commandBatcherAddCommand s.node.commandBatcher cmd.bytes =
            (false, s.node.commandBatcher) ∧ FreedOutcome s cmd.bytes s')) := by
  rw [raftHandleClientCommandCells, raftHandleClientCommand]
  by_cases hstate : s.node.state = .leader
  · rw [if_neg (not_not.2 hstate), if_neg (not_not.2 hstate), cmd.kvsCommandLen_bytes]
    simp only [Option.bind_some, Option.map_some, List.take_length]
    cases hadd : commandBatcherAddCommand s.node.commandBatcher cmd.bytes with
    | mk added batcher =>
        cases added with
        | true =>
            obtain ⟨hne, hfit, -, -⟩ := addCommand_accept hadd
            exact ⟨0, _, rfl, rfl, .inl ⟨.inr (.inl ⟨hne, hfit⟩), rfl, rfl, rfl⟩⟩
        | false =>
            obtain ⟨rfl, -⟩ := addCommand_refuse hadd
            have hpos : 0 < cmd.bytes.length := by
              have := cmd.thirtyTwo_le_length
              omega
            obtain ⟨s', hs', hnode, houtcome⟩ := appendAndFree raftReplicateLogs_log s cmd.bytes
              cmd.bytes.length rfl rfl
            rw [List.take_length] at houtcome
            refine ⟨0, s', ?_, ?_, .inr ⟨hstate, rfl, houtcome⟩⟩
            · rw [createData_of_pos _ hpos]
              simp only [Bool.false_eq_true, if_false]
              rw [hs']
              rfl
            · rw [hnode]
              rfl
  · rw [if_pos hstate, if_pos hstate]
    exact ⟨-2, s, rfl, rfl, .inl ⟨.inl hstate, rfl, rfl, rfl⟩⟩

/-- The outcomes of a critical section of the batcher with `process_raft_batch` behind it. -/
lemma processTakenCells_outcome (s : CellNode) {r : Option CommandBatch × CommandBatcher}
    (h : TakesBatch s.node.commandBatcher r) :
    ∃ s', processTakenCells s r = some s' ∧ s'.node = processTaken s.node r ∧
      ((r.1 = none ∧ s'.node.log = s.node.log ∧ s'.data = s.data ∧ s'.memory = s.memory) ∨
        ∃ batch, r.1 = some batch ∧ 0 < batch.numCommands ∧
          FreedOutcome s batch.commands s') := by
  cases h with
  | kept => exact ⟨_, rfl, rfl, .inl ⟨rfl, rfl, rfl, rfl⟩⟩
  | @taken batcher hpos _ =>
      obtain ⟨s', hs', hnode, houtcome⟩ := processRaftBatchCells_outcome hpos
        { s with node := { s.node with commandBatcher := batcher } }
      refine ⟨s', hs', hnode, .inr ⟨_, rfl, hpos, ?_⟩⟩
      cases houtcome with
      | dangling hroom hentries hdata hcell hnext =>
          exact .dangling hroom hentries hdata hcell hnext
      | full hroom hentries hdata hcell hnext => exact .full hroom hentries hdata hcell hnext

lemma processorTake_eq_none (b : CommandBatcher) (now : ℕ) :
    (batchProcessorTake b now).1 = none ↔ (b.active && shouldFlush b now) = false := by
  rw [batchProcessorTake]
  split
  · rename_i hflush
    simp [hflush]
  · rename_i hkeep
    simpa using hkeep

lemma stopTake_eq_none (b : CommandBatcher) (now : ℕ) :
    (commandBatcherStopTake b now).1 = none ↔
      b.active = false ∨ b.currentBatch.numCommands = 0 := by
  rw [commandBatcherStopTake]
  split
  · rename_i hactive
    rw [commandBatcherFlushTake]
    split
    · rename_i hpos
      simp only [reduceCtorEq, hactive, Bool.true_eq_false, false_or, false_iff]
      exact hpos.ne'
    · rename_i hzero
      simp only [hactive, Bool.true_eq_false, false_or, true_iff]
      exact Nat.eq_zero_of_not_pos hzero
  · rename_i hidle
    simpa using Or.inl hidle

/-! ### One step -/

/-- The same step without buffers and pointers. -/
def nodeStep (node : RaftNode) : CellAction → Option RaftNode
  | .command cmd => (raftHandleClientCommand node cmd).map Prod.snd
  | .tick now => some (batchProcessorTick now node)
  | .stop now => some (commandBatcherStop now node)
  | .appendEntry term type data =>
      some ((raftAppendEntry node (raftCreateEntry term type data data.length)).getD node)

/-- The outcomes of a step: the log stays as it is, or it gets one more entry, which either
keeps its data, in a new buffer, or refers to a new buffer that has been freed. -/
inductive CellOutcome (s : CellNode) (a : CellAction) (s' : CellNode) : Prop where
  | kept (hguard : FreesNothing s a) (hentries : s'.node.log.entries = s.node.log.entries)
      (hdata : s'.data = s.data)
      (hcell : ∀ c < s.memory.next, s'.memory.cell c = s.memory.cell c)
      (hnext : s.memory.next ≤ s'.memory.next)
  | appended {entry : RaftEntry} {p : Option ℕ} (hguard : FreesNothing s a)
      (hentries : s'.node.log.entries = s.node.log.entries ++ [entry])
      (hdata : s'.data = s.data ++ [p]) (hrefers : s'.memory.Refers RaftEntry.buffered entry p)
      (hnew : ∀ c, p = some c → c = s.memory.next ∧ c < s'.memory.next)
      (hcell : ∀ c < s.memory.next, s'.memory.cell c = s.memory.cell c)
      (hnext : s.memory.next ≤ s'.memory.next)
  | dangling {entry : RaftEntry} (hguard : ¬ FreesNothing s a) (hne : entry.data ≠ [])
      (hentries : s'.node.log.entries = s.node.log.entries ++ [entry])
      (hdata : s'.data = s.data ++ [some s.memory.next])
      (hcell : s'.memory.cell = s.memory.cell) (hnext : s'.memory.next = s.memory.next + 1)

lemma FreedOutcome.cellOutcome {s s' : CellNode} {a : CellAction} {data : List UInt8}
    (h : FreedOutcome s data s') (hne : data ≠ [])
    (hguard : FreesNothing s a ↔ ¬ s.node.log.HasRoom) : CellOutcome s a s' := by
  cases h with
  | dangling hroom hentries hdata hcell hnext =>
      exact .dangling (fun h => hguard.1 h hroom) hne hentries hdata hcell hnext
  | full hroom hentries hdata hcell hnext =>
      exact .kept (hguard.2 hroom) hentries hdata (fun c _ => by rw [hcell]) (by omega)

lemma taken_cellOutcome {s s' : CellNode} {a : CellAction}
    {r : Option CommandBatch × CommandBatcher} (h : TakesBatch s.node.commandBatcher r)
    (hs' : processTakenCells s r = some s')
    (hguard : FreesNothing s a ↔ r.1 = none ∨ ¬ s.node.log.HasRoom) : CellOutcome s a s' := by
  obtain ⟨s₁, hs₁, -, houtcome⟩ := processTakenCells_outcome s h
  obtain rfl := Option.some.inj (hs₁.symm.trans hs')
  rcases houtcome with ⟨hnone, hlog, hdata, hmemory⟩ | ⟨batch, hsome, hpos, hfreed⟩
  · refine .kept (hguard.2 (.inl hnone)) (by rw [hlog]) hdata ?_ ?_
    · exact fun c _ => by rw [hmemory]
    · rw [hmemory]
  · refine hfreed.cellOutcome ?_ ?_
    · rw [← List.length_pos_iff, batch.length_eq]
      exact hpos.trans_le batch.num_le
    · rw [hguard, hsome]
      simp

lemma appendEntry_cellOutcome (s : CellNode) (term : ℕ) (type : RaftEntryType)
    (data : List UInt8) {s' : CellNode}
    (hs' : cellStep s (.appendEntry term type data) = some s') :
    CellOutcome s (.appendEntry term type data) s' := by
  by_cases hne : data = []
  · subst hne
    obtain rfl := Option.some.inj hs'
    show CellOutcome s _ ((s.append (raftCreateEntry term type [] 0) none).getD s)
    cases (append_outcome s (raftCreateEntry term type [] 0) none).1 with
    | appended _ hentries hdata hmemory =>
        refine .appended trivial hentries hdata rfl (by rintro c ⟨⟩) ?_ (by rw [hmemory])
        exact fun c _ => by rw [hmemory]
    | full _ heq =>
        rw [heq]
        exact .kept trivial rfl rfl (fun c _ => rfl) le_rfl
  · have hpos : 0 < data.length := List.length_pos_iff.2 hne
    rw [cellStep, createData_of_pos s hpos] at hs'
    obtain rfl := Option.some.inj hs'
    have hcell : ∀ c < s.memory.next,
        (s.memory.malloc (data.take data.length)).2.cell c = s.memory.cell c :=
      fun c hc => Memory.malloc_cell_of_lt _ hc
    cases (append_outcome { s with memory := (s.memory.malloc (data.take data.length)).2 }
        (raftCreateEntry term type data data.length) (some s.memory.next)).1 with
    | appended _ hentries hdata hmemory =>
        refine .appended trivial hentries hdata ?_ ?_ ?_ ?_
        · rw [hmemory, Memory.Refers, RaftEntry.buffered, raftCreateEntry, List.take_length,
            if_neg hne]
          exact ⟨_, rfl, Memory.malloc_cell_next _ _⟩
        · rintro c ⟨⟩
          rw [hmemory]
          exact ⟨rfl, Nat.lt_succ_self _⟩
        · rw [hmemory]
          exact hcell
        · rw [hmemory]
          exact Nat.le_succ _
    | full _ heq =>
        rw [heq]
        exact .kept trivial rfl rfl hcell (Nat.le_succ _)

lemma cellStep_outcome {s s' : CellNode} {a : CellAction} (h : cellStep s a = some s') :
    CellOutcome s a s' := by
  cases a with
  | command cmd =>
      obtain ⟨r, s₁, hs₁, -, houtcome⟩ := raftHandleClientCommandCells_outcome s cmd
      rw [cellStep, hs₁] at h
      obtain rfl := Option.some.inj h
      rcases houtcome with ⟨hguard, hlog, hdata, hmemory⟩ | ⟨hstate, hadd, hfreed⟩
      · refine .kept hguard (by rw [hlog]) hdata ?_ ?_
        · exact fun c _ => by rw [hmemory]
        · rw [hmemory]
      · refine hfreed.cellOutcome ?_ ?_
        · have := cmd.thirtyTwo_le_length
          rw [← List.length_pos_iff]
          omega
        · have hrefused := (addCommand_refuse hadd).2
          rw [FreesNothing, or_iff_right (not_not.2 hstate), or_iff_right]
          rintro ⟨hpos, hfit⟩
          omega
  | tick now =>
      refine taken_cellOutcome (processorTake_takes _ now) h ?_
      rw [processorTake_eq_none, FreesNothing]
  | stop now =>
      refine taken_cellOutcome (stopTake_takes _ now) h ?_
      rw [stopTake_eq_none, FreesNothing, or_assoc]
  | appendEntry term type data => exact appendEntry_cellOutcome s term type data h

/-- The buffers do not change what the node does, and no step frees a buffer twice. -/
theorem cellStep_node (s : CellNode) (a : CellAction) :
    (cellStep s a).map CellNode.node = nodeStep s.node a := by
  cases a with
  | command cmd =>
      obtain ⟨r, s', hs', hnode, -⟩ := raftHandleClientCommandCells_outcome s cmd
      rw [cellStep, nodeStep, hs', hnode]
      rfl
  | tick now =>
      obtain ⟨s', hs', hnode, -⟩ := processTakenCells_outcome s (processorTake_takes _ now)
      rw [cellStep, nodeStep, hs', Option.map_some, hnode]
      rfl
  | stop now =>
      obtain ⟨s', hs', hnode, -⟩ := processTakenCells_outcome s (stopTake_takes _ now)
      rw [cellStep, nodeStep, hs', Option.map_some, hnode]
      rfl
  | appendEntry term type data =>
      rw [cellStep, nodeStep, Option.map_some, (append_outcome _ _ _).2, CellNode.createData]
      split <;> rfl

/-! ### Runs -/

/-- The pointers of the log are numbers that have been handed out. -/
def Numbered (s : CellNode) : Prop := ∀ c ∈ s.data.reduceOption, c < s.memory.next

lemma KeepsData.numbered {s : CellNode} (h : KeepsData s) : Numbered s := by
  intro c hc
  obtain ⟨data, hdata⟩ := Option.ne_none_iff_exists'.1 (h.cell_ne_none c hc)
  exact Memory.lt_next hdata

section Step

variable {s s' : CellNode} {a : CellAction}

/-- The pointers in a list with one more place. -/
lemma mem_reduceOption_concat {data : List (Option ℕ)} {p : Option ℕ} {c : ℕ} :
    c ∈ (data ++ [p]).reduceOption ↔ c ∈ data.reduceOption ∨ p = some c := by
  rw [List.reduceOption_append, List.mem_append, List.reduceOption_mem_iff,
    List.reduceOption_mem_iff, List.mem_singleton, eq_comm]

lemma CellOutcome.numbered (h : CellOutcome s a s') (hs : Numbered s) : Numbered s' := by
  cases h with
  | kept _ _ hdata _ hnext =>
      intro c hc
      rw [hdata] at hc
      exact (hs c hc).trans_le hnext
  | @appended entry p _ _ hdata _ hnew _ hnext =>
      intro c hc
      rw [hdata, mem_reduceOption_concat] at hc
      rcases hc with hold | heq
      · exact (hs c hold).trans_le hnext
      · exact (hnew c heq).2
  | dangling _ _ _ hdata _ hnext =>
      intro c hc
      rw [hdata, mem_reduceOption_concat] at hc
      rcases hc with hold | heq
      · have := hs c hold
        omega
      · obtain rfl := Option.some.inj heq
        omega

/-- The entries of before keep their data exactly if they did. -/
lemma keeps_iff_of_cell (hs : Numbered s)
    (hcell : ∀ c < s.memory.next, s'.memory.cell c = s.memory.cell c) :
    s'.memory.Keeps RaftEntry.buffered s.node.log.entries s.data ↔ KeepsData s := by
  constructor
  · intro h
    refine h.congr fun c hc a ha => ?_
    rw [← hcell c (hs c hc)]
    exact ha
  · intro h
    refine h.congr fun c hc a ha => ?_
    rw [hcell c (hs c hc)]
    exact ha

/-- **One step.**  The entries keep their data exactly when they did and the step frees no data
of an entry in the log. -/
lemma CellOutcome.keepsData_iff (h : CellOutcome s a s') (hs : Numbered s) :
    KeepsData s' ↔ KeepsData s ∧ FreesNothing s a := by
  cases h with
  | kept hguard hentries hdata hcell _ =>
      rw [KeepsData, hentries, hdata, keeps_iff_of_cell hs hcell]
      exact (and_iff_left hguard).symm
  | @appended entry p hguard hentries hdata hrefers hnew hcell _ =>
      rw [KeepsData, hentries, hdata, Memory.keeps_concat_iff, keeps_iff_of_cell hs hcell]
      refine and_congr_right fun _ => iff_of_true ⟨hrefers, ?_⟩ hguard
      rintro c hp hc
      have hlt := hs c hc
      have heq := (hnew c hp).1
      omega
  | @dangling entry hguard hne hentries hdata hcell _ =>
      refine iff_of_false (fun hkeeps => ?_) fun h => hguard h.2
      -- the new entry refers to a buffer that has been freed
      rw [KeepsData, hentries, hdata, Memory.keeps_concat_iff] at hkeeps
      have hrefers := hkeeps.2.1
      rw [Memory.Refers, RaftEntry.buffered, if_neg hne] at hrefers
      obtain ⟨c, hc, hlive⟩ := hrefers
      obtain rfl := Option.some.inj hc
      rw [hcell, s.memory.fresh _ le_rfl] at hlive
      cases hlive

end Step

lemma run_keepsData_iff {s s' : CellNode} {as : List CellAction} (hs : KeepsData s)
    (hrun : run cellStep s as = some s') :
    KeepsData s' ↔ Guarded cellStep FreesNothing s as := by
  rw [run_iff_guarded (I := Numbered) (P := KeepsData) (G := FreesNothing) ?_ hs.numbered hrun]
  · exact and_iff_right hs
  · intro s a s' hs h
    exact ⟨(cellStep_outcome h).numbered hs, (cellStep_outcome h).keepsData_iff hs⟩

/-! ### What the readers find -/

section Reads

variable {s : CellNode} (hs : KeepsData s)

include hs

/-- A reader finds every entry as it was appended. -/
lemma KeepsData.load_eq (i : ℕ) : s.load i = s.node.log.entries[i]? := by
  have hlen := hs.refers.length_eq
  rw [CellNode.load]
  by_cases hi : i < s.node.log.entries.length
  · have hi' : i < s.data.length := by omega
    have hrefers := (List.forall₂_iff_get.1 hs.refers).2 i hi hi'
    rw [List.get_eq_getElem, List.get_eq_getElem] at hrefers
    rw [List.getElem?_eq_getElem hi, List.getElem?_eq_getElem hi']
    generalize s.node.log.entries[i] = entry, s.data[i] = p at hrefers
    rw [Memory.Refers, RaftEntry.buffered] at hrefers
    by_cases hdata : entry.data = []
    · rw [if_pos hdata] at hrefers
      obtain rfl : p = none := hrefers
      rw [← hdata]
    · rw [if_neg hdata] at hrefers
      obtain ⟨c, rfl, hc⟩ := hrefers
      simp only [hc, Option.map_some, List.take_length]
  · rw [List.getElem?_eq_none (not_lt.1 hi)]

lemma KeepsData.applyEntriesFromCells_eq {σ : Type} (apply : σ → List UInt8 → ℕ → ℤ × σ)
    (commitIndex : ℕ) (t : Applying σ) (i : ℕ) :
    applyEntriesFromCells apply s commitIndex t i =
      applyEntriesFrom apply s.node.log commitIndex t i := by
  induction t, i using applyEntriesFrom.induct s.node.log commitIndex with
  | case1 t i hle hpast =>
      rw [applyEntriesFromCells, applyEntriesFrom, if_pos hle, if_pos hle, if_pos hpast,
        if_pos hpast]
  | case2 t i hle hin ih =>
      rw [applyEntriesFromCells, applyEntriesFrom, if_pos hle, if_pos hle, if_neg hin,
        if_neg hin, hs.load_eq]
      refine congrArg _ (funext fun entry => congrArg _ (funext fun t' => ?_))
      exact ih t'
  | case3 t i hgt =>
      rw [applyEntriesFromCells, applyEntriesFrom, if_neg hgt, if_neg hgt]

lemma KeepsData.intact : EntriesIntact s where
  keeps := hs
  applies := by
    intro σ apply t ht
    rw [raftApplyCommittedEntriesCells, raftApplyCommittedEntries, ht,
      hs.applyEntriesFromCells_eq]
  destroys := Memory.Keeps.freeAll_isSome hs

end Reads

/-- **When log entries keep their bytes.**  After every run from a state in which the entries
have their data, they still have it, the committed ones are applied with it and `log_destroy`
frees each buffer once, exactly when no step of the run frees the data of an entry in the log. -/
theorem entries_keep_data_iff {s s' : CellNode} {as : List CellAction} (hs : KeepsData s)
    (hrun : run cellStep s as = some s') :
    EntriesIntact s' ↔ Guarded cellStep FreesNothing s as := by
  rw [← run_keepsData_iff hs hrun]
  exact ⟨EntriesIntact.keeps, KeepsData.intact⟩

lemma keepsData_start {node : RaftNode} (h : node.log.entries = []) :
    KeepsData (CellNode.start node) where
  refers := by
    show List.Forall₂ _ node.log.entries []
    rw [h]
    exact .nil
  nodup := List.nodup_nil

instance (s : CellNode) : ∀ a, Decidable (FreesNothing s a)
  | .command _ => inferInstanceAs (Decidable (_ ∨ _))
  | .tick _ => inferInstanceAs (Decidable (_ ∨ _))
  | .stop _ => inferInstanceAs (Decidable (_ ∨ _))
  | .appendEntry .. => isTrue trivial

/-- An entry is appended, and a command waits in the batch. -/
theorem entries_keep_data_once : ∃ s',
    run cellStep (.start firstLeader)
        [.appendEntry 1 .command [7], .command emptyCommand, .tick 10] = some s' ∧
      s'.node.log.entries ≠ [] ∧ EntriesIntact s' := by
  have hstart : KeepsData (.start firstLeader) := keepsData_start rfl
  have hguard : Guarded cellStep FreesNothing (.start firstLeader)
      [.appendEntry 1 .command [7], .command emptyCommand, .tick 10] := by decide
  exact ⟨_, rfl, by decide, (entries_keep_data_iff hstart rfl).2 hguard⟩

/-- A batch that the batch processor logs: the entry refers to a buffer that has been freed, and
`log_destroy` frees it again. -/
theorem entries_lose_data : ∃ s',
    run cellStep (.start firstLeader) [.command emptyCommand, .tick 50] = some s' ∧
      s'.node.log.entries.map RaftEntry.data = [emptyCommand.bytes] ∧ s'.data = [some 0] ∧
      s'.memory.cell 0 = none ∧ s'.load 0 = none ∧ logDestroy s' = none ∧
      ¬ EntriesIntact s' := by
  refine ⟨_, rfl, rfl, rfl, rfl, rfl, rfl, fun h => ?_⟩
  exact absurd h.destroys Bool.false_ne_true

end Oceanliner
