/-
The command batcher (`command_batcher.c`).

The functions below are the critical sections of the source: each runs with `batch_mutex`
held.  Where the source takes the current batch out to hand it to the callback, the function
returns the batch that was taken; the callback itself runs outside the lock.
-/
import Oceanliner.Globals

namespace Oceanliner

/-- `MAX_COMMAND_BUFFER`. -/
def maxCommandBuffer : ℕ := 65536

/-- `DEFAULT_BATCH_DELAY_MS`. -/
def defaultBatchDelayMs : ℕ := 50

/-- `CommandBatch`.  Of the buffer `commands` only the part that has been written is kept;
the creation time is in milliseconds of the monotonic clock. -/
structure CommandBatch where
  numCommands : ℕ
  totalLength : ℕ
  commands : List UInt8
  creationTime : ℕ
  length_eq : commands.length = totalLength
  total_le : totalLength ≤ maxCommandBuffer
  num_le : numCommands ≤ totalLength
  num_pos : 0 < totalLength → 0 < numCommands
deriving DecidableEq

/-- The empty batch of `command_batcher_new_batch`. -/
def CommandBatch.new (now : ℕ) : CommandBatch where
  numCommands := 0
  totalLength := 0
  commands := []
  creationTime := now
  length_eq := rfl
  total_le := Nat.zero_le _
  num_le := le_rfl
  num_pos := fun h => absurd h (lt_irrefl 0)

/-- The batch with the bytes of one more command in its buffer.  The counter of commands is
a `uint32_t`, which cannot wrap around because every command takes at least one byte. -/
def CommandBatch.push (batch : CommandBatch) (command : List UInt8) (hne : command.length ≠ 0)
    (hfit : batch.totalLength + command.length ≤ maxCommandBuffer) : CommandBatch where
  numCommands := batch.numCommands + 1
  totalLength := batch.totalLength + command.length
  commands := batch.commands ++ command
  creationTime := batch.creationTime
  length_eq := by rw [List.length_append, batch.length_eq]
  total_le := hfit
  num_le := by
    have := batch.num_le
    omega
  num_pos := fun _ => Nat.succ_pos _

/-- `CommandBatcher`.  The callback is an argument of the operations that call it. -/
structure CommandBatcher where
  currentBatch : CommandBatch
  batchDelayMs : ℕ
  active : Bool
deriving DecidableEq

/-- `get_elapsed_ms`, in `uint64_t` arithmetic. -/
def getElapsedMs (start now : ℕ) : ℕ := u64 (2 ^ 64 + now - start)

/-- `command_batcher_new_batch`. -/
def commandBatcherNewBatch (b : CommandBatcher) (now : ℕ) : CommandBatcher :=
  { b with currentBatch := .new now }

/-- `command_batcher_init`. -/
def commandBatcherInit (batchDelayMs now : ℕ) : CommandBatcher :=
  { currentBatch := .new now
    batchDelayMs := if batchDelayMs > 0 then batchDelayMs else defaultBatchDelayMs
    active := false }

/-- `command_batcher_start`, when the thread can be created. -/
def commandBatcherStart (b : CommandBatcher) : CommandBatcher :=
  if b.active then b else { b with active := true }

/-- `command_batcher_add_command`.  The pointer and the length the caller passes are the list
`command`; the length parameter is a `uint32_t`, so the caller's `size_t` is reduced on the
way in, and only that many bytes are copied. -/
def commandBatcherAddCommand (b : CommandBatcher) (command : List UInt8) :
    Bool × CommandBatcher :=
  let copied := command.take (u32 command.length)
  if hne : copied.length = 0 then (false, b)
  else if hfit : b.currentBatch.totalLength + copied.length > maxCommandBuffer then (false, b)
  else (true, { b with currentBatch := b.currentBatch.push copied hne (not_lt.1 hfit) })

/-- The test of `batch_processor_thread` for handing the current batch over: it is old
enough, or it is half full. -/
def shouldFlush (b : CommandBatcher) (now : ℕ) : Bool :=
  decide (b.currentBatch.numCommands > 0) &&
    (decide (getElapsedMs b.currentBatch.creationTime now ≥ b.batchDelayMs) ||
      decide (b.currentBatch.totalLength ≥ maxCommandBuffer / 2))

/-- One pass of the loop of `batch_processor_thread`, as far as it runs under the lock: the
batch it takes out, and the batcher it leaves behind. -/
def batchProcessorTake (b : CommandBatcher) (now : ℕ) : Option CommandBatch × CommandBatcher :=
  if b.active && shouldFlush b now then
    (some b.currentBatch, commandBatcherNewBatch b now)
  else (none, b)

/-- The critical section of `command_batcher_flush`. -/
def commandBatcherFlushTake (b : CommandBatcher) (now : ℕ) :
    Option CommandBatch × CommandBatcher :=
  if b.currentBatch.numCommands > 0 then (some b.currentBatch, commandBatcherNewBatch b now)
  else (none, b)

/-- The critical section of `command_batcher_stop`, which ends the thread and takes what is
left. -/
def commandBatcherStopTake (b : CommandBatcher) (now : ℕ) :
    Option CommandBatch × CommandBatcher :=
  if b.active then commandBatcherFlushTake { b with active := false } now else (none, b)

/-! ### What a batch holds -/

lemma CommandBatch.commands_eq_nil {batch : CommandBatch} (h : batch.numCommands = 0) :
    batch.commands = [] := by
  have ht : batch.totalLength = 0 := by
    by_contra ht
    have := batch.num_pos (Nat.pos_of_ne_zero ht)
    omega
  rw [← List.length_eq_zero_iff, batch.length_eq, ht]

/-- What `command_batcher_add_command` does with a command it accepts: the part of it that
its reduced length covers is not empty, fits into the buffer and stands at its end. -/
structure AddsCommand (b : CommandBatcher) (command : List UInt8) (b' : CommandBatcher) :
    Prop where
  ne : u32 command.length ≠ 0
  fit : b.currentBatch.totalLength + u32 command.length ≤ maxCommandBuffer
  num : b'.currentBatch.numCommands = b.currentBatch.numCommands + 1
  commands : b'.currentBatch.commands =
    b.currentBatch.commands ++ command.take (u32 command.length)

lemma length_take_u32 (command : List UInt8) :
    (command.take (u32 command.length)).length = u32 command.length := by
  rw [List.length_take]
  exact min_eq_left (Nat.mod_le _ _)

lemma addCommand_accept {b b' : CommandBatcher} {command : List UInt8}
    (h : commandBatcherAddCommand b command = (true, b')) : AddsCommand b command b' := by
  simp only [commandBatcherAddCommand] at h
  split at h
  · cases h
  · rename_i hne
    split at h
    · cases h
    · rename_i hfit
      obtain rfl : _ = b' := (Prod.mk.injEq .. ▸ h).2
      rw [length_take_u32] at hne hfit
      exact ⟨hne, not_lt.1 hfit, rfl, rfl⟩

/-- A refused command leaves the batcher as it was. -/
lemma addCommand_refuse {b b' : CommandBatcher} {command : List UInt8}
    (h : commandBatcherAddCommand b command = (false, b')) :
    b' = b ∧ (u32 command.length = 0 ∨
      b.currentBatch.totalLength + u32 command.length > maxCommandBuffer) := by
  simp only [commandBatcherAddCommand, length_take_u32] at h
  split at h
  · rename_i hne
    exact ⟨(Prod.mk.injEq .. ▸ h).2.symm, Or.inl hne⟩
  · split at h
    · rename_i hfit
      exact ⟨(Prod.mk.injEq .. ▸ h).2.symm, Or.inr hfit⟩
    · cases h

/-- What a critical section that may take the current batch out does: it takes nothing and
keeps the batch, or it takes a batch that is not empty and leaves an empty one. -/
inductive TakesBatch (b : CommandBatcher) : Option CommandBatch × CommandBatcher → Prop where
  | kept {b' : CommandBatcher} (h : b'.currentBatch = b.currentBatch) : TakesBatch b (none, b')
  | taken {b' : CommandBatcher} (h : 0 < b.currentBatch.numCommands)
      (hnum : b'.currentBatch.numCommands = 0) : TakesBatch b (some b.currentBatch, b')

lemma flushTake_takes (b : CommandBatcher) (now : ℕ) :
    TakesBatch b (commandBatcherFlushTake b now) := by
  rw [commandBatcherFlushTake]
  split
  · rename_i hpos
    exact .taken hpos rfl
  · exact .kept rfl

lemma processorTake_takes (b : CommandBatcher) (now : ℕ) :
    TakesBatch b (batchProcessorTake b now) := by
  rw [batchProcessorTake]
  split
  · rename_i hflush
    simp only [shouldFlush, Bool.and_eq_true, decide_eq_true_eq] at hflush
    exact .taken hflush.2.1 rfl
  · exact .kept rfl

lemma stopTake_takes (b : CommandBatcher) (now : ℕ) :
    TakesBatch b (commandBatcherStopTake b now) := by
  rw [commandBatcherStopTake]
  split
  · rw [commandBatcherFlushTake]
    split
    · rename_i hpos
      exact .taken hpos rfl
    · exact .kept rfl
  · exact .kept rfl

end Oceanliner
