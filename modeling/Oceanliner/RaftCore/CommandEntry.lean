/-
# Log entries made from single commands

`raft_create_entry_from_command` adds up the header, the key and the value of a command, and
copies as many bytes.  The padding between value and key and the zero byte behind the key are not
in the sum.  So the value survives (`create_entry_value`), while the key has lost its terminator
and as many of its last bytes as there is padding in front of it (`create_entry_key`), and no
command at all comes out as it went in (`create_entry_never_carries`).
-/
import Oceanliner.KvStateMachine
import Oceanliner.RaftCore.Apply

open Bytes

namespace Oceanliner

/-- `raft_create_entry_from_command`, when its allocations succeed. -/
def raftCreateEntryFromCommand (term : ℕ) (buf : List UInt8) (cmd : ℕ) : RaftEntry :=
  let cmdSize := sizeofKvsCommand + keyLength buf cmd + valueLength buf cmd
  { term := term, index := 0, type := .command, data := slice buf cmd cmdSize }

/-- An entry holds the complete command: it has its length, its key with the zero byte and its
value are found in it, and it is the command that the state machine is passed. -/
structure EntryCarries (e : RaftEntry) (c : MapCommand) : Prop where
  length : kvsCommandLen c.bytes 0 = some e.data.length
  key : ∃ off, kvsCommandGetKey e.data 0 = some off ∧
    slice e.data off (c.key.length + 1) = c.key ++ [0]
  value : ∃ off, kvsCommandGetValue 0 = some off ∧
    slice e.data off (valueLength e.data 0) = c.value
  applied : ∀ (σ : Type) (apply : σ → List UInt8 → ℕ → ℤ × σ) (s : Applying σ),
    (applyData apply s e.data).map (fun r => r.2.passed) = some (s.passed ++ [c.bytes])

namespace MapCommand

variable (c : MapCommand)

/-- The key has as many bytes as the command says. -/
lemma length_key : c.key.length = keyLength c.bytes 0 := by
  have hlen := congrArg List.length c.key_eq
  have hle := c.toKvsRecord.keyOffset_le
  rw [length_slice, List.length_append, List.length_singleton] at hlen
  omega

end MapCommand

section Created

variable (term : ℕ) (c : MapCommand)

lemma create_entry_data : (raftCreateEntryFromCommand term c.bytes 0).data =
    c.bytes.take (sizeofKvsCommand + keyLength c.bytes 0 + valueLength c.bytes 0) := rfl

/-- The entry is shorter than the command. -/
lemma create_entry_length :
    (raftCreateEntryFromCommand term c.bytes 0).data.length =
        sizeofKvsCommand + keyLength c.bytes 0 + valueLength c.bytes 0 ∧
      sizeofKvsCommand + keyLength c.bytes 0 + valueLength c.bytes 0 < c.bytes.length := by
  have hle := c.toKvsRecord.keyOffset_le
  rw [KvsRecord.keyOffset] at hle
  rw [create_entry_data, List.length_take, sizeofKvsCommand]
  omega

/-- The value is in the entry. -/
lemma create_entry_value :
    slice (raftCreateEntryFromCommand term c.bytes 0).data sizeofKvsCommand
      (valueLength c.bytes 0) = c.value := by
  rw [create_entry_data, slice, List.drop_take, List.take_take, MapCommand.value, slice,
    sizeofKvsCommand]
  congr 1
  omega

/-- Of the key the entry has all but the last bytes, and never the zero byte. -/
lemma create_entry_key :
    (raftCreateEntryFromCommand term c.bytes 0).data.drop c.toKvsRecord.keyOffset =
      c.key.take (sizeofKvsCommand + keyLength c.bytes 0 + valueLength c.bytes 0 -
        c.toKvsRecord.keyOffset) := by
  have hkey : (c.bytes.drop c.toKvsRecord.keyOffset).take (keyLength c.bytes 0) = c.key := by
    have h := congrArg (List.take (keyLength c.bytes 0)) c.key_eq
    rw [slice, List.take_take, ← c.length_key, Nat.min_eq_left (Nat.le_succ _),
      List.take_left] at h
    rw [← c.length_key, h]
  rw [create_entry_data, List.drop_take, ← hkey, List.take_take, KvsRecord.keyOffset,
    sizeofKvsCommand]
  congr 1
  omega

/-- The length fields of the entry are those of the command. -/
lemma create_entry_lengths :
    keyLength (raftCreateEntryFromCommand term c.bytes 0).data 0 = keyLength c.bytes 0 ∧
      valueLength (raftCreateEntryFromCommand term c.bytes 0).data 0 = valueLength c.bytes 0 := by
  have hlen := (create_entry_length term c).1
  have hle : sizeofKvsCommand ≤ (raftCreateEntryFromCommand term c.bytes 0).data.length := by
    omega
  have hsplit := List.take_append_drop
    (sizeofKvsCommand + keyLength c.bytes 0 + valueLength c.bytes 0) c.bytes
  rw [← create_entry_data term c] at hsplit
  have hkey := keyLength_append hle
    (c.bytes.drop (sizeofKvsCommand + keyLength c.bytes 0 + valueLength c.bytes 0))
  have hvalue := valueLength_append hle
    (c.bytes.drop (sizeofKvsCommand + keyLength c.bytes 0 + valueLength c.bytes 0))
  rw [hsplit] at hkey hvalue
  exact ⟨hkey.symm, hvalue.symm⟩

/-- The state machine is passed the shortened command. -/
lemma applyData_created {σ : Type} (apply : σ → List UInt8 → ℕ → ℤ × σ) (s : Applying σ) :
    (applyData apply s (raftCreateEntryFromCommand term c.bytes 0).data).map
        (fun r => r.2.passed) =
      some (s.passed ++ [(raftCreateEntryFromCommand term c.bytes 0).data]) := by
  obtain ⟨hkey, hvalue⟩ := create_entry_lengths term c
  obtain ⟨hlen, hlt⟩ := create_entry_length term c
  have hcmd : commandAt (raftCreateEntryFromCommand term c.bytes 0).data 0 =
      (raftCreateEntryFromCommand term c.bytes 0).data := by
    rw [commandAt, hkey, hvalue, ← c.length_eq, slice, List.drop_zero,
      List.take_of_length_le (by omega)]
  have hfirst : kvsCommandLen (raftCreateEntryFromCommand term c.bytes 0).data 0 =
      some c.bytes.length := by
    rw [kvsCommandLen, if_pos rfl, hkey, hvalue, ← c.length_eq]
  have hcall : (callApply apply s (raftCreateEntryFromCommand term c.bytes 0).data 0).2.passed =
      s.passed ++ [(raftCreateEntryFromCommand term c.bytes 0).data] := by
    rw [callApply_passed, hcmd]
  rw [applyData, hfirst, Option.bind_some, if_neg (by omega : ¬ c.bytes.length < _)]
  split
  · rw [Option.map_some, hcall]
  · rw [Option.map_some, hcall]

/-- **No command survives becoming a log entry**: the entry is too short for the command. -/
theorem create_entry_never_carries :
    ¬ EntryCarries (raftCreateEntryFromCommand term c.bytes 0) c := by
  intro h
  have hlen := h.length
  rw [c.toKvsRecord.kvsCommandLen_bytes, Option.some.injEq] at hlen
  have hshort := create_entry_length term c
  omega

end Created

/-- The shortest SET: its entry has 30 bytes in the place of 40. -/
theorem create_entry_short_set :
    ¬ EntryCarries (raftCreateEntryFromCommand 1 shortSet.bytes 0) shortSet :=
  fun h => absurd h.length (by decide)

end Oceanliner
