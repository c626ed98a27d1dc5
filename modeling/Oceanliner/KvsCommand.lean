/-
Commands of the key-value store in memory (`kvs_command_t` of `globals.h`, and the functions
on it in `log_file.c`).

A command is stored as a header of 28 bytes (`key_length`, `value_length`, `return_addr`,
`type`), the value, and the NUL-terminated key at the next multiple of 4.  A pointer to a
command is a buffer together with an offset into it; the buffer itself starts at an address
that is a multiple of 8, as every buffer of the program does, so the offset is what the
assertions on the address check.
-/
import Oceanliner.Globals

open Bytes

namespace Oceanliner

/-- `sizeof(kvs_command_t)`. -/
def sizeofKvsCommand : ℕ := 28

section Fields

variable (buf : List UInt8) (cmd : ℕ)

def keyLength : ℕ := le (slice buf cmd 4)

def valueLength : ℕ := le (slice buf (cmd + 4) 4)

/-- The field `type`. -/
def opType : ℕ := le (slice buf (cmd + 24) 4)

lemma keyLength_lt : keyLength buf cmd < 2 ^ 32 :=
  lt_of_lt_of_eq (le_slice_lt buf cmd 4) (by norm_num)

lemma valueLength_lt : valueLength buf cmd < 2 ^ 32 :=
  lt_of_lt_of_eq (le_slice_lt buf (cmd + 4) 4) (by norm_num)

end Fields

section Append

variable {buf : List UInt8} (h : sizeofKvsCommand ≤ buf.length) (suf : List UInt8)

include h

lemma keyLength_append : keyLength (buf ++ suf) 0 = keyLength buf 0 := by
  rw [sizeofKvsCommand] at h
  rw [keyLength, keyLength, slice_append_left (by omega)]

lemma valueLength_append : valueLength (buf ++ suf) 0 = valueLength buf 0 := by
  rw [sizeofKvsCommand] at h
  rw [valueLength, valueLength, slice_append_left (by omega)]

lemma opType_append : opType (buf ++ suf) 0 = opType buf 0 := by
  rw [sizeofKvsCommand] at h
  rw [opType, opType, slice_append_left (by omega)]

end Append

/-- The length that `kvs_command_len` computes from the two length fields. -/
def kvsLen (keyLength valueLength : ℕ) : ℕ :=
  jumpToAlignment
    (u64 (sizeofKvsCommand + jumpToAlignment valueLength 4 + keyLength + 1)) 8

/-- `kvs_command_len`; `none` is the failed assertion on the address. -/
def kvsCommandLen (buf : List UInt8) (cmd : ℕ) : Option ℕ :=
  if cmd % 8 = 0 then some (kvsLen (keyLength buf cmd) (valueLength buf cmd)) else none

/-- `kvs_command_get_key`: where the key starts. -/
def kvsCommandGetKey (buf : List UInt8) (cmd : ℕ) : Option ℕ :=
  if cmd % 8 = 0 then
    some (jumpToAlignment (cmd + sizeofKvsCommand + valueLength buf cmd) 4)
  else none

/-- `kvs_command_get_value`: where the value starts. -/
def kvsCommandGetValue (cmd : ℕ) : Option ℕ :=
  if cmd % 8 = 0 then some (cmd + sizeofKvsCommand) else none

/-- The bytes of the command at `cmd`, up to the length its fields give. -/
def commandAt (buf : List UInt8) (cmd : ℕ) : List UInt8 :=
  slice buf cmd (kvsLen (keyLength buf cmd) (valueLength buf cmd))

/-! ### The length of a command -/

/-- The two roundings without masks: for 32-bit fields nothing wraps around. -/
lemma kvsLen_eq {k v : ℕ} (hk : k < 2 ^ 32) (hv : v < 2 ^ 32) :
    kvsLen k v = (28 + (v + 3) / 4 * 4 + k + 1 + 7) / 8 * 8 := by
  have hv4 : jumpToAlignment v 4 = (v + 3) / 4 * 4 := jumpToAlignment_four (by omega)
  have hsum : 28 + (v + 3) / 4 * 4 + k + 1 < 2 ^ 64 := by omega
  rw [kvsLen, hv4, sizeofKvsCommand, u64_of_lt hsum, jumpToAlignment_eight (by omega)]

section

variable {k v : ℕ} (hk : k < 2 ^ 32) (hv : v < 2 ^ 32)

include hk hv

lemma kvsLen_mod_eight : kvsLen k v % 8 = 0 := by
  rw [kvsLen_eq hk hv]
  omega

lemma thirtyTwo_le_kvsLen : 32 ≤ kvsLen k v := by
  rw [kvsLen_eq hk hv]
  omega

end

lemma kvsCommandLen_pos {buf : List UInt8} {cmd size : ℕ} (h : kvsCommandLen buf cmd = some size) :
    0 < size := by
  rw [kvsCommandLen] at h
  split at h
  · obtain rfl := Option.some.inj h
    have := thirtyTwo_le_kvsLen (keyLength_lt buf cmd) (valueLength_lt buf cmd)
    omega
  · cases h

/-! ### Records -/

/-- A list of bytes that holds exactly one command, with the padding at its end. -/
structure KvsRecord where
  bytes : List UInt8
  length_eq : bytes.length = kvsLen (keyLength bytes 0) (valueLength bytes 0)
deriving DecidableEq

namespace KvsRecord

variable (r : KvsRecord)

lemma thirtyTwo_le_length : 32 ≤ r.bytes.length := by
  rw [r.length_eq]
  exact thirtyTwo_le_kvsLen (keyLength_lt _ _) (valueLength_lt _ _)

lemma length_mod_eight : r.bytes.length % 8 = 0 := by
  rw [r.length_eq]
  exact kvsLen_mod_eight (keyLength_lt _ _) (valueLength_lt _ _)

/-- A slice inside the record, read in a buffer that contains the record. -/
lemma slice_eq (pre suf : List UInt8) {off n : ℕ} (h : off + n ≤ r.bytes.length) :
    slice (pre ++ (r.bytes ++ suf)) (pre.length + off) n = slice r.bytes off n := by
  rw [slice_append_right, slice_append_left h]

lemma keyLength_eq (pre suf : List UInt8) :
    keyLength (pre ++ (r.bytes ++ suf)) pre.length = keyLength r.bytes 0 := by
  have hlen : 0 + 4 ≤ r.bytes.length := by
    have := r.thirtyTwo_le_length
    omega
  have h := r.slice_eq pre suf hlen
  rw [keyLength, keyLength, ← h, Nat.add_zero]

lemma valueLength_eq (pre suf : List UInt8) :
    valueLength (pre ++ (r.bytes ++ suf)) pre.length = valueLength r.bytes 0 := by
  have hlen : 4 + 4 ≤ r.bytes.length := by
    have := r.thirtyTwo_le_length
    omega
  have h := r.slice_eq pre suf hlen
  rw [valueLength, valueLength, ← h]

lemma opType_eq (pre suf : List UInt8) :
    opType (pre ++ (r.bytes ++ suf)) pre.length = opType r.bytes 0 := by
  have hlen : 24 + 4 ≤ r.bytes.length := by
    have := r.thirtyTwo_le_length
    omega
  have h := r.slice_eq pre suf hlen
  rw [opType, opType, ← h]

/-- `kvs_command_len` finds the end of a record that stands at a multiple of 8. -/
lemma kvsCommandLen_eq (pre suf : List UInt8) (h : pre.length % 8 = 0) :
    kvsCommandLen (pre ++ (r.bytes ++ suf)) pre.length = some r.bytes.length := by
  rw [kvsCommandLen, if_pos h, keyLength_eq, valueLength_eq, ← r.length_eq]

lemma kvsCommandLen_bytes : kvsCommandLen r.bytes 0 = some r.bytes.length := by
  have h := r.kvsCommandLen_eq [] [] rfl
  rwa [List.nil_append, List.append_nil] at h

/-- The bytes of a record in a buffer that contains it. -/
lemma slice_bytes (pre suf : List UInt8) :
    slice (pre ++ (r.bytes ++ suf)) pre.length r.bytes.length = r.bytes := by
  rw [slice, List.drop_left, List.take_left]

lemma commandAt_eq (pre suf : List UInt8) :
    commandAt (pre ++ (r.bytes ++ suf)) pre.length = r.bytes := by
  rw [commandAt, keyLength_eq, valueLength_eq, ← r.length_eq, slice_bytes]

end KvsRecord

/-- A command without key and value. -/
def emptyCommand : KvsRecord := ⟨List.replicate 32 0, by decide⟩

/-- The bytes of a command of the given type with the key `"k"` and the value `"v"`. -/
def shortBytes (type : UInt8) : List UInt8 :=
  [1, 0, 0, 0, 1, 0, 0, 0] ++ List.replicate 16 0 ++ [type, 0, 0, 0] ++
    [118, 0, 0, 0, 107, 0] ++ List.replicate 6 0

/-- The bytes of a sequence of records. -/
def recordBytes (rs : List KvsRecord) : List UInt8 := (rs.map KvsRecord.bytes).flatten

@[simp] lemma recordBytes_nil : recordBytes [] = [] := rfl

@[simp] lemma recordBytes_cons (r : KvsRecord) (rs : List KvsRecord) :
    recordBytes (r :: rs) = r.bytes ++ recordBytes rs := by
  simp [recordBytes]

@[simp] lemma recordBytes_append (rs rs' : List KvsRecord) :
    recordBytes (rs ++ rs') = recordBytes rs ++ recordBytes rs' := by
  simp [recordBytes]

lemma length_recordBytes_concat (rs : List KvsRecord) (r : KvsRecord) :
    (recordBytes (rs ++ [r])).length = (recordBytes rs).length + r.bytes.length := by
  rw [recordBytes_append, List.length_append, recordBytes_cons, recordBytes_nil, List.append_nil]

lemma length_recordBytes_mod_eight (rs : List KvsRecord) :
    (recordBytes rs).length % 8 = 0 := by
  induction rs with
  | nil => rfl
  | cons r rs ih =>
      have hr := r.length_mod_eight
      rw [recordBytes_cons, List.length_append]
      omega

end Oceanliner
