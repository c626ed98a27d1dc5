/-
# The log files of the example script

`generate-log-file-example.py` draws random SET commands and writes them as a text or as a binary
log file, with a header of 64 bytes before and behind the commands, and it converts binary files to
text.  Of the same draws the converter makes the text that `gen_txt_logfile` writes, and of a file
that has been cut off the text of the commands that are still there as a whole
(`Converter.binToTxtLogfile_take`).

A `str` is a list of characters.  The draws are arguments, as is the digest of `hashlib.sha256`, of
which nothing is needed but its length.
-/
import Mathlib.Data.List.DropRight
import Oceanliner.Lib.Appending
import Oceanliner.Lib.Bytes

open Bytes Appending

namespace Oceanliner

namespace Converter

/-! ### Texts -/

/-- `str` of a number. -/
def str (n : ℕ) : List Char := Nat.toDigits 10 n

/-- `','.join(str(b) for b in value)`. -/
def valueStr (value : List UInt8) : List Char :=
  [','].intercalate (value.map fun b => str b.toNat)

/-- `key.encode('utf-8')`. -/
def encodeUtf8 (key : List Char) : List UInt8 := key.flatMap String.utf8EncodeChar

/-- `key.decode('utf-8')`, which raises an exception for what is not UTF-8. -/
def decodeUtf8 (bytes : List UInt8) : Option (List Char) :=
  bytes.toByteArray.utf8Decode?.map Array.toList

/-- The characters that `strip` removes. -/
def isSpace (c : Char) : Bool :=
  (9 ≤ c.toNat && c.toNat ≤ 13) || (28 ≤ c.toNat && c.toNat ≤ 32) ||
    (8192 ≤ c.toNat && c.toNat ≤ 8202) ||
      [133, 160, 5760, 8232, 8233, 8239, 8287, 12288].contains c.toNat

/-- `strip`. -/
def strip (s : List Char) : List Char := (s.dropWhile isSpace).rdropWhile isSpace

/-- The name that the converter gives to a command code. -/
def commandName (code : UInt8) : List Char :=
  match code.toNat with
  | 0 => "NOP".toList
  | 1 => "GET".toList
  | 2 => "SET".toList
  | 3 => "DELETE".toList
  | n => "UNKNOWN_".toList ++ str n

/-- `f"{name}|{key}|{value_str}"`. -/
def textLine (name key : List Char) (value : List UInt8) : List Char :=
  name ++ '|' :: (key ++ '|' :: valueStr value)

/-! ### Drawing commands -/

/-- `KEY_LEN`. -/
def keyLen : ℕ × ℕ := (1, 100)

/-- `VAL_LEN`. -/
def valLen : ℕ × ℕ := (10, 1000)

/-- What the script draws for one command: a key of small letters, and a value. -/
structure Draw where
  key : List Char
  value : List UInt8
  key_letters : ∀ c ∈ key, 97 ≤ c.toNat ∧ c.toNat ≤ 97 + 25
  key_length : keyLen.1 ≤ key.length ∧ key.length ≤ keyLen.2
  value_length : valLen.1 ≤ value.length ∧ value.length ≤ valLen.2

/-- `gen_txt_logfile`. -/
def genTxtLogfile (cmds : List Draw) : List Char :=
  strip (cmds.foldl
    (fun corpus c => corpus ++ (textLine "SET".toList c.key c.value ++ ['\n'])) [])

/-- `padding_size`, and `padding` in the converter. -/
def paddingSize (offset : ℕ) : ℕ := (8 - offset % 8) % 8

/-- The number of bytes from the command code to the zero byte behind the key. -/
def headSize (c : Draw) : ℕ := 1 + (encodeUtf8 c.key).length + 1

/-- What one pass of the loop of `gen_bin_logfile` appends to `commands_data`. -/
def packCommand (offset : ℕ) (c : Draw) : List UInt8 :=
  2 :: (encodeUtf8 c.key ++ 0 :: (List.replicate (paddingSize (offset + headSize c)) 0 ++
    (toLe 8 c.value.length ++ c.value)))

/-- `commands_data`. -/
def commandsData (cmds : List Draw) : List UInt8 := written packCommand [] cmds

/-- `struct.pack("<IIQQ", ...)`, for the `term` and the `log_index` that are always 1. -/
def packFields (numCommands commandLength : ℕ) : List UInt8 :=
  toLe 4 1 ++ (toLe 4 numCommands ++ (toLe 8 1 ++ toLe 8 commandLength))

/-- The header of 64 bytes, with 24 bytes of a digest where the converter does not look. -/
def genHeader (sha256 : List UInt8 → Vector UInt8 32) (magicNumber : Vector UInt8 16)
    (numCommands commandLength : ℕ) : List UInt8 :=
  packFields numCommands commandLength ++
    ((sha256 (packFields numCommands commandLength ++
      (List.replicate 20 0 ++ magicNumber.toList))).toList.take 24 ++ magicNumber.toList)

/-- `gen_bin_logfile`; `struct.pack` raises an exception for numbers that do not fit. -/
def genBinLogfile (sha256 : List UInt8 → Vector UInt8 32) (magicNumber : Vector UInt8 16)
    (cmds : List Draw) : Option (List UInt8) :=
  let data := commandsData cmds
  let header := genHeader sha256 magicNumber cmds.length data.length
  if cmds.length < 2 ^ 32 ∧ data.length < 2 ^ 64 ∧ header.length = 64 then
    some (header ++ (data ++ header))
  else none

/-! ### Converting -/

/-- What the converter can stop at: a `ValueError` of its own, or a key that is not UTF-8. -/
inductive ConvertError where
  | value (message : String)
  | unicodeDecode

/-- What the converter reads of a header. -/
structure HeaderFields where
  term : ℕ
  numCommands : ℕ
  logIndex : ℕ
  commandLength : ℕ
deriving DecidableEq

/-- `struct.unpack("<IIQQ", header[:24])`. -/
def unpackHeader (header : List UInt8) : HeaderFields where
  term := le (slice header 0 4)
  numCommands := le (slice header 4 4)
  logIndex := le (slice header 8 8)
  commandLength := le (slice header 16 8)

section Read

variable (data : List UInt8)

/-- The key of the command with the number `i`, from the offset `offset` on, and the offset behind
its zero byte. -/
def readKey (i offset : ℕ) : Except ConvertError (List Char × ℕ) :=
  let key := cString data offset
  if offset + key.length ≥ data.length then
    .error (.value s!"Key not null-terminated in command {i + 1}")
  else
    match decodeUtf8 key with
    | none => .error .unicodeDecode
    | some key' => .ok (key', offset + key.length + 1)

/-- `struct.unpack("<Q", commands_data[offset:offset+8])[0]`. -/
def unpackLength (offset : ℕ) : ℕ := le (slice data offset 8)

/-- The value of the command with the number `i`, from its length on, and the offset behind it. -/
def readValue (i offset : ℕ) : Except ConvertError (List UInt8 × ℕ) :=
  if offset + 8 > data.length then
    .error (.value s!"Unexpected end of data at value_length in command {i + 1}")
  else if offset + 8 + unpackLength data offset > data.length then
    .error (.value s!"Unexpected end of data at value in command {i + 1}")
  else
    .ok (slice data (offset + 8) (unpackLength data offset),
      offset + 8 + unpackLength data offset)

/-- One pass of the loop of `bin_to_txt_logfile`. -/
def readCommand (numCommands i offset : ℕ) : Except ConvertError (List Char × ℕ) :=
  match data[offset]? with
  | none => .error (.value s!"Unexpected end of data at command {i + 1}/{numCommands}")
  | some commandCode =>
      match readKey data i (offset + 1) with
      | .error e => .error e
      | .ok (key, offset) =>
          match readValue data i (offset + paddingSize offset) with
          | .error e => .error e
          | .ok (value, offset) => .ok (textLine (commandName commandCode) key value, offset)

end Read

/-- What a conversion leaves behind: the text, whether it has warned that the headers do not match,
and the error in the commands that it has reported. -/
structure Conversion where
  text : List Char
  warning : Bool
  error : Option ConvertError

/-- The loop of `bin_to_txt_logfile`, which stops at the first exception. -/
def convertCommands (data : List UInt8) (header : HeaderFields) :
    List (List Char) × Option ConvertError :=
  readAll (readCommand (slice data 64 header.commandLength) header.numCommands)
    header.numCommands 0 0

/-- `bin_to_txt_logfile`. -/
def binToTxtLogfile (data : List UInt8) : Except ConvertError Conversion :=
  if data.length < 128 then .error (.value "Binary file too small, missing headers")
  else
    .ok
      { text := ['\n'].intercalate (convertCommands data (unpackHeader (data.take 64))).1
        warning := decide
          (unpackHeader (data.take 64) ≠ unpackHeader (data.drop (data.length - 64)))
        error := (convertCommands data (unpackHeader (data.take 64))).2 }

/-! ### Commands are read back -/

lemma decodeUtf8_encodeUtf8 (key : List Char) : decodeUtf8 (encodeUtf8 key) = some key := by
  have hdecode : (encodeUtf8 key).toByteArray.utf8Decode? = some key.toArray :=
    List.utf8Decode?_utf8Encode
  rw [decodeUtf8, hdecode, Option.map_some]

/-- No byte of a key is the zero byte behind it. -/
lemma Draw.ne_zero (c : Draw) : ∀ b ∈ encodeUtf8 c.key, b ≠ 0 := by
  intro b hb
  obtain ⟨ch, hch, hb⟩ := List.mem_flatMap.1 hb
  obtain ⟨hlow, hhigh⟩ := c.key_letters ch hch
  have hval : ch.val.toNat = ch.toNat := rfl
  have hone : ch.utf8Size = 1 := by
    rw [Char.utf8Size_eq_one_iff, UInt32.le_iff_toNat_le, hval]
    exact hhigh.trans (by decide)
  rw [String.utf8EncodeChar_eq_singleton hone, List.mem_singleton] at hb
  rintro rfl
  have hzero := congrArg UInt8.toNat hb
  rw [UInt32.toNat_toUInt8, hval] at hzero
  have hmod : (0 : UInt8).toNat = 0 := rfl
  omega

section Spec

variable (pre suf : List UInt8) (i : ℕ)

lemma readKey_whole (c : Draw) :
    readKey (pre ++ (encodeUtf8 c.key ++ 0 :: suf)) i pre.length =
      .ok (c.key, pre.length + (encodeUtf8 c.key).length + 1) := by
  have hkey : cString (pre ++ (encodeUtf8 c.key ++ 0 :: suf)) pre.length = encodeUtf8 c.key := by
    rw [cString, List.drop_left, List.takeWhile_append_of_pos (by simpa using c.ne_zero)]
    simp
  rw [readKey, hkey, if_neg, decodeUtf8_encodeUtf8]
  simp

/-- A key that goes on to the end of the data does not end. -/
lemma readKey_cut {data : List UInt8} {offset : ℕ} (h : ∀ b ∈ data.drop offset, b ≠ 0) :
    ∃ e, readKey data i offset = .error e := by
  have hkey : cString data offset = data.drop offset := by
    rw [cString, List.takeWhile_eq_self_iff]
    simpa using h
  have hend : offset + (data.drop offset).length ≥ data.length := by
    rw [List.length_drop]
    omega
  rw [readKey, hkey, if_pos hend]
  exact ⟨_, rfl⟩

/-- The length that stands before a value. -/
lemma unpackLength_toLe {n : ℕ} (hn : n < 2 ^ 64) :
    unpackLength (pre ++ (toLe 8 n ++ suf)) pre.length = n :=
  Bytes.le_slice_toLe pre suf (hn.trans_eq (by norm_num))

lemma readValue_whole {value : List UInt8} (hlength : value.length < 2 ^ 64) :
    readValue (pre ++ (toLe 8 value.length ++ (value ++ suf))) i pre.length =
      .ok (value, pre.length + 8 + value.length) := by
  have hvalue : slice (pre ++ (toLe 8 value.length ++ (value ++ suf))) (pre.length + 8)
      value.length = value := by
    rw [slice, ← List.drop_drop, List.drop_left, List.drop_left' (length_toLe 8 _), List.take_left]
  have hlen : (pre ++ (toLe 8 value.length ++ (value ++ suf))).length =
      pre.length + (8 + (value.length + suf.length)) := by
    simp only [List.length_append, length_toLe]
  rw [readValue, unpackLength_toLe pre _ hlength, hvalue, if_neg (by omega), if_neg (by omega)]

/-- A value of which not all bytes are there. -/
lemma readValue_cut {value : List UInt8} (hlength : value.length < 2 ^ 64) {m : ℕ}
    (hm : m < 8 + value.length) :
    ∃ e, readValue (pre ++ (toLe 8 value.length ++ value).take m) i pre.length = .error e := by
  by_cases hsize : m < 8
  · have hend : pre.length + 8 > (pre ++ (toLe 8 value.length ++ value).take m).length := by
      rw [List.length_append, List.length_take]
      omega
    rw [readValue, if_pos hend]
    exact ⟨_, rfl⟩
  · have htake : (toLe 8 value.length ++ value).take m =
        toLe 8 value.length ++ value.take (m - 8) := by
      rw [List.take_append, length_toLe, List.take_of_length_le (by rw [length_toLe]; omega)]
    have hlen : (pre ++ (toLe 8 value.length ++ value.take (m - 8))).length =
        pre.length + (8 + min (m - 8) value.length) := by
      simp only [List.length_append, length_toLe, List.length_take]
    rw [htake, readValue, unpackLength_toLe pre _ hlength, if_neg (by omega), if_pos (by omega)]
    exact ⟨_, rfl⟩

/-- Data that end before the length of the value. -/
lemma readValue_of_length_lt {data : List UInt8} {offset : ℕ} (h : data.length < offset + 8) :
    ∃ e, readValue data i offset = .error e := by
  rw [readValue, if_pos h]
  exact ⟨_, rfl⟩

end Spec

/-- The bytes of a command up to its length. -/
def packHead (offset : ℕ) (c : Draw) : List UInt8 :=
  2 :: (encodeUtf8 c.key ++ 0 :: List.replicate (paddingSize (offset + headSize c)) 0)

lemma packCommand_eq (offset : ℕ) (c : Draw) :
    packCommand offset c = packHead offset c ++ (toLe 8 c.value.length ++ c.value) := by
  simp [packCommand, packHead]

lemma length_packHead (offset : ℕ) (c : Draw) :
    (packHead offset c).length = headSize c + paddingSize (offset + headSize c) := by
  simp only [packHead, headSize, List.length_cons, List.length_append, List.length_replicate]
  omega

lemma length_packCommand (offset : ℕ) (c : Draw) :
    (packCommand offset c).length =
      headSize c + paddingSize (offset + headSize c) + (8 + c.value.length) := by
  rw [packCommand_eq, List.length_append, length_packHead, List.length_append, length_toLe]

lemma Draw.value_lt (c : Draw) : c.value.length < 2 ^ 64 :=
  c.value_length.2.trans_lt (by decide)

section ReadCommand

variable (numCommands i : ℕ) {pre : List UInt8}

/-- Behind the key the command goes on with its value. -/
lemma readCommand_of_key (c : Draw) (rest : List UInt8) :
    readCommand (pre ++ 2 :: (encodeUtf8 c.key ++ 0 :: rest)) numCommands i pre.length =
      match readValue (pre ++ 2 :: (encodeUtf8 c.key ++ 0 :: rest)) i
        (pre.length + headSize c + paddingSize (pre.length + headSize c)) with
      | .error e => .error e
      | .ok (value, offset) => .ok (textLine "SET".toList c.key value, offset) := by
  have hcode : (pre ++ 2 :: (encodeUtf8 c.key ++ 0 :: rest))[pre.length]? = some 2 := by simp
  have hkey := readKey_whole (pre ++ [2]) rest i c
  rw [List.append_assoc, List.singleton_append, List.length_append, List.length_singleton] at hkey
  have hoffset : pre.length + 1 + (encodeUtf8 c.key).length + 1 = pre.length + headSize c := by
    rw [headSize]
    omega
  rw [hoffset] at hkey
  rw [readCommand, hcode]
  simp only [hkey]
  rfl

lemma readCommand_whole (c : Draw) (suf : List UInt8) :
    readCommand (pre ++ (packCommand pre.length c ++ suf)) numCommands i pre.length =
      .ok (textLine "SET".toList c.key c.value,
        pre.length + (packCommand pre.length c).length) := by
  have hdata : pre ++ (packCommand pre.length c ++ suf) =
      (pre ++ packHead pre.length c) ++ (toLe 8 c.value.length ++ (c.value ++ suf)) := by
    simp only [packCommand_eq, List.append_assoc]
  have hvalue := readValue_whole (pre ++ packHead pre.length c) suf i c.value_lt
  rw [← hdata, List.length_append, length_packHead, ← Nat.add_assoc] at hvalue
  rw [length_packCommand]
  rw [packCommand, List.cons_append, List.append_assoc, List.cons_append] at hvalue ⊢
  rw [readCommand_of_key, hvalue]
  simp only [Nat.add_assoc]

/-- A value that has been cut off, or the padding before it. -/
lemma readValue_of_take (c : Draw) {m : ℕ} (hm : m < (packCommand pre.length c).length) :
    ∃ e, readValue (pre ++ (packCommand pre.length c).take m) i
      (pre.length + headSize c + paddingSize (pre.length + headSize c)) = .error e := by
  have hhead := length_packHead pre.length c
  rw [length_packCommand] at hm
  by_cases hshort : m < (packHead pre.length c).length
  · refine readValue_of_length_lt i ?_
    rw [List.length_append, List.length_take]
    omega
  · have hdata : pre ++ (packCommand pre.length c).take m =
        (pre ++ packHead pre.length c) ++
          (toLe 8 c.value.length ++ c.value).take (m - (packHead pre.length c).length) := by
      rw [packCommand_eq, List.take_append, List.take_of_length_le (by omega), List.append_assoc]
    have hleft : m - (packHead pre.length c).length < 8 + c.value.length := by omega
    have hcut := readValue_cut (pre ++ packHead pre.length c) i c.value_lt hleft
    rw [← hdata, List.length_append, hhead, ← Nat.add_assoc] at hcut
    exact hcut

lemma readCommand_cut (c : Draw) {m : ℕ} (hm : m < (packCommand pre.length c).length) :
    ∃ e, readCommand (pre ++ (packCommand pre.length c).take m) numCommands i pre.length =
      .error e := by
  have hvalue := readValue_of_take i c hm
  cases m with
  | zero =>
      rw [List.take_zero, List.append_nil, readCommand, List.getElem?_eq_none le_rfl]
      exact ⟨_, rfl⟩
  | succ m =>
      rw [packCommand, List.take_succ_cons] at hvalue ⊢
      by_cases hkey : m ≤ (encodeUtf8 c.key).length
      · -- the zero byte behind the key is missing
        rw [List.take_append_of_le_length hkey]
        have hcode : (pre ++ 2 :: (encodeUtf8 c.key).take m)[pre.length]? = some 2 := by simp
        have hrest : (pre ++ 2 :: (encodeUtf8 c.key).take m).drop (pre.length + 1) =
            (encodeUtf8 c.key).take m := by
          rw [← List.drop_drop, List.drop_left, List.drop_one, List.tail_cons]
        have hne : ∀ b ∈ (pre ++ 2 :: (encodeUtf8 c.key).take m).drop (pre.length + 1), b ≠ 0 := by
          rw [hrest]
          exact fun b hb => c.ne_zero b (List.mem_of_mem_take hb)
        obtain ⟨e, he⟩ := readKey_cut i hne
        rw [readCommand, hcode]
        simp only [he]
        exact ⟨_, rfl⟩
      · -- the key is there, and the length or the value is cut off
        rw [not_le] at hkey
        obtain ⟨k, rfl⟩ := Nat.exists_eq_add_of_lt hkey
        rw [Nat.add_assoc, List.take_length_add_append, List.take_succ_cons] at hvalue ⊢
        obtain ⟨e, he⟩ := hvalue
        rw [readCommand_of_key, he]
        exact ⟨e, rfl⟩

end ReadCommand

/-- The converter reads the commands of the generator. -/
lemma reads_packCommand (numCommands : ℕ) :
    Reads packCommand (fun data => readCommand data numCommands)
      fun c => textLine "SET".toList c.key c.value where
  whole := fun i _ c suf => readCommand_whole numCommands i c suf
  cut := fun i _ c _ hm => readCommand_cut numCommands i c hm

/-! ### Texts without spaces at their ends -/

/-- The last character of the text is there, and is none that `strip` removes. -/
def EndsSolid (s : List Char) : Prop := ∃ t c, s = t ++ [c] ∧ isSpace c = false

lemma EndsSolid.append_left {s : List Char} (h : EndsSolid s) (t : List Char) :
    EndsSolid (t ++ s) := by
  obtain ⟨u, c, rfl, hc⟩ := h
  exact ⟨t ++ u, c, by rw [List.append_assoc], hc⟩

/-- A text that is made of such texts, with anything between them. -/
lemma endsSolid_intercalate {sep : List Char} :
    ∀ {texts : List (List Char)}, texts ≠ [] → (∀ t ∈ texts, EndsSolid t) →
      EndsSolid (sep.intercalate texts)
  | [], hne, _ => absurd rfl hne
  | [t], _, h => by
      rw [List.intercalate_singleton]
      exact h t List.mem_cons_self
  | t :: t' :: texts, _, h => by
      rw [List.intercalate_cons_cons]
      refine (endsSolid_intercalate (List.cons_ne_nil _ _) fun u hu => ?_).append_left _
      exact h u (List.mem_cons_of_mem _ hu)

lemma endsSolid_str (n : ℕ) : EndsSolid (str n) := by
  have hne : str n ≠ [] := Nat.toDigits_ne_nil
  refine ⟨(str n).dropLast, (str n).getLast hne, (List.dropLast_append_getLast hne).symm, ?_⟩
  have hdigit : ((str n).getLast hne).isDigit = true :=
    Nat.isDigit_of_mem_toDigits (by decide) (by decide) (List.getLast_mem hne)
  generalize (str n).getLast hne = c at hdigit
  rw [Char.isDigit, Bool.and_eq_true, decide_eq_true_eq, decide_eq_true_eq] at hdigit
  have hlow : 48 ≤ c.toNat := UInt32.le_iff_toNat_le.1 hdigit.1
  have hhigh : c.toNat ≤ 57 := UInt32.le_iff_toNat_le.1 hdigit.2
  simp only [isSpace, List.contains_cons, List.contains_nil, Bool.or_eq_false_iff,
    Bool.and_eq_false_iff, decide_eq_false_iff_not, beq_eq_false_iff_ne, and_true]
  omega

/-- The line of a drawn command. -/
def drawLine (c : Draw) : List Char := textLine "SET".toList c.key c.value

lemma endsSolid_drawLine (c : Draw) : EndsSolid (drawLine c) := by
  have hvalue : c.value ≠ [] := by
    intro hnil
    have hlength := c.value_length.1
    rw [hnil] at hlength
    exact absurd hlength (by decide)
  have hsolid : EndsSolid (valueStr c.value) := by
    refine endsSolid_intercalate (by simpa using hvalue) fun t ht => ?_
    obtain ⟨b, -, rfl⟩ := List.mem_map.1 ht
    exact endsSolid_str b.toNat
  have hsplit : drawLine c = ("SET".toList ++ '|' :: (c.key ++ ['|'])) ++ valueStr c.value := by
    simp [drawLine, textLine]
  rw [hsplit]
  exact hsolid.append_left _

/-- `strip` takes the line break from the end of a text. -/
lemma strip_append_newline {s : List Char} (h : EndsSolid s) (hhead : ∃ t, s = 'S' :: t) :
    strip (s ++ ['\n']) = s := by
  obtain ⟨u, hu⟩ := hhead
  obtain ⟨t, c, rfl, hc⟩ := h
  have hdrop : (t ++ [c] ++ ['\n']).dropWhile isSpace = t ++ [c] ++ ['\n'] := by
    rw [hu, List.cons_append, List.dropWhile_cons_of_neg (by decide)]
  rw [strip, hdrop, List.rdropWhile_concat_pos _ _ _ (by decide),
    List.rdropWhile_concat_neg _ _ _ (by simp [hc])]

/-- Lines that all end with a line break. -/
lemma flatten_lines {lines : List (List Char)} (hne : lines ≠ []) :
    (lines.map (· ++ ['\n'])).flatten = ['\n'].intercalate lines ++ ['\n'] := by
  induction lines with
  | nil => exact absurd rfl hne
  | cons line lines ih =>
      cases lines with
      | nil => simp
      | cons line' lines =>
          rw [List.map_cons, List.flatten_cons, ih (List.cons_ne_nil _ _),
            List.intercalate_cons_cons]
          simp only [List.append_assoc]

/-- `gen_txt_logfile` writes the lines of the commands with line breaks between them. -/
lemma genTxtLogfile_eq (cmds : List Draw) :
    genTxtLogfile cmds = ['\n'].intercalate (cmds.map drawLine) := by
  have hcorpus : cmds.foldl
      (fun corpus c => corpus ++ (textLine "SET".toList c.key c.value ++ ['\n'])) [] =
        ((cmds.map drawLine).map (· ++ ['\n'])).flatten := by
    rw [List.foldl_append_eq_append, List.nil_append, List.map_map]
    rfl
  rw [genTxtLogfile, hcorpus]
  cases cmds with
  | nil => rfl
  | cons c cmds =>
      rw [flatten_lines (by simp)]
      refine strip_append_newline (endsSolid_intercalate (by simp) fun t ht => ?_) ?_
      · obtain ⟨c', -, rfl⟩ := List.mem_map.1 ht
        exact endsSolid_drawLine c'
      · cases cmds with
        | nil => exact ⟨_, rfl⟩
        | cons c' cmds => exact ⟨_, rfl⟩

/-! ### Files -/

lemma unpackHeader_packFields {numCommands commandLength : ℕ} (hnum : numCommands < 2 ^ 32)
    (hlength : commandLength < 2 ^ 64) (suf : List UInt8) :
    unpackHeader (packFields numCommands commandLength ++ suf) =
      ⟨1, numCommands, 1, commandLength⟩ := by
  have hfields : packFields numCommands commandLength ++ suf =
      toLe 4 1 ++ (toLe 4 numCommands ++ (toLe 8 1 ++ (toLe 8 commandLength ++ suf))) := by
    simp only [packFields, List.append_assoc]
  have hterm := Bytes.le_slice_toLe (n := 1) (k := 4) []
    (toLe 4 numCommands ++ (toLe 8 1 ++ (toLe 8 commandLength ++ suf))) (by norm_num)
  have hcount := Bytes.le_slice_toLe (k := 4) (toLe 4 1) (toLe 8 1 ++ (toLe 8 commandLength ++ suf))
    (hnum.trans_eq (by norm_num))
  have hindex := Bytes.le_slice_toLe (n := 1) (k := 8) (toLe 4 1 ++ toLe 4 numCommands)
    (toLe 8 commandLength ++ suf) (by norm_num)
  have hsize := Bytes.le_slice_toLe (k := 8) (toLe 4 1 ++ (toLe 4 numCommands ++ toLe 8 1)) suf
    (hlength.trans_eq (by norm_num))
  simp only [List.append_assoc, List.length_append, length_toLe] at hcount hindex hsize
  rw [hfields, unpackHeader, HeaderFields.mk.injEq]
  exact ⟨hterm, hcount, hindex, hsize⟩

/-- What `gen_bin_logfile` writes: the commands between two copies of a header of 64 bytes. -/
lemma genBinLogfile_spec {sha256 : List UInt8 → Vector UInt8 32} {magicNumber : Vector UInt8 16}
    {cmds : List Draw} {log : List UInt8} (h : genBinLogfile sha256 magicNumber cmds = some log) :
    ∃ header : List UInt8, header.length = 64 ∧ log = header ++ (commandsData cmds ++ header) ∧
      unpackHeader header = ⟨1, cmds.length, 1, (commandsData cmds).length⟩ := by
  rw [genBinLogfile] at h
  split at h
  · rename_i hfits
    obtain rfl := Option.some.inj h
    exact ⟨_, hfits.2.2, rfl, unpackHeader_packFields hfits.1 hfits.2.1 _⟩
  · cases h

/-- The commands of a file of which the first `m` bytes are left. -/
lemma slice_take {header commands : List UInt8} (hsize : header.length = 64) (m : ℕ) :
    slice ((header ++ (commands ++ header)).take m) 64 commands.length =
      commands.take (m - 64) := by
  rw [slice, List.drop_take, List.drop_left' hsize, List.take_take, min_comm, ← List.take_take,
    List.take_left]

/-- **The converter keeps the commands.**  From a binary log file of the script, or from what is
left of one when it has been cut off behind its first 128 bytes, the converter makes the text that
the script writes for the commands that lie in the file as a whole: those are the first `k`.  It
reports an error exactly when there have been others, and it does not warn about the headers of a
whole file. -/
theorem binToTxtLogfile_take (sha256 : List UInt8 → Vector UInt8 32) (magicNumber : Vector UInt8 16)
    {cmds : List Draw} {log : List UInt8} (h : genBinLogfile sha256 magicNumber cmds = some log)
    {m : ℕ} (hm : 128 ≤ m) :
    ∃ k ≤ cmds.length,
      (∀ j ≤ cmds.length, 64 + (commandsData (cmds.take j)).length ≤ m ↔ j ≤ k) ∧
        ∃ warning error,
          binToTxtLogfile (log.take m) = .ok ⟨genTxtLogfile (cmds.take k), warning, error⟩ ∧
            (error = none ↔ k = cmds.length) ∧ (log.length ≤ m → warning = false) := by
  obtain ⟨header, hsize, rfl, hunpack⟩ := genBinLogfile_spec h
  obtain ⟨k, hk, hiff, hlines, herror⟩ :=
    (reads_packCommand cmds.length).readAll_take cmds [] 0 (Nat.zero_le (m - 64))
  refine ⟨k, hk, fun j hj => ?_, ?_⟩
  · rw [← hiff j hj, commandsData]
    omega
  have hlength : (header ++ (commandsData cmds ++ header)).length =
      128 + (commandsData cmds).length := by
    simp only [List.length_append, hsize]
    omega
  have hlong : ¬ ((header ++ (commandsData cmds ++ header)).take m).length < 128 := by
    rw [List.length_take, hlength]
    omega
  have hfirst : ((header ++ (commandsData cmds ++ header)).take m).take 64 = header := by
    rw [List.take_take, min_eq_left (by omega), List.take_left' hsize]
  have hconvert : convertCommands ((header ++ (commandsData cmds ++ header)).take m)
      ⟨1, cmds.length, 1, (commandsData cmds).length⟩ =
        readAll (readCommand ((commandsData cmds).take (m - 64)) cmds.length) cmds.length 0 0 := by
    rw [convertCommands, slice_take hsize]
  have htext : ['\n'].intercalate (readAll
      (readCommand ((commandsData cmds).take (m - 64)) cmds.length) cmds.length 0 0).1 =
        genTxtLogfile (cmds.take k) := by
    rw [genTxtLogfile_eq]
    exact congrArg _ hlines
  rw [binToTxtLogfile, if_neg hlong, hfirst, hunpack, hconvert, htext]
  refine ⟨_, _, rfl, herror, fun hwhole => ?_⟩
  -- a whole file ends with the header it begins with
  have hlast : (header ++ (commandsData cmds ++ header)).drop
      ((header ++ (commandsData cmds ++ header)).length - 64) = header := by
    rw [hlength, ← List.append_assoc]
    refine List.drop_left' ?_
    rw [List.length_append, hsize]
    omega
  rw [List.take_of_length_le hwhole, hlast, hunpack]
  exact decide_eq_false fun hne => hne rfl

lemma letters_singleton : ∀ c ∈ ['k'], 97 ≤ c.toNat ∧ c.toNat ≤ 97 + 25 := by
  intro c hc
  rw [List.mem_singleton.1 hc]
  decide

/-- A draw of the shortest lengths. -/
def shortestDraw : Draw where
  key := ['k']
  value := List.replicate 10 7
  key_letters := letters_singleton
  key_length := by decide
  value_length := by decide

/-- Three times the shortest draw. -/
def threeDraws : List Draw := [shortestDraw, shortestDraw, shortestDraw]

/-- A file of three commands is cut off in the third one: the text has the first two, and there is
an error. -/
theorem binToTxtLogfile_take_third : ∃ log warning error,
    genBinLogfile (fun _ => Vector.replicate 32 0) (Vector.replicate 16 0) threeDraws = some log ∧
      binToTxtLogfile (log.take 128) =
        .ok ⟨genTxtLogfile [shortestDraw, shortestDraw], warning, some error⟩ := by
  have hsome : (genBinLogfile (fun _ => Vector.replicate 32 0) (Vector.replicate 16 0)
      threeDraws).isSome := by
    decide +kernel
  obtain ⟨log, hlog⟩ := Option.isSome_iff_exists.1 hsome
  obtain ⟨k, hk, hwhole, warning, error, htext, herror, -⟩ :=
    binToTxtLogfile_take _ _ hlog (le_refl 128)
  -- the second command ends behind 114 bytes, the third behind 138
  have htwo : 2 ≤ k := (hwhole 2 (by decide)).1 (by decide +kernel)
  have hthree : ¬ 3 ≤ k := fun h => absurd ((hwhole 3 (by decide)).2 h) (by decide +kernel)
  obtain rfl : k = 2 := by omega
  obtain ⟨message, rfl⟩ : ∃ message, error = some message :=
    Option.ne_none_iff_exists'.1 fun hnone => absurd (herror.1 hnone) (by decide)
  exact ⟨log, warning, message, hlog, htext⟩

end Converter

end Oceanliner
