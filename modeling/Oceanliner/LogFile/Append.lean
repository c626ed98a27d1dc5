/-
# Appending to the log file

`logfile_append_data` writes a batch of commands between two copies of a header, and
`logfile_get_last_tai` reads the term and the index of the last batch from the header at the
end of the file.  Both put the offset that `lseek` returns into an `int32_t` and assert that
it is not negative, so they stop when the file has grown to 2 GiB (`last_tai_iff`).

A file is the list of its bytes; `write` and `read` transfer all bytes they are asked for.
`XXH3_128bits` is a parameter: nothing below depends on what it computes.
-/
import Oceanliner.Globals
import Oceanliner.Lib.Records
import Oceanliner.Xxhash

open Bytes

namespace Oceanliner

/-- `kvsb_header_t`. -/
structure KvsbHeader where
  term : ℕ
  numCommands : ℕ
  logIndex : ℕ
  dataLength : ℕ
  /-- The two halves of the `XXH128_hash_t`. -/
  headerChecksum : ℕ × ℕ
deriving DecidableEq, Repr

/-- `sizeof(kvsb_header_t)`. -/
def sizeofKvsbHeader : ℕ := 48

/-- `sizeof(logfile_t)`. -/
def sizeofLogfile : ℕ := 4

/-- `sizeof(header)` in the two checksum functions, where `header` is a pointer. -/
def sizeofHeader : ℕ := 8

/-- `MAGIC_NUMBER`, the low half first. -/
def magicNumber : ℕ × ℕ := (9723239452457707023, 15269755912704193040)

namespace KvsbHeader

/-- A header in memory and in the file. -/
def bytes (h : KvsbHeader) : List UInt8 :=
  toLe 8 h.term ++ (toLe 8 h.numCommands ++ (toLe 8 h.logIndex ++ (toLe 8 h.dataLength ++
    (toLe 8 h.headerChecksum.1 ++ toLe 8 h.headerChecksum.2))))

/-- The header that stands in 48 bytes. -/
def ofBytes (bs : List UInt8) : KvsbHeader where
  term := le (slice bs 0 8)
  numCommands := le (slice bs 8 8)
  logIndex := le (slice bs 16 8)
  dataLength := le (slice bs 24 8)
  headerChecksum := (le (slice bs 32 8), le (slice bs 40 8))

/-- The fields are those of their C types. -/
structure InRange (h : KvsbHeader) : Prop where
  term : h.term < 2 ^ 64
  numCommands : h.numCommands < 2 ^ 64
  logIndex : h.logIndex < 2 ^ 64
  dataLength : h.dataLength < 2 ^ 64
  low : h.headerChecksum.1 < 2 ^ 64
  high : h.headerChecksum.2 < 2 ^ 64

@[simp] lemma length_bytes (h : KvsbHeader) : h.bytes.length = sizeofKvsbHeader := by
  simp [bytes, sizeofKvsbHeader]

/-- The field of eight bytes behind `pre`. -/
lemma le_slice_toLe {buf : List UInt8} {k n : ℕ} (pre suf : List UInt8)
    (hbuf : buf = pre ++ (toLe 8 n ++ suf)) (hpre : pre.length = k) (hn : n < 2 ^ 64) :
    le (slice buf k 8) = n := by
  have h := slice_append_right pre (toLe 8 n ++ suf) 0 8
  have hlen : 0 + 8 ≤ (toLe 8 n).length := by rw [length_toLe]
  have hall : slice (toLe 8 n) 0 8 = toLe 8 n := by
    rw [slice, List.drop_zero, List.take_of_length_le (by rw [length_toLe])]
  rw [Nat.add_zero, hpre, slice_append_left hlen, hall, ← hbuf] at h
  rw [h, le_toLe, Nat.mod_eq_of_lt (lt_of_lt_of_eq hn (by norm_num))]

/-- A header is read back as it was written. -/
lemma ofBytes_bytes {h : KvsbHeader} (hr : h.InRange) : ofBytes h.bytes = h := by
  have hterm : le (slice h.bytes 0 8) = h.term :=
    le_slice_toLe [] _ rfl rfl hr.term
  have hnum : le (slice h.bytes 8 8) = h.numCommands :=
    le_slice_toLe (toLe 8 h.term) _ rfl (length_toLe 8 _) hr.numCommands
  have hindex : le (slice h.bytes 16 8) = h.logIndex :=
    le_slice_toLe (toLe 8 h.term ++ toLe 8 h.numCommands)
      (toLe 8 h.dataLength ++ (toLe 8 h.headerChecksum.1 ++ toLe 8 h.headerChecksum.2))
      (by simp only [bytes, List.append_assoc]) (by simp) hr.logIndex
  have hdata : le (slice h.bytes 24 8) = h.dataLength :=
    le_slice_toLe (toLe 8 h.term ++ toLe 8 h.numCommands ++ toLe 8 h.logIndex)
      (toLe 8 h.headerChecksum.1 ++ toLe 8 h.headerChecksum.2)
      (by simp only [bytes, List.append_assoc]) (by simp) hr.dataLength
  have hlow : le (slice h.bytes 32 8) = h.headerChecksum.1 :=
    le_slice_toLe (toLe 8 h.term ++ toLe 8 h.numCommands ++ toLe 8 h.logIndex ++
      toLe 8 h.dataLength) (toLe 8 h.headerChecksum.2)
      (by simp only [bytes, List.append_assoc]) (by simp) hr.low
  have hhigh : le (slice h.bytes 40 8) = h.headerChecksum.2 :=
    le_slice_toLe (toLe 8 h.term ++ toLe 8 h.numCommands ++ toLe 8 h.logIndex ++
      toLe 8 h.dataLength ++ toLe 8 h.headerChecksum.1) []
      (by simp only [bytes, List.append_assoc, List.append_nil]) (by simp) hr.high
  rw [ofBytes, hterm, hnum, hindex, hdata, hlow, hhigh]

end KvsbHeader

/-- What `logfile_append_data` reads of a `cmd_buffer_t`: the first `cmds_length` bytes behind
the header are a list. -/
structure LogBatch where
  term : ℕ
  logIndex : ℕ
  cmds : List UInt8
  term_lt : term < 2 ^ 64
  logIndex_lt : logIndex < 2 ^ 64
  length_lt : cmds.length < 2 ^ 64

section Functions

variable (xxh3 : List UInt8 → UInt64 × UInt64)

/-- `XXH3_128bits` of the first `sizeof(header)` bytes of a header, with the magic number in
the place of the checksum. -/
def headerHash (h : KvsbHeader) : ℕ × ℕ :=
  let hash := xxh3 (({ h with headerChecksum := magicNumber }).bytes.take sizeofHeader)
  (hash.1.toNat, hash.2.toNat)

/-- `kvsb_header_calc_checksum`. -/
def kvsbHeaderCalcChecksum (h : KvsbHeader) : KvsbHeader :=
  { h with headerChecksum := headerHash xxh3 h }

/-- `kvsb_header_validate_checksum`. -/
def kvsbHeaderValidateChecksum (h : KvsbHeader) : Bool :=
  decide (h.headerChecksum = headerHash xxh3 h)

/-- The header that `logfile_append_data` writes, twice. -/
def LogBatch.header (b : LogBatch) : KvsbHeader :=
  kvsbHeaderCalcChecksum xxh3
    { term := b.term
      numCommands := 0
      logIndex := b.logIndex
      dataLength := b.cmds.length
      headerChecksum := (0, 0) }

/-- The bytes of the three writes of `logfile_append_data`. -/
def LogBatch.bytes (b : LogBatch) : List UInt8 :=
  (b.header xxh3).bytes ++ (b.cmds ++ (b.header xxh3).bytes)

/-- `logfile_append_data`: the file afterwards.  `none` is a failed assertion on what `lseek`
or one of the writes returned. -/
def logfileAppendData (file : List UInt8) (b : LogBatch) : Option (List UInt8) :=
  if i32 file.length ≥ 0 ∧ i32 sizeofKvsbHeader ≥ 0 ∧ i32 b.cmds.length ≥ 0 then
    some (file ++ b.bytes xxh3)
  else none

/-- `logfile_get_last_tai`.  A seek to a place before the start of the file fails with `-1`. -/
def logfileGetLastTai (file : List UInt8) : Option (ℕ × ℕ) :=
  if file.length < sizeofLogfile then
    if file.length = 0 then some (0, 0) else none
  else if file.length < sizeofKvsbHeader then none
  else if i32 (file.length - sizeofKvsbHeader) ≥ 0 ∧ i32 sizeofKvsbHeader ≥ 0 then
    let header := KvsbHeader.ofBytes (file.drop (file.length - sizeofKvsbHeader))
    if kvsbHeaderValidateChecksum xxh3 header then some (header.term, header.logIndex) else none
  else none

/-- Appending batches one after another. -/
def logfileAppendAll (file : List UInt8) : List LogBatch → Option (List UInt8)
  | [] => some file
  | b :: bs => (logfileAppendData xxh3 file b).bind fun file' => logfileAppendAll file' bs

end Functions

/-- The length of a batch in the file. -/
def LogBatch.size (b : LogBatch) : ℕ := 2 * sizeofKvsbHeader + b.cmds.length

/-- The length of a file of batches. -/
def logSize (bs : List LogBatch) : ℕ := (bs.map LogBatch.size).sum

/-- The term and the index of the last batch, `0` and `0` when there is none. -/
def lastTai (bs : List LogBatch) : ℕ × ℕ :=
  match bs.getLast? with
  | some b => (b.term, b.logIndex)
  | none => (0, 0)

@[simp] lemma logSize_nil : logSize [] = 0 := rfl

@[simp] lemma logSize_cons (b : LogBatch) (bs : List LogBatch) :
    logSize (b :: bs) = b.size + logSize bs := by
  simp [logSize]

@[simp] lemma logSize_append (bs bs' : List LogBatch) :
    logSize (bs ++ bs') = logSize bs + logSize bs' := by
  simp [logSize]

@[simp] lemma lastTai_concat (bs : List LogBatch) (b : LogBatch) :
    lastTai (bs ++ [b]) = (b.term, b.logIndex) := by
  rw [lastTai, List.getLast?_concat]

section

variable (xxh3 : List UInt8 → UInt64 × UInt64)

/-! ### Headers and batches as records -/

/-- The headers of the log file, as a format of records. -/
def logFormat : Records.Format UInt8 KvsbHeader where
  size := sizeofKvsbHeader
  encode := KvsbHeader.bytes
  decode := KvsbHeader.ofBytes
  bodyLength := KvsbHeader.dataLength
  accept := kvsbHeaderValidateChecksum xxh3
  size_pos := by decide
  length_encode := KvsbHeader.length_bytes

/-- A calculated checksum is accepted: both functions put the magic number in its place. -/
lemma validate_calcChecksum (h : KvsbHeader) :
    kvsbHeaderValidateChecksum xxh3 (kvsbHeaderCalcChecksum xxh3 h) = true := by
  rw [kvsbHeaderValidateChecksum, decide_eq_true_eq]
  rfl

lemma LogBatch.header_inRange (b : LogBatch) : (b.header xxh3).InRange where
  term := b.term_lt
  numCommands := by norm_num [header, kvsbHeaderCalcChecksum]
  logIndex := b.logIndex_lt
  dataLength := b.length_lt
  low := UInt64.toNat_lt _
  high := UInt64.toNat_lt _

/-- A batch as a record of the log file. -/
def LogBatch.record (b : LogBatch) : Records.Record (logFormat xxh3) where
  header := b.header xxh3
  body := b.cmds
  decode_encode := KvsbHeader.ofBytes_bytes (b.header_inRange xxh3)
  accepted := validate_calcChecksum xxh3 _
  length_body := rfl

/-- The bytes of a file of batches. -/
def logBytes (bs : List LogBatch) : List UInt8 :=
  Records.stream (bs.map fun b => b.record xxh3)

lemma LogBatch.length_bytes (b : LogBatch) : (b.bytes xxh3).length = b.size := by
  rw [bytes, List.length_append, List.length_append, KvsbHeader.length_bytes, size]
  omega

lemma LogBatch.pos_size (b : LogBatch) : 96 ≤ b.size := by
  rw [size, sizeofKvsbHeader]
  omega

@[simp] lemma logBytes_nil : logBytes xxh3 [] = [] := rfl

@[simp] lemma logBytes_concat (bs : List LogBatch) (b : LogBatch) :
    logBytes xxh3 (bs ++ [b]) = logBytes xxh3 bs ++ b.bytes xxh3 := by
  rw [logBytes, List.map_append, Records.stream_append]
  simp only [List.map_cons, List.map_nil, Records.stream_cons, Records.stream_nil,
    List.append_nil]
  rfl

lemma length_logBytes (bs : List LogBatch) : (logBytes xxh3 bs).length = logSize bs := by
  induction bs using List.reverseRecOn with
  | nil => rfl
  | append_singleton bs b ih =>
      rw [logBytes_concat, List.length_append, ih, b.length_bytes, logSize_append, logSize_cons,
        logSize_nil, Nat.add_zero]

/-! ### Appends -/

lemma logfileAppendAll_append (file : List UInt8) (bs bs' : List LogBatch) :
    logfileAppendAll xxh3 file (bs ++ bs') =
      (logfileAppendAll xxh3 file bs).bind fun file' => logfileAppendAll xxh3 file' bs' := by
  induction bs generalizing file with
  | nil => rfl
  | cons b bs ih =>
      rw [List.cons_append, logfileAppendAll, logfileAppendAll, Option.bind_assoc]
      congr 1
      funext file'
      exact ih file'

/-- An append goes through when the file and the batch are below 2 GiB. -/
lemma logfileAppendData_eq {file : List UInt8} {b : LogBatch} (hfile : file.length < 2 ^ 32)
    (hb : b.cmds.length < 2 ^ 31) :
    logfileAppendData xxh3 file b =
      if file.length < 2 ^ 31 then some (file ++ b.bytes xxh3) else none := by
  have hheader : i32 sizeofKvsbHeader ≥ 0 := by decide
  have hcmds : i32 b.cmds.length ≥ 0 := (i32_nonneg (by omega)).2 hb
  rw [logfileAppendData]
  by_cases h : file.length < 2 ^ 31
  · rw [if_pos h, if_pos ⟨(i32_nonneg hfile).2 h, hheader, hcmds⟩]
  · rw [if_neg h, if_neg (fun hand => h ((i32_nonneg hfile).1 hand.1))]

/-- A file of batches that stays below 2 GiB is written without a failed assertion. -/
lemma logfileAppendAll_eq {bs : List LogBatch} (h : logSize bs < 2 ^ 31) :
    logfileAppendAll xxh3 [] bs = some (logBytes xxh3 bs) := by
  induction bs using List.reverseRecOn with
  | nil => rfl
  | append_singleton bs b ih =>
      rw [logSize_append, logSize_cons, logSize_nil, Nat.add_zero, LogBatch.size] at h
      have hlen := length_logBytes xxh3 bs
      rw [logfileAppendAll_append, ih (by omega), Option.bind_some, logfileAppendAll,
        logfileAppendData_eq xxh3 (by omega) (by omega), if_pos (by omega), Option.bind_some,
        logBytes_concat]
      rfl

/-- With batches that fit a command buffer, the offset is the only one of the asserted numbers
that can be negative, and it is so from the moment at which the file has 2 GiB. -/
lemma logfileAppendAll_concat {bs : List LogBatch} {b : LogBatch}
    (hsmall : ∀ c ∈ bs, c.cmds.length ≤ cmdbufSize) (hb : b.cmds.length ≤ cmdbufSize) :
    logfileAppendAll xxh3 [] (bs ++ [b]) =
      if logSize bs < 2 ^ 31 then some (logBytes xxh3 (bs ++ [b])) else none := by
  rw [cmdbufSize] at hb
  induction bs using List.reverseRecOn generalizing b with
  | nil =>
      rw [logSize_nil, if_pos (by norm_num), logfileAppendAll_append, logfileAppendAll,
        Option.bind_some, logfileAppendAll,
        logfileAppendData_eq xxh3 (by norm_num) (by omega), if_pos (by norm_num), logBytes_concat]
      rfl
  | append_singleton bs c ih =>
      have hc := hsmall c (by simp)
      rw [cmdbufSize] at hc
      have hsize : logSize (bs ++ [c]) = logSize bs + (2 * 48 + c.cmds.length) := by
        rw [logSize_append, logSize_cons, logSize_nil, Nat.add_zero, LogBatch.size,
          sizeofKvsbHeader]
      rw [logfileAppendAll_append, ih (fun d hd => hsmall d (by simp [hd])) hc]
      by_cases hbs : logSize bs < 2 ^ 31
      · -- the file before the last batch is well below 4 GiB, so its offset tells its length
        have hlen : (logBytes xxh3 (bs ++ [c])).length < 2 ^ 32 := by
          rw [length_logBytes]
          omega
        rw [if_pos hbs, Option.bind_some, logfileAppendAll,
          logfileAppendData_eq xxh3 hlen (by omega), length_logBytes]
        by_cases hbc : logSize (bs ++ [c]) < 2 ^ 31
        · rw [if_pos hbc, if_pos hbc, Option.bind_some, logBytes_concat xxh3 (bs ++ [c])]
          rfl
        · rw [if_neg hbc, if_neg hbc, Option.bind_none]
      · rw [if_neg hbs, if_neg (by omega), Option.bind_none]

/-! ### The last batch -/

/-- A file of at least 48 bytes, below 4 GiB, ends in a header that is accepted or not. -/
lemma logfileGetLastTai_eq {file : List UInt8} (hmin : sizeofKvsbHeader ≤ file.length)
    (hmax : file.length < 2 ^ 32) :
    logfileGetLastTai xxh3 file =
      if file.length - sizeofKvsbHeader < 2 ^ 31 ∧
          kvsbHeaderValidateChecksum xxh3 (Records.lastHeader (logFormat xxh3) file) = true then
        some ((Records.lastHeader (logFormat xxh3) file).term,
          (Records.lastHeader (logFormat xxh3) file).logIndex)
      else none := by
  have hmin' : ¬ file.length < sizeofLogfile := by
    have : sizeofLogfile ≤ sizeofKvsbHeader := by decide
    omega
  have hheader : i32 sizeofKvsbHeader ≥ 0 := by decide
  have hoffset : file.length - sizeofKvsbHeader < 2 ^ 32 := by omega
  rw [logfileGetLastTai, if_neg hmin', if_neg (by omega)]
  show (if i32 (file.length - sizeofKvsbHeader) ≥ 0 ∧ _ then
    (if kvsbHeaderValidateChecksum xxh3 (Records.lastHeader (logFormat xxh3) file) = true then
      some (_, _) else none) else none) = _
  by_cases hlt : file.length - sizeofKvsbHeader < 2 ^ 31
  · rw [if_pos ⟨(i32_nonneg hoffset).2 hlt, hheader⟩]
    by_cases hvalid : kvsbHeaderValidateChecksum xxh3
        (Records.lastHeader (logFormat xxh3) file) = true
    · rw [if_pos hvalid, if_pos ⟨hlt, hvalid⟩]
      rfl
    · rw [if_neg hvalid, if_neg (fun h => hvalid h.2)]
  · rw [if_neg (fun h => hlt ((i32_nonneg hoffset).1 h.1)), if_neg (fun h => hlt h.1)]

/-- Behind the batches written so far stands the header of the last one. -/
lemma lastHeader_logBytes (bs : List LogBatch) (b : LogBatch) :
    Records.lastHeader (logFormat xxh3) (logBytes xxh3 (bs ++ [b])) = b.header xxh3 := by
  rw [logBytes_concat]
  exact Records.lastHeader_record _ (b.record xxh3)

/-- Appending the batches to an empty file and asking for the last term and index succeeds,
with the right answer. -/
def ReadsBack (bs : List LogBatch) : Prop :=
  ∃ file, logfileAppendAll xxh3 [] bs = some file ∧
    logfileGetLastTai xxh3 file = some (lastTai bs)

/-- **When the last term and index can be read back.**  The offset of the last header must be
below 2 GiB. -/
theorem last_tai_iff {bs : List LogBatch} (hsmall : ∀ b ∈ bs, b.cmds.length ≤ cmdbufSize) :
    ReadsBack xxh3 bs ↔ logSize bs < 2 ^ 31 + sizeofKvsbHeader := by
  rcases bs.eq_nil_or_concat with rfl | ⟨bs, b, rfl⟩
  · exact iff_of_true ⟨[], rfl, rfl⟩ (by norm_num)
  · rw [List.concat_eq_append] at hsmall ⊢
    have hb := hsmall b (by simp)
    have hinit : ∀ c ∈ bs, c.cmds.length ≤ cmdbufSize := fun c hc => hsmall c (by simp [hc])
    have hall := logfileAppendAll_concat xxh3 hinit hb
    have hsize : logSize (bs ++ [b]) = logSize bs + (2 * sizeofKvsbHeader + b.cmds.length) := by
      rw [logSize_append, logSize_cons, logSize_nil, Nat.add_zero, LogBatch.size]
    have hlen := length_logBytes xxh3 (bs ++ [b])
    have hvalid := validate_calcChecksum xxh3 ⟨b.term, 0, b.logIndex, b.cmds.length, (0, 0)⟩
    rw [cmdbufSize] at hb
    rw [sizeofKvsbHeader] at hsize ⊢
    rw [ReadsBack, hall]
    by_cases hbs : logSize bs < 2 ^ 31
    · have hmin : sizeofKvsbHeader ≤ (logBytes xxh3 (bs ++ [b])).length := by
        rw [sizeofKvsbHeader]
        omega
      have hlast := logfileGetLastTai_eq xxh3 hmin (by omega)
      rw [lastHeader_logBytes, sizeofKvsbHeader] at hlast
      rw [if_pos hbs]
      by_cases hend : (logBytes xxh3 (bs ++ [b])).length - 48 < 2 ^ 31
      · refine iff_of_true ⟨_, rfl, ?_⟩ (by omega)
        rw [hlast, if_pos ⟨hend, hvalid⟩, lastTai_concat]
        rfl
      · refine iff_of_false ?_ (by omega)
        rintro ⟨file, hfile, htai⟩
        obtain rfl := Option.some.inj hfile
        rw [hlast, if_neg (fun h => hend h.1)] at htai
        cases htai
    · rw [if_neg hbs]
      refine iff_of_false ?_ (by omega)
      rintro ⟨file, hfile, -⟩
      cases hfile

end

/-- A batch of the given term and index with `n` zero bytes. -/
def zeroBatch (term logIndex : UInt64) (n : ℕ) (h : n < 2 ^ 64) : LogBatch where
  term := term.toNat
  logIndex := logIndex.toNat
  cmds := List.replicate n 0
  term_lt := term.toNat_lt
  logIndex_lt := logIndex.toNat_lt
  length_lt := by rwa [List.length_replicate]

/-- Three batches of two terms. -/
def threeBatches : List LogBatch :=
  [zeroBatch 1 1 40 (by decide), zeroBatch 1 2 120 (by decide), zeroBatch 2 3 88 (by decide)]

/-- The last of them is read back, with the hash of `xxhash.h`. -/
theorem last_tai_first : ReadsBack xxh3Len4to8 threeBatches ∧ lastTai threeBatches = (2, 3) :=
  ⟨(last_tai_iff xxh3Len4to8 (by decide)).2 (by decide), rfl⟩

/-- After 64 batches of 32 MiB the next append fails. -/
theorem last_tai_lost : ∃ bs : List LogBatch, (∀ b ∈ bs, b.cmds.length ≤ cmdbufSize) ∧
    ∀ xxh3, ¬ ReadsBack xxh3 bs := by
  have hlen : (zeroBatch 1 1 (2 ^ 25) (by norm_num)).cmds.length = 2 ^ 25 :=
    List.length_replicate ..
  have hle : (zeroBatch 1 1 (2 ^ 25) (by norm_num)).cmds.length ≤ cmdbufSize := by
    rw [hlen, cmdbufSize]
    norm_num
  generalize zeroBatch 1 1 (2 ^ 25) (by norm_num) = b at hlen hle
  have hsmall : ∀ c ∈ List.replicate 64 b, c.cmds.length ≤ cmdbufSize := by
    intro c hc
    rw [List.eq_of_mem_replicate hc]
    exact hle
  have hsize : ¬ logSize (List.replicate 64 b) < 2 ^ 31 := by
    rw [logSize, List.map_replicate, List.sum_replicate, LogBatch.size, hlen, sizeofKvsbHeader]
    norm_num
  refine ⟨List.replicate 64 b ++ [b], ?_, fun xxh3 h => ?_⟩
  · intro c hc
    rcases List.mem_append.1 hc with hold | hnew
    · exact hsmall c hold
    · rw [List.mem_singleton.1 hnew]
      exact hle
  · obtain ⟨file, hfile, -⟩ := h
    rw [logfileAppendAll_concat xxh3 hsmall hle, if_neg hsize] at hfile
    cases hfile

end Oceanliner
