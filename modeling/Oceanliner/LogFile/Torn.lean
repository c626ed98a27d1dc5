/-
# Torn appends

An append that is interrupted leaves a prefix of its three writes in the file.  The checksum of
the header is to tell such a file from a whole one: "if the hashes don't line up, then we assume
it was because of a partial write".  But the header in front of the commands is a copy of the
one behind them, so a file that ends right behind it looks whole, and `logfile_get_last_tai`
reports a batch whose commands are not there (`lastTai_torn_header`).  The commands themselves
may end in bytes that look like a header, too: all it takes is that the last 16 of 48 bytes are
the hash of the first 8, since `sizeof(header)` is the size of a pointer.
`torn_append_iff` says after which interruptions the answer is right.
-/
import Oceanliner.LogFile.Append

open Bytes

namespace Oceanliner

section

variable (xxh3 : List UInt8 → UInt64 × UInt64)

/-- The file after complete appends of `bs` and `k` bytes of an append of `b`. -/
def tornFile (bs : List LogBatch) (b : LogBatch) (k : ℕ) : Option (List UInt8) :=
  (logfileAppendAll xxh3 [] bs).map fun file => file ++ (b.bytes xxh3).take k

/-- The term and the index of the last batch that is completely in the file. -/
def lastComplete (bs : List LogBatch) (b : LogBatch) (k : ℕ) : ℕ × ℕ :=
  if b.size ≤ k then (b.term, b.logIndex) else lastTai bs

/-- If `logfile_get_last_tai` returns, it returns the last complete batch. -/
def ReportsComplete (bs : List LogBatch) (b : LogBatch) (k : ℕ) : Prop :=
  ∀ file tai, tornFile xxh3 bs b k = some file → logfileGetLastTai xxh3 file = some tai →
    tai = lastComplete bs b k

/-- The last 16 of 48 bytes are the hash of the first 8. -/
def LooksLikeHeader (window : List UInt8) : Prop :=
  (le (slice window 32 8), le (slice window 40 8)) =
    ((xxh3 (window.take 8)).1.toNat, (xxh3 (window.take 8)).2.toNat)

/-- The 48 bytes before the cut. -/
def tornWindow (bs : List LogBatch) (b : LogBatch) (k : ℕ) : List UInt8 :=
  (logBytes xxh3 bs ++ (b.bytes xxh3).take k).drop (logSize bs + k - sizeofKvsbHeader)

/-- The cut is not mistaken for the end of another batch than the last complete one: right
behind the leading header, the torn batch has the same term and index; elsewhere inside the
append, the bytes before the cut do not look like a header, or they show these numbers. -/
def CutShows (bs : List LogBatch) (b : LogBatch) (k : ℕ) : Prop :=
  if k = sizeofKvsbHeader then (b.term, b.logIndex) = lastTai bs
  else 0 < k → k < b.size → sizeofKvsbHeader ≤ logSize bs + k →
    LooksLikeHeader xxh3 (tornWindow xxh3 bs b k) →
      (le (slice (tornWindow xxh3 bs b k) 0 8), le (slice (tornWindow xxh3 bs b k) 16 8)) =
        lastTai bs

/-! ### What stands at the end of the file -/

/-- The checksum covers the term and nothing else. -/
lemma headerHash_ofBytes {window : List UInt8} (h : 8 ≤ window.length) :
    headerHash xxh3 (.ofBytes window) =
      ((xxh3 (window.take 8)).1.toNat, (xxh3 (window.take 8)).2.toNat) := by
  have hlen : (window.take 8).length = 8 := List.length_take_of_le h
  have hterm : ({ KvsbHeader.ofBytes window with headerChecksum := magicNumber }).bytes.take
      sizeofHeader = window.take 8 := by
    have hslice : slice window 0 8 = window.take 8 := by rw [slice, List.drop_zero]
    have hround := toLe_le (window.take 8)
    rw [hlen] at hround
    rw [KvsbHeader.bytes, sizeofHeader, List.take_left' (length_toLe 8 _)]
    show toLe 8 (le (slice window 0 8)) = _
    rw [hslice, hround]
  rw [headerHash, hterm]

lemma validate_ofBytes {window : List UInt8} (h : 8 ≤ window.length) :
    kvsbHeaderValidateChecksum xxh3 (.ofBytes window) = true ↔ LooksLikeHeader xxh3 window := by
  rw [kvsbHeaderValidateChecksum, decide_eq_true_eq, headerHash_ofBytes xxh3 h]
  rfl

lemma tornFile_eq {bs : List LogBatch} (b : LogBatch) (k : ℕ) (h : logSize bs < 2 ^ 31) :
    tornFile xxh3 bs b k = some (logBytes xxh3 bs ++ (b.bytes xxh3).take k) := by
  rw [tornFile, logfileAppendAll_eq xxh3 h, Option.map_some]

lemma length_torn (bs : List LogBatch) {b : LogBatch} {k : ℕ} (hk : k ≤ b.size) :
    (logBytes xxh3 bs ++ (b.bytes xxh3).take k).length = logSize bs + k := by
  rw [List.length_append, length_logBytes, List.length_take, b.length_bytes, min_eq_left hk]

/-- The answer for a torn append: what the last 48 bytes of the file show. -/
lemma logfileGetLastTai_torn {bs : List LogBatch} {b : LogBatch} {k : ℕ} (hk : k ≤ b.size)
    (hmin : sizeofKvsbHeader ≤ logSize bs + k) (hmax : logSize bs + k < 2 ^ 31) :
    logfileGetLastTai xxh3 (logBytes xxh3 bs ++ (b.bytes xxh3).take k) =
      if kvsbHeaderValidateChecksum xxh3 (.ofBytes (tornWindow xxh3 bs b k)) = true then
        some (le (slice (tornWindow xxh3 bs b k) 0 8), le (slice (tornWindow xxh3 bs b k) 16 8))
      else none := by
  have hlen := length_torn xxh3 bs hk
  have hwindow : Records.lastHeader (logFormat xxh3)
      (logBytes xxh3 bs ++ (b.bytes xxh3).take k) = .ofBytes (tornWindow xxh3 bs b k) := by
    rw [Records.lastHeader, hlen]
    rfl
  rw [logfileGetLastTai_eq xxh3 (by rwa [hlen]) (by omega), hwindow]
  by_cases hvalid : kvsbHeaderValidateChecksum xxh3 (.ofBytes (tornWindow xxh3 bs b k)) = true
  · rw [if_pos ⟨by omega, hvalid⟩, if_pos hvalid]
    rfl
  · rw [if_neg (fun h => hvalid h.2), if_neg hvalid]

/-- Cut right behind its leading header, a batch is reported although no command of it is in
the file. -/
lemma lastTai_torn_header {bs : List LogBatch} {b : LogBatch}
    (hmax : logSize bs + sizeofKvsbHeader < 2 ^ 31) :
    logfileGetLastTai xxh3 (logBytes xxh3 bs ++ (b.bytes xxh3).take sizeofKvsbHeader) =
      some (b.term, b.logIndex) := by
  have htake : (b.bytes xxh3).take sizeofKvsbHeader = (b.header xxh3).bytes := by
    rw [LogBatch.bytes, List.take_left' (KvsbHeader.length_bytes _)]
  have hlen : (logBytes xxh3 bs ++ (b.header xxh3).bytes).length =
      logSize bs + sizeofKvsbHeader := by
    rw [List.length_append, length_logBytes, KvsbHeader.length_bytes]
  have hlast : Records.lastHeader (logFormat xxh3)
      (logBytes xxh3 bs ++ (b.header xxh3).bytes) = b.header xxh3 :=
    Records.lastHeader_append _ (b.record xxh3).decode_encode
  have hvalid : kvsbHeaderValidateChecksum xxh3 (b.header xxh3) = true :=
    validate_calcChecksum xxh3 _
  rw [htake, logfileGetLastTai_eq xxh3 (by omega) (by omega), hlast, if_pos ⟨by omega, hvalid⟩]
  rfl

/-- A file of whole batches ends in the last of them. -/
lemma logfileGetLastTai_logBytes {bs : List LogBatch} (hmax : logSize bs < 2 ^ 31) :
    logfileGetLastTai xxh3 (logBytes xxh3 bs) = some (lastTai bs) := by
  rcases bs.eq_nil_or_concat with rfl | ⟨bs, b, rfl⟩
  · rfl
  · rw [List.concat_eq_append] at hmax ⊢
    have hlen := length_logBytes xxh3 (bs ++ [b])
    have hpos := b.pos_size
    have hmin : sizeofKvsbHeader ≤ (logBytes xxh3 (bs ++ [b])).length := by
      rw [hlen, logSize_append, logSize_cons, sizeofKvsbHeader]
      omega
    have hvalid : kvsbHeaderValidateChecksum xxh3 (b.header xxh3) = true :=
      validate_calcChecksum xxh3 _
    rw [logfileGetLastTai_eq xxh3 hmin (by omega), lastHeader_logBytes,
      if_pos ⟨by omega, hvalid⟩, lastTai_concat]
    rfl

/-! ### Every interruption -/

/-- **When a torn append is not reported.**  Whatever the hash, the answer after an
interruption is right exactly when the cut is not mistaken for the end of a batch. -/
theorem torn_append_iff {bs : List LogBatch} {b : LogBatch} {k : ℕ}
    (hmax : logSize bs + k < 2 ^ 31) :
    ReportsComplete xxh3 bs b k ↔ CutShows xxh3 bs b k := by
  have hpos := b.pos_size
  have hreports : ReportsComplete xxh3 bs b k ↔ ∀ tai,
      logfileGetLastTai xxh3 (logBytes xxh3 bs ++ (b.bytes xxh3).take k) = some tai →
        tai = lastComplete bs b k := by
    rw [ReportsComplete, tornFile_eq xxh3 b k (by omega)]
    exact ⟨fun h tai htai => h _ tai rfl htai,
      fun h file tai hsome htai => h tai (Option.some.inj hsome ▸ htai)⟩
  rw [hreports, CutShows]
  by_cases hheader : k = sizeofKvsbHeader
  · subst hheader
    have hnot : ¬ b.size ≤ sizeofKvsbHeader := by
      rw [sizeofKvsbHeader]
      omega
    rw [if_pos rfl, lastTai_torn_header xxh3 hmax, lastComplete, if_neg hnot]
    exact ⟨fun h => h _ rfl, fun h tai htai => Option.some.inj htai ▸ h⟩
  · rw [if_neg hheader]
    rcases Nat.eq_zero_or_pos k with rfl | hk
    · -- nothing of the append is there
      refine iff_of_true ?_ (by simp)
      intro tai htai
      rw [List.take_zero, List.append_nil, logfileGetLastTai_logBytes xxh3 (by omega)] at htai
      rw [lastComplete, if_neg (by omega)]
      exact (Option.some.inj htai).symm
    · by_cases hwhole : b.size ≤ k
      · -- all of it is there
        refine iff_of_true ?_ (fun _ hlt => by omega)
        intro tai htai
        have hall : (b.bytes xxh3).take k = b.bytes xxh3 :=
          List.take_of_length_le (by rw [b.length_bytes]; exact hwhole)
        have hsize : logSize (bs ++ [b]) < 2 ^ 31 := by
          rw [logSize_append, logSize_cons, logSize_nil]
          omega
        rw [hall, ← logBytes_concat, logfileGetLastTai_logBytes xxh3 hsize,
          lastTai_concat] at htai
        rw [lastComplete, if_pos hwhole]
        exact (Option.some.inj htai).symm
      · have hlt : k < b.size := by omega
        rw [lastComplete, if_neg hwhole]
        by_cases hmin : sizeofKvsbHeader ≤ logSize bs + k
        · have hwindow : 8 ≤ (tornWindow xxh3 bs b k).length := by
            rw [sizeofKvsbHeader] at hmin
            rw [tornWindow, List.length_drop, length_torn xxh3 bs hlt.le, sizeofKvsbHeader]
            omega
          have hvalid := validate_ofBytes xxh3 hwindow
          rw [logfileGetLastTai_torn xxh3 hlt.le hmin hmax]
          constructor
          · intro h _ _ _ hlooks
            exact h _ (if_pos (hvalid.2 hlooks))
          · intro h tai htai
            split at htai
            · rename_i hheader'
              exact Option.some.inj htai ▸ h hk hlt hmin (hvalid.1 hheader')
            · cases htai
        · -- the file is shorter than a header, and the seek fails
          refine iff_of_true ?_ (fun _ _ hle => absurd hle hmin)
          intro tai htai
          have hlen := length_torn xxh3 bs hlt.le
          rw [logfileGetLastTai, hlen, if_pos (show logSize bs + k < sizeofKvsbHeader by omega)]
            at htai
          split at htai
          · rw [if_neg (by omega)] at htai
            cases htai
          · cases htai

end

/-- Behind three batches a fourth one of 40 bytes is torn in the middle of its commands: with the
hash of `xxhash.h` the bytes before the cut do not look like a header. -/
theorem torn_append_inside :
    ReportsComplete xxh3Len4to8 threeBatches (zeroBatch 2 4 40 (by decide)) 68 := by
  refine (torn_append_iff xxh3Len4to8 (by decide)).2 ?_
  rw [CutShows, if_neg (by decide)]
  intro _ _ _ hlooks
  rw [LooksLikeHeader] at hlooks
  exact absurd hlooks (by decide +kernel)

/-- The second of two batches is reported when only its leading header has reached the file. -/
theorem torn_append_reported : ∃ bs b k, logSize bs + k < 2 ^ 31 ∧ k < b.size ∧
    ∀ xxh3, ¬ ReportsComplete xxh3 bs b k := by
  refine ⟨[zeroBatch 1 1 40 (by decide)], zeroBatch 2 2 40 (by decide), sizeofKvsbHeader,
    by decide, by decide, fun xxh3 h => ?_⟩
  have htai := h _ _ (tornFile_eq xxh3 _ _ (by decide)) (lastTai_torn_header xxh3 (by decide))
  exact absurd htai (by decide)

end Oceanliner
