/-
# What the checksum of a header covers

The two checksum functions replace the checksum in the header by the magic number, hash
`sizeof(header)` bytes and put a checksum back.  `header` is a pointer, so they hash 8 bytes,
and these are the field `term`: a header whose other fields have changed is still valid
(`checksum_protects_iff`).
-/
import Oceanliner.LogFile.Append
import Oceanliner.Xxhash

open Bytes

namespace Oceanliner

section Functions

variable (xxh3 : List UInt8 → UInt64 × UInt64)

/-- `kvsb_header_validate_checksum`, with the header that it leaves behind. -/
def kvsbHeaderValidateInPlace (h : KvsbHeader) : Bool × KvsbHeader :=
  let checksum := h.headerChecksum
  let header := { h with headerChecksum := magicNumber }
  let hash := xxh3 (header.bytes.take sizeofHeader)
  let header := { header with headerChecksum := checksum }
  (decide (checksum = (hash.1.toNat, hash.2.toNat)), header)

/-- The header is left as it was, and the result is the one used for reading the log file. -/
lemma kvsbHeaderValidateInPlace_eq (h : KvsbHeader) :
    kvsbHeaderValidateInPlace xxh3 h = (kvsbHeaderValidateChecksum xxh3 h, h) := rfl

/-- The hash sees the term and nothing else. -/
lemma headerHash_eq (h : KvsbHeader) :
    headerHash xxh3 h = ((xxh3 (toLe 8 h.term)).1.toNat, (xxh3 (toLe 8 h.term)).2.toNat) := by
  have htake : ({ h with headerChecksum := magicNumber } : KvsbHeader).bytes.take sizeofHeader =
      toLe 8 h.term := by
    rw [KvsbHeader.bytes, sizeofHeader, List.take_left' (length_toLe 8 h.term)]
  rw [headerHash, htake]

/-- Whether a header is valid depends on its term and its checksum. -/
lemma kvsbHeaderValidateChecksum_of_term_eq {h h' : KvsbHeader} (hterm : h'.term = h.term)
    (hsum : h'.headerChecksum = (kvsbHeaderCalcChecksum xxh3 h).headerChecksum) :
    kvsbHeaderValidateChecksum xxh3 h' = true := by
  rw [kvsbHeaderValidateChecksum, decide_eq_true_iff, hsum, headerHash_eq, hterm, ← headerHash_eq]
  rfl

end Functions

/-- `XXH3_128bits` has no collisions on inputs of `sizeof(header)` bytes. -/
def NoCollisions (xxh3 : List UInt8 → UInt64 × UInt64) : Prop :=
  ∀ bs bs', bs.length = sizeofHeader → bs'.length = sizeofHeader → xxh3 bs = xxh3 bs' → bs = bs'

/-- A calculated checksum protects the header `h` against being changed to `h'`: `h` is valid, `h'`
is not, and neither is changed. -/
def Protects (xxh3 : List UInt8 → UInt64 × UInt64) (h h' : KvsbHeader) : Prop :=
  kvsbHeaderValidateInPlace xxh3 (kvsbHeaderCalcChecksum xxh3 h) =
      (true, kvsbHeaderCalcChecksum xxh3 h) ∧
    kvsbHeaderValidateInPlace xxh3 h' = (false, h')

/-- **What the checksum protects.**  A header that carries the checksum of another one is found
out exactly when it has another term. -/
theorem checksum_protects_iff {xxh3 : List UInt8 → UInt64 × UInt64} (hxxh3 : NoCollisions xxh3)
    {h h' : KvsbHeader} (hr : h.InRange) (hr' : h'.InRange)
    (hsum : h'.headerChecksum = (kvsbHeaderCalcChecksum xxh3 h).headerChecksum) :
    Protects xxh3 h h' ↔ h'.term ≠ h.term := by
  have hcalc : kvsbHeaderValidateChecksum xxh3 (kvsbHeaderCalcChecksum xxh3 h) = true :=
    kvsbHeaderValidateChecksum_of_term_eq xxh3 (h := h) rfl rfl
  have hprotects : Protects xxh3 h h' ↔ kvsbHeaderValidateChecksum xxh3 h' = false := by
    rw [Protects, kvsbHeaderValidateInPlace_eq, kvsbHeaderValidateInPlace_eq, hcalc]
    exact ⟨fun hp => (Prod.mk.inj hp.2).1, fun hv => ⟨rfl, Prod.ext hv rfl⟩⟩
  rw [hprotects]
  constructor
  · intro hvalid hterm
    rw [kvsbHeaderValidateChecksum_of_term_eq xxh3 hterm hsum] at hvalid
    cases hvalid
  · intro hterm
    rw [kvsbHeaderValidateChecksum, decide_eq_false_iff_not, hsum]
    intro heq
    have hhash : headerHash xxh3 h = headerHash xxh3 h' := heq
    rw [headerHash_eq, headerHash_eq, Prod.mk.injEq, UInt64.toNat_inj, UInt64.toNat_inj] at hhash
    have hbytes := hxxh3 _ _ (length_toLe 8 _) (length_toLe 8 _) (Prod.ext hhash.1 hhash.2)
    have hle := congrArg le hbytes
    rw [le_toLe, le_toLe, Nat.mod_eq_of_lt (lt_of_lt_of_eq hr.term (by norm_num)),
      Nat.mod_eq_of_lt (lt_of_lt_of_eq hr'.term (by norm_num))] at hle
    exact hterm hle.symm

/-! ### The hash of the program -/

lemma noCollisions_xxh3Len4to8 : NoCollisions xxh3Len4to8 :=
  fun _ _ hlen hlen' h => xxh3Len4to8_injective hlen hlen' h

/-- The header of a first batch of 40 bytes, before its checksum has been calculated. -/
def firstHeader : KvsbHeader := ⟨1, 0, 1, 40, (0, 0)⟩

lemma headerHash_lt (xxh3 : List UInt8 → UInt64 × UInt64) (h : KvsbHeader) :
    (headerHash xxh3 h).1 < 2 ^ 64 ∧ (headerHash xxh3 h).2 < 2 ^ 64 :=
  ⟨UInt64.toNat_lt _, UInt64.toNat_lt _⟩

/-- A header with the checksum of the first one. -/
def changedHeader (term dataLength : ℕ) : KvsbHeader :=
  ⟨term, 0, 1, dataLength, headerHash xxh3Len4to8 firstHeader⟩

/-- A changed term is found out. -/
theorem checksum_protects_term : Protects xxh3Len4to8 firstHeader (changedHeader 2 40) := by
  have hfirst : firstHeader.InRange := by
    constructor <;> norm_num [firstHeader]
  have hchanged : (changedHeader 2 40).InRange :=
    { term := by norm_num [changedHeader]
      numCommands := by norm_num [changedHeader]
      logIndex := by norm_num [changedHeader]
      dataLength := by norm_num [changedHeader]
      low := (headerHash_lt xxh3Len4to8 firstHeader).1
      high := (headerHash_lt xxh3Len4to8 firstHeader).2 }
  exact (checksum_protects_iff noCollisions_xxh3Len4to8 hfirst hchanged rfl).2 (by decide)

/-- A changed length is not. -/
theorem checksum_misses_length :
    NoCollisions xxh3Len4to8 ∧
      (changedHeader 1 80).headerChecksum =
        (kvsbHeaderCalcChecksum xxh3Len4to8 firstHeader).headerChecksum ∧
      kvsbHeaderValidateInPlace xxh3Len4to8 (changedHeader 1 80) = (true, changedHeader 1 80) := by
  refine ⟨noCollisions_xxh3Len4to8, rfl, ?_⟩
  have hvalid : kvsbHeaderValidateChecksum xxh3Len4to8 (changedHeader 1 80) = true :=
    kvsbHeaderValidateChecksum_of_term_eq xxh3Len4to8 (h := firstHeader) rfl rfl
  rw [kvsbHeaderValidateInPlace_eq, hvalid]

end Oceanliner
