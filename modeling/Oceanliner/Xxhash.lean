/-
# XXH3 of eight bytes

What `XXH3_128bits` of `xxhash.h` computes for an input of 4 to 8 bytes (`XXH3_len_4to8_128b`, with
the default secret and the seed 0).  The checksum functions of the log file give it 8 bytes, and
on 8 bytes it has no collisions.
-/
import Oceanliner.Lib.Bytes
import Oceanliner.Lib.Mixing

open Bytes Mixing

namespace Oceanliner

/-- The bytes 16 to 31 of `XXH3_kSecret`. -/
def xxh3Secret : List UInt8 :=
  [0xde, 0xd4, 0x6d, 0xe9, 0x83, 0x90, 0x97, 0xdb, 0x72, 0x40, 0xa4, 0xa4, 0xb7, 0xb3, 0x67, 0x1f]

/-- `XXH_PRIME64_1`. -/
def xxhPrime64_1 : BitVec 64 := 0x9E3779B185EBCA87#64

/-- `PRIME_MX1`. -/
def primeMx1 : BitVec 64 := 0x165667919E3779F9#64

/-- `PRIME_MX2`. -/
def primeMx2 : BitVec 64 := 0x9FB21C651E98DF25#64

/-- `XXH_readLE64`, of the secret. -/
def xxhReadLE64 (bytes : List UInt8) (off : ℕ) : BitVec 64 := BitVec.ofNat 64 (le (slice bytes off 8))

/-- `XXH_xorshift64`. -/
def xxhXorshift64 (v64 : BitVec 64) (shift : ℕ) : BitVec 64 := v64 ^^^ (v64 >>> shift)

/-- `XXH_mult64to128`: the low and the high half of the product. -/
def xxhMult64to128 (lhs rhs : BitVec 64) : BitVec 64 × BitVec 64 :=
  (lhs * rhs, BitVec.ofNat 64 (lhs.toNat * rhs.toNat / 2 ^ 64))

/-- `XXH3_avalanche`. -/
def xxh3Avalanche (h64 : BitVec 64) : BitVec 64 :=
  xxhXorshift64 (xxhXorshift64 h64 37 * primeMx1) 32

/-- The last steps of `XXH3_len_4to8_128b`, from the product on. -/
def xxh3Finish (m128 : BitVec 64 × BitVec 64) : BitVec 64 × BitVec 64 :=
  let high64 := m128.2 + (m128.1 <<< 1)
  let low64 := m128.1 ^^^ (high64 >>> 3)
  (xxhXorshift64 (xxhXorshift64 low64 35 * primeMx2) 28, xxh3Avalanche high64)

/-- `XXH3_len_4to8_128b` with the seed 0. -/
def xxh3Len4to8 (input : List UInt8) : UInt64 × UInt64 :=
  let len := input.length
  let inputLo := le (slice input 0 4)
  let inputHi := le (slice input (len - 4) 4)
  let input64 := BitVec.ofNat 64 (inputLo + inputHi * 2 ^ 32)
  let bitflip := xxhReadLE64 xxh3Secret 0 ^^^ xxhReadLE64 xxh3Secret 8
  let m128 :=
    xxh3Finish (xxhMult64to128 (input64 ^^^ bitflip) (xxhPrime64_1 + BitVec.ofNat 64 (len * 4)))
  (⟨m128.1⟩, ⟨m128.2⟩)

/-! ### No collisions -/

lemma xxh3Avalanche_injective : Function.Injective xxh3Avalanche := fun _ _ h =>
  xorshift_injective (by decide) (mul_odd_injective (by decide) (xorshift_injective (by decide) h))

/-- The two halves are recovered one after the other, the high one first. -/
lemma xxh3Finish_injective : Function.Injective xxh3Finish := by
  rintro ⟨low, high⟩ ⟨low', high'⟩ h
  obtain ⟨hlow, hhigh⟩ := Prod.mk.inj h
  have hsum : high + (low <<< 1) = high' + (low' <<< 1) := xxh3Avalanche_injective hhigh
  have hmixed : low ^^^ ((high + (low <<< 1)) >>> 3) = low' ^^^ ((high' + (low' <<< 1)) >>> 3) :=
    xorshift_injective (by decide)
      (mul_odd_injective (by decide) (xorshift_injective (by decide) hlow))
  rw [hsum, BitVec.xor_left_inj] at hmixed
  subst hmixed
  rw [BitVec.add_left_inj] at hsum
  rw [hsum]

/-- Eight bytes are read as one number. -/
lemma le_of_length_eight {bs : List UInt8} (h : bs.length = 8) :
    le (slice bs 0 4) + le (slice bs (8 - 4) 4) * 2 ^ 32 = le bs := by
  have hsplit : slice bs 0 4 ++ slice bs 4 4 = bs := by
    rw [← slice_add bs 0 4 4, slice, List.drop_zero, List.take_of_length_le h.le]
  have hlen : (slice bs 0 4).length = 4 := by
    rw [length_slice]
    omega
  conv_rhs => rw [← hsplit, le_append, hlen]
  ring

/-- **XXH3 has no collisions on eight bytes.** -/
theorem xxh3Len4to8_injective {bs bs' : List UInt8} (hlen : bs.length = 8)
    (hlen' : bs'.length = 8) (h : xxh3Len4to8 bs = xxh3Len4to8 bs') : bs = bs' := by
  rw [xxh3Len4to8, xxh3Len4to8, hlen, hlen', le_of_length_eight hlen, le_of_length_eight hlen'] at h
  obtain ⟨hlow, hhigh⟩ := Prod.mk.inj h
  have hmult := xxh3Finish_injective
    (Prod.ext (UInt64.ofBitVec.inj hlow) (UInt64.ofBitVec.inj hhigh))
  have hkeyed := mul_odd_injective (by decide) (Prod.mk.inj hmult).1
  rw [BitVec.xor_left_inj] at hkeyed
  have hle := congrArg BitVec.toNat hkeyed
  have hlt := le_lt bs
  have hlt' := le_lt bs'
  rw [hlen] at hlt
  rw [hlen'] at hlt'
  rw [BitVec.toNat_ofNat, BitVec.toNat_ofNat, Nat.mod_eq_of_lt (by norm_num at hlt ⊢; omega),
    Nat.mod_eq_of_lt (by norm_num at hlt' ⊢; omega)] at hle
  rw [← toLe_le bs, ← toLe_le bs', hlen, hlen', hle]

end Oceanliner
