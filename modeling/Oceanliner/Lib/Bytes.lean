/-
# Byte buffers

Little-endian numbers in lists of bytes, slices of a buffer, strings that end at the first
zero byte, and the rounding of a length up to a power of two with a bit mask.
-/
import Mathlib.Data.List.TakeWhile
import Mathlib.Tactic

namespace Bytes

/-- The number a list of bytes stands for, least significant byte first. -/
def le : List UInt8 → ℕ
  | [] => 0
  | b :: bs => b.toNat + 256 * le bs

/-- The `k` low bytes of a number, least significant byte first. -/
def toLe : ℕ → ℕ → List UInt8
  | 0, _ => []
  | k + 1, n => UInt8.ofNat n :: toLe k (n / 256)

@[simp] lemma length_toLe (k n : ℕ) : (toLe k n).length = k := by
  induction k generalizing n with
  | zero => rfl
  | succ k ih => simp [toLe, ih]

lemma le_toLe (k n : ℕ) : le (toLe k n) = n % 256 ^ k := by
  induction k generalizing n with
  | zero => simp [toLe, le, Nat.mod_one]
  | succ k ih =>
      have hb : (UInt8.ofNat n).toNat = n % 256 := by simp
      rw [toLe, le, ih, hb, Nat.pow_succ, Nat.mul_comm, Nat.mul_comm (256 ^ k), Nat.mod_mul]
      ring

lemma le_lt (bs : List UInt8) : le bs < 256 ^ bs.length := by
  induction bs with
  | nil => simp [le]
  | cons b bs ih =>
      have hb := b.toNat_lt
      rw [le, List.length_cons, Nat.pow_succ]
      omega

lemma le_append (bs cs : List UInt8) : le (bs ++ cs) = le bs + 256 ^ bs.length * le cs := by
  induction bs with
  | nil => simp [le]
  | cons b bs ih =>
      rw [List.cons_append, le, le, ih, List.length_cons, Nat.pow_succ]
      ring

/-- Bytes are what is written for the number they stand for. -/
lemma toLe_le (bs : List UInt8) : toLe bs.length (le bs) = bs := by
  induction bs with
  | nil => rfl
  | cons b bs ih =>
      have hb := b.toNat_lt
      have hlow : UInt8.ofNat (b.toNat + 256 * le bs) = b := by
        apply UInt8.toNat_inj.1
        rw [UInt8.toNat_ofNat']
        omega
      have hrest : (b.toNat + 256 * le bs) / 256 = le bs := by omega
      rw [List.length_cons, le, toLe, hlow, hrest, ih]

/-- `n` bytes of the buffer from the offset `off` on. -/
def slice (buf : List UInt8) (off n : ℕ) : List UInt8 :=
  (buf.drop off).take n

lemma length_slice (buf : List UInt8) (off n : ℕ) :
    (slice buf off n).length = min n (buf.length - off) := by
  simp [slice]

lemma length_slice_le (buf : List UInt8) (off n : ℕ) : (slice buf off n).length ≤ n := by
  rw [length_slice]
  exact min_le_left _ _

/-- A slice behind a prefix is a slice of the rest. -/
lemma slice_append_right (pre buf : List UInt8) (off n : ℕ) :
    slice (pre ++ buf) (pre.length + off) n = slice buf off n := by
  rw [slice, slice, ← List.drop_drop, List.drop_left]

/-- A slice that lies inside the first part of a buffer does not see the second part. -/
lemma slice_append_left {buf suf : List UInt8} {off n : ℕ} (h : off + n ≤ buf.length) :
    slice (buf ++ suf) off n = slice buf off n := by
  rw [slice, slice, List.drop_append_of_le_length (by omega),
    List.take_append_of_le_length (by simp; omega)]

/-- A number is read back from where it has been written. -/
lemma le_slice_toLe {k n : ℕ} (pre suf : List UInt8) (hn : n < 256 ^ k) :
    le (slice (pre ++ (toLe k n ++ suf)) pre.length k) = n := by
  rw [slice, List.drop_left, List.take_left' (length_toLe k n), le_toLe, Nat.mod_eq_of_lt hn]

lemma le_slice_lt (buf : List UInt8) (off n : ℕ) : le (slice buf off n) < 256 ^ n :=
  lt_of_lt_of_le (le_lt _) (Nat.pow_le_pow_right (by norm_num) (length_slice_le buf off n))

/-- The string that starts at the offset `off` and ends before the next zero byte. -/
def cString (buf : List UInt8) (off : ℕ) : List UInt8 :=
  (buf.drop off).takeWhile (· ≠ 0)

/-- A string is read back from any place where it stands with a zero byte behind it. -/
lemma cString_of_slice {buf key : List UInt8} {off n : ℕ} (h : slice buf off n = key ++ [0])
    (hkey : ∀ b ∈ key, b ≠ 0) : cString buf off = key := by
  have hsplit : buf.drop off = key ++ 0 :: (buf.drop off).drop n := by
    conv_lhs => rw [← List.take_append_drop n (buf.drop off)]
    rw [slice] at h
    rw [h, List.append_assoc, List.singleton_append]
  rw [cString, hsplit, List.takeWhile_append_of_pos (by simpa using hkey)]
  simp

/-- A string behind a prefix is a string of the rest. -/
lemma cString_append_right (pre buf : List UInt8) (off : ℕ) :
    cString (pre ++ buf) (pre.length + off) = cString buf off := by
  rw [cString, cString, ← List.drop_drop, List.drop_left]

/-- A string that ends inside a buffer does not see what follows the buffer. -/
lemma cString_append {buf suf : List UInt8} {off : ℕ} (h : 0 ∈ buf.drop off) :
    cString (buf ++ suf) off = cString buf off := by
  have hle : off ≤ buf.length := by
    by_contra hgt
    rw [List.drop_eq_nil_of_le (by omega)] at h
    cases h
  have hend : ((buf.drop off).takeWhile (· ≠ 0)).length ≠ (buf.drop off).length := by
    intro hlen
    have hself := (List.takeWhile_prefix fun b : UInt8 => decide (b ≠ 0)).eq_of_length hlen
    rw [← hself] at h
    exact absurd (List.mem_takeWhile_imp h) (by decide)
  rw [cString, cString, List.drop_append_of_le_length hle, List.takeWhile_append, if_neg hend]

/-- Two slices, one behind the other. -/
lemma slice_add (buf : List UInt8) (off n k : ℕ) :
    slice buf off (n + k) = slice buf off n ++ slice buf (off + n) k := by
  rw [slice, slice, slice, List.take_add, List.drop_drop]

/-! ### Rounding up with a mask -/

/-- Clearing the `k` low bits of a `w`-bit number rounds it down to a multiple of `2 ^ k`. -/
lemma land_mask {n w k : ℕ} (hn : n < 2 ^ w) (hk : k ≤ w) :
    n &&& (2 ^ w - 1 - (2 ^ k - 1)) = n / 2 ^ k * 2 ^ k := by
  have hpos : 0 < 2 ^ k := by positivity
  have hkw : 2 ^ k ≤ 2 ^ w := Nat.pow_le_pow_right (by norm_num) hk
  have hmask : 2 ^ w - 1 - (2 ^ k - 1) = 2 ^ w - (2 ^ k - 1 + 1) := by omega
  rw [hmask, ← Nat.shiftRight_eq_div_pow, ← Nat.shiftLeft_eq]
  refine Nat.eq_of_testBit_eq fun i => ?_
  rw [Nat.testBit_and, Nat.testBit_two_pow_sub_succ (by omega), Nat.testBit_two_pow_sub_one,
    Nat.testBit_shiftLeft, Nat.testBit_shiftRight]
  by_cases hik : i < k
  · have hnot : ¬ i ≥ k := by omega
    simp [hik, hnot]
  · have hge : i ≥ k := by omega
    have hki : k + (i - k) = i := by omega
    by_cases hiw : i < w
    · simp [hik, hge, hki, hiw]
    · have hbit : n.testBit i = false :=
        Nat.testBit_lt_two_pow (lt_of_lt_of_le hn (Nat.pow_le_pow_right (by norm_num) (by omega)))
      simp [hki, hbit]

end Bytes
