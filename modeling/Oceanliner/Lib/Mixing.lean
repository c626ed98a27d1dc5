/-
# Mixing steps of hash functions

Two steps from which non-cryptographic hash functions are built, and that lose nothing: a word
is combined with itself shifted to the right, and it is multiplied with an odd number.
-/
import Mathlib.Tactic

namespace Mixing

variable {w : ℕ}

/-- A word that is a shifted copy of itself is zero. -/
lemma eq_zero_of_eq_shift {d : BitVec w} {k : ℕ} (hk : 0 < k) (h : d = d >>> k) : d = 0 := by
  have hnat : d.toNat = d.toNat / 2 ^ k := by
    conv_lhs => rw [h, BitVec.toNat_ushiftRight, Nat.shiftRight_eq_div_pow]
  have hlt : 1 < 2 ^ k := Nat.one_lt_two_pow hk.ne'
  by_contra hne
  have hpos : 0 < d.toNat := by
    rw [Nat.pos_iff_ne_zero]
    intro hzero
    exact hne (BitVec.eq_of_toNat_eq (by rw [hzero]; rfl))
  have := Nat.div_lt_self hpos hlt
  omega

/-- Combining a word with itself shifted to the right. -/
theorem xorshift_injective {k : ℕ} (hk : 0 < k) :
    Function.Injective fun v : BitVec w => v ^^^ (v >>> k) := by
  intro x y h
  have hxy : x ^^^ (x >>> k) = y ^^^ (y >>> k) := h
  have hd : x ^^^ y = (x ^^^ y) >>> k := by
    calc x ^^^ y = (x ^^^ (x >>> k)) ^^^ ((x >>> k) ^^^ y) := by
          rw [BitVec.xor_assoc, ← BitVec.xor_assoc (x >>> k), BitVec.xor_self, BitVec.zero_xor]
      _ = ((y >>> k) ^^^ y) ^^^ (y ^^^ (x >>> k)) := by
          rw [hxy, BitVec.xor_comm y (y >>> k), BitVec.xor_comm (x >>> k) y]
      _ = (y >>> k) ^^^ (x >>> k) := by
          rw [BitVec.xor_assoc, ← BitVec.xor_assoc y, BitVec.xor_self, BitVec.zero_xor]
      _ = (x ^^^ y) >>> k := by
          rw [BitVec.ushiftRight_xor_distrib, BitVec.xor_comm]
  exact BitVec.xor_eq_zero_iff.1 (eq_zero_of_eq_shift hk hd)

/-- Multiplying with an odd number. -/
theorem mul_odd_injective {p : BitVec w} (hp : p.toNat % 2 = 1) :
    Function.Injective fun v : BitVec w => v * p := by
  intro x y h
  have hnat := congrArg BitVec.toNat h
  rw [BitVec.toNat_mul, BitVec.toNat_mul] at hnat
  have hcoprime : Nat.gcd (2 ^ w) p.toNat = 1 :=
    Nat.Coprime.pow_left w (Nat.coprime_two_left.2 (Nat.odd_iff.2 hp))
  have hmod := Nat.ModEq.cancel_right_of_coprime hcoprime hnat
  exact BitVec.eq_of_toNat_eq (Nat.ModEq.eq_of_lt_of_lt hmod x.isLt y.isLt)

end Mixing
