/-
Constants and helpers that the whole program uses (`globals.h`, `globals.c`).

Machine integers are natural numbers; arithmetic that can leave the range of its C type is
reduced with `u32` and `u64` where the source computes it.
-/
import Oceanliner.Lib.Bytes

namespace Oceanliner

/-- Reduction to `uint8_t`. -/
def u8 (n : ℕ) : ℕ := n % 2 ^ 8

/-- Reduction to `uint32_t`. -/
def u32 (n : ℕ) : ℕ := n % 2 ^ 32

/-- Reduction to `uint64_t` and `size_t`. -/
def u64 (n : ℕ) : ℕ := n % 2 ^ 64

/-- Conversion to `int32_t`. -/
def i32 (n : ℕ) : ℤ :=
  if n % 2 ^ 32 < 2 ^ 31 then (n % 2 ^ 32 : ℕ) else (n % 2 ^ 32 : ℕ) - 2 ^ 32

lemma u8_of_lt {n : ℕ} (h : n < 2 ^ 8) : u8 n = n := Nat.mod_eq_of_lt h

lemma u32_of_lt {n : ℕ} (h : n < 2 ^ 32) : u32 n = n := Nat.mod_eq_of_lt h

lemma u64_of_lt {n : ℕ} (h : n < 2 ^ 64) : u64 n = n := Nat.mod_eq_of_lt h

/-- A counter below its largest value counts up. -/
lemma lt_u64_succ {n : ℕ} (h : n < 2 ^ 64 - 1) : n < u64 (n + 1) := by
  rw [u64_of_lt (by omega)]
  exact Nat.lt_succ_self n

lemma i32_eq {n : ℕ} (h : n % 2 ^ 32 < 2 ^ 31) : i32 n = (n % 2 ^ 32 : ℕ) := if_pos h

lemma i32_neg {n : ℕ} (h : 2 ^ 31 ≤ n % 2 ^ 32) : i32 n < 0 := by
  rw [i32, if_neg (by omega)]
  omega

/-- Of the numbers below `2 ^ 32` those with the highest bit are negative. -/
lemma i32_nonneg {n : ℕ} (h : n < 2 ^ 32) : 0 ≤ i32 n ↔ n < 2 ^ 31 := by
  have hmod : n % 2 ^ 32 = n := Nat.mod_eq_of_lt h
  rcases lt_or_ge n (2 ^ 31) with hlt | hge
  · rw [i32_eq (hmod.symm ▸ hlt)]
    exact iff_of_true (Int.natCast_nonneg _) hlt
  · exact iff_of_false (i32_neg (hmod.symm ▸ hge)).not_ge hge.not_gt

/-- `MAX_NODES`.  `raft_core.h` defines it again, after `globals.h`, so this is the value in
`raft_core.c` and in `main.c`. -/
def maxNodes : ℕ := 5

instance : NeZero maxNodes := ⟨by decide⟩

/-- `CMDBUF_SIZE`: the size of a command buffer. -/
def cmdbufSize : ℕ := 2 ^ 26

/-- `MAX_VAL_LEN`, which is `UINT32_MAX`. -/
def maxValLen : ℕ := 2 ^ 32 - 1

/-- The next multiple of `alignment`, computed with a mask in `size_t` arithmetic. -/
def jumpToAlignment (ptr alignment : ℕ) : ℕ :=
  u64 (ptr + alignment - 1) &&& (2 ^ 64 - 1 - (alignment - 1))

/-- As long as the sum does not wrap around, the mask rounds up. -/
lemma jumpToAlignment_eq {ptr k : ℕ} (hk : k ≤ 64) (h : ptr + 2 ^ k - 1 < 2 ^ 64) :
    jumpToAlignment ptr (2 ^ k) = (ptr + 2 ^ k - 1) / 2 ^ k * 2 ^ k := by
  rw [jumpToAlignment, u64_of_lt h, Bytes.land_mask h hk]

lemma jumpToAlignment_four {ptr : ℕ} (h : ptr + 3 < 2 ^ 64) :
    jumpToAlignment ptr 4 = (ptr + 3) / 4 * 4 :=
  jumpToAlignment_eq (k := 2) (by norm_num) (by norm_num; omega)

lemma jumpToAlignment_eight {ptr : ℕ} (h : ptr + 7 < 2 ^ 64) :
    jumpToAlignment ptr 8 = (ptr + 7) / 8 * 8 :=
  jumpToAlignment_eq (k := 3) (by norm_num) (by norm_num; omega)

/-- `kvs_op_t`. -/
inductive KvsOp where
  | nop
  | get
  | set
  | delete
deriving DecidableEq, Repr

/-- The operation a number stands for; any other number is no operation. -/
def KvsOp.ofNat? : ℕ → Option KvsOp
  | 0 => some nop
  | 1 => some get
  | 2 => some set
  | 3 => some delete
  | _ => none

/-- The number of an operation. -/
def KvsOp.toNat : KvsOp → ℕ
  | nop => 0
  | get => 1
  | set => 2
  | delete => 3

lemma KvsOp.ofNat?_eq_some {type : ℕ} {op : KvsOp} : ofNat? type = some op ↔ type = op.toNat := by
  constructor
  · intro h
    unfold ofNat? at h
    split at h
    all_goals cases h <;> rfl
  · rintro rfl
    cases op <;> rfl

end Oceanliner
