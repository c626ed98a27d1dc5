/-
# Statistics that are kept while values come in

A program that sees one value after another keeps their mean, their greatest and their least
without keeping the values.  This file has the step of each: the mean of a list with one more
value, the greatest of a list with one more value, and the least of a list kept with 0 as the mark
of "nothing yet" (`markedMin`).  The mark may also be a value, and `isLeast_markedMin_iff` says for
which lists this does no harm.  At the end stands the average that moves by a fixed part of the
way to each new value, which never leaves an interval that holds the values.
-/
import Mathlib.Tactic
import Mathlib.Analysis.Convex.Basic

namespace Averages

variable {K : Type*}

/-! ### The greatest and the least -/

section Extremes

variable [LinearOrder K]

lemma isGreatest_concat {xs : List K} {m : K} (h : IsGreatest {y | y ∈ xs} m) (x : K) :
    IsGreatest {y | y ∈ xs ++ [x]} (if x > m then x else m) := by
  have hset : {y | y ∈ xs ++ [x]} = insert x {y | y ∈ xs} := by
    ext y
    simp [or_comm]
  have hmax : (if x > m then x else m) = max x m := by
    rw [max_def']
    split <;> split <;> order
  rw [hset, hmax]
  exact h.insert x

variable [Zero K]

/-- A greatest value that started at 0 is the greatest of the values, if none is negative. -/
lemma isGreatest_of_cons_zero {xs : List K} {m : K} (hne : xs ≠ []) (hnonneg : ∀ x ∈ xs, 0 ≤ x)
    (h : IsGreatest {y | y ∈ 0 :: xs} m) : IsGreatest {y | y ∈ xs} m := by
  have hupper : m ∈ upperBounds {y | y ∈ xs} := fun y hy => h.2 (List.mem_cons_of_mem 0 hy)
  refine ⟨?_, hupper⟩
  rcases List.mem_cons.1 h.1 with rfl | hm
  · obtain ⟨x, hx⟩ := List.exists_mem_of_ne_nil xs hne
    have hzero : x = 0 := le_antisymm (hupper hx) (hnonneg x hx)
    exact hzero ▸ hx
  · exact hm

/-- The least value so far, where 0 stands for none. -/
def markedMin (xs : List K) : K := xs.foldl (fun m x => if m = 0 ∨ x < m then x else m) 0

lemma markedMin_concat (xs : List K) (x : K) :
    markedMin (xs ++ [x]) =
      if markedMin xs = 0 ∨ x < markedMin xs then x else markedMin xs :=
  List.foldl_append

lemma markedMin_mem {xs : List K} (hne : xs ≠ []) : markedMin xs ∈ xs := by
  induction xs using List.reverseRecOn with
  | nil => exact absurd rfl hne
  | append_singleton xs x ih =>
      rw [markedMin_concat, List.mem_append]
      split
      · exact .inr (List.mem_singleton_self x)
      · rename_i hold
        refine .inl (ih ?_)
        rintro rfl
        exact hold (.inl rfl)

/-- Without a value that is the mark, the marked minimum is a lower bound. -/
lemma markedMin_le {xs : List K} (hzero : 0 ∉ xs) : ∀ x ∈ xs, markedMin xs ≤ x := by
  induction xs using List.reverseRecOn with
  | nil => exact fun x hx => absurd hx List.not_mem_nil
  | append_singleton xs x ih =>
      rw [List.mem_append, not_or] at hzero
      intro y hy
      rw [markedMin_concat]
      rcases List.mem_append.1 hy with hy | hy
      · have hne : markedMin xs ≠ 0 := fun h =>
          hzero.1 (h ▸ markedMin_mem (List.ne_nil_of_mem hy))
        have hle := ih hzero.1 y hy
        split
        · rename_i hnew
          exact (hnew.resolve_left hne).le.trans hle
        · exact hle
      · obtain rfl := List.mem_singleton.1 hy
        split
        · exact le_rfl
        · rename_i hold
          exact not_lt.1 fun hlt => hold (.inr hlt)

/-- The marked minimum is 0 exactly when the last value is. -/
lemma markedMin_concat_eq_zero {xs : List K} {x : K} (hnonneg : ∀ y ∈ xs ++ [x], 0 ≤ y) :
    markedMin (xs ++ [x]) = 0 ↔ x = 0 := by
  rw [markedMin_concat]
  split
  · exact Iff.rfl
  · rename_i hold
    obtain ⟨hne, hle⟩ := not_or.1 hold
    have hxs : xs ≠ [] := by
      rintro rfl
      exact hne rfl
    have hpos : 0 < markedMin xs :=
      lt_of_le_of_ne (hnonneg _ (List.mem_append_left [x] (markedMin_mem hxs))) (Ne.symm hne)
    have hx : 0 < x := hpos.trans_le (not_lt.1 hle)
    exact iff_of_false hne hx.ne'

/-- **When the mark does no harm.**  Of values that are not negative, the marked minimum is the
least if and only if none is 0 or the last one is. -/
theorem isLeast_markedMin_iff {xs : List K} (hne : xs ≠ []) (hnonneg : ∀ x ∈ xs, 0 ≤ x) :
    IsLeast {x | x ∈ xs} (markedMin xs) ↔ 0 ∉ xs ∨ xs.getLast hne = 0 := by
  have hmem := markedMin_mem hne
  have hlast : markedMin xs = 0 ↔ xs.getLast hne = 0 := by
    have hxs := List.dropLast_append_getLast hne
    rw [← hxs] at hnonneg
    have hiff := markedMin_concat_eq_zero hnonneg
    rwa [hxs] at hiff
  rw [← hlast]
  constructor
  · intro hleast
    refine or_iff_not_imp_left.2 fun hzero => ?_
    exact le_antisymm (hleast.2 (not_not.1 hzero)) (hnonneg _ hmem)
  · rintro (hzero | hzero)
    · exact ⟨hmem, fun x hx => markedMin_le hzero x hx⟩
    · refine ⟨hmem, fun x hx => ?_⟩
      rw [hzero]
      exact hnonneg x hx

end Extremes

variable [Field K] [LinearOrder K] [IsStrictOrderedRing K]

/-! ### The mean -/

/-- The arithmetic mean. -/
def mean (xs : List K) : K := xs.sum / xs.length

lemma mean_concat (xs : List K) (x : K) :
    mean (xs ++ [x]) = (mean xs * xs.length + x) / (xs.length + 1 : ℕ) := by
  have hsum : mean xs * xs.length = xs.sum := by
    rcases eq_or_ne xs [] with rfl | hne
    · simp
    · have hlen : (xs.length : K) ≠ 0 := Nat.cast_ne_zero.2 (List.length_pos_iff.2 hne).ne'
      exact div_mul_cancel₀ xs.sum hlen
  rw [hsum, mean, List.sum_append, List.sum_singleton, List.length_append, List.length_singleton]

lemma le_mean {xs : List K} {lo : K} (hne : xs ≠ []) (h : ∀ x ∈ xs, lo ≤ x) : lo ≤ mean xs := by
  have hlen : (0 : K) < xs.length := Nat.cast_pos.2 (List.length_pos_iff.2 hne)
  have hsum := List.card_nsmul_le_sum xs lo h
  rw [mean, le_div_iff₀ hlen, mul_comm, ← nsmul_eq_mul]
  exact hsum

lemma mean_le {xs : List K} {hi : K} (hne : xs ≠ []) (h : ∀ x ∈ xs, x ≤ hi) : mean xs ≤ hi := by
  have hlen : (0 : K) < xs.length := Nat.cast_pos.2 (List.length_pos_iff.2 hne)
  have hsum := List.sum_le_card_nsmul xs hi h
  rw [mean, div_le_iff₀ hlen, mul_comm, ← nsmul_eq_mul]
  exact hsum

/-! ### Moving averages -/

variable {lo hi : K}

/-- A part of the way from one point of an interval to another stays in it. -/
lemma smooth_mem_Icc {a e x : K} (ha : a ∈ Set.Icc 0 1) (he : e ∈ Set.Icc lo hi)
    (hx : x ∈ Set.Icc lo hi) : e + a * (x - e) ∈ Set.Icc lo hi :=
  (convex_Icc lo hi).add_smul_sub_mem he hx ha

/-- How far two points of an interval are apart. -/
lemma abs_sub_mem_Icc {e x : K} (he : e ∈ Set.Icc lo hi)
    (hx : x ∈ Set.Icc lo hi) : |x - e| ∈ Set.Icc 0 (hi - lo) :=
  ⟨abs_nonneg _, abs_sub_le_iff.2 ⟨sub_le_sub hx.2 he.1, sub_le_sub he.2 hx.1⟩⟩

end Averages
