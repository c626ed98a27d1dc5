/-
# Items that are taken out and passed on

Holders take items out of somewhere and pass them on later, each holder one item at a time.
The items are numbered in the order in which they are taken.  `Custody` says that nothing is
lost and nothing is duplicated in between: each item has been passed on, or one holder has it.
It is kept by both operations, and `Custody.once` reads the accounts.
-/
import Mathlib.Tactic

open Function

variable {ι α : Type*}

/-- What has been taken, what the holders have, and what has been passed on, with the number of
each item. -/
structure Custody (taken : List α) (held : ι → Option (ℕ × α)) (passed : List (ℕ × α)) :
    Prop where
  held_taken : ∀ i k a, held i = some (k, a) → taken[k]? = some a
  held_inj : ∀ i j k a b, held i = some (k, a) → held j = some (k, b) → i = j
  passed_taken : ∀ k a, (k, a) ∈ passed → taken[k]? = some a
  passed_nodup : (passed.map Prod.fst).Nodup
  apart : ∀ i k a, held i = some (k, a) → k ∉ passed.map Prod.fst
  covered : ∀ k a, taken[k]? = some a → (k, a) ∈ passed ∨ ∃ i, held i = some (k, a)

namespace Custody

variable {taken : List α} {held : ι → Option (ℕ × α)} {passed : List (ℕ × α)}

lemma start : Custody ([] : List α) (fun _ : ι => none) [] where
  held_taken := by rintro i k a ⟨⟩
  held_inj := by rintro i j k a b ⟨⟩
  passed_taken := by rintro k a ⟨⟩
  passed_nodup := List.nodup_nil
  apart := by rintro i k a ⟨⟩
  covered := by rintro k a ⟨⟩

lemma lt_of_held (h : Custody taken held passed) {i : ι} {k : ℕ} {a : α}
    (hi : held i = some (k, a)) : k < taken.length :=
  (List.getElem?_eq_some_iff.1 (h.held_taken i k a hi)).1

lemma lt_of_passed (h : Custody taken held passed) {k : ℕ} (hk : k ∈ passed.map Prod.fst) :
    k < taken.length := by
  obtain ⟨⟨k', a⟩, hmem, rfl⟩ := List.mem_map.1 hk
  exact (List.getElem?_eq_some_iff.1 (h.passed_taken k' a hmem)).1

variable [DecidableEq ι]

/-- A holder with empty hands takes the next item. -/
theorem take (h : Custody taken held passed) {i : ι} (hi : held i = none) (a : α) :
    Custody (taken ++ [a]) (update held i (some (taken.length, a))) passed := by
  have hold : ∀ {k : ℕ} {b : α}, taken[k]? = some b → (taken ++ [a])[k]? = some b := by
    intro k b hk
    rw [List.getElem?_append_left (List.getElem?_eq_some_iff.1 hk).1]
    exact hk
  -- what a holder has afterwards
  have hcases : ∀ {j : ι} {k : ℕ} {b : α},
      update held i (some (taken.length, a)) j = some (k, b) →
        (j = i ∧ k = taken.length ∧ b = a) ∨ (j ≠ i ∧ held j = some (k, b)) := by
    intro j k b hj
    by_cases hji : j = i
    · rw [hji, update_self] at hj
      obtain ⟨rfl, rfl⟩ := Prod.mk.inj (Option.some.inj hj)
      exact .inl ⟨hji, rfl, rfl⟩
    · rw [update_of_ne hji] at hj
      exact .inr ⟨hji, hj⟩
  refine ⟨?_, ?_, ?_, h.passed_nodup, ?_, ?_⟩
  · intro j k b hj
    rcases hcases hj with ⟨-, rfl, rfl⟩ | ⟨-, hj⟩
    · exact List.getElem?_concat_length
    · exact hold (h.held_taken j k b hj)
  · intro j j' k b b' hj hj'
    rcases hcases hj with ⟨rfl, rfl, -⟩ | ⟨-, hj⟩
    · rcases hcases hj' with ⟨rfl, -, -⟩ | ⟨-, hj'⟩
      · rfl
      · exact absurd (h.lt_of_held hj') (lt_irrefl _)
    · rcases hcases hj' with ⟨-, rfl, -⟩ | ⟨-, hj'⟩
      · exact absurd (h.lt_of_held hj) (lt_irrefl _)
      · exact h.held_inj j j' k b b' hj hj'
  · exact fun k b hk => hold (h.passed_taken k b hk)
  · intro j k b hj
    rcases hcases hj with ⟨-, rfl, -⟩ | ⟨-, hj⟩
    · exact fun hk => absurd (h.lt_of_passed hk) (lt_irrefl _)
    · exact h.apart j k b hj
  · intro k b hk
    by_cases hlt : k < taken.length
    · rw [List.getElem?_append_left hlt] at hk
      rcases h.covered k b hk with hpassed | ⟨j, hj⟩
      · exact .inl hpassed
      · refine .inr ⟨j, ?_⟩
        rw [update_of_ne]
        · exact hj
        · rintro rfl
          rw [hi] at hj
          cases hj
    · have hlen := (List.getElem?_eq_some_iff.1 hk).1
      rw [List.length_append, List.length_singleton] at hlen
      obtain rfl : k = taken.length := by omega
      rw [List.getElem?_concat_length] at hk
      obtain rfl := Option.some.inj hk
      exact .inr ⟨i, update_self ..⟩

/-- A holder passes on what it has. -/
theorem pass (h : Custody taken held passed) {i : ι} {k : ℕ} {a : α}
    (hi : held i = some (k, a)) :
    Custody taken (update held i none) (passed ++ [(k, a)]) := by
  have hcases : ∀ {j : ι} {p : ℕ × α}, update held i none j = some p → j ≠ i ∧ held j = some p := by
    intro j p hj
    by_cases hji : j = i
    · rw [hji, update_self] at hj
      cases hj
    · rw [update_of_ne hji] at hj
      exact ⟨hji, hj⟩
  refine ⟨?_, ?_, ?_, ?_, ?_, ?_⟩
  · exact fun j k' b hj => h.held_taken j k' b (hcases hj).2
  · exact fun j j' k' b b' hj hj' => h.held_inj j j' k' b b' (hcases hj).2 (hcases hj').2
  · intro k' b hk'
    rcases List.mem_append.1 hk' with hold | hnew
    · exact h.passed_taken k' b hold
    · obtain ⟨rfl, rfl⟩ := Prod.mk.inj (List.mem_singleton.1 hnew)
      exact h.held_taken i k' b hi
  · rw [List.map_append, List.map_singleton, ← List.concat_eq_append, List.nodup_concat]
    exact ⟨h.apart i k a hi, h.passed_nodup⟩
  · intro j k' b hj hk'
    obtain ⟨hji, hj⟩ := hcases hj
    rw [List.map_append, List.mem_append] at hk'
    rcases hk' with hold | hnew
    · exact h.apart j k' b hj hold
    · obtain rfl : k' = k := by simpa using hnew
      exact hji (h.held_inj j i k' b a hj hi)
  · intro k' b hk'
    rcases h.covered k' b hk' with hpassed | ⟨j, hj⟩
    · exact .inl (List.mem_append_left _ hpassed)
    · by_cases hji : j = i
      · rw [hji, hi] at hj
        rw [Option.some.inj hj]
        exact .inl (List.mem_append_right _ List.mem_cons_self)
      · refine .inr ⟨j, ?_⟩
        rw [update_of_ne hji]
        exact hj

omit [DecidableEq ι] in
/-- **Each item once.**  An item that was taken has been passed on once and nobody has it, or it
has not been passed on and exactly one holder has it. -/
theorem once (h : Custody taken held passed) {k : ℕ} {a : α} (hk : taken[k]? = some a) :
    ((passed.map Prod.fst).count k = 1 ∧ (k, a) ∈ passed ∧ ∀ i b, held i ≠ some (k, b)) ∨
      ((passed.map Prod.fst).count k = 0 ∧ ∃! i, held i = some (k, a)) := by
  rcases h.covered k a hk with hpassed | ⟨i, hi⟩
  · have hmem : k ∈ passed.map Prod.fst := List.mem_map.2 ⟨_, hpassed, rfl⟩
    exact .inl ⟨List.count_eq_one_of_mem h.passed_nodup hmem, hpassed,
      fun i b hi => h.apart i k b hi hmem⟩
  · exact .inr ⟨List.count_eq_zero.2 (h.apart i k a hi), i, hi,
      fun j hj => h.held_inj j i k a a hj hi⟩

end Custody
