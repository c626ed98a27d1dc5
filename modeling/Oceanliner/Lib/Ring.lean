/-
# Submission queues

A queue of bounded capacity takes references to messages, and `submit` sends what they refer to
at that moment.  A loop that submits whenever the queue is full sends its messages in groups of
`capacity`.  When all references are to one place in memory, every message of a group is the
last one that has been written there (`grouped`); when they are to different places but the
last group is left in the queue, the messages of the full groups are sent (`List.take`).
-/
import Mathlib.Tactic

namespace Ring

variable {Ref M : Type*} {capacity : ℕ}

/-- A submission queue with its entries, the oldest first. -/
structure SubmissionQueue (Ref : Type*) (capacity : ℕ) where
  entries : List Ref
  length_le : entries.length ≤ capacity

namespace SubmissionQueue

/-- A queue without entries. -/
def empty : SubmissionQueue Ref capacity := ⟨[], Nat.zero_le capacity⟩

/-- A new entry; `none` when all are in use. -/
def push (q : SubmissionQueue Ref capacity) (ref : Ref) : Option (SubmissionQueue Ref capacity) :=
  if h : q.entries.length < capacity then
    some ⟨q.entries ++ [ref], by rw [List.length_append]; exact h⟩
  else none

/-- What a submission sends, with `mem` for what is in memory. -/
def submit (q : SubmissionQueue Ref capacity) (mem : Ref → M) : List M := q.entries.map mem

lemma exists_push {q : SubmissionQueue Ref capacity} (h : q.entries.length < capacity)
    (ref : Ref) : ∃ q', q.push ref = some q' ∧ q'.entries = q.entries ++ [ref] := by
  rw [push, dif_pos h]
  exact ⟨_, rfl, rfl⟩

lemma entries_of_push {q q' : SubmissionQueue Ref capacity} {ref : Ref}
    (h : q.push ref = some q') : q'.entries = q.entries ++ [ref] := by
  rw [push] at h
  split at h
  · obtain rfl := Option.some.inj h
    rfl
  · cases h

/-- Entries that all refer to one place send it as often as they are. -/
lemma submit_const (q : SubmissionQueue Ref capacity) (m : M) :
    q.submit (fun _ => m) = List.replicate q.entries.length m := by
  rw [submit, List.map_const']

end SubmissionQueue

/-! ### Groups -/

/-- Every element replaced by the last one of its group of `k`, when `queued` elements of the
first group are already gone. -/
def grouped (k : ℕ) : ℕ → List M → List M
  | _, [] => []
  | queued, x :: xs =>
      if queued + 1 = k ∨ xs = [] then List.replicate (queued + 1) x ++ grouped k 0 xs
      else grouped k (queued + 1) xs

/-- Elements of one group of `k` are equal. -/
def SameInGroups (k : ℕ) (xs : List M) : Prop :=
  ∀ i j, i < xs.length → j < xs.length → i / k = j / k → xs[i]? = xs[j]?

variable {k : ℕ} {xs g : List M}

lemma sameInGroups_nil : SameInGroups k ([] : List M) := fun _ _ h => absurd h (Nat.not_lt_zero _)

/-- A function that tells the elements apart does not matter. -/
lemma sameInGroups_map_iff {N : Type*} {f : M → N}
    (hf : ∀ x ∈ xs, ∀ y ∈ xs, f x = f y → x = y) :
    SameInGroups k (xs.map f) ↔ SameInGroups k xs := by
  constructor
  · intro h i j hi hj hij
    have heq := h i j (by simpa using hi) (by simpa using hj) hij
    rw [List.getElem?_map, List.getElem?_map, List.getElem?_eq_getElem hi,
      List.getElem?_eq_getElem hj, Option.map_some, Option.map_some, Option.some.injEq] at heq
    rw [List.getElem?_eq_getElem hi, List.getElem?_eq_getElem hj,
      hf _ (List.getElem_mem hi) _ (List.getElem_mem hj) heq]
  · intro h i j hi hj hij
    rw [List.length_map] at hi hj
    rw [List.getElem?_map, List.getElem?_map, h i j hi hj hij]

/-- A list that is at most one group has all its elements equal to its last one. -/
lemma sameInGroups_of_length_le {x : M} (h : g.length + 1 ≤ k) :
    SameInGroups k (g ++ [x]) ↔ List.replicate (g.length + 1) x = g ++ [x] := by
  have hlen : (g ++ [x]).length = g.length + 1 := by simp
  rw [eq_comm, List.eq_replicate_iff]
  constructor
  · intro hsame
    refine ⟨hlen, fun b hb => ?_⟩
    obtain ⟨i, hi, rfl⟩ := List.mem_iff_getElem.1 hb
    rw [hlen] at hi
    have hlast := hsame i g.length (by omega) (by omega)
      (by rw [Nat.div_eq_of_lt (by omega), Nat.div_eq_of_lt (by omega)])
    rw [List.getElem?_concat_length, List.getElem?_eq_getElem (by omega)] at hlast
    exact Option.some.inj hlast
  · rintro ⟨-, hall⟩ i j hi hj -
    rw [List.getElem?_eq_getElem hi, List.getElem?_eq_getElem hj, hall _ (List.getElem_mem hi),
      hall _ (List.getElem_mem hj)]

/-- A whole group can be split off. -/
lemma sameInGroups_append (hk : 0 < k) (h : g.length = k) :
    SameInGroups k (g ++ xs) ↔ SameInGroups k g ∧ SameInGroups k xs := by
  constructor
  · intro hsame
    constructor
    · intro i j hi hj hij
      have := hsame i j (by simp; omega) (by simp; omega) hij
      rwa [List.getElem?_append_left hi, List.getElem?_append_left hj] at this
    · intro i j hi hj hij
      have := hsame (i + k) (j + k) (by simp; omega) (by simp; omega)
        (by rw [Nat.add_div_right _ hk, Nat.add_div_right _ hk, hij])
      rwa [List.getElem?_append_right (by omega), List.getElem?_append_right (by omega), h,
        Nat.add_sub_cancel, Nat.add_sub_cancel] at this
  · rintro ⟨hg, hxs⟩ i j hi hj hij
    rw [List.length_append] at hi hj
    by_cases hik : i < k
    · have hjk : j < k := by
        rw [Nat.div_eq_of_lt hik] at hij
        exact (Nat.div_eq_zero_iff_lt hk).1 hij.symm
      rw [List.getElem?_append_left (by omega), List.getElem?_append_left (by omega)]
      exact hg i j (by omega) (by omega) hij
    · have hjk : ¬ j < k := by
        intro hjk
        rw [Nat.div_eq_of_lt hjk] at hij
        exact hik ((Nat.div_eq_zero_iff_lt hk).1 hij)
      rw [List.getElem?_append_right (by omega), List.getElem?_append_right (by omega), h]
      refine hxs (i - k) (j - k) (by omega) (by omega) ?_
      rw [Nat.div_eq_sub_div hk (Nat.le_of_not_lt hik),
        Nat.div_eq_sub_div hk (Nat.le_of_not_lt hjk)] at hij
      exact Nat.succ.inj hij

/-- Sending in groups from one place, with the elements `g` already queued. -/
lemma grouped_eq_append_iff (hg : g.length < k) (hxs : xs ≠ []) :
    grouped k g.length xs = g ++ xs ↔ SameInGroups k (g ++ xs) := by
  induction xs generalizing g with
  | nil => exact absurd rfl hxs
  | cons x xs ih =>
      have hsplit : g ++ x :: xs = (g ++ [x]) ++ xs := by simp
      have hlen : (g ++ [x]).length = g.length + 1 := by simp
      rw [grouped]
      split
      · rename_i hlast
        have hcut : List.replicate (g.length + 1) x ++ grouped k 0 xs = (g ++ [x]) ++ xs ↔
            SameInGroups k (g ++ [x]) ∧ grouped k 0 xs = xs := by
          rw [sameInGroups_of_length_le (by omega)]
          constructor
          · exact fun h => List.append_inj h (by simp)
          · rintro ⟨hx, hrest⟩
            rw [hx, hrest]
        rw [hsplit, hcut]
        cases xs with
        | nil => simp [grouped]
        | cons y ys =>
            have hk : g.length + 1 = k := hlast.resolve_right (List.cons_ne_nil y ys)
            have hrest := ih (g := []) (by simp; omega) (List.cons_ne_nil y ys)
            simp only [List.length_nil, List.nil_append] at hrest
            rw [sameInGroups_append (g := g ++ [x]) (by omega) (by rw [hlen, hk]), hrest]
      · rename_i hmore
        obtain ⟨hk, hne⟩ := not_or.1 hmore
        rw [hsplit, ← hlen]
        exact ih (by omega) hne

/-- **Sending from one place.**  The messages are the right ones exactly when those of each group
are equal. -/
theorem grouped_eq_iff (hk : 0 < k) : grouped k 0 xs = xs ↔ SameInGroups k xs := by
  cases xs with
  | nil => exact iff_of_true rfl sameInGroups_nil
  | cons x xs => exact grouped_eq_append_iff (g := []) hk (List.cons_ne_nil x xs)

end Ring
