/-
# Tokens

A text is cut into its tokens, the non-empty pieces between delimiters.  A scanner that skips
delimiters, takes what comes before the next one and goes on behind it (`next`) finds them all and
in order (`tokens_eq_split`).
-/
import Mathlib.Data.List.TakeWhile
import Mathlib.Tactic

namespace Tokens

variable {α : Type*} (delim : α → Bool)

/-- The tokens of a text. -/
def split (s : List α) : List (List α) := (s.splitOnP delim).filter fun t => !t.isEmpty

/-- The next token, and the text behind the delimiter at its end. -/
def next (s : List α) : Option (List α × List α) :=
  match s.dropWhile delim with
  | [] => none
  | c :: rest =>
      some ((c :: rest).takeWhile fun a => !delim a,
        ((c :: rest).dropWhile fun a => !delim a).tail)

/-- One token after the other, at most as many as `fuel`. -/
def tokens : ℕ → List α → List (List α)
  | 0, _ => []
  | fuel + 1, s =>
      match next delim s with
      | none => []
      | some (t, rest) => t :: tokens fuel rest

variable {delim}

/-- Delimiters in front of a text do not count. -/
lemma split_dropWhile (s : List α) : split delim (s.dropWhile delim) = split delim s := by
  induction s with
  | nil => rfl
  | cons c s ih =>
      by_cases hc : delim c = true
      · rw [List.dropWhile_cons_of_pos hc, ih, split, split, List.splitOnP_cons_eq_if_modifyHead, if_pos hc]
        rfl
      · rw [List.dropWhile_cons_of_neg hc]

/-- A token at the start of a text. -/
lemma split_append {t : List α} (ht : t ≠ []) (hdelim : ∀ a ∈ t, delim a = false) (u : List α)
    (hu : ∀ c rest, u = c :: rest → delim c = true) :
    split delim (t ++ u) = t :: split delim u.tail := by
  have hempty : (!t.isEmpty) = true := by simpa using ht
  cases u with
  | nil =>
      rw [List.append_nil, split, List.splitOnP_eq_singleton hdelim, List.filter_singleton,
        hempty]
      rfl
  | cons c rest =>
      rw [split, List.splitOnP_append_cons_of_forall_mem hdelim c (hu c rest rfl),
        List.filter_cons, if_pos hempty]
      rfl

/-- A scanner that finds nothing is at the end. -/
lemma split_of_next_none {s : List α} (h : next delim s = none) : split delim s = [] := by
  rw [next] at h
  split at h
  · rename_i hnil
    rw [← split_dropWhile, hnil]
    rfl
  · cases h

/-- What a scanner finds is the first token, and the others are behind it. -/
lemma split_of_next {s t rest : List α} (h : next delim s = some (t, rest)) :
    split delim s = t :: split delim rest ∧ rest.length < s.length := by
  rw [next] at h
  split at h
  · cases h
  · rename_i c s' hs
    obtain ⟨rfl, rfl⟩ := Prod.mk.inj (Option.some.inj h)
    have hc : delim c = false := by
      have hhead := List.head_dropWhile_not delim (l := s) (by simp [hs])
      simpa [hs] using hhead
    have htake : (c :: s').takeWhile (fun a => !delim a) ≠ [] := by
      rw [List.takeWhile_cons_of_pos (by simpa using hc)]
      exact List.cons_ne_nil _ _
    constructor
    · rw [← split_dropWhile, hs]
      conv_lhs => rw [← List.takeWhile_append_dropWhile (p := fun a => !delim a) (l := c :: s')]
      refine split_append htake (fun a ha => ?_) _ fun d u hd => ?_
      · simpa using List.mem_takeWhile_imp ha
      · have hhead := List.head_dropWhile_not (fun a => !delim a) (l := c :: s') (by simp [hd])
        simpa [hd] using hhead
    · have hle := (List.dropWhile_suffix delim (l := s)).length_le
      have hlt := (List.dropWhile_suffix (fun a => !delim a) (l := s')).length_le
      rw [hs, List.length_cons] at hle
      rw [List.dropWhile_cons_of_pos (by simpa using hc), List.length_tail]
      omega

/-- **A scanner finds every token once and in order.** -/
theorem tokens_eq_split {fuel : ℕ} {s : List α} (h : s.length ≤ fuel) :
    tokens delim fuel s = split delim s := by
  induction fuel generalizing s with
  | zero =>
      obtain rfl := List.length_eq_zero_iff.1 (Nat.le_zero.1 h)
      rfl
  | succ fuel ih =>
      rw [tokens]
      split
      · rename_i hnext
        rw [split_of_next_none hnext]
      · rename_i t rest hnext
        obtain ⟨hsplit, hlt⟩ := split_of_next hnext
        rw [hsplit, ih (by omega)]

/-- A token is a part of the text. -/
lemma sublist_of_mem_split {s t : List α} (ht : t ∈ split delim s) : t.Sublist s := by
  have hpieces : ∀ t ∈ s.splitOnP delim, t.Sublist s := by
    clear ht
    induction s with
    | nil => simp
    | cons c s ih =>
        rw [List.splitOnP_cons_eq_if_modifyHead]
        split
        · rw [List.forall_mem_cons]
          exact ⟨List.nil_sublist _, fun t ht => (ih t ht).cons c⟩
        · cases hs : s.splitOnP delim with
          | nil => simp
          | cons u us =>
              rw [hs, List.forall_mem_cons] at ih
              rw [List.modifyHead_cons, List.forall_mem_cons]
              exact ⟨ih.1.cons_cons c, fun t ht => (ih.2 t ht).cons c⟩
  exact hpieces t (List.mem_of_mem_filter ht)

end Tokens
