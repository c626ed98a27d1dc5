/-
# Buffers that are allocated and freed

A memory hands out buffers with fresh numbers; a pointer is the number of a buffer, or null.
Freeing a buffer removes its contents, and freeing one that is not live is undefined, so that a
sequence of frees is defined exactly when it frees live buffers and none of them twice
(`freeAll_isSome_iff`).  A list of values is kept by a list of pointers when each pointer
refers to a buffer of its own that holds its value (`Keeps`).  Pointers own a memory when they
refer to all its live buffers, and each buffer has one owner (`Owned`); where there are several
holders of pointers, they own the memory together.
-/
import Mathlib.Tactic
import Mathlib.Data.List.ReduceOption

/-- The contents of the live buffers, and the first number that has not been handed out. -/
structure Memory (α : Type*) where
  cell : ℕ → Option α
  next : ℕ
  fresh : ∀ c, next ≤ c → cell c = none

namespace Memory

variable {α β : Type*}

/-- A memory without buffers. -/
def empty : Memory α := ⟨fun _ => none, 0, fun _ _ => rfl⟩

/-- A new buffer that holds `a`: its number, and the memory with it. -/
def malloc (m : Memory α) (a : α) : ℕ × Memory α :=
  (m.next,
    { cell := Function.update m.cell m.next (some a)
      next := m.next + 1
      fresh := by
        intro c hc
        rw [Function.update_of_ne (by omega)]
        exact m.fresh c (by omega) })

/-- Frees what a pointer refers to; null is allowed. -/
def free (m : Memory α) : Option ℕ → Option (Memory α)
  | none => some m
  | some c =>
      if m.cell c = none then none
      else
        some
          { cell := Function.update m.cell c none
            next := m.next
            fresh := by
              intro c' hc'
              rw [Function.update_apply]
              split
              · rfl
              · exact m.fresh c' hc' }

/-- Writes to a buffer; one that is not live cannot be written to. -/
def store (m : Memory α) (c : ℕ) (a : α) : Option (Memory α) :=
  if hlive : m.cell c = none then none
  else
    some
      { cell := Function.update m.cell c (some a)
        next := m.next
        fresh := by
          intro c' hc'
          have hne : c' ≠ c := fun heq => hlive (m.fresh c (heq ▸ hc'))
          rw [Function.update_of_ne hne]
          exact m.fresh c' hc' }

/-- Frees one pointer after the other. -/
def freeAll (m : Memory α) : List (Option ℕ) → Option (Memory α)
  | [] => some m
  | p :: ps => (m.free p).bind fun m' => freeAll m' ps

variable {m m' : Memory α}

lemma lt_next {c : ℕ} {a : α} (h : m.cell c = some a) : c < m.next := by
  by_contra hle
  rw [m.fresh c (not_lt.1 hle)] at h
  cases h

lemma malloc_cell_next (m : Memory α) (a : α) : (m.malloc a).2.cell m.next = some a :=
  Function.update_self ..

lemma malloc_cell_of_lt (a : α) {c : ℕ} (h : c < m.next) : (m.malloc a).2.cell c = m.cell c :=
  Function.update_of_ne (by omega) ..

/-- Freeing a new buffer leaves the contents of the others, and a number that is used up. -/
lemma free_malloc (m : Memory α) (a : α) : ∃ m', (m.malloc a).2.free (some m.next) = some m' ∧
    m'.cell = m.cell ∧ m'.next = m.next + 1 := by
  rw [free, malloc_cell_next, if_neg (by simp)]
  refine ⟨_, rfl, ?_, rfl⟩
  show Function.update (Function.update m.cell m.next (some a)) m.next none = m.cell
  rw [Function.update_idem, Function.update_eq_self_iff]
  exact (m.fresh m.next le_rfl).symm

/-! ### Freeing several pointers -/

lemma free_cell_of_ne {c c' : ℕ} (h : m.free (some c) = some m') (hne : c' ≠ c) :
    m'.cell c' = m.cell c' := by
  rw [free] at h
  split at h
  · cases h
  · obtain rfl := Option.some.inj h
    exact Function.update_of_ne hne ..

lemma free_cell_self {c : ℕ} (h : m.free (some c) = some m') : m'.cell c = none := by
  rw [free] at h
  split at h
  · cases h
  · obtain rfl := Option.some.inj h
    exact Function.update_self ..

/-- The frees are defined exactly when they free live buffers, each of them once. -/
theorem freeAll_isSome_iff {ps : List (Option ℕ)} : (m.freeAll ps).isSome ↔
    (∀ c ∈ ps.reduceOption, m.cell c ≠ none) ∧ ps.reduceOption.Nodup := by
  induction ps generalizing m with
  | nil => simp [freeAll]
  | cons p ps ih =>
      cases p with
      | none =>
          rw [List.reduceOption_cons_of_none, ← ih]
          rfl
      | some c =>
          rw [List.reduceOption_cons_of_some, freeAll, List.nodup_cons, List.forall_mem_cons]
          cases hfree : m.free (some c) with
          | none =>
              have hdead : m.cell c = none := by
                by_contra hlive
                rw [free, if_neg hlive] at hfree
                cases hfree
              exact iff_of_false Bool.false_ne_true fun h => h.1.1 hdead
          | some m' =>
              have hlive : m.cell c ≠ none := by
                intro hdead
                rw [free, if_pos hdead] at hfree
                cases hfree
              rw [Option.bind_some, ih]
              constructor
              · rintro ⟨hps, hnodup⟩
                have hmem : c ∉ ps.reduceOption := fun hc =>
                  hps c hc (free_cell_self hfree)
                refine ⟨⟨hlive, fun c' hc' => ?_⟩, hmem, hnodup⟩
                rw [← free_cell_of_ne hfree fun heq => hmem (heq ▸ hc')]
                exact hps c' hc'
              · rintro ⟨⟨-, hps⟩, hmem, hnodup⟩
                refine ⟨fun c' hc' => ?_, hnodup⟩
                rw [free_cell_of_ne hfree fun heq => hmem (heq ▸ hc')]
                exact hps c' hc'

/-! ### Pointers that keep values -/

/-- The pointer refers to a live buffer that holds the value, or is null for a value that
needs none. -/
def Refers (m : Memory α) (value : β → Option α) (b : β) (p : Option ℕ) : Prop :=
  match value b with
  | none => p = none
  | some a => ∃ c, p = some c ∧ m.cell c = some a

/-- Each value is in a buffer of its own, to which its pointer refers. -/
structure Keeps (m : Memory α) (value : β → Option α) (bs : List β) (ps : List (Option ℕ)) :
    Prop where
  refers : List.Forall₂ (m.Refers value) bs ps
  nodup : ps.reduceOption.Nodup

variable {value : β → Option α} {bs : List β} {ps : List (Option ℕ)} {b : β} {p : Option ℕ}

lemma Refers.congr (h : m.Refers value b p)
    (hcell : ∀ c a, p = some c → m.cell c = some a → m'.cell c = some a) :
    m'.Refers value b p := by
  unfold Refers at h ⊢
  split
  · rename_i hnone
    rwa [hnone] at h
  · rename_i a hsome
    rw [hsome] at h
    obtain ⟨c, rfl, hc⟩ := h
    exact ⟨c, rfl, hcell c a rfl hc⟩

/-- What the buffers of the pointers hold is all that matters. -/
lemma Keeps.congr (h : m.Keeps value bs ps)
    (hcell : ∀ c ∈ ps.reduceOption, ∀ a, m.cell c = some a → m'.cell c = some a) :
    m'.Keeps value bs ps where
  refers := by
    have hmem : ∀ p ∈ ps, ∀ c a, p = some c → m.cell c = some a → m'.cell c = some a := by
      rintro p hp c a rfl
      exact hcell c (List.reduceOption_mem_iff.2 hp) a
    have hrefers := h.refers
    clear h hcell
    induction hrefers with
    | nil => exact .nil
    | cons hhead _ ih =>
        exact .cons (hhead.congr (hmem _ List.mem_cons_self))
          (ih fun p hp => hmem p (List.mem_cons_of_mem _ hp))
  nodup := h.nodup

lemma Keeps.cell_ne_none (h : m.Keeps value bs ps) : ∀ c ∈ ps.reduceOption, m.cell c ≠ none := by
  intro c hc
  obtain ⟨refers, -⟩ := h
  rw [List.reduceOption_mem_iff] at hc
  induction refers with
  | nil => cases hc
  | cons hhead _ ih =>
      rcases List.mem_cons.1 hc with rfl | hrest
      · unfold Refers at hhead
        split at hhead
        · cases hhead
        · obtain ⟨c', heq, hc'⟩ := hhead
          obtain rfl := Option.some.inj heq
          rw [hc']
          exact Option.some_ne_none _
      · exact ih hrest

/-- The buffers of kept values can all be freed, each once. -/
theorem Keeps.freeAll_isSome (h : m.Keeps value bs ps) : (m.freeAll ps).isSome :=
  freeAll_isSome_iff.2 ⟨h.cell_ne_none, h.nodup⟩

lemma forall₂_concat_iff {R : β → Option ℕ → Prop} :
    List.Forall₂ R (bs ++ [b]) (ps ++ [p]) ↔ List.Forall₂ R bs ps ∧ R b p := by
  rw [← List.forall₂_reverse_iff, List.reverse_append, List.reverse_append,
    List.reverse_singleton, List.reverse_singleton, List.singleton_append,
    List.singleton_append, List.forall₂_cons, List.forall₂_reverse_iff, and_comm]

/-- One more value: its pointer refers to a buffer that no other pointer refers to. -/
lemma keeps_concat_iff : m.Keeps value (bs ++ [b]) (ps ++ [p]) ↔
    m.Keeps value bs ps ∧ m.Refers value b p ∧ ∀ c, p = some c → c ∉ ps.reduceOption := by
  have hnodup : (ps ++ [p]).reduceOption.Nodup ↔
      ps.reduceOption.Nodup ∧ ∀ c, p = some c → c ∉ ps.reduceOption := by
    cases p with
    | none => simp [List.reduceOption_append]
    | some c =>
        rw [List.reduceOption_append, List.reduceOption_singleton, Option.toList_some,
          ← List.concat_eq_append, List.nodup_concat]
        simp [and_comm]
  constructor
  · rintro ⟨hrefers, hdistinct⟩
    obtain ⟨hold, hnew⟩ := forall₂_concat_iff.1 hrefers
    obtain ⟨holdNodup, hfresh⟩ := hnodup.1 hdistinct
    exact ⟨⟨hold, holdNodup⟩, hnew, hfresh⟩
  · rintro ⟨⟨hold, holdNodup⟩, hnew, hfresh⟩
    exact ⟨forall₂_concat_iff.2 ⟨hold, hnew⟩, hnodup.2 ⟨holdNodup, hfresh⟩⟩

/-! ### Owners -/

/-- The pointers `own` refer to the live buffers, one pointer to each. -/
structure Owned (m : Memory α) (own : Multiset ℕ) : Prop where
  nodup : own.Nodup
  live : ∀ c, m.cell c ≠ none ↔ c ∈ own

namespace Owned

variable {own : Multiset ℕ}

lemma empty : (Memory.empty : Memory α).Owned 0 where
  nodup := Multiset.nodup_zero
  live := fun c => iff_of_false (fun h => h rfl) (Multiset.notMem_zero c)

lemma lt_next (h : m.Owned own) {c : ℕ} (hc : c ∈ own) : c < m.next := by
  obtain ⟨a, ha⟩ := Option.ne_none_iff_exists'.1 ((h.live c).2 hc)
  exact Memory.lt_next ha

/-- Whoever allocates a buffer owns it. -/
lemma malloc (h : m.Owned own) (a : α) : (m.malloc a).2.Owned (m.next ::ₘ own) where
  nodup := Multiset.nodup_cons.2 ⟨fun hmem => lt_irrefl _ (h.lt_next hmem), h.nodup⟩
  live := by
    intro c
    rw [Multiset.mem_cons, ← h.live]
    by_cases hc : c = m.next
    · subst hc
      exact iff_of_true (by rw [malloc_cell_next]; exact Option.some_ne_none a) (.inl rfl)
    · have hcell : (m.malloc a).2.cell c = m.cell c := Function.update_of_ne hc ..
      rw [hcell]
      exact ⟨.inr, fun hor => hor.resolve_left hc⟩

/-- A buffer can be freed by its owner, who does not own it any more. -/
lemma free {c : ℕ} (h : m.Owned (c ::ₘ own)) :
    ∃ m', m.free (some c) = some m' ∧ m'.Owned own ∧ ∀ c' ∈ own, m'.cell c' = m.cell c' := by
  obtain ⟨hc, hnodup⟩ := Multiset.nodup_cons.1 h.nodup
  have hlive : m.cell c ≠ none := (h.live c).2 (Multiset.mem_cons_self c own)
  cases hfree : m.free (some c) with
  | none =>
      rw [Memory.free, if_neg hlive] at hfree
      cases hfree
  | some m' =>
      have hne : ∀ c' ∈ own, c' ≠ c := fun c' hc' heq => hc (heq ▸ hc')
      refine ⟨m', rfl, ⟨hnodup, fun c' => ?_⟩, fun c' hc' => free_cell_of_ne hfree (hne c' hc')⟩
      by_cases hc' : c' = c
      · subst hc'
        exact iff_of_false (fun hlive' => hlive' (free_cell_self hfree)) hc
      · rw [free_cell_of_ne hfree hc', h.live, Multiset.mem_cons]
        exact ⟨fun hor => hor.resolve_left hc', .inr⟩

/-- A buffer can be written to by its owner, and stays with its owner. -/
lemma store {c : ℕ} (h : m.Owned own) (hc : c ∈ own) (a : α) :
    ∃ m', m.store c a = some m' ∧ m'.Owned own ∧ m'.cell = Function.update m.cell c (some a) := by
  have hlive : m.cell c ≠ none := (h.live c).2 hc
  rw [Memory.store, dif_neg hlive]
  refine ⟨_, rfl, ⟨h.nodup, fun c' => ?_⟩, rfl⟩
  show Function.update m.cell c (some a) c' ≠ none ↔ _
  rw [Function.update_apply]
  split
  · rename_i heq
    subst heq
    exact iff_of_true (Option.some_ne_none a) hc
  · exact h.live c'

/-- What is not owned has been freed. -/
lemma cell_eq_none (h : m.Owned 0) (c : ℕ) : m.cell c = none := by
  by_contra hlive
  exact Multiset.notMem_zero c ((h.live c).1 hlive)

/-- The owner of all buffers can free them all, in any order. -/
lemma freeAll {cs : List ℕ} (h : m.Owned cs) :
    ∃ m', m.freeAll (cs.map some) = some m' ∧ m'.Owned 0 := by
  induction cs generalizing m with
  | nil => exact ⟨m, rfl, h⟩
  | cons c cs ih =>
      rw [← Multiset.cons_coe] at h
      obtain ⟨m₁, hfree, hm₁, -⟩ := h.free
      obtain ⟨m', hall, hm'⟩ := ih hm₁
      refine ⟨m', ?_, hm'⟩
      rw [List.map_cons, Memory.freeAll, hfree, Option.bind_some, hall]

end Owned

/-! ### Several owners -/

section Holders

variable {H : Type*} [DecidableEq H] [Fintype H]

/-- What the holders other than `i` hold. -/
def heldByOthers (held : H → Multiset ℕ) (i : H) : Multiset ℕ := ∑ j ∈ Finset.univ.erase i, held j

lemma sum_held (held : H → Multiset ℕ) (i : H) : ∑ j, held j = held i + heldByOthers held i :=
  (Finset.add_sum_erase Finset.univ held (Finset.mem_univ i)).symm

lemma held_le_heldByOthers (held : H → Multiset ℕ) {i j : H} (hj : j ≠ i) :
    held j ≤ heldByOthers held i :=
  Finset.single_le_sum (f := held) (fun _ _ => Multiset.zero_le _)
    (Finset.mem_erase.2 ⟨hj, Finset.mem_univ j⟩)

variable {held held' : H → Multiset ℕ}

/-- What one holder holds has changed. -/
lemma sum_held_of_eq {i : H} (h : ∀ j, j ≠ i → held' j = held j) :
    ∑ j, held' j = held' i + heldByOthers held i := by
  rw [sum_held held' i]
  exact congrArg (held' i + ·) (Finset.sum_congr rfl fun j hj => h j (Finset.ne_of_mem_erase hj))

/-- One holder has handed something over to another one. -/
lemma sum_held_of_transfer {i j : H} (hij : i ≠ j) (h : held' i + held' j = held i + held j)
    (hrest : ∀ k, k ≠ i → k ≠ j → held' k = held k) : ∑ k, held' k = ∑ k, held k := by
  have hsplit : ∀ f : H → Multiset ℕ,
      ∑ k, f k = f i + f j + ∑ k ∈ (Finset.univ.erase i).erase j, f k := by
    intro f
    rw [← Finset.add_sum_erase Finset.univ f (Finset.mem_univ i),
      ← Finset.add_sum_erase (Finset.univ.erase i) f
        (Finset.mem_erase.2 ⟨hij.symm, Finset.mem_univ j⟩), add_assoc]
  rw [hsplit, hsplit, h]
  refine congrArg (held i + held j + ·) (Finset.sum_congr rfl fun k hk => ?_)
  rw [Finset.mem_erase, Finset.mem_erase] at hk
  exact hrest k hk.2.1 hk.1

end Holders

end Memory
