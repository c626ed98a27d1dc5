/-
# Sequences of operations on a map

Sets, gets and deletes on a finite or infinite map, over arbitrary keys and values: what a
sequence does to a map, what its gets see, and when a sequence cannot be told apart from one
whose sets were never carried out.  That is so exactly when every set is undone by a delete
of its key before anybody looks (`unseen_iff`).  A key has the value that the last operation
on it wrote (`exists_last_write`).
-/
import Mathlib.Tactic

namespace MapOps

variable {K V : Type*}

inductive Op (K V : Type*) where
  | set (k : K) (v : V)
  | get (k : K)
  | delete (k : K)

/-- No key has a value. -/
def empty : K → Option V := fun _ => none

section

variable [DecidableEq K]

/-- The map after one operation. -/
def apply (m : K → Option V) : Op K V → K → Option V
  | .set k v => Function.update m k (some v)
  | .get _ => m
  | .delete k => Function.update m k none

/-- The map after a sequence of operations. -/
def exec (m : K → Option V) (ops : List (Op K V)) : K → Option V := ops.foldl apply m

@[simp] lemma exec_nil (m : K → Option V) : exec m [] = m := rfl

@[simp] lemma exec_cons (m : K → Option V) (op : Op K V) (ops : List (Op K V)) :
    exec m (op :: ops) = exec (apply m op) ops := rfl

/-- An operation as a client sees it: the map afterwards, and what the operation finds. -/
def call (m : K → Option V) (op : Op K V) : (K → Option V) × Option V :=
  (apply m op,
    match op with
    | .set _ _ => none
    | .get k => m k
    | .delete _ => none)

/-- No get of the sequence finds a value. -/
def GetsMiss : (K → Option V) → List (Op K V) → Prop
  | _, [] => True
  | m, op :: ops => (∀ k, op = .get k → m k = none) ∧ GetsMiss (apply m op) ops

end

/-- The sequence deletes `k`, and does not get it before that. -/
def DeletedUnseen (k : K) : List (Op K V) → Prop
  | [] => False
  | .delete k' :: ops => k' = k ∨ DeletedUnseen k ops
  | .get k' :: ops => k' ≠ k ∧ DeletedUnseen k ops
  | .set _ _ :: ops => DeletedUnseen k ops

/-- Every key that is set is deleted later on, before any get of it. -/
def SetsUnseen : List (Op K V) → Prop
  | [] => True
  | .set k _ :: ops => DeletedUnseen k ops ∧ SetsUnseen ops
  | .get _ :: ops => SetsUnseen ops
  | .delete _ :: ops => SetsUnseen ops

variable [DecidableEq K]

/-- A sequence misses with all gets and ends with the empty map exactly when the values it
starts with and those it sets are all deleted before they are seen. -/
theorem getsMiss_and_exec_empty_iff (m : K → Option V) (ops : List (Op K V)) :
    (GetsMiss m ops ∧ exec m ops = empty) ↔
      (∀ k, m k ≠ none → DeletedUnseen k ops) ∧ SetsUnseen ops := by
  induction ops generalizing m with
  | nil =>
      simp only [GetsMiss, exec_nil, SetsUnseen, DeletedUnseen, true_and, and_true, imp_false,
        not_not]
      exact funext_iff
  | cons op ops ih =>
      rw [GetsMiss, exec_cons, and_assoc, ih]
      cases op with
      | set k v =>
          -- a set adds `k` to the keys that have to be deleted
          simp only [apply, DeletedUnseen, SetsUnseen, reduceCtorEq, IsEmpty.forall_iff,
            implies_true, true_and]
          constructor
          · rintro ⟨hm, hops⟩
            refine ⟨fun k' hk' => hm k' ?_, hm k (by simp), hops⟩
            by_cases h : k' = k
            · simp [h]
            · simpa [h] using hk'
          · rintro ⟨hm, hk, hops⟩
            refine ⟨fun k' hk' => ?_, hops⟩
            by_cases h : k' = k
            · rwa [h]
            · exact hm k' (by simpa [h] using hk')
      | get k =>
          simp only [apply, DeletedUnseen, SetsUnseen]
          constructor
          · rintro ⟨hmiss, hm, hops⟩
            refine ⟨fun k' hk' => ⟨?_, hm k' hk'⟩, hops⟩
            rintro rfl
            exact hk' (hmiss k rfl)
          · rintro ⟨hm, hops⟩
            refine ⟨?_, fun k' hk' => (hm k' hk').2, hops⟩
            rintro k' ⟨⟩
            by_contra hk
            exact (hm k hk).1 rfl
      | delete k =>
          -- a delete takes `k` off the keys that have to be deleted
          simp only [apply, DeletedUnseen, SetsUnseen, reduceCtorEq, IsEmpty.forall_iff,
            implies_true, true_and]
          constructor
          · rintro ⟨hm, hops⟩
            refine ⟨fun k' hk' => ?_, hops⟩
            by_cases h : k = k'
            · exact Or.inl h
            · refine Or.inr (hm k' ?_)
              simpa [Ne.symm h] using hk'
          · rintro ⟨hm, hops⟩
            refine ⟨fun k' hk' => ?_, hops⟩
            by_cases h : k' = k
            · simp [h] at hk'
            · exact (hm k' (by simpa [h] using hk')).resolve_left (Ne.symm h)

/-- **Unseen sets.**  From the empty map, all gets miss and the map ends empty exactly when
every set is undone before it is seen. -/
theorem unseen_iff (ops : List (Op K V)) :
    (GetsMiss empty ops ∧ exec (empty : K → Option V) ops = empty) ↔ SetsUnseen ops := by
  rw [getsMiss_and_exec_empty_iff]
  simp [empty]

/-! ### The last write of a key -/

/-- The operation sets `k` to a value, or deletes it. -/
def Op.Writes (k : K) : Option V → Op K V → Prop
  | some v, .set k' v' => k' = k ∧ v' = v
  | none, .delete k' => k' = k
  | _, _ => False

lemma exec_append (m : K → Option V) (ops ops' : List (Op K V)) :
    exec m (ops ++ ops') = exec (exec m ops) ops' :=
  List.foldl_append

lemma apply_of_writes {m : K → Option V} {op : Op K V} {k : K} {v : Option V}
    (h : op.Writes k v) : apply m op k = v := by
  cases op with
  | set k' v' =>
      cases v with
      | none => exact h.elim
      | some v =>
          obtain ⟨rfl, rfl⟩ := h
          exact Function.update_self k' (some v') m
  | get k' => cases v <;> exact h.elim
  | delete k' =>
      cases v with
      | none =>
          obtain rfl : k' = k := h
          exact Function.update_self k' none m
      | some v => exact h.elim

/-- An operation that does not write a key leaves it as it is. -/
lemma apply_of_not_writes {m : K → Option V} {op : Op K V} {k : K}
    (h : ∀ v, ¬ op.Writes k v) : apply m op k = m k := by
  cases op with
  | set k' v' =>
      have hne : k ≠ k' := fun heq => h (some v') ⟨heq.symm, rfl⟩
      exact Function.update_of_ne hne (some v') m
  | get k' => rfl
  | delete k' =>
      have hne : k ≠ k' := fun heq => h none heq.symm
      exact Function.update_of_ne hne none m

/-- **The last write counts.**  If the operation at `p` writes `k`, then `k` ends with the value
that an operation at or after `p` wrote, and no operation after that one wrote `k`. -/
theorem exists_last_write (m : K → Option V) {ops : List (Op K V)} {k : K} {p : ℕ} {op : Op K V}
    {v : Option V} (hp : ops[p]? = some op) (hwrites : op.Writes k v) :
    ∃ q op', p ≤ q ∧ ops[q]? = some op' ∧ op'.Writes k (exec m ops k) ∧
      ∀ q' op'' v', q < q' → ops[q']? = some op'' → ¬ op''.Writes k v' := by
  induction ops using List.reverseRecOn with
  | nil => simp at hp
  | append_singleton ops last ih =>
      have hexec : exec m (ops ++ [last]) k = apply (exec m ops) last k := by
        rw [exec_append]
        rfl
      have hlen : p < (ops ++ [last]).length := (List.getElem?_eq_some_iff.1 hp).1
      rw [List.length_append, List.length_singleton] at hlen
      by_cases hlast : ∃ v', last.Writes k v'
      · obtain ⟨v', hv'⟩ := hlast
        refine ⟨ops.length, last, by omega, List.getElem?_concat_length, ?_, ?_⟩
        · rw [hexec, apply_of_writes hv']
          exact hv'
        · intro q' op'' v'' hq' hop''
          have hout : (ops ++ [last]).length ≤ q' := by
            rw [List.length_append, List.length_singleton]
            exact hq'
          rw [List.getElem?_eq_none hout] at hop''
          cases hop''
      · -- the last operation does not touch `k`, so the one at `p` is an earlier one
        have hnot : ∀ v', ¬ last.Writes k v' := fun v' hv' => hlast ⟨v', hv'⟩
        have hlt : p < ops.length := by
          by_contra hge
          obtain rfl : p = ops.length := by omega
          rw [List.getElem?_concat_length] at hp
          obtain rfl := Option.some.inj hp
          exact hnot v hwrites
        rw [List.getElem?_append_left hlt] at hp
        obtain ⟨q, op', hpq, hq, hop', hafter⟩ := ih hp
        have hqlen := (List.getElem?_eq_some_iff.1 hq).1
        refine ⟨q, op', hpq, ?_, ?_, ?_⟩
        · rw [List.getElem?_append_left hqlen]
          exact hq
        · rw [hexec, apply_of_not_writes hnot]
          exact hop'
        · intro q' op'' v' hq' hop''
          by_cases hlt' : q' < ops.length
          · rw [List.getElem?_append_left hlt'] at hop''
            exact hafter q' op'' v' hq' hop''
          · have hend := (List.getElem?_eq_some_iff.1 hop'').1
            rw [List.length_append, List.length_singleton] at hend
            obtain rfl : q' = ops.length := by omega
            rw [List.getElem?_concat_length] at hop''
            obtain rfl := Option.some.inj hop''
            exact hnot v'

end MapOps
