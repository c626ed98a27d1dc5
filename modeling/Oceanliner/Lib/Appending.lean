/-
# Records that are appended to a buffer

A writer appends records to a buffer; how a record is encoded may depend on where it stands, as
padding does.  A reader goes from record to record and stops at the first one it cannot read.  When
it reads every whole record and fails at every record that is cut off (`Reads`), it reads from the
beginning of a buffer the records that lie in it as a whole, and reports an error exactly when there
are others (`Reads.readAll_take`).
-/
import Mathlib.Data.List.Infix
import Mathlib.Tactic

namespace Appending

variable {B I O E : Type*}

/-! ### Writing -/

section Write

variable (enc : ℕ → I → List B)

/-- The buffer when the records `xs` have been appended to it; `enc off x` are the bytes of a record
that begins at the offset `off`. -/
def written (buf : List B) (xs : List I) : List B :=
  xs.foldl (fun buf x => buf ++ enc buf.length x) buf

@[simp] lemma written_nil (buf : List B) : written enc buf [] = buf := rfl

@[simp] lemma written_cons (buf : List B) (x : I) (xs : List I) :
    written enc buf (x :: xs) = written enc (buf ++ enc buf.length x) xs := rfl

lemma prefix_written (buf : List B) (xs : List I) : buf <+: written enc buf xs := by
  induction xs generalizing buf with
  | nil => exact List.prefix_rfl
  | cons x xs ih => exact (List.prefix_append buf _).trans (ih _)

lemma length_le_written (buf : List B) (xs : List I) : buf.length ≤ (written enc buf xs).length :=
  (prefix_written enc buf xs).length_le

end Write

/-! ### Reading -/

/-- `count` records, the first of which has the number `i` and begins at the offset `off`: the ones
before the first that cannot be read, and the error that was met there. -/
def readAll (read : ℕ → ℕ → Except E (O × ℕ)) : ℕ → ℕ → ℕ → List O × Option E
  | 0, _, _ => ([], none)
  | count + 1, i, off =>
      match read i off with
      | .error e => ([], some e)
      | .ok (o, off') =>
          (o :: (readAll read count (i + 1) off').1, (readAll read count (i + 1) off').2)

section ReadAll

variable {read : ℕ → ℕ → Except E (O × ℕ)} {count i off : ℕ}

lemma readAll_succ_ok {o : O} {off' : ℕ} (h : read i off = .ok (o, off')) :
    readAll read (count + 1) i off =
      (o :: (readAll read count (i + 1) off').1, (readAll read count (i + 1) off').2) := by
  rw [readAll, h]

lemma readAll_succ_error {e : E} (h : read i off = .error e) :
    readAll read (count + 1) i off = ([], some e) := by
  rw [readAll, h]

end ReadAll

/-- The reader gets `out x` from a whole record, whatever follows it, and fails at a record that
ends too early. -/
structure Reads (enc : ℕ → I → List B) (read : List B → ℕ → ℕ → Except E (O × ℕ)) (out : I → O) :
    Prop where
  whole : ∀ i pre x suf, read (pre ++ (enc pre.length x ++ suf)) i pre.length =
    .ok (out x, pre.length + (enc pre.length x).length)
  cut : ∀ i pre x m, m < (enc pre.length x).length →
    ∃ e, read (pre ++ (enc pre.length x).take m) i pre.length = .error e

section Take

variable {enc : ℕ → I → List B} {read : List B → ℕ → ℕ → Except E (O × ℕ)} {out : I → O}

/-- **Reading what is left of a buffer.**  From the first `m` bytes of the buffer the reader gets
the `k` records that lie there as a whole, and an error unless these are all. -/
theorem Reads.readAll_take (h : Reads enc read out) {m : ℕ} (xs : List I) :
    ∀ (buf : List B) (i : ℕ), buf.length ≤ m →
      ∃ k ≤ xs.length, (∀ j ≤ xs.length, (written enc buf (xs.take j)).length ≤ m ↔ j ≤ k) ∧
        (readAll (read ((written enc buf xs).take m)) xs.length i buf.length).1 =
          (xs.take k).map out ∧
        ((readAll (read ((written enc buf xs).take m)) xs.length i buf.length).2 = none ↔
          k = xs.length) := by
  induction xs with
  | nil =>
      intro buf i hbuf
      refine ⟨0, le_rfl, fun j _ => ?_, rfl, by simp [readAll]⟩
      rw [List.take_nil, written_nil]
      exact iff_of_true hbuf (by simp_all)
  | cons x xs ih =>
      intro buf i hbuf
      obtain ⟨suf, hsuf⟩ := prefix_written enc (buf ++ enc buf.length x) xs
      have hlength : (buf ++ enc buf.length x).length = buf.length + (enc buf.length x).length :=
        List.length_append
      rw [written_cons, List.length_cons]
      by_cases hfits : (buf ++ enc buf.length x).length ≤ m
      · -- the record lies in the buffer as a whole, and the reader goes on behind it
        obtain ⟨k, hk, hiff, hread, herror⟩ := ih (buf ++ enc buf.length x) (i + 1) hfits
        have hdata : (written enc (buf ++ enc buf.length x) xs).take m =
            buf ++ (enc buf.length x ++ suf.take (m - (buf ++ enc buf.length x).length)) := by
          rw [← hsuf, List.take_append, List.take_of_length_le hfits, List.append_assoc]
        have hwhole := h.whole i buf x (suf.take (m - (buf ++ enc buf.length x).length))
        rw [← hdata, ← hlength] at hwhole
        rw [readAll_succ_ok hwhole]
        refine ⟨k + 1, Nat.succ_le_succ hk, fun j hj => ?_, ?_, ?_⟩
        · cases j with
          | zero => exact iff_of_true (by simpa using hbuf) (Nat.zero_le _)
          | succ j =>
              rw [List.take_succ_cons, written_cons, hiff j (Nat.le_of_succ_le_succ hj)]
              exact Nat.succ_le_succ_iff.symm
        · rw [hread, List.take_succ_cons, List.map_cons]
        · rw [herror]
          exact Nat.succ_inj.symm
      · -- the record is cut off
        rw [not_le] at hfits
        have hdata : (written enc (buf ++ enc buf.length x) xs).take m =
            buf ++ (enc buf.length x).take (m - buf.length) := by
          rw [← hsuf, List.take_append_of_le_length hfits.le, List.take_append,
            List.take_of_length_le hbuf]
        obtain ⟨e, he⟩ := h.cut i buf x (m - buf.length) (by omega)
        rw [← hdata] at he
        rw [readAll_succ_error he]
        refine ⟨0, Nat.zero_le _, fun j _ => ?_, rfl, by simp⟩
        cases j with
        | zero => exact iff_of_true (by simpa using hbuf) le_rfl
        | succ j =>
            rw [List.take_succ_cons, written_cons]
            have hle := length_le_written enc (buf ++ enc buf.length x) (xs.take j)
            exact iff_of_false (by omega) (by omega)

end Take

end Appending
