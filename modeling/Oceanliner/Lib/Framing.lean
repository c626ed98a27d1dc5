/-
# Readers of length-prefixed messages

A reader gets a stream of bytes in chunks, as a socket hands it over.  After each chunk it
computes from what it has received how long the message should be: when that is more, it reads
on; when it is exactly what it has, it delivers the message and starts afresh; when it is less
the reader fails.  How long a message should be, `need n received`, may depend on the number
`n` of messages delivered before.

Such a reader delivers messages exactly when the chunks fall into groups, one for each message,
each of them a *frame*: the last chunk of a group, and no earlier one, completes the message
(`run_eq_some_iff`).
-/
import Oceanliner.Lib.Transition

open Transition

namespace Framing

variable {B : Type*}

/-- What one call of `read` returns: at least one byte. -/
abbrev Chunk (B : Type*) := {c : List B // c ≠ []}

/-- The bytes of a sequence of chunks. -/
def join (cs : List (Chunk B)) : List B := (cs.map Subtype.val).flatten

@[simp] lemma join_nil : join ([] : List (Chunk B)) = [] := rfl

@[simp] lemma join_cons (c : Chunk B) (cs : List (Chunk B)) : join (c :: cs) = c.1 ++ join cs := by
  simp [join]

/-- The bytes of the unfinished message, and the messages delivered so far. -/
structure Reader (B : Type*) where
  received : List B
  delivered : List (List B)

section

variable (need : ℕ → List B → ℕ) (capacity : ℕ)

/-- One chunk.  A chunk that does not fit into the buffer cannot be read. -/
def step (r : Reader B) (c : Chunk B) : Option (Reader B) :=
  let received := r.received ++ c.1
  if received.length > capacity then none
  else if need r.delivered.length received > received.length then
    some { r with received := received }
  else if need r.delivered.length received = received.length then
    some ⟨[], r.delivered ++ [received]⟩
  else none

/-- The chunks complete the message number `n`, of which `received` is there already, with the
last of them and not before. -/
def Completes (n : ℕ) : List B → List (Chunk B) → Prop
  | _, [] => False
  | received, c :: cs =>
      (received ++ c.1).length ≤ capacity ∧
        ((cs = [] ∧ need n (received ++ c.1) = (received ++ c.1).length) ∨
          ((received ++ c.1).length < need n (received ++ c.1) ∧
            Completes n (received ++ c.1) cs))

/-- The chunks are a frame for the message number `n`. -/
def Frame (n : ℕ) (g : List (Chunk B)) : Prop := Completes need capacity n [] g

end

variable {need : ℕ → List B → ℕ} {capacity : ℕ}

/-! ### One message -/

lemma Completes.ne_nil {n : ℕ} {received : List B} {g : List (Chunk B)}
    (h : Completes need capacity n received g) : g ≠ [] := by
  rintro rfl
  exact h

/-- In the words of prefixes: the whole message has the length it should have, and is too
short after every proper prefix of its chunks. -/
lemma completes_iff (n : ℕ) (received : List B) (g : List (Chunk B)) :
    Completes need capacity n received g ↔ g ≠ [] ∧ (received ++ join g).length ≤ capacity ∧
      need n (received ++ join g) = (received ++ join g).length ∧
      ∀ p q, g = p ++ q → p ≠ [] → q ≠ [] →
        (received ++ join p).length < need n (received ++ join p) := by
  induction g generalizing received with
  | nil => simp [Completes]
  | cons c cs ih =>
      rw [Completes, ih]
      simp only [join_cons, ← List.append_assoc]
      constructor
      · rintro ⟨hcap, ⟨rfl, hneed⟩ | ⟨hlt, -, hcap', hneed, hinner⟩⟩
        · refine ⟨by simp, by simpa using hcap, by simpa using hneed, ?_⟩
          rintro p q hpq hp hq
          obtain ⟨d, p, rfl⟩ := List.exists_cons_of_ne_nil hp
          simp only [List.cons_append, List.cons.injEq, List.nil_eq, List.append_eq_nil_iff] at hpq
          exact absurd hpq.2.2 hq
        · refine ⟨by simp, hcap', hneed, ?_⟩
          rintro p q hpq hp hq
          obtain ⟨d, p, rfl⟩ := List.exists_cons_of_ne_nil hp
          simp only [List.cons_append, List.cons.injEq] at hpq
          obtain ⟨rfl, rfl⟩ := hpq
          by_cases hp' : p = []
          · subst hp'
            simpa using hlt
          · simpa using hinner p q rfl hp' hq
      · rintro ⟨-, hcap, hneed, hinner⟩
        constructor
        · simp only [List.length_append] at hcap ⊢
          omega
        · by_cases hcs : cs = []
          · subst hcs
            exact Or.inl ⟨rfl, by simpa using hneed⟩
          · refine Or.inr ⟨?_, hcs, hcap, hneed, ?_⟩
            · simpa using hinner [c] cs rfl (by simp) hcs
            · rintro p q rfl hp hq
              simpa using hinner (c :: p) q rfl (by simp) hq

/-- A group of chunks that completes a message is read as that message. -/
lemma Completes.run {received : List B} {delivered : List (List B)} {g : List (Chunk B)}
    (h : Completes need capacity delivered.length received g) :
    run (step need capacity) ⟨received, delivered⟩ g =
      some ⟨[], delivered ++ [received ++ join g]⟩ := by
  induction g generalizing received with
  | nil => exact h.elim
  | cons c cs ih =>
      obtain ⟨hcap, ⟨rfl, hneed⟩ | ⟨hlt, hrest⟩⟩ := h
      · rw [run_cons_eq_some]
        refine ⟨_, ?_, run_nil _⟩
        simp only [step, join_cons, join_nil, List.append_nil]
        rw [if_neg (by omega), if_neg (by omega), if_pos hneed]
      · rw [run_cons_eq_some]
        refine ⟨⟨received ++ c.1, delivered⟩, ?_, ?_⟩
        · simp only [step]
          rw [if_neg (by omega), if_pos hlt]
        · rw [ih hrest, join_cons, List.append_assoc]

/-- A reader that stands inside a message, or has chunks to read, and ends between two
messages, has completed the message. -/
lemma completes_of_run {received : List B} {delivered ds : List (List B)}
    {cs : List (Chunk B)} (h : run (step need capacity) ⟨received, delivered⟩ cs = some ⟨[], ds⟩)
    (hne : cs ≠ []) : ∃ g rest, cs = g ++ rest ∧
      Completes need capacity delivered.length received g ∧
      run (step need capacity) ⟨[], delivered ++ [received ++ join g]⟩ rest = some ⟨[], ds⟩ := by
  induction cs generalizing received with
  | nil => exact absurd rfl hne
  | cons c cs ih =>
      obtain ⟨r, hstep, hrun⟩ := run_cons_eq_some.1 h
      simp only [step] at hstep
      split at hstep
      · cases hstep
      · rename_i hcap
        split at hstep
        · rename_i hlt
          obtain rfl := Option.some.inj hstep
          have hcs : cs ≠ [] := by
            rintro rfl
            -- the reader would end inside a message
            have hr := congrArg Reader.received (Option.some.inj hrun)
            simp only [List.append_eq_nil_iff] at hr
            exact c.2 hr.2
          obtain ⟨g, rest, rfl, hg, hrest⟩ := ih hrun hcs
          refine ⟨c :: g, rest, rfl, ⟨not_lt.1 hcap, Or.inr ⟨hlt, hg⟩⟩, ?_⟩
          rw [join_cons, ← List.append_assoc]
          exact hrest
        · split at hstep
          · rename_i hneed
            obtain rfl := Option.some.inj hstep
            refine ⟨[c], cs, rfl, ⟨not_lt.1 hcap, Or.inl ⟨rfl, hneed⟩⟩, ?_⟩
            simpa using hrun
          · cases hstep

/-! ### Streams -/

/-- The groups are frames for the messages `n`, `n + 1`, … -/
def Frames (need : ℕ → List B → ℕ) (capacity : ℕ) : ℕ → List (List (Chunk B)) → Prop
  | _, [] => True
  | n, g :: gs => Frame need capacity n g ∧ Frames need capacity (n + 1) gs

lemma frames_iff (n : ℕ) (gs : List (List (Chunk B))) :
    Frames need capacity n gs ↔ ∀ k g, gs[k]? = some g → Frame need capacity (n + k) g := by
  induction gs generalizing n with
  | nil => simp [Frames]
  | cons g gs ih =>
      rw [Frames, ih]
      constructor
      · rintro ⟨hg, hgs⟩ k g' hk
        cases k with
        | zero =>
            obtain rfl : g = g' := by simpa using hk
            exact hg
        | succ k =>
            have h := hgs k g' (by simpa using hk)
            rwa [Nat.add_assoc, Nat.add_comm 1 k] at h
      · intro h
        refine ⟨h 0 g rfl, fun k g' hk => ?_⟩
        have h' := h (k + 1) g' (by simpa using hk)
        rwa [Nat.add_comm k 1, ← Nat.add_assoc] at h'

lemma Frames.run {delivered : List (List B)} {gs : List (List (Chunk B))}
    (h : Frames need capacity delivered.length gs) :
    run (step need capacity) ⟨[], delivered⟩ gs.flatten =
      some ⟨[], delivered ++ gs.map join⟩ := by
  induction gs generalizing delivered with
  | nil => simp
  | cons g gs ih =>
      obtain ⟨hg, hgs⟩ := h
      have hlen : (delivered ++ [join g]).length = delivered.length + 1 := by simp
      rw [← hlen] at hgs
      rw [List.flatten_cons, run_append_eq_some]
      refine ⟨_, hg.run, ?_⟩
      rw [List.nil_append, ih hgs, List.map_cons, List.append_assoc]
      rfl

lemma frames_of_run {delivered ds : List (List B)} (cs : List (Chunk B))
    (h : run (step need capacity) ⟨[], delivered⟩ cs = some ⟨[], ds⟩) :
    ∃ gs : List (List (Chunk B)), gs.flatten = cs ∧ ds = delivered ++ gs.map join ∧
      Frames need capacity delivered.length gs := by
  -- every message takes at least one chunk off the list
  induction hk : cs.length using Nat.strong_induction_on generalizing cs delivered with
  | _ k ih =>
      by_cases hne : cs = []
      · subst hne
        refine ⟨[], rfl, ?_, trivial⟩
        simpa using (congrArg Reader.delivered (Option.some.inj h)).symm
      · obtain ⟨g, rest, rfl, hg, hrest⟩ := completes_of_run h hne
        have hpos : 0 < g.length := List.length_pos_of_ne_nil hg.ne_nil
        rw [List.length_append] at hk
        obtain ⟨gs, rfl, rfl, hgs⟩ := ih rest.length (by omega) rest hrest rfl
        refine ⟨g :: gs, rfl, by simp, hg, ?_⟩
        simpa using hgs

/-- **What a reader delivers.**  A reader that starts between two messages delivers exactly
`ms`, and ends between two messages, when and only when the chunks fall into frames for `ms`. -/
theorem run_eq_some_iff {delivered ms : List (List B)} {cs : List (Chunk B)} :
    run (step need capacity) ⟨[], delivered⟩ cs = some ⟨[], delivered ++ ms⟩ ↔
      ∃ gs : List (List (Chunk B)), gs.flatten = cs ∧ gs.map join = ms ∧
        Frames need capacity delivered.length gs := by
  constructor
  · intro h
    obtain ⟨gs, hflat, hds, hgs⟩ := frames_of_run cs h
    exact ⟨gs, hflat, (List.append_cancel_left hds).symm, hgs⟩
  · rintro ⟨gs, rfl, rfl, hgs⟩
    exact hgs.run

end Framing
