/-
# Ballots and majorities

A ledger records, for the voters of a finite set, whom each of them voted for in each term;
that a voter names at most one candidate in a term is part of the ledger, so a ledger with
a double vote cannot be built.  Two candidates that a majority of the voters named in one
term are the same, because two majorities share a voter.  Ledgers are ordered by
inclusion, and an election is never undone when votes are added.

What a single voter has to remember is a slip: the term it is in, and its choice there.  Slips
are ordered, and a voter whose slip only moves up has never taken a vote back.
-/
import Mathlib.Data.Fintype.Card
import Mathlib.Tactic

namespace Ballot

variable {V T C : Type*}

/-- The votes cast by the voters `V` for candidates `C`, at most one for each term of `T`. -/
structure Ledger (V T C : Type*) where
  /-- Voter `v` voted for candidate `c` in term `t`. -/
  cast : V → T → C → Prop
  unique : ∀ {v t c c'}, cast v t c → cast v t c' → c = c'

/-- One ledger extends another when it holds all of its votes. -/
instance : LE (Ledger V T C) where
  le L L' := ∀ v t c, L.cast v t c → L'.cast v t c

/-- More than half of the voters of a finite set are in `W`. -/
def Majority [Fintype V] (W : Finset V) : Prop :=
  Fintype.card V < 2 * W.card

/-- Two majorities share a voter. -/
theorem Majority.exists_common [Fintype V] [DecidableEq V] {W W' : Finset V}
    (h : Majority W) (h' : Majority W') : ∃ v, v ∈ W ∧ v ∈ W' := by
  have hlt : Fintype.card V < W.card + W'.card := by
    unfold Majority at h h'
    omega
  obtain ⟨v, hv⟩ := Finset.inter_nonempty_of_card_lt_card_add_card
    (Finset.subset_univ W) (Finset.subset_univ W') (by simpa using hlt)
  exact ⟨v, (Finset.mem_inter.1 hv).1, (Finset.mem_inter.1 hv).2⟩

lemma Majority.mono [Fintype V] {W W' : Finset V} (hW : W ⊆ W') (h : Majority W) :
    Majority W' :=
  lt_of_lt_of_le h (Nat.mul_le_mul_left 2 (Finset.card_le_card hW))

namespace Ledger

/-- Candidate `c` is elected in term `t`: a majority of the voters named it. -/
def Elected [Fintype V] (L : Ledger V T C) (t : T) (c : C) : Prop :=
  ∃ W : Finset V, Majority W ∧ ∀ v ∈ W, L.cast v t c

/-- An election survives the votes that are cast later. -/
lemma Elected.mono [Fintype V] {L L' : Ledger V T C} (hle : L ≤ L') {t : T} {c : C}
    (h : L.Elected t c) : L'.Elected t c := by
  obtain ⟨W, hW, hcast⟩ := h
  exact ⟨W, hW, fun v hv => hle v t c (hcast v hv)⟩

/-- **A term elects at most one candidate.** -/
theorem Elected.unique [Fintype V] {L : Ledger V T C} {t : T} {c c' : C}
    (h : L.Elected t c) (h' : L.Elected t c') : c = c' := by
  classical
  obtain ⟨W, hW, hcast⟩ := h
  obtain ⟨W', hW', hcast'⟩ := h'
  obtain ⟨v, hv, hv'⟩ := hW.exists_common hW'
  exact L.unique (hcast v hv) (hcast' v hv')

/-- Two elections of one term agree, even when the second is read off a later ledger. -/
theorem Elected.unique_of_le [Fintype V] {L L' : Ledger V T C} (hle : L ≤ L') {t : T}
    {c c' : C} (h : L.Elected t c) (h' : L'.Elected t c') : c = c' :=
  (h.mono hle).unique h'

end Ledger

/-- The term a voter is in, and its choice in that term. -/
structure Slip (T C : Type*) where
  term : T
  choice : Option C
deriving DecidableEq

namespace Slip

/-- A slip moves up by a choice where there was none, and by entering a later term. -/
instance [Preorder T] : LE (Slip T C) where
  le b b' := b.term < b'.term ∨ b.term = b'.term ∧ ∀ c, b.choice = some c → b'.choice = some c

lemma le_iff [Preorder T] {b b' : Slip T C} :
    b ≤ b' ↔ b.term < b'.term ∨ b.term = b'.term ∧ ∀ c, b.choice = some c → b'.choice = some c :=
  Iff.rfl

instance [Preorder T] : Preorder (Slip T C) where
  le_refl b := Or.inr ⟨rfl, fun _ h => h⟩
  le_trans := by
    rintro b₁ b₂ b₃ (h₁ | ⟨ht₁, hc₁⟩) (h₂ | ⟨ht₂, hc₂⟩)
    · exact Or.inl (h₁.trans h₂)
    · exact Or.inl (ht₂ ▸ h₁)
    · exact Or.inl (ht₁ ▸ h₂)
    · exact Or.inr ⟨ht₁.trans ht₂, fun c h => hc₂ c (hc₁ c h)⟩

end Slip

end Ballot
