/-
# Runs of a partial step function

A transition system is given by a step function `step : S → A → Option S`: an action is
enabled in a state when the step is defined there.  A run is a list of actions, each
enabled in the state the earlier ones lead to.  This file collects the induction rules for
runs: invariants, invariants of the runs whose actions all meet a guard, relations between two
states of one run, runs that come to rest, and simulations of what a run shows.
-/
import Mathlib.Tactic

namespace Transition

variable {S A : Type*} (step : S → A → Option S)

/-- The state in which a list of actions ends, if every one of them is enabled. -/
def run : S → List A → Option S
  | s, [] => some s
  | s, a :: as => (step s a).bind fun s' => run s' as

/-- Every action of the list meets `G` in the state in which it is taken. -/
def Guarded (G : S → A → Prop) : S → List A → Prop
  | _, [] => True
  | s, a :: as => G s a ∧ ∀ s', step s a = some s' → Guarded G s' as

/-- Every step of the list that can be taken stays in the relation `R`. -/
def EveryStep (R : S → S → Prop) : S → List A → Prop
  | _, [] => True
  | s, a :: as => ∀ s', step s a = some s' → R s s' ∧ EveryStep R s' as

variable {step} {G : S → A → Prop}

@[simp] lemma run_nil (s : S) : run step s [] = some s := rfl

lemma run_cons_eq_some {s s' : S} {a : A} {as : List A} :
    run step s (a :: as) = some s' ↔ ∃ s₁, step s a = some s₁ ∧ run step s₁ as = some s' := by
  simp [run, Option.bind_eq_some_iff]

lemma run_singleton {s s' : S} {a : A} (h : step s a = some s') : run step s [a] = some s' :=
  run_cons_eq_some.2 ⟨s', h, rfl⟩

lemma run_append_eq_some {s s' : S} {as bs : List A} :
    run step s (as ++ bs) = some s' ↔
      ∃ s₁, run step s as = some s₁ ∧ run step s₁ bs = some s' := by
  induction as generalizing s with
  | nil => simp
  | cons a as ih =>
      rw [List.cons_append, run_cons_eq_some]
      simp only [run_cons_eq_some, ih]
      constructor
      · rintro ⟨s₂, h₂, s₁, h₁, h⟩
        exact ⟨s₁, ⟨s₂, h₂, h₁⟩, h⟩
      · rintro ⟨s₁, ⟨s₂, h₂, h₁⟩, h⟩
        exact ⟨s₂, h₂, s₁, h₁, h⟩

lemma guarded_cons {s s₁ : S} {a : A} {as : List A} (h : step s a = some s₁) :
    Guarded step G s (a :: as) ↔ G s a ∧ Guarded step G s₁ as := by
  simp [Guarded, h]

lemma everyStep_cons {R : S → S → Prop} {s s₁ : S} {a : A} {as : List A}
    (h : step s a = some s₁) :
    EveryStep step R s (a :: as) ↔ R s s₁ ∧ EveryStep step R s₁ as := by
  simp [EveryStep, h]

variable (step) in
/-- Some list of actions leads from one state to another. -/
def Reaches (s s' : S) : Prop := ∃ as, run step s as = some s'

lemma Reaches.refl (s : S) : Reaches step s s := ⟨[], rfl⟩

lemma Reaches.of_step {s s' : S} {a : A} (h : step s a = some s') : Reaches step s s' :=
  ⟨[a], run_cons_eq_some.2 ⟨s', h, rfl⟩⟩

lemma Reaches.trans {s₁ s₂ s₃ : S} (h : Reaches step s₁ s₂) (h' : Reaches step s₂ s₃) :
    Reaches step s₁ s₃ := by
  obtain ⟨as, has⟩ := h
  obtain ⟨bs, hbs⟩ := h'
  exact ⟨as ++ bs, run_append_eq_some.2 ⟨s₂, has, hbs⟩⟩

/-- A guard that can be decided in every state can be decided along a list of actions. -/
instance Guarded.decidable [∀ s a, Decidable (G s a)] :
    ∀ (s : S) (as : List A), Decidable (Guarded step G s as)
  | _, [] => isTrue trivial
  | s, a :: as =>
      match h : step s a with
      | none => decidable_of_iff (G s a) (by simp [Guarded, h])
      | some s' =>
          have := Guarded.decidable s' as
          decidable_of_iff _ (guarded_cons h).symm

lemma Guarded.append_left {s : S} {as bs : List A} (h : Guarded step G s (as ++ bs)) :
    Guarded step G s as := by
  induction as generalizing s with
  | nil => trivial
  | cons a as ih => exact ⟨h.1, fun s' hs' => ih (h.2 s' hs')⟩

lemma Guarded.append_right {s s' : S} {as bs : List A} (h : Guarded step G s (as ++ bs))
    (hrun : run step s as = some s') : Guarded step G s' bs := by
  induction as generalizing s with
  | nil =>
      obtain rfl : s = s' := by simpa using hrun
      exact h
  | cons a as ih =>
      obtain ⟨s₁, hs₁, hrest⟩ := run_cons_eq_some.1 hrun
      exact ih (h.2 s₁ hs₁) hrest

lemma Guarded.and {H : S → A → Prop} {s : S} {as : List A} (hG : Guarded step G s as)
    (hH : Guarded step H s as) : Guarded step (fun s a => G s a ∧ H s a) s as := by
  induction as generalizing s with
  | nil => trivial
  | cons a as ih => exact ⟨⟨hG.1, hH.1⟩, fun s' hs' => ih (hG.2 s' hs') (hH.2 s' hs')⟩

/-- A condition on the actions alone is a guard. -/
lemma Guarded.of_forall {P : A → Prop} {s : S} {as : List A} (hP : ∀ a ∈ as, P a) :
    Guarded step (fun _ a => P a) s as := by
  induction as generalizing s with
  | nil => trivial
  | cons a as ih =>
      exact ⟨hP a List.mem_cons_self, fun s' _ => ih fun b hb => hP b (List.mem_cons_of_mem a hb)⟩

/-- A condition on the actions alone can be added to a guard. -/
lemma Guarded.and_forall {P : A → Prop} {s : S} {as : List A} (h : Guarded step G s as)
    (hP : ∀ a ∈ as, P a) : Guarded step (fun s a => G s a ∧ P a) s as :=
  h.and (Guarded.of_forall hP)

/-- **The invariant rule for guarded runs.**  What every guarded step preserves holds at the
end of every guarded run. -/
theorem Guarded.invariant {I : S → Prop} {s s' : S} {as : List A}
    (hstep : ∀ s a s', I s → G s a → step s a = some s' → I s')
    (hG : Guarded step G s as) (hinit : I s) (hrun : run step s as = some s') : I s' := by
  induction as generalizing s with
  | nil =>
      obtain rfl : s = s' := by simpa using hrun
      exact hinit
  | cons a as ih =>
      obtain ⟨s₁, hs₁, hrest⟩ := run_cons_eq_some.1 hrun
      exact ih (hG.2 s₁ hs₁) (hstep s a s₁ hinit hG.1 hs₁) hrest

/-- **The invariant rule.**  What every step preserves holds at the end of every run. -/
theorem run_invariant {I : S → Prop} {s s' : S} {as : List A}
    (hstep : ∀ s a s', I s → step s a = some s' → I s') (hinit : I s)
    (hrun : run step s as = some s') : I s' := by
  induction as generalizing s with
  | nil =>
      obtain rfl : s = s' := by simpa using hrun
      exact hinit
  | cons a as ih =>
      obtain ⟨s₁, hs₁, hrest⟩ := run_cons_eq_some.1 hrun
      exact ih (hstep s a s₁ hinit hs₁) hrest

/-- When a property survives exactly the steps that meet a guard, it survives exactly the runs
that meet the guard throughout. -/
theorem run_iff_guarded {I P : S → Prop}
    (hstep : ∀ s a s', I s → step s a = some s' → I s' ∧ (P s' ↔ P s ∧ G s a)) {s s' : S}
    {as : List A} (hinit : I s) (hrun : run step s as = some s') :
    P s' ↔ P s ∧ Guarded step G s as := by
  induction as generalizing s with
  | nil =>
      obtain rfl : s = s' := by simpa using hrun
      exact (and_iff_left trivial).symm
  | cons a as ih =>
      obtain ⟨s₁, hs₁, hrest⟩ := run_cons_eq_some.1 hrun
      obtain ⟨hinv, hiff⟩ := hstep s a s₁ hinit hs₁
      rw [ih hinv hrest, hiff, guarded_cons hs₁, and_assoc]

/-- When the invariant enables every action, every list of actions is a run. -/
theorem run_total {I : S → Prop} (hstep : ∀ s a, I s → ∃ s', step s a = some s' ∧ I s')
    {s : S} (hinit : I s) (as : List A) : ∃ s', run step s as = some s' ∧ I s' := by
  induction as generalizing s with
  | nil => exact ⟨s, rfl, hinit⟩
  | cons a as ih =>
      obtain ⟨s₁, hs₁, hinv⟩ := hstep s a hinit
      obtain ⟨s', hs', hinv'⟩ := ih hinv
      exact ⟨s', run_cons_eq_some.2 ⟨s₁, hs₁, hs'⟩, hinv'⟩

/-- A reflexive and transitive relation that every guarded step from a state of the
invariant stays in relates the two ends of a guarded run. -/
theorem Guarded.relation {I : S → Prop} {R : S → S → Prop} {s s' : S} {as : List A}
    (hrefl : ∀ s, R s s) (htrans : ∀ {s₁ s₂ s₃}, R s₁ s₂ → R s₂ s₃ → R s₁ s₃)
    (hstep : ∀ s a s', I s → G s a → step s a = some s' → I s' ∧ R s s')
    (hG : Guarded step G s as) (hinit : I s) (hrun : run step s as = some s') : R s s' := by
  induction as generalizing s with
  | nil =>
      obtain rfl : s = s' := by simpa using hrun
      exact hrefl s
  | cons a as ih =>
      obtain ⟨s₁, hs₁, hrest⟩ := run_cons_eq_some.1 hrun
      obtain ⟨hinv, hR⟩ := hstep s a s₁ hinit hG.1 hs₁
      exact htrans hR (ih (hG.2 s₁ hs₁) hinv hrest)

/-- When the steps of a domain stay in a relation exactly under a guard, the runs of the domain
stay in it throughout exactly when they meet the guard throughout. -/
theorem everyStep_iff_guarded {D : S → A → Prop} {R : S → S → Prop}
    (hstep : ∀ s a s', D s a → step s a = some s' → (R s s' ↔ G s a)) {s s' : S} {as : List A}
    (hD : Guarded step D s as) (hrun : run step s as = some s') :
    EveryStep step R s as ↔ Guarded step G s as := by
  induction as generalizing s with
  | nil => exact Iff.rfl
  | cons a as ih =>
      obtain ⟨s₁, hs₁, hrest⟩ := run_cons_eq_some.1 hrun
      rw [everyStep_cons hs₁, guarded_cons hs₁, hstep s a s₁ hD.1 hs₁, ih (hD.2 s₁ hs₁) hrest]

lemma EveryStep.mono {R R' : S → S → Prop} (hR : ∀ s s', R s s' → R' s s') {s : S} {as : List A}
    (h : EveryStep step R s as) : EveryStep step R' s as := by
  induction as generalizing s with
  | nil => trivial
  | cons a as ih => exact fun s' hs' => ⟨hR s s' (h s' hs').1, ih (h s' hs').2⟩

/-- When the invariant enables every action that meets the guard, a guarded list of actions is a
run. -/
theorem Guarded.total {I : S → Prop}
    (hstep : ∀ s a, I s → G s a → ∃ s', step s a = some s' ∧ I s') {s : S} {as : List A}
    (hG : Guarded step G s as) (hinit : I s) : ∃ s', run step s as = some s' ∧ I s' := by
  induction as generalizing s with
  | nil => exact ⟨s, rfl, hinit⟩
  | cons a as ih =>
      obtain ⟨s₁, hs₁, hinv⟩ := hstep s a hinit hG.1
      obtain ⟨s', hs', hinv'⟩ := ih (hG.2 s₁ hs₁) hinv
      exact ⟨s', run_cons_eq_some.2 ⟨s₁, hs₁, hs'⟩, hinv'⟩

/-- When every step that can be taken meets a guard, so does every run. -/
theorem Guarded.of_run {I : S → Prop}
    (hstep : ∀ s a s', I s → step s a = some s' → I s' ∧ G s a) {s s' : S} {as : List A}
    (hinit : I s) (hrun : run step s as = some s') : Guarded step G s as := by
  induction as generalizing s with
  | nil => trivial
  | cons a as ih =>
      obtain ⟨s₁, hs₁, hrest⟩ := run_cons_eq_some.1 hrun
      obtain ⟨hinv, hG⟩ := hstep s a s₁ hinit hs₁
      exact (guarded_cons hs₁).2 ⟨hG, ih hinv hrest⟩

/-- What every guarded step preserves holds in every state of a guarded run. -/
theorem Guarded.always {P : S → Prop} {s : S} {as : List A}
    (hstep : ∀ s a s', P s → G s a → step s a = some s' → P s') (hG : Guarded step G s as)
    (hinit : P s) : EveryStep step (fun _ s' => P s') s as := by
  induction as generalizing s with
  | nil => trivial
  | cons a as ih =>
      intro s₁ hs₁
      have hP := hstep s a s₁ hinit hG.1 hs₁
      exact ⟨hP, ih (hG.2 s₁ hs₁) hP⟩

/-- When a step whose action is in a domain keeps a property only if it meets a guard, a run of such
actions in which the property always holds meets the guard throughout. -/
theorem Guarded.of_always {D : A → Prop} {P : S → Prop} {s s' : S} {as : List A}
    (hstep : ∀ s a s', P s → D a → step s a = some s' → P s' → G s a) (hinit : P s)
    (hD : ∀ a ∈ as, D a) (hrun : run step s as = some s')
    (h : EveryStep step (fun _ s' => P s') s as) : Guarded step G s as := by
  induction as generalizing s with
  | nil => trivial
  | cons a as ih =>
      obtain ⟨s₁, hs₁, hrest⟩ := run_cons_eq_some.1 hrun
      obtain ⟨hP, hlater⟩ := (everyStep_cons hs₁).1 h
      obtain ⟨ha, has⟩ := List.forall_mem_cons.1 hD
      exact (guarded_cons hs₁).2 ⟨hstep s a s₁ hinit ha hs₁ hP, ih hP has hrest hlater⟩

/-- When, from the states of an invariant, a property survives exactly the steps that meet a guard,
it holds in every state of a run exactly when the run meets the guard throughout. -/
theorem always_iff_guarded {I P : S → Prop}
    (hinv : ∀ s a s', I s → step s a = some s' → I s')
    (hstep : ∀ s a s', I s → P s → step s a = some s' → (P s' ↔ G s a)) {s s' : S}
    {as : List A} (hI : I s) (hP : P s) (hrun : run step s as = some s') :
    EveryStep step (fun _ s' => P s') s as ↔ Guarded step G s as := by
  induction as generalizing s with
  | nil => exact Iff.rfl
  | cons a as ih =>
      obtain ⟨s₁, hs₁, hrest⟩ := run_cons_eq_some.1 hrun
      have hiff := hstep s a s₁ hI hP hs₁
      rw [everyStep_cons hs₁, guarded_cons hs₁, ← hiff]
      exact and_congr_right fun hP₁ => ih (hinv s a s₁ hI hs₁) hP₁ hrest

/-- **The lockstep rule.**  When related states take related steps, or neither of them takes one,
they have related runs, or neither of them has one. -/
theorem run_lockstep {S' A' : Type*} {step' : S' → A' → Option S'} {R : S → S' → Prop}
    (f : A → A') (hstep : ∀ s σ a, R s σ → Option.Rel R (step s a) (step' σ (f a))) {s : S} {σ : S'}
    (h : R s σ) (as : List A) : Option.Rel R (run step s as) (run step' σ (as.map f)) := by
  induction as generalizing s σ with
  | nil => exact .some h
  | cons a as ih =>
      rw [List.map_cons, run, run]
      have ha := hstep s σ a h
      revert ha
      generalize step s a = next, step' σ (f a) = next'
      rintro (hnext | _)
      · exact ih hnext
      · exact .none

/-! ### Coming to rest -/

section Rest

variable {P : A → Prop} {work : S → ℕ}
  (hwork : ∀ s a s', P a → step s a = some s' → work s' < work s)

include hwork

/-- When every step takes away some of the work, a run is no longer than the work there is. -/
theorem run_length_le {s s' : S} {as : List A} (has : ∀ a ∈ as, P a)
    (hrun : run step s as = some s') : as.length + work s' ≤ work s := by
  induction as generalizing s with
  | nil =>
      obtain rfl : s = s' := by simpa using hrun
      exact (Nat.zero_add _).le
  | cons a as ih =>
      obtain ⟨s₁, hs₁, hrest⟩ := run_cons_eq_some.1 hrun
      obtain ⟨ha, has⟩ := List.forall_mem_cons.1 has
      have hless := hwork s a s₁ ha hs₁
      have hle := ih has hrest
      rw [List.length_cons]
      omega

/-- So there is a run to a state in which no more steps are possible. -/
theorem exists_run_to_rest (s : S) :
    ∃ as s', (∀ a ∈ as, P a) ∧ run step s as = some s' ∧ ∀ a, P a → step s' a = none := by
  induction hn : work s using Nat.strong_induction_on generalizing s with
  | _ n ih =>
      by_cases hrest : ∀ a, P a → step s a = none
      · exact ⟨[], s, by rintro a ⟨⟩, rfl, hrest⟩
      · push Not at hrest
        obtain ⟨a, ha, hstep⟩ := hrest
        obtain ⟨s₁, hs₁⟩ := Option.ne_none_iff_exists'.1 hstep
        obtain ⟨as, s', has, hrun, hstuck⟩ := ih (work s₁) (hn ▸ hwork s a s₁ ha hs₁) s₁ rfl
        exact ⟨a :: as, s', List.forall_mem_cons.2 ⟨ha, has⟩, run_cons_eq_some.2 ⟨s₁, hs₁, hrun⟩,
          hstuck⟩

end Rest

/-! ### What a run shows -/

section Trace

variable {S' A' E : Type*}

variable (step) in
/-- What a list of actions shows, when an action shows `emit s a` in the state `s`. -/
def trace (emit : S → A → List E) : S → List A → List E
  | _, [] => []
  | s, a :: as => emit s a ++ ((step s a).map fun s' => trace emit s' as).getD []

variable {emit : S → A → List E}

@[simp] lemma trace_nil (s : S) : trace step emit s [] = [] := rfl

lemma trace_cons {s s₁ : S} {a : A} {as : List A} (h : step s a = some s₁) :
    trace step emit s (a :: as) = emit s a ++ trace step emit s₁ as := by
  rw [trace, h, Option.map_some, Option.getD_some]

lemma trace_singleton {s s₁ : S} {a : A} (h : step s a = some s₁) :
    trace step emit s [a] = emit s a := by
  rw [trace_cons h, trace_nil, List.append_nil]

lemma trace_append {s s₁ : S} {as bs : List A} (h : run step s as = some s₁) :
    trace step emit s (as ++ bs) = trace step emit s as ++ trace step emit s₁ bs := by
  induction as generalizing s with
  | nil =>
      obtain rfl : s = s₁ := by simpa using h
      rfl
  | cons a as ih =>
      obtain ⟨s₂, hs₂, hrest⟩ := run_cons_eq_some.1 h
      rw [List.cons_append, trace_cons hs₂, trace_cons hs₂, ih hrest, List.append_assoc]

variable (emit) in
/-- **The invariant rule for what has been shown.**  What every guarded step preserves, of the
state and of all that has been shown before it, holds at the end of every guarded run. -/
theorem Guarded.invariant_trace {I : S → List E → Prop} {s s' : S} {as : List A}
    (hstep : ∀ s shown a s', I s shown → G s a → step s a = some s' → I s' (shown ++ emit s a))
    (hG : Guarded step G s as) {shown : List E} (hinit : I s shown)
    (hrun : run step s as = some s') : I s' (shown ++ trace step emit s as) := by
  induction as generalizing s shown with
  | nil =>
      obtain rfl : s = s' := by simpa using hrun
      rw [trace_nil, List.append_nil]
      exact hinit
  | cons a as ih =>
      obtain ⟨s₁, hs₁, hrest⟩ := run_cons_eq_some.1 hrun
      rw [trace_cons hs₁, ← List.append_assoc]
      exact ih (hG.2 s₁ hs₁) (hstep s shown a s₁ hinit hG.1 hs₁) hrest

variable (emit) in
/-- The same for all runs. -/
theorem run_invariant_trace {I : S → List E → Prop} {s s' : S} {as : List A}
    (hstep : ∀ s shown a s', I s shown → step s a = some s' → I s' (shown ++ emit s a))
    {shown : List E} (hinit : I s shown) (hrun : run step s as = some s') :
    I s' (shown ++ trace step emit s as) :=
  (Guarded.of_forall fun _ _ => trivial).invariant_trace emit (G := fun _ _ => True)
    (fun s shown a s' hI _ hs' => hstep s shown a s' hI hs') hinit hrun

/-- **The simulation rule.**  When every guarded step can be followed by steps of another system
that show the same, so can every guarded run. -/
theorem Guarded.simulation {step' : S' → A' → Option S'} {emit' : S' → A' → List E}
    {Sim : S → S' → Prop}
    (hstep : ∀ s σ a s₁, Sim s σ → G s a → step s a = some s₁ →
      ∃ bs σ₁, run step' σ bs = some σ₁ ∧ trace step' emit' σ bs = emit s a ∧ Sim s₁ σ₁)
    {s s' : S} {σ : S'} {as : List A} (hG : Guarded step G s as) (hSim : Sim s σ)
    (hrun : run step s as = some s') :
    ∃ bs σ', run step' σ bs = some σ' ∧ trace step' emit' σ bs = trace step emit s as ∧
      Sim s' σ' := by
  induction as generalizing s σ with
  | nil =>
      obtain rfl : s = s' := by simpa using hrun
      exact ⟨[], σ, rfl, rfl, hSim⟩
  | cons a as ih =>
      obtain ⟨s₁, hs₁, hrest⟩ := run_cons_eq_some.1 hrun
      obtain ⟨bs, σ₁, hbs, hshown, hSim₁⟩ := hstep s σ a s₁ hSim hG.1 hs₁
      obtain ⟨bs', σ', hbs', hshown', hSim'⟩ := ih (hG.2 s₁ hs₁) hSim₁ hrest
      refine ⟨bs ++ bs', σ', run_append_eq_some.2 ⟨σ₁, hbs, hbs'⟩, ?_, hSim'⟩
      rw [trace_append hbs, hshown, hshown', trace_cons hs₁]

end Trace

end Transition
