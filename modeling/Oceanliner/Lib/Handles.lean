/-
# Handles of threads

A thread that has been created has to be waited for exactly once: to wait for it a second time, or
for a thread that has never been created, is undefined, and a handle that is written over before
that is lost.  Beside the state of the threads a `HandleState` records which handles are still to
be waited for, and a step that would use a handle wrongly is not defined (`handleStep`).

Code of the main thread that `Owns` its handles under a protocol takes every step that the threads
can take (`Owned.step`), and a worker whose handle is no longer there has ended.
-/
import Oceanliner.Lib.Locking

open Function

namespace Locking

variable {X D T : Type}

/-! ### Protocols that keep more -/

lemma Disciplined.and {G G' : D → D → Prop} {c : Code X D T} :
    ∀ {held : Bool}, Disciplined G held c → Disciplined G' held c →
      Disciplined (fun d d' => G d d' ∧ G' d d') held c := by
  induction c with
  | done => exact fun h _ => h
  | again => exact fun h _ => h
  | act f k ih => exact fun h h' => ⟨fun x d => ⟨h.1 x d, h'.1 x d⟩, ih h.2 h'.2⟩
  | test c f p q ihp ihq =>
      exact fun h h' =>
        ⟨fun x d hc => ⟨h.1 x d hc, h'.1 x d hc⟩, ihp h.2.1 h'.2.1, ihq h.2.2 h'.2.2⟩
  | lock k ih => exact fun h h' => ⟨h.1, ih h.2 h'.2⟩
  | unlock k ih => exact fun h h' => ⟨h.1, ih h.2 h'.2⟩
  | fork v k ih => exact fun h _ => h.elim
  | join v k ih => exact fun h _ => h.elim

/-- Two things that are true of the actions on the way to `k` are true at a time. -/
lemma Leads.and {F F' : D → D → Prop} {k c : Code X D T} {held : Bool} (h : Leads F k held c) :
    Leads F' k held c → Leads (fun d d' => F d d' ∧ F' d d') k held c := by
  induction h with
  | exit => exact fun _ => .exit
  | act hf hc ih =>
      intro h'
      cases h' with
      | exit => exact .exit
      | act hf' hc' => exact .act (fun x d => ⟨hf x d, hf' x d⟩) (ih hc')
  | test hf hp hq ihp ihq =>
      intro h'
      cases h' with
      | exit => exact .exit
      | test hf' hp' hq' => exact .test (fun x d hb => ⟨hf x d hb, hf' x d hb⟩) (ihp hp') (ihq hq')
  | lock hc ih =>
      intro h'
      cases h' with
      | exit => exact .exit
      | lock hc' => exact .lock (ih hc')
  | unlock hc ih =>
      intro h'
      cases h' with
      | unlock hc' => exact .unlock (ih hc')

/-- A worker whose code comes to the end of a pass changes the data as its code says. -/
lemma Leads.disciplined {F : D → D → Prop} {k c : Code X D T} {held : Bool} (h : Leads F k held c)
    (hk : Disciplined F false k) : Disciplined F held c := by
  induction h with
  | exit => exact hk
  | act hf _ ih => exact ⟨hf, ih⟩
  | test hf _ _ ihp ihq => exact ⟨hf, ihp, ihq⟩
  | lock _ ih => exact ⟨rfl, ih⟩
  | unlock _ ih => exact ⟨rfl, ih⟩

namespace Protocol

/-- A protocol whose workers also leave `g` of the data as it is. -/
def keeping (P : Protocol X D T) {α : Type} (g : D → α)
    (h : ∀ v, v ≠ P.main → Disciplined (fun d d' => g d' = g d) false (P.pass v)) :
    Protocol X D T :=
  { P.toThreads with
    G := fun v d d' => P.G v d d' ∧ g d' = g d
    R := fun d d' => P.R d d' ∧ g d' = g d
    I := P.I
    G_refl := fun v d => ⟨P.G_refl v d, rfl⟩
    R_refl := fun d => ⟨P.R_refl d, rfl⟩
    R_trans := fun h₁ h₂ => ⟨P.R_trans h₁.1 h₂.1, h₂.2.trans h₁.2⟩
    R_of_G := fun hv hG => ⟨P.R_of_G hv hG.1, hG.2⟩
    flag_eq := fun hR => P.flag_eq hR.1
    I_stable := fun hR => P.I_stable hR.1
    pass_disciplined := fun v hv => (P.pass_disciplined v hv).and (h v hv) }

end Protocol

/-! ### Steps with handles -/

/-- Threads, and the workers whose handles have still to be waited for. -/
structure HandleState (X D T : Type) where
  threads : State X D T
  live : T → Bool

section HandleStep

variable [DecidableEq T]

/-- A step of the thread `a.1`.  It is not defined where the thread creates a worker over a handle
that has still to be waited for, or waits with a handle that is not there. -/
def handleStep (P : Threads X D T) (w : HandleState X D T) (a : T × X) :
    Option (HandleState X D T) :=
  match w.threads.code a.1 with
  | .fork v _ =>
      if w.live v then none
      else (step P w.threads a).map fun s => ⟨s, update w.live v true⟩
  | .join v _ =>
      if w.live v then (step P w.threads a).map fun s => ⟨s, update w.live v false⟩
      else none
  | _ => (step P w.threads a).map fun s => ⟨s, w.live⟩

variable {P : Threads X D T} {w : HandleState X D T} {a : T × X} {s : State X D T}

lemma handleStep_fork {v : T} {k : Code X D T} (hc : w.threads.code a.1 = .fork v k)
    (hlive : w.live v = false) (h : step P w.threads a = some s) :
    handleStep P w a = some ⟨s, update w.live v true⟩ := by
  simp [handleStep, hc, hlive, h]

lemma handleStep_join {v : T} {k : Code X D T} (hc : w.threads.code a.1 = .join v k)
    (hlive : w.live v = true) (h : step P w.threads a = some s) :
    handleStep P w a = some ⟨s, update w.live v false⟩ := by
  simp [handleStep, hc, hlive, h]

lemma handleStep_of_step (hfork : ∀ v k, w.threads.code a.1 ≠ .fork v k)
    (hjoin : ∀ v k, w.threads.code a.1 ≠ .join v k) (h : step P w.threads a = some s) :
    handleStep P w a = some ⟨s, w.live⟩ := by
  rw [handleStep]
  split
  · rename_i v k hc
    exact absurd hc (hfork v k)
  · rename_i v k hc
    exact absurd hc (hjoin v k)
  · rw [h, Option.map_some]

lemma handleStep_eq_none (h : step P w.threads a = none) : handleStep P w a = none := by
  rw [handleStep]
  split
  · rw [h, Option.map_none, ite_self]
  · rw [h, Option.map_none, ite_self]
  · rw [h, Option.map_none]

end HandleStep

namespace Protocol

section Owns

variable [DecidableEq T] (P : Protocol X D T)

/-- The main thread, with the handles `live`, can run the code from data `d` on and ends with data
and handles in `Post`: it creates no worker over a handle, and has one for every worker it waits
for.  Until it ends the data are in `Mid`. -/
def Owns (Mid : D → Prop) (Post : D → (T → Bool) → Prop) : Code X D T → (T → Bool) → D → Prop
  | .done, live, d => ∀ d', P.R d d' → Post d' live
  | .again, _, _ => False
  | .act f k, live, d => ∀ d', P.R d d' → Mid d' ∧ ∀ x, Owns Mid Post k live (f x d')
  | .test c f p q, live, d => ∀ d', P.R d d' → Mid d' ∧ ∀ x,
      (c x d' = true → Owns Mid Post p live (f x d')) ∧
        (c x d' = false → Owns Mid Post q live d')
  | .lock k, live, d => ∀ d', P.R d d' → Mid d' ∧ Owns Mid Post k live d'
  | .unlock k, live, d => ∀ d', P.R d d' → Mid d' ∧ Owns Mid Post k live d'
  | .fork v k, live, d => v ≠ P.main ∧ live v = false ∧
      ∀ d', P.R d d' → Mid d' ∧ Owns Mid Post k (update live v true) d'
  | .join v k, live, d => live v = true ∧
      ∀ d', P.R d d' → Mid d' ∧ Owns Mid Post k (update live v false) d'

variable {P} {Mid : D → Prop} {Post : D → (T → Bool) → Prop} {live : T → Bool} {d d' : D}

/-- Actions of the workers do not stop the main thread. -/
lemma Owns.rely {c : Code X D T} (h : P.Owns Mid Post c live d) (hR : P.R d d') :
    P.Owns Mid Post c live d' := by
  cases c with
  | done => exact fun d₁ h₁ => h d₁ (P.R_trans hR h₁)
  | again => exact h
  | act f k => exact fun d₁ h₁ => h d₁ (P.R_trans hR h₁)
  | test c f p q => exact fun d₁ h₁ => h d₁ (P.R_trans hR h₁)
  | lock k => exact fun d₁ h₁ => h d₁ (P.R_trans hR h₁)
  | unlock k => exact fun d₁ h₁ => h d₁ (P.R_trans hR h₁)
  | fork v k => exact ⟨h.1, h.2.1, fun d₁ h₁ => h.2.2 d₁ (P.R_trans hR h₁)⟩
  | join v k => exact ⟨h.1, fun d₁ h₁ => h.2 d₁ (P.R_trans hR h₁)⟩

/-- A thread that is not at its end is in the middle of its code. -/
lemma Owns.mid {c : Code X D T} (h : P.Owns Mid Post c live d) (hc : c ≠ .done) : Mid d := by
  cases c with
  | done => exact absurd rfl hc
  | again => exact h.elim
  | act f k => exact (h d (P.R_refl d)).1
  | test c f p q => exact (h d (P.R_refl d)).1
  | lock k => exact (h d (P.R_refl d)).1
  | unlock k => exact (h d (P.R_refl d)).1
  | fork v k => exact (h.2.2 d (P.R_refl d)).1
  | join v k => exact (h.2 d (P.R_refl d)).1

/-- Code that neither creates a worker nor waits for one can be run when the code to which it comes
can. -/
lemma Owns.of_leads {F : D → D → Prop} {J : D → Prop} {k c : Code X D T} {held : Bool}
    (hlead : Leads F k held c) (hR : ∀ {d d'}, P.R d d' → J d → J d')
    (hF : ∀ {d d'}, F d d' → J d → J d') (hmid : ∀ {d}, J d → Mid d)
    (hk : ∀ d, J d → P.Owns Mid Post k live d) : ∀ d, J d → P.Owns Mid Post c live d := by
  induction hlead with
  | exit => exact hk
  | act hf _ ih =>
      exact fun d hd d' hd' => ⟨hmid (hR hd' hd), fun x => ih _ (hF (hf x d') (hR hd' hd))⟩
  | test hf _ _ ihp ihq =>
      exact fun d hd d' hd' => ⟨hmid (hR hd' hd), fun x =>
        ⟨fun htrue => ihp _ (hF (hf x d' htrue) (hR hd' hd)), fun _ => ihq _ (hR hd' hd)⟩⟩
  | lock _ ih => exact fun d hd d' hd' => ⟨hmid (hR hd' hd), ih _ (hR hd' hd)⟩
  | unlock _ ih => exact fun d hd d' hd' => ⟨hmid (hR hd' hd), ih _ (hR hd' hd)⟩

end Owns

/-! ### Runs with handles -/

section Owned

variable [DecidableEq T] {P : Protocol X D T} {Mid : D → Prop} {Post : D → (T → Bool) → Prop}

/-- The workers keep to the protocol, those whose handle is not there have ended, and the main
thread owns its handles. -/
structure Owned (P : Protocol X D T) (Mid : D → Prop) (Post : D → (T → Bool) → Prop)
    (w : HandleState X D T) : Prop where
  workers : P.Workers w.threads
  ended : ∀ v, v ≠ P.main → w.live v = false → w.threads.code v = .done
  owns : P.Owns Mid Post (w.threads.code P.main) w.live w.threads.data

/-- What the main thread does to itself and to the mutex does not concern the workers. -/
lemma Workers.goTo_main {s : State X D T} (hs : P.Workers s) {c : Code X D T} {d : D}
    {owner : Option T} (howner : ∀ u, u ≠ P.main → (owner = some u ↔ s.owner = some u)) :
    P.Workers { s.goTo P.main c with data := d, owner := owner } := by
  intro u hu
  have hdisc := hs u hu
  rw [← decide_eq_decide.2 (howner u hu)] at hdisc
  simp only [State.goTo_code_of_ne hu]
  exact hdisc

variable {w : HandleState X D T} {s : State X D T}

/-- The main thread goes on with the code `c` and leaves the workers alone. -/
lemma Owned.goTo_main (hw : P.Owned Mid Post w) {c : Code X D T} {d : D} {owner : Option T}
    {live : T → Bool} (howns : P.Owns Mid Post c live d)
    (howner : ∀ u, u ≠ P.main → (owner = some u ↔ w.threads.owner = some u))
    (hended : ∀ v, v ≠ P.main → live v = false → w.threads.code v = .done) :
    P.Owned Mid Post ⟨{ w.threads.goTo P.main c with data := d, owner := owner }, live⟩ := by
  refine ⟨hw.workers.goTo_main howner, fun v hv hlive => ?_, ?_⟩
  · simp only [State.goTo_code_of_ne hv]
    exact hended v hv hlive
  · simp only [State.goTo_code_self]
    exact howns

/-- The main thread has created the worker `v`. -/
lemma Owned.goTo_fork (hw : P.Owned Mid Post w) {v : T} {k : Code X D T} (hv : v ≠ P.main)
    (hdone : w.threads.code v = .done)
    (howns : P.Owns Mid Post k (update w.live v true) w.threads.data) :
    P.Owned Mid Post ⟨(w.threads.goTo P.main k).goTo v (P.body v), update w.live v true⟩ := by
  refine ⟨fun u hu => ?_, fun u hu (hlive : update w.live v true u = false) => ?_, ?_⟩
  · by_cases huv : u = v
    · -- a worker at its end does not have the mutex
      have hfree : decide (w.threads.owner = some v) = false := by
        have hdisc := hw.workers v hv
        rw [hdone] at hdisc
        exact hdisc
      rw [huv, State.goTo_code_self, State.goTo_owner, State.goTo_owner, hfree]
      exact P.body_disciplined hv
    · rw [State.goTo_code_of_ne huv, State.goTo_code_of_ne hu]
      exact hw.workers u hu
  · have huv : u ≠ v := by
      rintro rfl
      rw [update_self] at hlive
      cases hlive
    rw [State.goTo_code_of_ne huv, State.goTo_code_of_ne hu]
    rw [update_of_ne huv] at hlive
    exact hw.ended u hu hlive
  · rw [State.goTo_code_of_ne hv.symm, State.goTo_code_self]
    exact howns

lemma Owned.mainStep (hw : P.Owned Mid Post w) {x : X}
    (h : step P.toThreads w.threads (P.main, x) = some s) :
    ∃ live, handleStep P.toThreads w (P.main, x) = some ⟨s, live⟩ ∧ P.Owned Mid Post ⟨s, live⟩ := by
  have howns := hw.owns
  cases step_outcome h with
  | again hc =>
      rw [hc] at howns
      exact howns.elim
  | act x hc =>
      rw [hc] at howns
      exact ⟨_, handleStep_of_step (by simp [hc]) (by simp [hc]) h,
        hw.goTo_main ((howns _ (P.R_refl _)).2 x) (fun _ _ => Iff.rfl) hw.ended⟩
  | testTrue x hc htrue =>
      rw [hc] at howns
      exact ⟨_, handleStep_of_step (by simp [hc]) (by simp [hc]) h,
        hw.goTo_main (((howns _ (P.R_refl _)).2 x).1 htrue) (fun _ _ => Iff.rfl) hw.ended⟩
  | testFalse x hc hfalse =>
      rw [hc] at howns
      exact ⟨_, handleStep_of_step (by simp [hc]) (by simp [hc]) h,
        hw.goTo_main (((howns _ (P.R_refl _)).2 x).2 hfalse) (fun _ _ => Iff.rfl) hw.ended⟩
  | lock hc hfree =>
      rw [hc] at howns
      refine ⟨_, handleStep_of_step (by simp [hc]) (by simp [hc]) h,
        hw.goTo_main (howns _ (P.R_refl _)).2 (fun u hu => ?_) hw.ended⟩
      -- no worker gets the mutex by this, nor loses it
      simp [hfree, hu.symm]
  | unlock hc howner =>
      rw [hc] at howns
      refine ⟨_, handleStep_of_step (by simp [hc]) (by simp [hc]) h,
        hw.goTo_main (howns _ (P.R_refl _)).2 (fun u hu => ?_) hw.ended⟩
      simp [howner, hu.symm]
  | fork hc hdone =>
      rw [hc] at howns
      obtain ⟨hv, hlive, hk⟩ := howns
      exact ⟨_, handleStep_fork hc hlive h, hw.goTo_fork hv hdone (hk _ (P.R_refl _)).2⟩
  | @join v k hc hdone =>
      rw [hc] at howns
      obtain ⟨hlive, hk⟩ := howns
      refine ⟨_, handleStep_join hc hlive h,
        hw.goTo_main (hk _ (P.R_refl _)).2 (fun _ _ => Iff.rfl) fun u hu hu' => ?_⟩
      -- the worker that has been waited for has ended
      by_cases huv : u = v
      · rw [huv]
        exact hdone
      · rw [update_of_ne huv] at hu'
        exact hw.ended u hu hu'

lemma Owned.workerStep (hw : P.Owned Mid Post w) {v : T} {x : X} (hv : v ≠ P.main)
    (h : step P.toThreads w.threads (v, x) = some s) :
    handleStep P.toThreads w (v, x) = some ⟨s, w.live⟩ ∧ P.Owned Mid Post ⟨s, w.live⟩ := by
  have hstep := hw.workers.workerStep hv (step_outcome h)
  have hdisc := hw.workers v hv
  refine ⟨handleStep_of_step ?_ ?_ h, hstep.workers hw.workers, fun u hu hlive => ?_, ?_⟩
  · intro u k hc
    rw [hc] at hdisc
    exact hdisc
  · intro u k hc
    rw [hc] at hdisc
    exact hdisc
  · have hdone := hw.ended u hu hlive
    -- a worker without a handle has ended and takes no step
    have huv : u ≠ v := by
      rintro rfl
      exact hstep.running hdone
    exact (hstep.code u huv).trans hdone
  · show P.Owns Mid Post (s.code P.main) w.live s.data
    rw [hstep.code _ hv.symm]
    exact hw.owns.rely (P.R_of_G hv hstep.data)

/-- **A thread that owns its handles uses them rightly**: what the threads can do without handles,
they can do with them. -/
theorem Owned.step (hw : P.Owned Mid Post w) {a : T × X}
    (h : Locking.step P.toThreads w.threads a = some s) :
    ∃ live, handleStep P.toThreads w a = some ⟨s, live⟩ ∧ P.Owned Mid Post ⟨s, live⟩ := by
  obtain ⟨v, x⟩ := a
  by_cases hv : v = P.main
  · subst hv
    exact hw.mainStep h
  · exact ⟨w.live, hw.workerStep hv h⟩

/-- The main thread at its end takes up new code. -/
lemma Owned.call {Mid' : D → Prop} {Post' : D → (T → Bool) → Prop}
    (hw : P.Owned Mid Post w) {c : Code X D T}
    (howns : P.Owns Mid' Post' c w.live w.threads.data) :
    P.Owned Mid' Post' ⟨w.threads.goTo P.main c, w.live⟩ := by
  refine ⟨hw.workers.goTo_main fun _ _ => Iff.rfl, fun v hv hlive => ?_, ?_⟩
  · simp only [State.goTo_code_of_ne hv]
    exact hw.ended v hv hlive
  · simp only [State.goTo_code_self]
    exact howns

lemma Owned.end_of_done (hw : P.Owned Mid Post w) (hdone : w.threads.code P.main = .done) :
    Post w.threads.data w.live := by
  have howns := hw.owns
  rw [hdone] at howns
  exact howns _ (P.R_refl _)

end Owned

end Protocol

end Locking
