/-
# Threads that share one mutex

A main thread and its workers share data and one mutex that is not recursive.  What a thread has
left to do is a `Code`: atomic actions on the data, atomic tests, the operations of the mutex,
the creation of a worker and the wait for its end.  A worker runs passes of a loop for as long as
its flag is set.

Two things are errors: to ask for the mutex while having it, and to wait, while having it, for a
thread that asks for it.  A `Protocol` says what the workers do to the data and that they take
and release the mutex in turns.  Code of the main thread that `Runs` under such a protocol makes
no error, and its end can be reached from wherever a run has come to (`Good.canEnd`).
-/
import Oceanliner.Lib.Transition

open Transition Function Relation

namespace Locking

/-- What a thread has left to do.  An action and a test also see an input `X` from outside; a test
that succeeds may change the data.  `again` is the end of a pass of a worker's loop. -/
inductive Code (X D T : Type) where
  | done
  | again
  | act (f : X → D → D) (k : Code X D T)
  | test (c : X → D → Bool) (f : X → D → D) (p q : Code X D T)
  | lock (k : Code X D T)
  | unlock (k : Code X D T)
  | fork (v : T) (k : Code X D T)
  | join (v : T) (k : Code X D T)

variable {X D T : Type}

/-- Nothing is left to do. -/
def Code.isDone : Code X D T → Bool
  | .done => true
  | _ => false

lemma Code.isDone_iff {c : Code X D T} : c.isDone = true ↔ c = .done := by
  cases c <;> simp [isDone]

/-- A test that leaves the data alone. -/
def Code.ite (c : X → D → Bool) (p q : Code X D T) : Code X D T := .test c (fun _ d => d) p q

/-- The main thread, and for every worker the flag that keeps its loop going and one pass of the
loop. -/
structure Threads (X D T : Type) where
  main : T
  flag : T → D → Bool
  pass : T → Code X D T

/-- The loop of a worker, from its head. -/
def Threads.body (P : Threads X D T) (v : T) : Code X D T :=
  .ite (fun _ d => P.flag v d) (P.pass v) .done

/-- The data, the thread that has the mutex, and the code of the threads. -/
structure State (X D T : Type) where
  data : D
  owner : Option T
  code : T → Code X D T

section Steps

variable [DecidableEq T]

/-- The thread `t` goes on with the code `c`. -/
def State.goTo (s : State X D T) (t : T) (c : Code X D T) : State X D T :=
  { s with code := update s.code t c }

/-- A step of the thread `a.1` with the input `a.2`.  It is not defined for a thread that waits, and
for one that is at its end. -/
def step (P : Threads X D T) (s : State X D T) (a : T × X) : Option (State X D T) :=
  match s.code a.1 with
  | .done => none
  | .again => some (s.goTo a.1 (P.body a.1))
  | .act f k => some { s.goTo a.1 k with data := f a.2 s.data }
  | .test c f p q =>
      if c a.2 s.data then some { s.goTo a.1 p with data := f a.2 s.data }
      else some (s.goTo a.1 q)
  | .lock k => if s.owner = none then some { s.goTo a.1 k with owner := some a.1 } else none
  | .unlock k => if s.owner = some a.1 then some { s.goTo a.1 k with owner := none } else none
  | .fork v k => if (s.code v).isDone then some ((s.goTo a.1 k).goTo v (P.body v)) else none
  | .join v k => if (s.code v).isDone then some (s.goTo a.1 k) else none

/-- The thread asks for the mutex. -/
def State.Asks (s : State X D T) (t : T) : Prop := ∃ k, s.code t = .lock k

/-- The thread asks for the mutex that it has, or it waits, having the mutex, for a thread that
asks for it. -/
def State.Error (s : State X D T) (t : T) : Prop :=
  s.owner = some t ∧ (s.Asks t ∨ ∃ v k, s.code t = .join v k ∧ s.Asks v)

section Goto

variable (s : State X D T) (t : T) (c : Code X D T)

@[simp] lemma State.goTo_owner : (s.goTo t c).owner = s.owner := rfl
@[simp] lemma State.goTo_code_self : (s.goTo t c).code t = c := update_self ..

lemma State.goTo_code_of_ne {s : State X D T} {t u : T} {c : Code X D T} (h : u ≠ t) :
    (s.goTo t c).code u = s.code u := update_of_ne h ..

end Goto

/-- What a step does, by the code of the thread that takes it. -/
inductive Outcome (P : Threads X D T) (s : State X D T) (t : T) : State X D T → Prop where
  | again (h : s.code t = .again) : Outcome P s t (s.goTo t (P.body t))
  | act {f k} (x : X) (h : s.code t = .act f k) :
      Outcome P s t { s.goTo t k with data := f x s.data }
  | testTrue {c f p q} (x : X) (h : s.code t = .test c f p q) (hc : c x s.data = true) :
      Outcome P s t { s.goTo t p with data := f x s.data }
  | testFalse {c f p q} (x : X) (h : s.code t = .test c f p q) (hc : c x s.data = false) :
      Outcome P s t (s.goTo t q)
  | lock {k} (h : s.code t = .lock k) (hfree : s.owner = none) :
      Outcome P s t { s.goTo t k with owner := some t }
  | unlock {k} (h : s.code t = .unlock k) (howner : s.owner = some t) :
      Outcome P s t { s.goTo t k with owner := none }
  | fork {v k} (h : s.code t = .fork v k) (hdone : s.code v = .done) :
      Outcome P s t ((s.goTo t k).goTo v (P.body v))
  | join {v k} (h : s.code t = .join v k) (hdone : s.code v = .done) :
      Outcome P s t (s.goTo t k)

lemma step_outcome {P : Threads X D T} {s s' : State X D T} {a : T × X}
    (h : step P s a = some s') : Outcome P s a.1 s' := by
  unfold step at h
  split at h
  · cases h
  · rename_i hc
    obtain rfl := Option.some.inj h
    exact .again hc
  · rename_i hc
    obtain rfl := Option.some.inj h
    exact .act a.2 hc
  · rename_i hc
    split at h
    · rename_i htrue
      obtain rfl := Option.some.inj h
      exact .testTrue a.2 hc htrue
    · rename_i hfalse
      obtain rfl := Option.some.inj h
      exact .testFalse a.2 hc (by simpa using hfalse)
  · rename_i hc
    split at h
    · rename_i hfree
      obtain rfl := Option.some.inj h
      exact .lock hc hfree
    · cases h
  · rename_i hc
    split at h
    · rename_i howner
      obtain rfl := Option.some.inj h
      exact .unlock hc howner
    · cases h
  · rename_i hc
    split at h
    · rename_i hdone
      obtain rfl := Option.some.inj h
      exact .fork hc (Code.isDone_iff.1 hdone)
    · cases h
  · rename_i hc
    split at h
    · rename_i hdone
      obtain rfl := Option.some.inj h
      exact .join hc (Code.isDone_iff.1 hdone)
    · cases h

end Steps

/-! ### What code does on its own -/

/-- The thread takes and releases the mutex in turns, having it at first if `held`, creates no
thread and waits for none, and changes the data as `G` says. -/
def Disciplined (G : D → D → Prop) : Bool → Code X D T → Prop
  | held, .done => held = false
  | held, .again => held = false
  | held, .act f k => (∀ x d, G d (f x d)) ∧ Disciplined G held k
  | held, .test c f p q =>
      (∀ x d, c x d = true → G d (f x d)) ∧ Disciplined G held p ∧ Disciplined G held q
  | held, .lock k => held = false ∧ Disciplined G true k
  | held, .unlock k => held = true ∧ Disciplined G false k
  | _, .fork _ _ => False
  | _, .join _ _ => False

lemma disciplined_again (G : D → D → Prop) : Disciplined G false (.again : Code X D T) := rfl

/-- Running alone from the data `d`, the thread ends the pass of its loop without asking for the
mutex, and leaves data in `Q`. -/
def Quiet (Q : D → Prop) : Code X D T → D → Prop
  | .done, d => Q d
  | .again, d => Q d
  | .act f k, d => ∀ x, Quiet Q k (f x d)
  | .test c f p q, d =>
      ∀ x, (c x d = true → Quiet Q p (f x d)) ∧ (c x d = false → Quiet Q q d)
  | .lock _, _ => False
  | .unlock k, d => Quiet Q k d
  | .fork _ k, d => Quiet Q k d
  | .join _ k, d => Quiet Q k d

/-- The thread ends the pass of its loop without asking for the mutex, whatever the other threads
do to the data inside `I`. -/
def Calm (I : D → Prop) : Code X D T → Prop
  | .done => True
  | .again => True
  | .act _ k => Calm I k
  | .test c _ p q => ∀ x d, I d → (c x d = true → Calm I p) ∧ (c x d = false → Calm I q)
  | .lock _ => False
  | .unlock k => Calm I k
  | .fork _ k => Calm I k
  | .join _ k => Calm I k

/-- Every point of the code, from its beginning to its ends, is in `φ`. -/
def AllPoints (φ : Code X D T → Prop) : Code X D T → Prop
  | .done => φ .done
  | .again => φ .again
  | .act f k => φ (.act f k) ∧ AllPoints φ k
  | .test c f p q => φ (.test c f p q) ∧ AllPoints φ p ∧ AllPoints φ q
  | .lock k => φ (.lock k) ∧ AllPoints φ k
  | .unlock k => φ (.unlock k) ∧ AllPoints φ k
  | .fork v k => φ (.fork v k) ∧ AllPoints φ k
  | .join v k => φ (.join v k) ∧ AllPoints φ k

lemma AllPoints.self {φ : Code X D T → Prop} {c : Code X D T} (h : AllPoints φ c) : φ c := by
  cases c with
  | done => exact h
  | again => exact h
  | act f k => exact h.1
  | test c f p q => exact h.1
  | lock k => exact h.1
  | unlock k => exact h.1
  | fork v k => exact h.1
  | join v k => exact h.1

/-- A thread stays inside the points of its code and of its loop. -/
lemma AllPoints.of_step [DecidableEq T] {P : Threads X D T} {φ : Code X D T → Prop} {v : T}
    {s s' : State X D T} {a : T × X} (h : AllPoints φ (s.code v)) (hbody : AllPoints φ (P.body v))
    (hstep : step P s a = some s') : AllPoints φ (s'.code v) := by
  have goTo : ∀ {c : Code X D T}, (v = a.1 → AllPoints φ c) → AllPoints φ ((s.goTo a.1 c).code v) := by
    intro c hc
    by_cases hv : v = a.1
    · rw [hv, State.goTo_code_self]
      exact hc hv
    · rw [State.goTo_code_of_ne hv]
      exact h
  cases step_outcome hstep with
  | again hc => exact goTo fun hv => hv ▸ hbody
  | act x hc => exact goTo fun hv => by rw [hv, hc] at h; exact h.2
  | testTrue x hc htrue => exact goTo fun hv => by rw [hv, hc] at h; exact h.2.1
  | testFalse x hc hfalse => exact goTo fun hv => by rw [hv, hc] at h; exact h.2.2
  | lock hc hfree => exact goTo fun hv => by rw [hv, hc] at h; exact h.2
  | unlock hc howner => exact goTo fun hv => by rw [hv, hc] at h; exact h.2
  | @fork u k hc hdone =>
      by_cases hu : v = u
      · rw [← hu, State.goTo_code_self]
        exact hbody
      · rw [State.goTo_code_of_ne hu]
        exact goTo fun hv => by rw [hv, hc] at h; exact h.2
  | join hc hdone => exact goTo fun hv => by rw [hv, hc] at h; exact h.2

/-- The code comes to `k` without the mutex; it takes and releases the mutex in turns, having it at
first if `held`, and changes the data as `F` says. -/
inductive Leads (F : D → D → Prop) (k : Code X D T) : Bool → Code X D T → Prop where
  | exit : Leads F k false k
  | act {held f c} (hf : ∀ x d, F d (f x d)) (hc : Leads F k held c) : Leads F k held (.act f c)
  | test {held b f p q} (hf : ∀ x d, b x d = true → F d (f x d)) (hp : Leads F k held p)
      (hq : Leads F k held q) : Leads F k held (.test b f p q)
  | lock {c} (hc : Leads F k true c) : Leads F k false (.lock c)
  | unlock {c} (hc : Leads F k false c) : Leads F k true (.unlock c)

/-! ### Protocols -/

/-- Threads with what their workers keep to: `G v` relates the data before and after an action of
the worker `v`, and `R` the data before and after any number of actions of workers, which change
no flag and do not leave any of the sets `I v`. -/
structure Protocol (X D T : Type) extends Threads X D T where
  G : T → D → D → Prop
  R : D → D → Prop
  I : T → D → Prop
  G_refl : ∀ v d, G v d d
  R_refl : ∀ d, R d d
  R_trans : ∀ {d₁ d₂ d₃}, R d₁ d₂ → R d₂ d₃ → R d₁ d₃
  R_of_G : ∀ {v d d'}, v ≠ main → G v d d' → R d d'
  flag_eq : ∀ {v d d'}, R d d' → flag v d' = flag v d
  I_stable : ∀ {v d d'}, R d d' → I v d → I v d'
  pass_disciplined : ∀ v, v ≠ main → Disciplined (G v) false (pass v)

namespace Protocol

variable (P : Protocol X D T)

lemma body_disciplined {v : T} (hv : v ≠ P.main) : Disciplined (P.G v) false (P.body v) :=
  ⟨fun _ d _ => P.G_refl v d, P.pass_disciplined v hv, rfl⟩

lemma body_calm {v : T} {I : D → Prop} (h : Calm I (P.pass v)) : Calm I (P.body v) :=
  fun _ _ _ => ⟨fun _ => h, fun _ => trivial⟩

/-- The main thread can run the code from data `d` on and ends with data in `Post`.  It has the
mutex if `held`; the workers of `gone` have ended, and those of `calm` do not ask for the mutex
again.  Where it is not `strict`, the code may come to a point that is an error, and stay there. -/
def Runs (strict : Bool) (Post : D → (T → Prop) → Prop) :
    Code X D T → Bool → (T → Prop) → (T → Prop) → D → Prop
  | .done, held, gone, _, d => held = false ∧ ∀ d', P.R d d' → Post d' gone
  | .again, _, _, _, _ => False
  | .act f k, held, gone, calm, d => ∀ d', P.R d d' → ∀ x,
      Runs strict Post k held gone (fun v => calm v ∧ P.I v (f x d')) (f x d')
  | .test c f p q, held, gone, calm, d => ∀ d', P.R d d' → ∀ x,
      (c x d' = true →
        Runs strict Post p held gone (fun v => calm v ∧ P.I v (f x d')) (f x d')) ∧
      (c x d' = false → Runs strict Post q held gone calm d')
  | .lock k, held, gone, calm, d =>
      (held = true → strict = false) ∧
        (held = false → ∀ d', P.R d d' → Runs strict Post k true gone calm d')
  | .unlock k, held, gone, calm, d =>
      held = true ∧ ∀ d', P.R d d' → Runs strict Post k false gone calm d'
  | .fork v k, held, gone, calm, d =>
      v ≠ P.main ∧ gone v ∧ ∀ d', P.R d d' →
        Runs strict Post k held (fun u => gone u ∧ u ≠ v) (fun u => calm u ∧ u ≠ v) d'
  | .join v k, held, gone, calm, d =>
      v ≠ P.main ∧ (strict = true → P.flag v d = false ∧ (held = true → calm v)) ∧
        ∀ d', P.R d d' → Runs strict Post k held (fun u => gone u ∨ u = v) calm d'

variable {P}

/-- Actions of the workers do not stop the main thread. -/
lemma Runs.rely {strict held : Bool} {Post : D → (T → Prop) → Prop} {c : Code X D T}
    {gone calm : T → Prop} {d d' : D} (h : P.Runs strict Post c held gone calm d)
    (hR : P.R d d') : P.Runs strict Post c held gone calm d' := by
  cases c with
  | done => exact ⟨h.1, fun d₁ h₁ => h.2 d₁ (P.R_trans hR h₁)⟩
  | again => exact h
  | act f k => exact fun d₁ h₁ => h d₁ (P.R_trans hR h₁)
  | test c f p q => exact fun d₁ h₁ => h d₁ (P.R_trans hR h₁)
  | lock k => exact ⟨h.1, fun hheld d₁ h₁ => h.2 hheld d₁ (P.R_trans hR h₁)⟩
  | unlock k => exact ⟨h.1, fun d₁ h₁ => h.2 d₁ (P.R_trans hR h₁)⟩
  | fork v k => exact ⟨h.1, h.2.1, fun d₁ h₁ => h.2.2 d₁ (P.R_trans hR h₁)⟩
  | join v k =>
      refine ⟨h.1, fun hstrict => ?_, fun d₁ h₁ => h.2.2 d₁ (P.R_trans hR h₁)⟩
      rw [P.flag_eq hR]
      exact h.2.1 hstrict

/-- Code of the main thread that neither creates a thread nor waits for one runs, when the code `k`
to which it comes runs. -/
lemma Runs.of_leads {strict : Bool} {Post : D → (T → Prop) → Prop} {F : D → D → Prop}
    {J : D → Prop} {gone : T → Prop} {k c : Code X D T} {held : Bool} (hlead : Leads F k held c)
    (hR : ∀ {d d'}, P.R d d' → J d → J d') (hF : ∀ {d d'}, F d d' → J d → J d')
    (hk : ∀ calm d, J d → P.Runs strict Post k false gone calm d) :
    ∀ (calm : T → Prop) (d : D), J d → P.Runs strict Post c held gone calm d := by
  induction hlead with
  | exit => exact hk
  | act hf _ ih => exact fun calm d hd d' hd' x => ih _ _ (hF (hf x d') (hR hd' hd))
  | test hf _ _ ihp ihq =>
      exact fun calm d hd d' hd' x =>
        ⟨fun htrue => ihp _ _ (hF (hf x d' htrue) (hR hd' hd)), fun _ => ihq _ _ (hR hd' hd)⟩
  | lock _ ih =>
      exact fun calm d hd =>
        ⟨fun hheld => absurd hheld (by simp), fun _ d' hd' => ih _ _ (hR hd' hd)⟩
  | unlock _ ih => exact fun calm d hd => ⟨rfl, fun d' hd' => ih _ _ (hR hd' hd)⟩

section Good

variable [DecidableEq T]

/-- The workers keep to the protocol. -/
def Workers (P : Protocol X D T) (s : State X D T) : Prop :=
  ∀ v, v ≠ P.main → Disciplined (P.G v) (decide (s.owner = some v)) (s.code v)

/-- The main thread runs, with the given knowledge about the workers. -/
structure Good (P : Protocol X D T) (strict : Bool) (Post : D → (T → Prop) → Prop)
    (gone calm : T → Prop) (s : State X D T) : Prop where
  workers : P.Workers s
  runs : P.Runs strict Post (s.code P.main) (decide (s.owner = some P.main)) gone calm s.data
  gone : ∀ v, gone v → s.code v = .done
  calm : ∀ v, calm v → v ≠ P.main ∧ P.I v s.data ∧ Calm (P.I v) (s.code v) ∧
    Calm (P.I v) (P.pass v)

/-! ### Steps of a worker -/

variable {s s' : State X D T} {v : T}

/-- A step of a worker leaves the code of the others alone, changes the data as the worker may, and
keeps the protocol. -/
structure WorkerStep (P : Protocol X D T) (v : T) (s s' : State X D T) : Prop where
  code : ∀ u, u ≠ v → s'.code u = s.code u
  data : P.G v s.data s'.data
  owner : ∀ u, u ≠ v → (s'.owner = some u ↔ s.owner = some u)
  disciplined : Disciplined (P.G v) (decide (s'.owner = some v)) (s'.code v)
  calm : ∀ I, I s.data → Calm I (s.code v) → Calm I (P.pass v) → Calm I (s'.code v)
  running : s.code v ≠ .done

/-- A step that leaves the mutex alone. -/
lemma WorkerStep.of_goTo {c : Code X D T} {d : D} (hrunning : s.code v ≠ .done)
    (hdata : P.G v s.data d) (hdisc : Disciplined (P.G v) (decide (s.owner = some v)) c)
    (hcalm : ∀ I, I s.data → Calm I (s.code v) → Calm I (P.pass v) → Calm I c) :
    WorkerStep P v s { s.goTo v c with data := d } := by
  refine ⟨fun u hu => State.goTo_code_of_ne hu, hdata, fun _ _ => Iff.rfl, ?_, ?_, hrunning⟩
  · rw [State.goTo_code_self]
    exact hdisc
  · rw [State.goTo_code_self]
    exact hcalm

lemma Workers.workerStep (h : P.Workers s) (hv : v ≠ P.main)
    (hout : Outcome P.toThreads s v s') : WorkerStep P v s s' := by
  have hdisc := h v hv
  cases hout with
  | again hc =>
      rw [hc] at hdisc
      have hown : decide (s.owner = some v) = false := hdisc
      refine .of_goTo (by simp [hc]) (P.G_refl v _) ?_ fun I _ _ hpass => P.body_calm hpass
      rw [hown]
      exact P.body_disciplined hv
  | act x hc =>
      rw [hc] at hdisc
      refine .of_goTo (by simp [hc]) (hdisc.1 x _) hdisc.2 fun I _ hcalm _ => ?_
      rw [hc] at hcalm
      exact hcalm
  | testTrue x hc htrue =>
      rw [hc] at hdisc
      refine .of_goTo (by simp [hc]) (hdisc.1 x _ htrue) hdisc.2.1 fun I hI hcalm _ => ?_
      rw [hc] at hcalm
      exact (hcalm x _ hI).1 htrue
  | testFalse x hc hfalse =>
      rw [hc] at hdisc
      refine .of_goTo (by simp [hc]) (P.G_refl v _) hdisc.2.2 fun I hI hcalm _ => ?_
      rw [hc] at hcalm
      exact (hcalm x _ hI).2 hfalse
  | lock hc hfree =>
      rw [hc] at hdisc
      refine ⟨fun u hu => State.goTo_code_of_ne hu, P.G_refl v _, fun u hu => ?_, ?_, ?_, ?_⟩
      · simp [hfree, hu.symm]
      · rw [State.goTo_code_self, decide_eq_true rfl]
        exact hdisc.2
      · intro I _ hcalm _
        rw [hc] at hcalm
        exact hcalm.elim
      · simp [hc]
  | unlock hc howner =>
      rw [hc] at hdisc
      refine ⟨fun u hu => State.goTo_code_of_ne hu, P.G_refl v _, fun u hu => ?_, ?_, ?_, ?_⟩
      · simp [howner, hu.symm]
      · rw [State.goTo_code_self, decide_eq_false (by simp)]
        exact hdisc.2
      · intro I _ hcalm _
        rw [hc] at hcalm
        rw [State.goTo_code_self]
        exact hcalm
      · simp [hc]
  | fork hc hdone =>
      rw [hc] at hdisc
      exact hdisc.elim
  | join hc hdone =>
      rw [hc] at hdisc
      exact hdisc.elim

lemma WorkerStep.workers (h : WorkerStep P v s s') (hs : P.Workers s) : P.Workers s' := by
  intro u hu
  by_cases huv : u = v
  · rw [huv]
    exact h.disciplined
  · rw [h.code u huv, decide_eq_decide.2 (h.owner u huv)]
    exact hs u hu

lemma Good.workerStep {strict : Bool} {Post : D → (T → Prop) → Prop} {gone calm : T → Prop}
    (hs : P.Good strict Post gone calm s) (hv : v ≠ P.main) (h : WorkerStep P v s s') :
    P.Good strict Post gone calm s' := by
  have hR := P.R_of_G hv h.data
  refine ⟨h.workers hs.workers, ?_, ?_, ?_⟩
  · rw [h.code _ hv.symm, decide_eq_decide.2 (h.owner _ hv.symm)]
    exact hs.runs.rely hR
  · intro u hu
    by_cases huv : u = v
    · exact absurd (hs.gone v (huv ▸ hu)) h.running
    · rw [h.code u huv]
      exact hs.gone u hu
  · intro u hu
    obtain ⟨hmain, hI, hcalm, hpass⟩ := hs.calm u hu
    refine ⟨hmain, P.I_stable hR hI, ?_, hpass⟩
    by_cases huv : u = v
    · rw [huv] at hI hcalm hpass ⊢
      exact h.calm _ hI hcalm hpass
    · rw [h.code u huv]
      exact hcalm

/-! ### Steps of the main thread -/

section MainStep

variable {strict : Bool} {Post : D → (T → Prop) → Prop} {gone calm : T → Prop}

/-- The main thread goes on with the code `c` and leaves the workers alone. -/
lemma Good.goTo {c : Code X D T} {d : D} {owner : Option T} {gone' calm' : T → Prop}
    (hs : P.Good strict Post gone calm s)
    (hruns : P.Runs strict Post c (decide (owner = some P.main)) gone' calm' d)
    (hgone : ∀ u, gone' u → s.code u = .done)
    (howner : ∀ u, u ≠ P.main → (owner = some u ↔ s.owner = some u))
    (hrunning : s.code P.main ≠ .done) (hcalm : ∀ u, calm' u → calm u ∧ P.I u d) :
    P.Good strict Post gone' calm' { s.goTo P.main c with data := d, owner := owner } := by
  refine ⟨fun u hu => ?_, ?_, fun u hu => ?_, fun u hu => ?_⟩
  · have hdisc := hs.workers u hu
    rw [← decide_eq_decide.2 (howner u hu)] at hdisc
    simp only [State.goTo_code_of_ne hu]
    exact hdisc
  · simp only [State.goTo_code_self]
    exact hruns
  · have hne : u ≠ P.main := by
      rintro rfl
      exact hrunning (hgone _ hu)
    simp only [State.goTo_code_of_ne hne]
    exact hgone u hu
  · obtain ⟨hu', hI⟩ := hcalm u hu
    obtain ⟨hmain, -, hcode, hpass⟩ := hs.calm u hu'
    simp only [State.goTo_code_of_ne hmain]
    exact ⟨hmain, hI, hcode, hpass⟩

/-- The main thread has created the worker `v`. -/
lemma Good.goTo_fork {k : Code X D T} (hs : P.Good strict Post gone calm s)
    (hc : s.code P.main = .fork v k) (hdone : s.code v = .done) :
    P.Good strict Post (fun u => gone u ∧ u ≠ v) (fun u => calm u ∧ u ≠ v)
      ((s.goTo P.main k).goTo v (P.body v)) := by
  have hruns := hs.runs
  rw [hc] at hruns
  obtain ⟨hv, -, hk⟩ := hruns
  refine ⟨fun u hu => ?_, ?_, fun u hu => ?_, fun u hu => ?_⟩
  · by_cases huv : u = v
    · have hfree : decide (s.owner = some v) = false := by
        have hdisc := hs.workers v hv
        rw [hdone] at hdisc
        exact hdisc
      rw [huv, State.goTo_code_self, State.goTo_owner, State.goTo_owner, hfree]
      exact P.body_disciplined hv
    · rw [State.goTo_code_of_ne huv, State.goTo_code_of_ne hu]
      exact hs.workers u hu
  · rw [State.goTo_code_of_ne hv.symm, State.goTo_code_self]
    exact hk _ (P.R_refl _)
  · have hne : u ≠ P.main := by
      rintro rfl
      have hdone := hs.gone _ hu.1
      rw [hc] at hdone
      cases hdone
    rw [State.goTo_code_of_ne hu.2, State.goTo_code_of_ne hne]
    exact hs.gone u hu.1
  · obtain ⟨hmain, hI, hcode, hpass⟩ := hs.calm u hu.1
    rw [State.goTo_code_of_ne hu.2, State.goTo_code_of_ne hmain]
    exact ⟨hmain, hI, hcode, hpass⟩

/-- The main thread has waited for the end of the worker `v`. -/
lemma Good.goTo_join {k : Code X D T} (hs : P.Good strict Post gone calm s)
    (hc : s.code P.main = .join v k) (hdone : s.code v = .done) :
    P.Good strict Post (fun u => gone u ∨ u = v) calm (s.goTo P.main k) := by
  have hruns := hs.runs
  rw [hc] at hruns
  obtain ⟨hv, -, hk⟩ := hruns
  refine hs.goTo (hk _ (P.R_refl _)) ?_ (fun _ _ => Iff.rfl) (by simp [hc])
    fun u hu => ⟨hu, (hs.calm u hu).2.1⟩
  rintro u (hu | rfl)
  · exact hs.gone u hu
  · exact hdone

lemma Good.mainStep (hs : P.Good strict Post gone calm s)
    (hout : Outcome P.toThreads s P.main s') :
    ∃ gone' calm', P.Good strict Post gone' calm' s' := by
  have hruns := hs.runs
  have hkeep : ∀ u, calm u → calm u ∧ P.I u s.data := fun u hu => ⟨hu, (hs.calm u hu).2.1⟩
  cases hout with
  | again hc =>
      rw [hc] at hruns
      exact hruns.elim
  | act x hc =>
      rw [hc] at hruns
      exact ⟨gone, _, hs.goTo (hruns _ (P.R_refl _) x) hs.gone (fun _ _ => Iff.rfl)
        (by simp [hc]) fun _ h => h⟩
  | testTrue x hc htrue =>
      rw [hc] at hruns
      exact ⟨gone, _, hs.goTo ((hruns _ (P.R_refl _) x).1 htrue) hs.gone
        (fun _ _ => Iff.rfl) (by simp [hc]) fun _ h => h⟩
  | testFalse x hc hfalse =>
      rw [hc] at hruns
      exact ⟨gone, _, hs.goTo ((hruns _ (P.R_refl _) x).2 hfalse) hs.gone
        (fun _ _ => Iff.rfl) (by simp [hc]) hkeep⟩
  | lock hc hfree =>
      rw [hc] at hruns
      refine ⟨gone, _, hs.goTo ?_ hs.gone (fun u hu => ?_) (by simp [hc]) hkeep⟩
      · rw [decide_eq_true rfl]
        exact hruns.2 (decide_eq_false (by simp [hfree])) _ (P.R_refl _)
      · simp [hfree, hu.symm]
  | unlock hc howner =>
      rw [hc] at hruns
      refine ⟨gone, _, hs.goTo ?_ hs.gone (fun u hu => ?_) (by simp [hc]) hkeep⟩
      · rw [decide_eq_false (by simp)]
        exact hruns.2 _ (P.R_refl _)
      · simp [howner, hu.symm]
  | fork hc hdone => exact ⟨_, _, hs.goTo_fork hc hdone⟩
  | join hc hdone => exact ⟨_, _, hs.goTo_join hc hdone⟩

end MainStep

/-- The main thread at its end takes up new code. -/
lemma Good.of_call {strict : Bool} {Post : D → (T → Prop) → Prop} {gone calm : T → Prop}
    {c : Code X D T} (hs : P.Workers s) (howner : s.owner ≠ some P.main)
    (hruns : P.Runs strict Post c false gone calm s.data)
    (hgone : ∀ v, gone v → v ≠ P.main ∧ s.code v = .done)
    (hcalm : ∀ v, calm v → v ≠ P.main ∧ P.I v s.data ∧ Calm (P.I v) (s.code v) ∧
      Calm (P.I v) (P.pass v)) :
    P.Good strict Post gone calm (s.goTo P.main c) := by
  refine ⟨fun v hv => ?_, ?_, fun v hv => ?_, fun v hv => ?_⟩
  · rw [State.goTo_code_of_ne hv]
    exact hs v hv
  · rw [State.goTo_owner, decide_eq_false howner, State.goTo_code_self]
    exact hruns
  · obtain ⟨hne, hdone⟩ := hgone v hv
    rw [State.goTo_code_of_ne hne]
    exact hdone
  · obtain ⟨hne, h⟩ := hcalm v hv
    rw [State.goTo_code_of_ne hne]
    exact ⟨hne, h⟩

/-! ### Runs -/

section Run

variable {strict : Bool} {Post : D → (T → Prop) → Prop} {gone calm : T → Prop}

lemma Good.of_step {a : T × X} (hs : P.Good strict Post gone calm s)
    (h : step P.toThreads s a = some s') :
    ∃ gone' calm', P.Good strict Post gone' calm' s' := by
  have hout := step_outcome h
  by_cases ha : a.1 = P.main
  · rw [ha] at hout
    exact hs.mainStep hout
  · exact ⟨gone, calm, hs.workerStep ha (hs.workers.workerStep ha hout)⟩

/-- What the main thread runs under a protocol, it still runs after any steps of the threads. -/
lemma Good.of_reaches (hs : P.Good strict Post gone calm s)
    (h : Reaches (step P.toThreads) s s') :
    ∃ gone' calm', P.Good strict Post gone' calm' s' := by
  obtain ⟨as, h⟩ := h
  refine run_invariant (I := fun s => ∃ gone' calm', P.Good strict Post gone' calm' s) ?_
    ⟨gone, calm, hs⟩ h
  rintro s₁ a s₂ ⟨gone₁, calm₁, h₁⟩ hstep
  exact h₁.of_step hstep

/-- At its end the main thread does not have the mutex. -/
lemma Good.end_of_done (hs : P.Good strict Post gone calm s) (hdone : s.code P.main = .done) :
    s.owner ≠ some P.main ∧ Post s.data gone := by
  have hruns := hs.runs
  rw [hdone] at hruns
  exact ⟨of_decide_eq_false hruns.1, hruns.2 _ (P.R_refl _)⟩

/-- Code that runs strictly makes no error. -/
lemma Good.not_error (hs : P.Good true Post gone calm s) (t : T) : ¬ s.Error t := by
  rintro ⟨howner, herror⟩
  have hheld : decide (s.owner = some t) = true := decide_eq_true howner
  by_cases ht : t = P.main
  · rw [ht] at hheld herror
    have hruns := hs.runs
    rw [hheld] at hruns
    rcases herror with ⟨k, hk⟩ | ⟨v, k, hk, k', hk'⟩
    · rw [hk] at hruns
      exact absurd (hruns.1 rfl) (by simp)
    · rw [hk] at hruns
      -- a thread that does not ask for the mutex again
      have hcalm := (hs.calm v ((hruns.2.1 rfl).2 rfl)).2.2.1
      rw [hk'] at hcalm
      exact hcalm
  · have hdisc := hs.workers t ht
    rw [hheld] at hdisc
    rcases herror with ⟨k, hk⟩ | ⟨v, k, hk, -⟩
    · rw [hk] at hdisc
      exact absurd hdisc.1 (by simp)
    · rw [hk] at hdisc
      exact hdisc

end Run

/-! ### Moves of the workers -/

/-- A step of the worker `v`. -/
def Moves (P : Protocol X D T) (v : T) (s s' : State X D T) : Prop :=
  (∃ x, step P.toThreads s (v, x) = some s') ∧ WorkerStep P v s s'

lemma Workers.moves {x : X} (hs : P.Workers s) (hv : v ≠ P.main)
    (h : step P.toThreads s (v, x) = some s') : P.Moves v s s' :=
  ⟨⟨x, h⟩, hs.workerStep hv (step_outcome h)⟩

/-- A step of some worker. -/
def Drifts (P : Protocol X D T) (s s' : State X D T) : Prop := ∃ v, v ≠ P.main ∧ P.Moves v s s'

lemma drifts_of_moves (hv : v ≠ P.main) (h : ReflTransGen (P.Moves v) s s') :
    ReflTransGen P.Drifts s s' := by
  induction h with
  | refl => exact .refl
  | tail _ hm ih => exact ih.tail ⟨v, hv, hm⟩

lemma reaches_of_drifts (h : ReflTransGen P.Drifts s s') :
    Reaches (step P.toThreads) s s' := by
  induction h with
  | refl => exact .refl _
  | tail _ hm ih =>
      obtain ⟨v, -, ⟨x, hx⟩, -⟩ := hm
      exact ih.trans (.of_step hx)

lemma code_of_moves {u : T} (hu : u ≠ v) (h : ReflTransGen (P.Moves v) s s') :
    s'.code u = s.code u := by
  induction h with
  | refl => rfl
  | tail _ hm ih => rw [hm.2.code u hu, ih]

lemma owner_of_moves {u : T} (hu : u ≠ v) (h : ReflTransGen (P.Moves v) s s') :
    s'.owner = some u ↔ s.owner = some u := by
  induction h with
  | refl => rfl
  | tail _ hm ih => rw [hm.2.owner u hu, ih]

/-- What the actions of a worker preserve. -/
lemma data_of_moves {J : D → Prop} (hJ : ∀ {d d'}, P.G v d d' → J d → J d')
    (h : ReflTransGen (P.Moves v) s s') (hs : J s.data) : J s'.data := by
  induction h with
  | refl => exact hs
  | tail _ hm ih => exact hJ hm.2.data ih

lemma code_main_of_drifts (h : ReflTransGen P.Drifts s s') : s'.code P.main = s.code P.main := by
  induction h with
  | refl => rfl
  | tail _ hm ih =>
      obtain ⟨v, hv, hm⟩ := hm
      rw [hm.2.code _ hv.symm, ih]

lemma Workers.drifts (hs : P.Workers s) (h : ReflTransGen P.Drifts s s') : P.Workers s' := by
  induction h with
  | refl => exact hs
  | tail _ hm ih =>
      obtain ⟨v, -, hm⟩ := hm
      exact hm.2.workers ih

lemma rely_of_drifts (h : ReflTransGen P.Drifts s s') : P.R s.data s'.data := by
  induction h with
  | refl => exact P.R_refl _
  | tail _ hm ih =>
      obtain ⟨v, hv, hm⟩ := hm
      exact P.R_trans ih (P.R_of_G hv hm.2.data)

lemma Good.drifts {strict : Bool} {Post : D → (T → Prop) → Prop} {gone calm : T → Prop}
    (hs : P.Good strict Post gone calm s) (h : ReflTransGen P.Drifts s s') :
    P.Good strict Post gone calm s' := by
  induction h with
  | refl => exact hs
  | tail _ hm ih =>
      obtain ⟨v, hv, hm⟩ := hm
      exact ih.workerStep hv hm.2

/-! ### Progress -/

lemma Workers.disciplined {c : Code X D T} (hs : P.Workers s) (hv : v ≠ P.main)
    (hc : s.code v = c) : Disciplined (P.G v) (decide (s.owner = some v)) c := by
  have hdisc := hs v hv
  rwa [hc] at hdisc

/-- A step of a worker that leaves the mutex alone can always be taken. -/
lemma Workers.moves_act {f : X → D → D} {k : Code X D T} (hs : P.Workers s) (hv : v ≠ P.main)
    (hc : s.code v = .act f k) (x : X) :
    P.Moves v s { s.goTo v k with data := f x s.data } :=
  hs.moves (x := x) hv (by simp [step, hc])

lemma Workers.moves_test_true {c : X → D → Bool} {f : X → D → D} {p q : Code X D T} {x : X}
    (hs : P.Workers s) (hv : v ≠ P.main) (hc : s.code v = .test c f p q)
    (htrue : c x s.data = true) : P.Moves v s { s.goTo v p with data := f x s.data } :=
  hs.moves (x := x) hv (by simp [step, hc, htrue])

lemma Workers.moves_test_false {c : X → D → Bool} {f : X → D → D} {p q : Code X D T} {x : X}
    (hs : P.Workers s) (hv : v ≠ P.main) (hc : s.code v = .test c f p q)
    (hfalse : c x s.data = false) : P.Moves v s (s.goTo v q) :=
  hs.moves (x := x) hv (by simp [step, hc, hfalse])

lemma Workers.moves_unlock [Inhabited X] {k : Code X D T} (hs : P.Workers s) (hv : v ≠ P.main)
    (hc : s.code v = .unlock k) : P.Moves v s { s.goTo v k with owner := none } := by
  have howner : s.owner = some v := of_decide_eq_true (hs.disciplined hv hc).1
  exact hs.moves (x := default) hv (by simp [step, hc, howner])

/-- The main thread can come to its end from here. -/
def CanEnd (P : Protocol X D T) (s : State X D T) : Prop :=
  ∃ s', Reaches (step P.toThreads) s s' ∧ s'.code P.main = .done

lemma CanEnd.of_drifts (hdrifts : ReflTransGen P.Drifts s s') (h : P.CanEnd s') :
    P.CanEnd s := by
  obtain ⟨s₁, hs₁, hdone⟩ := h
  exact ⟨s₁, (reaches_of_drifts hdrifts).trans hs₁, hdone⟩

/-- The main thread takes a step, and the rest of its code can come to its end. -/
lemma Good.canEnd_of_step {strict : Bool} {Post : D → (T → Prop) → Prop} {gone calm : T → Prop}
    {x : X} {c : Code X D T} (hs : P.Good strict Post gone calm s)
    (hstep : step P.toThreads s (P.main, x) = some s') (hc : s'.code P.main = c)
    (ih : ∀ {gone calm : T → Prop} {s : State X D T}, P.Good strict Post gone calm s →
      s.code P.main = c → P.CanEnd s) : P.CanEnd s := by
  obtain ⟨gone', calm', hs'⟩ := hs.of_step hstep
  obtain ⟨s₁, hs₁, hdone⟩ := ih hs' hc
  exact ⟨s₁, (Reaches.of_step hstep).trans hs₁, hdone⟩

section Progress

variable [Inhabited X]

/-- A worker that has the mutex releases it. -/
lemma exists_release (hv : v ≠ P.main) {c : Code X D T} :
    ∀ {s : State X D T}, P.Workers s → s.code v = c → s.owner = some v →
      ∃ s', ReflTransGen (P.Moves v) s s' ∧ s'.owner = none := by
  induction c with
  | done =>
      intro s hs hc howner
      have hdisc := hs.disciplined hv hc
      rw [howner, decide_eq_true rfl] at hdisc
      cases hdisc
  | again =>
      intro s hs hc howner
      have hdisc := hs.disciplined hv hc
      rw [howner, decide_eq_true rfl] at hdisc
      cases hdisc
  | act f k ih =>
      intro s hs hc howner
      have hmove := hs.moves_act hv hc default
      obtain ⟨s', hs', hfree⟩ := ih (hmove.2.workers hs) (State.goTo_code_self ..) howner
      exact ⟨s', .head hmove hs', hfree⟩
  | test c f p q ihp ihq =>
      intro s hs hc howner
      cases hb : c default s.data with
      | true =>
          have hmove := hs.moves_test_true hv hc hb
          obtain ⟨s', hs', hfree⟩ := ihp (hmove.2.workers hs) (State.goTo_code_self ..) howner
          exact ⟨s', .head hmove hs', hfree⟩
      | false =>
          have hmove := hs.moves_test_false hv hc hb
          obtain ⟨s', hs', hfree⟩ := ihq (hmove.2.workers hs) (State.goTo_code_self ..) howner
          exact ⟨s', .head hmove hs', hfree⟩
  | lock k ih =>
      intro s hs hc howner
      have hdisc := hs.disciplined hv hc
      rw [howner, decide_eq_true rfl] at hdisc
      exact absurd hdisc.1 (by simp)
  | unlock k ih =>
      intro s hs hc howner
      exact ⟨_, .single (hs.moves_unlock hv hc), rfl⟩
  | fork u k ih =>
      intro s hs hc howner
      exact (hs.disciplined hv hc).elim
  | join u k ih =>
      intro s hs hc howner
      exact (hs.disciplined hv hc).elim

/-- The mutex can become free unless the main thread has it; the thread `v` without the mutex does
not move. -/
lemma exists_free (hs : P.Workers s) (hv : s.owner ≠ some v) (hmain : s.owner ≠ some P.main) :
    ∃ s', ReflTransGen P.Drifts s s' ∧ s'.owner = none ∧ s'.code v = s.code v := by
  cases howner : s.owner with
  | none => exact ⟨s, .refl, howner, rfl⟩
  | some u =>
      rw [howner] at hv hmain
      have hu : u ≠ P.main := fun h => hmain (congrArg some h)
      obtain ⟨s', hmoves, hfree⟩ := exists_release hu hs rfl howner
      exact ⟨s', drifts_of_moves hu hmoves, hfree,
        code_of_moves (fun h => hv (congrArg some h.symm)) hmoves⟩

/-- A worker whose flag is not set comes to its end, unless it needs the mutex and the main thread
has it. -/
lemma exists_exit (hv : v ≠ P.main) {c : Code X D T} :
    ∀ {s : State X D T}, P.Workers s → s.code v = c → P.flag v s.data = false →
      (s.owner = some P.main → P.I v s.data ∧ Calm (P.I v) c) →
      ∃ s', ReflTransGen P.Drifts s s' ∧ s'.code v = .done := by
  induction c with
  | done => exact fun _ hc _ _ => ⟨_, .refl, hc⟩
  | again =>
      intro s hs hc hflag _
      have h₁ : P.Moves v s (s.goTo v (P.body v)) :=
        hs.moves (x := default) hv (by simp [step, hc])
      have h₂ := (h₁.2.workers hs).moves_test_false (x := default) hv (State.goTo_code_self ..) hflag
      exact ⟨_, .head ⟨v, hv, h₁⟩ (.single ⟨v, hv, h₂⟩), State.goTo_code_self ..⟩
  | act f k ih =>
      intro s hs hc hflag hcalm
      have hmove := hs.moves_act hv hc default
      have hR := P.R_of_G hv hmove.2.data
      obtain ⟨s', hs', hdone⟩ := ih (hmove.2.workers hs) (State.goTo_code_self ..)
        ((P.flag_eq hR).trans hflag)
        fun howner => ⟨P.I_stable hR (hcalm howner).1, (hcalm howner).2⟩
      exact ⟨s', .head ⟨v, hv, hmove⟩ hs', hdone⟩
  | test c f p q ihp ihq =>
      intro s hs hc hflag hcalm
      cases hb : c default s.data with
      | true =>
          have hmove := hs.moves_test_true hv hc hb
          have hR := P.R_of_G hv hmove.2.data
          obtain ⟨s', hs', hdone⟩ := ihp (hmove.2.workers hs) (State.goTo_code_self ..)
            ((P.flag_eq hR).trans hflag)
            fun howner => ⟨P.I_stable hR (hcalm howner).1,
              ((hcalm howner).2 _ _ (hcalm howner).1).1 hb⟩
          exact ⟨s', .head ⟨v, hv, hmove⟩ hs', hdone⟩
      | false =>
          have hmove := hs.moves_test_false hv hc hb
          obtain ⟨s', hs', hdone⟩ := ihq (hmove.2.workers hs) (State.goTo_code_self ..) hflag
            fun howner => ⟨(hcalm howner).1, ((hcalm howner).2 _ _ (hcalm howner).1).2 hb⟩
          exact ⟨s', .head ⟨v, hv, hmove⟩ hs', hdone⟩
  | lock k ih =>
      intro s hs hc hflag hcalm
      have howner : s.owner ≠ some v := of_decide_eq_false (hs.disciplined hv hc).1
      obtain ⟨s₁, hs₁, hfree, hcode⟩ := exists_free hs howner
        fun howner => (hcalm howner).2
      have hmove : P.Moves v s₁ { s₁.goTo v k with owner := some v } :=
        (hs.drifts hs₁).moves (x := default) hv (by simp [step, hcode, hc, hfree])
      obtain ⟨s', hs', hdone⟩ := ih (hmove.2.workers (hs.drifts hs₁)) (State.goTo_code_self ..)
        ((P.flag_eq (rely_of_drifts hs₁)).trans hflag)
        fun howner => absurd (Option.some.inj howner) hv
      exact ⟨s', hs₁.trans (.head ⟨v, hv, hmove⟩ hs'), hdone⟩
  | unlock k ih =>
      intro s hs hc hflag hcalm
      have hmove := hs.moves_unlock hv hc
      obtain ⟨s', hs', hdone⟩ := ih (hmove.2.workers hs) (State.goTo_code_self ..) hflag
        fun howner => by cases howner
      exact ⟨s', .head ⟨v, hv, hmove⟩ hs', hdone⟩
  | fork u k ih =>
      intro s hs hc _ _
      exact (hs.disciplined hv hc).elim
  | join u k ih =>
      intro s hs hc _ _
      exact (hs.disciplined hv hc).elim

/-- A worker that is not quiet can, alone, come to ask for the mutex or end the pass of its loop with
data outside `Q`. -/
lemma exists_of_not_quiet (hv : v ≠ P.main) {Q : D → Prop} {c : Code X D T} :
    ∀ {s : State X D T}, P.Workers s → s.code v = c → ¬ Quiet Q c s.data →
      ∃ s', ReflTransGen (P.Moves v) s s' ∧ s'.owner ≠ some v ∧
        (s'.Asks v ∨ ((s'.code v = .done ∨ s'.code v = .again) ∧ ¬ Q s'.data)) := by
  induction c with
  | done =>
      intro s hs hc hquiet
      exact ⟨s, .refl, of_decide_eq_false (hs.disciplined hv hc), Or.inr ⟨Or.inl hc, hquiet⟩⟩
  | again =>
      intro s hs hc hquiet
      exact ⟨s, .refl, of_decide_eq_false (hs.disciplined hv hc), Or.inr ⟨Or.inr hc, hquiet⟩⟩
  | act f k ih =>
      intro s hs hc hquiet
      obtain ⟨x, hx⟩ := not_forall.1 hquiet
      have hmove := hs.moves_act hv hc x
      obtain ⟨s', hs', h⟩ := ih (hmove.2.workers hs) (State.goTo_code_self ..) hx
      exact ⟨s', .head hmove hs', h⟩
  | test c f p q ihp ihq =>
      intro s hs hc hquiet
      obtain ⟨x, hx⟩ := not_forall.1 hquiet
      cases hb : c x s.data with
      | true =>
          have hmove := hs.moves_test_true hv hc hb
          have hp : ¬ Quiet Q p (f x s.data) := fun hp => hx (by simp [hb, hp])
          obtain ⟨s', hs', h⟩ := ihp (hmove.2.workers hs) (State.goTo_code_self ..) hp
          exact ⟨s', .head hmove hs', h⟩
      | false =>
          have hmove := hs.moves_test_false hv hc hb
          have hq : ¬ Quiet Q q s.data := fun hq => hx (by simp [hb, hq])
          obtain ⟨s', hs', h⟩ := ihq (hmove.2.workers hs) (State.goTo_code_self ..) hq
          exact ⟨s', .head hmove hs', h⟩
  | lock k ih =>
      intro s hs hc _
      exact ⟨s, .refl, of_decide_eq_false (hs.disciplined hv hc).1, Or.inl ⟨k, hc⟩⟩
  | unlock k ih =>
      intro s hs hc hquiet
      have hmove := hs.moves_unlock hv hc
      obtain ⟨s', hs', h⟩ := ih (hmove.2.workers hs) (State.goTo_code_self ..) hquiet
      exact ⟨s', .head hmove hs', h⟩
  | fork u k ih =>
      intro s hs hc _
      exact (hs.disciplined hv hc).elim
  | join u k ih =>
      intro s hs hc _
      exact (hs.disciplined hv hc).elim

/-- **The main thread can come to its end** whatever has happened so far, when its code runs under
the protocol. -/
theorem Good.canEnd {Post : D → (T → Prop) → Prop} {c : Code X D T} :
    ∀ {gone calm : T → Prop} {s : State X D T}, P.Good true Post gone calm s →
      s.code P.main = c → P.CanEnd s := by
  induction c with
  | done => exact fun _ hc => ⟨_, .refl _, hc⟩
  | again =>
      intro gone calm s hs hc
      have hruns := hs.runs
      rw [hc] at hruns
      exact hruns.elim
  | act f k ih =>
      intro gone calm s hs hc
      have hstep : step P.toThreads s (P.main, default) =
          some { s.goTo P.main k with data := f default s.data } := by
        simp only [step, hc]
      exact hs.canEnd_of_step hstep (State.goTo_code_self ..) ih
  | test c f p q ihp ihq =>
      intro gone calm s hs hc
      cases hb : c default s.data with
      | true =>
          have hstep : step P.toThreads s (P.main, default) =
              some { s.goTo P.main p with data := f default s.data } := by
            simp only [step, hc, hb, if_true]
          exact hs.canEnd_of_step hstep (State.goTo_code_self ..) ihp
      | false =>
          have hstep : step P.toThreads s (P.main, default) = some (s.goTo P.main q) := by
            simp only [step, hc, hb, Bool.false_eq_true, if_false]
          exact hs.canEnd_of_step hstep (State.goTo_code_self ..) ihq
  | lock k ih =>
      intro gone calm s hs hc
      have hruns := hs.runs
      rw [hc] at hruns
      have howner : s.owner ≠ some P.main := fun h => absurd (hruns.1 (decide_eq_true h)) (by simp)
      obtain ⟨s₁, hs₁, hfree, -⟩ := exists_free hs.workers howner howner
      rw [← code_main_of_drifts hs₁] at hc
      have hstep : step P.toThreads s₁ (P.main, default) =
          some { s₁.goTo P.main k with owner := some P.main } := by
        simp only [step, hc, hfree, if_true]
      exact .of_drifts hs₁
        ((hs.drifts hs₁).canEnd_of_step hstep (State.goTo_code_self ..) ih)
  | unlock k ih =>
      intro gone calm s hs hc
      have hruns := hs.runs
      rw [hc] at hruns
      have hstep : step P.toThreads s (P.main, default) =
          some { s.goTo P.main k with owner := none } := by
        simp only [step, hc, of_decide_eq_true hruns.1, if_true]
      exact hs.canEnd_of_step hstep (State.goTo_code_self ..) ih
  | fork v k ih =>
      intro gone calm s hs hc
      have hruns := hs.runs
      rw [hc] at hruns
      have hdone := hs.gone v hruns.2.1
      have hstep : step P.toThreads s (P.main, default) =
          some ((s.goTo P.main k).goTo v (P.body v)) := by
        simp only [step, hc, hdone, Code.isDone, if_true]
      refine hs.canEnd_of_step hstep ?_ ih
      rw [State.goTo_code_of_ne hruns.1.symm, State.goTo_code_self]
  | join v k ih =>
      intro gone calm s hs hc
      have hruns := hs.runs
      rw [hc] at hruns
      obtain ⟨hv, hjoin, -⟩ := hruns
      obtain ⟨hflag, hcalm⟩ := hjoin rfl
      obtain ⟨s₁, hs₁, hdone⟩ := exists_exit hv hs.workers rfl hflag fun howner =>
        have h := hs.calm v (hcalm (decide_eq_true howner))
        ⟨h.2.1, h.2.2.1⟩
      rw [← code_main_of_drifts hs₁] at hc
      have hstep : step P.toThreads s₁ (P.main, default) = some (s₁.goTo P.main k) := by
        simp only [step, hc, hdone, Code.isDone, if_true]
      exact .of_drifts hs₁
        ((hs.drifts hs₁).canEnd_of_step hstep (State.goTo_code_self ..) ih)

end Progress

end Good

end Protocol

end Locking
