/-
# Linearizability

A history is what the clients of an object see: their calls, and the answers to them.  It is
linearizable when the answers are those of a sequential execution of the calls that does not
contradict the order in time: an operation that was answered before another one was called
comes before it.

`Service` is an object with a queue of calls for each lane: calls queue up in their lane, the
oldest call of a lane takes effect at some point, and the effects of a lane are answered in their
order.  The lanes run side by side.  Whatever they do, the history is linearizable, in the order
in which the operations have taken effect.
-/
import Oceanliner.Lib.Transition

open Transition

namespace Linearizability

variable {I O R S L : Type*}

/-! ### Histories -/

/-- What a client sees: it calls an operation, or gets an answer. -/
inductive Event (I O R : Type*) where
  | invoke (i : I) (op : O)
  | respond (i : I) (r : R)
deriving DecidableEq

/-- An operation of a sequential execution, with its result. -/
structure Completed (I O R : Type*) where
  id : I
  op : O
  result : R

/-- The calls of a history. -/
def calls (h : List (Event I O R)) : List I :=
  h.filterMap fun e => match e with
    | .invoke i _ => some i
    | .respond _ _ => none

/-- The answers of a history. -/
def answers (h : List (Event I O R)) : List I :=
  h.filterMap fun e => match e with
    | .invoke _ _ => none
    | .respond i _ => some i

/-- Nothing is called twice or answered twice, and answers come after calls. -/
structure Proper (h : List (Event I O R)) : Prop where
  calls_nodup : (calls h).Nodup
  answers_nodup : (answers h).Nodup
  called : ∀ earlier later i r, h = earlier ++ .respond i r :: later → i ∈ calls earlier

/-- The answer to `i` comes before the call of `j`. -/
def Precedes (h : List (Event I O R)) (i j : I) : Prop :=
  ∃ earlier later r, h = earlier ++ .respond i r :: later ∧ j ∈ calls later

/-- The results are those of the operations, one after the other. -/
def Legal (spec : S → O → S × R) : S → List (Completed I O R) → Prop
  | _, [] => True
  | s, c :: cs => c.result = (spec s c.op).2 ∧ Legal spec (spec s c.op).1 cs

/-- The object after the operations. -/
def final (spec : S → O → S × R) (s : S) (cs : List (Completed I O R)) : S :=
  cs.foldl (fun s c => (spec s c.op).1) s

/-- The sequential execution `cs` explains the history. -/
structure Explains (spec : S → O → S × R) (s : S) (h : List (Event I O R))
    (cs : List (Completed I O R)) : Prop where
  nodup : (cs.map Completed.id).Nodup
  called : ∀ c ∈ cs, .invoke c.id c.op ∈ h
  answered : ∀ i r, .respond i r ∈ h → ∃ c ∈ cs, c.id = i ∧ c.result = r
  legal : Legal spec s cs
  order : ∀ i j, Precedes h i j → j ∈ cs.map Completed.id →
    ∃ earlier later, cs.map Completed.id = earlier ++ i :: later ∧ j ∈ later

/-- Some sequential execution explains the history. -/
def Linearizable (spec : S → O → S × R) (s : S) (h : List (Event I O R)) : Prop :=
  ∃ cs, Explains spec s h cs

lemma nodup_append_singleton {l : List I} (hl : l.Nodup) {i : I} (hi : i ∉ l) :
    (l ++ [i]).Nodup := by
  rw [← List.concat_eq_append]
  exact hl.concat hi

@[simp] lemma calls_invoke (h : List (Event I O R)) (i : I) (op : O) :
    calls (h ++ [.invoke i op]) = calls h ++ [i] := by
  simp [calls]

@[simp] lemma calls_respond (h : List (Event I O R)) (i : I) (r : R) :
    calls (h ++ [.respond i r]) = calls h := by
  simp [calls]

@[simp] lemma answers_invoke (h : List (Event I O R)) (i : I) (op : O) :
    answers (h ++ [.invoke i op]) = answers h := by
  simp [answers]

@[simp] lemma answers_respond (h : List (Event I O R)) (i : I) (r : R) :
    answers (h ++ [.respond i r]) = answers h ++ [i] := by
  simp [answers]

lemma mem_calls {h : List (Event I O R)} {i : I} : i ∈ calls h ↔ ∃ op, .invoke i op ∈ h := by
  rw [calls, List.mem_filterMap]
  constructor
  · rintro ⟨e, he, hi⟩
    cases e with
    | invoke j op =>
        obtain rfl := Option.some.inj hi
        exact ⟨op, he⟩
    | respond j r => cases hi
  · rintro ⟨op, hop⟩
    exact ⟨_, hop, rfl⟩

lemma mem_answers {h : List (Event I O R)} {i : I} :
    i ∈ answers h ↔ ∃ r, .respond i r ∈ h := by
  rw [answers, List.mem_filterMap]
  constructor
  · rintro ⟨e, he, hi⟩
    cases e with
    | invoke j op => cases hi
    | respond j r =>
        obtain rfl := Option.some.inj hi
        exact ⟨r, he⟩
  · rintro ⟨r, hr⟩
    exact ⟨_, hr, rfl⟩

/-- An answer in a longer history is in the shorter one, or it is the new event. -/
lemma split_concat {h earlier later : List (Event I O R)} {e e' : Event I O R}
    (heq : h ++ [e'] = earlier ++ e :: later) :
    (h = earlier ∧ e' = e ∧ later = []) ∨ ∃ later', later = later' ++ [e'] ∧
      h = earlier ++ e :: later' := by
  rcases List.eq_nil_or_concat later with rfl | ⟨later', e'', rfl⟩
  · obtain ⟨rfl, he⟩ := List.append_inj' heq rfl
    exact .inl ⟨rfl, List.singleton_inj.1 he, rfl⟩
  · rw [List.concat_eq_append, ← List.cons_append, ← List.append_assoc] at heq
    obtain ⟨rfl, he⟩ := List.append_inj' heq rfl
    obtain rfl := List.singleton_inj.1 he
    exact .inr ⟨later', by rw [List.concat_eq_append], rfl⟩

lemma Precedes.mem_answers {h : List (Event I O R)} {i j : I} (hij : Precedes h i j) :
    i ∈ answers h := by
  obtain ⟨earlier, later, r, rfl, -⟩ := hij
  exact Linearizability.mem_answers.2 ⟨r, by simp⟩

/-- A call adds only that it comes after all answers. -/
lemma Precedes.of_invoke {h : List (Event I O R)} {i j k : I} {op : O}
    (hij : Precedes (h ++ [.invoke k op]) i j) : Precedes h i j ∨ j = k ∧ i ∈ answers h := by
  obtain ⟨earlier, later, r, heq, hj⟩ := hij
  rcases split_concat heq with ⟨-, ⟨⟩, -⟩ | ⟨later, rfl, rfl⟩
  rw [calls_invoke, List.mem_append, List.mem_singleton] at hj
  rcases hj with hj | rfl
  · exact .inl ⟨earlier, later, r, rfl, hj⟩
  · exact .inr ⟨rfl, Linearizability.mem_answers.2 ⟨r, by simp⟩⟩

/-- An answer comes before no call. -/
lemma Precedes.of_respond {h : List (Event I O R)} {i j k : I} {r : R}
    (hij : Precedes (h ++ [.respond k r]) i j) : Precedes h i j := by
  obtain ⟨earlier, later, r', heq, hj⟩ := hij
  rcases split_concat heq with ⟨-, -, rfl⟩ | ⟨later, rfl, rfl⟩
  · cases hj
  · rw [calls_respond] at hj
    exact ⟨earlier, later, r', rfl, hj⟩

namespace Proper

variable {h : List (Event I O R)}

lemma nil : Proper ([] : List (Event I O R)) where
  calls_nodup := List.nodup_nil
  answers_nodup := List.nodup_nil
  called := by
    intro earlier later i r heq
    cases earlier <;> cases heq

lemma invoke (hh : Proper h) {i : I} (hi : i ∉ calls h) (op : O) :
    Proper (h ++ [.invoke i op]) where
  calls_nodup := by
    rw [calls_invoke]
    exact nodup_append_singleton hh.calls_nodup hi
  answers_nodup := by
    rw [answers_invoke]
    exact hh.answers_nodup
  called := by
    intro earlier later j r heq
    rcases split_concat heq with ⟨-, ⟨⟩, -⟩ | ⟨later', -, hold⟩
    exact hh.called earlier later' j r hold

lemma respond (hh : Proper h) {i : I} (hcalled : i ∈ calls h) (hi : i ∉ answers h) (r : R) :
    Proper (h ++ [.respond i r]) where
  calls_nodup := by
    rw [calls_respond]
    exact hh.calls_nodup
  answers_nodup := by
    rw [answers_respond]
    exact nodup_append_singleton hh.answers_nodup hi
  called := by
    intro earlier later j r' heq
    rcases split_concat heq with ⟨rfl, ⟨⟩, -⟩ | ⟨later', -, hold⟩
    · exact hcalled
    · exact hh.called earlier later' j r' hold

end Proper

section Explains

variable {spec : S → O → S × R} {s : S} {h : List (Event I O R)} {cs : List (Completed I O R)}

lemma final_concat (spec : S → O → S × R) (s : S) (cs : List (Completed I O R))
    (c : Completed I O R) : final spec s (cs ++ [c]) = (spec (final spec s cs) c.op).1 := by
  rw [final, List.foldl_append]
  rfl

lemma Legal.concat (hcs : Legal spec s cs) {c : Completed I O R}
    (hc : c.result = (spec (final spec s cs) c.op).2) : Legal spec s (cs ++ [c]) := by
  induction cs generalizing s with
  | nil => exact ⟨hc, trivial⟩
  | cons c' cs ih => exact ⟨hcs.1, ih hcs.2 hc⟩

namespace Explains

lemma nil (spec : S → O → S × R) (s : S) :
    Explains spec s ([] : List (Event I O R)) [] where
  nodup := List.nodup_nil
  called := by rintro c ⟨⟩
  answered := by rintro i r ⟨⟩
  legal := trivial
  order := by rintro i j - ⟨⟩

/-- A new call does not matter as long as it has not taken effect. -/
lemma invoke (hh : Explains spec s h cs) {i : I} (hi : i ∉ calls h) (op : O) :
    Explains spec s (h ++ [.invoke i op]) cs where
  nodup := hh.nodup
  called := fun c hc => List.mem_append_left _ (hh.called c hc)
  answered := by
    intro j r hr
    rcases List.mem_append.1 hr with hr | hr
    · exact hh.answered j r hr
    · cases List.mem_singleton.1 hr
  legal := hh.legal
  order := by
    intro j k hjk hk
    rcases hjk.of_invoke with hjk | ⟨rfl, -⟩
    · exact hh.order j k hjk hk
    · obtain ⟨c, hc, rfl⟩ := List.mem_map.1 hk
      exact absurd (mem_calls.2 ⟨c.op, hh.called c hc⟩) hi

/-- A call that has not taken effect takes effect now. -/
lemma effect (hh : Explains spec s h cs) {c : Completed I O R}
    (hc : .invoke c.id c.op ∈ h) (hfresh : c.id ∉ cs.map Completed.id)
    (hresult : c.result = (spec (final spec s cs) c.op).2) :
    Explains spec s h (cs ++ [c]) where
  nodup := by
    rw [List.map_append, List.map_singleton]
    exact nodup_append_singleton hh.nodup hfresh
  called := by
    intro c' hc'
    rcases List.mem_append.1 hc' with hc' | hc'
    · exact hh.called c' hc'
    · obtain rfl := List.mem_singleton.1 hc'
      exact hc
  answered := by
    intro i r hr
    obtain ⟨c', hc', hid⟩ := hh.answered i r hr
    exact ⟨c', List.mem_append_left _ hc', hid⟩
  legal := hh.legal.concat hresult
  order := by
    intro i j hij hj
    rw [List.map_append, List.map_singleton] at hj ⊢
    rcases List.mem_append.1 hj with hj | hj
    · obtain ⟨earlier, later, heq, hlater⟩ := hh.order i j hij hj
      refine ⟨earlier, later ++ [c.id], ?_, List.mem_append_left _ hlater⟩
      rw [heq, List.append_assoc, List.cons_append]
    · -- what has been answered took effect before
      obtain ⟨r, hr⟩ := mem_answers.1 hij.mem_answers
      obtain ⟨c', hc', rfl, -⟩ := hh.answered i r hr
      obtain ⟨earlier, later, heq⟩ := List.append_of_mem (List.mem_map_of_mem hc')
      refine ⟨earlier, later ++ [c.id], ?_, List.mem_append_right _ hj⟩
      rw [heq, List.append_assoc, List.cons_append]

/-- What has taken effect is answered with its result. -/
lemma respond (hh : Explains spec s h cs) {c : Completed I O R} (hc : c ∈ cs) :
    Explains spec s (h ++ [.respond c.id c.result]) cs where
  nodup := hh.nodup
  called := fun c' hc' => List.mem_append_left _ (hh.called c' hc')
  answered := by
    intro i r hr
    rcases List.mem_append.1 hr with hr | hr
    · exact hh.answered i r hr
    · obtain ⟨rfl, rfl⟩ := Event.respond.inj (List.mem_singleton.1 hr)
      exact ⟨c, hc, rfl, rfl⟩
  legal := hh.legal
  order := fun i j hij hj => hh.order i j hij.of_respond hj

end Explains

end Explains

/-! ### Services with lanes -/

/-- An object with the calls that wait in each lane, and what has taken effect in it and has not
been answered; and all that has been called. -/
structure Service (I O R S L : Type*) where
  object : S
  called : List I
  waiting : L → List (I × O)
  unanswered : L → List (Completed I O R)

/-- What happens at a service: a call, or the oldest call of a lane takes effect, or the oldest
effect of a lane is answered. -/
inductive Move (I O L : Type*) where
  | invoke (i : I) (op : O)
  | effect (l : L)
  | respond (l : L)

namespace Service

variable [DecidableEq L] (lane : I → L) (spec : S → O → S × R)

/-- A service that has not been called. -/
def start (s : S) : Service I O R S L where
  object := s
  called := []
  waiting := fun _ => []
  unanswered := fun _ => []

/-- The service after a call. -/
def afterInvoke (σ : Service I O R S L) (i : I) (op : O) : Service I O R S L :=
  { σ with
    called := σ.called ++ [i]
    waiting := Function.update σ.waiting (lane i) (σ.waiting (lane i) ++ [(i, op)]) }

/-- The service after the oldest call of a lane has taken effect. -/
def afterEffect (σ : Service I O R S L) (l : L) (i : I) (op : O) (rest : List (I × O)) :
    Service I O R S L :=
  { σ with
    object := (spec σ.object op).1
    waiting := Function.update σ.waiting l rest
    unanswered := Function.update σ.unanswered l
      (σ.unanswered l ++ [⟨i, op, (spec σ.object op).2⟩]) }

/-- The service after the oldest effect of a lane has been answered. -/
def afterRespond (σ : Service I O R S L) (l : L) (rest : List (Completed I O R)) :
    Service I O R S L :=
  { σ with unanswered := Function.update σ.unanswered l rest }

/-- A move of the service. -/
def step [DecidableEq I] (σ : Service I O R S L) : Move I O L → Option (Service I O R S L)
  | .invoke i op => if i ∈ σ.called then none else some (σ.afterInvoke lane i op)
  | .effect l =>
      match σ.waiting l with
      | [] => none
      | (i, op) :: rest => some (σ.afterEffect spec l i op rest)
  | .respond l =>
      match σ.unanswered l with
      | [] => none
      | _ :: rest => some (σ.afterRespond l rest)

/-- What the clients see of a move. -/
def emit (σ : Service I O R S L) : Move I O L → List (Event I O R)
  | .invoke i op => [.invoke i op]
  | .effect _ => []
  | .respond l =>
      match σ.unanswered l with
      | [] => []
      | c :: _ => [.respond c.id c.result]

/-- What has taken effect, in that order, explains the history. -/
structure Explained (s : S) (σ : Service I O R S L) (h : List (Event I O R))
    (cs : List (Completed I O R)) : Prop where
  proper : Proper h
  explains : Explains spec s h cs
  object : σ.object = final spec s cs
  called : σ.called = calls h
  waiting : ∀ l, ∀ p ∈ σ.waiting l, lane p.1 = l ∧ .invoke p.1 p.2 ∈ h ∧
    p.1 ∉ cs.map Completed.id
  waiting_nodup : ∀ l, ((σ.waiting l).map Prod.fst).Nodup
  unanswered : ∀ l, ∀ c ∈ σ.unanswered l, lane c.id = l ∧ c ∈ cs ∧ c.id ∉ answers h
  unanswered_nodup : ∀ l, ((σ.unanswered l).map Completed.id).Nodup

section Moves

variable {lane spec}

lemma waiting_afterInvoke_self (σ : Service I O R S L) {i : I} (op : O) {l : L} (hl : lane i = l) :
    (σ.afterInvoke lane i op).waiting l = σ.waiting l ++ [(i, op)] := by
  subst hl
  simp [afterInvoke]

lemma waiting_afterInvoke_of_ne (σ : Service I O R S L) {i : I} (op : O) {l : L}
    (hl : l ≠ lane i) : (σ.afterInvoke lane i op).waiting l = σ.waiting l := by
  simp [afterInvoke, hl]

lemma waiting_afterEffect_self (σ : Service I O R S L) (l : L) (i : I) (op : O)
    (rest : List (I × O)) : (σ.afterEffect spec l i op rest).waiting l = rest := by
  simp [afterEffect]

lemma waiting_afterEffect_of_ne (σ : Service I O R S L) {l l' : L} (hl : l' ≠ l) (i : I) (op : O)
    (rest : List (I × O)) : (σ.afterEffect spec l i op rest).waiting l' = σ.waiting l' := by
  simp [afterEffect, hl]

lemma unanswered_afterEffect_self (σ : Service I O R S L) (l : L) (i : I) (op : O)
    (rest : List (I × O)) : (σ.afterEffect spec l i op rest).unanswered l =
      σ.unanswered l ++ [⟨i, op, (spec σ.object op).2⟩] := by
  simp [afterEffect]

lemma unanswered_afterEffect_of_ne (σ : Service I O R S L) {l l' : L} (hl : l' ≠ l) (i : I)
    (op : O) (rest : List (I × O)) :
    (σ.afterEffect spec l i op rest).unanswered l' = σ.unanswered l' := by
  simp [afterEffect, hl]

lemma unanswered_afterRespond_self (σ : Service I O R S L) (l : L)
    (rest : List (Completed I O R)) : (σ.afterRespond l rest).unanswered l = rest := by
  simp [afterRespond]

lemma unanswered_afterRespond_of_ne (σ : Service I O R S L) {l l' : L} (hl : l' ≠ l)
    (rest : List (Completed I O R)) : (σ.afterRespond l rest).unanswered l' = σ.unanswered l' := by
  simp [afterRespond, hl]

variable [DecidableEq I]

lemma step_effect {σ : Service I O R S L} {l : L} {i : I} {op : O} {rest : List (I × O)}
    (h : σ.waiting l = (i, op) :: rest) :
    step lane spec σ (.effect l) = some (σ.afterEffect spec l i op rest) := by
  rw [step, h]

lemma step_respond {σ : Service I O R S L} {l : L} {c : Completed I O R}
    {rest : List (Completed I O R)} (h : σ.unanswered l = c :: rest) :
    step lane spec σ (.respond l) = some (σ.afterRespond l rest) := by
  rw [step, h]

end Moves

variable {lane spec} {s : S} {σ σ' : Service I O R S L} {h : List (Event I O R)}
  {cs : List (Completed I O R)}

lemma Explained.invoke (hσ : Explained lane spec s σ h cs) {i : I} (hi : i ∉ σ.called) (op : O) :
    Explained lane spec s (σ.afterInvoke lane i op) (h ++ [.invoke i op]) cs := by
  rw [hσ.called] at hi
  have hnew : i ∉ cs.map Completed.id := by
    intro hmem
    obtain ⟨c, hc, rfl⟩ := List.mem_map.1 hmem
    exact hi (mem_calls.2 ⟨c.op, hσ.explains.called c hc⟩)
  have hold : ∀ l, ∀ p ∈ σ.waiting l, lane p.1 = l ∧ .invoke p.1 p.2 ∈ h ++ [.invoke i op] ∧
      p.1 ∉ cs.map Completed.id := by
    intro l p hp
    obtain ⟨hlane, hcalled, hcs⟩ := hσ.waiting l p hp
    exact ⟨hlane, List.mem_append_left _ hcalled, hcs⟩
  exact
    { proper := hσ.proper.invoke hi op
      explains := hσ.explains.invoke hi op
      object := hσ.object
      called := by
        rw [calls_invoke, ← hσ.called]
        rfl
      waiting := by
        intro l p hp
        by_cases hl : l = lane i
        · subst hl
          rw [waiting_afterInvoke_self σ op rfl] at hp
          rcases List.mem_append.1 hp with hp | hp
          · exact hold _ p hp
          · obtain rfl := List.mem_singleton.1 hp
            exact ⟨rfl, by simp, hnew⟩
        · rw [waiting_afterInvoke_of_ne σ op hl] at hp
          exact hold l p hp
      waiting_nodup := by
        intro l
        by_cases hl : l = lane i
        · subst hl
          rw [waiting_afterInvoke_self σ op rfl, List.map_append, List.map_singleton]
          refine nodup_append_singleton (hσ.waiting_nodup _) fun hmem => ?_
          obtain ⟨p, hp, rfl⟩ := List.mem_map.1 hmem
          exact hi (mem_calls.2 ⟨p.2, (hσ.waiting _ p hp).2.1⟩)
        · rw [waiting_afterInvoke_of_ne σ op hl]
          exact hσ.waiting_nodup l
      unanswered := by
        intro l c hc
        rw [answers_invoke]
        exact hσ.unanswered l c hc
      unanswered_nodup := hσ.unanswered_nodup }

lemma Explained.effect (hσ : Explained lane spec s σ h cs) {l : L} {i : I} {op : O}
    {rest : List (I × O)} (hl : σ.waiting l = (i, op) :: rest) :
    Explained lane spec s (σ.afterEffect spec l i op rest) h
      (cs ++ [⟨i, op, (spec σ.object op).2⟩]) := by
  obtain ⟨hlane, hcalled, hcs⟩ : lane i = l ∧ .invoke i op ∈ h ∧ i ∉ cs.map Completed.id :=
    hσ.waiting l (i, op) (by rw [hl]; exact List.mem_cons_self)
  have hnodup : i ∉ rest.map Prod.fst ∧ (rest.map Prod.fst).Nodup := by
    have hall := hσ.waiting_nodup l
    rw [hl, List.map_cons] at hall
    exact List.nodup_cons.1 hall
  -- what waits in any lane is something else
  have hother : ∀ l', ∀ p ∈ (σ.afterEffect spec l i op rest).waiting l',
      p ∈ σ.waiting l' ∧ p.1 ≠ i := by
    intro l' p hp
    by_cases hl' : l' = l
    · subst hl'
      rw [waiting_afterEffect_self] at hp
      refine ⟨by rw [hl]; exact List.mem_cons_of_mem _ hp, ?_⟩
      rintro rfl
      exact hnodup.1 (List.mem_map_of_mem hp)
    · rw [waiting_afterEffect_of_ne σ hl'] at hp
      refine ⟨hp, ?_⟩
      rintro rfl
      exact hl' ((hσ.waiting l' p hp).1.symm.trans hlane)
  have hnew : i ∉ answers h := by
    intro hmem
    obtain ⟨r, hr⟩ := mem_answers.1 hmem
    obtain ⟨c, hc, rfl, -⟩ := hσ.explains.answered i r hr
    exact hcs (List.mem_map_of_mem hc)
  have hold : ∀ l', ∀ c ∈ σ.unanswered l', lane c.id = l' ∧
      c ∈ cs ++ [⟨i, op, (spec σ.object op).2⟩] ∧ c.id ∉ answers h := by
    intro l' c hc
    obtain ⟨hlane', hcs', hanswers⟩ := hσ.unanswered l' c hc
    exact ⟨hlane', List.mem_append_left _ hcs', hanswers⟩
  have hresult : (spec σ.object op).2 = (spec (final spec s cs) op).2 := by rw [hσ.object]
  exact
    { proper := hσ.proper
      explains := hσ.explains.effect hcalled hcs hresult
      object := by
        rw [final_concat, ← hσ.object]
        rfl
      called := hσ.called
      waiting := by
        intro l' p hp
        obtain ⟨hp, hne⟩ := hother l' p hp
        obtain ⟨hlane', hcalled', hcs'⟩ := hσ.waiting l' p hp
        refine ⟨hlane', hcalled', ?_⟩
        rw [List.map_append, List.map_singleton, List.mem_append, List.mem_singleton]
        exact not_or.2 ⟨hcs', hne⟩
      waiting_nodup := by
        intro l'
        by_cases hl' : l' = l
        · subst hl'
          rw [waiting_afterEffect_self]
          exact hnodup.2
        · rw [waiting_afterEffect_of_ne σ hl']
          exact hσ.waiting_nodup l'
      unanswered := by
        intro l' c hc
        by_cases hl' : l' = l
        · subst hl'
          rw [unanswered_afterEffect_self] at hc
          rcases List.mem_append.1 hc with hc | hc
          · exact hold _ c hc
          · obtain rfl := List.mem_singleton.1 hc
            exact ⟨hlane, by simp, hnew⟩
        · rw [unanswered_afterEffect_of_ne σ hl'] at hc
          exact hold l' c hc
      unanswered_nodup := by
        intro l'
        by_cases hl' : l' = l
        · subst hl'
          rw [unanswered_afterEffect_self, List.map_append, List.map_singleton]
          refine nodup_append_singleton (hσ.unanswered_nodup _) fun hmem => ?_
          obtain ⟨c, hc, rfl⟩ := List.mem_map.1 hmem
          exact hcs (List.mem_map_of_mem (hσ.unanswered _ c hc).2.1)
        · rw [unanswered_afterEffect_of_ne σ hl']
          exact hσ.unanswered_nodup l' }

lemma Explained.respond (hσ : Explained lane spec s σ h cs) {l : L} {c : Completed I O R}
    {rest : List (Completed I O R)} (hl : σ.unanswered l = c :: rest) :
    Explained lane spec s (σ.afterRespond l rest) (h ++ [.respond c.id c.result]) cs := by
  obtain ⟨hlane, hcs, hanswers⟩ := hσ.unanswered l c (by rw [hl]; exact List.mem_cons_self)
  have hnodup := hσ.unanswered_nodup l
  rw [hl, List.map_cons, List.nodup_cons] at hnodup
  have hother : ∀ l', ∀ c' ∈ (σ.afterRespond l rest).unanswered l',
      c' ∈ σ.unanswered l' ∧ c'.id ≠ c.id := by
    intro l' c' hc'
    by_cases hl' : l' = l
    · subst hl'
      rw [unanswered_afterRespond_self] at hc'
      refine ⟨by rw [hl]; exact List.mem_cons_of_mem _ hc', fun hid => ?_⟩
      exact hnodup.1 (hid ▸ List.mem_map_of_mem hc')
    · rw [unanswered_afterRespond_of_ne σ hl'] at hc'
      refine ⟨hc', fun hid => hl' ?_⟩
      rw [← (hσ.unanswered l' c' hc').1, hid, hlane]
  exact
    { proper := hσ.proper.respond (mem_calls.2 ⟨c.op, hσ.explains.called c hcs⟩) hanswers c.result
      explains := hσ.explains.respond hcs
      object := hσ.object
      called := by
        rw [calls_respond, ← hσ.called]
        rfl
      waiting := by
        intro l' p hp
        obtain ⟨hlane', hcalled', hcs'⟩ := hσ.waiting l' p hp
        exact ⟨hlane', List.mem_append_left _ hcalled', hcs'⟩
      waiting_nodup := hσ.waiting_nodup
      unanswered := by
        intro l' c' hc'
        obtain ⟨hc', hne⟩ := hother l' c' hc'
        obtain ⟨hlane', hcs', hanswers'⟩ := hσ.unanswered l' c' hc'
        refine ⟨hlane', hcs', ?_⟩
        rw [answers_respond, List.mem_append, List.mem_singleton]
        exact not_or.2 ⟨hanswers', hne⟩
      unanswered_nodup := by
        intro l'
        by_cases hl' : l' = l
        · subst hl'
          rw [unanswered_afterRespond_self]
          exact hnodup.2
        · rw [unanswered_afterRespond_of_ne σ hl']
          exact hσ.unanswered_nodup l' }

/-- A move keeps the history explained. -/
lemma Explained.step [DecidableEq I] (hσ : Explained lane spec s σ h cs) {move : Move I O L}
    (hstep : step lane spec σ move = some σ') :
    ∃ cs', Explained lane spec s σ' (h ++ emit σ move) cs' := by
  cases move with
  | invoke i op =>
      rw [Service.step] at hstep
      split at hstep
      · cases hstep
      · rename_i hi
        obtain rfl := Option.some.inj hstep
        exact ⟨cs, hσ.invoke hi op⟩
  | effect l =>
      rw [Service.step] at hstep
      split at hstep
      · cases hstep
      · rename_i i op rest hl
        obtain rfl := Option.some.inj hstep
        rw [emit, List.append_nil]
        exact ⟨_, hσ.effect hl⟩
  | respond l =>
      rw [Service.step] at hstep
      split at hstep
      · cases hstep
      · rename_i c rest hl
        obtain rfl := Option.some.inj hstep
        rw [emit, hl]
        exact ⟨cs, hσ.respond hl⟩

/-- **A service is linearizable.** -/
theorem linearizable [DecidableEq I] {moves : List (Move I O L)}
    (hrun : run (step lane spec) (start s) moves = some σ) :
    Proper (trace (step lane spec) emit (start s) moves) ∧
      Linearizable spec s (trace (step lane spec) emit (start s) moves) := by
  have hstart : Explained lane spec s (start s : Service I O R S L) [] [] :=
    { proper := .nil
      explains := .nil spec s
      object := rfl
      called := rfl
      waiting := by rintro l p ⟨⟩
      waiting_nodup := fun _ => List.nodup_nil
      unanswered := by rintro l c ⟨⟩
      unanswered_nodup := fun _ => List.nodup_nil }
  obtain ⟨cs, hcs⟩ := run_invariant_trace emit
    (I := fun σ h => ∃ cs, Explained lane spec s σ h cs)
    (fun σ shown move σ' hI hmove => by
      obtain ⟨cs, hcs⟩ := hI
      exact hcs.step hmove)
    ⟨[], hstart⟩ hrun
  rw [List.nil_append] at hcs
  exact ⟨hcs.proper, cs, hcs.explains⟩

end Service

end Linearizability
