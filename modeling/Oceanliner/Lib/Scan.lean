/-
# Loops whose distances are not trusted

A loop goes over a buffer with a cursor, as in `Cursor`, but how far the cursor moves is read from
the buffer, whatever is in it, and the sum is reduced as in machine arithmetic.  Its body may leave
the loop.  When no distance is below a positive `d` and no sum is reduced below the limit, the loop
ends after at most `⌈limit / d⌉` iterations (`scan_ends`), and it agrees with the loop over a buffer
that checks what it reads, wherever that one goes through (`scan_of_loop`).
-/
import Oceanliner.Lib.Cursor

namespace Scan

variable {S : Type*}

/-- How a loop has ended, or that it has not yet. -/
inductive Outcome (S : Type*) where
  | ended (s : S) (cursor : ℕ)
  | left
  | running

variable (body : S → ℕ → Option S) (distance wrap : ℕ → ℕ) (limit : ℕ)

/-- `while (cursor < limit)`, and the cursors of its iterations.  A body that is `none` leaves the
loop; `running` is a loop that takes more iterations than `fuel`. -/
def scan : ℕ → S → ℕ → Outcome S × List ℕ
  | 0, s, cursor => (if cursor < limit then .running else .ended s cursor, [])
  | fuel + 1, s, cursor =>
      if cursor < limit then
        match body s cursor with
        | none => (.left, [cursor])
        | some s' =>
            let rest := scan fuel s' (wrap (cursor + distance cursor))
            (rest.1, cursor :: rest.2)
      else (.ended s cursor, [])

section Rules

variable {body distance wrap limit} {fuel c : ℕ} {s s' : S}

lemma scan_of_not_lt (h : ¬ c < limit) :
    scan body distance wrap limit fuel s c = (.ended s c, []) := by
  cases fuel with
  | zero => rw [scan, if_neg h]
  | succ fuel => rw [scan, if_neg h]

lemma scan_of_none (h : c < limit) (hbody : body s c = none) :
    scan body distance wrap limit (fuel + 1) s c = (.left, [c]) := by
  rw [scan, if_pos h, hbody]

lemma scan_of_some (h : c < limit) (hbody : body s c = some s') :
    scan body distance wrap limit (fuel + 1) s c =
      ((scan body distance wrap limit fuel s' (wrap (c + distance c))).1,
        c :: (scan body distance wrap limit fuel s' (wrap (c + distance c))).2) := by
  rw [scan, if_pos h, hbody]

/-- The iterations stand at cursors that meet what the first one meets and every iteration keeps. -/
lemma forall_mem_scan {P : ℕ → Prop} (hstep : ∀ i < limit, P i → P (wrap (i + distance i)))
    (hstart : P c) :
    ∀ i ∈ (scan body distance wrap limit fuel s c).2, i < limit ∧ P i := by
  induction fuel generalizing s c with
  | zero => exact fun i hi => absurd hi List.not_mem_nil
  | succ fuel ih =>
      by_cases hlt : c < limit
      · cases hbody : body s c with
        | none =>
            rw [scan_of_none hlt hbody]
            exact List.forall_mem_singleton.2 ⟨hlt, hstart⟩
        | some s' =>
            rw [scan_of_some hlt hbody]
            exact List.forall_mem_cons.2 ⟨⟨hlt, hstart⟩, ih (hstep c hlt hstart)⟩
      · rw [scan_of_not_lt hlt]
        exact fun i hi => absurd hi List.not_mem_nil

variable (hwrap : ∀ i < limit, wrap (i + distance i) = i + distance i)

include hwrap

/-- **The loop ends.**  With every distance at least `d`, what is left of the buffer bounds the
number of iterations. -/
theorem scan_ends {d : ℕ} (hd : 0 < d) (hdistance : ∀ i < limit, d ≤ distance i)
    (hfuel : (limit - c + (d - 1)) / d ≤ fuel) :
    (scan body distance wrap limit fuel s c).1 ≠ .running ∧
      (scan body distance wrap limit fuel s c).2.length ≤ (limit - c + (d - 1)) / d := by
  induction fuel generalizing s c with
  | zero =>
      have hleft : limit - c + (d - 1) < d := (Nat.div_eq_zero_iff_lt hd).1 (Nat.le_zero.1 hfuel)
      rw [scan_of_not_lt (by omega)]
      exact ⟨nofun, Nat.zero_le _⟩
  | succ fuel ih =>
      by_cases hlt : c < limit
      · have hiteration : 1 ≤ (limit - c + (d - 1)) / d :=
          (Nat.one_le_div_iff hd).2 (by omega)
        cases hbody : body s c with
        | none =>
            rw [scan_of_none hlt hbody]
            exact ⟨nofun, hiteration⟩
        | some s' =>
            -- the cursor moves by at least `d`, so the bound falls by at least one
            have hmove := hdistance c hlt
            have hrest : (limit - (c + distance c) + (d - 1)) / d + 1 ≤
                (limit - c + (d - 1)) / d := by
              rcases Nat.lt_or_ge (c + distance c) limit with hmore | hlast
              · rw [← Nat.add_div_right _ hd]
                exact Nat.div_le_div_right (by omega)
              · have hzero : limit - (c + distance c) + (d - 1) < d := by omega
                rwa [Nat.div_eq_of_lt hzero, Nat.zero_add]
            obtain ⟨hends, hlength⟩ := ih (s := s') (c := c + distance c) (by omega)
            rw [scan_of_some hlt hbody, hwrap c hlt]
            refine ⟨hends, ?_⟩
            rw [List.length_cons]
            omega
      · rw [scan_of_not_lt hlt]
        exact ⟨nofun, Nat.zero_le _⟩

/-- Where a loop that checks what it reads goes through, the loop that does not check ends at the
same cursor, in a related state. -/
theorem scan_of_loop {T : Type*} {checked : T → ℕ → Option (T × ℕ)} {P : T → S → Prop}
    (hbody : ∀ t s c q, c < limit → P t s → checked t c = some q →
      q.2 = distance c ∧ ∃ s', body s c = some s' ∧ P q.1 s')
    {t t' : T} {c' : ℕ} (hP : P t s) (h : Cursor.loop checked limit fuel t c = some (t', c')) :
    ∃ s', (scan body distance wrap limit fuel s c).1 = .ended s' c' ∧ P t' s' := by
  induction fuel generalizing t s c with
  | zero =>
      rw [Cursor.loop] at h
      split at h
      · cases h
      · rename_i hlt
        obtain ⟨rfl, rfl⟩ := Prod.mk.inj (Option.some.inj h)
        exact ⟨s, by rw [scan_of_not_lt hlt], hP⟩
  | succ fuel ih =>
      rw [Cursor.loop] at h
      split at h
      · rename_i hlt
        obtain ⟨q, hq, hrest⟩ := Option.bind_eq_some_iff.1 h
        obtain ⟨hdistance, s₁, hs₁, hP₁⟩ := hbody t s c q hlt hP hq
        rw [hdistance] at hrest
        rw [scan_of_some hlt hs₁, hwrap c hlt]
        exact ih hP₁ hrest
      · rename_i hlt
        obtain ⟨rfl, rfl⟩ := Prod.mk.inj (Option.some.inj h)
        exact ⟨s, by rw [scan_of_not_lt hlt], hP⟩

end Rules

end Scan
