/-
# The start-up does not get stuck

The nodes in `init_cluster` cannot wait for each other in a circle: the first node that is not
done has been connected by all nodes with lower ids, so it is about to connect to a node with a
higher id, and that node can go on, or waits for a node that can.  When all are done, each pair
of nodes shares one connection (`startup_completes`).
-/
import Oceanliner.Main.Startup

open Function Transition

namespace Oceanliner

variable {n : ℕ}

/-! ### Nobody waits in a circle -/

/-- The node has a step other than a connect that fails. -/
def Proceeds (s : Startup n) (i : Fin n) : Prop :=
  ∃ s', initStep s i = some s' ∧ ¬ Retries s i

section Proceeds

variable {s : Startup n} {i : Fin n}

/-- A node that is not about to connect does not retry. -/
lemma proceeds_of_step {pc : InitCluster n} (hfrom : s.node i = pc)
    (hpc : ∀ j, pc ≠ .connecting j) (h : ∃ s', initStep s i = some s') : Proceeds s i := by
  obtain ⟨s', hs'⟩ := h
  refine ⟨s', hs', ?_⟩
  rintro ⟨j, hj, -⟩
  exact hpc j (hfrom.symm.trans hj)

lemma proceeds_starting (hfrom : s.node i = .starting) : Proceeds s i := by
  refine proceeds_of_step hfrom (by rintro j ⟨⟩) ?_
  simp only [initStep, hfrom]
  exact ⟨_, rfl⟩

lemma proceeds_accepting {k c : ℕ} (hfrom : s.node i = .accepting k) (hc : c ∈ s.backlog i) :
    Proceeds s i := by
  obtain ⟨c', rest, hbacklog⟩ := List.exists_cons_of_ne_nil (List.ne_nil_of_mem hc)
  refine proceeds_of_step hfrom (by rintro j ⟨⟩) ?_
  simp only [initStep, hfrom, hbacklog]
  exact ⟨_, rfl⟩

lemma proceeds_readingId {k c peer : ℕ} {rest : List ℕ} (hfrom : s.node i = .readingId k c)
    (hto : s.toServer c = peer :: rest) : Proceeds s i := by
  refine proceeds_of_step hfrom (by rintro j ⟨⟩) ?_
  simp only [initStep, hfrom, hto]
  split
  · exact ⟨_, rfl⟩
  · exact ⟨_, rfl⟩

lemma proceeds_acking {k c : ℕ} {j : Fin n} (hfrom : s.node i = .acking k c j) :
    Proceeds s i := by
  refine proceeds_of_step hfrom (by rintro j ⟨⟩) ?_
  simp only [initStep, hfrom]
  exact ⟨_, rfl⟩

lemma proceeds_sendingId {j : Fin n} {c : ℕ} (hfrom : s.node i = .sendingId j c) :
    Proceeds s i := by
  refine proceeds_of_step hfrom (by rintro j ⟨⟩) ?_
  simp only [initStep, hfrom]
  split
  · exact ⟨_, rfl⟩
  · exact ⟨_, rfl⟩

lemma proceeds_readingAck {j : Fin n} {c peer : ℕ} {rest : List ℕ}
    (hfrom : s.node i = .readingAck j c) (hback : s.toClient c = peer :: rest) :
    Proceeds s i := by
  refine proceeds_of_step hfrom (by rintro j ⟨⟩) ?_
  simp only [initStep, hfrom, hback]
  split
  · exact ⟨_, rfl⟩
  · exact ⟨_, rfl⟩

lemma proceeds_connecting {j : Fin n} (hfrom : s.node i = .connecting j)
    (hlistens : (s.node j).listens = true) : Proceeds s i := by
  obtain ⟨s', hs'⟩ : ∃ s', initStep s i = some s' := by
    simp only [initStep, hfrom, hlistens, if_true]
    exact ⟨_, rfl⟩
  refine ⟨s', hs', ?_⟩
  rintro ⟨j', hj', hnot⟩
  obtain rfl : j = j' := InitCluster.connecting.inj (hfrom.symm.trans hj')
  exact Bool.false_ne_true (hnot.symm.trans hlistens)

end Proceeds

/-- A node that counts all lower ids has a descriptor for each of them. -/
lemma stored_of_storedCount {s : Startup n} {i j : Fin n} (hcount : storedCount s i = i)
    (hj : j < i) : ∃ c, s.nodeFds i j = some c := by
  have hsub : (Finset.univ.filter fun j => j < i ∧ (s.nodeFds i j).isSome) ⊆ Finset.Iio i := by
    intro j' hj'
    exact Finset.mem_Iio.2 (Finset.mem_filter.1 hj').2.1
  have heq := Finset.eq_of_subset_of_card_le hsub (by rw [Fin.card_Iio]; exact hcount.ge)
  have hmem := heq.symm ▸ Finset.mem_Iio.2 hj
  exact Option.isSome_iff_exists.1 (Finset.mem_filter.1 hmem).2.2

namespace Connecting

variable {s : Startup n} (hs : Connecting s)

include hs

/-- Where a connection waits for the server, somebody can go on. -/
lemma server_proceeds {c : ℕ} {i j : Fin n} (hends : s.ends c = some (i, j))
    (hwaits : Unanswered s c i j) : ∃ a, Proceeds s a := by
  have hlt := hs.lt c i j hends
  have hfits := hs.fits j
  -- a node that has accepted all its connections has answered this one
  have hanswered : storedCount s j ≠ j := by
    intro hcount
    obtain ⟨c', hc'⟩ := stored_of_storedCount hcount hlt
    rw [hwaits.unstored] at hc'
    cases hc'
  cases hfrom : s.node j with
  | starting => exact absurd hends (hs.unconnected hfrom c i)
  | accepting k =>
      refine ⟨j, proceeds_accepting hfrom (hwaits.waits.resolve_right ?_)⟩
      rintro ⟨k', hk'⟩
      rw [hfrom] at hk'
      cases hk'
  | readingId k c' =>
      rw [hfrom] at hfits
      obtain ⟨-, -, -, a, ha, hnone⟩ := hfits
      cases hs.stage c' a j ha with
      | connected h₁ => exact ⟨a, proceeds_sendingId h₁⟩
      | introduced _ _ h₃ => exact ⟨j, proceeds_readingId hfrom h₃⟩
      | identified _ h₂ =>
          rw [hfrom] at h₂
          cases h₂
      | acknowledged _ h₂ =>
          rw [hnone] at h₂
          cases h₂
      | paired _ _ h₃ =>
          rw [hnone] at h₃
          cases h₃
  | acking k c' a => exact ⟨j, proceeds_acking hfrom⟩
  | connecting a =>
      rw [hfrom] at hfits
      exact absurd hfits.1 hanswered
  | sendingId a c' =>
      rw [hfrom] at hfits
      exact absurd hfits.1 hanswered
  | readingAck a c' =>
      rw [hfrom] at hfits
      exact absurd hfits.1 hanswered
  | done =>
      rw [hfrom] at hfits
      exact absurd hfits hanswered
  | failed =>
      rw [hfrom] at hfits
      exact absurd hfits id

/-- The nodes with lower ids being done, a node has accepted their connections. -/
lemma stored_of_done {i j : Fin n} (hj : s.node j = .done) (hlt : j < i) :
    ∃ c, s.ends c = some (j, i) ∧ s.nodeFds j i = some c ∧ s.nodeFds i j = some c := by
  obtain ⟨c, hc⟩ := hs.reached j i hlt (by rw [hj]; trivial)
  refine ⟨c, hc, ?_⟩
  cases hs.stage c j i hc with
  | paired _ h₂ h₃ => exact ⟨h₂, h₃⟩
  | connected h₁ =>
      rw [hj] at h₁
      cases h₁
  | introduced h₁ =>
      rw [hj] at h₁
      cases h₁
  | identified h₁ =>
      rw [hj] at h₁
      cases h₁
  | acknowledged h₁ =>
      rw [hj] at h₁
      cases h₁

lemma storedCount_of_lower_done {i : Fin n} (hlower : ∀ j < i, s.node j = .done) :
    storedCount s i = i := by
  rw [storedCount, ← Fin.card_Iio i]
  congr 1
  ext j
  rw [Finset.mem_filter, Finset.mem_Iio]
  constructor
  · exact fun h => h.2.1
  · intro hj
    obtain ⟨c, -, -, hc⟩ := hs.stored_of_done (hlower j hj) hj
    exact ⟨Finset.mem_univ j, hj, Option.isSome_iff_exists.2 ⟨c, hc⟩⟩

/-- The first node that is not done can go on, or a node it waits for can. -/
theorem proceeds {i : Fin n} (hi : s.node i ≠ .done) (hlower : ∀ j < i, s.node j = .done) :
    ∃ a, Proceeds s a := by
  have hcount := hs.storedCount_of_lower_done hlower
  have hfits := hs.fits i
  cases hfrom : s.node i with
  | starting => exact ⟨i, proceeds_starting hfrom⟩
  | accepting k =>
      rw [hfrom] at hfits
      obtain ⟨hk, hlt⟩ := hfits
      omega
  | readingId k c =>
      rw [hfrom] at hfits
      obtain ⟨hk, hlt, -⟩ := hfits
      omega
  | acking k c j => exact ⟨i, proceeds_acking hfrom⟩
  | connecting j =>
      cases hlistens : (s.node j).listens with
      | true => exact ⟨i, proceeds_connecting hfrom hlistens⟩
      | false =>
          have hfitsj := hs.fits j
          rw [hfrom] at hfits
          cases hj : s.node j with
          | starting => exact ⟨j, proceeds_starting hj⟩
          | done =>
              -- it has accepted all its connections, but this one has not been made
              rw [hj] at hfitsj
              obtain ⟨c, hc⟩ := stored_of_storedCount hfitsj hfits.2
              exact absurd (hs.stored i j c hfits.2 hc).1 (hs.no_connection hfrom c)
          | failed =>
              rw [hj] at hfitsj
              exact absurd hfitsj id
          | _ =>
              rw [hj] at hlistens
              cases hlistens
  | sendingId j c => exact ⟨i, proceeds_sendingId hfrom⟩
  | readingAck j c =>
      rw [hfrom] at hfits
      cases hs.stage c i j hfits.2 with
      | connected h₁ =>
          rw [hfrom] at h₁
          cases h₁
      | introduced _ h₂ => exact hs.server_proceeds hfits.2 h₂
      | identified _ h₂ => exact ⟨j, proceeds_acking h₂⟩
      | acknowledged _ _ _ h₄ => exact ⟨i, proceeds_readingAck hfrom h₄⟩
      | paired h₁ =>
          rw [hfrom] at h₁
          exact absurd h₁ (lt_irrefl j)
  | done => exact absurd hfrom hi
  | failed =>
      rw [hfrom] at hfits
      exact absurd hfits id

end Connecting

/-- Nodes `i` and `j` have the two ends of one connection, the only one between them. -/
def Paired (s : Startup n) (i j : Fin n) : Prop :=
  ∃ c, s.ends c = some (min i j, max i j) ∧ s.nodeFds i j = some c ∧ s.nodeFds j i = some c ∧
    ∀ c', s.ends c' = some (i, j) ∨ s.ends c' = some (j, i) → c' = c

lemma Paired.symm {s : Startup n} {i j : Fin n} (h : Paired s i j) : Paired s j i := by
  obtain ⟨c, hends, hi, hj, honly⟩ := h
  exact ⟨c, by rw [min_comm, max_comm]; exact hends, hj, hi, fun c' hc' => honly c' hc'.symm⟩

lemma Connecting.paired {s : Startup n} (hs : Connecting s) {i j : Fin n} (hlt : i < j)
    (hi : s.node i = .done) : Paired s i j := by
  obtain ⟨c, hends, hclient, hserver⟩ := hs.stored_of_done hi hlt
  refine ⟨c, ?_, hclient, hserver, ?_⟩
  · rw [min_eq_left hlt.le, max_eq_right hlt.le]
    exact hends
  · rintro c' (hc' | hc')
    · exact hs.unique c' c _ hc' hends
    · exact absurd (hs.lt c' j i hc') hlt.le.not_gt

/-- **The start-up does not get stuck, and pairs the nodes.**  For every number of nodes that
`num_nodes` can hold, in every state that their steps in `init_cluster` reach, in any
interleaving: as long as some node is not done, some node has a step other than a connect that
fails; and when all nodes are done, any two of them have the two ends of one connection, the
only one between them. -/
theorem startup_completes (hn : n < 2 ^ 8) {is : List (Fin n)} {s : Startup n}
    (hrun : run initStep (Startup.start n) is = some s) :
    ((∃ i, s.node i ≠ .done) → ∃ i, Proceeds s i) ∧
      ((∀ i, s.node i = .done) → ∀ i j, i ≠ j → Paired s i j) := by
  have hs : Connecting s :=
    run_invariant (fun _ _ _ hs h => hs.step hn h) (connecting_start n) hrun
  constructor
  · rintro ⟨i, hi⟩
    have hne : (Finset.univ.filter fun i => s.node i ≠ .done).Nonempty :=
      ⟨i, Finset.mem_filter.2 ⟨Finset.mem_univ i, hi⟩⟩
    obtain ⟨a, ha⟩ := Finset.exists_minimal hne
    refine hs.proceeds (i := a) (Finset.mem_filter.1 ha.1).2 fun j hj => ?_
    by_contra hdone
    exact hj.not_ge (ha.2 (Finset.mem_filter.2 ⟨Finset.mem_univ j, hdone⟩) hj.le)
  · intro hdone i j hij
    rcases lt_or_gt_of_ne hij with hlt | hgt
    · exact hs.paired hlt (hdone i)
    · exact (hs.paired hgt (hdone j)).symm

/-- Three nodes, the first of which connects to the second while the third is starting. -/
def startThree {n : ℕ} [NeZero n] : List (Fin n) :=
  [0, 1, 0, 0, 1, 2, 1, 1, 0, 0, 1, 1, 2, 0, 2, 2, 0, 2, 2, 2, 1]

theorem startup_completes_three : ∃ s,
    run initStep (Startup.start 3) startThree = some s ∧ (∀ i, s.node i = .done) ∧
      ∀ i j, i ≠ j → Paired s i j := by
  obtain ⟨s, hrun, hdone⟩ : ∃ s, run initStep (Startup.start 3) startThree = some s ∧
      ∀ i, s.node i = .done := by
    refine ⟨_, rfl, ?_⟩
    decide
  exact ⟨s, hrun, hdone, (startup_completes (by decide) hrun).2 hdone⟩

end Oceanliner
