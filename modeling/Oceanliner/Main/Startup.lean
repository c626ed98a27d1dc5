/-
# The start-up of a cluster

`init_cluster` connects each pair of nodes: every node first accepts a connection from each
node with a lower id, in whatever order they arrive, and then connects to the nodes with higher
ids, one after the other.  On each connection the client sends its id and waits until the
server has sent its own.  This file follows each connection through its stages, and says how
the stages and the places where the nodes stand fit together (`Connecting`).
-/
import Oceanliner.Globals
import Oceanliner.Lib.Transition

open Function Transition

namespace Oceanliner

variable {n : ℕ}

/-- Where a node stands in `init_cluster`: before `listen`; about to accept a connection, with
the number of those handled; with a connection it has accepted, about to read the id of the
peer or to send its own; about to connect to a peer; with the connection, about to send its id
or to read the acknowledgement; at the end, where it has closed its listening socket; or in
`exit`. -/
inductive InitCluster (n : ℕ) where
  | starting
  | accepting (accepted : ℕ)
  | readingId (accepted fd : ℕ)
  | acking (accepted fd : ℕ) (peer : Fin n)
  | connecting (peer : Fin n)
  | sendingId (peer : Fin n) (fd : ℕ)
  | readingAck (peer : Fin n) (fd : ℕ)
  | done
  | failed
deriving DecidableEq

/-- The nodes with their arrays `node_fds`, and the connections between them.  A connection has
a number, which stands for its descriptors at both ends; it joins a client and a server, and
holds the bytes on their way in both directions.  Those that a server has not accepted wait in
its backlog. -/
structure Startup (n : ℕ) where
  node : Fin n → InitCluster n
  nodeFds : Fin n → Fin n → Option ℕ
  backlog : Fin n → List ℕ
  opened : ℕ
  ends : ℕ → Option (Fin n × Fin n)
  toServer : ℕ → List ℕ
  toClient : ℕ → List ℕ
  closed : ℕ → Bool

namespace Startup

/-- All nodes enter `init_cluster`. -/
def start (n : ℕ) : Startup n where
  node := fun _ => .starting
  nodeFds := fun _ _ => none
  backlog := fun _ => []
  opened := 0
  ends := fun _ => none
  toServer := fun _ => []
  toClient := fun _ => []
  closed := fun _ => false

/-- The node `i` has gone on to `pc`. -/
def goTo (s : Startup n) (i : Fin n) (pc : InitCluster n) : Startup n :=
  { s with node := update s.node i pc }

end Startup

/-- A node listens from `listen` on until it closes the socket. -/
def InitCluster.listens : InitCluster n → Bool
  | .starting => false
  | .done => false
  | .failed => false
  | _ => true

/-- The head of the second loop of `init_cluster`. -/
def connectFrom (j : ℕ) : InitCluster n := if h : j < n then .connecting ⟨j, h⟩ else .done

/-- The head of the first loop of `init_cluster`: as many connections are accepted as there are
nodes with lower ids. -/
def acceptFrom (i : Fin n) (accepted : ℕ) : InitCluster n :=
  if accepted < i then .accepting accepted else connectFrom (i + 1)

/-- A step of node `i` in `init_cluster`.  It is not defined for a node that waits, or has
reached its end. -/
def initStep (s : Startup n) (i : Fin n) : Option (Startup n) :=
  match s.node i with
  | .starting => some (s.goTo i (acceptFrom i 0))
  | .accepting k =>
      match s.backlog i with
      | [] => none
      | c :: rest => some ({ s with backlog := update s.backlog i rest }.goTo i (.readingId k c))
  | .readingId k c =>
      match s.toServer c with
      | [] => none
      | peer :: rest =>
          let s := { s with toServer := update s.toServer c rest }
          if h : peer < n ∧ peer < i then some (s.goTo i (.acking k c ⟨peer, h.1⟩))
          else
            -- "Invalid peer ID received", and on to the next connection
            some ({ s with closed := update s.closed c true }.goTo i (acceptFrom i (k + 1)))
  | .acking k c peer =>
      some
        ({ s with
            toClient := update s.toClient c (s.toClient c ++ [u8 i])
            nodeFds := update s.nodeFds i (update (s.nodeFds i) peer (some c)) }.goTo i
          (acceptFrom i (k + 1)))
  | .connecting j =>
      if (s.node j).listens then
        some
          ({ s with
              backlog := update s.backlog j (s.backlog j ++ [s.opened])
              opened := s.opened + 1
              ends := update s.ends s.opened (some (i, j))
              toServer := update s.toServer s.opened []
              toClient := update s.toClient s.opened []
              closed := update s.closed s.opened false }.goTo i (.sendingId j s.opened))
      else some s
  | .sendingId j c =>
      if s.closed c then some (s.goTo i .failed)
      else
        some ({ s with toServer := update s.toServer c (s.toServer c ++ [u8 i]) }.goTo i
          (.readingAck j c))
  | .readingAck j c =>
      match s.toClient c with
      | [] => if s.closed c then some (s.goTo i .failed) else none
      | peer :: rest =>
          let s := { s with toClient := update s.toClient c rest }
          if peer ≠ j then some (s.goTo i .failed)
          else
            some ({ s with nodeFds := update s.nodeFds i (update (s.nodeFds i) j (some c)) }.goTo i
              (connectFrom (j + 1)))
  | .done => none
  | .failed => none

/-- The next step of the node is a connect that fails and is tried again. -/
def Retries (s : Startup n) (i : Fin n) : Prop :=
  ∃ j, s.node i = .connecting j ∧ (s.node j).listens = false

/-! ### How far a connection is -/

/-- The connection that a node is setting up. -/
def InitCluster.fd : InitCluster n → Option ℕ
  | .readingId _ c => some c
  | .acking _ c _ => some c
  | .sendingId _ c => some c
  | .readingAck _ c => some c
  | _ => none

/-- The node has connected to node `j`, and perhaps to others after it. -/
def InitCluster.Past (j : Fin n) : InitCluster n → Prop
  | .connecting j' => j < j'
  | .sendingId j' _ => j < j'
  | .readingAck j' _ => j < j'
  | .done => True
  | _ => False

/-- The number of nodes with lower ids that node `i` has a descriptor for. -/
def storedCount (s : Startup n) (i : Fin n) : ℕ :=
  (Finset.univ.filter fun j => j < i ∧ (s.nodeFds i j).isSome).card

/-- Node `j` has not answered on the connection `c` from node `i`: it waits in the backlog, or
node `j` is about to read the id. -/
structure Unanswered (s : Startup n) (c : ℕ) (i j : Fin n) : Prop where
  unstored : s.nodeFds j i = none
  waits : c ∈ s.backlog j ∨ ∃ k, s.node j = .readingId k c

/-- How far the connection `c` from node `i` to node `j` is. -/
inductive Stage (s : Startup n) (c : ℕ) (i j : Fin n) : Prop where
  | connected (hclient : s.node i = .sendingId j c) (hserver : Unanswered s c i j)
      (hto : s.toServer c = []) (hback : s.toClient c = [])
  | introduced (hclient : s.node i = .readingAck j c) (hserver : Unanswered s c i j)
      (hto : s.toServer c = [u8 i]) (hback : s.toClient c = [])
  | identified {k : ℕ} (hclient : s.node i = .readingAck j c) (hserver : s.node j = .acking k c i)
      (hto : s.toServer c = []) (hback : s.toClient c = [])
  | acknowledged (hclient : s.node i = .readingAck j c) (hserver : s.nodeFds j i = some c)
      (hto : s.toServer c = []) (hback : s.toClient c = [u8 j])
  | paired (hclient : (s.node i).Past j) (hstored : s.nodeFds i j = some c)
      (hserver : s.nodeFds j i = some c) (hto : s.toServer c = [])

/-- What holds of the connections at the place where node `i` stands. -/
def Fits (s : Startup n) (i : Fin n) : InitCluster n → Prop
  | .starting => storedCount s i = 0 ∧ ∀ c j, s.ends c ≠ some (j, i)
  | .accepting k => storedCount s i = k ∧ k < i
  | .readingId k c => storedCount s i = k ∧ k < i ∧ c ∉ s.backlog i ∧
      ∃ j, s.ends c = some (j, i) ∧ s.nodeFds i j = none
  | .acking k c j => storedCount s i = k ∧ k < i ∧ c ∉ s.backlog i ∧ s.ends c = some (j, i) ∧
      s.nodeFds i j = none
  | .connecting j => storedCount s i = i ∧ i < j
  | .sendingId j c => storedCount s i = i ∧ s.ends c = some (i, j)
  | .readingAck j c => storedCount s i = i ∧ s.ends c = some (i, j)
  | .done => storedCount s i = i
  | .failed => False

/-- The nodes that node `i` is past, standing at `pc`, have a connection from it. -/
def Reached (s : Startup n) (i : Fin n) (pc : InitCluster n) : Prop :=
  ∀ j, i < j → pc.Past j → ∃ c, s.ends c = some (i, j)

/-- The nodes and the connections fit together. -/
structure Connecting (s : Startup n) : Prop where
  lt : ∀ c i j, s.ends c = some (i, j) → i < j
  unique : ∀ c c' p, s.ends c = some p → s.ends c' = some p → c = c'
  opened : ∀ c, s.ends c ≠ none → c < s.opened
  closed : ∀ c, s.closed c = false
  nodup : ∀ j, (s.backlog j).Nodup
  queued : ∀ j, ∀ c ∈ s.backlog j, ∃ i, s.ends c = some (i, j)
  stored : ∀ i j c, i < j → s.nodeFds j i = some c → s.ends c = some (i, j) ∧ c ∉ s.backlog j
  reached : ∀ i, Reached s i (s.node i)
  fits : ∀ i, Fits s i (s.node i)
  stage : ∀ c i j, s.ends c = some (i, j) → Stage s c i j

/-! ### The heads of the loops -/

section Heads

variable {s : Startup n} {i j : Fin n} {k : ℕ}

lemma fits_connectFrom {j : ℕ} (hcount : storedCount s i = i) (hj : i < j) :
    Fits s i (connectFrom j) := by
  rw [connectFrom]
  split
  · exact ⟨hcount, hj⟩
  · exact hcount

lemma fits_acceptFrom (hcount : storedCount s i = k) (hk : k ≤ i) :
    Fits s i (acceptFrom i k) := by
  rw [acceptFrom]
  split
  · rename_i hlt
    exact ⟨hcount, hlt⟩
  · exact fits_connectFrom (by omega) (Nat.lt_succ_self _)

lemma past_connectFrom {j' : ℕ} : (connectFrom j' : InitCluster n).Past j ↔ j < j' := by
  rw [connectFrom]
  split
  · rfl
  · have := j.2
    exact iff_of_true trivial (by omega)

lemma not_past_acceptFrom (hij : i < j) : ¬ (acceptFrom i k).Past j := by
  rw [acceptFrom]
  split
  · exact id
  · rw [past_connectFrom]
    have : (i : ℕ) < j := hij
    omega

end Heads

/-! ### What a step of another node leaves alone -/

section Frame

variable {s s' : Startup n} {i j : Fin n} {c : ℕ}

lemma Fits.congr {pc : InitCluster n} (h : Fits s i pc) (hfds : s'.nodeFds i = s.nodeFds i)
    (hends : ∀ c p, s.ends c = some p → s'.ends c = some p)
    (hnew : pc = .starting → ∀ c j, s'.ends c ≠ some (j, i))
    (hbacklog : ∀ c p, s.ends c = some p → c ∈ s'.backlog i → c ∈ s.backlog i) :
    Fits s' i pc := by
  have hcount : storedCount s' i = storedCount s i := by
    rw [storedCount, storedCount, hfds]
  cases pc with
  | starting => exact ⟨hcount.trans h.1, hnew rfl⟩
  | accepting k => exact ⟨hcount.trans h.1, h.2⟩
  | readingId k c =>
      obtain ⟨hk, hlt, hc, j, hj, hnone⟩ := h
      refine ⟨hcount.trans hk, hlt, fun hmem => hc (hbacklog c _ hj hmem), j, hends c _ hj, ?_⟩
      rw [hfds]
      exact hnone
  | acking k c j =>
      obtain ⟨hk, hlt, hc, hj, hnone⟩ := h
      refine ⟨hcount.trans hk, hlt, fun hmem => hc (hbacklog c _ hj hmem), hends c _ hj, ?_⟩
      rw [hfds]
      exact hnone
  | connecting j => exact ⟨hcount.trans h.1, h.2⟩
  | sendingId j c => exact ⟨hcount.trans h.1, hends c _ h.2⟩
  | readingAck j c => exact ⟨hcount.trans h.1, hends c _ h.2⟩
  | done => exact hcount.trans h
  | failed => exact h

lemma Unanswered.congr (h : Unanswered s c i j) (hfds : s'.nodeFds j i = s.nodeFds j i)
    (hbacklog : c ∈ s.backlog j → c ∈ s'.backlog j ∨ ∃ k, s'.node j = .readingId k c)
    (hnode : ∀ k, s.node j = .readingId k c → s'.node j = .readingId k c) :
    Unanswered s' c i j where
  unstored := hfds.trans h.unstored
  waits := h.waits.elim hbacklog fun ⟨k, hk⟩ => .inr ⟨k, hnode k hk⟩

/-- A node `a` that is setting up another connection, or none, goes on. -/
lemma Stage.other {a : Fin n} {pc : InitCluster n} (h : Stage s c i j)
    (hnode : s'.node = update s.node a pc) (hfd : (s.node a).fd ≠ some c)
    (hpast : ∀ j', (s.node a).Past j' → pc.Past j')
    (hbacklog : c ∈ s.backlog j → c ∈ s'.backlog j)
    (hserver : s'.nodeFds j i = s.nodeFds j i) (hclient : s'.nodeFds i j = s.nodeFds i j)
    (hto : s'.toServer c = s.toServer c) (hback : s'.toClient c = s.toClient c) :
    Stage s' c i j := by
  -- a node that sets up `c` is another node, and stays where it is
  have hstay : ∀ b, (s.node b).fd = some c → s'.node b = s.node b := by
    intro b hb
    rw [hnode, update_of_ne]
    rintro rfl
    exact hfd hb
  have hunanswered : Unanswered s c i j → Unanswered s' c i j := by
    intro hun
    refine hun.congr hserver (fun hmem => .inl (hbacklog hmem)) fun k hk => ?_
    rw [hstay j (by rw [hk]; rfl), hk]
  cases h with
  | connected h₁ h₂ h₃ h₄ =>
      refine .connected ?_ (hunanswered h₂) (hto.trans h₃) (hback.trans h₄)
      rw [hstay i (by rw [h₁]; rfl), h₁]
  | introduced h₁ h₂ h₃ h₄ =>
      refine .introduced ?_ (hunanswered h₂) (hto.trans h₃) (hback.trans h₄)
      rw [hstay i (by rw [h₁]; rfl), h₁]
  | @identified k h₁ h₂ h₃ h₄ =>
      refine .identified (k := k) ?_ ?_ (hto.trans h₃) (hback.trans h₄)
      · rw [hstay i (by rw [h₁]; rfl), h₁]
      · rw [hstay j (by rw [h₂]; rfl), h₂]
  | acknowledged h₁ h₂ h₃ h₄ =>
      refine .acknowledged ?_ (hserver.trans h₂) (hto.trans h₃) (hback.trans h₄)
      rw [hstay i (by rw [h₁]; rfl), h₁]
  | paired h₁ h₂ h₃ h₄ =>
      refine .paired ?_ (hclient.trans h₂) (hserver.trans h₃) (hto.trans h₄)
      by_cases hi : i = a
      · subst hi
        rw [hnode, update_self]
        exact hpast j h₁
      · rw [hnode, update_of_ne hi]
        exact h₁

end Frame

lemma update_update_of_ne {β : Type} (f : Fin n → Fin n → β) {i j a b : Fin n} (x : β)
    (h : a = i → b ≠ j) : update f i (update (f i) j x) a b = f a b := by
  by_cases ha : a = i
  · rw [ha, update_self, update_of_ne (h ha)]
  · rw [update_of_ne ha]

lemma update_update_self {β : Type} (f : Fin n → Fin n → β) (i j : Fin n) (x : β) :
    update f i (update (f i) j x) i j = x := by
  rw [update_self, update_self]

/-- What is to be shown of all connections, with the ends of one of them known. -/
lemma forall_ends {ends : ℕ → Option (Fin n × Fin n)} {c : ℕ} {i j : Fin n}
    {P : ℕ → Fin n → Fin n → Prop} (h : ends c = some (i, j)) (hself : P c i j)
    (hother : ∀ c' i' j', c' ≠ c → ends c' = some (i', j') → P c' i' j') :
    ∀ c' i' j', ends c' = some (i', j') → P c' i' j' := by
  intro c' i' j' hends
  by_cases hc : c' = c
  · subst hc
    obtain ⟨rfl, rfl⟩ := Prod.mk.inj (Option.some.inj (h.symm.trans hends))
    exact hself
  · exact hother c' i' j' hc hends

/-- One more node with a lower id has a descriptor. -/
lemma storedCount_succ {s s' : Startup n} {i j : Fin n} {c : ℕ} (hj : j < i)
    (hnone : s.nodeFds i j = none) (hfds : s'.nodeFds i = update (s.nodeFds i) j (some c)) :
    storedCount s' i = storedCount s i + 1 := by
  have hnot : j ∉ Finset.univ.filter fun j' => j' < i ∧ (s.nodeFds i j').isSome := by
    simp [hnone]
  rw [storedCount, storedCount, ← Finset.card_insert_of_notMem hnot]
  congr 1
  ext j'
  by_cases hjj : j' = j
  · simp [hjj, hfds, hj]
  · simp [hjj, hfds]

/-- A descriptor for a node with a higher id does not count. -/
lemma storedCount_update_of_gt {s s' : Startup n} {i j : Fin n} {c : ℕ} (hj : i < j)
    (hfds : s'.nodeFds i = update (s.nodeFds i) j (some c)) :
    storedCount s' i = storedCount s i := by
  rw [storedCount, storedCount, hfds]
  congr 1
  refine Finset.filter_congr fun j' _ => and_congr_right fun hlt => ?_
  rw [update_of_ne (hlt.trans hj).ne]

/-! ### The steps -/

namespace Connecting

variable {s : Startup n} {i : Fin n} (hs : Connecting s)

include hs

/-- Nobody is connected to a node that does not listen yet. -/
lemma unconnected (hfrom : s.node i = .starting) (c : ℕ) (j : Fin n) :
    s.ends c ≠ some (j, i) := by
  have hfits := hs.fits i
  rw [hfrom] at hfits
  exact hfits.2 c j

lemma of_starting (hfrom : s.node i = .starting) : Connecting (s.goTo i (acceptFrom i 0)) := by
  have hfits := hs.fits i
  rw [hfrom] at hfits
  refine { hs with reached := ?_, fits := ?_, stage := ?_ }
  · refine (forall_update_iff s.node (p := Reached _)).2 ⟨?_, fun i' _ => hs.reached i'⟩
    exact fun j hij hpast => absurd hpast (not_past_acceptFrom hij)
  · refine (forall_update_iff s.node (p := Fits _)).2 ⟨?_, fun i' _ => hs.fits i'⟩
    exact fits_acceptFrom hfits.1 (Nat.zero_le _)
  · intro c i' j' hends
    refine (hs.stage c i' j' hends).other rfl ?_ ?_ id rfl rfl rfl rfl
    · rw [hfrom]
      rintro ⟨⟩
    · rw [hfrom]
      rintro j ⟨⟩

lemma of_accepting {k c : ℕ} {rest : List ℕ} (hfrom : s.node i = .accepting k)
    (hbacklog : s.backlog i = c :: rest) :
    Connecting ({ s with backlog := update s.backlog i rest }.goTo i (.readingId k c)) := by
  have hfits := hs.fits i
  rw [hfrom] at hfits
  have hnodup := hs.nodup i
  rw [hbacklog, List.nodup_cons] at hnodup
  have hmem : c ∈ s.backlog i := by
    rw [hbacklog]
    exact List.mem_cons_self
  obtain ⟨a, ha⟩ := hs.queued i c hmem
  have hnone : s.nodeFds i a = none := by
    by_contra hsome
    obtain ⟨c', hc'⟩ := Option.ne_none_iff_exists'.1 hsome
    obtain ⟨hends, hnot⟩ := hs.stored a i c' (hs.lt c a i ha) hc'
    rw [hs.unique c' c _ hends ha] at hnot
    exact hnot hmem
  have hsub : ∀ j c', c' ∈ update s.backlog i rest j → c' ∈ s.backlog j := by
    intro j c' hc'
    by_cases hj : j = i
    · rw [hj, update_self] at hc'
      rw [hj, hbacklog]
      exact List.mem_cons_of_mem _ hc'
    · rwa [update_of_ne hj] at hc'
  refine { hs with nodup := ?_, queued := ?_, stored := ?_, reached := ?_, fits := ?_, stage := ?_ }
  · exact (forall_update_iff s.backlog (p := fun _ l => l.Nodup)).2
      ⟨hnodup.2, fun j _ => hs.nodup j⟩
  · exact fun j c' hc' => hs.queued j c' (hsub j c' hc')
  · intro i' j c' hij hc'
    obtain ⟨hends, hnot⟩ := hs.stored i' j c' hij hc'
    exact ⟨hends, fun hin => hnot (hsub j c' hin)⟩
  · refine (forall_update_iff s.node (p := Reached _)).2 ⟨?_, fun i' _ => hs.reached i'⟩
    rintro j - ⟨⟩
  · refine (forall_update_iff s.node (p := Fits _)).2
      ⟨⟨hfits.1, hfits.2, ?_, a, ha, hnone⟩, ?_⟩
    · show c ∉ update s.backlog i rest i
      rw [update_self]
      exact hnodup.1
    · intro i' _
      exact (hs.fits i').congr rfl (fun _ _ h => h) hs.unconnected fun c' _ _ => hsub i' c'
  · refine forall_ends ha ?_ fun c' i' j' hc hends => ?_
    · have hlt := hs.lt c a i ha
      have hunanswered : Unanswered s c a i → Unanswered
          ({ s with backlog := update s.backlog i rest }.goTo i (.readingId k c)) c a i :=
        fun h => ⟨h.unstored, .inr ⟨k, update_self ..⟩⟩
      have hclient : ∀ pc : InitCluster n, s.node a = pc →
          update s.node i (.readingId k c) a = pc := by
        intro pc hpc
        rw [update_of_ne hlt.ne, hpc]
      cases hs.stage c a i ha with
      | connected h₁ h₂ h₃ h₄ => exact .connected (hclient _ h₁) (hunanswered h₂) h₃ h₄
      | introduced h₁ h₂ h₃ h₄ => exact .introduced (hclient _ h₁) (hunanswered h₂) h₃ h₄
      | identified _ h₂ =>
          rw [hfrom] at h₂
          cases h₂
      | acknowledged _ h₂ => exact absurd hmem (hs.stored a i c hlt h₂).2
      | paired _ _ h₃ => exact absurd hmem (hs.stored a i c hlt h₃).2
    · refine (hs.stage c' i' j' hends).other rfl ?_ ?_ ?_ rfl rfl rfl rfl
      · rw [hfrom]
        rintro ⟨⟩
      · rw [hfrom]
        rintro j ⟨⟩
      · intro hin
        show c' ∈ update s.backlog i rest j'
        by_cases hj : j' = i
        · rw [hj, hbacklog] at hin
          rw [hj, update_self]
          exact (List.mem_cons.1 hin).resolve_left hc
        · rwa [update_of_ne hj]

/-- The id that a server reads is that of the client. -/
lemma of_readingId (hn : n < 2 ^ 8) {k c peer : ℕ} {rest : List ℕ}
    (hfrom : s.node i = .readingId k c) (hto : s.toServer c = peer :: rest) :
    ∃ j : Fin n, peer = j ∧ j < i ∧
      Connecting ({ s with toServer := update s.toServer c rest }.goTo i (.acking k c j)) := by
  have hfits := hs.fits i
  rw [hfrom] at hfits
  obtain ⟨hcount, hk, hnot, j, hj, -⟩ := hfits
  have hlt := hs.lt c j i hj
  obtain ⟨hclient, hserver, hid, hback⟩ : s.node j = .readingAck i c ∧ Unanswered s c j i ∧
      s.toServer c = [u8 j] ∧ s.toClient c = [] := by
    have hempty : s.toServer c ≠ [] := by
      rw [hto]
      exact List.cons_ne_nil _ _
    cases hs.stage c j i hj with
    | introduced h₁ h₂ h₃ h₄ => exact ⟨h₁, h₂, h₃, h₄⟩
    | connected _ _ h₃ => exact absurd h₃ hempty
    | identified _ _ h₃ => exact absurd h₃ hempty
    | acknowledged _ _ h₃ => exact absurd h₃ hempty
    | paired _ _ _ h₄ => exact absurd h₄ hempty
  obtain ⟨rfl, rfl⟩ := List.cons.inj (hto.symm.trans hid)
  refine ⟨j, u8_of_lt (j.2.trans hn), hlt, ?_⟩
  refine { hs with reached := ?_, fits := ?_, stage := ?_ }
  · refine (forall_update_iff s.node (p := Reached _)).2 ⟨?_, fun i' _ => hs.reached i'⟩
    rintro j - ⟨⟩
  · refine (forall_update_iff s.node (p := Fits _)).2 ⟨?_, fun i' _ => hs.fits i'⟩
    exact ⟨hcount, hk, hnot, hj, hserver.unstored⟩
  · refine forall_ends hj ?_ fun c' i' j' hc hends => ?_
    · refine .identified (k := k) ?_ (update_self ..) (update_self ..) hback
      exact (update_of_ne hlt.ne _ _).trans hclient
    · refine (hs.stage c' i' j' hends).other rfl ?_ ?_ id rfl rfl (update_of_ne hc ..) rfl
      · rw [hfrom]
        exact fun h => hc (Option.some.inj h).symm
      · rw [hfrom]
        rintro j ⟨⟩

lemma of_acking {k c : ℕ} {j : Fin n} (hfrom : s.node i = .acking k c j) :
    Connecting ({ s with
      toClient := update s.toClient c (s.toClient c ++ [u8 i])
      nodeFds := update s.nodeFds i (update (s.nodeFds i) j (some c)) }.goTo i
        (acceptFrom i (k + 1))) := by
  have hfits := hs.fits i
  rw [hfrom] at hfits
  obtain ⟨hcount, hk, hnot, hj, hnone⟩ := hfits
  have hlt := hs.lt c j i hj
  obtain ⟨hclient, hto, hback⟩ : s.node j = .readingAck i c ∧ s.toServer c = [] ∧
      s.toClient c = [] := by
    have hanswered : ¬ Unanswered s c j i := by
      rintro ⟨-, hmem | ⟨k', hk'⟩⟩
      · exact hnot hmem
      · rw [hfrom] at hk'
        cases hk'
    cases hs.stage c j i hj with
    | connected _ h₂ => exact absurd h₂ hanswered
    | introduced _ h₂ => exact absurd h₂ hanswered
    | identified h₁ _ h₃ h₄ => exact ⟨h₁, h₃, h₄⟩
    | acknowledged _ h₂ => exact absurd (hnone.symm.trans h₂) (Option.some_ne_none _).symm
    | paired _ _ h₃ => exact absurd (hnone.symm.trans h₃) (Option.some_ne_none _).symm
  refine { hs with stored := ?_, reached := ?_, fits := ?_, stage := ?_ }
  · intro i' j' c' hij hc'
    by_cases hpair : j' = i ∧ i' = j
    · obtain ⟨rfl, rfl⟩ := hpair
      have hcc : some c = some c' := (update_update_self s.nodeFds j' i' (some c)).symm.trans hc'
      obtain rfl := Option.some.inj hcc
      exact ⟨hj, hnot⟩
    · have hold : s.nodeFds j' i' = some c' :=
        (update_update_of_ne s.nodeFds (some c) fun h₁ h₂ => hpair ⟨h₁, h₂⟩).symm.trans hc'
      exact hs.stored i' j' c' hij hold
  · refine (forall_update_iff s.node (p := Reached _)).2 ⟨?_, fun i' _ => hs.reached i'⟩
    exact fun j hij hpast => absurd hpast (not_past_acceptFrom hij)
  · refine (forall_update_iff s.node (p := Fits _)).2 ⟨fits_acceptFrom ?_ (by omega), ?_⟩
    · rw [storedCount_succ hlt hnone (update_self ..), hcount]
    · intro i' hi'
      exact (hs.fits i').congr (update_of_ne hi' ..) (fun _ _ h => h) hs.unconnected
        fun _ _ _ h => h
  · refine forall_ends hj ?_ fun c' i' j' hc hends => ?_
    · refine .acknowledged ?_ (update_update_self ..) hto ?_
      · exact (update_of_ne hlt.ne _ _).trans hclient
      · show update s.toClient c (s.toClient c ++ [u8 i]) c = _
        rw [update_self, hback]
        rfl
    · have hlt' := hs.lt c' i' j' hends
      refine (hs.stage c' i' j' hends).other rfl ?_ ?_ id ?_ ?_ rfl (update_of_ne hc ..)
      · rw [hfrom]
        exact fun h => hc (Option.some.inj h).symm
      · rw [hfrom]
        rintro j ⟨⟩
      · refine update_update_of_ne _ _ ?_
        rintro rfl rfl
        exact hc (hs.unique c' c _ hends hj)
      · refine update_update_of_ne _ _ ?_
        rintro rfl rfl
        exact absurd hlt' hlt.le.not_gt

/-- A node that is about to connect has no connection to that peer yet. -/
lemma no_connection {j : Fin n} (hfrom : s.node i = .connecting j) (c : ℕ) :
    s.ends c ≠ some (i, j) := by
  intro hends
  cases hs.stage c i j hends with
  | connected h₁ =>
      rw [hfrom] at h₁
      cases h₁
  | introduced h₁ =>
      rw [hfrom] at h₁
      cases h₁
  | identified h₁ =>
      rw [hfrom] at h₁
      cases h₁
  | acknowledged h₁ =>
      rw [hfrom] at h₁
      cases h₁
  | paired h₁ =>
      rw [hfrom] at h₁
      exact lt_irrefl j h₁

lemma of_connecting {j : Fin n} (hfrom : s.node i = .connecting j)
    (hlistens : (s.node j).listens = true) :
    Connecting ({ s with
      backlog := update s.backlog j (s.backlog j ++ [s.opened])
      opened := s.opened + 1
      ends := update s.ends s.opened (some (i, j))
      toServer := update s.toServer s.opened []
      toClient := update s.toClient s.opened []
      closed := update s.closed s.opened false }.goTo i (.sendingId j s.opened)) := by
  have hfits := hs.fits i
  rw [hfrom] at hfits
  obtain ⟨hcount, hlt⟩ := hfits
  have hnew : s.ends s.opened = none := by
    by_contra h
    exact lt_irrefl _ (hs.opened _ h)
  have hne : ∀ {c p}, s.ends c = some p → c ≠ s.opened := by
    rintro c p h rfl
    rw [hnew] at h
    cases h
  -- what is known of the connections is known of the old ones and of the new one
  have hends : ∀ {c p}, update s.ends s.opened (some (i, j)) c = some p →
      (c = s.opened ∧ p = (i, j)) ∨ s.ends c = some p := by
    intro c p h
    by_cases hc : c = s.opened
    · rw [hc, update_self] at h
      exact .inl ⟨hc, (Option.some.inj h).symm⟩
    · rw [update_of_ne hc] at h
      exact .inr h
  have hkeep : ∀ c p, s.ends c = some p → update s.ends s.opened (some (i, j)) c = some p :=
    fun c p h => (update_of_ne (hne h) ..).trans h
  have hqueue : ∀ {c a}, c ∈ update s.backlog j (s.backlog j ++ [s.opened]) a →
      (c = s.opened ∧ a = j) ∨ c ∈ s.backlog a := by
    intro c a h
    by_cases ha : a = j
    · rw [ha, update_self, List.mem_append, List.mem_singleton] at h
      rcases h with hold | heq
      · exact .inr (ha ▸ hold)
      · exact .inl ⟨heq, ha⟩
    · rw [update_of_ne ha] at h
      exact .inr h
  have hqueueOld : ∀ {c p a}, s.ends c = some p →
      c ∈ update s.backlog j (s.backlog j ++ [s.opened]) a → c ∈ s.backlog a :=
    fun h hin => (hqueue hin).resolve_left fun heq => hne h heq.1
  constructor
  · intro c a b h
    rcases hends h with ⟨-, heq⟩ | hold
    · obtain ⟨rfl, rfl⟩ := Prod.mk.inj heq
      exact hlt
    · exact hs.lt c a b hold
  · intro c c' p h h'
    rcases hends h with ⟨rfl, rfl⟩ | hold
    · rcases hends h' with ⟨rfl, -⟩ | hold'
      · rfl
      · exact absurd hold' (hs.no_connection hfrom c')
    · rcases hends h' with ⟨rfl, rfl⟩ | hold'
      · exact absurd hold (hs.no_connection hfrom c)
      · exact hs.unique c c' p hold hold'
  · intro c h
    obtain ⟨p, hp⟩ := Option.ne_none_iff_exists'.1 h
    rcases hends hp with ⟨rfl, -⟩ | hold
    · exact Nat.lt_succ_self _
    · exact (hs.opened c (by rw [hold]; exact Option.some_ne_none _)).trans (Nat.lt_succ_self _)
  · exact (forall_update_iff s.closed (p := fun _ b => b = false)).2 ⟨rfl, fun c _ => hs.closed c⟩
  · refine (forall_update_iff s.backlog (p := fun _ l => l.Nodup)).2 ⟨?_, fun a _ => hs.nodup a⟩
    rw [← List.concat_eq_append, List.nodup_concat]
    refine ⟨fun hin => ?_, hs.nodup j⟩
    obtain ⟨a, ha⟩ := hs.queued j _ hin
    exact hne ha rfl
  · intro a c h
    rcases hqueue h with ⟨rfl, rfl⟩ | hold
    · exact ⟨i, update_self ..⟩
    · obtain ⟨b, hb⟩ := hs.queued a c hold
      exact ⟨b, hkeep c _ hb⟩
  · intro a b c hab h
    obtain ⟨hold, hnot⟩ := hs.stored a b c hab h
    exact ⟨hkeep c _ hold, fun hin => hnot (hqueueOld hold hin)⟩
  · have hreached : ∀ a, Reached s a (s.node a) → ∀ b, a < b → (s.node a).Past b →
        ∃ c, update s.ends s.opened (some (i, j)) c = some (a, b) := by
      intro a h b hab hpast
      obtain ⟨c, hc⟩ := h b hab hpast
      exact ⟨c, hkeep c _ hc⟩
    refine (forall_update_iff s.node (p := Reached _)).2 ⟨?_, fun a _ => hreached a (hs.reached a)⟩
    intro b hib hpast
    refine hreached i (hs.reached i) b hib ?_
    rw [hfrom]
    exact hpast
  · refine (forall_update_iff s.node (p := Fits _)).2 ⟨⟨hcount, update_self ..⟩, fun a _ => ?_⟩
    refine (hs.fits a).congr rfl hkeep ?_ fun c p h hin => hqueueOld h hin
    intro hpc c b h
    rcases hends h with ⟨-, heq⟩ | hold
    · obtain ⟨-, rfl⟩ := Prod.mk.inj heq
      rw [hpc] at hlistens
      cases hlistens
    · exact hs.unconnected hpc c b hold
  · intro c a b h
    rcases hends h with ⟨rfl, heq⟩ | hold
    · obtain ⟨rfl, rfl⟩ := Prod.mk.inj heq
      refine .connected (update_self ..) ⟨?_, .inl ?_⟩ (update_self ..) (update_self ..)
      · by_contra hsome
        obtain ⟨c', hc'⟩ := Option.ne_none_iff_exists'.1 hsome
        exact hs.no_connection hfrom c' (hs.stored a b c' hlt hc').1
      · show s.opened ∈ update s.backlog b (s.backlog b ++ [s.opened]) b
        rw [update_self]
        exact List.mem_append_right _ List.mem_cons_self
    · refine (hs.stage c a b hold).other rfl ?_ ?_ ?_ rfl rfl (update_of_ne (hne hold) ..)
        (update_of_ne (hne hold) ..)
      · rw [hfrom]
        rintro ⟨⟩
      · rw [hfrom]
        exact fun b h => h
      · intro hin
        show c ∈ update s.backlog j (s.backlog j ++ [s.opened]) b
        by_cases hb : b = j
        · rw [hb, update_self]
          exact List.mem_append_left _ (hb ▸ hin)
        · rwa [update_of_ne hb]

lemma of_sendingId {j : Fin n} {c : ℕ} (hfrom : s.node i = .sendingId j c) :
    Connecting ({ s with toServer := update s.toServer c (s.toServer c ++ [u8 i]) }.goTo i
      (.readingAck j c)) := by
  have hfits := hs.fits i
  rw [hfrom] at hfits
  obtain ⟨hcount, hj⟩ := hfits
  have hlt := hs.lt c i j hj
  obtain ⟨hserver, hto, hback⟩ : Unanswered s c i j ∧ s.toServer c = [] ∧
      s.toClient c = [] := by
    have hnot : s.node i ≠ .readingAck j c := by
      rw [hfrom]
      rintro ⟨⟩
    cases hs.stage c i j hj with
    | connected _ h₂ h₃ h₄ => exact ⟨h₂, h₃, h₄⟩
    | introduced h₁ => exact absurd h₁ hnot
    | identified h₁ => exact absurd h₁ hnot
    | acknowledged h₁ => exact absurd h₁ hnot
    | paired h₁ =>
        rw [hfrom] at h₁
        exact absurd h₁ (lt_irrefl j)
  refine { hs with reached := ?_, fits := ?_, stage := ?_ }
  · refine (forall_update_iff s.node (p := Reached _)).2 ⟨?_, fun i' _ => hs.reached i'⟩
    have hreached := hs.reached i
    rw [hfrom] at hreached
    exact hreached
  · exact (forall_update_iff s.node (p := Fits _)).2 ⟨⟨hcount, hj⟩, fun i' _ => hs.fits i'⟩
  · refine forall_ends hj ?_ fun c' i' j' hc hends => ?_
    · refine .introduced (update_self ..) ?_ ?_ hback
      · refine hserver.congr rfl .inl fun k hk => ?_
        exact (update_of_ne hlt.ne' _ _).trans hk
      · show update s.toServer c (s.toServer c ++ [u8 i]) c = _
        rw [update_self, hto]
        rfl
    · refine (hs.stage c' i' j' hends).other rfl ?_ ?_ id rfl rfl (update_of_ne hc ..) rfl
      · rw [hfrom]
        exact fun h => hc (Option.some.inj h).symm
      · rw [hfrom]
        exact fun j h => h

/-- The id that a client reads is that of the server. -/
lemma of_readingAck (hn : n < 2 ^ 8) {j : Fin n} {c peer : ℕ} {rest : List ℕ}
    (hfrom : s.node i = .readingAck j c) (hback : s.toClient c = peer :: rest) :
    peer = j ∧ Connecting ({ s with
      toClient := update s.toClient c rest
      nodeFds := update s.nodeFds i (update (s.nodeFds i) j (some c)) }.goTo i
        (connectFrom (j + 1))) := by
  have hfits := hs.fits i
  rw [hfrom] at hfits
  obtain ⟨hcount, hj⟩ := hfits
  have hlt := hs.lt c i j hj
  obtain ⟨hserver, hto, hid⟩ : s.nodeFds j i = some c ∧ s.toServer c = [] ∧
      s.toClient c = [u8 j] := by
    have hempty : s.toClient c ≠ [] := by
      rw [hback]
      exact List.cons_ne_nil _ _
    cases hs.stage c i j hj with
    | acknowledged _ h₂ h₃ h₄ => exact ⟨h₂, h₃, h₄⟩
    | connected _ _ _ h₄ => exact absurd h₄ hempty
    | introduced _ _ _ h₄ => exact absurd h₄ hempty
    | identified _ _ _ h₄ => exact absurd h₄ hempty
    | paired h₁ =>
        rw [hfrom] at h₁
        exact absurd h₁ (lt_irrefl j)
  obtain ⟨rfl, rfl⟩ := List.cons.inj (hback.symm.trans hid)
  refine ⟨u8_of_lt (j.2.trans hn), ?_⟩
  refine { hs with stored := ?_, reached := ?_, fits := ?_, stage := ?_ }
  · intro i' j' c' hij hc'
    refine hs.stored i' j' c' hij ((update_update_of_ne s.nodeFds (some c) ?_).symm.trans hc')
    rintro rfl rfl
    exact absurd hij hlt.le.not_gt
  · refine (forall_update_iff s.node (p := Reached _)).2 ⟨?_, fun i' _ => hs.reached i'⟩
    intro j' hij' hpast
    rw [past_connectFrom, Nat.lt_succ_iff] at hpast
    rcases Nat.lt_or_eq_of_le hpast with hlt' | heq
    · have hreached := hs.reached i j' hij'
      rw [hfrom] at hreached
      exact hreached hlt'
    · obtain rfl := Fin.ext heq
      exact ⟨c, hj⟩
  · refine (forall_update_iff s.node (p := Fits _)).2 ⟨fits_connectFrom ?_ ?_, ?_⟩
    · rw [storedCount_update_of_gt hlt (update_self ..), hcount]
    · exact Nat.lt_succ_of_lt hlt
    · intro i' hi'
      exact (hs.fits i').congr (update_of_ne hi' ..) (fun _ _ h => h) hs.unconnected
        fun _ _ _ h => h
  · refine forall_ends hj ?_ fun c' i' j' hc hends => ?_
    · refine .paired ?_ (update_update_self ..) ?_ hto
      · show (update s.node i (connectFrom (j + 1)) i).Past j
        rw [update_self, past_connectFrom]
        exact Nat.lt_succ_self _
      · exact (congrFun (update_of_ne hlt.ne' _ _) i).trans hserver
    · have hlt' := hs.lt c' i' j' hends
      refine (hs.stage c' i' j' hends).other rfl ?_ ?_ id ?_ ?_ rfl (update_of_ne hc ..)
      · rw [hfrom]
        exact fun h => hc (Option.some.inj h).symm
      · rw [hfrom]
        intro j' hpast
        rw [past_connectFrom]
        have : (j' : ℕ) < j := hpast
        omega
      · refine update_update_of_ne _ _ ?_
        rintro rfl rfl
        exact absurd hlt' hlt.le.not_gt
      · refine update_update_of_ne _ _ ?_
        rintro rfl rfl
        exact hc (hs.unique c' c _ hends hj)

/-- **One step.** -/
theorem step (hn : n < 2 ^ 8) {s' : Startup n} (h : initStep s i = some s') : Connecting s' := by
  have hfits := hs.fits i
  rw [initStep] at h
  split at h
  · rename_i hfrom
    obtain rfl := Option.some.inj h
    exact hs.of_starting hfrom
  · rename_i k hfrom
    split at h
    · cases h
    · rename_i c rest hbacklog
      obtain rfl := Option.some.inj h
      exact hs.of_accepting hfrom hbacklog
  · rename_i k c hfrom
    split at h
    · cases h
    · rename_i peer rest hto
      obtain ⟨j, rfl, hlt, hs'⟩ := hs.of_readingId hn hfrom hto
      simp only [dif_pos (show (j : ℕ) < n ∧ (j : ℕ) < i from ⟨j.2, hlt⟩)] at h
      obtain rfl := Option.some.inj h
      exact hs'
  · rename_i k c j hfrom
    obtain rfl := Option.some.inj h
    exact hs.of_acking hfrom
  · rename_i j hfrom
    split at h
    · rename_i hlistens
      obtain rfl := Option.some.inj h
      exact hs.of_connecting hfrom hlistens
    · obtain rfl := Option.some.inj h
      exact hs
  · rename_i j c hfrom
    rw [hs.closed c, if_neg Bool.false_ne_true] at h
    obtain rfl := Option.some.inj h
    exact hs.of_sendingId hfrom
  · rename_i j c hfrom
    split at h
    · rw [hs.closed c, if_neg Bool.false_ne_true] at h
      cases h
    · rename_i peer rest hback
      obtain ⟨rfl, hs'⟩ := hs.of_readingAck hn hfrom hback
      simp only [ne_eq, not_true_eq_false, if_false] at h
      obtain rfl := Option.some.inj h
      exact hs'
  · cases h
  · cases h

end Connecting

lemma storedCount_start (i : Fin n) : storedCount (Startup.start n) i = 0 := by
  rw [storedCount, Finset.card_eq_zero, Finset.filter_eq_empty_iff]
  rintro j - ⟨-, ⟨⟩⟩

lemma connecting_start (n : ℕ) : Connecting (Startup.start n) where
  lt := by rintro c i j ⟨⟩
  unique := by rintro c c' p ⟨⟩
  opened := fun c h => absurd rfl h
  closed := fun _ => rfl
  nodup := fun _ => List.nodup_nil
  queued := by rintro j c ⟨⟩
  stored := by rintro i j c - ⟨⟩
  reached := by rintro i j - ⟨⟩
  fits := fun i => ⟨storedCount_start i, by rintro c j ⟨⟩⟩
  stage := by rintro c i j ⟨⟩

end Oceanliner
