/-
# Networks of nodes with reliable links

Nodes of type `N`, named by `I`, send messages of type `M` over links that are queues, one
for each ordered pair of nodes.  In one step one node changes its state, takes messages off
the front of its incoming links and puts messages at the end of its outgoing links.

The main tool is the *conveyor* from a node `i` to a node `j` and back: the tokens that wait
in `i` to be sent to `j`, those on the link, those that `j` has to answer, those on the link
back, and those that have arrived in `i` again, in this order from the end of the list to its
front.  If every step of a node moves tokens only along the conveyor (`Flows`), then a step of
the network changes the whole list only at its end, by the tokens that are new
(`conveyor_moves`).  What "moves" means is a parameter: nothing is lost (equality), or tokens
may get lost but are neither doubled nor exchanged (the sublist relation).
-/
import Mathlib.Tactic

namespace Network

variable {I N M T : Type*}

/-- The states of the nodes, and the messages on the link from one node to another. -/
structure Net (I N M : Type*) where
  node : I → N
  link : I → I → List M

variable [DecidableEq I]

/-- Node `k` has moved to the state `v'`; `popped j` has come off the front of its link from
`j`, and `pushed j` has gone to the end of its link to `j`. -/
structure Moves (c : Net I N M) (k : I) (v' : N) (popped pushed : I → List M)
    (c' : Net I N M) : Prop where
  node_eq : c'.node = Function.update c.node k v'
  link_eq : ∀ a b, (if b = k then popped a else []) ++ c'.link a b =
    c.link a b ++ (if a = k then pushed b else [])

namespace Moves

variable {c c' : Net I N M} {k : I} {v' : N} {popped pushed : I → List M}
  (h : Moves c k v' popped pushed c')

include h

lemma node_self : c'.node k = v' := by
  rw [h.node_eq, Function.update_self]

lemma node_of_ne {j : I} (hj : j ≠ k) : c'.node j = c.node j := by
  rw [h.node_eq, Function.update_of_ne hj]

/-- What was on a link into the node is what has come off it and what is left. -/
lemma link_in {j : I} (hj : j ≠ k) : c.link j k = popped j ++ c'.link j k := by
  have hlink := h.link_eq j k
  rw [if_pos rfl, if_neg hj, List.append_nil] at hlink
  exact hlink.symm

lemma link_out {j : I} (hj : j ≠ k) : c'.link k j = c.link k j ++ pushed j := by
  have hlink := h.link_eq k j
  rwa [if_neg hj, if_pos rfl, List.nil_append] at hlink

lemma link_of_ne {a b : I} (ha : a ≠ k) (hb : b ≠ k) : c'.link a b = c.link a b := by
  have hlink := h.link_eq a b
  rwa [if_neg ha, if_neg hb, List.nil_append, List.append_nil] at hlink

/-- A message that came off a link was on it. -/
lemma mem_of_popped {j : I} {m : M} (hm : m ∈ popped j) (hself : j = k → pushed k = []) :
    m ∈ c.link j k := by
  have hlink := h.link_eq j k
  rw [if_pos rfl] at hlink
  have hmem : m ∈ c.link j k ++ (if j = k then pushed k else []) := by
    rw [← hlink]
    exact List.mem_append_left _ hm
  by_cases hj : j = k
  · rw [if_pos hj, hself hj, List.append_nil] at hmem
    exact hmem
  · rwa [if_neg hj, List.append_nil] at hmem

/-- A property of the messages on the links is kept when the new messages have it. -/
lemma forall_link {P : I → I → M → Prop} (hlink : ∀ a b, ∀ m ∈ c.link a b, P a b m)
    (hpushed : ∀ b, ∀ m ∈ pushed b, P k b m) : ∀ a b, ∀ m ∈ c'.link a b, P a b m := by
  intro a b m hm
  have hmem : m ∈ c.link a b ++ (if a = k then pushed b else []) := by
    rw [← h.link_eq a b]
    exact List.mem_append_right _ hm
  rcases List.mem_append.1 hmem with hold | hnew
  · exact hlink a b m hold
  · split at hnew
    · rename_i hak
      rw [hak]
      exact hpushed b m hnew
    · cases hnew

/-- A property of the nodes is kept when the node that moves keeps it. -/
lemma forall_node {P : I → N → Prop} (hnode : ∀ j, P j (c.node j)) (hv : P k v') :
    ∀ j, P j (c'.node j) := by
  intro j
  by_cases hj : j = k
  · rw [hj, h.node_self]
    exact hv
  · rw [h.node_of_ne hj]
    exact hnode j

end Moves

/-! ### Weights -/

section Weights

variable [Fintype I] (w : N → ℕ) (v : M → ℕ)

/-- The weight of the nodes and of the messages on their way. -/
def weight (c : Net I N M) : ℕ :=
  ∑ i, w (c.node i) + ∑ a, ∑ b, ((c.link a b).map v).sum

variable {w v}

/-- What a step takes off the links and out of the node, and what it puts there. -/
theorem Moves.weight_eq {c c' : Net I N M} {k : I} {v' : N} {popped pushed : I → List M}
    (h : Moves c k v' popped pushed c') :
    weight w v c' + w (c.node k) + ∑ a, ((popped a).map v).sum =
      weight w v c + w v' + ∑ b, ((pushed b).map v).sum := by
  have hnode : ∑ i, w (c'.node i) + w (c.node k) = ∑ i, w (c.node i) + w v' := by
    have hold := Finset.add_sum_erase Finset.univ (fun i => w (c.node i)) (Finset.mem_univ k)
    have hnew := Finset.add_sum_erase Finset.univ (fun i => w (c'.node i)) (Finset.mem_univ k)
    have hrest : ∑ i ∈ Finset.univ.erase k, w (c'.node i) =
        ∑ i ∈ Finset.univ.erase k, w (c.node i) :=
      Finset.sum_congr rfl fun i hi => by rw [h.node_of_ne (Finset.ne_of_mem_erase hi)]
    simp only [h.node_self] at hold hnew
    omega
  have hlink : ∀ a b, (if b = k then ((popped a).map v).sum else 0) + ((c'.link a b).map v).sum =
      ((c.link a b).map v).sum + if a = k then ((pushed b).map v).sum else 0 := by
    intro a b
    have hsum := congrArg (fun ms => (ms.map v).sum) (h.link_eq a b)
    simp only [List.map_append, List.sum_append, apply_ite (List.map v), List.map_nil,
      apply_ite List.sum, List.sum_nil] at hsum
    exact hsum
  have hlinks := Finset.sum_congr rfl fun a (_ : a ∈ Finset.univ) =>
    Finset.sum_congr rfl fun b (_ : b ∈ Finset.univ) => hlink a b
  simp only [Finset.sum_add_distrib, Finset.sum_ite_eq', Finset.mem_univ, if_true] at hlinks
  rw [Finset.sum_comm (f := fun a b => if a = k then ((pushed b).map v).sum else 0)] at hlinks
  simp only [Finset.sum_ite_eq', Finset.mem_univ, if_true] at hlinks
  rw [weight, weight]
  omega

end Weights

/-! ### Conveyors -/

/-- A relation between lists that is compatible with appending, as equality and the sublist
relation are. -/
structure Appends (r : List T → List T → Prop) : Prop where
  refl : ∀ xs, r xs xs
  append : ∀ {xs xs' ys ys'}, r xs xs' → r ys ys' → r (xs ++ ys) (xs' ++ ys')

lemma appends_eq : Appends (@Eq (List T)) where
  refl := fun _ => rfl
  append := fun h h' => by rw [h, h']

lemma appends_sublist : Appends (@List.Sublist T) where
  refl := List.Sublist.refl
  append := List.Sublist.append

section

variable (head mid tail : N → I → List T) (out back : M → List T)

/-- The tokens between `i` and `j`, the oldest first. -/
def conveyor (c : Net I N M) (i j : I) : List T :=
  head (c.node i) j ++ ((c.link j i).flatMap back ++ (mid (c.node j) i ++
    ((c.link i j).flatMap out ++ tail (c.node i) j)))

section Ends

variable {head mid tail out back} {r : List T → List T → Prop} (hr : Appends r)
  {c c' : Net I N M} {k : I} {v' : N} {popped pushed : I → List M}
  (h : Moves c k v' popped pushed c')

include hr h

/-- The near end of a conveyor moves: the node it starts from takes a step. -/
lemma conveyor_near {j : I} (hj : j ≠ k) {fresh : List T}
    (hhead : r (head v' j) (head (c.node k) j ++ (popped j).flatMap back))
    (htail : r ((pushed j).flatMap out ++ tail v' j) (tail (c.node k) j ++ fresh)) :
    r (conveyor head mid tail out back c' k j)
      (conveyor head mid tail out back c k j ++ fresh) := by
  rw [conveyor, conveyor, h.node_self, h.node_of_ne hj, h.link_in hj, h.link_out hj]
  have hmiddle := hr.refl ((c'.link j k).flatMap back ++ (mid (c.node j) k ++
    (c.link k j).flatMap out))
  have hall := hr.append hhead (hr.append hmiddle htail)
  simpa only [List.flatMap_append, List.append_assoc] using hall

/-- The far end of a conveyor moves: the node that answers takes a step. -/
lemma conveyor_far {i : I} (hi : i ≠ k)
    (hmid : r ((pushed i).flatMap back ++ mid v' i)
      (mid (c.node k) i ++ (popped i).flatMap out)) :
    r (conveyor head mid tail out back c' i k) (conveyor head mid tail out back c i k) := by
  rw [conveyor, conveyor, h.node_self, h.node_of_ne hi, h.link_in hi, h.link_out hi]
  have hfront := hr.refl (head (c.node i) k ++ (c.link k i).flatMap back)
  have hback := hr.refl ((c'.link i k).flatMap out ++ tail (c.node i) k)
  have hall := hr.append hfront (hr.append hmid hback)
  simpa only [List.flatMap_append, List.append_assoc] using hall

end Ends

/-- A step of another node does not touch a conveyor. -/
lemma conveyor_of_ne {c c' : Net I N M} {k : I} {v' : N} {popped pushed : I → List M}
    (h : Moves c k v' popped pushed c') {i j : I} (hi : i ≠ k) (hj : j ≠ k) :
    conveyor head mid tail out back c' i j = conveyor head mid tail out back c i j := by
  rw [conveyor, conveyor, h.node_of_ne hi, h.node_of_ne hj, h.link_of_ne hi hj, h.link_of_ne hj hi]

/-- A step of node `k` from `v` to `v'` moves its tokens along: from the link back to the
front, from the link to the answers and on to the link back, and from the end to the link.
The tokens `fresh` are new. -/
structure Flows (r : List T → List T → Prop) (k : I) (v : N) (popped pushed : I → List M)
    (v' : N) (fresh : List T) : Prop where
  head : ∀ j, j ≠ k → r (head v' j) (head v j ++ (popped j).flatMap back)
  mid : ∀ j, j ≠ k →
    r ((pushed j).flatMap back ++ mid v' j) (mid v j ++ (popped j).flatMap out)
  tail : ∀ j, j ≠ k → r ((pushed j).flatMap out ++ tail v' j) (tail v j ++ fresh)

/-- **Tokens move along the conveyor.**  When the steps of the nodes move tokens along, a step
of the network changes a conveyor only at its end, by the new tokens of the node it starts
from. -/
theorem conveyor_moves {r : List T → List T → Prop} (hr : Appends r) {c c' : Net I N M} {k : I}
    {v' : N} {popped pushed : I → List M} {fresh : List T}
    (h : Moves c k v' popped pushed c')
    (hf : Flows head mid tail out back r k (c.node k) popped pushed v' fresh) {i j : I}
    (hij : i ≠ j) :
    r (conveyor head mid tail out back c' i j)
      (conveyor head mid tail out back c i j ++ if i = k then fresh else []) := by
  by_cases hi : i = k
  · subst hi
    have hj : j ≠ i := Ne.symm hij
    rw [if_pos rfl]
    exact conveyor_near hr h hj (hf.head j hj) (hf.tail j hj)
  · rw [if_neg hi, List.append_nil]
    by_cases hj : j = k
    · subst hj
      exact conveyor_far hr h hi (hf.mid i hi)
    · rw [conveyor_of_ne head mid tail out back h hi hj]
      exact hr.refl _

end

end Network
