/-
Where batches and replies come from.

A batch is created by `thread_1` of one node, its origin, and travels from there: through
`_1_to_3` to `thread_3`, in AppendEntries messages to the other nodes, and back as the OKs
that answer it.  Two invariants describe this.  Batches are where their origin allows them to
be (`Origins`).  The batches on the way from one node to another and back are in the order of
their creation, so no node answers a batch twice (`InOrder`).
-/
import Oceanliner.Main.Cluster

open Network (Moves Flows conveyor)

namespace Oceanliner

variable {n : ℕ} {DB : Type}

/-! ### Origins -/

/-- The batch in an AppendEntries message. -/
def Message.entries (m : Message n) : List (CmdBuffer n) :=
  match m.body with
  | .appendEntries _ _ _ entries => [entries]
  | _ => []

/-- A message on the link from `a` to `b` is from `a`, and so is the batch it carries. -/
structure MessageFrom (a b : Fin n) (m : Message n) : Prop where
  sender : m.senderNodeId = a
  ne : a ≠ b
  entries : ∀ b ∈ m.entries, b.id.origin = a

/-- What `thread_3` of node `i` holds is its own, and it deals with other nodes only. -/
def Thread3.OwnedBy (i : Fin n) : Thread3 n → Prop
  | .idle => True
  | .building w _ => w.id.origin = i
  | .sending w _ _ _ rest => w.id.origin = i ∧ ∀ j ∈ rest, j ≠ i
  | .waiting w _ counted => w.id.origin = i ∧ ∀ ok ∈ counted, ok.1 ≠ i
  | .logging w => w.id.origin = i
  | .enqueueing w => w.id.origin = i

/-- What `thread_2` of node `i` holds is from another node. -/
def Thread2.FromOthers (i : Fin n) : Thread2 n → Prop
  | .handling m => MessageFrom m.senderNodeId i m
  | .replying dest reply accepted =>
      MessageFrom i dest reply ∧ reply.entries = [] ∧
        ∀ b, accepted = some b → b.id.origin ≠ i
  | .logging b => b.id.origin ≠ i
  | _ => True

/-- The batches that node `i` holds are its own, but for those that `thread_2` holds. -/
structure Origins (i : Fin n) (s : Server n DB) : Prop where
  thread1 : ∀ w r, s.thread1.buffers = some (w, r) → w.id.origin = i
  queue13 : ∀ p ∈ s.queue13, p.1.id.origin = i
  thread2 : s.thread2.FromOthers i
  queue23 : ∀ ok ∈ s.queue23, ok.nodeId ≠ i
  thread3 : s.thread3.OwnedBy i

lemma mem_peers {i j : Fin n} : j ∈ peers i ↔ j ≠ i := by
  simp [peers]

lemma messageFrom_of_no_entries {a b : Fin n} {m : Message n} (hsender : m.senderNodeId = a)
    (hne : a ≠ b) (hentries : m.entries = []) : MessageFrom a b m :=
  ⟨hsender, hne, by rw [hentries]; rintro b ⟨⟩⟩

section Steps

variable {i : Fin n} {s s' : Server n DB}

lemma Thread1Outcome.origins (h : Thread1Outcome i s s') (hs : Origins i s) : Origins i s' := by
  cases h with
  | seesLeader => exact { hs with thread1 := by rintro w r ⟨⟩ }
  | opens =>
      refine { hs with thread1 := ?_ }
      rintro w r ⟨⟩
      rfl
  | goesOn hfrom hto =>
      refine { hs with thread1 := ?_ }
      rw [hto, ← hfrom]
      exact hs.thread1
  | @admitsRead w r r' t hfrom hto =>
      refine { hs with thread1 := Thread1.forall_buffers hto ?_ }
      exact hs.thread1 w r hfrom
  | @admitsWrite w r t record hfrom hto =>
      refine { hs with thread1 := Thread1.forall_buffers hto ?_ }
      exact hs.thread1 w r hfrom
  | abandons => exact { hs with thread1 := by rintro w r ⟨⟩ }
  | @enqueues w r hfrom =>
      have hbuffers : s.thread1.buffers = some (w, r) := by rw [hfrom]; rfl
      refine { hs with thread1 := by rintro w r ⟨⟩, queue13 := ?_ }
      intro p hp
      rcases List.mem_append.1 hp with hold | hnew
      · exact hs.queue13 p hold
      · obtain rfl := List.mem_singleton.1 hnew
        exact hs.thread1 w r hbuffers

lemma Thread2Outcome.origins {popped out : Outgoing n} (h : Thread2Outcome i s popped s' out)
    (hs : Origins i s) (hpopped : ∀ j m, popped = some (j, m) → MessageFrom j i m) :
    Origins i s' ∧ ∀ j m, out = some (j, m) → MessageFrom i j m := by
  have hthread2 := hs.thread2
  cases h with
  | discards => exact ⟨hs, by rintro j m ⟨⟩⟩
  | @reads j m raft hidle hterm =>
      -- the message names the node at the other end of the link
      have hm := hpopped j m rfl
      refine ⟨{ hs with thread2 := ?_ }, by rintro j m ⟨⟩⟩
      show MessageFrom m.senderNodeId i m
      rw [hm.sender]
      exact hm
  | @accepts m prevLogTerm prevLogIndex leaderCommit entries hfrom hbody haccepts =>
      rw [hfrom] at hthread2
      refine ⟨{ hs with thread2 := ⟨?_, rfl, ?_⟩ }, by rintro j m ⟨⟩⟩
      · exact messageFrom_of_no_entries rfl hthread2.ne.symm rfl
      · rintro b ⟨⟩
        have hmem : entries ∈ m.entries := by
          rw [Message.entries, hbody]
          exact List.mem_singleton_self entries
        rw [hthread2.entries entries hmem]
        exact hthread2.ne
  | refuses hfrom hbody hrefuses =>
      rw [hfrom] at hthread2
      refine ⟨{ hs with thread2 := ⟨?_, rfl, by rintro b ⟨⟩⟩ }, by rintro j m ⟨⟩⟩
      exact messageFrom_of_no_entries rfl hthread2.ne.symm rfl
  | votes hfrom hbody =>
      rw [hfrom] at hthread2
      refine ⟨{ hs with thread2 := ⟨?_, rfl, by rintro b ⟨⟩⟩ }, by rintro j m ⟨⟩⟩
      exact messageFrom_of_no_entries rfl hthread2.ne.symm rfl
  | takesOk hfrom hbody =>
      rw [hfrom] at hthread2
      refine ⟨{ hs with thread2 := trivial, queue23 := ?_ }, by rintro j m ⟨⟩⟩
      intro ok hok
      rcases List.mem_append.1 hok with hold | hnew
      · exact hs.queue23 ok hold
      · obtain rfl := List.mem_singleton.1 hnew
        exact hthread2.ne
  | takesErr => exact ⟨{ hs with thread2 := trivial }, by rintro j m ⟨⟩⟩
  | countsVote hfrom hbody hto =>
      refine ⟨{ hs with thread2 := ?_ }, by rintro j m ⟨⟩⟩
      rcases hto with rfl | rfl
      · trivial
      · trivial
  | @repliesOk dest reply b hfrom =>
      rw [hfrom] at hthread2
      refine ⟨{ hs with thread2 := hthread2.2.2 b rfl }, ?_⟩
      rintro j m ⟨⟩
      exact hthread2.1
  | replies hfrom =>
      rw [hfrom] at hthread2
      refine ⟨{ hs with thread2 := trivial }, ?_⟩
      rintro j m ⟨⟩
      exact hthread2.1
  | logs => exact ⟨{ hs with thread2 := trivial }, by rintro j m ⟨⟩⟩
  | enqueues => exact ⟨{ hs with thread2 := trivial }, by rintro j m ⟨⟩⟩
  | becomesLeader => exact ⟨{ hs with thread2 := trivial }, by rintro j m ⟨⟩⟩

lemma Thread3Outcome.origins {out : Outgoing n} (h : Thread3Outcome i s s' out)
    (hs : Origins i s) : Origins i s' ∧ ∀ j m, out = some (j, m) → MessageFrom i j m := by
  have hthread3 := hs.thread3
  have hqueue23 := hs.queue23
  cases h with
  | @takes w r rest hidle hqueue =>
      have hqueue13 := hs.queue13
      rw [hqueue] at hqueue13
      exact ⟨{ hs with
        queue13 := fun p hp => hqueue13 p (List.mem_cons_of_mem _ hp)
        thread3 := hqueue13 (w, r) List.mem_cons_self }, by rintro j m ⟨⟩⟩
  | builds hfrom =>
      rw [hfrom] at hthread3
      exact ⟨{ hs with thread3 := ⟨hthread3, fun j hj => mem_peers.1 hj⟩ }, by rintro j m ⟨⟩⟩
  | sends hfrom =>
      -- `thread_3` sends its own batch, and not to itself
      rw [hfrom] at hthread3
      obtain ⟨howned, hothers⟩ := hthread3
      refine ⟨{ hs with
        thread3 := ⟨howned, fun j hj => hothers j (List.mem_cons_of_mem _ hj)⟩ }, ?_⟩
      rintro j m ⟨⟩
      refine ⟨rfl, (hothers _ List.mem_cons_self).symm, ?_⟩
      intro b hb
      rw [List.mem_singleton.1 hb]
      exact howned
  | waits hfrom =>
      rw [hfrom] at hthread3
      exact ⟨{ hs with thread3 := ⟨hthread3.1, by rintro ok ⟨⟩⟩ }, by rintro j m ⟨⟩⟩
  | @counts w r counted ok rest hfrom hqueue hwaits hcounts =>
      rw [hfrom] at hthread3
      rw [hqueue] at hqueue23
      refine ⟨{ hs with
        queue23 := fun ok' hok' => hqueue23 ok' (List.mem_cons_of_mem _ hok')
        thread3 := ⟨hthread3.1, ?_⟩ }, by rintro j m ⟨⟩⟩
      intro ok' hok'
      rcases List.mem_append.1 hok' with hold | hnew
      · exact hthread3.2 ok' hold
      · obtain rfl := List.mem_singleton.1 hnew
        exact hqueue23 ok List.mem_cons_self
  | @skips w r counted ok rest hfrom hqueue =>
      rw [hqueue] at hqueue23
      exact ⟨{ hs with queue23 := fun ok' hok' => hqueue23 ok' (List.mem_cons_of_mem _ hok') },
        by rintro j m ⟨⟩⟩
  | commits hfrom =>
      rw [hfrom] at hthread3
      exact ⟨{ hs with thread3 := hthread3.1 }, by rintro j m ⟨⟩⟩
  | logs hfrom =>
      rw [hfrom] at hthread3
      exact ⟨{ hs with thread3 := hthread3 }, by rintro j m ⟨⟩⟩
  | enqueues => exact ⟨{ hs with thread3 := trivial }, by rintro j m ⟨⟩⟩

lemma Thread5Outcome.origins {R : RocksDb DB} (h : Thread5Outcome R s s') (hs : Origins i s) :
    Origins i s' := by
  cases h <;> exact { hs with }

end Steps

/-- `thread_2` does not read and send in one step. -/
lemma Thread2Outcome.out_eq_none {i : Fin n} {s s' : Server n DB} {p : Fin n × Message n}
    {out : Outgoing n} (h : Thread2Outcome i s (some p) s' out) : out = none := by
  cases h with
  | discards => rfl
  | reads => rfl

/-- Every batch of the cluster is where its origin allows it to be. -/
structure ClusterOrigins (c : Cluster n DB) : Prop where
  node : ∀ i, Origins i (c.node i)
  link : ∀ i j, ∀ m ∈ c.link i j, MessageFrom i j m

namespace ClusterOrigins

variable {R : RocksDb DB} {c c' : Cluster n DB} {a : ClusterAction n}

/-- What `thread_2` reads is on a link, so it is from the node at the other end. -/
lemma popped (hc : ClusterOrigins c) {i j : Fin n} {s : Server n DB} {m : Message n}
    {popped out : Outgoing n} (h : Thread2Outcome i (c.node i) popped s out)
    (hmoves : Moves c i s (onLink popped) (onLink out) c') (hpopped : popped = some (j, m)) :
    MessageFrom j i m := by
  subst hpopped
  refine hc.link j i m (hmoves.mem_of_popped (mem_onLink.2 rfl) ?_)
  intro _
  rw [h.out_eq_none, onLink_none]

lemma of_moves {i : Fin n} {s : Server n DB} {popped out : Outgoing n} (hc : ClusterOrigins c)
    (hmoves : Moves c i s (onLink popped) (onLink out) c') (hs : Origins i s)
    (hout : ∀ j m, out = some (j, m) → MessageFrom i j m) : ClusterOrigins c' where
  node := hmoves.forall_node hc.node hs
  link := hmoves.forall_link hc.link fun b m hm => hout b m (mem_onLink.1 hm)

lemma step (hc : ClusterOrigins c) (hstep : clusterStep R c a = some c') : ClusterOrigins c' := by
  cases clusterStep_spec hstep with
  | @thread1 _ i s _ h hmoves =>
      exact hc.of_moves hmoves (h.origins (hc.node i)) (by rintro j m ⟨⟩)
  | @thread2 _ i popped out s _ h hmoves =>
      obtain ⟨hs, hout⟩ := h.origins (hc.node i) fun j m hm => hc.popped h hmoves hm
      exact hc.of_moves hmoves hs hout
  | @thread3 i out s _ h hmoves =>
      obtain ⟨hs, hout⟩ := h.origins (hc.node i)
      exact hc.of_moves hmoves hs hout
  | @thread5 i s _ h hmoves =>
      exact hc.of_moves hmoves (h.origins (hc.node i)) (by rintro j m ⟨⟩)
  | @election _ i raft out _ hout hmoves =>
      refine hc.of_moves hmoves { hc.node i with } ?_
      rintro j m rfl
      rcases hout with hnone | ⟨j₁, hne, hsome⟩
      · cases hnone
      · obtain ⟨rfl, rfl⟩ := Prod.mk.inj (Option.some.inj hsome)
        exact messageFrom_of_no_entries rfl hne rfl

lemma start (raft : Fin n → RaftVars) (diskMap : Fin n → DB) :
    ClusterOrigins (Cluster.start raft diskMap) where
  node := fun i =>
    { thread1 := by rintro w r ⟨⟩
      queue13 := by rintro p ⟨⟩
      thread2 := trivial
      queue23 := by rintro ok ⟨⟩
      thread3 := trivial }
  link := by rintro i j m ⟨⟩

end ClusterOrigins

/-! ### The order of batches and replies -/

/-- The batch that an OK answers. -/
def Message.oks (m : Message n) : List (CmdBuffer n) :=
  match m.body with
  | .respAppendEntries true _ _ answers => [answers]
  | _ => []

/-- The OKs that `thread_3` has counted for its batch. -/
def Thread3.counted : Thread3 n → List (Fin n × CmdBuffer n)
  | .waiting _ _ counted => counted
  | _ => []

/-- The batch that `thread_3` still has to send to node `j`. -/
def Thread3.unsent (j : Fin n) : Thread3 n → List (CmdBuffer n)
  | .building w _ => [w]
  | .sending w _ _ _ rest => (rest.filter (· = j)).map fun _ => w
  | _ => []

/-- The OK of node `j` that `thread_2` has read. -/
def Thread2.okRead (j : Fin n) : Thread2 n → List (CmdBuffer n)
  | .handling m => if m.senderNodeId = j then m.oks else []
  | _ => []

/-- The batch of node `i` that `thread_2` has read and not answered. -/
def Thread2.unanswered (i : Fin n) : Thread2 n → List (CmdBuffer n)
  | .handling m => if m.senderNodeId = i then m.entries else []
  | .replying dest reply _ => if dest = i then reply.oks else []
  | _ => []

/-- The OKs of node `j` that `thread_3` has counted, and those that wait for it. -/
def arrivedOks (s : Server n DB) (j : Fin n) : List (CmdBuffer n) :=
  (s.thread3.counted.filter (·.1 = j)).map Prod.snd ++
    (s.queue23.filter (·.nodeId = j)).map AppendOk.answers

/-- The batches that wait to be sent to node `j`. -/
def unsentBatches (s : Server n DB) (j : Fin n) : List (CmdBuffer n) :=
  s.thread3.unsent j ++ s.queue13.map Prod.fst

/-- The numbers of the batches. -/
abbrev serials (bs : List (CmdBuffer n)) : List ℕ := bs.map (·.id.serial)

/-- The batches of node `i` between it and node `j`, the oldest first. -/
def underway (c : Cluster n DB) (i j : Fin n) : List ℕ :=
  conveyor (fun s j => serials (arrivedOks s j ++ s.thread2.okRead j))
    (fun s i => serials (s.thread2.unanswered i))
    (fun s j => serials (unsentBatches s j ++ s.thread1.buffers.toList.map Prod.fst))
    (fun m => serials m.entries) (fun m => serials m.oks) c i j

/-- What a step of node `k` does to the batches under way: they may get lost, and those in
`fresh` are new. -/
abbrev StepFlows (k : Fin n) (s : Server n DB) (popped : Outgoing n) (s' : Server n DB)
    (out : Outgoing n) (fresh : List ℕ) : Prop :=
  Flows (fun s j => serials (arrivedOks s j ++ s.thread2.okRead j))
    (fun s i => serials (s.thread2.unanswered i))
    (fun s j => serials (unsentBatches s j ++ s.thread1.buffers.toList.map Prod.fst))
    (fun m => serials m.entries) (fun m => serials m.oks)
    List.Sublist k s (onLink popped) (onLink out) s' fresh

section Flows

variable {k : Fin n} {s s' : Server n DB}

lemma peers_filter {j : Fin n} (h : j ≠ k) : (peers k).filter (· = j) = [j] := by
  have hnodup : (peers k).Nodup := (List.nodup_finRange n).filter _
  rw [List.filter_eq, List.count_eq_one_of_mem hnodup (mem_peers.2 h)]
  rfl

/-- `thread_1` only adds to the batches that wait to be sent. -/
lemma flows_of_thread1 {fresh : List ℕ} (hthread2 : s'.thread2 = s.thread2)
    (hthread3 : s'.thread3 = s.thread3) (hqueue23 : s'.queue23 = s.queue23)
    (hwaiting : List.Sublist
      (serials (s'.queue13.map Prod.fst ++ s'.thread1.buffers.toList.map Prod.fst))
      (serials (s.queue13.map Prod.fst ++ s.thread1.buffers.toList.map Prod.fst) ++ fresh)) :
    StepFlows k s none s' none fresh where
  head := by
    intro j _
    simp only [arrivedOks, hthread2, hthread3, hqueue23, onLink_none, List.flatMap_nil,
      List.append_nil]
    exact List.Sublist.refl _
  mid := by
    intro j _
    simp only [hthread2, onLink_none, List.flatMap_nil, List.append_nil, List.nil_append]
    exact List.Sublist.refl _
  tail := by
    intro j _
    have hall := (List.Sublist.refl (serials (s.thread3.unsent j))).append hwaiting
    simpa only [unsentBatches, hthread3, onLink_none, List.flatMap_nil, List.nil_append,
      List.map_append, List.append_assoc] using hall

lemma Thread1Outcome.flows (h : Thread1Outcome k s s') :
    ∃ fresh, StepFlows k s none s' none fresh ∧
      (fresh = [] ∧ s'.opened = s.opened ∨ fresh = [s.opened] ∧ s'.opened = s.opened + 1) := by
  cases h with
  | seesLeader hidle hleader =>
      refine ⟨[], flows_of_thread1 rfl rfl rfl ?_, .inl ⟨rfl, rfl⟩⟩
      simp [hidle, Thread1.buffers]
  | opens hseen =>
      refine ⟨[s.opened], flows_of_thread1 rfl rfl rfl ?_, .inr ⟨rfl, rfl⟩⟩
      simp [hseen, Thread1.buffers, thread1Open]
  | goesOn hfrom hto =>
      refine ⟨[], flows_of_thread1 rfl rfl rfl ?_, .inl ⟨rfl, rfl⟩⟩
      simp [hfrom, hto]
  | admitsRead hfrom hto =>
      refine ⟨[], flows_of_thread1 rfl rfl rfl ?_, .inl ⟨rfl, rfl⟩⟩
      simp [hfrom, hto]
  | admitsWrite hfrom hto =>
      refine ⟨[], flows_of_thread1 rfl rfl rfl ?_, .inl ⟨rfl, rfl⟩⟩
      simp [hfrom, hto, CmdBuffer.push]
  | abandons hfrom hwhy =>
      refine ⟨[], flows_of_thread1 rfl rfl rfl ?_, .inl ⟨rfl, rfl⟩⟩
      simp [hfrom, Thread1.buffers]
  | enqueues hfrom =>
      refine ⟨[], flows_of_thread1 rfl rfl rfl ?_, .inl ⟨rfl, rfl⟩⟩
      simp [hfrom, Thread1.buffers]

/-- `thread_2` takes OKs from the links to `_2_to_3`, and AppendEntries from the links to its
answers. -/
lemma flows_of_thread2 {popped out : Outgoing n} (hthread1 : s'.thread1 = s.thread1)
    (hqueue13 : s'.queue13 = s.queue13) (hthread3 : s'.thread3 = s.thread3)
    (hout : ∀ j, (onLink out j).flatMap Message.entries = [])
    (hoks : ∀ j, List.Sublist
      ((s'.queue23.filter (·.nodeId = j)).map AppendOk.answers ++ s'.thread2.okRead j)
      ((s.queue23.filter (·.nodeId = j)).map AppendOk.answers ++
        (s.thread2.okRead j ++ (onLink popped j).flatMap Message.oks)))
    (hanswers : ∀ j, List.Sublist
      ((onLink out j).flatMap Message.oks ++ s'.thread2.unanswered j)
      (s.thread2.unanswered j ++ (onLink popped j).flatMap Message.entries)) :
    StepFlows k s popped s' out [] where
  head := by
    intro j _
    have hall := ((List.Sublist.refl
      ((s.thread3.counted.filter (·.1 = j)).map Prod.snd)).append (hoks j)).map (·.id.serial)
    simpa only [arrivedOks, hthread3, serials, List.map_append, List.map_flatMap,
      List.append_assoc] using hall
  mid := by
    intro j _
    simpa only [serials, List.map_append, List.map_flatMap] using
      (hanswers j).map (·.id.serial)
  tail := by
    intro j _
    have hnone : (onLink out j).flatMap (fun m => serials m.entries) = [] := by
      rw [← List.map_flatMap, hout j, List.map_nil]
    simp only [unsentBatches, hthread1, hqueue13, hthread3, hnone, List.nil_append,
      List.append_nil]
    exact List.Sublist.refl _

/-- `thread_2` sends replies only. -/
lemma Thread2Outcome.no_entries {popped out : Outgoing n} (h : Thread2Outcome k s popped s' out)
    (hs : s.thread2.FromOthers k) (j : Fin n) : (onLink out j).flatMap Message.entries = [] := by
  cases h with
  | repliesOk hfrom =>
      rw [hfrom] at hs
      rw [onLink_some]
      split <;> simp [hs.2.1]
  | replies hfrom =>
      rw [hfrom] at hs
      rw [onLink_some]
      split <;> simp [hs.2.1]
  | _ => rfl

/-- A candidate asks for votes only. -/
lemma no_entries_of_election {i : Fin n} {raft : RaftVars} {out : Outgoing n}
    (hout : out = none ∨ ∃ j, i ≠ j ∧ out = some (j, requestVoteMessage i raft)) (j : Fin n) :
    (onLink out j).flatMap Message.entries = [] := by
  rcases hout with rfl | ⟨j₁, _, rfl⟩
  · rfl
  · rw [onLink_some]
    split <;> rfl

lemma Thread2Outcome.flows {popped out : Outgoing n} (h : Thread2Outcome k s popped s' out)
    (hs : s.thread2.FromOthers k) (hpopped : ∀ j m, popped = some (j, m) → m.senderNodeId = j) :
    StepFlows k s popped s' out [] := by
  have hout := h.no_entries hs
  cases h with
  | discards =>
      refine flows_of_thread2 rfl rfl rfl hout (fun j => ?_) (fun j => ?_)
      · simp
      · simp
  | @reads j₀ m raft hidle hterm =>
      -- what has been read from node `j₀` belongs to the conveyor to that node
      have hsender := hpopped j₀ m rfl
      refine flows_of_thread2 rfl rfl rfl hout (fun j => ?_) (fun j => ?_)
      · by_cases hj : j = j₀
        · simp [hidle, Thread2.okRead, hsender, hj]
        · simp [hidle, Thread2.okRead, hsender, hj, Ne.symm hj]
      · by_cases hj : j = j₀
        · simp [hidle, Thread2.unanswered, hsender, hj]
        · simp [hidle, Thread2.unanswered, hsender, hj, Ne.symm hj]
  | accepts hfrom hbody haccepts =>
      refine flows_of_thread2 rfl rfl rfl hout (fun j => ?_) (fun j => ?_)
      · simp [hfrom, Thread2.okRead]
      · simp [hfrom, Thread2.unanswered, Message.oks, Message.entries, hbody]
  | refuses hfrom hbody hrefuses =>
      refine flows_of_thread2 rfl rfl rfl hout (fun j => ?_) (fun j => ?_)
      · simp [hfrom, Thread2.okRead]
      · simp [hfrom, Thread2.unanswered, Message.oks]
  | votes hfrom hbody =>
      refine flows_of_thread2 rfl rfl rfl hout (fun j => ?_) (fun j => ?_)
      · simp [hfrom, Thread2.okRead]
      · simp [hfrom, Thread2.unanswered, Message.oks, thread2RequestVote]
  | @takesOk m term logIdx answers hfrom hbody =>
      refine flows_of_thread2 rfl rfl rfl hout (fun j => ?_) (fun j => ?_)
      · by_cases hj : m.senderNodeId = j
        · simp [hfrom, Thread2.okRead, Message.oks, hbody, hj]
        · simp [hfrom, Thread2.okRead, hj]
      · simp [Thread2.unanswered]
  | takesErr hfrom hbody =>
      refine flows_of_thread2 rfl rfl rfl hout (fun j => ?_) (fun j => ?_)
      · simp [Thread2.okRead]
      · simp [Thread2.unanswered]
  | countsVote hfrom hbody hto =>
      refine flows_of_thread2 rfl rfl rfl hout (fun j => ?_) (fun j => ?_)
      · rcases hto with rfl | rfl <;> simp [Thread2.okRead]
      · rcases hto with rfl | rfl <;> simp [Thread2.unanswered]
  | @repliesOk dest reply b hfrom =>
      refine flows_of_thread2 rfl rfl rfl hout (fun j => ?_) (fun j => ?_)
      · simp [hfrom, Thread2.okRead]
      · by_cases hj : j = dest
        · simp [hfrom, Thread2.unanswered, hj]
        · simp [hfrom, Thread2.unanswered, hj, Ne.symm hj]
  | @replies dest reply hfrom =>
      refine flows_of_thread2 rfl rfl rfl hout (fun j => ?_) (fun j => ?_)
      · simp [hfrom, Thread2.okRead]
      · by_cases hj : j = dest
        · simp [hfrom, Thread2.unanswered, hj]
        · simp [hfrom, Thread2.unanswered, hj, Ne.symm hj]
  | logs hfrom =>
      refine flows_of_thread2 rfl rfl rfl hout (fun j => ?_) (fun j => ?_)
      · simp [hfrom, Thread2.okRead]
      · simp [hfrom, Thread2.unanswered]
  | enqueues hfrom =>
      refine flows_of_thread2 rfl rfl rfl hout (fun j => ?_) (fun j => ?_)
      · simp [hfrom, Thread2.okRead]
      · simp [hfrom, Thread2.unanswered]
  | becomesLeader hfrom =>
      refine flows_of_thread2 rfl rfl rfl hout (fun j => ?_) (fun j => ?_)
      · simp [hfrom, Thread2.okRead]
      · simp [hfrom, Thread2.unanswered]

/-- `thread_3` takes batches from `_1_to_3` and sends them. -/
lemma Thread3Outcome.unsent {out : Outgoing n} (h : Thread3Outcome k s s' out) {j : Fin n}
    (hj : j ≠ k) :
    (onLink out j).flatMap Message.entries ++ unsentBatches s' j = unsentBatches s j := by
  cases h with
  | takes hidle hqueue => simp [unsentBatches, hidle, hqueue, Thread3.unsent]
  | builds hfrom => simp [unsentBatches, hfrom, Thread3.unsent, peers_filter hj]
  | @sends w r prevLogTerm prevLogIndex dest rest hfrom =>
      -- the batch moves from the nodes that remain to the link
      by_cases hdest : j = dest
      · simp [unsentBatches, hfrom, Thread3.unsent, hdest, Message.entries, thread3Message]
      · simp [unsentBatches, hfrom, Thread3.unsent, hdest, Ne.symm hdest]
  | waits hfrom => simp [unsentBatches, hfrom, Thread3.unsent]
  | counts hfrom => simp [unsentBatches, hfrom, Thread3.unsent]
  | skips => rfl
  | commits hfrom => simp [unsentBatches, hfrom, Thread3.unsent]
  | logs hfrom => simp [unsentBatches, hfrom, Thread3.unsent]
  | enqueues hfrom => simp [unsentBatches, hfrom, Thread3.unsent]

/-- It takes OKs from `_2_to_3` and counts some of them, until it has enough. -/
lemma Thread3Outcome.arrivedOks {out : Outgoing n} (h : Thread3Outcome k s s' out) (j : Fin n) :
    List.Sublist (arrivedOks s' j) (arrivedOks s j) := by
  cases h with
  | takes hidle => simp [Oceanliner.arrivedOks, hidle, Thread3.counted]
  | builds hfrom => simp [Oceanliner.arrivedOks, hfrom, Thread3.counted]
  | sends hfrom => simp [Oceanliner.arrivedOks, hfrom, Thread3.counted]
  | waits hfrom => simp [Oceanliner.arrivedOks, hfrom, Thread3.counted]
  | @counts w r counted ok rest hfrom hqueue =>
      by_cases hok : ok.nodeId = j
      · simp [Oceanliner.arrivedOks, hfrom, hqueue, Thread3.counted, hok]
      · simp [Oceanliner.arrivedOks, hfrom, hqueue, Thread3.counted, hok]
  | @skips w r counted ok rest hfrom hqueue =>
      rw [Oceanliner.arrivedOks, Oceanliner.arrivedOks, hqueue]
      exact (List.Sublist.refl _).append (((List.sublist_cons_self ok rest).filter _).map _)
  | commits hfrom => simp [Oceanliner.arrivedOks, Thread3.counted]
  | logs hfrom => simp [Oceanliner.arrivedOks, hfrom, Thread3.counted]
  | enqueues hfrom => simp [Oceanliner.arrivedOks, hfrom, Thread3.counted]

lemma flows_of_thread3 {out : Outgoing n} (hthread1 : s'.thread1 = s.thread1)
    (hthread2 : s'.thread2 = s.thread2) (hout : ∀ j, (onLink out j).flatMap Message.oks = [])
    (hoks : ∀ j, List.Sublist (arrivedOks s' j) (arrivedOks s j))
    (hunsent : ∀ j, j ≠ k →
      (onLink out j).flatMap Message.entries ++ unsentBatches s' j = unsentBatches s j) :
    StepFlows k s none s' out [] where
  head := by
    intro j _
    rw [hthread2, onLink_none, List.flatMap_nil, List.append_nil]
    exact ((hoks j).append (List.Sublist.refl _)).map _
  mid := by
    intro j _
    have hnone : (onLink out j).flatMap (fun m => serials m.oks) = [] := by
      rw [← List.map_flatMap, hout j, List.map_nil]
    simp only [hthread2, hnone, onLink_none, List.flatMap_nil, List.append_nil, List.nil_append]
    exact List.Sublist.refl _
  tail := by
    intro j hj
    rw [← hunsent j hj, hthread1, List.append_nil, ← List.map_flatMap, ← List.map_append,
      List.append_assoc]

lemma Thread3Outcome.no_oks {out : Outgoing n} (h : Thread3Outcome k s s' out) (j : Fin n) :
    (onLink out j).flatMap Message.oks = [] := by
  cases h with
  | sends =>
      rw [onLink_some]
      split <;> rfl
  | _ => rfl

lemma Thread3Outcome.flows {out : Outgoing n} (h : Thread3Outcome k s s' out) :
    StepFlows k s none s' out [] := by
  refine flows_of_thread3 ?_ ?_ h.no_oks h.arrivedOks fun j hj => h.unsent hj
  · cases h <;> rfl
  · cases h <;> rfl

/-- A step that is none of the three threads'. -/
lemma flows_of_same {out : Outgoing n} (hthread1 : s'.thread1 = s.thread1)
    (hthread2 : s'.thread2 = s.thread2) (hthread3 : s'.thread3 = s.thread3)
    (hqueue13 : s'.queue13 = s.queue13) (hqueue23 : s'.queue23 = s.queue23)
    (hok : ∀ j, (onLink out j).flatMap Message.oks = [])
    (hentry : ∀ j, (onLink out j).flatMap Message.entries = []) :
    StepFlows k s none s' out [] := by
  refine flows_of_thread3 hthread1 hthread2 hok (fun j => ?_) (fun j hj => ?_)
  · rw [arrivedOks, arrivedOks, hthread3, hqueue23]
  · rw [unsentBatches, unsentBatches, hthread3, hqueue13, hentry, List.nil_append]

lemma Thread5Outcome.flows {R : RocksDb DB} (h : Thread5Outcome R s s') :
    StepFlows k s none s' none [] := by
  cases h <;> exact flows_of_same rfl rfl rfl rfl rfl (fun j => rfl) (fun j => rfl)

lemma Thread5Outcome.opened {R : RocksDb DB} (h : Thread5Outcome R s s') :
    s'.opened = s.opened := by
  cases h <;> rfl

lemma Thread2Outcome.opened {popped out : Outgoing n} (h : Thread2Outcome k s popped s' out) :
    s'.opened = s.opened := by
  cases h <;> rfl

lemma Thread3Outcome.opened {out : Outgoing n} (h : Thread3Outcome k s s' out) :
    s'.opened = s.opened := by
  cases h <;> rfl

end Flows

/-- The batches of node `i` between it and node `j` are in the order of their creation, each
there once. -/
def InOrder (c : Cluster n DB) : Prop :=
  ∀ i j, i ≠ j → (underway c i j).Pairwise (· < ·) ∧
    ∀ serial ∈ underway c i j, serial < (c.node i).opened

namespace InOrder

variable {R : RocksDb DB} {c c' : Cluster n DB} {a : ClusterAction n}

lemma of_flows {k : Fin n} {s : Server n DB} {popped out : Outgoing n} {fresh : List ℕ}
    (hc : InOrder c) (hmoves : Moves c k s (onLink popped) (onLink out) c')
    (hflows : StepFlows k (c.node k) popped s out fresh)
    (hopened : fresh = [] ∧ s.opened = (c.node k).opened ∨
      fresh = [(c.node k).opened] ∧ s.opened = (c.node k).opened + 1) : InOrder c' := by
  intro i j hij
  obtain ⟨hordered, hbound⟩ := hc i j hij
  have hsub := Network.conveyor_moves _ _ _ _ _ Network.appends_sublist hmoves hflows hij
  by_cases hi : i = k
  · subst hi
    rw [if_pos rfl] at hsub
    rw [hmoves.node_self]
    rcases hopened with ⟨rfl, hsame⟩ | ⟨rfl, hmore⟩
    · rw [List.append_nil] at hsub
      exact ⟨hordered.sublist hsub, fun x hx => hsame ▸ hbound x (hsub.subset hx)⟩
    · -- the new batch has the next serial number
      have hnew : (underway c i j ++ [(c.node i).opened]).Pairwise (· < ·) := by
        rw [List.pairwise_append]
        refine ⟨hordered, List.pairwise_singleton _ _, ?_⟩
        intro x hx y hy
        rw [List.mem_singleton.1 hy]
        exact hbound x hx
      refine ⟨hnew.sublist hsub, fun x hx => ?_⟩
      rw [hmore]
      rcases List.mem_append.1 (hsub.subset hx) with hold | hlast
      · exact Nat.lt_succ_of_lt (hbound x hold)
      · rw [List.mem_singleton.1 hlast]
        exact Nat.lt_succ_self _
  · rw [if_neg hi, List.append_nil] at hsub
    rw [hmoves.node_of_ne hi]
    exact ⟨hordered.sublist hsub, fun x hx => hbound x (hsub.subset hx)⟩

lemma step (hc : InOrder c) (horigins : ClusterOrigins c) (hstep : clusterStep R c a = some c') :
    InOrder c' := by
  cases clusterStep_spec hstep with
  | thread1 h hmoves =>
      obtain ⟨fresh, hflows, hopened⟩ := h.flows
      exact hc.of_flows hmoves hflows hopened
  | @thread2 _ i popped out s _ h hmoves =>
      have hflows := h.flows (horigins.node i).thread2 fun j m hm =>
        (horigins.popped h hmoves hm).sender
      exact hc.of_flows hmoves hflows (.inl ⟨rfl, h.opened⟩)
  | thread3 h hmoves => exact hc.of_flows hmoves h.flows (.inl ⟨rfl, h.opened⟩)
  | thread5 h hmoves => exact hc.of_flows hmoves h.flows (.inl ⟨rfl, h.opened⟩)
  | @election _ i raft out _ hout hmoves =>
      have hentries := no_entries_of_election hout
      refine hc.of_flows hmoves (flows_of_same rfl rfl rfl rfl rfl ?_ hentries) (.inl ⟨rfl, rfl⟩)
      intro j
      rcases hout with rfl | ⟨j₁, _, rfl⟩
      · rfl
      · rw [onLink_some]
        split <;> rfl

lemma start (raft : Fin n → RaftVars) (diskMap : Fin n → DB) :
    InOrder (Cluster.start raft diskMap) := by
  intro i j _
  exact ⟨List.Pairwise.nil, by rintro serial ⟨⟩⟩

end InOrder

/-! ### Counted replies -/

lemma length_le_one_of_pairwise_lt {xs : List ℕ} {x : ℕ} (hordered : xs.Pairwise (· < ·))
    (heq : ∀ y ∈ xs, y = x) : xs.length ≤ 1 := by
  match xs with
  | [] => exact Nat.zero_le 1
  | [y] => exact le_rfl
  | y :: z :: rest =>
      have hlt : y < z := List.rel_of_pairwise_cons hordered List.mem_cons_self
      have hy := heq y List.mem_cons_self
      have hz := heq z (List.mem_cons_of_mem _ List.mem_cons_self)
      omega

/-- The nodes whose OKs `thread_3` has counted are different, when all these OKs answer the
batch it waits for. -/
lemma InOrder.counted_nodup {c : Cluster n DB} (hc : InOrder c) {i : Fin n}
    (horigins : Origins i (c.node i)) {w r : CmdBuffer n}
    {counted : List (Fin n × CmdBuffer n)}
    (hwaiting : (c.node i).thread3 = .waiting w r counted)
    (hanswers : ∀ ok ∈ counted, ok.2 = w) : (counted.map Prod.fst).Nodup := by
  have hthread3 := horigins.thread3
  rw [hwaiting] at hthread3
  rw [List.nodup_iff_count_le_one]
  intro j
  by_cases hj : j = i
  · have hnot : j ∉ counted.map Prod.fst := by
      intro hmem
      obtain ⟨ok, hok, hfst⟩ := List.mem_map.1 hmem
      exact hthread3.2 ok hok (hfst.trans hj)
    rw [List.count_eq_zero_of_not_mem hnot]
    exact Nat.zero_le 1
  · -- the OKs of node `j` stand at the front of the batches under way to it and back
    have hordered := (hc i j (Ne.symm hj)).1
    rw [underway, conveyor, arrivedOks, hwaiting, List.append_assoc, serials, List.map_append,
      List.append_assoc] at hordered
    have hfront := (List.pairwise_append.1 hordered).1
    have hsame : ∀ serial ∈ serials ((counted.filter (·.1 = j)).map Prod.snd),
        serial = w.id.serial := by
      intro serial hserial
      obtain ⟨b, hb, rfl⟩ := List.mem_map.1 hserial
      obtain ⟨ok, hok, rfl⟩ := List.mem_map.1 hb
      rw [hanswers ok (List.mem_of_mem_filter hok)]
    have hlength := length_le_one_of_pairwise_lt hfront hsame
    rw [List.length_map, List.length_map, ← List.countP_eq_length_filter] at hlength
    rw [List.count, List.countP_map]
    exact hlength

end Oceanliner
