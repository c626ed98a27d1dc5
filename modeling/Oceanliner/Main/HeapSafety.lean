/-
# No buffer is used after it has been freed

A process with its buffers and one in which batches are values take the same steps: the first is
never stuck at a buffer that is not live, and nobody sees the batch of somebody else.  Each thread
has a lemma that says what is to be shown for a step in which only its own pointers and buffers
change, and each handover between a thread and a queue leaves the buffers as they are.
-/
import Oceanliner.Lib.Transition
import Oceanliner.Main.HeapOwners

open Memory Transition

namespace Oceanliner

variable {n : ℕ} {DB : Type}

/-! ### Steps of one holder -/

namespace Represents

variable {self : Fin n} {h : HeapNode n DB} {s s' : Process n DB}

lemma start (self : Fin n) (raft : RaftVars) (diskMap : DB) :
    Represents self (HeapNode.start raft diskMap) (Process.start raft diskMap) where
  vars := rfl
  owned := by
    rw [sum_held _ Holder.thread2]
    have hothers : heldByOthers (HeapNode.start raft diskMap : HeapNode n DB).held .thread2 = 0 :=
      Finset.sum_eq_zero fun c hc => by
        rw [Finset.mem_erase] at hc
        cases c <;> first | rfl | exact absurd rfl hc.1
    rw [hothers, add_zero]
    exact Owned.empty.malloc _
  follows := by
    rintro (_ | _ | _ | _ | _ | _ | _ | _ | _)
    · rfl
    · rfl
    · exact ⟨rfl, rfl⟩
    · rfl
    · rfl
    · exact .nil
    · exact .nil
    · exact .nil
    · trivial

/-- The buffers of one holder, and those of the others. -/
lemma owned_holder (hs : Represents self h s) (c : Holder) :
    h.memory.Owned (h.held c + heldByOthers h.held c) := by
  rw [← sum_held]
  exact hs.owned

/-- What is to be shown for a step in which one holder changes what it holds. -/
lemma of_step (hs : Represents self h s) (i : Holder) {h' : HeapNode n DB}
    (hvars : s'.vars = h'.vars) (hheld : ∀ c, c ≠ i → h'.held c = h.held c)
    (hsame : ∀ m c, c ≠ i → h.Follows self m s.batches c → h'.Follows self m s'.batches c)
    (howned : h'.memory.Owned (h'.held i + heldByOthers h.held i))
    (hcell : ∀ p ∈ heldByOthers h.held i, h'.memory.cell p = h.memory.cell p)
    (hfollows : h'.Follows self h'.memory s'.batches i) : Represents self h' s' where
  vars := hvars
  owned := by
    rw [sum_held_of_eq hheld]
    exact howned
  follows := by
    intro c
    by_cases hc : c = i
    · subst hc
      exact hfollows
    · exact hsame _ c hc ((hs.follows c).congr fun p hp =>
        hcell p (Multiset.mem_of_le (held_le_heldByOthers h.held hc) hp))

lemma of_thread1 (hs : Represents self h s) {m : Heap n} {t : HeapThread1} {t' : Thread1 n}
    {vars : ProcessVars n DB} (hvars : s'.vars = vars)
    (hbatches : s'.batches = { s.batches with thread1 := t' })
    (howned : m.Owned (t.held + heldByOthers h.held .thread1))
    (hcell : ∀ p ∈ heldByOthers h.held .thread1, m.cell p = h.memory.cell p)
    (ht : t.Follows m t') :
    Represents self { h with memory := m, thread1 := t, vars := vars } s' := by
  refine hs.of_step .thread1 hvars ?_ ?_ howned hcell ?_
  · intro c hc
    cases c <;> first | rfl | exact absurd rfl hc
  · intro m c hc hf
    rw [hbatches]
    cases c <;> first | exact hf | exact absurd rfl hc
  · rw [hbatches]
    exact ht

/-- `thread_1` goes on with the same buffers. -/
lemma of_thread1_goesOn (hs : Represents self h s) {t : HeapThread1} {t' : Thread1 n}
    (hvars : s'.vars = h.vars) (hbatches : s'.batches = { s.batches with thread1 := t' })
    (hheld : t.held = h.thread1.held) (ht : t.Follows h.memory t') :
    Represents self { h with thread1 := t } s' := by
  refine hs.of_thread1 hvars hbatches ?_ (fun _ _ => rfl) ht
  rw [hheld]
  exact hs.owned_holder .thread1

lemma of_thread2 (hs : Represents self h s) {m : Heap n} {t : HeapThread2 n} {t' : Thread2 n}
    {msgBuffer : ℕ} {vars : ProcessVars n DB} (hvars : s'.vars = vars)
    (hbatches : s'.batches = { s.batches with thread2 := t' })
    (howned : m.Owned (msgBuffer ::ₘ t.held + heldByOthers h.held .thread2))
    (hcell : ∀ p ∈ heldByOthers h.held .thread2, m.cell p = h.memory.cell p)
    (ht : t.Follows m msgBuffer t') :
    Represents self
      { h with memory := m, thread2 := t, msgBuffer := msgBuffer, vars := vars } s' := by
  refine hs.of_step .thread2 hvars ?_ ?_ howned hcell ?_
  · intro c hc
    cases c <;> first | rfl | exact absurd rfl hc
  · intro m c hc hf
    rw [hbatches]
    cases c <;> first | exact hf | exact absurd rfl hc
  · rw [hbatches]
    exact ht

/-- `thread_2` goes on with the same buffers. -/
lemma of_thread2_goesOn (hs : Represents self h s) {t : HeapThread2 n} {t' : Thread2 n}
    {vars : ProcessVars n DB} (hvars : s'.vars = vars)
    (hbatches : s'.batches = { s.batches with thread2 := t' }) (hheld : t.held = h.thread2.held)
    (ht : t.Follows h.memory h.msgBuffer t') :
    Represents self { h with thread2 := t, vars := vars } s' := by
  refine hs.of_thread2 hvars hbatches ?_ (fun _ _ => rfl) ht
  rw [hheld]
  exact hs.owned_holder .thread2

lemma of_thread3 (hs : Represents self h s) {m : Heap n} {t : HeapThread3 n} {t' : Thread3 n}
    {readCmds : Option (CmdBuffer n)} {vars : ProcessVars n DB} (hvars : s'.vars = vars)
    (hbatches : s'.batches = { s.batches with thread3 := t', readCmds := readCmds })
    (howned : m.Owned (t.held + heldByOthers h.held .thread3))
    (hcell : ∀ p ∈ heldByOthers h.held .thread3, m.cell p = h.memory.cell p)
    (ht : t.Follows self m t' readCmds) :
    Represents self { h with memory := m, thread3 := t, vars := vars } s' := by
  refine hs.of_step .thread3 hvars ?_ ?_ howned hcell ?_
  · intro c hc
    cases c <;> first | rfl | exact absurd rfl hc
  · intro m c hc hf
    rw [hbatches]
    cases c <;> first | exact hf | exact absurd rfl hc
  · rw [hbatches]
    exact ht

/-- `thread_3` goes on with the same buffers. -/
lemma of_thread3_goesOn (hs : Represents self h s) {t : HeapThread3 n} {t' : Thread3 n}
    {readCmds : Option (CmdBuffer n)} {vars : ProcessVars n DB} (hvars : s'.vars = vars)
    (hbatches : s'.batches = { s.batches with thread3 := t', readCmds := readCmds })
    (hheld : t.held = h.thread3.held) (ht : t.Follows self h.memory t' readCmds) :
    Represents self { h with thread3 := t, vars := vars } s' := by
  refine hs.of_thread3 hvars hbatches ?_ (fun _ _ => rfl) ht
  rw [hheld]
  exact hs.owned_holder .thread3

lemma of_thread4 (hs : Represents self h s) {m : Heap n} {t : HeapThread4} {t' : Thread4 n}
    (hvars : s'.vars = h.vars) (hbatches : s'.batches = { s.batches with thread4 := t' })
    (howned : m.Owned (t.held + heldByOthers h.held .thread4))
    (hcell : ∀ p ∈ heldByOthers h.held .thread4, m.cell p = h.memory.cell p)
    (ht : t.Follows m t') : Represents self { h with memory := m, thread4 := t } s' := by
  refine hs.of_step .thread4 hvars ?_ ?_ howned hcell ?_
  · intro c hc
    cases c <;> first | rfl | exact absurd rfl hc
  · intro m c hc hf
    rw [hbatches]
    cases c <;> first | exact hf | exact absurd rfl hc
  · rw [hbatches]
    exact ht

/-- `thread_4` goes on with the same buffer. -/
lemma of_thread4_goesOn (hs : Represents self h s) {t : HeapThread4} {t' : Thread4 n}
    (hvars : s'.vars = h.vars) (hbatches : s'.batches = { s.batches with thread4 := t' })
    (hheld : t.held = h.thread4.held) (ht : t.Follows h.memory t') :
    Represents self { h with thread4 := t } s' := by
  refine hs.of_thread4 hvars hbatches ?_ (fun _ _ => rfl) ht
  rw [hheld]
  exact hs.owned_holder .thread4

lemma of_thread5 (hs : Represents self h s) {m : Heap n} {t : HeapThread5} {t' : Thread5 n}
    {vars : ProcessVars n DB} (hvars : s'.vars = vars)
    (hbatches : s'.batches = { s.batches with thread5 := t' })
    (howned : m.Owned (t.held + heldByOthers h.held .thread5))
    (hcell : ∀ p ∈ heldByOthers h.held .thread5, m.cell p = h.memory.cell p)
    (ht : t.Follows m t') :
    Represents self { h with memory := m, thread5 := t, vars := vars } s' := by
  refine hs.of_step .thread5 hvars ?_ ?_ howned hcell ?_
  · intro c hc
    cases c <;> first | rfl | exact absurd rfl hc
  · intro m c hc hf
    rw [hbatches]
    cases c <;> first | exact hf | exact absurd rfl hc
  · rw [hbatches]
    exact ht

/-- `thread_5` goes on with the same buffer. -/
lemma of_thread5_goesOn (hs : Represents self h s) {t : HeapThread5} {t' : Thread5 n}
    {vars : ProcessVars n DB} (hvars : s'.vars = vars)
    (hbatches : s'.batches = { s.batches with thread5 := t' })
    (hheld : t.held = h.thread5.held) (ht : t.Follows h.memory t') :
    Represents self { h with thread5 := t, vars := vars } s' := by
  refine hs.of_thread5 hvars hbatches ?_ (fun _ _ => rfl) ht
  rw [hheld]
  exact hs.owned_holder .thread5

/-- What is to be shown for a step in which one holder hands a batch over to another one. -/
lemma of_transfer (hs : Represents self h s) {i j : Holder} (hij : i ≠ j) {h' : HeapNode n DB}
    (hmemory : h'.memory = h.memory) (hvars : s'.vars = h'.vars)
    (hheld : h'.held i + h'.held j = h.held i + h.held j)
    (hrest : ∀ c, c ≠ i → c ≠ j → h'.held c = h.held c ∧
      ∀ m, h.Follows self m s.batches c → h'.Follows self m s'.batches c)
    (hi : h'.Follows self h.memory s'.batches i) (hj : h'.Follows self h.memory s'.batches j) :
    Represents self h' s' where
  vars := hvars
  owned := by
    rw [hmemory, sum_held_of_transfer hij hheld fun c hci hcj => (hrest c hci hcj).1]
    exact hs.owned
  follows := by
    intro c
    rw [hmemory]
    by_cases hci : c = i
    · subst hci
      exact hi
    · by_cases hcj : c = j
      · subst hcj
        exact hj
      · exact (hrest c hci hcj).2 _ (hs.follows c)

variable {R : RocksDb DB}

lemma raft_eq (hs : Represents self h s) : h.vars.raft = s.node.server.raft :=
  (congrArg ProcessVars.raft hs.vars).symm

lemma opened_eq (hs : Represents self h s) : h.vars.opened = s.node.server.opened :=
  (congrArg ProcessVars.opened hs.vars).symm

lemma tick (hs : Represents self h s) (timeUp : Bool) : Option.Rel (Represents self)
    (heapThread1Step self h (.tick timeUp)) (processStep R self s (.thread1 (.tick timeUp))) := by
  have hfollows : h.thread1.Follows h.memory s.node.server.thread1 := hs.follows .thread1
  have howned : h.memory.Owned (h.thread1.held + heldByOthers h.held .thread1) :=
    hs.owned_holder .thread1
  rw [heapThread1Step, processStep, leaderStep, thread1Step, hs.raft_eq, hs.opened_eq]
  cases ht : h.thread1 with
  | idle =>
      rw [ht] at hfollows
      have hidle : s.node.server.thread1 = .idle := hfollows
      simp only [hidle]
      split
      · refine .some (hs.of_thread1_goesOn hs.vars rfl ?_ rfl)
        rw [ht]
        rfl
      · exact .none
  | leaderSeen =>
      rw [ht] at hfollows howned
      have hseen : s.node.server.thread1 = .leaderSeen := hfollows
      simp only [hseen]
      rw [HeapThread1.held, zero_add] at howned
      -- two buffers are allocated, for the writes and for the reads
      obtain ⟨w, r, m, halloc, hm, hw, hr, hcell⟩ :=
        allocBuffers_eq howned (thread1Open s.node.server.raft ⟨self, s.node.server.opened⟩)
      simp only [halloc, Option.map_some]
      refine .some (hs.of_thread1 ?_ rfl hm hcell ⟨_, _, hw, hr, rfl⟩)
      rw [← hs.vars]
      rfl
  | filling w r =>
      rw [ht] at hfollows
      obtain ⟨b, b', hb, hb', hfilling⟩ := hfollows
      simp only [hfilling]
      rw [hb, Option.map_some]
      have hheld : ∀ t : HeapThread1, t.held = {w, r} → t.held = h.thread1.held := by
        intro t hw
        rw [ht]
        exact hw
      split
      · exact .some (hs.of_thread1_goesOn hs.vars rfl (hheld _ rfl) ⟨b, b', hb, hb', rfl⟩)
      · exact .some (hs.of_thread1_goesOn hs.vars rfl (hheld _ rfl) ⟨b, b', hb, hb', rfl⟩)
  | receiving w r =>
      rw [ht] at hfollows
      obtain ⟨b, b', hb, hb', hreceiving⟩ := hfollows
      simp only [hreceiving]
      refine .some (hs.of_thread1_goesOn hs.vars rfl ?_ ⟨b, b', hb, hb', rfl⟩)
      rw [ht]
      rfl
  | closing w r =>
      rw [ht] at hfollows howned
      -- without a command, or when the node does not lead any more, both buffers are freed
      have habandon := hfollows.free howned
      obtain ⟨m, hfree, hm, hcell⟩ := habandon
      have hidle : Represents self { h with memory := m, thread1 := .idle }
          { s with
            node := { s.node with
              server := { s.node.server with thread1 := .idle }
              received := s.node.received ++ receivedGet s.node.server (.tick timeUp) } } := by
        refine hs.of_thread1 hs.vars rfl ?_ hcell rfl
        rw [HeapThread1.held, zero_add]
        exact hm
      obtain ⟨b, b', hb, hb', hclosing⟩ := hfollows
      simp only [hclosing]
      rw [hb, Option.bind_some]
      split
      · rw [hfree]
        exact .some hidle
      · rw [hb', Option.bind_some]
        split
        · rw [hfree]
          exact .some hidle
        · refine .some (hs.of_thread1_goesOn hs.vars rfl ?_ ⟨b, b', hb, hb', rfl⟩)
          rw [ht]
          rfl
  | enqueueing w r =>
      rw [ht] at hfollows
      obtain ⟨b, b', hb, hb', henqueueing⟩ := hfollows
      simp only [henqueueing]
      refine .some (hs.of_transfer (i := .thread1) (j := .queue13) (by decide) rfl hs.vars ?_ ?_ rfl ?_)
      · -- the two buffers change hands
        show 0 + ((h.queue13 ++ [(w, r)]).flatMap fun p => [p.1, p.2] : Multiset ℕ) =
          h.thread1.held + (h.queue13.flatMap fun p => [p.1, p.2] : Multiset ℕ)
        rw [ht, List.flatMap_append, ← Multiset.coe_add, zero_add, add_comm]
        rfl
      · intro c hi hj
        cases c <;> first | exact ⟨rfl, fun _ hf => hf⟩ | exact absurd rfl hi | exact absurd rfl hj
      · exact List.rel_append (hs.follows .queue13) (.cons ⟨hb, hb'⟩ .nil)

lemma datagram (hs : Represents self h s) (bytes : List UInt8) (memory : ℕ → UInt8) :
    Option.Rel (Represents self) (heapThread1Step self h (.datagram bytes memory))
      (processStep R self s (.thread1 (.datagram bytes memory))) := by
  have hfollows : h.thread1.Follows h.memory s.node.server.thread1 := hs.follows .thread1
  have howned : h.memory.Owned (h.thread1.held + heldByOthers h.held .thread1) :=
    hs.owned_holder .thread1
  rw [heapThread1Step, processStep, leaderStep, thread1Step]
  cases ht : h.thread1 with
  | idle | leaderSeen =>
      rw [ht] at hfollows
      have hthread1 : s.node.server.thread1 = _ := hfollows
      simp only [hthread1]
      exact .none
  | filling w r | closing w r | enqueueing w r =>
      rw [ht] at hfollows
      obtain ⟨b, b', hb, hb', hthread1⟩ := hfollows
      simp only [hthread1]
      exact .none
  | receiving w r =>
      rw [ht] at hfollows howned
      obtain ⟨b, b', hb, hb', hreceiving⟩ := hfollows
      simp only [hreceiving]
      rw [hb, Option.bind_some, hb', Option.bind_some]
      cases hadmit : thread1Admit b b' bytes memory with
      | none => exact .none
      | some pair =>
          obtain ⟨b₁, b₁'⟩ := pair
          have hnodup : ({w, r} + heldByOthers h.held .thread1 : Multiset ℕ).Nodup := howned.nodup
          rw [pair_add, Multiset.nodup_cons, Multiset.nodup_cons, Multiset.mem_cons, not_or] at hnodup
          obtain ⟨⟨hne, hw⟩, hr, -⟩ := hnodup
          simp only [Option.bind_some, Option.map_some]
          -- the pointers stay the same, whichever of the two batches has grown
          have hrest : ∀ {m : Heap n}, m.Owned ({w, r} + heldByOthers h.held .thread1) →
              IsBuffer m w b₁ → IsBuffer m r b₁' →
              (∀ p ∈ heldByOthers h.held .thread1, m.cell p = h.memory.cell p) →
              ∀ {filled : CmdBuffer n} {s' : Process n DB}, s'.vars = s.vars →
              s'.batches = { s.batches with
                thread1 := if thread1Full filled then .closing b₁ b₁' else .filling b₁ b₁' } →
              Represents self { h with
                memory := m
                thread1 := if thread1Full filled then .closing w r else .filling w r } s' := by
            intro m hm hmw hmr hcell filled s' hvars hbatches
            refine hs.of_thread1 (hvars.trans hs.vars) hbatches ?_ hcell ?_
            · split <;> exact hm
            · split <;> exact ⟨b₁, b₁', hmw, hmr, rfl⟩
          rcases thread1Admit_spec hadmit with ⟨hget, rfl, -⟩ | ⟨hget, rfl, -⟩
          · simp only [hget, if_true]
            obtain ⟨m, hstore, hm, hmr, hcell⟩ := hb'.store howned
              (Multiset.mem_add.2 (.inl (mem_pair_right w r))) b₁'
            rw [hstore]
            exact .some (hrest hm (hb.congr (hcell w hne)) hmr
              (fun p hp => hcell p fun heq => hr (heq ▸ hp)) rfl rfl)
          · simp only [hget, Bool.false_eq_true, if_false]
            obtain ⟨m, hstore, hm, hmw, hcell⟩ := hb.store howned
              (Multiset.mem_add.2 (.inl (mem_pair_left w r))) b₁
            rw [hstore]
            exact .some (hrest hm hmw (hb'.congr (hcell r (Ne.symm hne)))
              (fun p hp => hcell p fun heq => hw (heq ▸ hp)) rfl rfl)

/-- The buffer of `thread_2` is not one of the others. -/
lemma msgBuffer_notMem (hs : Represents self h s) :
    h.msgBuffer ∉ h.thread2.held + heldByOthers h.held .thread2 := by
  have hnodup := (hs.owned_holder .thread2).nodup
  change (h.msgBuffer ::ₘ h.thread2.held + heldByOthers h.held .thread2).Nodup at hnodup
  rw [Multiset.cons_add, Multiset.nodup_cons] at hnodup
  exact hnodup.1

/-- `thread_2` is in its loop with pointers when it is there with batches. -/
lemma thread2_idle_iff (hs : Represents self h s) :
    s.node.server.thread2 = .idle ↔ h.thread2 = .idle := by
  have hfollows : h.thread2.Follows h.memory h.msgBuffer s.node.server.thread2 :=
    hs.follows .thread2
  cases ht : h.thread2 with
  | idle =>
      rw [ht] at hfollows
      exact iff_of_true hfollows rfl
  | handling =>
      rw [ht] at hfollows
      obtain ⟨msg, d, -, hthread2⟩ := hfollows
      rw [hthread2]
      exact iff_of_false nofun nofun
  | replying dest reply accepted =>
      rw [ht] at hfollows
      cases accepted with
      | false =>
          have hthread2 : s.node.server.thread2 = _ := hfollows
          rw [hthread2]
          exact iff_of_false nofun nofun
      | true =>
          obtain ⟨msg, d, b, -, -, hthread2⟩ := hfollows
          rw [hthread2]
          exact iff_of_false nofun nofun
  | logging p | enqueueing p =>
      rw [ht] at hfollows
      obtain ⟨b, -, hthread2⟩ := hfollows
      rw [hthread2]
      exact iff_of_false nofun nofun
  | becomingLeader =>
      rw [ht] at hfollows
      have hthread2 : s.node.server.thread2 = _ := hfollows
      rw [hthread2]
      exact iff_of_false nofun nofun

lemma receive (hs : Represents self h s) (msg : Message n) (dataToFree : ℕ) :
    Option.Rel (Represents self) (heapThread2Receive h msg dataToFree)
      (processStep R self s (.receive msg)) := by
  rw [heapThread2Receive, processStep, thread2Receive, hs.raft_eq]
  by_cases ht : h.thread2 = .idle
  · have hidle := hs.thread2_idle_iff.2 ht
    have howned := hs.owned_holder .thread2
    change h.memory.Owned (h.msgBuffer ::ₘ h.thread2.held + heldByOthers h.held .thread2) at howned
    obtain ⟨m, hstore, hm, hcell⟩ := howned.store (c := h.msgBuffer)
      (Multiset.mem_add.2 (.inl (Multiset.mem_cons_self _ _))) (.raftMsg msg dataToFree)
    have hothers : ∀ p ∈ heldByOthers h.held .thread2, m.cell p = h.memory.cell p := by
      intro p hp
      have hne : p ≠ h.msgBuffer := fun heq =>
        hs.msgBuffer_notMem (Multiset.mem_add.2 (.inr (heq ▸ hp)))
      rw [hcell, Function.update_of_ne hne]
    rw [ht] at hm
    simp only [ht, hidle]
    rw [hstore, Option.map_some]
    cases thread2Term s.node.server.raft msg.term with
    | none =>
        refine .some (hs.of_thread2 hs.vars ?_ hm hothers rfl)
        show s.batches = { s.batches with thread2 := .idle }
        rw [← hidle]
        rfl
    | some raft =>
        refine .some (hs.of_thread2 ?_ rfl hm hothers ⟨msg, dataToFree, ?_, rfl⟩)
        · rw [← hs.vars]
          rfl
        · rw [hcell, Function.update_self]
  · -- a busy `thread_2` reads no message, with pointers or with batches
    have hbusy : s.node.server.thread2 ≠ .idle := fun hidle => ht (hs.thread2_idle_iff.1 hidle)
    split
    · rename_i hidle
      exact absurd hidle ht
    · split
      · rename_i hidle
        exact absurd hidle hbusy
      · exact .none

lemma handle (hs : Represents self h s) {msg : Message n} {d : ℕ} (ht : h.thread2 = .handling)
    (hcell : h.memory.cell h.msgBuffer = some (.raftMsg msg d))
    (hthread2 : s.node.server.thread2 = .handling msg) :
    Option.Rel (Represents self) (heapThread2Handle self h msg)
      (processStep R self s .thread2) := by
  have hheld : ∀ t : HeapThread2 n, t.held = 0 → t.held = h.thread2.held := by
    intro t ht'
    rw [ht', ht]
    rfl
  obtain ⟨term, sender, body⟩ := msg
  rw [processStep, thread2Step]
  simp only [hthread2]
  rw [heapThread2Handle, thread2Handle, hs.raft_eq]
  cases body with
  | appendEntries prevLogTerm prevLogIndex leaderCommit entries =>
      refine .some (hs.of_thread2_goesOn hs.vars rfl (hheld _ rfl) ?_)
      -- an accepted batch stays in the message buffer for now
      cases thread2Accepts s.node.server.raft prevLogTerm prevLogIndex with
      | false => rfl
      | true => exact ⟨_, d, entries, hcell, rfl, rfl⟩
  | requestVote lastLogTerm lastLogIndex =>
      exact .some (hs.of_thread2_goesOn hs.vars rfl (hheld _ rfl) rfl)
  | respAppendEntries success term' logIdx answers =>
      cases success with
      | false => exact .some (hs.of_thread2_goesOn hs.vars rfl (hheld _ rfl) rfl)
      | true =>
          refine .some (hs.of_thread2_goesOn ?_ rfl (hheld _ rfl) rfl)
          rw [← hs.vars]
          rfl
  | respRequestVote voteGranted =>
      dsimp only
      split
      · exact .none
      · refine .some (hs.of_thread2_goesOn ?_ rfl (hheld _ ?_) ?_)
        · rw [← hs.vars]
          rfl
        · split <;> rfl
        · split <;> rfl

lemma thread2 (hs : Represents self h s) : Option.Rel (Represents self)
    (heapThread2Step self h) (processStep R self s .thread2) := by
  have hfollows : h.thread2.Follows h.memory h.msgBuffer s.node.server.thread2 :=
    hs.follows .thread2
  have howned := hs.owned_holder .thread2
  change h.memory.Owned (h.msgBuffer ::ₘ h.thread2.held + heldByOthers h.held .thread2) at howned
  rw [heapThread2Step]
  cases ht : h.thread2 with
  | idle =>
      rw [ht] at hfollows
      have hidle : s.node.server.thread2 = .idle := hfollows
      rw [processStep, thread2Step]
      simp only [hidle]
      exact .none
  | handling =>
      rw [ht] at hfollows
      obtain ⟨msg, d, hcell, hthread2⟩ := hfollows
      simp only [hcell]
      exact hs.handle ht hcell hthread2
  | replying dest reply accepted =>
      rw [ht] at hfollows howned
      rw [processStep, thread2Step]
      cases accepted with
      | false =>
          have hthread2 : s.node.server.thread2 = .replying dest reply none := hfollows
          simp only [hthread2]
          refine .some (hs.of_thread2_goesOn ?_ rfl ?_ rfl)
          · rw [← hs.vars]
            rfl
          · rw [ht]
            rfl
      | true =>
          obtain ⟨msg, d, b, hcell, hb, hthread2⟩ := hfollows
          simp only [hthread2]
          rw [HeapThread2.held] at howned
          obtain ⟨m, hset, hm, hmcell, hothers⟩ := setDataToFree_raftMsg hcell howned
            (Multiset.mem_add.2 (.inl (Multiset.mem_cons_self _ _))) h.msgBuffer
          -- the message goes on with its batch, and `thread_2` takes a new buffer
          have hlt : ∀ p ∈ h.msgBuffer ::ₘ 0 + heldByOthers h.held .thread2,
              (m.malloc .raw).2.cell p = m.cell p := fun p hp =>
            malloc_cell_of_lt _ (hm.lt_next hp)
          rw [hset]
          refine .some (hs.of_thread2 ?_ rfl ?_ (fun p hp => ?_) ⟨b, ?_, rfl⟩)
          · rw [← hs.vars]
            rfl
          · have hnew := hm.malloc (.raw : HeapBlock n)
            rw [← Multiset.cons_add] at hnew
            exact hnew
          · have hne : p ≠ h.msgBuffer := fun heq =>
              hs.msgBuffer_notMem (Multiset.mem_add.2 (.inr (heq ▸ hp)))
            exact (hlt p (Multiset.mem_add.2 (.inr hp))).trans (hothers p hne)
          · rw [IsBuffer, loadBuffer,
              hlt _ (Multiset.mem_add.2 (.inl (Multiset.mem_cons_self _ _))), hmcell]
            exact hb
  | logging p =>
      rw [ht] at hfollows
      obtain ⟨b, hb, hthread2⟩ := hfollows
      rw [processStep, thread2Step]
      simp only [hthread2]
      rw [hb]
      refine .some (hs.of_thread2_goesOn ?_ rfl ?_ ⟨b, hb, rfl⟩)
      · rw [← hs.vars]
        rfl
      · rw [ht]
        rfl
  | enqueueing p =>
      rw [ht] at hfollows
      obtain ⟨b, hb, hthread2⟩ := hfollows
      rw [processStep, thread2Step]
      simp only [hthread2]
      refine .some (hs.of_transfer (i := .thread2) (j := .queue35) (by decide) rfl hs.vars ?_ ?_ rfl ?_)
      · -- the message now belongs to the queue of `thread_5`
        show h.msgBuffer ::ₘ 0 + ((h.queue35 ++ [p] : List ℕ) : Multiset ℕ) =
          h.msgBuffer ::ₘ h.thread2.held + (h.queue35 : Multiset ℕ)
        rw [ht, HeapThread2.held, ← Multiset.coe_add, Multiset.cons_add, Multiset.cons_add, zero_add,
          add_comm]
        rfl
      · intro c hi hj
        cases c <;> first | exact ⟨rfl, fun _ hf => hf⟩ | exact absurd rfl hi | exact absurd rfl hj
      · exact List.rel_append (hs.follows .queue35) (.cons hb .nil)
  | becomingLeader =>
      rw [ht] at hfollows
      have hthread2 : s.node.server.thread2 = _ := hfollows
      rw [processStep, thread2Step]
      simp only [hthread2]
      refine .some (hs.of_thread2_goesOn ?_ rfl ?_ rfl)
      · rw [hs.raft_eq, ← hs.vars]
        rfl
      · rw [ht]
        rfl

lemma queue23_eq (hs : Represents self h s) : h.vars.queue23 = s.node.server.queue23 :=
  (congrArg ProcessVars.queue23 hs.vars).symm

lemma thread3 (hs : Represents self h s) : Option.Rel (Represents self)
    (heapThread3Step self h) (processStep R self s .thread3) := by
  have hfollows : h.thread3.Follows self h.memory s.node.server.thread3 s.node.readCmds :=
    hs.follows .thread3
  have howned : h.memory.Owned (h.thread3.held + heldByOthers h.held .thread3) :=
    hs.owned_holder .thread3
  rw [heapThread3Step, processStep, leaderThread3Step, thread3Sends, thread3Step, hs.raft_eq,
    hs.queue23_eq]
  cases ht : h.thread3 with
  | idle =>
      rw [ht] at hfollows
      obtain ⟨hidle, hnone⟩ := hfollows
      simp only [hidle, hnone]
      -- the pair at the head of the queue becomes that of `thread_3`
      have hqueue : List.Forall₂ _ h.queue13 s.node.server.queue13 := hs.follows .queue13
      cases hq : h.queue13 with
      | nil =>
          rw [hq] at hqueue
          rw [List.forall₂_nil_left_iff.1 hqueue]
          exact .none
      | cons pair rest =>
          obtain ⟨w, r⟩ := pair
          rw [hq] at hqueue
          obtain ⟨⟨b, b'⟩, rest', ⟨hb, hb'⟩, hrest, hqueue'⟩ := List.forall₂_cons_left_iff.1 hqueue
          simp only [hqueue']
          rw [hb, Option.bind_some, hb', Option.bind_some]
          split
          · exact .none
          · refine .some (hs.of_transfer (i := .queue13) (j := .thread3) (by decide) rfl hs.vars ?_ ?_
              hrest ⟨b, b', hb, hb', rfl, rfl⟩)
            · show (rest.flatMap fun p => [p.1, p.2] : Multiset ℕ) + {w, r} =
                (h.queue13.flatMap fun p => [p.1, p.2] : Multiset ℕ) + h.thread3.held
              rw [ht, hq, List.flatMap_cons, ← Multiset.coe_add, HeapThread3.held, add_zero,
                add_comm]
              rfl
            · intro c hi hj
              cases c <;>
                first | exact ⟨rfl, fun _ hf => hf⟩ | exact absurd rfl hi | exact absurd rfl hj
  | building w r =>
      rw [ht] at hfollows howned
      obtain ⟨b, b', hb, hb', hbuilding, hread⟩ := hfollows
      simp only [hbuilding, hread]
      rw [hb, Option.map_some]
      -- the message is a copy of the write batch in a new buffer
      have hlt : ∀ p ∈ {w, r} + heldByOthers h.held .thread3, ∀ block : HeapBlock n,
          (h.memory.malloc block).2.cell p = h.memory.cell p := fun p hp block =>
        malloc_cell_of_lt _ (howned.lt_next hp)
      refine .some (hs.of_thread3 ?_ rfl ?_ (fun p hp => ?_)
        ⟨_, _, b, b', hb.congr ?_, hb'.congr ?_, ⟨_, malloc_cell_next _ _⟩, rfl, rfl⟩)
      · exact hs.vars
      · have hnew := howned.malloc (.raftMsg (thread3Message self b
          s.node.server.raft.lastAppliedTerm s.node.server.raft.lastAppliedIndex) w)
        rw [← Multiset.cons_add] at hnew
        exact hnew
      · exact hlt p (Multiset.mem_add.2 (.inr hp)) _
      · exact hlt w (Multiset.mem_add.2 (.inl (mem_pair_left w r))) _
      · exact hlt r (Multiset.mem_add.2 (.inl (mem_pair_right w r))) _
  | sending w r msg remaining =>
      rw [ht] at hfollows
      obtain ⟨prevLogTerm, prevLogIndex, b, b', hb, hb', ⟨d, hmsg⟩, hsending, hread⟩ := hfollows
      cases remaining with
      | nil =>
          simp only [hsending, hread]
          -- the message has been sent to all nodes, and nobody frees it
          refine .some (hs.of_transfer (i := .thread3) (j := .leaked) (by decide) rfl hs.vars ?_ ?_
            ⟨b, b', hb, hb', ⟨[], rfl, rfl⟩, rfl⟩ trivial)
          · show {w, r} + ((h.leaked ++ [msg] : List ℕ) : Multiset ℕ) =
              h.thread3.held + (h.leaked : Multiset ℕ)
            rw [ht, HeapThread3.held, ← Multiset.coe_add, Multiset.coe_singleton,
              Multiset.insert_eq_cons msg, ← Multiset.singleton_add,
              add_comm (h.leaked : Multiset ℕ), add_left_comm, add_assoc]
          · intro c hi hj
            cases c <;> first | exact ⟨rfl, fun _ hf => hf⟩ | exact absurd rfl hi | exact absurd rfl hj
      | cons dest rest =>
          simp only [hsending, hread, hmsg]
          refine .some (hs.of_thread3_goesOn ?_ rfl ?_
            ⟨prevLogTerm, prevLogIndex, b, b', hb, hb', ⟨d, hmsg⟩, rfl, rfl⟩)
          · rw [← hs.vars]
            rfl
          · rw [ht]
            rfl
  | waiting w r counted =>
      rw [ht] at hfollows
      obtain ⟨b, b', hb, hb', ⟨oks, rfl, hwaiting⟩, hread⟩ := hfollows
      simp only [hwaiting, hread]
      -- the code keeps a number where the model keeps the OKs it has counted
      have hgoesOn : ∀ {oks' : List (Fin n × CmdBuffer n)} {counted : ℕ} {rest : List (AppendOk n)}
          {s' : Process n DB}, oks'.length = counted → s'.vars = { s.vars with queue23 := rest } →
          s'.batches = { s.batches with thread3 := .waiting b b' oks', readCmds := some b' } →
          Represents self { h with
            thread3 := .waiting w r counted
            vars := { h.vars with queue23 := rest } } s' := by
        intro oks' counted rest s' hlen hvars hbatches
        refine hs.of_thread3_goesOn ?_ hbatches ?_ ⟨b, b', hb, hb', ⟨oks', hlen, rfl⟩, rfl⟩
        · rw [hvars, hs.vars]
        · rw [ht]
          rfl
      split
      · cases hq : s.node.server.queue23 with
        | nil => exact .none
        | cons ok rest =>
            dsimp only
            rw [hb, Option.bind_some, hb', Option.bind_some]
            split
            · exact .some (hgoesOn (List.length_append ..) rfl rfl)
            · split
              · exact .some (hgoesOn rfl rfl rfl)
              · exact .none
      · refine .some (hs.of_thread3_goesOn hs.vars rfl ?_ ⟨b, b', hb, hb', rfl, rfl⟩)
        rw [ht]
        rfl
  | logging w r =>
      rw [ht] at hfollows
      obtain ⟨b, b', hb, hb', hlogging, hread⟩ := hfollows
      simp only [hlogging, hread]
      rw [hb, Option.map_some]
      refine .some (hs.of_thread3_goesOn ?_ rfl ?_ ⟨b, b', hb, hb', rfl, rfl⟩)
      · rw [← hs.vars]
        rfl
      · rw [ht]
        rfl
  | enqueueingRead w r =>
      rw [ht] at hfollows
      obtain ⟨b, b', hb, hb', henqueueing, hread⟩ := hfollows
      simp only [henqueueing, hread]
      refine .some (hs.of_transfer (i := .thread3) (j := .queue34) (by decide) rfl hs.vars ?_ ?_
        ⟨b, hb, henqueueing, rfl⟩ ?_)
      · show {w} + ((h.queue34 ++ [r] : List ℕ) : Multiset ℕ) =
          h.thread3.held + (h.queue34 : Multiset ℕ)
        rw [ht, HeapThread3.held, ← Multiset.coe_add, Multiset.coe_singleton,
          Multiset.insert_eq_cons, ← Multiset.singleton_add, add_assoc,
          add_comm (h.queue34 : Multiset ℕ)]
      · intro c hi hj
        cases c <;> first | exact ⟨rfl, fun _ hf => hf⟩ | exact absurd rfl hi | exact absurd rfl hj
      · exact List.rel_append (hs.follows .queue34) (.cons hb' .nil)
  | enqueueingWrite w =>
      rw [ht] at hfollows
      obtain ⟨b, hb, henqueueing, hread⟩ := hfollows
      simp only [henqueueing, hread]
      refine .some (hs.of_transfer (i := .thread3) (j := .queue35) (by decide) rfl hs.vars ?_ ?_
        ⟨rfl, rfl⟩ ?_)
      · show 0 + ((h.queue35 ++ [w] : List ℕ) : Multiset ℕ) =
          h.thread3.held + (h.queue35 : Multiset ℕ)
        rw [ht, HeapThread3.held, ← Multiset.coe_add, Multiset.coe_singleton, zero_add, add_comm]
      · intro c hi hj
        cases c <;> first | exact ⟨rfl, fun _ hf => hf⟩ | exact absurd rfl hi | exact absurd rfl hj
      · exact List.rel_append (hs.follows .queue35) (.cons hb .nil)

lemma diskMap_eq (hs : Represents self h s) : h.vars.diskMap = s.node.server.diskMap :=
  (congrArg ProcessVars.diskMap hs.vars).symm

lemma thread4 (hs : Represents self h s) : Option.Rel (Represents self)
    (heapThread4Step R h) (processStep R self s .thread4) := by
  have hfollows : h.thread4.Follows h.memory s.node.thread4 := hs.follows .thread4
  have howned : h.memory.Owned (h.thread4.held + heldByOthers h.held .thread4) :=
    hs.owned_holder .thread4
  rw [heapThread4Step, processStep, thread4Step, hs.diskMap_eq]
  cases ht : h.thread4 with
  | idle =>
      rw [ht] at hfollows
      have hidle : s.node.thread4 = .idle := hfollows
      simp only [hidle]
      have hqueue : List.Forall₂ _ h.queue34 s.node.queue34 := hs.follows .queue34
      cases hq : h.queue34 with
      | nil =>
          rw [hq] at hqueue
          rw [List.forall₂_nil_left_iff.1 hqueue]
          exact .none
      | cons p rest =>
          rw [hq] at hqueue
          obtain ⟨b, rest', hb, hrest, hqueue'⟩ := List.forall₂_cons_left_iff.1 hqueue
          simp only [hqueue']
          refine .some (hs.of_transfer (i := .queue34) (j := .thread4) (by decide) rfl hs.vars ?_ ?_
            hrest ⟨b, hb, rfl⟩)
          · show (rest : Multiset ℕ) + {p} = (h.queue34 : Multiset ℕ) + h.thread4.held
            rw [ht, hq, HeapThread4.held, add_zero, ← Multiset.cons_coe, ← Multiset.singleton_add,
              add_comm]
          · intro c hi hj
            cases c <;>
              first | exact ⟨rfl, fun _ hf => hf⟩ | exact absurd rfl hi | exact absurd rfl hj
  | reading p processed =>
      rw [ht] at hfollows howned
      obtain ⟨b, hb, hreading⟩ := hfollows
      simp only [hreading]
      rw [hb, Option.bind_some]
      split
      · cases thread4Command b processed with
        | none => exact .none
        | some found =>
            refine .some (hs.of_thread4_goesOn hs.vars rfl ?_ ⟨b, hb, rfl⟩)
            rw [ht]
            rfl
      · rw [HeapThread4.held, Multiset.singleton_add] at howned
        obtain ⟨m, hfree, hm, hcell⟩ := hb.free howned
        rw [hfree]
        refine .some (hs.of_thread4 hs.vars rfl ?_ hcell rfl)
        rw [HeapThread4.held, zero_add]
        exact hm
  | answering p processed length result =>
      rw [ht] at hfollows
      obtain ⟨b, hb, hanswering⟩ := hfollows
      simp only [hanswering]
      split
      · refine .some (hs.of_thread4_goesOn hs.vars rfl ?_ ⟨b, hb, rfl⟩)
        rw [ht]
        rfl
      · exact .none

lemma thread5 (hs : Represents self h s) : Option.Rel (Represents self)
    (heapThread5Step R h) (processStep R self s .thread5) := by
  have hfollows : h.thread5.Follows h.memory s.node.server.thread5 := hs.follows .thread5
  have howned : h.memory.Owned (h.thread5.held + heldByOthers h.held .thread5) :=
    hs.owned_holder .thread5
  rw [heapThread5Step, processStep, thread5Step, hs.diskMap_eq]
  cases ht : h.thread5 with
  | idle =>
      rw [ht] at hfollows
      have hidle : s.node.server.thread5 = .idle := hfollows
      simp only [hidle]
      have hqueue : List.Forall₂ _ h.queue35 s.node.server.queue35 := hs.follows .queue35
      cases hq : h.queue35 with
      | nil =>
          rw [hq] at hqueue
          rw [List.forall₂_nil_left_iff.1 hqueue]
          exact .none
      | cons p rest =>
          rw [hq] at hqueue
          obtain ⟨b, rest', hb, hrest, hqueue'⟩ := List.forall₂_cons_left_iff.1 hqueue
          simp only [hqueue']
          rw [hb, Option.bind_some]
          split
          · exact .none
          · refine .some (hs.of_transfer (i := .queue35) (j := .thread5) (by decide) rfl hs.vars ?_ ?_
              hrest ⟨b, hb, rfl⟩)
            · show (rest : Multiset ℕ) + {p} = (h.queue35 : Multiset ℕ) + h.thread5.held
              rw [ht, hq, HeapThread5.held, add_zero, ← Multiset.cons_coe,
                ← Multiset.singleton_add, add_comm]
            · intro c hi hj
              cases c <;>
                first | exact ⟨rfl, fun _ hf => hf⟩ | exact absurd rfl hi | exact absurd rfl hj
  | applying p processed =>
      rw [ht] at hfollows howned
      obtain ⟨b, hb, happlying⟩ := hfollows
      simp only [happlying]
      rw [hb, Option.bind_some]
      split
      · cases thread5Command R s.node.server.diskMap b processed with
        | none => exact .none
        | some found =>
            refine .some (hs.of_thread5_goesOn ?_ rfl ?_ ⟨b, hb, rfl⟩)
            · rw [← hs.vars]
              rfl
            · rw [ht]
              rfl
      · split
        · rw [HeapThread5.held, Multiset.singleton_add] at howned
          obtain ⟨m, hfree, hm, hcell⟩ := hb.free howned
          rw [hfree]
          refine .some (hs.of_thread5 hs.vars rfl ?_ hcell rfl)
          rw [HeapThread5.held, zero_add]
          exact hm
        · exact .none
  | answering p processed length =>
      rw [ht] at hfollows
      obtain ⟨b, hb, hanswering⟩ := hfollows
      simp only [hanswering]
      refine .some (hs.of_thread5_goesOn hs.vars rfl ?_ ⟨b, hb, rfl⟩)
      rw [ht]
      rfl

/-- **The two processes take the same step.** -/
theorem step (hs : Represents self h s) (a : HeapAction n) : Option.Rel (Represents self)
    (heapStep R self h a) (processStep R self s a.toProcess) := by
  cases a with
  | thread1 event =>
      cases event with
      | tick timeUp => exact hs.tick timeUp
      | datagram bytes memory => exact hs.datagram bytes memory
  | receive m dataToFree => exact hs.receive m dataToFree
  | thread2 => exact hs.thread2
  | thread3 => exact hs.thread3
  | thread4 => exact hs.thread4
  | thread5 => exact hs.thread5
  | candidate =>
      rw [heapStep, HeapAction.toProcess, processStep, hs.raft_eq]
      refine .some { hs with vars := ?_ }
      rw [← hs.vars]
      rfl

/-- **The two processes have the same runs.** -/
theorem run (R : RocksDb DB) (self : Fin n) (raft : RaftVars) (diskMap : DB)
    (as : List (HeapAction n)) : Option.Rel (Represents self)
      (Transition.run (heapStep R self) (HeapNode.start raft diskMap) as)
      (Transition.run (processStep R self) (Process.start raft diskMap)
        (as.map HeapAction.toProcess)) :=
  run_lockstep HeapAction.toProcess (fun _ _ a hs => hs.step a) (.start self raft diskMap) as

lemma of_run {raft : RaftVars} {diskMap : DB} {as : List (HeapAction n)}
    (hrun : Transition.run (heapStep R self) (HeapNode.start raft diskMap) as = some h) :
    ∃ s, Represents self h s := by
  have hrel := Represents.run R self raft diskMap as
  rw [hrun] at hrel
  revert hrel
  generalize Transition.run (processStep R self) (Process.start raft diskMap)
    (as.map HeapAction.toProcess) = last
  rintro (hs | _)
  exact ⟨_, hs⟩

end Represents

/-- **The buffers are safe.**  Whatever the threads of a process do, in whatever order, and whatever
messages it receives, each of them whole and with the batch that `cmds_length` announces, the
process with its buffers can do it exactly when the process in which batches are values can, and
with the same results: no step uses or frees a buffer that is not live, and no thread finds another
batch in a buffer than the one it has been handed. -/
theorem buffers_safe (R : RocksDb DB) (self : Fin n) (raft : RaftVars) (diskMap : DB)
    (as : List (HeapAction n)) :
    (run (heapStep R self) (HeapNode.start raft diskMap) as).map HeapNode.vars =
      (run (processStep R self) (Process.start raft diskMap)
        (as.map HeapAction.toProcess)).map Process.vars := by
  have hrel := Represents.run R self raft diskMap as
  revert hrel
  generalize run (heapStep R self) (HeapNode.start raft diskMap) as = end₁,
    run (processStep R self) (Process.start raft diskMap) (as.map HeapAction.toProcess) = end₂
  rintro (hs | _)
  · exact congrArg some hs.vars.symm
  · rfl

end Oceanliner
