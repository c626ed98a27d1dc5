/-
# The owners of the buffers

Every live buffer has one owner: a thread, one of the queues between the threads, or nobody any
more, if it is a message that `thread_3` has sent.  A batch in a buffer says in `data_to_free`
that this is the buffer to free, also when it came in a message (`IsBuffer`).  A process with its
buffers represents one in which batches are values when every holder has pointers to its batches.
-/
import Oceanliner.Main.Heap

open Memory

namespace Oceanliner

variable {n : ℕ} {DB : Type}

/-! ### Pointers to batches -/

/-- The pointer refers to a buffer with the batch, and this buffer is the one to free. -/
def IsBuffer (m : Heap n) (p : ℕ) (b : CmdBuffer n) : Prop := loadBuffer m p = some (b, p)

/-- The pointers refer to the write and the read batch of a pair with the property `P`. -/
def ArePair (m : Heap n) (w r : ℕ) (P : CmdBuffer n → CmdBuffer n → Prop) : Prop :=
  ∃ b b', IsBuffer m w b ∧ IsBuffer m r b' ∧ P b b'

section Pointers

variable {m m' : Heap n} {p w r : ℕ} {b : CmdBuffer n}

lemma IsBuffer.congr (h : IsBuffer m p b) (hcell : m'.cell p = m.cell p) : IsBuffer m' p b := by
  rw [IsBuffer, loadBuffer, hcell]
  exact h

lemma ArePair.congr {P : CmdBuffer n → CmdBuffer n → Prop} (h : ArePair m w r P)
    (hw : m'.cell w = m.cell w) (hr : m'.cell r = m.cell r) : ArePair m' w r P := by
  obtain ⟨b, b', hb, hb', hP⟩ := h
  exact ⟨b, b', hb.congr hw, hb'.congr hr, hP⟩

/-- The owner of a batch can free it. -/
lemma IsBuffer.free {own : Multiset ℕ} (h : IsBuffer m p b) (howned : m.Owned (p ::ₘ own)) :
    ∃ m', freeBuffer m p = some m' ∧ m'.Owned own ∧ ∀ c ∈ own, m'.cell c = m.cell c := by
  rw [freeBuffer, h]
  exact howned.free

/-- The owner of a batch can write to it. -/
lemma IsBuffer.store {own : Multiset ℕ} (h : IsBuffer m p b) (howned : m.Owned own) (hp : p ∈ own)
    (b' : CmdBuffer n) : ∃ m', storeBuffer m p b' = some m' ∧ m'.Owned own ∧
      IsBuffer m' p b' ∧ ∀ c, c ≠ p → m'.cell c = m.cell c := by
  obtain ⟨m', hstore, howned', hcell⟩ := howned.store hp (.cmdBuffer b' p)
  refine ⟨m', ?_, howned', ?_, fun c hc => ?_⟩
  · rw [storeBuffer, h]
    exact hstore
  · rw [IsBuffer, loadBuffer, hcell, Function.update_self]
    rfl
  · rw [hcell, Function.update_of_ne hc]

lemma pair_add (w r : ℕ) (own : Multiset ℕ) : {w, r} + own = w ::ₘ r ::ₘ own := by
  rw [Multiset.insert_eq_cons, Multiset.cons_add, Multiset.singleton_add]

/-- `thread_1` abandons a batch. -/
lemma ArePair.free {own : Multiset ℕ} {P : CmdBuffer n → CmdBuffer n → Prop}
    (h : ArePair m w r P) (howned : m.Owned ({w, r} + own)) :
    ∃ m', freeBuffers m w r = some m' ∧ m'.Owned own ∧ ∀ c ∈ own, m'.cell c = m.cell c := by
  obtain ⟨b, b', hb, hb', -⟩ := h
  rw [pair_add] at howned
  obtain ⟨m₁, hfree, howned₁, hcell₁⟩ := hb.free howned
  obtain ⟨m₂, hfree', howned₂, hcell₂⟩ :=
    (hb'.congr (hcell₁ r (Multiset.mem_cons_self r own))).free howned₁
  refine ⟨m₂, ?_, howned₂, fun c hc => ?_⟩
  · rw [freeBuffers, hfree, Option.bind_some, hfree']
  · rw [hcell₂ c hc, hcell₁ c (Multiset.mem_cons_of_mem hc)]

/-- The field `data_to_free` of a batch in a message can be set by the owner of the message. -/
lemma setDataToFree_raftMsg {own : Multiset ℕ} {msg : Message n} {d : ℕ}
    (h : m.cell p = some (.raftMsg msg d)) (howned : m.Owned own) (hp : p ∈ own) (q : ℕ) :
    ∃ m', setDataToFree m p q = some m' ∧ m'.Owned own ∧ m'.cell p = some (.raftMsg msg q) ∧
      ∀ c, c ≠ p → m'.cell c = m.cell c := by
  obtain ⟨m', hstore, howned', hcell⟩ := howned.store hp (.raftMsg msg q)
  refine ⟨m', ?_, howned', ?_, fun c hc => ?_⟩
  · rw [setDataToFree, h]
    exact hstore
  · rw [hcell, Function.update_self]
  · rw [hcell, Function.update_of_ne hc]

/-- The buffers of a new batch are two, and each is the one to free for its batch. -/
lemma allocBuffers_eq {own : Multiset ℕ} (howned : m.Owned own) (b : CmdBuffer n) :
    ∃ w r m', allocBuffers m b = some (w, r, m') ∧ m'.Owned ({w, r} + own) ∧
      IsBuffer m' w b ∧ IsBuffer m' r b ∧ ∀ c ∈ own, m'.cell c = m.cell c := by
  have howned₁ := howned.malloc (.raw : HeapBlock n)
  have howned₂ := howned₁.malloc (.raw : HeapBlock n)
  set w := m.next with hw
  set m₁ := (m.malloc (.raw : HeapBlock n)).2 with hm₁
  set r := m₁.next with hr
  set m₂ := (m₁.malloc (.raw : HeapBlock n)).2 with hm₂
  have hne : w ≠ r := (Nat.lt_succ_self w).ne
  have hmem : ∀ c, c = w ∨ c = r → c ∈ r ::ₘ w ::ₘ own := by
    rintro c (rfl | rfl)
    · exact Multiset.mem_cons_of_mem (Multiset.mem_cons_self _ _)
    · exact Multiset.mem_cons_self _ _
  obtain ⟨m₃, hstore₃, howned₃, hcell₃⟩ := howned₂.store (hmem w (.inl rfl)) (.cmdBuffer b w)
  obtain ⟨m₄, hstore₄, howned₄, hcell₄⟩ := howned₃.store (hmem r (.inr rfl)) (.cmdBuffer b w)
  obtain ⟨m₅, hstore₅, howned₅, hcell₅⟩ := howned₄.store (hmem r (.inr rfl)) (.cmdBuffer b r)
  have hcell : m₅.cell = Function.update (Function.update m₂.cell w (some (.cmdBuffer b w))) r
      (some (.cmdBuffer b r)) := by
    rw [hcell₅, hcell₄, hcell₃, Function.update_idem]
  refine ⟨w, r, m₅, ?_, ?_, ?_, ?_, fun c hc => ?_⟩
  · show ((m₂.store w (.cmdBuffer b w)).bind fun m₃ => (m₃.cell w).bind fun block =>
      (m₃.store r block).bind fun m₄ => (setDataToFree m₄ r r).map fun m₅ => (w, r, m₅)) = _
    rw [hstore₃, Option.bind_some, hcell₃, Function.update_self, Option.bind_some, hstore₄,
      Option.bind_some, setDataToFree, hcell₄, Function.update_self, Option.bind_some]
    show (m₄.store r (.cmdBuffer b r)).map _ = _
    rw [hstore₅]
    rfl
  · rw [pair_add, Multiset.cons_swap]
    exact howned₅
  · rw [IsBuffer, loadBuffer, hcell, Function.update_of_ne hne, Function.update_self]
    rfl
  · rw [IsBuffer, loadBuffer, hcell, Function.update_self]
    rfl
  · have hlt := howned.lt_next hc
    have hcw : c ≠ w := hlt.ne
    have hcr : c ≠ r := (hlt.trans (Nat.lt_succ_self w)).ne
    rw [hcell, Function.update_of_ne hcr, Function.update_of_ne hcw]
    exact (malloc_cell_of_lt _ (hlt.trans (Nat.lt_succ_self w))).trans (malloc_cell_of_lt _ hlt)

end Pointers

/-! ### Who owns which buffer -/

/-- Those who hold pointers. -/
inductive Holder where
  | thread1
  | thread2
  | thread3
  | thread4
  | thread5
  | queue13
  | queue34
  | queue35
  | leaked
deriving DecidableEq

instance : Fintype Holder where
  elems := {.thread1, .thread2, .thread3, .thread4, .thread5, .queue13, .queue34, .queue35, .leaked}
  complete := fun c => by cases c <;> decide

/-- The buffers of `thread_1`. -/
def HeapThread1.held : HeapThread1 → Multiset ℕ
  | .idle => 0
  | .leaderSeen => 0
  | .filling w r => {w, r}
  | .receiving w r => {w, r}
  | .closing w r => {w, r}
  | .enqueueing w r => {w, r}

/-- The batch that `thread_2` has accepted. -/
def HeapThread2.held : HeapThread2 n → Multiset ℕ
  | .idle => 0
  | .handling => 0
  | .replying _ _ _ => 0
  | .logging p => {p}
  | .enqueueing p => {p}
  | .becomingLeader => 0

/-- The buffers of `thread_3`. -/
def HeapThread3.held : HeapThread3 n → Multiset ℕ
  | .idle => 0
  | .building w r => {w, r}
  | .sending w r msg _ => {msg, w, r}
  | .waiting w r _ => {w, r}
  | .logging w r => {w, r}
  | .enqueueingRead w r => {w, r}
  | .enqueueingWrite w => {w}

/-- The buffer of `thread_4`. -/
def HeapThread4.held : HeapThread4 → Multiset ℕ
  | .idle => 0
  | .reading p _ => {p}
  | .answering p _ _ _ => {p}

/-- The buffer of `thread_5`. -/
def HeapThread5.held : HeapThread5 → Multiset ℕ
  | .idle => 0
  | .applying p _ => {p}
  | .answering p _ _ => {p}

/-- The buffers of a process. -/
def HeapNode.held (h : HeapNode n DB) : Holder → Multiset ℕ
  | .thread1 => h.thread1.held
  | .thread2 => h.msgBuffer ::ₘ h.thread2.held
  | .thread3 => h.thread3.held
  | .thread4 => h.thread4.held
  | .thread5 => h.thread5.held
  | .queue13 => h.queue13.flatMap fun p => [p.1, p.2]
  | .queue34 => h.queue34
  | .queue35 => h.queue35
  | .leaked => h.leaked

/-! ### The batches behind the pointers -/

/-- The batches of a process, with those who hold them. -/
structure Batches (n : ℕ) where
  thread1 : Thread1 n
  thread2 : Thread2 n
  thread3 : Thread3 n
  readCmds : Option (CmdBuffer n)
  thread4 : Thread4 n
  thread5 : Thread5 n
  queue13 : List (CmdBuffer n × CmdBuffer n)
  queue34 : List (CmdBuffer n)
  queue35 : List (CmdBuffer n)

/-- The batches of a process. -/
def Process.batches (s : Process n DB) : Batches n where
  thread1 := s.node.server.thread1
  thread2 := s.node.server.thread2
  thread3 := s.node.server.thread3
  readCmds := s.node.readCmds
  thread4 := s.node.thread4
  thread5 := s.node.server.thread5
  queue13 := s.node.server.queue13
  queue34 := s.node.queue34
  queue35 := s.node.server.queue35

/-- What a process has that is not a batch. -/
def Process.vars (s : Process n DB) : ProcessVars n DB where
  raft := s.node.server.raft
  queue23 := s.node.server.queue23
  logFile := s.node.server.logFile
  diskMap := s.node.server.diskMap
  opened := s.node.server.opened
  sent := s.sent

/-- `thread_1` with pointers is where `t` is. -/
def HeapThread1.Follows (m : Heap n) : HeapThread1 → Thread1 n → Prop
  | .idle, t => t = .idle
  | .leaderSeen, t => t = .leaderSeen
  | .filling w r, t => ArePair m w r fun b b' => t = .filling b b'
  | .receiving w r, t => ArePair m w r fun b b' => t = .receiving b b'
  | .closing w r, t => ArePair m w r fun b b' => t = .closing b b'
  | .enqueueing w r, t => ArePair m w r fun b b' => t = .enqueueing b b'

/-- `thread_2` with pointers is where `t` is; what it handles is in its own buffer. -/
def HeapThread2.Follows (m : Heap n) (msgBuffer : ℕ) : HeapThread2 n → Thread2 n → Prop
  | .idle, t => t = .idle
  | .handling, t => ∃ msg d, m.cell msgBuffer = some (.raftMsg msg d) ∧ t = .handling msg
  | .replying dest reply true, t => ∃ msg d b, m.cell msgBuffer = some (.raftMsg msg d) ∧
      HeapBlock.entries (.raftMsg msg msgBuffer) = some (b, msgBuffer) ∧
        t = .replying dest reply (some b)
  | .replying dest reply false, t => t = .replying dest reply none
  | .logging p, t => ∃ b, IsBuffer m p b ∧ t = .logging b
  | .enqueueing p, t => ∃ b, IsBuffer m p b ∧ t = .enqueueing b
  | .becomingLeader, t => t = .becomingLeader

/-- `thread_3` with pointers is where `t` is, with the read batch `readCmds`. -/
def HeapThread3.Follows (self : Fin n) (m : Heap n) :
    HeapThread3 n → Thread3 n → Option (CmdBuffer n) → Prop
  | .idle, t, readCmds => t = .idle ∧ readCmds = none
  | .building w r, t, readCmds => ArePair m w r fun b b' => t = .building b b' ∧ readCmds = some b'
  | .sending w r msg remaining, t, readCmds => ∃ prevLogTerm prevLogIndex,
      ArePair m w r fun b b' =>
        (∃ d, m.cell msg = some (.raftMsg (thread3Message self b prevLogTerm prevLogIndex) d)) ∧
          t = .sending b b' prevLogTerm prevLogIndex remaining ∧ readCmds = some b'
  | .waiting w r counted, t, readCmds => ArePair m w r fun b b' =>
      (∃ oks, oks.length = counted ∧ t = .waiting b b' oks) ∧ readCmds = some b'
  | .logging w r, t, readCmds => ArePair m w r fun b b' => t = .logging b ∧ readCmds = some b'
  | .enqueueingRead w r, t, readCmds => ArePair m w r fun b b' =>
      t = .enqueueing b ∧ readCmds = some b'
  | .enqueueingWrite w, t, readCmds => ∃ b, IsBuffer m w b ∧ t = .enqueueing b ∧ readCmds = none

/-- `thread_4` with pointers is where `t` is. -/
def HeapThread4.Follows (m : Heap n) : HeapThread4 → Thread4 n → Prop
  | .idle, t => t = .idle
  | .reading p processed, t => ∃ b, IsBuffer m p b ∧ t = .reading b processed
  | .answering p processed length result, t =>
      ∃ b, IsBuffer m p b ∧ t = .answering b processed length result

/-- `thread_5` with pointers is where `t` is. -/
def HeapThread5.Follows (m : Heap n) : HeapThread5 → Thread5 n → Prop
  | .idle, t => t = .idle
  | .applying p processed, t => ∃ b, IsBuffer m p b ∧ t = .applying b processed
  | .answering p processed length, t => ∃ b, IsBuffer m p b ∧ t = .answering b processed length

/-- The holder has pointers to its batches. -/
def HeapNode.Follows (self : Fin n) (m : Heap n) (h : HeapNode n DB) (s : Batches n) :
    Holder → Prop
  | .thread1 => h.thread1.Follows m s.thread1
  | .thread2 => h.thread2.Follows m h.msgBuffer s.thread2
  | .thread3 => h.thread3.Follows self m s.thread3 s.readCmds
  | .thread4 => h.thread4.Follows m s.thread4
  | .thread5 => h.thread5.Follows m s.thread5
  | .queue13 => List.Forall₂ (fun p b => IsBuffer m p.1 b.1 ∧ IsBuffer m p.2 b.2) h.queue13 s.queue13
  | .queue34 => List.Forall₂ (IsBuffer m) h.queue34 s.queue34
  | .queue35 => List.Forall₂ (IsBuffer m) h.queue35 s.queue35
  | .leaked => True

/-- The two processes are the same, and every live buffer has one owner. -/
structure Represents (i : Fin n) (h : HeapNode n DB) (s : Process n DB) : Prop where
  vars : s.vars = h.vars
  owned : h.memory.Owned (∑ c, h.held c)
  follows : ∀ c, h.Follows i h.memory s.batches c

/-! ### Only the buffers of a holder matter -/

section Congr

variable {m m' : Heap n}

lemma mem_pair_left (w r : ℕ) : w ∈ ({w, r} : Multiset ℕ) := Multiset.mem_cons_self _ _

lemma mem_pair_right (w r : ℕ) : r ∈ ({w, r} : Multiset ℕ) :=
  Multiset.mem_cons_of_mem (Multiset.mem_singleton_self r)

/-- A pair of buffers in the hands of one holder. -/
lemma ArePair.congr_held {w r : ℕ} {P : CmdBuffer n → CmdBuffer n → Prop} (h : ArePair m w r P)
    (hcell : ∀ p ∈ ({w, r} : Multiset ℕ), m'.cell p = m.cell p) : ArePair m' w r P :=
  h.congr (hcell w (mem_pair_left w r)) (hcell r (mem_pair_right w r))

lemma HeapThread1.Follows.congr {t : HeapThread1} {t' : Thread1 n} (h : t.Follows m t')
    (hcell : ∀ p ∈ t.held, m'.cell p = m.cell p) : t.Follows m' t' := by
  cases t with
  | idle | leaderSeen => exact h
  | filling w r | receiving w r | closing w r | enqueueing w r => exact ArePair.congr_held h hcell

lemma HeapThread2.Follows.congr {t : HeapThread2 n} {t' : Thread2 n} {msgBuffer : ℕ}
    (h : t.Follows m msgBuffer t') (hcell : ∀ p ∈ msgBuffer ::ₘ t.held, m'.cell p = m.cell p) :
    t.Follows m' msgBuffer t' := by
  have hmsg := hcell msgBuffer (Multiset.mem_cons_self _ _)
  cases t with
  | idle | becomingLeader => exact h
  | handling =>
      obtain ⟨msg, d, hcell', ht⟩ := h
      exact ⟨msg, d, hmsg.trans hcell', ht⟩
  | replying dest reply accepted =>
      cases accepted with
      | false => exact h
      | true =>
          obtain ⟨msg, d, b, hcell', hb, ht⟩ := h
          exact ⟨msg, d, b, hmsg.trans hcell', hb, ht⟩
  | logging p | enqueueing p =>
      obtain ⟨b, hb, ht⟩ := h
      exact ⟨b, hb.congr (hcell p (mem_pair_right msgBuffer p)), ht⟩

lemma HeapThread3.Follows.congr {self : Fin n} {t : HeapThread3 n} {t' : Thread3 n}
    {readCmds : Option (CmdBuffer n)} (h : t.Follows self m t' readCmds)
    (hcell : ∀ p ∈ t.held, m'.cell p = m.cell p) : t.Follows self m' t' readCmds := by
  cases t with
  | idle => exact h
  | building w r | waiting w r counted | logging w r | enqueueingRead w r =>
      exact ArePair.congr_held h hcell
  | sending w r msg remaining =>
      obtain ⟨prevLogTerm, prevLogIndex, b, b', hb, hb', ⟨d, hmsg⟩, ht⟩ := h
      have hpair : ∀ p ∈ ({w, r} : Multiset ℕ), m'.cell p = m.cell p := fun p hp =>
        hcell p (Multiset.mem_cons_of_mem hp)
      exact ⟨prevLogTerm, prevLogIndex, b, b', hb.congr (hpair w (mem_pair_left w r)),
        hb'.congr (hpair r (mem_pair_right w r)),
        ⟨d, (hcell msg (Multiset.mem_cons_self msg {w, r})).trans hmsg⟩, ht⟩
  | enqueueingWrite w =>
      obtain ⟨b, hb, ht⟩ := h
      exact ⟨b, hb.congr (hcell w (Multiset.mem_singleton_self w)), ht⟩

lemma HeapThread4.Follows.congr {t : HeapThread4} {t' : Thread4 n} (h : t.Follows m t')
    (hcell : ∀ p ∈ t.held, m'.cell p = m.cell p) : t.Follows m' t' := by
  cases t with
  | idle => exact h
  | reading p processed | answering p processed length result =>
      obtain ⟨b, hb, ht⟩ := h
      exact ⟨b, hb.congr (hcell p (Multiset.mem_singleton_self p)), ht⟩

lemma HeapThread5.Follows.congr {t : HeapThread5} {t' : Thread5 n} (h : t.Follows m t')
    (hcell : ∀ p ∈ t.held, m'.cell p = m.cell p) : t.Follows m' t' := by
  cases t with
  | idle => exact h
  | applying p processed | answering p processed length =>
      obtain ⟨b, hb, ht⟩ := h
      exact ⟨b, hb.congr (hcell p (Multiset.mem_singleton_self p)), ht⟩

lemma forall₂_isBuffer_congr {ps : List ℕ} {bs : List (CmdBuffer n)}
    (h : List.Forall₂ (IsBuffer m) ps bs) (hcell : ∀ p ∈ ps, m'.cell p = m.cell p) :
    List.Forall₂ (IsBuffer m') ps bs := by
  induction h with
  | nil => exact .nil
  | cons hp _ ih =>
      exact .cons (hp.congr (hcell _ List.mem_cons_self))
        (ih fun p hp => hcell p (List.mem_cons_of_mem _ hp))

lemma forall₂_pair_congr {ps : List (ℕ × ℕ)} {bs : List (CmdBuffer n × CmdBuffer n)}
    (h : List.Forall₂ (fun p b => IsBuffer m p.1 b.1 ∧ IsBuffer m p.2 b.2) ps bs)
    (hcell : ∀ p ∈ ps.flatMap fun p => [p.1, p.2], m'.cell p = m.cell p) :
    List.Forall₂ (fun p b => IsBuffer m' p.1 b.1 ∧ IsBuffer m' p.2 b.2) ps bs := by
  induction h with
  | nil => exact .nil
  | cons hp _ ih =>
      rw [List.flatMap_cons] at hcell
      have hhead := fun p hp => hcell p (List.mem_append_left _ hp)
      exact .cons
        ⟨hp.1.congr (hhead _ List.mem_cons_self),
          hp.2.congr (hhead _ (List.mem_cons_of_mem _ List.mem_cons_self))⟩
        (ih fun p hp => hcell p (List.mem_append_right _ hp))

/-- A holder follows its batches in another memory, if the buffers it holds are the same there. -/
lemma HeapNode.Follows.congr {self : Fin n} {h : HeapNode n DB} {s : Batches n} {c : Holder}
    (hc : h.Follows self m s c) (hcell : ∀ p ∈ h.held c, m'.cell p = m.cell p) :
    h.Follows self m' s c := by
  cases c with
  | thread1 => exact HeapThread1.Follows.congr hc hcell
  | thread2 => exact HeapThread2.Follows.congr hc hcell
  | thread3 => exact HeapThread3.Follows.congr hc hcell
  | thread4 => exact HeapThread4.Follows.congr hc hcell
  | thread5 => exact HeapThread5.Follows.congr hc hcell
  | queue13 => exact forall₂_pair_congr hc hcell
  | queue34 | queue35 => exact forall₂_isBuffer_congr hc hcell
  | leaked => trivial

end Congr

end Oceanliner
