/-
# What is never freed

When no batch is on its way, a process owns the buffer of `thread_2` and nothing else.  What is
still live beside it are the messages of `thread_3`, which are never freed: one for each batch that
`thread_1` has passed on.
-/
import Oceanliner.Main.HeapSafety

open Memory Transition

namespace Oceanliner

variable {n : ℕ} {DB : Type}

/-- The batch that `thread_1` passes on in a step. -/
def passedOn (h : HeapNode n DB) : HeapAction n → List (ℕ × ℕ)
  | .thread1 (.tick _) =>
      match h.thread1 with
      | .enqueueing w r => [(w, r)]
      | _ => []
  | _ => []

/-- The batch whose message `thread_3` has not sent to everybody. -/
def HeapThread3.unsent : HeapThread3 n → ℕ
  | .building _ _ => 1
  | .sending _ _ _ _ => 1
  | _ => 0

/-- The messages that have not been sent, and those that have been forgotten. -/
def HeapNode.messages (h : HeapNode n DB) : ℕ :=
  h.queue13.length + h.thread3.unsent + h.leaked.length

/-! ### Every batch becomes a message -/

section Steps

variable {R : RocksDb DB} {self : Fin n} {h h' : HeapNode n DB}

lemma messages_tick {timeUp : Bool} (hstep : heapThread1Step self h (.tick timeUp) = some h') :
    h'.messages = h.messages + (passedOn h (.thread1 (.tick timeUp))).length := by
  rw [heapThread1Step] at hstep
  rw [passedOn]
  cases ht : h.thread1 with
  | idle =>
      simp only [ht, Option.ite_none_right_eq_some] at hstep
      obtain ⟨-, hstep⟩ := hstep
      obtain rfl := Option.some.inj hstep
      rfl
  | leaderSeen | filling w r =>
      simp only [ht, Option.map_eq_some_iff] at hstep
      obtain ⟨a, -, rfl⟩ := hstep
      first | rfl | (split <;> rfl)
  | receiving w r =>
      simp only [ht] at hstep
      obtain rfl := Option.some.inj hstep
      rfl
  | closing w r =>
      simp only [ht, Option.bind_eq_some_iff] at hstep
      obtain ⟨a, -, hstep⟩ := hstep
      split at hstep
      · obtain ⟨m, -, rfl⟩ := Option.map_eq_some_iff.1 hstep
        rfl
      · obtain ⟨⟨b', d'⟩, -, hstep⟩ := Option.bind_eq_some_iff.1 hstep
        split at hstep
        · obtain ⟨m, -, rfl⟩ := Option.map_eq_some_iff.1 hstep
          rfl
        · obtain rfl := Option.some.inj hstep
          rfl
  | enqueueing w r =>
      simp only [ht] at hstep
      obtain rfl := Option.some.inj hstep
      rw [HeapNode.messages, HeapNode.messages, List.length_append]
      show h.queue13.length + 1 + h.thread3.unsent + h.leaked.length =
        h.queue13.length + h.thread3.unsent + h.leaked.length + 1
      omega

lemma messages_datagram {bytes : List UInt8} {memory : ℕ → UInt8}
    (hstep : heapThread1Step self h (.datagram bytes memory) = some h') :
    h'.messages = h.messages := by
  rw [heapThread1Step] at hstep
  split at hstep
  · simp only [Option.bind_eq_some_iff, Option.map_eq_some_iff] at hstep
    obtain ⟨a, -, a', -, admitted, -, m, -, rfl⟩ := hstep
    rfl
  · cases hstep

lemma messages_receive {msg : Message n} {dataToFree : ℕ}
    (hstep : heapThread2Receive h msg dataToFree = some h') : h'.messages = h.messages := by
  rw [heapThread2Receive] at hstep
  split at hstep
  · obtain ⟨m, -, rfl⟩ := Option.map_eq_some_iff.1 hstep
    split <;> rfl
  · cases hstep

lemma messages_handle {msg : Message n} (hstep : heapThread2Handle self h msg = some h') :
    h'.messages = h.messages := by
  rw [heapThread2Handle] at hstep
  split at hstep
  · obtain rfl := Option.some.inj hstep
    rfl
  · obtain rfl := Option.some.inj hstep
    rfl
  · split at hstep <;> obtain rfl := Option.some.inj hstep <;> rfl
  · split at hstep
    · cases hstep
    · obtain rfl := Option.some.inj hstep
      rfl

lemma messages_thread2 (hstep : heapThread2Step self h = some h') : h'.messages = h.messages := by
  rw [heapThread2Step] at hstep
  split at hstep
  · cases hstep
  · split at hstep
    · exact messages_handle hstep
    · cases hstep
  · split at hstep
    · obtain ⟨m, -, rfl⟩ := Option.map_eq_some_iff.1 hstep
      rfl
    · obtain rfl := Option.some.inj hstep
      rfl
  · obtain ⟨a, -, rfl⟩ := Option.map_eq_some_iff.1 hstep
    rfl
  · obtain rfl := Option.some.inj hstep
    rfl
  · obtain rfl := Option.some.inj hstep
    rfl

/-- A batch that `thread_3` takes becomes its message, and a message that it has sent is forgotten. -/
lemma messages_thread3 (hstep : heapThread3Step self h = some h') : h'.messages = h.messages := by
  rw [heapThread3Step] at hstep
  rw [HeapNode.messages, HeapNode.messages]
  cases ht : h.thread3 with
  | idle =>
      simp only [ht] at hstep
      split at hstep
      · cases hstep
      · rename_i w r rest hq
        obtain ⟨⟨b, d⟩, -, hstep⟩ := Option.bind_eq_some_iff.1 hstep
        obtain ⟨⟨b', d'⟩, -, hstep⟩ := Option.bind_eq_some_iff.1 hstep
        split at hstep
        · cases hstep
        · obtain rfl := Option.some.inj hstep
          rw [hq, List.length_cons]
          rfl
  | building w r =>
      simp only [ht] at hstep
      obtain ⟨a, -, rfl⟩ := Option.map_eq_some_iff.1 hstep
      rfl
  | sending w r msg remaining =>
      cases remaining with
      | nil =>
          simp only [ht] at hstep
          obtain rfl := Option.some.inj hstep
          rw [List.length_append]
          -- a message that all nodes have been sent is one that nobody frees
          show h.queue13.length + 0 + (h.leaked.length + 1) = h.queue13.length + 1 + h.leaked.length
          omega
      | cons dest rest =>
          simp only [ht] at hstep
          split at hstep
          · obtain rfl := Option.some.inj hstep
            rfl
          · cases hstep
  | waiting w r counted =>
      simp only [ht] at hstep
      split at hstep
      · split at hstep
        · cases hstep
        · obtain ⟨⟨b, d⟩, -, hstep⟩ := Option.bind_eq_some_iff.1 hstep
          obtain ⟨⟨b', d'⟩, -, hstep⟩ := Option.bind_eq_some_iff.1 hstep
          split at hstep
          · obtain rfl := Option.some.inj hstep
            rfl
          · split at hstep
            · obtain rfl := Option.some.inj hstep
              rfl
            · cases hstep
      · obtain rfl := Option.some.inj hstep
        rfl
  | logging w r =>
      simp only [ht] at hstep
      obtain ⟨a, -, rfl⟩ := Option.map_eq_some_iff.1 hstep
      rfl
  | enqueueingRead w r | enqueueingWrite w =>
      simp only [ht] at hstep
      obtain rfl := Option.some.inj hstep
      rfl

lemma messages_thread4 (hstep : heapThread4Step R h = some h') : h'.messages = h.messages := by
  rw [heapThread4Step] at hstep
  split at hstep
  · split at hstep
    · cases hstep
    · obtain rfl := Option.some.inj hstep
      rfl
  · obtain ⟨⟨b, d⟩, -, hstep⟩ := Option.bind_eq_some_iff.1 hstep
    dsimp only at hstep
    split at hstep
    · obtain ⟨found, -, rfl⟩ := Option.map_eq_some_iff.1 hstep
      rfl
    · obtain ⟨m, -, rfl⟩ := Option.map_eq_some_iff.1 hstep
      rfl
  · split at hstep
    · obtain rfl := Option.some.inj hstep
      rfl
    · cases hstep

lemma messages_thread5 (hstep : heapThread5Step R h = some h') : h'.messages = h.messages := by
  rw [heapThread5Step] at hstep
  split at hstep
  · split at hstep
    · cases hstep
    · obtain ⟨⟨b, d⟩, -, hstep⟩ := Option.bind_eq_some_iff.1 hstep
      dsimp only at hstep
      split at hstep
      · cases hstep
      · obtain rfl := Option.some.inj hstep
        rfl
  · obtain ⟨⟨b, d⟩, -, hstep⟩ := Option.bind_eq_some_iff.1 hstep
    dsimp only at hstep
    split at hstep
    · obtain ⟨found, -, rfl⟩ := Option.map_eq_some_iff.1 hstep
      rfl
    · split at hstep
      · obtain ⟨m, -, rfl⟩ := Option.map_eq_some_iff.1 hstep
        rfl
      · cases hstep
  · obtain rfl := Option.some.inj hstep
    rfl

lemma messages_step {a : HeapAction n} (hstep : heapStep R self h a = some h') :
    h'.messages = h.messages + (passedOn h a).length := by
  cases a with
  | thread1 event =>
      cases event with
      | tick timeUp => exact messages_tick hstep
      | datagram bytes memory =>
          have hdatagram : heapThread1Step self h (.datagram bytes memory) = some h' := hstep
          exact messages_datagram hdatagram
  | receive msg dataToFree => exact messages_receive hstep
  | thread2 => exact messages_thread2 hstep
  | thread3 => exact messages_thread3 hstep
  | thread4 => exact messages_thread4 hstep
  | thread5 => exact messages_thread5 hstep
  | candidate =>
      obtain rfl := Option.some.inj hstep
      rfl

end Steps

/-! ### A process without work -/

/-- No thread has a batch, and none is in a queue. -/
structure HeapNode.Quiet (h : HeapNode n DB) : Prop where
  thread1 : h.thread1 = .idle
  thread2 : h.thread2 = .idle
  thread3 : h.thread3 = .idle
  thread4 : h.thread4 = .idle
  thread5 : h.thread5 = .idle
  queue13 : h.queue13 = []
  queue34 : h.queue34 = []
  queue35 : h.queue35 = []

lemma HeapNode.Quiet.held {h : HeapNode n DB} (hquiet : h.Quiet) :
    ∑ c, h.held c = h.msgBuffer ::ₘ (h.leaked : Multiset ℕ) := by
  have hzero : ∀ c, c ≠ .thread2 ∧ c ≠ .leaked → h.held c = 0 := by
    rintro c ⟨hthread2, hleaked⟩
    cases c with
    | thread1 => exact congrArg HeapThread1.held hquiet.thread1
    | thread2 => exact absurd rfl hthread2
    | thread3 => exact congrArg HeapThread3.held hquiet.thread3
    | thread4 => exact congrArg HeapThread4.held hquiet.thread4
    | thread5 => exact congrArg HeapThread5.held hquiet.thread5
    | queue13 =>
        rw [HeapNode.held, hquiet.queue13]
        rfl
    | queue34 => exact congrArg Multiset.ofList hquiet.queue34
    | queue35 => exact congrArg Multiset.ofList hquiet.queue35
    | leaked => exact absurd rfl hleaked
  rw [Fintype.sum_eq_add Holder.thread2 .leaked nofun hzero, HeapNode.held, HeapNode.held,
    hquiet.thread2, HeapThread2.held, Multiset.cons_add, zero_add]

/-- **Every batch leaves its message behind.**  In every run of a process, when no batch is on its
way any more, the live buffers are that of `thread_2` and as many others as `thread_1` has passed
on batches. -/
theorem messages_never_freed (R : RocksDb DB) (self : Fin n) (raft : RaftVars) (diskMap : DB)
    (as : List (HeapAction n)) {h : HeapNode n DB}
    (hrun : run (heapStep R self) (HeapNode.start raft diskMap) as = some h) (hquiet : h.Quiet) :
    ∃ lost : Finset ℕ,
      lost.card = (trace (heapStep R self) passedOn (HeapNode.start raft diskMap) as).length ∧
        h.msgBuffer ∉ lost ∧ ∀ p, h.memory.cell p ≠ none ↔ p = h.msgBuffer ∨ p ∈ lost := by
  have hstart : ([] : List (ℕ × ℕ)).length =
      (HeapNode.start raft diskMap : HeapNode n DB).messages := rfl
  have hcount := run_invariant_trace passedOn
    (I := fun (h : HeapNode n DB) shown => shown.length = h.messages)
    (fun h shown a h' hshown hstep => by
      rw [messages_step hstep, List.length_append, hshown]) hstart hrun
  have howned : h.memory.Owned (h.msgBuffer ::ₘ (h.leaked : Multiset ℕ)) := by
    obtain ⟨s, hs⟩ := Represents.of_run hrun
    rw [← hquiet.held]
    exact hs.owned
  have hnodup := Multiset.nodup_cons.1 howned.nodup
  refine ⟨⟨h.leaked, hnodup.2⟩, ?_, hnodup.1, fun p => ?_⟩
  · rw [List.nil_append] at hcount
    rw [hcount, HeapNode.messages, hquiet.queue13, hquiet.thread3]
    show h.leaked.length = 0 + 0 + h.leaked.length
    omega
  · rw [howned.live, Multiset.mem_cons]
    rfl

/-- A node without peers commits a SET, and comes to rest. -/
def setAlone : List (HeapAction 1) :=
  [.thread1 (.tick false), .thread1 (.tick false), .thread1 (.tick false),
    .thread1 (.datagram (shortBytes 2) fun _ => 0), .thread1 (.tick true),
    .thread1 (.tick false), .thread1 (.tick false), .thread3, .thread3, .thread3, .thread3,
    .thread3, .thread3, .thread3, .thread4, .thread4, .thread5, .thread5, .thread5, .thread5]

theorem messages_never_freed_alone : ∃ h,
    run (heapStep mapDb 0) (HeapNode.start (firstLeads (0 : Fin 1)) fun _ => none) setAlone =
      some h ∧
    ∃ lost : Finset ℕ, lost.card = 1 ∧ h.msgBuffer ∉ lost ∧
      ∀ p, h.memory.cell p ≠ none ↔ p = h.msgBuffer ∨ p ∈ lost :=
  ⟨_, rfl, messages_never_freed mapDb 0 (firstLeads (0 : Fin 1)) (fun _ => none) setAlone rfl
    ⟨rfl, rfl, rfl, rfl, rfl, rfl, rfl, rfl⟩⟩

end Oceanliner
