/-
# The queues between the threads

`spsc_queue_enqueue` makes a copy of the item on the heap and pushes the pointer to it onto a
`GAsyncQueue`; `spsc_queue_dequeue` pops a pointer, copies the item to its caller and frees the
copy.  The pushes and pops of a `GAsyncQueue` are atomic, and a pop waits for an item.

The queues are named after a single producer and a single consumer, but `_3_to_5` has two
producers.  Any number of threads may call both functions below, and what they call is still a
queue (`spsc_linearizable`), without a copy that is used after it has been freed, is freed twice
or is lost (`spsc_memory_safe`).

Left out are the null checks, the return value for a failed `g_memdup2`, which aborts instead,
and the one for a null pointer in the queue, which nobody pushes.  A step that is not defined is
a thread that waits, or that uses or frees a copy which is not live.
-/
import Oceanliner.Lib.Linearizability
import Oceanliner.Lib.Memory

open Linearizability Memory Transition

namespace Oceanliner

/-! ### The functions -/

/-- `spsc_queue_t`: the pointers in its `gqueue`, and the memory they point to.  An item is the
`element_size` bytes that are copied. -/
structure SpscQueue (α : Type) where
  memory : Memory α
  gqueue : List ℕ

/-- `spsc_queue_init`. -/
def spscQueueInit (α : Type) : SpscQueue α := ⟨.empty, []⟩

/-- `spsc_queue_destroy`: GLib frees what is still in the queue. -/
def spscQueueDestroy {α : Type} (q : SpscQueue α) : Option (Memory α) :=
  q.memory.freeAll (q.gqueue.map some)

/-- Where a thread stands in `spsc_queue_enqueue`: before it copies the item, before it pushes the
copy, or before it returns. -/
inductive EnqueueAt (α : Type) where
  | memdup (item : α)
  | push (itemCopy : ℕ)
  | done

/-- Where a thread stands in `spsc_queue_dequeue`: before it pops a pointer, before it copies what
the pointer refers to, before it frees that, or before it returns. -/
inductive DequeueAt (α : Type) where
  | pop
  | memcpy (itemCopy : ℕ)
  | free (itemCopy : ℕ) (item : α)
  | done (item : α)

/-- A step of `spsc_queue_enqueue`; without a place to go on it returns. -/
def spscQueueEnqueue {α : Type} (q : SpscQueue α) :
    EnqueueAt α → SpscQueue α × Option (EnqueueAt α)
  | .memdup item =>
      ({ q with memory := (q.memory.malloc item).2 }, some (.push (q.memory.malloc item).1))
  | .push itemCopy => ({ q with gqueue := q.gqueue ++ [itemCopy] }, some .done)
  | .done => (q, none)

/-- A step of `spsc_queue_dequeue`. -/
def spscQueueDequeue {α : Type} (q : SpscQueue α) :
    DequeueAt α → Option (SpscQueue α × Option (DequeueAt α))
  | .pop =>
      match q.gqueue with
      | [] => none
      | itemCopy :: rest => some ({ q with gqueue := rest }, some (.memcpy itemCopy))
  | .memcpy itemCopy => (q.memory.cell itemCopy).map fun item => (q, some (.free itemCopy item))
  | .free itemCopy item =>
      (q.memory.free (some itemCopy)).map fun memory =>
        ({ q with memory := memory }, some (.done item))
  | .done _ => some (q, none)

/-! ### Threads that call them -/

/-- What a thread calls. -/
inductive SpscOp (α : Type) where
  | enqueue (item : α)
  | dequeue

/-- Where a thread stands. -/
inductive SpscThread (α : Type) where
  | idle
  | enqueue (stage : EnqueueAt α)
  | dequeue (stage : DequeueAt α)

/-- A queue, the threads that use it, and how many calls each of them has made. -/
structure SpscWorld (ι α : Type) where
  queue : SpscQueue α
  thread : ι → SpscThread α
  calls : ι → ℕ

/-- A thread calls one of the functions, or takes a step in the one it has called. -/
inductive SpscAction (ι α : Type) where
  | call (i : ι) (op : SpscOp α)
  | step (i : ι)

section World

variable {ι α : Type} [DecidableEq ι]

/-- A new queue, which no thread has used. -/
def SpscWorld.init (ι α : Type) : SpscWorld ι α := ⟨spscQueueInit α, fun _ => .idle, fun _ => 0⟩

/-- Where a call starts. -/
def SpscOp.entry : SpscOp α → SpscThread α
  | .enqueue item => .enqueue (.memdup item)
  | .dequeue => .dequeue .pop

/-- A step of one thread. -/
def spscStep (w : SpscWorld ι α) : SpscAction ι α → Option (SpscWorld ι α)
  | .call i op =>
      match w.thread i with
      | .idle =>
          some
            { w with
              thread := Function.update w.thread i op.entry
              calls := Function.update w.calls i (w.calls i + 1) }
      | _ => none
  | .step i =>
      match w.thread i with
      | .idle => none
      | .enqueue stage =>
          match spscQueueEnqueue w.queue stage with
          | (queue, next) =>
              some
                { w with
                  queue := queue
                  thread := Function.update w.thread i ((next.map .enqueue).getD .idle) }
      | .dequeue stage =>
          (spscQueueDequeue w.queue stage).map fun (queue, next) =>
            { w with
              queue := queue
              thread := Function.update w.thread i ((next.map .dequeue).getD .idle) }

/-- The calls and returns that are seen in a step, each with the thread and the number of its
call. -/
def spscEvents (w : SpscWorld ι α) :
    SpscAction ι α → List (Event (ι × ℕ) (SpscOp α) (Option α))
  | .call i op => [.invoke (i, w.calls i + 1) op]
  | .step i =>
      match w.thread i with
      | .enqueue .done => [.respond (i, w.calls i) none]
      | .dequeue (.done item) => [.respond (i, w.calls i) (some item)]
      | _ => []

/-- A queue on which operations take effect at once. -/
def fifo (items : List α) : SpscOp α → List α × Option α
  | .enqueue item => (items ++ [item], none)
  | .dequeue => (items.tail, items.head?)

/-! ### The owners of the copies -/

/-- The copies that a thread owns. -/
def SpscThread.held : SpscThread α → Multiset ℕ
  | .idle => 0
  | .enqueue (.memdup _) => 0
  | .enqueue (.push itemCopy) => {itemCopy}
  | .enqueue .done => 0
  | .dequeue .pop => 0
  | .dequeue (.memcpy itemCopy) => {itemCopy}
  | .dequeue (.free itemCopy _) => {itemCopy}
  | .dequeue (.done _) => 0

variable [Fintype ι]

/-- The copies that the threads other than `i` own. -/
def SpscWorld.others (w : SpscWorld ι α) (i : ι) : Multiset ℕ :=
  heldByOthers (fun j => (w.thread j).held) i

/-- Every live copy is in the queue or with a thread, and nowhere else. -/
def SpscWorld.OneOwner (w : SpscWorld ι α) : Prop :=
  w.queue.memory.Owned (w.queue.gqueue + ∑ i, (w.thread i).held)

/-! ### The queue as a service -/

/-- A queue with a lane for each thread. -/
abbrev FifoService (ι α : Type) := Service (ι × ℕ) (SpscOp α) (Option α) (List α) ι

/-- A move of the service. -/
def fifoStep (σ : FifoService ι α) : Move (ι × ℕ) (SpscOp α) ι → Option (FifoService ι α) :=
  Service.step Prod.fst fifo σ

/-- What waits in the lane of a thread and what is unanswered there, when the call of the thread
is `id`. -/
def SpscThread.Follows (m : Memory α) (id : ι × ℕ) (t : SpscThread α)
    (waiting : List ((ι × ℕ) × SpscOp α)) (unanswered : List ((ι × ℕ) × Option α)) : Prop :=
  match t with
  | .idle => waiting = [] ∧ unanswered = []
  | .enqueue (.memdup item) => waiting = [(id, .enqueue item)] ∧ unanswered = []
  | .enqueue (.push itemCopy) =>
      ∃ item, m.cell itemCopy = some item ∧ waiting = [(id, .enqueue item)] ∧ unanswered = []
  | .enqueue .done => waiting = [] ∧ unanswered = [(id, none)]
  | .dequeue .pop => waiting = [(id, .dequeue)] ∧ unanswered = []
  | .dequeue (.memcpy itemCopy) =>
      ∃ item, m.cell itemCopy = some item ∧ waiting = [] ∧ unanswered = [(id, some item)]
  | .dequeue (.free _ item) => waiting = [] ∧ unanswered = [(id, some item)]
  | .dequeue (.done item) => waiting = [] ∧ unanswered = [(id, some item)]

omit [DecidableEq ι] [Fintype ι] in
/-- Only the copies that the thread owns matter. -/
lemma SpscThread.Follows.congr {m m' : Memory α} {id : ι × ℕ} {t : SpscThread α}
    {waiting : List ((ι × ℕ) × SpscOp α)} {unanswered : List ((ι × ℕ) × Option α)}
    (h : t.Follows m id waiting unanswered) (hcell : ∀ c ∈ t.held, m'.cell c = m.cell c) :
    t.Follows m' id waiting unanswered := by
  cases t with
  | idle => exact h
  | enqueue stage =>
      cases stage with
      | memdup item => exact h
      | push itemCopy =>
          obtain ⟨item, hitem, hlists⟩ := h
          exact ⟨item, (hcell itemCopy (Multiset.mem_singleton_self _)).trans hitem, hlists⟩
      | done => exact h
  | dequeue stage =>
      cases stage with
      | pop => exact h
      | memcpy itemCopy =>
          obtain ⟨item, hitem, hlists⟩ := h
          exact ⟨item, (hcell itemCopy (Multiset.mem_singleton_self _)).trans hitem, hlists⟩
      | free itemCopy item => exact h
      | done item => exact h

/-- The effects of a lane, as its thread will return them. -/
def effects (cs : List (Completed (ι × ℕ) (SpscOp α) (Option α))) : List ((ι × ℕ) × Option α) :=
  cs.map fun c => (c.id, c.result)

/-- The threads and the queue do what the service does. -/
structure Queues (w : SpscWorld ι α) (σ : FifoService ι α) : Prop where
  oneOwner : w.OneOwner
  items : w.queue.gqueue.map w.queue.memory.cell = σ.object.map some
  threads : ∀ i, (w.thread i).Follows w.queue.memory (i, w.calls i) (σ.waiting i)
    (effects (σ.unanswered i))
  called : ∀ p ∈ σ.called, p.2 ≤ w.calls p.1

namespace Queues

variable {w w' : SpscWorld ι α} {σ σ' : FifoService ι α}

omit [DecidableEq ι] in
lemma start : Queues (SpscWorld.init ι α) (.start []) where
  oneOwner := by
    show (Memory.empty : Memory α).Owned (↑([] : List ℕ) + ∑ i : ι, 0)
    rw [Finset.sum_const_zero, add_zero]
    exact .empty
  items := rfl
  threads := fun i => ⟨rfl, rfl⟩
  called := by rintro p ⟨⟩

/-- What is to be shown for a step of thread `i`. -/
lemma of_step (hs : Queues w σ) {i : ι} {queue : SpscQueue α} {t : SpscThread α}
    (howned : queue.memory.Owned (queue.gqueue + (t.held + w.others i)))
    (hitems : queue.gqueue.map queue.memory.cell = σ'.object.map some)
    (hcell : ∀ c ∈ w.others i, queue.memory.cell c = w.queue.memory.cell c)
    (hthread : t.Follows queue.memory (i, w.calls i) (σ'.waiting i) (effects (σ'.unanswered i)))
    (hwaiting : ∀ j, j ≠ i → σ'.waiting j = σ.waiting j)
    (hunanswered : ∀ j, j ≠ i → σ'.unanswered j = σ.unanswered j)
    (hcalled : σ'.called = σ.called) :
    Queues { w with queue := queue, thread := Function.update w.thread i t } σ' where
  oneOwner := by
    have hne : ∀ j, j ≠ i → (Function.update w.thread i t j).held = (w.thread j).held :=
      fun j hj => by rw [Function.update_of_ne hj]
    rw [SpscWorld.OneOwner, sum_held_of_eq hne, Function.update_self]
    exact howned
  items := hitems
  threads := by
    intro j
    by_cases hj : j = i
    · subst hj
      show SpscThread.Follows _ _ (Function.update w.thread j t j) _ _
      rw [Function.update_self]
      exact hthread
    · show SpscThread.Follows _ _ (Function.update w.thread i t j) _ _
      rw [Function.update_of_ne hj, hwaiting j hj, hunanswered j hj]
      exact (hs.threads j).congr fun c hc =>
        hcell c (Multiset.mem_of_le (held_le_heldByOthers (fun j => (w.thread j).held) hj) hc)
  called := by
    rw [hcalled]
    exact hs.called

/-- The copies in the queue, with thread `i` and with the others. -/
lemma owned (hs : Queues w σ) (i : ι) : w.queue.memory.Owned
    (w.queue.gqueue + ((w.thread i).held + w.others i)) := by
  rw [SpscWorld.others, ← sum_held (fun j => (w.thread j).held) i]
  exact hs.oneOwner

lemma of_call (hs : Queues w σ) {i : ι} {op : SpscOp α}
    (h : spscStep w (.call i op) = some w') :
    ∃ moves σ', run fifoStep σ moves = some σ' ∧
      trace fifoStep Service.emit σ moves = spscEvents w (.call i op) ∧ Queues w' σ' := by
  rw [spscStep] at h
  split at h
  · rename_i hidle
    obtain rfl := Option.some.inj h
    have hfollows := hs.threads i
    rw [hidle] at hfollows
    obtain ⟨hwaiting, hunanswered⟩ := hfollows
    -- a thread numbers its calls, and this is its next one
    have hfresh : (i, w.calls i + 1) ∉ σ.called := fun hmem =>
      absurd (hs.called _ hmem) (Nat.not_succ_le_self _)
    have hmove : fifoStep σ (.invoke (i, w.calls i + 1) op) =
        some (σ.afterInvoke Prod.fst (i, w.calls i + 1) op) := if_neg hfresh
    refine ⟨[.invoke (i, w.calls i + 1) op], _, run_singleton hmove, trace_singleton hmove, ?_⟩
    have howned := hs.owned i
    rw [hidle] at howned
    have hentry : op.entry.held = 0 := by cases op <;> rfl
    exact
      { oneOwner := by
          have hne : ∀ j, j ≠ i →
              (Function.update w.thread i op.entry j).held = (w.thread j).held :=
            fun j hj => by rw [Function.update_of_ne hj]
          rw [SpscWorld.OneOwner, sum_held_of_eq hne, Function.update_self, hentry]
          exact howned
        items := hs.items
        threads := by
          intro j
          by_cases hj : j = i
          · subst hj
            show SpscThread.Follows _ (j, Function.update w.calls j _ j)
              (Function.update w.thread j op.entry j) _ _
            rw [Function.update_self, Function.update_self, Service.waiting_afterInvoke_self σ op rfl,
              hwaiting]
            cases op with
            | enqueue item => exact ⟨rfl, hunanswered⟩
            | dequeue => exact ⟨rfl, hunanswered⟩
          · show SpscThread.Follows _ (j, Function.update w.calls i _ j)
              (Function.update w.thread i op.entry j) _ _
            rw [Function.update_of_ne hj, Function.update_of_ne hj,
              Service.waiting_afterInvoke_of_ne σ op hj]
            exact hs.threads j
        called := by
          intro p hp
          show p.2 ≤ Function.update w.calls i (w.calls i + 1) p.1
          rw [Function.update_apply]
          rcases List.mem_append.1 hp with hp | hp
          · have hle := hs.called p hp
            split
            · rename_i hi
              rw [hi] at hle
              exact Nat.le_succ_of_le hle
            · exact hle
          · obtain rfl := List.mem_singleton.1 hp
            rw [if_pos rfl] }
  · cases h

/-- A step of `spsc_queue_enqueue`, which takes effect when the copy is pushed. -/
lemma of_enqueue (hs : Queues w σ) {i : ι} {stage : EnqueueAt α}
    (hi : w.thread i = .enqueue stage) (h : spscStep w (.step i) = some w') :
    ∃ moves σ', run fifoStep σ moves = some σ' ∧
      trace fifoStep Service.emit σ moves = spscEvents w (.step i) ∧ Queues w' σ' := by
  have hfollows := hs.threads i
  have howned := hs.owned i
  have hitems := hs.items
  rw [hi] at hfollows howned
  rw [spscEvents, hi]
  simp only [spscStep, hi] at h
  obtain rfl := Option.some.inj h
  cases stage with
  | memdup item =>
      -- the copy is new, so what is in the queue stays as it is
      have hold : ∀ c, c ∈ w.queue.gqueue ∨ c ∈ w.others i →
          (w.queue.memory.malloc item).2.cell c = w.queue.memory.cell c := by
        intro c hc
        refine Memory.malloc_cell_of_lt item (howned.lt_next ?_)
        rw [Multiset.mem_add, Multiset.mem_add, Multiset.mem_coe]
        exact hc.imp_right .inr
      refine ⟨[], σ, rfl, rfl, hs.of_step ?_ ?_ (fun c hc => hold c (.inr hc)) ?_
        (fun _ _ => rfl) (fun _ _ => rfl) rfl⟩
      · have hnew := howned.malloc item
        rw [SpscThread.held, zero_add, ← Multiset.singleton_add, add_left_comm] at hnew
        exact hnew
      · rw [← hitems]
        exact List.map_congr_left fun c hc => hold c (.inl hc)
      · exact ⟨item, Memory.malloc_cell_next _ item, hfollows⟩
  | push itemCopy =>
      obtain ⟨item, hitem, hwaiting, hunanswered⟩ := hfollows
      have hmove : fifoStep σ (.effect i) = _ := Service.step_effect hwaiting
      refine ⟨[.effect i], _, run_singleton hmove, trace_singleton hmove, hs.of_step ?_ ?_
        (fun _ _ => rfl) ?_ (fun j hj => Service.waiting_afterEffect_of_ne σ hj _ _ _)
        (fun j hj => Service.unanswered_afterEffect_of_ne σ hj _ _ _) rfl⟩
      · rw [SpscThread.held, ← add_assoc] at howned
        show Memory.Owned _ (↑(w.queue.gqueue ++ [itemCopy]) + (0 + w.others i))
        rw [← Multiset.coe_add, Multiset.coe_singleton, zero_add]
        exact howned
      · show (w.queue.gqueue ++ [itemCopy]).map w.queue.memory.cell =
          (σ.object ++ [item]).map some
        rw [List.map_append, List.map_append, hitems, List.map_singleton, List.map_singleton, ← hitem]
      · refine ⟨Service.waiting_afterEffect_self σ _ _ _ _, ?_⟩
        rw [Service.unanswered_afterEffect_self, effects, List.map_append, ← effects, hunanswered]
        rfl
  | done =>
      obtain ⟨hwaiting, hunanswered⟩ := hfollows
      obtain ⟨c, rest, hc, hreturn, hrest⟩ := List.map_eq_cons_iff.1 hunanswered
      obtain rfl := List.map_eq_nil_iff.1 hrest
      obtain ⟨hid, hresult⟩ := Prod.mk.inj hreturn
      have hmove : fifoStep σ (.respond i) = _ := Service.step_respond hc
      refine ⟨[.respond i], _, run_singleton hmove, ?_, hs.of_step howned hitems
        (fun _ _ => rfl) ⟨hwaiting, ?_⟩ (fun _ _ => rfl)
        (fun j hj => Service.unanswered_afterRespond_of_ne σ hj _) rfl⟩
      · rw [trace_singleton hmove, Service.emit, hc]
        show [Event.respond c.id c.result] = _
        rw [hid, hresult]
      · rw [Service.unanswered_afterRespond_self]
        rfl

/-- A step of `spsc_queue_dequeue`, which takes effect when the pointer is popped. -/
lemma of_dequeue (hs : Queues w σ) {i : ι} {stage : DequeueAt α}
    (hi : w.thread i = .dequeue stage) (h : spscStep w (.step i) = some w') :
    ∃ moves σ', run fifoStep σ moves = some σ' ∧
      trace fifoStep Service.emit σ moves = spscEvents w (.step i) ∧ Queues w' σ' := by
  have hfollows := hs.threads i
  have howned := hs.owned i
  have hitems := hs.items
  rw [hi] at hfollows howned
  rw [spscEvents, hi]
  simp only [spscStep, hi] at h
  obtain ⟨⟨queue, next⟩, hnext, rfl⟩ := Option.map_eq_some_iff.1 h
  cases stage with
  | pop =>
      obtain ⟨hwaiting, hunanswered⟩ := hfollows
      rw [spscQueueDequeue] at hnext
      split at hnext
      · cases hnext
      · rename_i itemCopy rest hqueue
        obtain ⟨rfl, rfl⟩ := Prod.mk.inj (Option.some.inj hnext)
        -- the pointer popped is that of the first item of the queue
        rw [hqueue, List.map_cons] at hitems
        obtain ⟨item, items, hobject, hitem, hrest⟩ := List.map_eq_cons_iff.1 hitems.symm
        have hmove : fifoStep σ (.effect i) = _ := Service.step_effect hwaiting
        refine ⟨[.effect i], _, run_singleton hmove, trace_singleton hmove, hs.of_step ?_ ?_
          (fun _ _ => rfl) ?_ (fun j hj => Service.waiting_afterEffect_of_ne σ hj _ _ _)
          (fun j hj => Service.unanswered_afterEffect_of_ne σ hj _ _ _) rfl⟩
        · rw [hqueue, ← Multiset.cons_coe, ← Multiset.singleton_add, SpscThread.held, zero_add,
            add_assoc, add_left_comm] at howned
          exact howned
        · show rest.map _ = (σ.object.tail).map some
          rw [hobject, List.tail_cons, hrest]
        · refine ⟨item, hitem.symm, Service.waiting_afterEffect_self σ _ _ _ _, ?_⟩
          rw [Service.unanswered_afterEffect_self, effects, List.map_append, ← effects, hunanswered]
          show [] ++ [(_, σ.object.head?)] = _
          rw [hobject]
          rfl
  | memcpy itemCopy =>
      obtain ⟨item, hitem, hwaiting, hunanswered⟩ := hfollows
      rw [spscQueueDequeue, hitem] at hnext
      obtain ⟨rfl, rfl⟩ := Prod.mk.inj (Option.some.inj hnext)
      exact ⟨[], σ, rfl, rfl, hs.of_step howned hitems (fun _ _ => rfl) ⟨hwaiting, hunanswered⟩
        (fun _ _ => rfl) (fun _ _ => rfl) rfl⟩
  | free itemCopy item =>
      obtain ⟨memory, hfree, heq⟩ := Option.map_eq_some_iff.1 hnext
      obtain ⟨rfl, rfl⟩ := Prod.mk.inj heq
      -- the thread owns the copy it frees
      rw [SpscThread.held, add_left_comm, Multiset.singleton_add] at howned
      obtain ⟨memory', hfree', howned', hcell⟩ := howned.free
      obtain rfl := Option.some.inj (hfree.symm.trans hfree')
      refine ⟨[], σ, rfl, rfl, hs.of_step ?_ ?_ (fun c hc => hcell c ?_) hfollows
        (fun _ _ => rfl) (fun _ _ => rfl) rfl⟩
      · show Memory.Owned _ (_ + (0 + _))
        rw [zero_add]
        exact howned'
      · rw [← hitems]
        exact List.map_congr_left fun c hc =>
          hcell c (Multiset.mem_add.2 (.inl (Multiset.mem_coe.2 hc)))
      · exact Multiset.mem_add.2 (.inr hc)
  | done item =>
      obtain ⟨rfl, rfl⟩ := Prod.mk.inj (Option.some.inj hnext)
      obtain ⟨hwaiting, hunanswered⟩ := hfollows
      obtain ⟨c, rest, hc, hreturn, hrest⟩ := List.map_eq_cons_iff.1 hunanswered
      obtain rfl := List.map_eq_nil_iff.1 hrest
      obtain ⟨hid, hresult⟩ := Prod.mk.inj hreturn
      have hmove : fifoStep σ (.respond i) = _ := Service.step_respond hc
      refine ⟨[.respond i], _, run_singleton hmove, ?_, hs.of_step howned hitems
        (fun _ _ => rfl) ⟨hwaiting, ?_⟩ (fun _ _ => rfl)
        (fun j hj => Service.unanswered_afterRespond_of_ne σ hj _) rfl⟩
      · rw [trace_singleton hmove, Service.emit, hc]
        show [Event.respond c.id c.result] = _
        rw [hid, hresult]
      · rw [Service.unanswered_afterRespond_self]
        rfl

/-- **The functions do what a service with a lane for each thread does.** -/
theorem step (hs : Queues w σ) {a : SpscAction ι α} (h : spscStep w a = some w') :
    ∃ moves σ', run fifoStep σ moves = some σ' ∧
      trace fifoStep Service.emit σ moves = spscEvents w a ∧ Queues w' σ' := by
  cases a with
  | call i op => exact hs.of_call h
  | step i =>
      cases hi : w.thread i with
      | idle => simp [spscStep, hi] at h
      | enqueue stage => exact hs.of_enqueue hi h
      | dequeue stage => exact hs.of_dequeue hi h

/-- What a run of the threads does, a run of the service does. -/
lemma run {as : List (SpscAction ι α)}
    (hrun : Transition.run spscStep (SpscWorld.init ι α) as = some w) :
    ∃ moves σ, Transition.run fifoStep (.start []) moves = some σ ∧
      trace fifoStep Service.emit (.start []) moves =
        trace spscStep spscEvents (SpscWorld.init ι α) as ∧ Queues w σ :=
  (Guarded.of_forall fun _ _ => trivial).simulation (G := fun _ _ => True)
    (fun _ _ _ _ hs _ h => hs.step h) start hrun

end Queues

/-- **The queue is a queue.**  However many threads enqueue and dequeue, and however their steps
are interleaved, their calls and returns are a history that a sequential execution on a queue
explains: every item is returned at most once, in the order in which the items went in. -/
theorem spsc_linearizable (as : List (SpscAction ι α)) {w : SpscWorld ι α}
    (hrun : run spscStep (SpscWorld.init ι α) as = some w) :
    Proper (trace spscStep spscEvents (SpscWorld.init ι α) as) ∧
      Linearizable fifo [] (trace spscStep spscEvents (SpscWorld.init ι α) as) := by
  obtain ⟨moves, σ, hmoves, htrace, -⟩ := Queues.run hrun
  rw [← htrace]
  exact Service.linearizable hmoves

/-- Two threads enqueue at the same time, and the one whose copy is made first pushes it last. -/
def twoProducers : List (SpscAction Bool Char) :=
  [.call true (.enqueue 'a'), .call false (.enqueue 'b'), .step true, .step false, .step false,
    .step false, .step true, .step true, .call true .dequeue, .step true, .step true, .step true,
    .step true]

/-- What the two threads see: the items come out in the order of the pushes. -/
def twoProducersHistory : List (Event (Bool × ℕ) (SpscOp Char) (Option Char)) :=
  [.invoke (true, 1) (.enqueue 'a'), .invoke (false, 1) (.enqueue 'b'), .respond (false, 1) none,
    .respond (true, 1) none, .invoke (true, 2) .dequeue, .respond (true, 2) (some 'b')]

theorem spsc_linearizable_twoProducers :
    Proper twoProducersHistory ∧ Linearizable fifo [] twoProducersHistory :=
  spsc_linearizable twoProducers rfl

/-- **No copy is used after it has been freed, freed twice or lost.**  At every moment a thread in
one of the two functions can go on, unless it waits for an item; and when no thread is in one,
`spsc_queue_destroy` frees all that is left. -/
theorem spsc_memory_safe (as : List (SpscAction ι α)) {w : SpscWorld ι α}
    (hrun : run spscStep (SpscWorld.init ι α) as = some w) :
    (∀ i, w.thread i ≠ .idle → (w.thread i = .dequeue .pop ∧ w.queue.gqueue = []) ∨
      ∃ w', spscStep w (.step i) = some w') ∧
    ((∀ i, w.thread i = .idle) →
      ∃ memory, spscQueueDestroy w.queue = some memory ∧ ∀ c, memory.cell c = none) := by
  obtain ⟨moves, σ, -, -, hs⟩ := Queues.run hrun
  constructor
  · intro i hi
    have howned := hs.owned i
    have hfollows := hs.threads i
    cases hthread : w.thread i with
    | idle => exact absurd hthread hi
    | enqueue stage =>
        simp only [spscStep, hthread]
        exact .inr ⟨_, rfl⟩
    | dequeue stage =>
        rw [hthread] at howned hfollows
        simp only [spscStep, hthread]
        cases stage with
        | pop =>
            cases hqueue : w.queue.gqueue with
            | nil => exact .inl ⟨rfl, rfl⟩
            | cons itemCopy rest =>
                rw [spscQueueDequeue, hqueue]
                exact .inr ⟨_, rfl⟩
        | memcpy itemCopy =>
            obtain ⟨item, hitem, -⟩ := hfollows
            rw [spscQueueDequeue, hitem]
            exact .inr ⟨_, rfl⟩
        | free itemCopy item =>
            rw [SpscThread.held, add_left_comm, Multiset.singleton_add] at howned
            obtain ⟨memory, hfree, -⟩ := howned.free
            rw [spscQueueDequeue, hfree]
            exact .inr ⟨_, rfl⟩
        | done item => exact .inr ⟨_, rfl⟩
  · intro hidle
    have howned := hs.oneOwner
    have hnone : ∑ i, (w.thread i).held = 0 := Finset.sum_eq_zero fun i _ => by
      rw [hidle i]
      rfl
    rw [SpscWorld.OneOwner, hnone, add_zero] at howned
    obtain ⟨memory, hfree, hmemory⟩ := howned.freeAll
    exact ⟨memory, hfree, hmemory.cell_eq_none⟩

theorem spsc_memory_safe_twoProducers : ∃ w : SpscWorld Bool Char,
    run spscStep (SpscWorld.init Bool Char) twoProducers = some w ∧
      ∃ memory, spscQueueDestroy w.queue = some memory ∧ ∀ c, memory.cell c = none :=
  ⟨_, rfl, (spsc_memory_safe twoProducers rfl).2 (by rintro (_ | _) <;> rfl)⟩

end World

end Oceanliner
