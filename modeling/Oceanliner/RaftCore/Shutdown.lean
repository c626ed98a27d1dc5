/-
# The threads of a node that is freed

The batch thread and the apply thread are created and waited for under the flags `active` and
`applying_entries`.  Whatever operations its caller calls, a node has a handle for exactly the
threads whose flag is set: no handle is written over before its thread has been waited for, and no
thread is waited for twice (`freed_node_untouched`).  `raft_destroy` clears both flags, so that
nothing is left that could touch the node when it has been freed.
-/
import Oceanliner.Lib.Handles
import Oceanliner.RaftCore.StepDown

open Transition Locking

namespace Oceanliner

/-! ### What leaves a node where it is -/

/-- The node is freed or not as before. -/
def KeepsNode (d d' : Shared) : Prop := d'.destroyed = d.destroyed

section Leads

variable {c k : Concurrent.NodeCode}

lemma keepsNode_ite {held : Bool} {b : Input → Shared → Bool} {p q : Concurrent.NodeCode}
    (hp : Leads KeepsNode k held p) (hq : Leads KeepsNode k held q) :
    Leads KeepsNode k held (.ite b p q) :=
  .test (fun _ _ _ => rfl) hp hq

/-- An action on the node alone, the last one under the mutex. -/
lemma keepsNode_mapNode {f : Input → Shared → RaftNode → RaftNode}
    (hc : Leads KeepsNode k false c) :
    Leads KeepsNode k true (.act (fun x d => d.mapNode (f x d)) (.unlock c)) :=
  .act (fun _ _ => rfl) (.unlock hc)

lemma keepsNode_raftAppendEntry (hc : Leads KeepsNode k false c) (t : Party) :
    Leads KeepsNode k false (Concurrent.raftAppendEntry c t) :=
  .lock (keepsNode_ite (.unlock hc) (keepsNode_mapNode hc))

lemma keepsNode_raftReplicateLogs (hc : Leads KeepsNode k false c) :
    Leads KeepsNode k false (Concurrent.raftReplicateLogs c) :=
  keepsNode_ite hc (.lock (keepsNode_mapNode hc))

lemma keepsNode_processRaftBatch (hc : Leads KeepsNode k false c) (t : Party) :
    Leads KeepsNode k false (Concurrent.processRaftBatch c t) :=
  .act (fun _ _ => rfl)
    (keepsNode_raftAppendEntry (keepsNode_ite (keepsNode_raftReplicateLogs hc) hc) t)

lemma keepsNode_raftApplyCommittedEntries :
    Leads KeepsNode k false (Concurrent.raftApplyCommittedEntries k) :=
  keepsNode_ite .exit (.lock (keepsNode_ite (.unlock .exit) (keepsNode_mapNode .exit)))

end Leads

/-- No worker frees the node. -/
lemma disciplined_keepsNode (v : Party) (hv : v ≠ nodeProtocol.main) :
    Disciplined (fun d d' : Shared => d'.destroyed = d.destroyed) false (nodeProtocol.pass v) := by
  cases v with
  | caller => exact absurd rfl hv
  | batchThread =>
      have hlead : Leads KeepsNode .again false Concurrent.batchPass :=
        .test (fun _ _ _ => rfl) (keepsNode_processRaftBatch .exit _) .exit
      exact hlead.disciplined (disciplined_again _)
  | applyThread =>
      have hlead : Leads KeepsNode .again false Concurrent.applyPass :=
        keepsNode_raftApplyCommittedEntries
      exact hlead.disciplined (disciplined_again _)

/-- The protocol of the threads of a node, none of which frees it. -/
def freeingProtocol : Protocol Input Shared Party :=
  nodeProtocol.keeping Shared.destroyed disciplined_keepsNode

/-! ### Handles and flags -/

/-- A node that has not been freed has a handle for the threads whose flag is set. -/
structure HandlesThreads (live : Party → Bool) (d : Shared) : Prop where
  live_eq : ∀ v, live v = nodeThreads.flag v d
  destroyed : d.destroyed = false

/-- What holds at the end of a call: as long as the node has not been freed its handles are those of
the threads whose flag is set, and a node that has been freed has none. -/
structure HandlesEnd (d : Shared) (live : Party → Bool) : Prop where
  live_eq : ∀ v, live v = nodeThreads.flag v d
  freed : d.destroyed = true → ∀ v, live v = false

namespace HandlesThreads

variable {live : Party → Bool} {d d' : Shared}

lemma atEnd (h : HandlesThreads live d) : HandlesEnd d live :=
  ⟨h.live_eq, fun hfreed => absurd (h.destroyed.symm.trans hfreed) (by decide)⟩

lemma of_keeps (h : HandlesThreads live d) (hflags : KeepsFlags d d') (hnode : KeepsNode d d') :
    HandlesThreads live d' := by
  refine ⟨?_, hnode.trans h.destroyed⟩
  rintro (_ | _ | _)
  · exact h.live_eq .caller
  · exact (h.live_eq .batchThread).trans hflags.active.symm
  · exact (h.live_eq .applyThread).trans hflags.applying.symm

lemma of_rely (h : HandlesThreads live d) (hR : freeingProtocol.R d d') : HandlesThreads live d' :=
  h.of_keeps hR.1.toKeepsFlags hR.2

/-- The flag of the batch thread is written, and its handle with it. -/
lemma setActive (h : HandlesThreads live d) (b : Bool) :
    HandlesThreads (Function.update live .batchThread b) (d.setActive b) := by
  refine ⟨?_, h.destroyed⟩
  rintro (_ | _ | _)
  · exact h.live_eq .caller
  · rfl
  · exact h.live_eq .applyThread

/-- The flag of the apply thread is written, and its handle with it. -/
lemma setApplying (h : HandlesThreads live d) (b : Bool) :
    HandlesThreads (Function.update live .applyThread b) { d with applying := b } := by
  refine ⟨?_, h.destroyed⟩
  rintro (_ | _ | _)
  · exact h.live_eq .caller
  · exact h.live_eq .batchThread
  · rfl

/-- A handle that is as its flag says already. -/
lemma update_eq {v : Party} {b : Bool} (h : HandlesThreads live d)
    (hflag : nodeThreads.flag v d = b) : Function.update live v b = live := by
  rw [← hflag, ← h.live_eq v, Function.update_eq_self]

end HandlesThreads

/-! ### Calls -/

/-- The caller owns the handles of the threads in the middle of a call and at its end. -/
abbrev OwnsThreads (c : Concurrent.NodeCode) (live : Party → Bool) (d : Shared) : Prop :=
  freeingProtocol.Owns (fun d => d.destroyed = false) HandlesEnd c live d

section Owns

variable {live : Party → Bool} {d : Shared} {k : Concurrent.NodeCode}

lemma owns_done (h : HandlesThreads live d) : OwnsThreads .done live d :=
  fun _ hR => (h.of_rely hR).atEnd

/-- Code that starts no thread and waits for none. -/
lemma owns_of_leads {c : Concurrent.NodeCode} {held : Bool} (hflags : Leads KeepsFlags k held c)
    (hnode : Leads KeepsNode k held c)
    (hk : ∀ d, HandlesThreads live d → OwnsThreads k live d) (h : HandlesThreads live d) :
    OwnsThreads c live d :=
  Protocol.Owns.of_leads (P := freeingProtocol) (J := HandlesThreads live) (hflags.and hnode)
    (fun hR hd => hd.of_rely hR) (fun hF hd => hd.of_keeps hF.1 hF.2) (fun hd => hd.destroyed)
    hk d h

lemma owns_commandBatcherStart
    (hk : ∀ live d, HandlesThreads live d → OwnsThreads k live d) (h : HandlesThreads live d) :
    OwnsThreads (Concurrent.commandBatcherStart k) live d := by
  intro d₁ h₁
  have hd₁ := h.of_rely h₁
  refine ⟨hd₁.destroyed, fun x₁ => ⟨fun _ => hk _ _ hd₁, fun hinactive d₂ h₂ => ?_⟩⟩
  have hd₂ := hd₁.of_rely h₂
  have hdead : live .batchThread = false := (hd₁.live_eq .batchThread).trans hinactive
  refine ⟨hd₂.destroyed, fun x₂ d₃ h₃ => ?_⟩
  have hd₃ := (hd₂.setActive true).of_rely h₃
  refine ⟨hd₃.destroyed, fun x₃ => ⟨fun _ => ?_, fun _ => ?_⟩⟩
  · refine ⟨by decide, hdead, fun d₄ h₄ => ?_⟩
    have hd₄ := hd₃.of_rely h₄
    exact ⟨hd₄.destroyed, hk _ _ hd₄⟩
  · -- no thread has been created, and the flag is cleared again
    intro d₄ h₄
    have hd₄ := hd₃.of_rely h₄
    refine ⟨hd₄.destroyed, fun x₄ => ?_⟩
    have hsame : Function.update live .batchThread false = live := by
      rw [← hdead, Function.update_eq_self]
    have hd₅ := hd₄.setActive false
    rw [Function.update_idem, hsame] at hd₅
    exact hk _ _ hd₅

lemma owns_commandBatcherStop
    (hk : ∀ d, HandlesThreads (Function.update live .batchThread false) d →
      OwnsThreads k (Function.update live .batchThread false) d)
    (h : HandlesThreads live d) : OwnsThreads (Concurrent.commandBatcherStop k) live d := by
  intro d₁ h₁
  have hd₁ := h.of_rely h₁
  refine ⟨hd₁.destroyed, fun x₁ => ⟨fun hinactive => ?_, fun hactive d₂ h₂ => ?_⟩⟩
  · have hflag : d₁.active = false := by simpa using hinactive
    have hsame : Function.update live .batchThread false = live := hd₁.update_eq hflag
    rw [hsame] at hk
    exact hk _ hd₁
  · have hd₂ := hd₁.of_rely h₂
    have hflag : d₁.active = true := by simpa using hactive
    have hlive : live .batchThread = true := (hd₁.live_eq .batchThread).trans hflag
    refine ⟨hd₂.destroyed, fun x₂ => ⟨hlive, fun d₃ h₃ => ?_⟩⟩
    have hd₃ := (hd₂.setActive false).of_rely h₃
    refine ⟨hd₃.destroyed, fun d₄ h₄ => ?_⟩
    have hd₄ := hd₃.of_rely h₄
    refine ⟨hd₄.destroyed, fun x₄ => ⟨fun _ => ?_, fun _ => hk _ hd₄⟩⟩
    -- what is left in the batch goes to the callback
    exact owns_of_leads (leads_processRaftBatch .exit _) (keepsNode_processRaftBatch .exit _) hk
      (hd₄.of_keeps (keepsFlags_takeBatch _ _ _) rfl)

lemma owns_raftStartApplyThread (h : HandlesThreads live d) :
    OwnsThreads (Concurrent.raftStartApplyThread .done) live d := by
  have hunlock : ∀ {live d}, HandlesThreads live d → OwnsThreads (.unlock .done) live d :=
    fun hd d' h' => ⟨(hd.of_rely h').destroyed, owns_done (hd.of_rely h')⟩
  intro d₁ h₁
  have hd₁ := h.of_rely h₁
  refine ⟨hd₁.destroyed, fun d₂ h₂ => ?_⟩
  have hd₂ := hd₁.of_rely h₂
  refine ⟨hd₂.destroyed, fun x₂ => ⟨fun _ => hunlock hd₂, fun hinactive d₃ h₃ => ?_⟩⟩
  have hd₃ := hd₂.of_rely h₃
  have hdead : live .applyThread = false := (hd₂.live_eq .applyThread).trans hinactive
  refine ⟨hd₃.destroyed, fun x₃ d₄ h₄ => ?_⟩
  have hd₄ := (hd₃.setApplying true).of_rely h₄
  refine ⟨hd₄.destroyed, fun x₄ => ⟨fun _ => ?_, fun _ => ?_⟩⟩
  · refine ⟨by decide, hdead, fun d₅ h₅ => ?_⟩
    have hd₅ := hd₄.of_rely h₅
    exact ⟨hd₅.destroyed, hunlock hd₅⟩
  · intro d₅ h₅
    have hd₅ := hd₄.of_rely h₅
    -- the thread could not be created, and the flag is cleared again
    refine ⟨hd₅.destroyed, fun x₅ => ?_⟩
    have hsame : Function.update live .applyThread false = live := by
      rw [← hdead, Function.update_eq_self]
    have hd₆ := hd₅.setApplying false
    rw [Function.update_idem, hsame] at hd₆
    exact hunlock hd₆

lemma owns_raftStopApplyThread
    (hk : ∀ d, HandlesThreads (Function.update live .applyThread false) d →
      OwnsThreads k (Function.update live .applyThread false) d)
    (h : HandlesThreads live d) : OwnsThreads (Concurrent.raftStopApplyThread k) live d := by
  intro d₁ h₁
  have hd₁ := h.of_rely h₁
  refine ⟨hd₁.destroyed, fun d₂ h₂ => ?_⟩
  have hd₂ := hd₁.of_rely h₂
  refine ⟨hd₂.destroyed, fun x₂ => ⟨fun hinactive => ?_, fun hactive d₃ h₃ => ?_⟩⟩
  · have hflag : d₂.applying = false := by simpa using hinactive
    have hsame : Function.update live .applyThread false = live := hd₂.update_eq hflag
    rw [hsame] at hk
    exact fun d₃ h₃ => ⟨(hd₂.of_rely h₃).destroyed, hk _ (hd₂.of_rely h₃)⟩
  · have hd₃ := hd₂.of_rely h₃
    have hflag : d₂.applying = true := by simpa using hactive
    have hlive : live .applyThread = true := (hd₂.live_eq .applyThread).trans hflag
    refine ⟨hd₃.destroyed, fun x₃ d₄ h₄ => ?_⟩
    have hd₄ := (hd₃.setApplying false).of_rely h₄
    refine ⟨hd₄.destroyed, hlive, fun d₅ h₅ => ?_⟩
    have hd₅ := hd₄.of_rely h₅
    exact ⟨hd₅.destroyed, hk _ hd₅⟩

lemma owns_raftBecomeLeader (h : HandlesThreads live d) :
    OwnsThreads (Concurrent.raftBecomeLeader .done) live d := by
  intro d₁ h₁
  have hd₁ := h.of_rely h₁
  refine ⟨hd₁.destroyed, fun d₂ h₂ => ?_⟩
  have hd₂ := hd₁.of_rely h₂
  refine ⟨hd₂.destroyed, fun x₂ => owns_commandBatcherStart (fun live d hd d' h' => ?_) ?_⟩
  · exact ⟨(hd.of_rely h').destroyed, owns_done (hd.of_rely h')⟩
  · exact hd₂.of_keeps (keepsFlags_mapNode _ rfl) rfl

lemma owns_raftBecomeFollower (term : ℕ) (h : HandlesThreads live d) :
    OwnsThreads (Concurrent.raftBecomeFollower .done term) live d := by
  have htail : ∀ live d, HandlesThreads live d →
      OwnsThreads (Concurrent.followerTail .done term) live d := fun live d hd =>
    owns_of_leads (leads_mapNode (fun _ _ => rfl) .exit) (keepsNode_mapNode .exit)
      (fun _ hd => owns_done hd) hd
  intro d₁ h₁
  have hd₁ := h.of_rely h₁
  refine ⟨hd₁.destroyed, fun d₂ h₂ => ?_⟩
  have hd₂ := hd₁.of_rely h₂
  exact ⟨hd₂.destroyed, fun x₂ => ⟨fun _ => owns_commandBatcherStop (fun d hd => htail _ d hd) hd₂,
    fun _ => htail _ _ hd₂⟩⟩

/-- The node is freed when both threads have been waited for. -/
lemma owns_free (h : HandlesThreads live d) (hbatch : live .batchThread = false)
    (happly : live .applyThread = false) :
    OwnsThreads (.act (fun _ d => { d with destroyed := true }) .done) live d := by
  intro d₁ h₁
  have hd₁ := h.of_rely h₁
  refine ⟨hd₁.destroyed, fun x₁ d₂ h₂ => ⟨?_, fun _ => ?_⟩⟩
  · rintro (_ | _ | _)
    · exact hd₁.live_eq .caller
    · exact (hd₁.live_eq .batchThread).trans h₂.1.active.symm
    · exact (hd₁.live_eq .applyThread).trans h₂.1.applying.symm
  · rintro (_ | _ | _)
    · exact hd₁.live_eq .caller
    · exact hbatch
    · exact happly

lemma owns_raftDestroy (h : HandlesThreads live d) :
    OwnsThreads (Concurrent.raftDestroy .done) live d := by
  have hstop : ∀ {live : Party → Bool}, live .applyThread = false → ∀ d, HandlesThreads live d →
      OwnsThreads (Concurrent.commandBatcherStop
        (.ite (fun _ d => d.active)
          (Concurrent.commandBatcherStop (.act (fun _ d => { d with destroyed := true }) .done))
          (.act (fun _ d => { d with destroyed := true }) .done))) live d := by
    intro live happly d hd
    -- `command_batcher_destroy` stops the batcher once more if it is active
    refine owns_commandBatcherStop (fun d₁ hd₁ d₂ h₂ => ?_) hd
    have hd₂ := hd₁.of_rely h₂
    refine ⟨hd₂.destroyed, fun x₂ => ⟨fun _ => ?_, fun _ => owns_free hd₂ rfl happly⟩⟩
    refine owns_commandBatcherStop (fun d₃ hd₃ => ?_) hd₂
    exact owns_free hd₃ rfl happly
  intro d₁ h₁
  have hd₁ := h.of_rely h₁
  refine ⟨hd₁.destroyed, fun x₁ => ⟨fun _ => ?_, fun hinactive => ?_⟩⟩
  · exact owns_raftStopApplyThread (hstop rfl) hd₁
  · exact hstop ((hd₁.live_eq .applyThread).trans hinactive) _ hd₁

/-- Every call owns the handles of the threads. -/
lemma owns_of_call (op : Concurrent.Operation) (h : HandlesThreads live d) :
    OwnsThreads op.code live d := by
  have simple : ∀ {c : Concurrent.NodeCode}, Leads KeepsFlags .done false c →
      Leads KeepsNode .done false c → OwnsThreads c live d := fun hflags hnode =>
    owns_of_leads hflags hnode (fun _ hd => owns_done hd) h
  -- all but five of the operations neither create a thread nor wait for one
  cases op with
  | becomeFollower term => exact owns_raftBecomeFollower term h
  | becomeCandidate =>
      exact simple (.lock (leads_mapNode (fun _ _ => rfl) .exit)) (.lock (keepsNode_mapNode .exit))
  | becomeLeader => exact owns_raftBecomeLeader h
  | startElection =>
      exact simple (.lock (leads_mapNode (fun _ _ => rfl) .exit)) (.lock (keepsNode_mapNode .exit))
  | recordVote =>
      exact simple leads_raftRecordVote (keepsNode_ite .exit (.lock (keepsNode_mapNode .exit)))
  | checkElectionTimeout => exact simple (.lock (.unlock .exit)) (.lock (.unlock .exit))
  | resetElectionTimer =>
      exact simple (.act (fun _ d => keepsFlags_mapNode d rfl) .exit) (.act (fun _ _ => rfl) .exit)
  | checkHeartbeatStatus => exact simple .exit .exit
  | appendEntry entry =>
      exact simple
        (.act (fun _ d => (keepsBatcher_setEntry d .caller entry).keepsFlags)
          (leads_raftAppendEntry .exit .caller))
        (.act (fun _ _ => rfl) (keepsNode_raftAppendEntry .exit .caller))
  | replicateLogs =>
      exact simple (leads_raftReplicateLogs .exit) (keepsNode_raftReplicateLogs .exit)
  | handleAppendEntries req resp htype =>
      exact simple (leads_raftHandleAppendEntries req resp)
        (.lock (keepsNode_ite (.unlock .exit) (.act (fun _ _ => rfl)
          (keepsNode_ite (.unlock .exit) (keepsNode_ite (.unlock .exit) (.unlock .exit))))))
  | handleRequestVote req resp =>
      exact simple (leads_raftHandleRequestVote req resp)
        (.lock (keepsNode_ite (.unlock .exit) (keepsNode_mapNode .exit)))
  | sendAppendEntries targetId entriesLen =>
      exact simple (.lock (leads_mapNode (fun _ _ => rfl) .exit)) (.lock (keepsNode_mapNode .exit))
  | sendRequestVote => exact simple (.lock (.unlock .exit)) (.lock (.unlock .exit))
  | handleClientCommand cmd =>
      exact simple (leads_raftHandleClientCommand cmd)
        (keepsNode_ite .exit (.test (fun _ _ _ => rfl) .exit (.act (fun _ _ => rfl)
          (keepsNode_raftAppendEntry (keepsNode_raftReplicateLogs .exit) .caller))))
  | applyCommittedEntries =>
      exact simple leads_raftApplyCommittedEntries keepsNode_raftApplyCommittedEntries
  | startApplyThread => exact owns_raftStartApplyThread h
  | stopApplyThread => exact owns_raftStopApplyThread (fun _ hd => owns_done hd) h
  | initStateMachine =>
      exact simple leads_raftInitStateMachine
        (.lock (keepsNode_ite (.unlock .exit) (.act (fun _ _ => rfl) (.unlock .exit))))
  | destroy => exact owns_raftDestroy h

end Owns

/-! ### Runs -/

/-- A node and the handles of its threads. -/
abbrev NodeHandles := HandleState Input Shared Party

/-- After `raft_init` there are no threads but the caller. -/
def NodeHandles.init (nodeId : ℕ) (clk : Clock) : NodeHandles :=
  ⟨NodeState.init nodeId clk, fun _ => false⟩

/-- One event, with the handles that are created and waited for. -/
def handleEvent (w : NodeHandles) : NodeEvent → Option NodeHandles
  | .call op => (nodeEvent w.threads (.call op)).map fun s => ⟨s, w.live⟩
  | .step t x => handleStep nodeThreads w (t, x)

/-- What is known of a node and its handles at any point of a run. -/
structure HandlesInvariant (w : NodeHandles) : Prop where
  owned : freeingProtocol.Owned (fun d => d.destroyed = false) HandlesEnd w
  node : NodeInvariant w.threads

namespace HandlesInvariant

variable {w : NodeHandles} {e : NodeEvent} {s : NodeState}

lemma init (nodeId : ℕ) (clk : Clock) : HandlesInvariant (.init nodeId clk) where
  owned :=
    { workers := fun _ _ => rfl
      ended := fun _ _ _ => rfl
      owns := owns_done ⟨by rintro (_ | _ | _) <;> rfl, rfl⟩ }
  node := nodeInvariant_init nodeId clk

lemma event (hw : HandlesInvariant w) (h : nodeEvent w.threads e = some s) :
    ∃ live, handleEvent w e = some ⟨s, live⟩ ∧ HandlesInvariant ⟨s, live⟩ := by
  have hnode := hw.node.event h
  cases e with
  | call op =>
      refine ⟨w.live, by rw [handleEvent, h, Option.map_some], ?_, hnode⟩
      rw [nodeEvent] at h
      split at h
      · rename_i hidle
        obtain rfl := Option.some.inj h
        have hend := hw.owned.end_of_done (Code.isDone_iff.1 hidle.1)
        exact hw.owned.call (owns_of_call op ⟨hend.live_eq, hidle.2⟩)
      · cases h
  | step t x =>
      obtain ⟨live, hstep, howned⟩ := hw.owned.step h
      exact ⟨live, hstep, howned, hnode⟩

/-- When the node has been freed its threads have been waited for and none has the mutex. -/
lemma freed (hw : HandlesInvariant w) (hfreed : w.threads.data.destroyed = true) :
    (∀ v, w.live v = false) ∧ (∀ t, w.threads.code t = .done) ∧ w.threads.owner = none := by
  have hcaller : w.threads.code .caller = .done := by
    by_contra hne
    exact absurd ((hw.owned.owns.mid hne).symm.trans hfreed) (by decide)
  have hlive := (hw.owned.end_of_done hcaller).freed hfreed
  have hcode : ∀ t, w.threads.code t = .done := by
    intro t
    by_cases ht : t = .caller
    · rw [ht]
      exact hcaller
    · exact hw.owned.ended t ht (hlive t)
  refine ⟨hlive, hcode, ?_⟩
  obtain ⟨hworkers, hidle, -⟩ := hw.node.idle hcaller
  cases howner : w.threads.owner with
  | none => rfl
  | some t =>
      have ht : t ≠ .caller := by
        rintro rfl
        exact hidle howner
      have hdisc := hworkers t ht
      rw [hcode t, howner, decide_eq_true rfl] at hdisc
      exact absurd hdisc Bool.false_ne_true.symm

end HandlesInvariant

/-- A node without threads that has been freed takes part in nothing any more. -/
lemma nodeEvent_eq_none {s : NodeState} (hfreed : s.data.destroyed = true)
    (hcode : ∀ t, s.code t = .done) (e : NodeEvent) : nodeEvent s e = none := by
  cases e with
  | call op => simp [nodeEvent, hfreed]
  | step t x => simp [nodeEvent, Locking.step, hcode t]

lemma handleEvent_eq_none {w : NodeHandles} {e : NodeEvent} (h : nodeEvent w.threads e = none) :
    handleEvent w e = none := by
  cases e with
  | call op => rw [handleEvent, h, Option.map_none]
  | step t x => exact handleStep_eq_none h

/-- A node with its handles goes through the same states as the node without. -/
lemma handles_lockstep (nodeId : ℕ) (clk : Clock) (es : List NodeEvent) :
    Option.Rel (fun w s => w.threads = s ∧ HandlesInvariant w)
      (run handleEvent (.init nodeId clk) es) (run nodeEvent (.init nodeId clk) es) := by
  have hstep : ∀ (w : NodeHandles) (s : NodeState) (e : NodeEvent),
      w.threads = s ∧ HandlesInvariant w →
        Option.Rel (fun w s => w.threads = s ∧ HandlesInvariant w) (handleEvent w e)
          (nodeEvent s (id e)) := by
    rintro w _ e ⟨rfl, hw⟩
    cases h : nodeEvent w.threads e with
    | none =>
        rw [handleEvent_eq_none h, id, h]
        exact .none
    | some s =>
        obtain ⟨live, hevent, hw'⟩ := hw.event h
        rw [hevent, id, h]
        exact .some ⟨rfl, hw'⟩
  have hrun := run_lockstep id hstep ⟨rfl, HandlesInvariant.init nodeId clk⟩ es
  rwa [List.map_id] at hrun

/-- **Every thread is waited for once, and nothing touches a node that has been freed.**  Whatever
operations the caller calls, and however the steps of the threads are interleaved, a node that must
not create a thread over a handle, nor wait without one, does what the node does that may.  When
`raft_destroy` has freed the node there are no handles left, the mutex is free, and no thread of the
node can take a step. -/
theorem freed_node_untouched (nodeId : ℕ) (clk : Clock) (es : List NodeEvent) :
    (run handleEvent (.init nodeId clk) es).map HandleState.threads =
        run nodeEvent (.init nodeId clk) es ∧
      ∀ w, run handleEvent (.init nodeId clk) es = some w → w.threads.data.destroyed = true →
        (∀ v, w.live v = false) ∧ w.threads.owner = none ∧ ∀ e, nodeEvent w.threads e = none := by
  have hrel := handles_lockstep nodeId clk es
  revert hrel
  generalize run handleEvent (.init nodeId clk) es = end₁,
    run nodeEvent (.init nodeId clk) es = end₂
  rintro (⟨rfl, hw⟩ | _)
  · refine ⟨rfl, fun w heq hfreed => ?_⟩
    obtain rfl := Option.some.inj heq
    obtain ⟨hlive, hcode, howner⟩ := hw.freed hfreed
    exact ⟨hlive, howner, nodeEvent_eq_none hfreed hcode⟩
  · exact ⟨rfl, fun w heq => by cases heq⟩

/-- A node becomes a leader, starts its apply thread, and is freed. -/
def freesLeader : List NodeEvent :=
  becomesLeader ++ .call .startApplyThread :: List.replicate 6 (.step .caller default) ++
    .call .destroy :: List.replicate 5 (.step .caller default) ++
      .step .applyThread default :: List.replicate 3 (.step .caller default) ++
        .step .batchThread default :: List.replicate 4 (.step .caller default)

/-- A leader with both threads is freed. -/
theorem freed_node_untouched_leader : ∃ w, run handleEvent (.init 1 ⟨0, 0⟩) freesLeader = some w ∧
    w.threads.data.destroyed = true ∧ ∀ e, nodeEvent w.threads e = none := by
  have hsome : ∃ w, run handleEvent (.init 1 ⟨0, 0⟩) freesLeader = some w ∧
      w.threads.data.destroyed = true := ⟨_, rfl, rfl⟩
  obtain ⟨w, hrun, hfreed⟩ := hsome
  exact ⟨w, hrun, hfreed, ((freed_node_untouched 1 ⟨0, 0⟩ freesLeader).2 w hrun hfreed).2.2⟩

end Oceanliner
