/-
# Which calls come back

`raft_become_follower` holds the mutex of the node while `command_batcher_stop` waits for the
batch thread and hands the rest of the batch to the callback, and both of these take the mutex
again.  A leader steps down safely exactly when it has no command pending and the batch thread is
not about to take the mutex (`operations_complete_iff`); every other operation of a node comes to
its end from every state.
-/
import Oceanliner.RaftCore.Concurrent

open Transition Locking Relation

namespace Oceanliner

/-! ### What the threads do to each other -/

/-- The flags of the workers are as before. -/
structure KeepsFlags (d d' : Shared) : Prop where
  active : d'.active = d.active
  applying : d'.applying = d.applying

/-- What the workers leave alone: the flags, the state of the node, and a batch that is empty. -/
structure WorkerRely (d d' : Shared) : Prop extends KeepsFlags d d' where
  state : d'.node.state = d.node.state
  pending : d.pending = 0 → d'.pending = 0

/-- The batcher and the state of the node are as before, as are the flags. -/
structure KeepsBatcher (d d' : Shared) : Prop where
  batcher : d'.node.commandBatcher = d.node.commandBatcher
  state : d'.node.state = d.node.state
  applying : d'.applying = d.applying

lemma KeepsBatcher.refl (d : Shared) : KeepsBatcher d d := ⟨rfl, rfl, rfl⟩

lemma KeepsBatcher.keepsFlags {d d' : Shared} (h : KeepsBatcher d d') : KeepsFlags d d' :=
  ⟨congrArg CommandBatcher.active h.batcher, h.applying⟩

lemma KeepsBatcher.pending {d d' : Shared} (h : KeepsBatcher d d') : d'.pending = d.pending :=
  congrArg (fun b => b.currentBatch.numCommands) h.batcher

lemma KeepsBatcher.workerRely {d d' : Shared} (h : KeepsBatcher d d') : WorkerRely d d' :=
  { h.keepsFlags with
    state := h.state
    pending := fun hzero => h.pending.trans hzero }

lemma WorkerRely.refl (d : Shared) : WorkerRely d d := (KeepsBatcher.refl d).workerRely

lemma WorkerRely.trans {d₁ d₂ d₃ : Shared} (h : WorkerRely d₁ d₂) (h' : WorkerRely d₂ d₃) :
    WorkerRely d₁ d₃ where
  active := h'.active.trans h.active
  applying := h'.applying.trans h.applying
  state := h'.state.trans h.state
  pending := fun hzero => h'.pending (h.pending hzero)

lemma WorkerRely.isLeader {d d' : Shared} (h : WorkerRely d d') : d'.isLeader = d.isLeader := by
  rw [Shared.isLeader, Shared.isLeader, h.state]

/-! ### Changes of the node -/

section Changes

variable (d : Shared)

lemma keepsBatcher_appendEntry (t : Party) :
    KeepsBatcher d (d.mapNode fun node => (raftAppendEntry node (d.entry t)).getD node) := by
  cases h : raftAppendEntry d.node (d.entry t) with
  | none => exact ⟨by simp [Shared.mapNode, h], by simp [Shared.mapNode, h], rfl⟩
  | some node' =>
      obtain ⟨log, rfl, -⟩ := raftAppendEntry_spec h
      exact ⟨by simp [Shared.mapNode, h], by simp [Shared.mapNode, h], rfl⟩

lemma keepsBatcher_setEntry (t : Party) (entry : RaftEntry) :
    KeepsBatcher d (d.setEntry t entry) := ⟨rfl, rfl, rfl⟩

lemma workerRely_takeBatch {t : Party} {now : ℕ} (hpending : 0 < d.pending) :
    WorkerRely d (d.takeBatch t now) where
  active := rfl
  applying := rfl
  state := rfl
  pending := fun hzero => absurd hzero hpending.ne'

lemma keepsFlags_takeBatch (t : Party) (now : ℕ) : KeepsFlags d (d.takeBatch t now) := ⟨rfl, rfl⟩

/-- A change of the node that leaves its batcher alone. -/
lemma keepsFlags_mapNode {f : RaftNode → RaftNode}
    (h : (f d.node).commandBatcher = d.node.commandBatcher) : KeepsFlags d (d.mapNode f) :=
  ⟨congrArg CommandBatcher.active h, rfl⟩

/-- A batch of which the batch thread says that it is to be handed over is not empty. -/
lemma pending_pos_of_shouldFlush {d : Shared} {now : ℕ}
    (h : shouldFlush d.node.commandBatcher now = true) : 0 < d.pending := by
  rw [shouldFlush, Bool.and_eq_true] at h
  exact of_decide_eq_true h.1

end Changes

/-! ### The discipline of the functions -/

section Discipline

open Concurrent

variable {G : Shared → Shared → Prop} (hG : ∀ {d d'}, KeepsBatcher d d' → G d d') {k : NodeCode}

include hG

lemma disciplined_raftAppendEntry (hk : Disciplined G false k) (t : Party) :
    Disciplined G false (Concurrent.raftAppendEntry k t) :=
  ⟨rfl, fun _ d _ => hG (.refl d), ⟨rfl, hk⟩, fun _ d => hG (keepsBatcher_appendEntry d t),
    ⟨rfl, hk⟩⟩

lemma disciplined_raftReplicateLogs (hk : Disciplined G false k) :
    Disciplined G false (Concurrent.raftReplicateLogs k) :=
  ⟨fun _ d _ => hG (.refl d), hk, rfl, fun _ _ => hG ⟨rfl, rfl, rfl⟩, rfl, hk⟩

lemma disciplined_processRaftBatch (hk : Disciplined G false k) (t : Party) :
    Disciplined G false (Concurrent.processRaftBatch k t) := by
  refine ⟨fun _ d => hG (keepsBatcher_setEntry d t _), disciplined_raftAppendEntry hG ?_ t⟩
  exact ⟨fun _ d _ => hG (.refl d), disciplined_raftReplicateLogs hG hk, hk⟩

lemma disciplined_raftApplyCommittedEntries (hk : Disciplined G false k) :
    Disciplined G false (Concurrent.raftApplyCommittedEntries k) :=
  ⟨fun _ d _ => hG (.refl d), hk, rfl, fun _ d _ => hG (.refl d), ⟨rfl, hk⟩,
    fun _ _ => hG ⟨rfl, rfl, rfl⟩, rfl, hk⟩

end Discipline

lemma disciplined_batchPass : Disciplined WorkerRely false Concurrent.batchPass :=
  ⟨fun _ d h => workerRely_takeBatch d (pending_pos_of_shouldFlush h),
    disciplined_processRaftBatch KeepsBatcher.workerRely (disciplined_again _) _, rfl⟩

lemma disciplined_applyPass : Disciplined KeepsBatcher false Concurrent.applyPass :=
  disciplined_raftApplyCommittedEntries id (disciplined_again _)

/-- What a worker does to the shared data. -/
def workerGuar : Party → Shared → Shared → Prop
  | .applyThread => KeepsBatcher
  | _ => WorkerRely

/-- The protocol of the threads of a node; no worker adds a command to an empty batch. -/
def nodeProtocol : Protocol Input Shared Party :=
  { nodeThreads with
    G := workerGuar
    R := WorkerRely
    I := fun _ d => d.pending = 0
    G_refl := by
      rintro (_ | _ | _) d
      · exact .refl d
      · exact .refl d
      · exact .refl d
    R_refl := WorkerRely.refl
    R_trans := WorkerRely.trans
    R_of_G := by
      rintro (_ | _ | _) d d' _ h
      · exact h
      · exact h
      · exact h.workerRely
    flag_eq := by
      rintro (_ | _ | _) d d' h
      · rfl
      · exact h.active
      · exact h.applying
    I_stable := fun h => h.pending
    pass_disciplined := by
      rintro (_ | _ | _) h
      · exact absurd rfl h
      · exact disciplined_batchPass
      · exact disciplined_applyPass }

/-! ### The calls that wait for no thread -/

lemma KeepsFlags.refl (d : Shared) : KeepsFlags d d := ⟨rfl, rfl⟩

section Leads

variable {c k : Concurrent.NodeCode}

/-- A test that leaves the data alone. -/
lemma leads_ite {held : Bool} {b : Input → Shared → Bool} {p q : Concurrent.NodeCode}
    (hp : Leads KeepsFlags k held p) (hq : Leads KeepsFlags k held q) :
    Leads KeepsFlags k held (.ite b p q) :=
  .test (fun _ d _ => .refl d) hp hq

/-- An action under the mutex that leaves the batcher alone, and is the last one there. -/
lemma leads_mapNode {f : Input → Shared → RaftNode → RaftNode}
    (hf : ∀ x d, (f x d d.node).commandBatcher = d.node.commandBatcher)
    (hc : Leads KeepsFlags k false c) :
    Leads KeepsFlags k true (.act (fun x d => d.mapNode (f x d)) (.unlock c)) :=
  .act (fun x d => keepsFlags_mapNode d (hf x d)) (.unlock hc)

lemma leads_raftAppendEntry (hc : Leads KeepsFlags k false c) (t : Party) :
    Leads KeepsFlags k false (Concurrent.raftAppendEntry c t) :=
  .lock <| leads_ite (.unlock hc) <|
    .act (fun _ d => (keepsBatcher_appendEntry d t).keepsFlags) (.unlock hc)

lemma leads_raftReplicateLogs (hc : Leads KeepsFlags k false c) :
    Leads KeepsFlags k false (Concurrent.raftReplicateLogs c) :=
  leads_ite hc (.lock (leads_mapNode (fun _ _ => rfl) hc))

lemma leads_processRaftBatch (hc : Leads KeepsFlags k false c) (t : Party) :
    Leads KeepsFlags k false (Concurrent.processRaftBatch c t) :=
  .act (fun _ d => (keepsBatcher_setEntry d t _).keepsFlags) <|
    leads_raftAppendEntry (leads_ite (leads_raftReplicateLogs hc) hc) t

lemma leads_raftRecordVote : Leads KeepsFlags k false (Concurrent.raftRecordVote k) :=
  leads_ite .exit (.lock (leads_mapNode (fun _ _ => rfl) .exit))

lemma leads_raftHandleAppendEntries (req : RaftMsg RaftAppendEntriesReq)
    (resp : RaftMsg RaftAppendEntriesResp) :
    Leads KeepsFlags k false (Concurrent.raftHandleAppendEntries k req resp) := by
  refine .lock (leads_ite (.unlock .exit) (.act (fun x d => keepsFlags_mapNode d ?_) ?_))
  · cases h : raftHandleAppendEntries x.clk d.node req resp with
    | none => rfl
    | some r =>
        obtain ⟨node', resp'⟩ := r
        cases raftHandleAppendEntries_outcome h with
        | stale hlt => rfl
        | same heq => rfl
        | later hlt => rfl
  · exact leads_ite (.unlock .exit) (leads_ite (.unlock .exit) (.unlock .exit))

lemma leads_raftHandleRequestVote (req : RaftMsg RaftRequestVoteReq)
    (resp : RaftMsg RaftRequestVoteResp) :
    Leads KeepsFlags k false (Concurrent.raftHandleRequestVote k req resp) := by
  refine .lock (leads_ite (.unlock .exit) (leads_mapNode (fun x d => ?_) .exit))
  cases h : raftHandleRequestVote x.clk d.node req resp with
  | mk node' resp' =>
      have hout := raftHandleRequestVote_outcome h
      generalize resp'.data.voteGranted = granted at hout
      cases hout with
      | refuse hle => rfl
      | refuseLater hlt => rfl
      | grant heq hfree hlog => rfl
      | grantLater hlt hlog => rfl

/-- A command that is added to the batch leaves the flag alone, as does one that is not. -/
lemma commandBatcherAddCommand_active (b : CommandBatcher) (command : List UInt8) :
    (commandBatcherAddCommand b command).2.active = b.active := by
  rw [commandBatcherAddCommand]
  split
  · rfl
  · split <;> rfl

lemma leads_raftHandleClientCommand (cmd : KvsRecord) :
    Leads KeepsFlags k false (Concurrent.raftHandleClientCommand k cmd) := by
  refine leads_ite .exit (.test (fun _ d _ => ⟨?_, rfl⟩) .exit ?_)
  · exact commandBatcherAddCommand_active _ _
  · exact .act (fun _ d => (keepsBatcher_setEntry d .caller _).keepsFlags)
      (leads_raftAppendEntry (leads_raftReplicateLogs .exit) .caller)

lemma leads_raftApplyCommittedEntries :
    Leads KeepsFlags k false (Concurrent.raftApplyCommittedEntries k) :=
  leads_ite .exit (.lock (leads_ite (.unlock .exit) (leads_mapNode (fun _ _ => rfl) .exit)))

lemma leads_raftInitStateMachine :
    Leads KeepsFlags k false (Concurrent.raftInitStateMachine k) :=
  .lock (leads_ite (.unlock .exit) (.act (fun _ _ => ⟨rfl, rfl⟩) (.unlock .exit)))

end Leads

/-! ### Calls and what is known at their ends -/

/-- The workers whose flag is not set have ended, as far as `gone` knows. -/
def Stopped (gone : Party → Prop) (d : Shared) : Prop :=
  ∀ v, v ≠ .caller → nodeThreads.flag v d = false → gone v

lemma Stopped.of_flags {gone : Party → Prop} {d d' : Shared} (h : Stopped gone d)
    (hflags : KeepsFlags d d') : Stopped gone d' := by
  rintro (_ | _ | _) hv hflag
  · exact absurd rfl hv
  · exact h .batchThread hv (hflags.active.symm.trans hflag)
  · exact h .applyThread hv (hflags.applying.symm.trans hflag)

/-- What holds at the end of a call. -/
def Concurrent.Operation.Ends : Concurrent.Operation → Shared → Prop
  | .becomeFollower _ => fun d => d.node.state = .follower
  | _ => fun _ => True

/-- What is known at the end of a call, with the workers that have ended. -/
def Finished (E : Shared → Prop) (d : Shared) (gone : Party → Prop) : Prop :=
  Stopped gone d ∧ E d

section Runs

variable {strict : Bool} {E : Shared → Prop} {gone calm : Party → Prop} {d : Shared}

lemma runs_done (hE : ∀ d, E d) (h : Stopped gone d) :
    nodeProtocol.Runs strict (Finished E) .done false gone calm d :=
  ⟨rfl, fun _ (hR : WorkerRely d _) => ⟨h.of_flags hR.toKeepsFlags, hE _⟩⟩

/-- Code that waits for no thread runs when the code behind it does. -/
lemma runs_of_leads {Post : Shared → (Party → Prop) → Prop} {k c : Concurrent.NodeCode}
    {held : Bool} (hlead : Leads KeepsFlags k held c)
    (hk : ∀ calm d, Stopped gone d → nodeProtocol.Runs strict Post k false gone calm d)
    (h : Stopped gone d) : nodeProtocol.Runs strict Post c held gone calm d :=
  Protocol.Runs.of_leads (P := nodeProtocol) (J := Stopped gone) hlead
    (fun hR hd => hd.of_flags hR.toKeepsFlags) (fun hF hd => hd.of_flags hF) hk calm d h

/-! ### The calls that start and stop threads -/

variable {Post : Shared → (Party → Prop) → Prop} {k : Concurrent.NodeCode} {held : Bool}

lemma runs_commandBatcherStart
    (hk : ∀ gone calm d, Stopped gone d → nodeProtocol.Runs strict Post k held gone calm d)
    (h : Stopped gone d) :
    nodeProtocol.Runs strict Post (Concurrent.commandBatcherStart k) held gone calm d := by
  intro d₁ h₁ x₁
  have hstopped₁ : Stopped gone d₁ := h.of_flags h₁.toKeepsFlags
  refine ⟨fun _ => hk _ _ _ hstopped₁, fun hinactive => ?_⟩
  have hgone : gone .batchThread := hstopped₁ .batchThread (by decide) hinactive
  intro d₂ h₂ x₂ d₃ h₃ x₃
  -- the apply thread has ended if its flag is not set
  have hstopped₃ : nodeThreads.flag .applyThread d₃ = false → gone .applyThread := fun hflag =>
    hstopped₁ .applyThread (by decide)
      (h₂.applying.symm.trans ((h₃.applying.symm.trans hflag)))
  refine ⟨fun _ => ⟨by decide, hgone, fun d₄ h₄ => hk _ _ _ ?_⟩, fun _ => ?_⟩
  · rintro (_ | _ | _) hv hflag
    · exact absurd rfl hv
    · have hactive : d₄.active = true := h₄.active.trans h₃.active
      exact absurd hactive (by simpa [nodeThreads] using hflag)
    · exact ⟨hstopped₃ (h₄.applying.symm.trans hflag), by decide⟩
  · intro d₄ h₄ x₄
    refine hk _ _ _ ?_
    rintro (_ | _ | _) hv hflag
    · exact absurd rfl hv
    · exact hgone
    · exact hstopped₃ (h₄.applying.symm.trans hflag)

/-- The callback runs as long as the thread does not have the mutex already. -/
lemma runs_processRaftBatch (hheld : strict = true → held = false)
    (hk : ∀ calm d, Stopped gone d → d.active = false →
      nodeProtocol.Runs strict Post k held gone calm d)
    (h : Stopped gone d) (hactive : d.active = false) (t : Party) :
    nodeProtocol.Runs strict Post (Concurrent.processRaftBatch k t) held gone calm d := by
  cases held with
  | false =>
      exact Protocol.Runs.of_leads (P := nodeProtocol)
        (J := fun d => Stopped gone d ∧ d.active = false) (leads_processRaftBatch .exit t)
        (fun hR hd => ⟨hd.1.of_flags hR.toKeepsFlags, hR.active.trans hd.2⟩)
        (fun hF hd => ⟨hd.1.of_flags hF, hF.active.trans hd.2⟩)
        (fun calm d hd => hk calm d hd.1 hd.2) calm d ⟨h, hactive⟩
  | true =>
      intro d₁ h₁ x₁
      refine ⟨fun _ => ?_, fun hfalse => absurd hfalse (by simp)⟩
      cases strict with
      | true => exact absurd (hheld rfl) (by simp)
      | false => rfl

/-- `command_batcher_stop` runs without the mutex, and with it where no command is pending and the
batch thread does not ask for the mutex again. -/
lemma runs_commandBatcherStop
    (hcalm : strict = true → held = true → d.active = true → d.pending = 0 ∧ calm .batchThread)
    (hk : ∀ gone calm d, Stopped gone d → d.active = false →
      nodeProtocol.Runs strict Post k held gone calm d)
    (h : Stopped gone d) :
    nodeProtocol.Runs strict Post (Concurrent.commandBatcherStop k) held gone calm d := by
  intro d₁ h₁ x₁
  have hstopped₁ : Stopped gone d₁ := h.of_flags h₁.toKeepsFlags
  constructor
  · intro hinactive
    exact hk _ _ _ hstopped₁ (by simpa using hinactive)
  · intro hactive
    have hactive : d.active = true := h₁.active.symm.trans (by simpa using hactive)
    intro d₂ h₂ x₂
    refine ⟨by decide, fun hstrict => ⟨rfl, fun hheld => ?_⟩, ?_⟩
    · obtain ⟨hzero, hbatch⟩ := hcalm hstrict hheld hactive
      exact ⟨hbatch, h₂.pending (h₁.pending hzero)⟩
    intro d₃ h₃ d₄ h₄ x₄
    have hinactive : d₄.active = false := h₄.active.trans h₃.active
    have hstopped₄ : Stopped (fun u => gone u ∨ u = .batchThread) d₄ := by
      rintro (_ | _ | _) hv hflag
      · exact absurd rfl hv
      · exact Or.inr rfl
      · have happlying : d₄.applying = d₁.applying :=
          h₄.applying.trans (h₃.applying.trans h₂.applying)
        exact Or.inl (hstopped₁ .applyThread hv (happlying.symm.trans hflag))
    refine ⟨fun hpending => ?_, fun _ => hk _ _ _ hstopped₄ hinactive⟩
    refine runs_processRaftBatch (fun hstrict => ?_) (fun calm d => hk _ calm d)
      (hstopped₄.of_flags (keepsFlags_takeBatch _ _ _)) hinactive _
    -- with the mutex, the batch is empty
    cases held with
    | false => rfl
    | true =>
        have hzero := h₄.pending (h₃.pending (h₂.pending (h₁.pending (hcalm hstrict rfl hactive).1)))
        exact absurd (of_decide_eq_true hpending) (by rw [hzero]; exact lt_irrefl 0)

lemma runs_raftStartApplyThread (hE : ∀ d, E d) (h : Stopped gone d) :
    nodeProtocol.Runs strict (Finished E) (Concurrent.raftStartApplyThread .done) false gone calm
      d := by
  refine ⟨fun hheld => absurd hheld (by simp), fun _ d₁ h₁ d₂ h₂ x₂ => ?_⟩
  have hstopped₂ : Stopped gone d₂ := (h.of_flags h₁.toKeepsFlags).of_flags h₂.toKeepsFlags
  refine ⟨fun _ => ⟨rfl, fun d₃ h₃ => runs_done hE (hstopped₂.of_flags h₃.toKeepsFlags)⟩,
    fun hinactive => ?_⟩
  have hgone : gone .applyThread := hstopped₂ .applyThread (by decide) hinactive
  intro d₃ h₃ x₃ d₄ h₄ x₄
  have hstopped₄ : nodeThreads.flag .batchThread d₄ = false → gone .batchThread := fun hflag =>
    hstopped₂ .batchThread (by decide) (h₃.active.symm.trans (h₄.active.symm.trans hflag))
  refine ⟨fun _ => ⟨by decide, hgone, fun d₅ h₅ => ⟨rfl, fun d₆ h₆ => runs_done hE ?_⟩⟩,
    fun _ d₅ h₅ x₅ => ⟨rfl, fun d₆ h₆ => runs_done hE ?_⟩⟩
  · rintro (_ | _ | _) hv hflag
    · exact absurd rfl hv
    · exact ⟨hstopped₄ (h₅.active.symm.trans (h₆.active.symm.trans hflag)), by decide⟩
    · have happlying : d₆.applying = true :=
        h₆.applying.trans (h₅.applying.trans h₄.applying)
      exact absurd happlying (by simpa [nodeThreads] using hflag)
  · rintro (_ | _ | _) hv hflag
    · exact absurd rfl hv
    · exact hstopped₄ (h₅.active.symm.trans (h₆.active.symm.trans hflag))
    · exact hgone

lemma runs_raftStopApplyThread
    (hk : ∀ gone calm d, Stopped gone d → nodeProtocol.Runs strict Post k false gone calm d)
    (h : Stopped gone d) :
    nodeProtocol.Runs strict Post (Concurrent.raftStopApplyThread k) false gone calm d := by
  refine ⟨fun hheld => absurd hheld (by simp), fun _ d₁ h₁ d₂ h₂ x₂ => ?_⟩
  have hstopped₂ : Stopped gone d₂ := (h.of_flags h₁.toKeepsFlags).of_flags h₂.toKeepsFlags
  refine ⟨fun _ => ⟨rfl, fun d₃ h₃ => hk _ _ _ (hstopped₂.of_flags h₃.toKeepsFlags)⟩,
    fun _ d₃ h₃ x₃ => ⟨rfl, fun d₄ h₄ => ⟨by decide, fun _ => ⟨?_, fun hheld => ?_⟩, ?_⟩⟩⟩
  · exact h₄.applying
  · exact absurd hheld (by simp)
  · intro d₅ h₅
    refine hk _ _ _ ?_
    rintro (_ | _ | _) hv hflag
    · exact absurd rfl hv
    · have hactive : d₅.active = d₂.active := h₅.active.trans (h₄.active.trans h₃.active)
      exact Or.inl (hstopped₂ .batchThread hv (hactive.symm.trans hflag))
    · exact Or.inr rfl

lemma runs_raftBecomeLeader (hE : ∀ d, E d) (h : Stopped gone d) :
    nodeProtocol.Runs strict (Finished E) (Concurrent.raftBecomeLeader .done) false gone calm
      d := by
  refine ⟨fun hheld => absurd hheld (by simp), fun _ d₁ h₁ d₂ h₂ x₂ => ?_⟩
  refine runs_commandBatcherStart (fun gone calm d hd => ⟨rfl, fun d' hd' => ?_⟩) ?_
  · exact runs_done hE (hd.of_flags hd'.toKeepsFlags)
  · exact ((h.of_flags h₁.toKeepsFlags).of_flags h₂.toKeepsFlags).of_flags
      (keepsFlags_mapNode _ rfl)

lemma runs_raftDestroy (hE : ∀ d, E d) (h : Stopped gone d) :
    nodeProtocol.Runs strict (Finished E) (Concurrent.raftDestroy .done) false gone calm d := by
  have hfree : ∀ gone calm d, Stopped gone d → nodeProtocol.Runs strict (Finished E)
      (.act (fun _ d => { d with destroyed := true }) .done) false gone calm d := by
    intro gone calm d hd d₁ h₁ x₁
    exact runs_done hE ((hd.of_flags h₁.toKeepsFlags).of_flags ⟨rfl, rfl⟩)
  have hstop : ∀ {k : Concurrent.NodeCode},
      (∀ gone calm d, Stopped gone d → nodeProtocol.Runs strict (Finished E) k false gone calm d) →
      ∀ gone calm d, Stopped gone d → nodeProtocol.Runs strict (Finished E)
        (Concurrent.commandBatcherStop k) false gone calm d := by
    intro k hk gone calm d hd
    exact runs_commandBatcherStop (fun _ hheld => absurd hheld (by simp))
      (fun gone calm d hd _ => hk gone calm d hd) hd
  have hstopBatcher := hstop fun gone calm d (hd : Stopped gone d) =>
    (show nodeProtocol.Runs strict (Finished E) (.ite (fun _ d => d.active) _ _) false gone calm d
      from fun d₁ h₁ x₁ =>
        ⟨fun _ => hstop hfree _ _ _ (hd.of_flags h₁.toKeepsFlags),
          fun _ => hfree _ _ _ (hd.of_flags h₁.toKeepsFlags)⟩)
  intro d₁ h₁ x₁
  exact ⟨fun _ => runs_raftStopApplyThread hstopBatcher (h.of_flags h₁.toKeepsFlags),
    fun _ => hstopBatcher _ _ _ (h.of_flags h₁.toKeepsFlags)⟩

/-- `raft_become_follower` runs where its `command_batcher_stop` does. -/
lemma runs_raftBecomeFollower {term : ℕ} (hE : ∀ d, d.node.state = .follower → E d)
    (hcalm : strict = true → d.isLeader = true → d.active = true →
      d.pending = 0 ∧ calm .batchThread)
    (h : Stopped gone d) :
    nodeProtocol.Runs strict (Finished E) (Concurrent.raftBecomeFollower .done term) false gone
      calm d := by
  have htail : ∀ gone calm d, Stopped gone d → nodeProtocol.Runs strict (Finished E)
      (Concurrent.followerTail .done term) true gone calm d := by
    intro gone calm d hd d₁ h₁ x₁
    refine ⟨rfl, fun d₂ h₂ => ⟨rfl, fun d₃ h₃ => ⟨?_, ?_⟩⟩⟩
    · exact (((hd.of_flags h₁.toKeepsFlags).of_flags (keepsFlags_mapNode _ rfl)).of_flags
        h₂.toKeepsFlags).of_flags h₃.toKeepsFlags
    · exact hE _ (h₃.state.trans h₂.state)
  refine ⟨fun hheld => absurd hheld (by simp), fun _ d₁ h₁ d₂ h₂ x₂ => ⟨fun hleader => ?_, ?_⟩⟩
  · refine runs_commandBatcherStop (fun hstrict _ hactive => ?_)
      (fun gone calm d hd _ => htail gone calm d hd)
      ((h.of_flags h₁.toKeepsFlags).of_flags h₂.toKeepsFlags)
    have h₁₂ := h₁.trans h₂
    obtain ⟨hzero, hbatch⟩ := hcalm hstrict (h₁₂.isLeader.symm.trans hleader)
      (h₁₂.active.symm.trans hactive)
    exact ⟨h₁₂.pending hzero, hbatch, h₁₂.pending hzero⟩
  · exact fun _ => htail _ _ _ ((h.of_flags h₁.toKeepsFlags).of_flags h₂.toKeepsFlags)

end Runs

/-- Every call runs; `raft_become_follower` without error only where a leader with an active batcher
has no command pending and a batch thread that does not ask for the mutex again. -/
lemma runs_of_call {strict : Bool} {E : Shared → Prop} {gone calm : Party → Prop} {d : Shared}
    (op : Concurrent.Operation) (hE : ∀ d, op.Ends d → E d)
    (hcalm : ∀ term, op = .becomeFollower term → strict = true → d.isLeader = true →
      d.active = true → d.pending = 0 ∧ calm .batchThread)
    (h : Stopped gone d) : nodeProtocol.Runs strict (Finished E) op.code false gone calm d := by
  have simple : ∀ {c : Concurrent.NodeCode}, (∀ d, E d) → Leads KeepsFlags .done false c →
      nodeProtocol.Runs strict (Finished E) c false gone calm d := fun hE hlead =>
    runs_of_leads hlead (fun _ _ hd => runs_done hE hd) h
  cases op with
  | becomeFollower term => exact runs_raftBecomeFollower hE (hcalm term rfl) h
  | becomeCandidate =>
      exact simple (fun d => hE d trivial) (.lock (leads_mapNode (fun _ _ => rfl) .exit))
  | becomeLeader => exact runs_raftBecomeLeader (fun d => hE d trivial) h
  | startElection =>
      exact simple (fun d => hE d trivial) (.lock (leads_mapNode (fun _ _ => rfl) .exit))
  | recordVote => exact simple (fun d => hE d trivial) leads_raftRecordVote
  | checkElectionTimeout => exact simple (fun d => hE d trivial) (.lock (.unlock .exit))
  | resetElectionTimer =>
      exact simple (fun d => hE d trivial) (.act (fun _ d => keepsFlags_mapNode d rfl) .exit)
  | checkHeartbeatStatus => exact simple (fun d => hE d trivial) .exit
  | appendEntry entry =>
      exact simple (fun d => hE d trivial) (.act
        (fun _ d => (keepsBatcher_setEntry d .caller entry).keepsFlags)
        (leads_raftAppendEntry .exit .caller))
  | replicateLogs => exact simple (fun d => hE d trivial) (leads_raftReplicateLogs .exit)
  | handleAppendEntries req resp htype =>
      exact simple (fun d => hE d trivial) (leads_raftHandleAppendEntries req resp)
  | handleRequestVote req resp =>
      exact simple (fun d => hE d trivial) (leads_raftHandleRequestVote req resp)
  | sendAppendEntries targetId entriesLen =>
      exact simple (fun d => hE d trivial) (.lock (leads_mapNode (fun _ _ => rfl) .exit))
  | sendRequestVote => exact simple (fun d => hE d trivial) (.lock (.unlock .exit))
  | handleClientCommand cmd =>
      exact simple (fun d => hE d trivial) (leads_raftHandleClientCommand cmd)
  | applyCommittedEntries =>
      exact simple (fun d => hE d trivial) leads_raftApplyCommittedEntries
  | startApplyThread => exact runs_raftStartApplyThread (fun d => hE d trivial) h
  | stopApplyThread =>
      exact runs_raftStopApplyThread (fun _ _ _ hd => runs_done (fun d => hE d trivial) hd) h
  | initStateMachine => exact simple (fun d => hE d trivial) leads_raftInitStateMachine
  | destroy => exact runs_raftDestroy (fun d => hE d trivial) h

/-! ### The batch thread -/

/-- The batch thread, running alone, ends the pass of its loop without asking for the mutex, and
leaves no command in the batch. -/
abbrev BatchQuiet (c : Concurrent.NodeCode) (d : Shared) : Prop := Quiet (fun d => d.pending = 0) c d

/-- At this point of the loop of a leader's batch thread, quiet is calm. -/
def QuietIsCalm (c : Concurrent.NodeCode) : Prop :=
  ∀ d, d.isLeader = true → BatchQuiet c d → d.pending = 0 ∧ Calm (fun d => d.pending = 0) c

lemma calm_batchPass : Calm (fun d => d.pending = 0) Concurrent.batchPass := by
  refine fun x d hzero => ⟨fun hflush => ?_, fun _ => trivial⟩
  exact absurd hzero (pending_pos_of_shouldFlush hflush).ne'

lemma calm_batchBody : Calm (fun d => d.pending = 0) (nodeThreads.body .batchThread) :=
  nodeProtocol.body_calm calm_batchPass

/-- A leader's batch thread that replicates asks for the mutex. -/
lemma not_quiet_raftReplicateLogs {k : Concurrent.NodeCode} {d : Shared}
    (hleader : d.isLeader = true) : ¬ BatchQuiet (Concurrent.raftReplicateLogs k) d :=
  fun hquiet => (hquiet default).2 (by simp [hleader])

/-- A leader's batch thread that comes back from the append asks for the mutex again. -/
lemma not_quiet_afterAppend {k : Concurrent.NodeCode} {d : Shared} (hleader : d.isLeader = true) :
    ¬ BatchQuiet (.ite (fun _ d => d.isLeader) (Concurrent.raftReplicateLogs k) k) d :=
  fun hquiet => not_quiet_raftReplicateLogs hleader ((hquiet default).1 hleader)

lemma allPoints_raftReplicateLogs {k : Concurrent.NodeCode}
    (hcalm : Calm (fun d => d.pending = 0) k)
    (hquiet : ∀ d, d.isLeader = true → BatchQuiet k d → d.pending = 0)
    (hk : AllPoints QuietIsCalm k) :
    AllPoints QuietIsCalm (Concurrent.raftReplicateLogs k) := by
  refine ⟨fun d hleader h => absurd h (not_quiet_raftReplicateLogs hleader), hk,
    fun d _ h => h.elim, fun d hleader h => ⟨?_, hcalm⟩, fun d hleader h => ⟨?_, hcalm⟩, hk⟩
  · have hzero := hquiet (d.mapNode Concurrent.advanceNextIndex) hleader (h default)
    exact hzero
  · exact hquiet d hleader h

lemma allPoints_processRaftBatch {k : Concurrent.NodeCode}
    (hcalm : Calm (fun d => d.pending = 0) k)
    (hquiet : ∀ d, d.isLeader = true → BatchQuiet k d → d.pending = 0)
    (hk : AllPoints QuietIsCalm k) (t : Party) :
    AllPoints QuietIsCalm (Concurrent.processRaftBatch k t) := by
  have hafter : AllPoints QuietIsCalm
      (.ite (fun _ d => d.isLeader) (Concurrent.raftReplicateLogs k) k) :=
    ⟨fun d hleader h => absurd h (not_quiet_afterAppend hleader),
      allPoints_raftReplicateLogs hcalm hquiet hk, hk⟩
  have hunlock : AllPoints QuietIsCalm
      (.unlock (.ite (fun _ d => d.isLeader) (Concurrent.raftReplicateLogs k) k)) :=
    ⟨fun d hleader h => absurd h (not_quiet_afterAppend hleader), hafter⟩
  refine ⟨fun d _ h => (h default).elim, fun d _ h => h.elim, fun d hleader h => ?_, hunlock,
    fun d hleader h => ?_, hunlock⟩
  · -- both ways out of the section lead to the test of the state
    cases hfull : (raftAppendEntry d.node (d.entry t)).isNone with
    | true => exact absurd ((h default).1 hfull) (not_quiet_afterAppend hleader)
    | false =>
        refine absurd ((h default).2 hfull default) (not_quiet_afterAppend ?_)
        exact (keepsBatcher_appendEntry d t).workerRely.isLeader.trans hleader
  · refine absurd (h default) (not_quiet_afterAppend ?_)
    exact (keepsBatcher_appendEntry d t).workerRely.isLeader.trans hleader

/-- Commands that are pending keep the batch thread from ending its pass without the mutex. -/
lemma quiet_batchPass {d : Shared} (h : BatchQuiet Concurrent.batchPass d) : d.pending = 0 := by
  cases hflush : shouldFlush d.node.commandBatcher (default : Input).clk.monotonic with
  | true => exact ((h default).1 hflush default).elim
  | false => exact (h default).2 hflush

lemma allPoints_batchBody : AllPoints QuietIsCalm (nodeThreads.body .batchThread) := by
  have hagain : AllPoints QuietIsCalm (.again : Concurrent.NodeCode) := fun d _ h => ⟨h, trivial⟩
  refine ⟨fun d _ h => ⟨?_, calm_batchBody⟩, ⟨fun d _ h => ⟨quiet_batchPass h, calm_batchPass⟩,
    allPoints_processRaftBatch (k := .again) trivial (fun _ _ h => h) hagain _, hagain⟩,
    fun d _ h => ⟨h, trivial⟩⟩
  cases hactive : d.active with
  | true => exact quiet_batchPass ((h default).1 hactive)
  | false => exact (h default).2 hactive

/-! ### Reachable states -/

/-- What is known of a node at any point of a run: nothing makes the callers come to a wrong end,
and the batch thread stands somewhere in its loop. -/
structure NodeInvariant (s : NodeState) : Prop where
  good : ∃ gone calm, nodeProtocol.Good false (Finished fun _ => True) gone calm s
  points : AllPoints QuietIsCalm (s.code .batchThread)

/-- The workers that have ended when a call comes to its end. -/
lemma NodeInvariant.idle {s : NodeState} (h : NodeInvariant s) (hidle : s.code .caller = .done) :
    nodeProtocol.Workers s ∧ s.owner ≠ some .caller ∧
      ∃ gone, Stopped gone s.data ∧ ∀ v, gone v → v ≠ .caller ∧ s.code v = .done := by
  obtain ⟨gone, calm, hgood⟩ := h.good
  obtain ⟨howner, hstopped, -⟩ := hgood.end_of_done hidle
  refine ⟨hgood.workers, howner, fun v => gone v ∧ v ≠ .caller, ?_, ?_⟩
  · exact fun v hv hflag => ⟨hstopped v hv hflag, hv⟩
  · exact fun v hv => ⟨hv.2, hgood.gone v hv.1⟩

lemma NodeInvariant.call {s : NodeState} (h : NodeInvariant s) (hidle : s.code .caller = .done)
    (op : Concurrent.Operation) : NodeInvariant (s.call op) := by
  obtain ⟨hworkers, howner, gone, hstopped, hgone⟩ := h.idle hidle
  refine ⟨⟨gone, fun _ => False, .of_call hworkers howner ?_ hgone fun v hv => hv.elim⟩, ?_⟩
  · exact runs_of_call op (fun _ _ => trivial) (fun _ _ hstrict => absurd hstrict (by simp)) hstopped
  · rw [NodeState.call, State.goTo_code_of_ne (by decide)]
    exact h.points

lemma NodeInvariant.event {s s' : NodeState} {e : NodeEvent} (hs : NodeInvariant s)
    (h : nodeEvent s e = some s') : NodeInvariant s' := by
  cases e with
  | call op =>
      rw [nodeEvent] at h
      split at h
      · rename_i hidle
        obtain rfl := Option.some.inj h
        exact hs.call (Code.isDone_iff.1 hidle.1) op
      · cases h
  | step t x =>
      obtain ⟨gone, calm, hgood⟩ := hs.good
      have hstep : Locking.step nodeProtocol.toThreads s (t, x) = some s' := h
      exact ⟨hgood.of_step hstep, hs.points.of_step allPoints_batchBody hstep⟩

lemma nodeInvariant_init (nodeId : ℕ) (clk : Clock) : NodeInvariant (.init nodeId clk) := by
  refine ⟨⟨fun _ => True, fun _ => False, fun v _ => rfl, ?_, fun v _ => rfl, fun v hv => hv.elim⟩,
    fun d _ h => ⟨h, trivial⟩⟩
  exact runs_done (fun _ => trivial) fun _ _ _ => trivial

lemma nodeInvariant_of_reaches {nodeId : ℕ} {clk : Clock} {s : NodeState}
    (h : Reaches nodeEvent (.init nodeId clk) s) : NodeInvariant s := by
  obtain ⟨es, hes⟩ := h
  exact run_invariant (fun _ _ _ hs hstep => hs.event hstep) (nodeInvariant_init nodeId clk) hes

/-! ### The calls that come back -/

/-- The call of an operation comes back: no order of the steps that follow leads to an error, the
end of the call can be reached from wherever they lead, and there the caller does not have the
mutex. -/
def Completes (op : Concurrent.Operation) (s : NodeState) : Prop :=
  ∀ s', Reaches (Locking.step nodeThreads) (s.call op) s' →
    (∀ t, ¬ s'.Error t) ∧
      (∃ s'', Reaches (Locking.step nodeThreads) s' s'' ∧ s''.code .caller = .done) ∧
      (s'.code .caller = .done → s'.owner ≠ some .caller ∧ op.Ends s'.data)

/-- The call is not the step down of a leader with an active batcher, or there is no command pending
and the batch thread, if it ran on alone, would end the pass of its loop without asking for the
mutex. -/
def StepsDownQuietly (op : Concurrent.Operation) (s : NodeState) : Prop :=
  match op with
  | .becomeFollower _ =>
      s.data.isLeader = true → s.data.active = true → BatchQuiet (s.code .batchThread) s.data
  | _ => True

lemma completes_of_quiet {op : Concurrent.Operation} {s : NodeState} (h : NodeInvariant s)
    (hidle : s.code .caller = .done) (hquiet : StepsDownQuietly op s) : Completes op s := by
  obtain ⟨hworkers, howner, gone, hstopped, hgone⟩ := h.idle hidle
  have hgood : nodeProtocol.Good true (Finished op.Ends) gone
      (fun v => v = .batchThread ∧ s.data.pending = 0 ∧
        Calm (fun d => d.pending = 0) (s.code .batchThread)) (s.call op) := by
    refine .of_call hworkers howner (runs_of_call op (fun _ hd => hd) ?_ hstopped) hgone ?_
    · rintro term rfl - hleader hactive
      obtain ⟨hzero, hcalm⟩ := h.points.self _ hleader (hquiet hleader hactive)
      exact ⟨hzero, rfl, hzero, hcalm⟩
    · rintro v ⟨rfl, hzero, hcalm⟩
      exact ⟨by decide, hzero, hcalm, calm_batchPass⟩
  intro s' hs'
  obtain ⟨gone', calm', hgood'⟩ := hgood.of_reaches hs'
  refine ⟨hgood'.not_error, hgood'.canEnd rfl, fun hdone => ?_⟩
  obtain ⟨howner', -, hends⟩ := hgood'.end_of_done hdone
  exact ⟨howner', hends⟩

/-! ### The calls that do not -/

section Errors

variable {s : NodeState} {term : ℕ}

/-- What `command_batcher_stop` has left to do behind the wait for the batch thread. -/
def afterJoin (term : ℕ) : Concurrent.NodeCode :=
  .test (fun _ d => decide (d.pending > 0)) (fun x d => d.takeBatch .caller x.clk.monotonic)
    (Concurrent.processRaftBatch (Concurrent.followerTail .done term) .caller)
    (Concurrent.followerTail .done term)

/-- The leader has the mutex and waits for the batch thread, whose flag is not set. -/
def joining (s : NodeState) (term : ℕ) : NodeState :=
  { s.goTo .caller (.join .batchThread (afterJoin term)) with
    owner := some .caller
    data := s.data.setActive false }

lemma joining_code_caller (s : NodeState) (term : ℕ) :
    (joining s term).code .caller = .join .batchThread (afterJoin term) := rfl

lemma joining_code_batchThread (s : NodeState) (term : ℕ) :
    (joining s term).code .batchThread = s.code .batchThread := rfl

/-- A leader that has got the mutex comes to wait for the batch thread. -/
lemma reaches_joining (hcode : s.code .caller = Concurrent.raftBecomeFollower .done term)
    (hfree : s.owner = none) (hleader : s.data.isLeader = true) (hactive : s.data.active = true) :
    Reaches (Locking.step nodeThreads) s (joining s term) := by
  refine ⟨List.replicate 4 (.caller, default), ?_⟩
  simp [run, Locking.step, List.replicate, hcode, Concurrent.raftBecomeFollower, hfree, Code.ite,
    State.goTo, hleader, Concurrent.commandBatcherStop, hactive, joining, afterJoin]

/-- A batch thread that has come to the end of a pass and finds its flag not set ends. -/
lemma reaches_exit (hagain : s.code .batchThread = .done ∨ s.code .batchThread = .again)
    (hactive : s.data.active = false) :
    Reaches (Locking.step nodeThreads) s (s.goTo .batchThread .done) := by
  rcases hagain with hdone | hagain
  · refine ⟨[], ?_⟩
    rw [run_nil, State.goTo, ← hdone, Function.update_eq_self]
  · refine ⟨List.replicate 2 (.batchThread, default), ?_⟩
    simp [run, Locking.step, List.replicate, hagain, Threads.body, nodeThreads, State.goTo,
      Code.ite, hactive]

/-- With the mutex, the callback asks for the mutex. -/
lemma exists_error_of_pending (howner : s.owner = some .caller)
    (hcode : s.code .caller = .join .batchThread (afterJoin term))
    (hdone : s.code .batchThread = .done) (hpending : ¬ s.data.pending = 0) :
    ∃ s', Reaches (Locking.step nodeThreads) s s' ∧ s'.Error .caller := by
  have hpos : s.data.pending > 0 := Nat.pos_of_ne_zero hpending
  let d := s.data.takeBatch .caller (default : Input).clk.monotonic
  have hreach : Reaches (Locking.step nodeThreads) s
      { s.goTo .caller (Concurrent.raftAppendEntry
          (.ite (fun _ d => d.isLeader)
            (Concurrent.raftReplicateLogs (Concurrent.followerTail .done term))
            (Concurrent.followerTail .done term)) .caller) with
        data := d.setEntry .caller (raftCreateEntry d.node.currentTerm .command
          (d.batch .caller).commands (d.batch .caller).totalLength) } := by
    refine ⟨List.replicate 3 (.caller, default), ?_⟩
    simp [run, Locking.step, List.replicate, hcode, hdone, Code.isDone, afterJoin, hpos,
      State.goTo, Concurrent.processRaftBatch, d]
  exact ⟨_, hreach, howner, Or.inl ⟨_, State.goTo_code_self s .caller _⟩⟩

/-- The mutex can become free without the batch thread moving, and the batch as it is. -/
lemma exists_free_of_idle (hworkers : nodeProtocol.Workers s) (hbatch : s.owner ≠ some .batchThread)
    (hcaller : s.owner ≠ some .caller) :
    ∃ s', ReflTransGen nodeProtocol.Drifts s s' ∧ s'.owner = none ∧
      s'.code .batchThread = s.code .batchThread ∧ s'.data.pending = s.data.pending := by
  cases howner : s.owner with
  | none => exact ⟨s, .refl, howner, rfl, rfl⟩
  | some u =>
      cases u with
      | caller => exact absurd howner hcaller
      | batchThread => exact absurd howner hbatch
      | applyThread =>
          have hne : Party.applyThread ≠ nodeProtocol.main := by decide
          obtain ⟨s', hmoves, hfree⟩ := Protocol.exists_release hne hworkers rfl howner
          refine ⟨s', Protocol.drifts_of_moves hne hmoves, hfree,
            Protocol.code_of_moves (by decide) hmoves, ?_⟩
          exact Protocol.data_of_moves (J := fun d => d.pending = s.data.pending)
            (fun (hG : KeepsBatcher _ _) hJ => hG.pending.trans hJ) hmoves rfl

/-- A leader whose batch thread is not quiet can come to an error when it steps down. -/
lemma exists_error (term : ℕ) (h : NodeInvariant s) (hidle : s.code .caller = .done)
    (hleader : s.data.isLeader = true) (hactive : s.data.active = true)
    (hquiet : ¬ BatchQuiet (s.code .batchThread) s.data) :
    ∃ s', Reaches (Locking.step nodeThreads) (s.call (.becomeFollower term)) s' ∧
      s'.Error .caller := by
  obtain ⟨-, howner, -⟩ := h.idle hidle
  obtain ⟨_, _, hgood⟩ := (h.call hidle (.becomeFollower term)).good
  have hne : Party.batchThread ≠ nodeProtocol.main := by decide
  -- the batch thread runs until it asks for the mutex, or ends its pass with commands pending
  have hquiet₀ : ¬ BatchQuiet ((s.call (.becomeFollower term)).code .batchThread)
      (s.call (.becomeFollower term)).data := by
    rw [NodeState.call, State.goTo_code_of_ne (by decide)]
    exact hquiet
  obtain ⟨s₁, hmoves, hbatch₁, hcases⟩ :=
    Protocol.exists_of_not_quiet hne hgood.workers rfl hquiet₀
  have hdrifts₁ := Protocol.drifts_of_moves hne hmoves
  have hcaller₁ : s₁.owner ≠ some .caller := fun hc =>
    howner ((Protocol.owner_of_moves (by decide) hmoves).1 hc)
  -- the apply thread releases the mutex if it has it, and the caller takes it
  obtain ⟨s₂, hdrifts₂, hfree, hcode₂, hpending₂⟩ :=
    exists_free_of_idle (hgood.workers.drifts hdrifts₁) hbatch₁ hcaller₁
  have hdrifts := hdrifts₁.trans hdrifts₂
  have hrely : WorkerRely s.data s₂.data := Protocol.rely_of_drifts hdrifts
  have hcaller₂ : s₂.code .caller = Concurrent.raftBecomeFollower .done term :=
    (Protocol.code_main_of_drifts hdrifts).trans (State.goTo_code_self ..)
  have hjoin := (Protocol.reaches_of_drifts hdrifts).trans
    (reaches_joining hcaller₂ hfree (hrely.isLeader.trans hleader) (hrely.active.trans hactive))
  rcases hcases with ⟨k, hk⟩ | ⟨hend, hpending⟩
  · refine ⟨_, hjoin, rfl, Or.inr ⟨.batchThread, _, joining_code_caller .., k, ?_⟩⟩
    rw [joining_code_batchThread, hcode₂, hk]
  · rw [← hcode₂, ← joining_code_batchThread s₂ term] at hend
    rw [← hpending₂] at hpending
    have hexit := reaches_exit hend rfl
    have hcaller : ((joining s₂ term).goTo .batchThread .done).code .caller =
        .join .batchThread (afterJoin term) := by
      rw [State.goTo_code_of_ne (by decide), joining_code_caller]
    obtain ⟨s', hs', herror⟩ := exists_error_of_pending (s := (joining s₂ term).goTo .batchThread .done)
      rfl hcaller (State.goTo_code_self ..) hpending
    exact ⟨s', (hjoin.trans hexit).trans hs', herror⟩

end Errors

/-- **Which calls come back.**  In every state that a run of the node reaches, the call of an
operation comes back exactly when it is not the step down of a leader with an active batcher, or
this leader has no command pending and its batch thread is not about to take the mutex. -/
theorem operations_complete_iff {nodeId : ℕ} {clk : Clock} {s : NodeState}
    (hreach : Reaches nodeEvent (.init nodeId clk) s) (hidle : s.code .caller = .done)
    (op : Concurrent.Operation) : Completes op s ↔ StepsDownQuietly op s := by
  have hinv := nodeInvariant_of_reaches hreach
  refine ⟨fun hcompletes => ?_, completes_of_quiet hinv hidle⟩
  by_contra hquiet
  cases op with
  | becomeFollower term =>
      simp only [StepsDownQuietly, not_forall] at hquiet
      obtain ⟨hleader, hactive, hquiet⟩ := hquiet
      obtain ⟨s', hs', herror⟩ := exists_error _ hinv hidle hleader hactive hquiet
      exact (hcompletes s' hs').1 .caller herror
  | _ => exact hquiet trivial

/-- A node becomes a leader, and its batcher starts. -/
def becomesLeader : List NodeEvent :=
  .call .becomeLeader :: List.replicate 7 (.step .caller ⟨⟨0, 0⟩, true⟩)

/-- A leader without commands steps down. -/
theorem operations_complete_empty_batch :
    ∃ s, Reaches nodeEvent (.init 1 ⟨0, 0⟩) s ∧ s.data.isLeader = true ∧ s.data.active = true ∧
      Completes (.becomeFollower 2) s := by
  refine ⟨_, ⟨becomesLeader, rfl⟩, rfl, rfl,
    (operations_complete_iff ⟨becomesLeader, rfl⟩ rfl (.becomeFollower 2)).2 ?_⟩
  refine fun _ _ x => ⟨fun _ x => ⟨fun hflush => ?_, fun _ => rfl⟩, fun _ => rfl⟩
  exact absurd (pending_pos_of_shouldFlush hflush) (lt_irrefl 0)

/-- A leader accepts a command and steps down before the batch has been handed over. -/
theorem operations_not_complete_pending :
    ∃ s, Reaches nodeEvent (.init 1 ⟨0, 0⟩) s ∧ s.code .caller = .done ∧ s.data.isLeader = true ∧
      s.data.pending = 1 ∧ ¬ Completes (.becomeFollower 2) s := by
  have hreach : Reaches nodeEvent (.init 1 ⟨0, 0⟩) _ :=
    ⟨becomesLeader ++ .call (.handleClientCommand ⟨shortBytes 2, by decide⟩) ::
      List.replicate 2 (.step .caller ⟨⟨0, 0⟩, true⟩), rfl⟩
  refine ⟨_, hreach, rfl, rfl, rfl, fun hcompletes => ?_⟩
  obtain ⟨s', hs', herror⟩ := exists_error 2 (nodeInvariant_of_reaches hreach) rfl rfl rfl
    fun hquiet => absurd (quiet_batchPass ((hquiet default).1 rfl)) (by decide)
  exact (hcompletes s' hs').1 .caller herror

end Oceanliner
