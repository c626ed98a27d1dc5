/-
# The command batcher and its threads

Any number of callers add commands to the batcher, flush, start and stop it, and each start
creates a thread that runs `batch_processor_thread`.  A critical section under `batch_mutex`
is one step, and so is the call of the callback, which comes later: in between the thread holds
a copy of a batch that the batcher has replaced.  `commands_handed_over` says that no command
falls between the two.  The field `active` is read and written without the mutex, each in a step
of its own.  The batcher has a callback, as that of a node does.
-/
import Oceanliner.CommandBatcher
import Oceanliner.Lib.Custody
import Oceanliner.Lib.Transition

open Function Transition

namespace Oceanliner

/-- What a caller passes to `command_batcher_add_command`; the length is a `uint32_t`. -/
structure BatchCommand where
  bytes : List UInt8
  length_lt : bytes.length < 2 ^ 32
deriving DecidableEq

/-- A thread: one that calls the functions of the batcher, or one that `command_batcher_start`
has created. -/
inductive ThreadId where
  | caller (i : ℕ)
  | processor (i : ℕ)
deriving DecidableEq

/-- Where a thread stands: outside the batcher (or not created yet); in `command_batcher_start`,
about to set `active` or to create the thread; in `batch_processor_thread`, about to look at
`active` or to lock the mutex; at its end; in `command_batcher_stop`, about to reset `active`, to
wait for the thread or to lock the mutex; or with a copy of the batch with the given number, about
to call the callback. -/
inductive BatcherThread where
  | outside
  | starting
  | creating
  | looping
  | ticking
  | exited
  | stopping
  | joining
  | draining
  | calling (serial : ℕ) (batch : CommandBatch)
deriving DecidableEq

/-- The copy of a batch that a thread has. -/
def BatcherThread.held : BatcherThread → Option (ℕ × CommandBatch)
  | .calling serial batch => some (serial, batch)
  | _ => none

lemma BatcherThread.held_eq_some {pc : BatcherThread} {serial : ℕ} {batch : CommandBatch} :
    pc.held = some (serial, batch) ↔ pc = .calling serial batch := by
  cases pc <;> simp [held]

/-- The batcher and its threads.  `batch_thread` is the last one created; the last three fields
record the commands accepted, the batches taken out and those passed to the callback. -/
structure BatcherRun where
  batcher : CommandBatcher
  thread : ThreadId → BatcherThread
  created : ℕ
  accepted : List BatchCommand
  taken : List CommandBatch
  passed : List (ℕ × CommandBatch)

namespace BatcherRun

/-- The batcher after `command_batcher_init`. -/
def start (batchDelayMs now : ℕ) : BatcherRun where
  batcher := commandBatcherInit batchDelayMs now
  thread := fun _ => .outside
  created := 0
  accepted := []
  taken := []
  passed := []

/-- The thread `t` has gone on to `pc`. -/
def goTo (s : BatcherRun) (t : ThreadId) (pc : BatcherThread) : BatcherRun :=
  { s with thread := update s.thread t pc }

/-- The thread `t` has left a critical section, with a batch if it has taken one, otherwise for
`pc`. -/
def leave (s : BatcherRun) (t : ThreadId) (r : Option CommandBatch × CommandBatcher)
    (pc : BatcherThread) : BatcherRun :=
  match r.1 with
  | some batch =>
      { s with
        batcher := r.2
        thread := update s.thread t (.calling s.taken.length batch)
        taken := s.taken ++ [batch] }
  | none => { s with batcher := r.2, thread := update s.thread t pc }

/-- Where a thread goes on after the callback. -/
def afterCallback : ThreadId → BatcherThread
  | .caller _ => .outside
  | .processor _ => .looping

/-- The thread `t` calls the callback on its copy of a batch. -/
def callback (s : BatcherRun) (t : ThreadId) : Option BatcherRun :=
  match s.thread t with
  | .calling serial batch =>
      some { s.goTo t (afterCallback t) with passed := s.passed ++ [(serial, batch)] }
  | _ => none

end BatcherRun

/-- The critical section of `batch_processor_thread`. -/
def batchProcessorSection (b : CommandBatcher) (now : ℕ) : Option CommandBatch × CommandBatcher :=
  if shouldFlush b now then (some b.currentBatch, commandBatcherNewBatch b now) else (none, b)

/-- The steps of the threads, with the monotonic clock where they read it. -/
inductive BatcherAction where
  | addCommand (i : ℕ) (command : BatchCommand)
  | flush (i now : ℕ)
  | start (i : ℕ)
  | activate (i : ℕ)
  | create (i : ℕ) (succeeds : Bool)
  | look (j : ℕ)
  | tick (j now : ℕ)
  | stop (i : ℕ)
  | deactivate (i : ℕ)
  | join (i : ℕ)
  | drain (i now : ℕ)
  | callback (t : ThreadId)

/-- A step of a thread; it is not defined when the thread stands elsewhere, or waits. -/
def batcherStep (s : BatcherRun) : BatcherAction → Option BatcherRun
  | .addCommand i command =>
      if s.thread (.caller i) ≠ .outside then none
      else
        let (added, batcher) := commandBatcherAddCommand s.batcher command.bytes
        some
          { s with
            batcher := batcher
            accepted := if added then s.accepted ++ [command] else s.accepted }
  | .flush i now =>
      if s.thread (.caller i) ≠ .outside then none
      else some (s.leave (.caller i) (commandBatcherFlushTake s.batcher now) .outside)
  | .start i =>
      if s.thread (.caller i) ≠ .outside then none
      else if s.batcher.active then some s
      else some (s.goTo (.caller i) .starting)
  | .activate i =>
      if s.thread (.caller i) ≠ .starting then none
      else
        let s := { s with batcher := { s.batcher with active := true } }
        some (s.goTo (.caller i) .creating)
  | .create i succeeds =>
      if s.thread (.caller i) ≠ .creating then none
      else if succeeds then
        let s := { s with created := s.created + 1 }
        some ((s.goTo (.processor (s.created - 1)) .looping).goTo (.caller i) .outside)
      else
        let s := { s with batcher := { s.batcher with active := false } }
        some (s.goTo (.caller i) .outside)
  | .look j =>
      if s.thread (.processor j) ≠ .looping then none
      else some (s.goTo (.processor j) (if s.batcher.active then .ticking else .exited))
  | .tick j now =>
      if s.thread (.processor j) ≠ .ticking then none
      else some (s.leave (.processor j) (batchProcessorSection s.batcher now) .looping)
  | .stop i =>
      if s.thread (.caller i) ≠ .outside then none
      else if s.batcher.active then some (s.goTo (.caller i) .stopping)
      else some s
  | .deactivate i =>
      if s.thread (.caller i) ≠ .stopping then none
      else
        let s := { s with batcher := { s.batcher with active := false } }
        some (s.goTo (.caller i) .joining)
  | .join i =>
      -- waits until `batch_thread` has ended
      if s.thread (.caller i) ≠ .joining ∨ s.created = 0 ∨
          s.thread (.processor (s.created - 1)) ≠ .exited then none
      else some (s.goTo (.caller i) .draining)
  | .drain i now =>
      if s.thread (.caller i) ≠ .draining then none
      else some (s.leave (.caller i) (commandBatcherFlushTake s.batcher now) .outside)
  | .callback t => s.callback t

/-- The batch holds the given commands: their bytes one after the other, with the sum of their
lengths and their number. -/
structure CommandBatch.Holds (batch : CommandBatch) (commands : List BatchCommand) : Prop where
  bytes : batch.commands = (commands.map BatchCommand.bytes).flatten
  totalLength : batch.totalLength = (commands.map fun command => command.bytes.length).sum
  numCommands : batch.numCommands = commands.length

/-! ### One step -/

/-- The threads that `command_batcher_start` has not created stand outside. -/
def ThreadsCreated (s : BatcherRun) : Prop :=
  ∀ j, s.created ≤ j → s.thread (.processor j) = .outside

/-- The outcomes of a step.  A thread that has no batch goes on, perhaps with a batch it takes
out, or a thread that has one passes it to the callback. -/
inductive BatcherOutcome (s : BatcherRun) : BatcherRun → Prop where
  | stays : BatcherOutcome s s
  | moves {batcher : CommandBatcher} {t : ThreadId} {pc : BatcherThread}
      (hbatch : batcher.currentBatch = s.batcher.currentBatch)
      (hfrom : (s.thread t).held = none) (hto : pc.held = none)
      (hcreated : ∀ j, t = .processor j → s.thread t ≠ .outside) :
      BatcherOutcome s { s with batcher := batcher, thread := update s.thread t pc }
  | creates {i : ℕ} (hfrom : s.thread (.caller i) = .creating) :
      BatcherOutcome s
        { s with
          thread := update (update s.thread (.processor s.created) .looping) (.caller i) .outside
          created := s.created + 1 }
  | accepts {batcher : CommandBatcher} {command : BatchCommand}
      (hadd : AddsCommand s.batcher command.bytes batcher) :
      BatcherOutcome s { s with batcher := batcher, accepted := s.accepted ++ [command] }
  | takes {batcher : CommandBatcher} {t : ThreadId} (hfrom : (s.thread t).held = none)
      (hcreated : ∀ j, t = .processor j → s.thread t ≠ .outside)
      (hnum : batcher.currentBatch.numCommands = 0) :
      BatcherOutcome s
        { s with
          batcher := batcher
          thread := update s.thread t (.calling s.taken.length s.batcher.currentBatch)
          taken := s.taken ++ [s.batcher.currentBatch] }
  | passes {t : ThreadId} {pc : BatcherThread} {serial : ℕ} {batch : CommandBatch}
      (hfrom : s.thread t = .calling serial batch) (hto : pc.held = none) :
      BatcherOutcome s
        { s with thread := update s.thread t pc, passed := s.passed ++ [(serial, batch)] }

section Step

variable {s s' : BatcherRun}

lemma processorSection_takes (b : CommandBatcher) (now : ℕ) :
    TakesBatch b (batchProcessorSection b now) := by
  rw [batchProcessorSection]
  split
  · rename_i hflush
    simp only [shouldFlush, Bool.and_eq_true, decide_eq_true_eq] at hflush
    exact .taken hflush.1 rfl
  · exact .kept rfl

/-- A thread leaves a critical section in which it may have taken the current batch out. -/
lemma leave_outcome {t : ThreadId} {r : Option CommandBatch × CommandBatcher}
    {before pc : BatcherThread} (hfrom : s.thread t = before)
    (hbefore : before.held = none) (hto : pc.held = none)
    (hcreated : ∀ j, t = .processor j → before ≠ .outside)
    (h : TakesBatch s.batcher r) : BatcherOutcome s (s.leave t r pc) := by
  subst hfrom
  cases h with
  | kept hbatch => exact .moves hbatch hbefore hto hcreated
  | taken _ hnum => exact .takes hbefore hcreated hnum

lemma batcherStep_outcome {a : BatcherAction} (h : batcherStep s a = some s') :
    BatcherOutcome s s' := by
  have hcaller : ∀ {i : ℕ} {pc : BatcherThread} (j : ℕ), ThreadId.caller i = .processor j →
      pc ≠ .outside := by rintro i pc j ⟨⟩
  cases a with
  | addCommand i command =>
      rw [batcherStep] at h
      split at h
      · cases h
      · cases hadd : commandBatcherAddCommand s.batcher command.bytes with
        | mk added batcher =>
            rw [hadd] at h
            obtain rfl := Option.some.inj h
            cases added with
            | true => exact .accepts (addCommand_accept hadd)
            | false =>
                obtain ⟨rfl, -⟩ := addCommand_refuse hadd
                exact .stays
  | flush i now =>
      rw [batcherStep] at h
      split at h
      · cases h
      · rename_i hfrom
        obtain rfl := Option.some.inj h
        exact leave_outcome (not_not.1 hfrom) rfl rfl hcaller (flushTake_takes _ _)
  | start i =>
      rw [batcherStep] at h
      split at h
      · cases h
      · rename_i hfrom
        split at h
        · obtain rfl := Option.some.inj h
          exact .stays
        · obtain rfl := Option.some.inj h
          exact .moves rfl (by rw [not_not.1 hfrom]; rfl) rfl hcaller
  | activate i =>
      rw [batcherStep] at h
      split at h
      · cases h
      · rename_i hfrom
        obtain rfl := Option.some.inj h
        exact .moves rfl (by rw [not_not.1 hfrom]; rfl) rfl hcaller
  | create i succeeds =>
      rw [batcherStep] at h
      split at h
      · cases h
      · rename_i hfrom
        split at h
        · obtain rfl := Option.some.inj h
          exact .creates (not_not.1 hfrom)
        · obtain rfl := Option.some.inj h
          exact .moves rfl (by rw [not_not.1 hfrom]; rfl) rfl hcaller
  | look j =>
      rw [batcherStep] at h
      split at h
      · cases h
      · rename_i hfrom
        rw [not_not] at hfrom
        obtain rfl := Option.some.inj h
        refine .moves rfl (by rw [hfrom]; rfl) ?_ ?_
        · split <;> rfl
        · rw [hfrom]
          rintro j' - ⟨⟩
  | tick j now =>
      rw [batcherStep] at h
      split at h
      · cases h
      · rename_i hfrom
        obtain rfl := Option.some.inj h
        exact leave_outcome (not_not.1 hfrom) rfl rfl (by rintro j' - ⟨⟩)
          (processorSection_takes _ _)
  | stop i =>
      rw [batcherStep] at h
      split at h
      · cases h
      · rename_i hfrom
        split at h
        · obtain rfl := Option.some.inj h
          exact .moves rfl (by rw [not_not.1 hfrom]; rfl) rfl hcaller
        · obtain rfl := Option.some.inj h
          exact .stays
  | deactivate i =>
      rw [batcherStep] at h
      split at h
      · cases h
      · rename_i hfrom
        obtain rfl := Option.some.inj h
        exact .moves rfl (by rw [not_not.1 hfrom]; rfl) rfl hcaller
  | join i =>
      rw [batcherStep] at h
      split at h
      · cases h
      · rename_i hfrom
        rw [not_or, not_not] at hfrom
        obtain rfl := Option.some.inj h
        exact .moves rfl (by rw [hfrom.1]; rfl) rfl hcaller
  | drain i now =>
      rw [batcherStep] at h
      split at h
      · cases h
      · rename_i hfrom
        obtain rfl := Option.some.inj h
        exact leave_outcome (not_not.1 hfrom) rfl rfl hcaller (flushTake_takes _ _)
  | callback t =>
      rw [batcherStep, BatcherRun.callback] at h
      split at h
      · rename_i serial batch hfrom
        obtain rfl := Option.some.inj h
        refine .passes hfrom ?_
        cases t <;> rfl
      · cases h

end Step

/-! ### The invariant -/

/-- The accepted commands, divided among the batches taken out and the current one, and the
custody of the batches taken out. -/
structure HandsOver (s : BatcherRun) : Prop where
  groups : ∃ groups current, s.accepted = groups.flatten ++ current ∧
    List.Forall₂ (fun batch commands => batch.Holds commands) s.taken groups ∧
      s.batcher.currentBatch.Holds current
  custody : Custody s.taken (fun t => (s.thread t).held) s.passed
  created : ThreadsCreated s

lemma CommandBatch.holds_nil {batch : CommandBatch} (h : batch.numCommands = 0) :
    batch.Holds [] where
  bytes := commands_eq_nil h
  totalLength := by rw [← batch.length_eq, commands_eq_nil h]; rfl
  numCommands := h

/-- A command that is accepted is stored whole. -/
lemma AddsCommand.holds {b b' : CommandBatcher} {command : BatchCommand}
    (hadd : AddsCommand b command.bytes b') {commands : List BatchCommand}
    (h : b.currentBatch.Holds commands) : b'.currentBatch.Holds (commands ++ [command]) := by
  have hwhole : u32 command.bytes.length = command.bytes.length := u32_of_lt command.length_lt
  have hbytes : b'.currentBatch.commands = b.currentBatch.commands ++ command.bytes := by
    rw [hadd.commands, hwhole, List.take_length]
  refine ⟨?_, ?_, ?_⟩
  · rw [hbytes, h.bytes]
    simp
  · rw [← b'.currentBatch.length_eq, hbytes, List.length_append, b.currentBatch.length_eq,
      h.totalLength]
    simp
  · rw [hadd.num, h.numCommands]
    simp

lemma held_update (thread : ThreadId → BatcherThread) (t : ThreadId) (pc : BatcherThread) :
    (fun t' => (update thread t pc t').held) = update (fun t' => (thread t').held) t pc.held := by
  funext t'
  rw [update_apply, update_apply]
  split <;> rfl

lemma held_update_of_none {thread : ThreadId → BatcherThread} {t : ThreadId} {pc : BatcherThread}
    (hfrom : (thread t).held = none) (hto : pc.held = none) :
    (fun t' => (update thread t pc t').held) = fun t' => (thread t').held := by
  rw [held_update, hto, update_eq_self_iff]
  exact hfrom.symm

lemma ThreadsCreated.update {s : BatcherRun} (h : ThreadsCreated s) {t : ThreadId}
    (hcreated : ∀ j, t = .processor j → s.thread t ≠ .outside) (pc : BatcherThread) (j : ℕ)
    (hj : s.created ≤ j) : update s.thread t pc (.processor j) = .outside := by
  rw [update_of_ne]
  · exact h j hj
  · rintro rfl
    exact hcreated j rfl (h j hj)

/-- **No step loses a command or a batch.** -/
theorem BatcherOutcome.handsOver {s s' : BatcherRun} (h : BatcherOutcome s s')
    (hs : HandsOver s) : HandsOver s' := by
  obtain ⟨groups, current, hacc, hgroups, hcurrent⟩ := hs.groups
  have hcustody := hs.custody
  cases h with
  | stays => exact hs
  | @moves batcher t pc hbatch hfrom hto hcreated =>
      refine ⟨⟨groups, current, hacc, hgroups, ?_⟩, ?_, hs.created.update hcreated pc⟩
      · show batcher.currentBatch.Holds current
        rw [hbatch]
        exact hcurrent
      · show Custody s.taken _ s.passed
        rw [held_update_of_none hfrom hto]
        exact hcustody
  | @creates i hfrom =>
      have hnew : s.thread (.processor s.created) = .outside := hs.created _ le_rfl
      refine ⟨⟨groups, current, hacc, hgroups, hcurrent⟩, ?_, ?_⟩
      · show Custody s.taken _ s.passed
        rw [held_update_of_none, held_update_of_none]
        · exact hcustody
        · rw [hnew]
          rfl
        · rfl
        · rw [update_of_ne (by rintro ⟨⟩), hfrom]
          rfl
        · rfl
      · intro j hj
        have hj' : s.created + 1 ≤ j := hj
        show update (update s.thread (.processor s.created) .looping) (.caller i) .outside
          (.processor j) = .outside
        rw [update_of_ne (by rintro ⟨⟩), update_of_ne]
        · exact hs.created j (by omega)
        · rintro ⟨⟩
          omega
  | accepts hadd =>
      refine ⟨⟨groups, current ++ [_], ?_, hgroups, hadd.holds hcurrent⟩, hcustody, hs.created⟩
      rw [hacc, List.append_assoc]
  | @takes batcher t hfrom hcreated hnum =>
      refine ⟨⟨groups ++ [current], [], ?_, ?_, CommandBatch.holds_nil hnum⟩, ?_,
        hs.created.update hcreated _⟩
      · rw [hacc]
        simp
      · exact List.rel_append hgroups (.cons hcurrent .nil)
      · show Custody (s.taken ++ [s.batcher.currentBatch]) _ s.passed
        rw [held_update]
        exact hcustody.take hfrom _
  | @passes t pc serial batch hfrom hto =>
      refine ⟨⟨groups, current, hacc, hgroups, hcurrent⟩, ?_, hs.created.update ?_ pc⟩
      · show Custody s.taken _ (s.passed ++ [(serial, batch)])
        rw [held_update, hto]
        exact hcustody.pass (by rw [hfrom]; rfl)
      · rw [hfrom]
        rintro j - ⟨⟩

lemma handsOver_start (batchDelayMs now : ℕ) : HandsOver (.start batchDelayMs now) where
  groups := ⟨[], [], rfl, .nil, CommandBatch.holds_nil rfl⟩
  custody := .start
  created := fun _ _ => rfl

lemma flatten_commands_eq {batches : List CommandBatch} {groups : List (List BatchCommand)}
    (h : List.Forall₂ (fun batch commands => batch.Holds commands) batches groups) :
    (batches.map CommandBatch.commands).flatten = (groups.flatten.map BatchCommand.bytes).flatten := by
  induction h with
  | nil => rfl
  | cons hhead _ ih =>
      rw [List.map_cons, List.flatten_cons, hhead.bytes, ih, List.flatten_cons, List.map_append,
        List.flatten_append]

/-- Read one after the other, the batches are the accepted commands. -/
lemma HandsOver.bytes_eq {s : BatcherRun} (hs : HandsOver s) :
    (s.taken.map CommandBatch.commands).flatten ++ s.batcher.currentBatch.commands =
      (s.accepted.map BatchCommand.bytes).flatten := by
  obtain ⟨groups, current, hacc, hgroups, hcurrent⟩ := hs.groups
  rw [flatten_commands_eq hgroups, hcurrent.bytes, hacc, List.map_append, List.flatten_append]

/-! ### Runs -/

/-- **Every accepted command is handed over, once and in order.**  In every state that the
threads of a batcher reach, in any interleaving: the batches taken out, in the order they were
taken, and then the current batch hold the bytes of the accepted commands in the order they
were accepted; each batch that was taken out has been passed to the callback once and nobody
has it, or it has not been passed and exactly one thread has it; and in the batches taken out
as in the current one `total_length` is the sum of the lengths of the commands in the batch,
at most `MAX_COMMAND_BUFFER`, and `num_commands` is their number. -/
theorem commands_handed_over (batchDelayMs now : ℕ) {as : List BatcherAction} {s : BatcherRun}
    (hrun : run batcherStep (.start batchDelayMs now) as = some s) :
    (s.taken.map CommandBatch.commands).flatten ++ s.batcher.currentBatch.commands =
        (s.accepted.map BatchCommand.bytes).flatten ∧
      (∀ serial batch, s.taken[serial]? = some batch →
        ((s.passed.map Prod.fst).count serial = 1 ∧ (serial, batch) ∈ s.passed ∧
            ∀ t batch', s.thread t ≠ .calling serial batch') ∨
          ((s.passed.map Prod.fst).count serial = 0 ∧ ∃! t, s.thread t = .calling serial batch)) ∧
      (∀ p ∈ s.passed, s.taken[p.1]? = some p.2) ∧
      ∃ groups current, s.accepted = groups.flatten ++ current ∧
        List.Forall₂ (fun batch commands => batch.Holds commands ∧
          batch.totalLength ≤ maxCommandBuffer) s.taken groups ∧
        s.batcher.currentBatch.Holds current ∧
          s.batcher.currentBatch.totalLength ≤ maxCommandBuffer := by
  have hs : HandsOver s := run_invariant
    (fun _ _ _ hs h => (batcherStep_outcome h).handsOver hs) (handsOver_start batchDelayMs now) hrun
  refine ⟨hs.bytes_eq, ?_, fun p hp => hs.custody.passed_taken p.1 p.2 hp, ?_⟩
  · intro serial batch hbatch
    have honce := hs.custody.once hbatch
    simp only [BatcherThread.held_eq_some, Ne] at honce
    exact honce
  · obtain ⟨groups, current, hacc, hgroups, hcurrent⟩ := hs.groups
    exact ⟨groups, current, hacc, hgroups.imp fun batch _ h => ⟨h, batch.total_le⟩, hcurrent,
      s.batcher.currentBatch.total_le⟩

/-- A flush takes a batch out while the batch processor runs, and another command is accepted
before the callback is called. -/
def flushWhileRunning : List BatcherAction :=
  [.start 0, .activate 0, .create 0 true, .addCommand 1 ⟨[1, 2], by decide⟩, .look 0, .tick 0 10,
    .flush 1 20, .addCommand 2 ⟨[3], by decide⟩, .callback (.caller 1)]

theorem commands_handed_over_once : ∃ s,
    run batcherStep (.start 50 0) flushWhileRunning = some s ∧
      s.taken.map CommandBatch.commands = [[1, 2]] ∧ s.passed.map Prod.fst = [0] ∧
        (s.taken.map CommandBatch.commands).flatten ++ s.batcher.currentBatch.commands =
          (s.accepted.map BatchCommand.bytes).flatten := by
  obtain ⟨s, hrun, htaken, hpassed⟩ : ∃ s,
      run batcherStep (.start 50 0) flushWhileRunning = some s ∧
        s.taken.map CommandBatch.commands = [[1, 2]] ∧ s.passed.map Prod.fst = [0] :=
    ⟨_, rfl, rfl, rfl⟩
  exact ⟨s, hrun, htaken, hpassed, (commands_handed_over 50 0 hrun).1⟩

end Oceanliner
