/-
# Applying the committed entries

`raft_apply_committed_entries` walks over the entries between `last_applied` and
`commit_index` and hands their commands to the state machine, one by one.  It guesses from
two lengths whether an entry holds one command or several; for entries that are made of whole
commands the guess is right, and the context of the machine is what the calls for the committed
commands, each of them once and in order, make of it (`committed_applied_once`).
-/
import Oceanliner.KvsCommand
import Oceanliner.RaftCore.Node
import Oceanliner.Lib.Transition

open Transition

namespace Oceanliner

/-- A node with its state machine: the context `ctx` of the machine, the calls of `apply` that
were ever made, each with its buffer and where the command starts in it, and the failures that
were reported, with the index of the entry. -/
structure Applying (σ : Type) where
  node : RaftNode
  ctx : σ
  calls : List (List UInt8 × ℕ)
  reports : List (ℕ × ℤ)

/-- The commands that were ever passed to the machine. -/
def Applying.passed {σ : Type} (s : Applying σ) : List (List UInt8) :=
  s.calls.map fun call => commandAt call.1 call.2

section Model

variable {σ : Type} (apply : σ → List UInt8 → ℕ → ℤ × σ)

/-- What the calls make of the context `ctx`. -/
def ctxAfter (ctx : σ) (calls : List (List UInt8 × ℕ)) : σ :=
  calls.foldl (fun ctx call => (apply ctx call.1 call.2).2) ctx

/-- One call of `state_machine->apply`; a result it returns is freed at once. -/
def callApply (s : Applying σ) (buf : List UInt8) (cmd : ℕ) : ℤ × Applying σ :=
  let (r, ctx) := apply s.ctx buf cmd
  (r, { s with ctx := ctx, calls := s.calls ++ [(buf, cmd)] })

/-- The loop of `apply_command_batch`, from `offset` on; `none` is the failed assertion on
the address of a command. -/
def applyCommandBatchFrom (batchData : List UInt8) (s : Applying σ) (offset : ℕ)
    (applyResult : ℤ) : Option (ℤ × Applying σ) :=
  if offset < batchData.length then
    let r := callApply apply s batchData offset
    match _h : kvsCommandLen batchData offset with
    | none => none
    | some cmdSize =>
        applyCommandBatchFrom batchData r.2 (offset + cmdSize)
          (if r.1 ≠ 0 then r.1 else applyResult)
  else some (applyResult, s)
termination_by batchData.length - offset
decreasing_by
  have := kvsCommandLen_pos ‹_›
  omega

/-- `apply_command_batch`. -/
def applyCommandBatch (s : Applying σ) (batchData : List UInt8) : Option (ℤ × Applying σ) :=
  if batchData.length = 0 then some (-1, s) else applyCommandBatchFrom apply batchData s 0 0

/-- The part of the loop body that applies the data of an entry. -/
def applyData (s : Applying σ) (data : List UInt8) : Option (ℤ × Applying σ) :=
  if data.length > sizeofKvsCommand then
    (kvsCommandLen data 0).bind fun firstCmdLen =>
      -- "This looks like a batch, apply as batch"
      if firstCmdLen < data.length then applyCommandBatch apply s data
      else some (callApply apply s data 0)
  else some (callApply apply s data 0)

/-- The store to `last_applied`. -/
def Applying.setLastApplied (s : Applying σ) (i : ℕ) : Applying σ :=
  { s with node := { s.node with lastApplied := i } }

/-- The body of the loop for the entry with the index `i`. -/
def applyEntry (s : Applying σ) (i : ℕ) (entry : RaftEntry) : Option (Applying σ) :=
  if entry.type ≠ .command then some (s.setLastApplied i)
  else
    (applyData apply s entry.data).map fun r =>
      let s' := if r.1 ≠ 0 then { r.2 with reports := r.2.reports ++ [(i, r.1)] } else r.2
      s'.setLastApplied i

/-- The loop of `raft_apply_committed_entries`, from the index `i` on.  The log and the commit
index do not change while the mutex is held; the index stays below the length of the log, so
it does not wrap around. -/
def applyEntriesFrom (log : RaftLog) (commitIndex : ℕ) (s : Applying σ) (i : ℕ) :
    Option (Applying σ) :=
  if i ≤ commitIndex then
    if i > log.count then some s
    else
      (log.entries[i - 1]?).bind fun entry =>
        (applyEntry apply s i entry).bind fun s' =>
          applyEntriesFrom log commitIndex s' (i + 1)
  else some s
termination_by log.count + 1 - i

/-- `raft_apply_committed_entries`, of a node that has a state machine. -/
def raftApplyCommittedEntries (s : Applying σ) : Option (ℤ × Applying σ) :=
  if s.node.lastApplied ≥ s.node.commitIndex then some (0, s)
  else
    (applyEntriesFrom apply s.node.log s.node.commitIndex s (s.node.lastApplied + 1)).map
      fun s' => (0, s')

end Model

/-! ### One entry -/

/-- The commands an entry holds. -/
inductive EntryHolds : RaftEntry → List KvsRecord → Prop where
  | noop {e : RaftEntry} (h : e.type = .noop) : EntryHolds e []
  | command {e : RaftEntry} {r : KvsRecord} {rs : List KvsRecord} (h : e.type = .command)
      (hdata : e.data = recordBytes (r :: rs)) : EntryHolds e (r :: rs)

/-- The context is what the calls have made of `ctx`. -/
def Applying.Ran {σ : Type} (apply : σ → List UInt8 → ℕ → ℤ × σ) (ctx : σ) (s : Applying σ) :
    Prop :=
  s.ctx = ctxAfter apply ctx s.calls

/-- The machine has been called with the commands `rs`, and nothing else has changed but the
reports and `last_applied`. -/
structure Applying.Passes {σ : Type} (apply : σ → List UInt8 → ℕ → ℤ × σ) (s : Applying σ)
    (i : ℕ) (rs : List KvsRecord) (s' : Applying σ) : Prop where
  node_eq : s'.node = { s.node with lastApplied := i }
  passed_eq : s'.passed = s.passed ++ rs.map KvsRecord.bytes
  ran : ∀ {ctx}, s.Ran apply ctx → s'.Ran apply ctx

section Proofs

variable {σ : Type} (apply : σ → List UInt8 → ℕ → ℤ × σ)

lemma callApply_passed (s : Applying σ) (buf : List UInt8) (cmd : ℕ) :
    (callApply apply s buf cmd).2.passed = s.passed ++ [commandAt buf cmd] := by
  show (s.calls ++ [(buf, cmd)]).map _ = _
  rw [List.map_append]
  rfl

lemma callApply_ran {s : Applying σ} {ctx : σ} (hs : s.Ran apply ctx) (buf : List UInt8)
    (cmd : ℕ) : (callApply apply s buf cmd).2.Ran apply ctx := by
  show (apply s.ctx buf cmd).2 = ctxAfter apply ctx (s.calls ++ [(buf, cmd)])
  rw [show s.ctx = ctxAfter apply ctx s.calls from hs, ctxAfter, ctxAfter, List.foldl_append]
  rfl

lemma callApply_passes (s : Applying σ) (pre suf : List UInt8) (r : KvsRecord) :
    s.Passes apply s.node.lastApplied [r]
      (callApply apply s (pre ++ (r.bytes ++ suf)) pre.length).2 := by
  refine ⟨rfl, ?_, fun hs => callApply_ran apply hs _ _⟩
  rw [callApply_passed, r.commandAt_eq]
  rfl

/-- The walk of `apply_command_batch` over what is left of the records: every step lands on
the next record, because a record is as long as `kvs_command_len` says. -/
lemma applyCommandBatchFrom_spec (before rs : List KvsRecord) (s : Applying σ) (a : ℤ) :
    ∃ r s', applyCommandBatchFrom apply (recordBytes before ++ recordBytes rs) s
        (recordBytes before).length a = some (r, s') ∧ s.Passes apply s.node.lastApplied rs s' := by
  induction rs generalizing before s a with
  | nil =>
      refine ⟨a, s, ?_, rfl, by simp, id⟩
      rw [applyCommandBatchFrom, if_neg (by simp)]
  | cons r rs ih =>
      have hpos := r.thirtyTwo_le_length
      have hlt : (recordBytes before).length <
          (recordBytes before ++ recordBytes (r :: rs)).length := by
        simp only [recordBytes_cons, List.length_append]
        omega
      have hlen : kvsCommandLen (recordBytes before ++ recordBytes (r :: rs))
          (recordBytes before).length = some r.bytes.length :=
        r.kvsCommandLen_eq _ _ (length_recordBytes_mod_eight before)
      have hcall : s.Passes apply s.node.lastApplied [r] (callApply apply s
          (recordBytes before ++ recordBytes (r :: rs)) (recordBytes before).length).2 :=
        callApply_passes apply s _ _ r
      rw [applyCommandBatchFrom, if_pos hlt]
      generalize callApply apply s (recordBytes before ++ recordBytes (r :: rs))
        (recordBytes before).length = c at hcall
      obtain ⟨r', s', hrun, hpasses⟩ := ih (before ++ [r]) c.2 (if c.1 ≠ 0 then c.1 else a)
      refine ⟨r', s', ?_, ?_, ?_, fun hs => hpasses.ran (hcall.ran hs)⟩
      · show (match _h : kvsCommandLen _ _ with | none => none | some size => _) = _
        split
        · rename_i hnone
          rw [hlen] at hnone
          cases hnone
        · rename_i size hsome
          obtain rfl : r.bytes.length = size := Option.some.inj (hlen.symm.trans hsome)
          simpa [recordBytes_append, recordBytes_cons] using hrun
      · rw [hpasses.node_eq, hcall.node_eq]
      · rw [hpasses.passed_eq, hcall.passed_eq, List.append_assoc, ← List.map_append]
        rfl

lemma applyCommandBatch_spec (r : KvsRecord) (rs : List KvsRecord) (s : Applying σ) :
    ∃ a s', applyCommandBatch apply s (recordBytes (r :: rs)) = some (a, s') ∧
      s.Passes apply s.node.lastApplied (r :: rs) s' := by
  have hpos := r.thirtyTwo_le_length
  have hne : (recordBytes (r :: rs)).length ≠ 0 := by
    rw [recordBytes_cons, List.length_append]
    omega
  rw [applyCommandBatch, if_neg hne]
  exact applyCommandBatchFrom_spec apply [] (r :: rs) s 0

/-- The guess from the lengths is right: one record goes through the single path, several go
through the batch. -/
lemma applyData_spec (r : KvsRecord) (rs : List KvsRecord) (s : Applying σ) :
    ∃ a s', applyData apply s (recordBytes (r :: rs)) = some (a, s') ∧
      s.Passes apply s.node.lastApplied (r :: rs) s' := by
  have hpos := r.thirtyTwo_le_length
  have hlen : (recordBytes (r :: rs)).length = r.bytes.length + (recordBytes rs).length := by
    rw [recordBytes_cons, List.length_append]
  have hfirst : kvsCommandLen (recordBytes (r :: rs)) 0 = some r.bytes.length :=
    r.kvsCommandLen_eq [] (recordBytes rs) rfl
  rw [applyData, if_pos (by rw [sizeofKvsCommand]; omega), hfirst, Option.bind_some]
  cases rs with
  | nil =>
      rw [if_neg (by rw [hlen]; simp)]
      have hcall := callApply_passes apply s [] [] r
      rw [recordBytes_cons, recordBytes_nil]
      exact ⟨_, _, rfl, hcall⟩
  | cons r' rs =>
      have hpos' := r'.thirtyTwo_le_length
      rw [if_pos (by rw [hlen, recordBytes_cons, List.length_append]; omega)]
      exact applyCommandBatch_spec apply r (r' :: rs) s

lemma applyEntry_spec {e : RaftEntry} {rs : List KvsRecord} (h : EntryHolds e rs)
    (s : Applying σ) (i : ℕ) : ∃ s', applyEntry apply s i e = some s' ∧ s.Passes apply i rs s' := by
  cases h with
  | noop htype =>
      refine ⟨s.setLastApplied i, ?_, rfl, ?_, id⟩
      · rw [applyEntry, htype, if_pos (by decide)]
      · simp [Applying.setLastApplied, Applying.passed]
  | command htype hdata =>
      rename_i r rs
      obtain ⟨a, s', hrun, hpasses⟩ := applyData_spec apply r rs s
      rw [applyEntry, htype, if_neg (by simp), hdata, hrun, Option.map_some]
      -- a failure is reported, and changes nothing else
      by_cases ha : a = 0
      · refine ⟨s'.setLastApplied i, by simp [ha], ?_, hpasses.passed_eq, hpasses.ran⟩
        rw [Applying.setLastApplied, hpasses.node_eq]
      · refine ⟨({ s' with reports := s'.reports ++ [(i, a)] }).setLastApplied i, by simp [ha], ?_,
          hpasses.passed_eq, hpasses.ran⟩
        rw [Applying.setLastApplied, hpasses.node_eq]

/-! ### The loop -/

/-- The commands of the entries `1`, …, `n`. -/
def commandsUpTo (written : List (List KvsRecord)) (n : ℕ) : List (List UInt8) :=
  (written.take n).flatten.map KvsRecord.bytes

lemma commandsUpTo_succ {written : List (List KvsRecord)} {n : ℕ} {rs : List KvsRecord}
    (h : written[n]? = some rs) :
    commandsUpTo written (n + 1) = commandsUpTo written n ++ rs.map KvsRecord.bytes := by
  rw [commandsUpTo, commandsUpTo, List.take_add_one, h]
  simp

/-- From an index `i + 1` on, with everything up to `i` applied, the loop ends with everything
applied up to the smaller one of the commit index and the length of the log. -/
lemma applyEntriesFrom_spec {log : RaftLog} {written : List (List KvsRecord)}
    (hlog : List.Forall₂ EntryHolds log.entries written) (commitIndex : ℕ) (s : Applying σ)
    (i : ℕ) (hi : s.node.lastApplied = i) (hpassed : s.passed = commandsUpTo written i) :
    ∃ s', applyEntriesFrom apply log commitIndex s (i + 1) = some s' ∧
      s'.node = { s.node with lastApplied := max i (min commitIndex log.count) } ∧
      s'.passed = commandsUpTo written (max i (min commitIndex log.count)) ∧
      ∀ {ctx}, s.Ran apply ctx → s'.Ran apply ctx := by
  -- induction on the number of entries that are left
  obtain ⟨k, hk⟩ : ∃ k, log.count - i = k := ⟨_, rfl⟩
  induction k generalizing s i with
  | zero =>
      have hmax : max i (min commitIndex log.count) = i := by omega
      refine ⟨s, ?_, ?_, ?_, id⟩
      · rw [applyEntriesFrom]
        split
        · rw [if_pos (by omega)]
        · rfl
      · rw [hmax, ← hi]
      · rw [hmax, hpassed]
  | succ k ih =>
      rw [applyEntriesFrom]
      by_cases hcommit : i + 1 ≤ commitIndex
      · have hlt : i < log.entries.length := by
          rw [RaftLog.count] at hk
          omega
        have hlt' : i < written.length := by rwa [← hlog.length_eq]
        have hholds : EntryHolds log.entries[i] written[i] := hlog.get hlt hlt'
        obtain ⟨s₁, hrun, hpasses⟩ := applyEntry_spec apply hholds s (i + 1)
        have hpassed₁ : s₁.passed = commandsUpTo written (i + 1) := by
          rw [commandsUpTo_succ (List.getElem?_eq_getElem hlt'), hpasses.passed_eq, hpassed]
        have happlied₁ : s₁.node.lastApplied = i + 1 := by rw [hpasses.node_eq]
        obtain ⟨s', hrest, hnode, hpassed', hran⟩ := ih s₁ (i + 1) happlied₁ hpassed₁ (by omega)
        have hmax : max (i + 1) (min commitIndex log.count) =
            max i (min commitIndex log.count) := by omega
        rw [hmax] at hnode hpassed'
        refine ⟨s', ?_, ?_, hpassed', fun hs => hran (hpasses.ran hs)⟩
        · rw [if_pos hcommit, if_neg (by omega), Nat.add_sub_cancel,
            List.getElem?_eq_getElem hlt, Option.bind_some, hrun, Option.bind_some]
          exact hrest
        · rw [hnode, hpasses.node_eq]
      · have hmax : max i (min commitIndex log.count) = i := by omega
        refine ⟨s, ?_, ?_, ?_, id⟩
        · rw [if_neg hcommit]
        · rw [hmax, ← hi]
        · rw [hmax, hpassed]

/-! ### Runs -/

/-- A node with its state machine, and the commands each entry of its log was made from. -/
structure ApplyRun (σ : Type) where
  machine : Applying σ
  written : List (List KvsRecord)

inductive ApplyAction where
  | appendNoop (term : ℕ)
  | appendCommands (term : ℕ) (first : KvsRecord) (rest : List KvsRecord)
  | commit (commitIndex : ℕ)
  | apply

/-- An append of one entry; when its allocation fails the log stays as it is. -/
def ApplyRun.append (s : ApplyRun σ) (entry : RaftEntry) (rs : List KvsRecord) : ApplyRun σ :=
  match raftAppendEntry s.machine.node entry with
  | some node' => ⟨{ s.machine with node := node' }, s.written ++ [rs]⟩
  | none => s

/-- One step: an append, an increase of `commit_index`, or a call. -/
def applyStep (apply : σ → List UInt8 → ℕ → ℤ × σ) (s : ApplyRun σ) :
    ApplyAction → Option (ApplyRun σ)
  | .appendNoop term => some (s.append (raftCreateEntry term .noop [] 0) [])
  | .appendCommands term first rest =>
      let data := recordBytes (first :: rest)
      some (s.append (raftCreateEntry term .command data data.length) (first :: rest))
  | .commit commitIndex =>
      let node := s.machine.node
      some
        { s with machine :=
            { s.machine with
              node := { node with commitIndex := max node.commitIndex commitIndex } } }
  | .apply =>
      (raftApplyCommittedEntries apply s.machine).map fun r => { s with machine := r.2 }

/-- A node after `raft_init`, with a state machine in the context `ctx`. -/
def ApplyRun.init (nodeId : ℕ) (clk : Clock) (ctx : σ) : ApplyRun σ :=
  ⟨⟨raftInit nodeId clk, ctx, [], []⟩, []⟩

/-- The machine, which has started with the context `ctx`, has run exactly the commands of the
entries up to `last_applied`, each once and in order. -/
structure ApplyRun.ExactlyOnce (ctx : σ) (s : ApplyRun σ) : Prop where
  entries : List.Forall₂ EntryHolds s.machine.node.log.entries s.written
  le_count : s.machine.node.lastApplied ≤ s.machine.node.log.count
  le_commit : s.machine.node.lastApplied ≤ s.machine.node.commitIndex
  passed : s.machine.passed = commandsUpTo s.written s.machine.node.lastApplied
  ran : s.machine.ctx = ctxAfter apply ctx s.machine.calls

lemma exactlyOnce_init (nodeId : ℕ) (clk : Clock) (ctx : σ) :
    (ApplyRun.init nodeId clk ctx).ExactlyOnce apply ctx where
  entries := .nil
  le_count := le_rfl
  le_commit := le_rfl
  passed := rfl
  ran := rfl

variable {apply} in
lemma ApplyRun.ExactlyOnce.append {ctx : σ} {s : ApplyRun σ} (h : s.ExactlyOnce apply ctx)
    {entry : RaftEntry} {rs : List KvsRecord}
    (hentry : ∀ index, EntryHolds { entry with index := index } rs) :
    (s.append entry rs).ExactlyOnce apply ctx ∧
      (s.append entry rs).machine.node.lastApplied = s.machine.node.lastApplied := by
  rw [ApplyRun.append]
  cases happ : raftAppendEntry s.machine.node entry with
  | none => exact ⟨h, rfl⟩
  | some node' =>
      obtain ⟨log, rfl, hlog⟩ := raftAppendEntry_spec happ
      have hlen : s.written.length = s.machine.node.log.count := h.entries.length_eq.symm
      have hle := h.le_count
      refine ⟨⟨?_, ?_, h.le_commit, ?_, h.ran⟩, rfl⟩
      · show List.Forall₂ EntryHolds log.entries _
        rw [hlog]
        exact List.rel_append h.entries (.cons (hentry _) .nil)
      · show s.machine.node.lastApplied ≤ log.count
        rw [RaftLog.count, hlog, List.length_append]
        rw [RaftLog.count] at hle
        omega
      · show s.machine.passed = commandsUpTo (s.written ++ [rs]) s.machine.node.lastApplied
        rw [h.passed, commandsUpTo, commandsUpTo, List.take_append_of_le_length (by omega)]

/-- What one step does to `last_applied`. -/
structure ApplyStepSpec (s : ApplyRun σ) (a : ApplyAction) (s' : ApplyRun σ) : Prop where
  mono : s.machine.node.lastApplied ≤ s'.machine.node.lastApplied
  call : a = .apply → s'.machine.node.lastApplied =
    max s.machine.node.lastApplied (min s.machine.node.commitIndex s.machine.node.log.count)

/-- **Every step is defined and keeps the invariant.** -/
lemma applyStep_exactlyOnce {ctx : σ} {s : ApplyRun σ} (h : s.ExactlyOnce apply ctx)
    (a : ApplyAction) :
    ∃ s', applyStep apply s a = some s' ∧ s'.ExactlyOnce apply ctx ∧ ApplyStepSpec s a s' := by
  cases a with
  | appendNoop term =>
      have hholds : ∀ index, EntryHolds
          { raftCreateEntry term .noop [] 0 with index := index } [] := fun _ => .noop rfl
      obtain ⟨hinv, heq⟩ := h.append hholds
      exact ⟨_, rfl, hinv, le_of_eq heq.symm, by rintro ⟨⟩⟩
  | appendCommands term first rest =>
      obtain ⟨data, hdata⟩ : ∃ data, recordBytes (first :: rest) = data := ⟨_, rfl⟩
      have hholds : ∀ index, EntryHolds
          { raftCreateEntry term .command data data.length with index := index }
          (first :: rest) := by
        intro index
        refine .command rfl ?_
        rw [hdata]
        exact List.take_length
      obtain ⟨hinv, heq⟩ := h.append hholds
      rw [← hdata] at hinv heq
      exact ⟨_, rfl, hinv, le_of_eq heq.symm, by rintro ⟨⟩⟩
  | commit commitIndex =>
      refine ⟨_, rfl, ⟨h.entries, h.le_count, ?_, h.passed, h.ran⟩, le_rfl, by rintro ⟨⟩⟩
      exact h.le_commit.trans (le_max_left _ _)
  | apply =>
      have hle := h.le_count
      have hle' := h.le_commit
      simp only [applyStep, raftApplyCommittedEntries]
      split
      · rename_i hdone
        refine ⟨s, rfl, h, le_rfl, fun _ => ?_⟩
        omega
      · obtain ⟨m, hrun, hnode, hpassed, hran⟩ := applyEntriesFrom_spec apply h.entries
          s.machine.node.commitIndex s.machine s.machine.node.lastApplied rfl h.passed
        rw [hrun]
        refine ⟨{ s with machine := m }, rfl, ⟨?_, ?_, ?_, ?_, hran h.ran⟩, ?_, fun _ => ?_⟩
        · rw [hnode]
          exact h.entries
        · rw [hnode]
          exact max_le hle (min_le_right _ _)
        · rw [hnode]
          exact max_le hle' (min_le_left _ _)
        · rw [hnode]
          exact hpassed
        · rw [hnode]
          exact le_max_left _ _
        · rw [hnode]

/-- **Committed commands are applied exactly once, in the order of the log.**  Every run is
defined, whatever the state machine answers; in the state it leads to, `last_applied` is
within the log and the commit index, the calls of the machine were for exactly the commands of
the entries up to `last_applied` and have made its context what it is, and the next step does not
lower `last_applied`, and raises it to the smaller one of commit index and length when it is a
call. -/
theorem committed_applied_once (apply : σ → List UInt8 → ℕ → ℤ × σ) (nodeId : ℕ) (clk : Clock)
    (ctx : σ) (as : List ApplyAction) :
    ∃ s, run (applyStep apply) (ApplyRun.init nodeId clk ctx) as = some s ∧
      s.ExactlyOnce apply ctx ∧
        ∀ a, ∃ s', applyStep apply s a = some s' ∧ ApplyStepSpec s a s' := by
  have hstep : ∀ (s : ApplyRun σ) a, s.ExactlyOnce apply ctx →
      ∃ s', applyStep apply s a = some s' ∧ s'.ExactlyOnce apply ctx := by
    intro s a h
    obtain ⟨s', hs', hinv', -⟩ := applyStep_exactlyOnce apply h a
    exact ⟨s', hs', hinv'⟩
  obtain ⟨s, hrun, hinv⟩ := run_total hstep (exactlyOnce_init apply nodeId clk ctx) as
  refine ⟨s, hrun, hinv, fun a => ?_⟩
  obtain ⟨s', hs', -, hspec⟩ := applyStep_exactlyOnce apply hinv a
  exact ⟨s', hs', hspec⟩

end Proofs

end Oceanliner
