/-
Replicas under a stable leader.

While one node is the leader of one term, the batches that its `thread_1` enqueues run through
a pipeline to each other node: `_1_to_3`, `thread_3`, the link, `thread_2` and the log file.
At every moment the pipeline holds, from its far end to its near end, exactly the batches
enqueued, so every log file is a prefix of them.  The same holds from the log file on to the
store, command by command.
-/
import Oceanliner.Main.Replies

open Network (Moves conveyor)
open Transition

namespace Oceanliner

variable {n : ℕ} {DB : Type}

/-- Node `leader` is the only leader, no term is above its own, and the values of
`last_applied_term` and `last_applied_index` are the same everywhere. -/
structure StableLeader (leader : Fin n) (term lastTerm lastIndex : ℕ) (c : Cluster n DB) :
    Prop where
  leads : (c.node leader).raft.state = .leader
  only : ∀ j, (c.node j).raft.state = .leader → j = leader
  term_eq : (c.node leader).raft.currentTerm = term
  term_le : ∀ j, (c.node j).raft.currentTerm ≤ term
  lastApplied : ∀ j, (c.node j).raft.lastAppliedTerm = lastTerm ∧
    (c.node j).raft.lastAppliedIndex = lastIndex

instance (leader : Fin n) (term lastTerm lastIndex : ℕ) (c : Cluster n DB) :
    Decidable (StableLeader leader term lastTerm lastIndex c) :=
  decidable_of_iff
    ((c.node leader).raft.state = .leader ∧
      (∀ j, (c.node j).raft.state = .leader → j = leader) ∧
      (c.node leader).raft.currentTerm = term ∧ (∀ j, (c.node j).raft.currentTerm ≤ term) ∧
      ∀ j, (c.node j).raft.lastAppliedTerm = lastTerm ∧
        (c.node j).raft.lastAppliedIndex = lastIndex)
    ⟨fun h => ⟨h.1, h.2.1, h.2.2.1, h.2.2.2.1, h.2.2.2.2⟩,
      fun h => ⟨h.leads, h.only, h.term_eq, h.term_le, h.lastApplied⟩⟩

/-- The commands of a batch. -/
def CmdBuffer.commandBytes (b : CmdBuffer n) : List (List UInt8) :=
  b.commands.map KvsRecord.bytes

/-! ### The stages of the pipeline -/

/-- The batch that `thread_2` has read and, if it is going to, not yet written to the log
file. -/
def Thread2.toLog : Thread2 n → List (CmdBuffer n)
  | .handling m => m.entries
  | .replying _ _ (some b) => [b]
  | .logging b => [b]
  | _ => []

/-- The batch that `thread_3` has not yet written to the log file. -/
def Thread3.toLog : Thread3 n → List (CmdBuffer n)
  | .idle => []
  | .building w _ => [w]
  | .sending w _ _ _ _ => [w]
  | .waiting w _ _ => [w]
  | .logging w => [w]
  | .enqueueing _ => []

/-- The commands of its batch that `thread_5` has not applied: those that start at the offset
it has reached. -/
def Thread5.ToApply : Thread5 n → List (List UInt8) → Prop
  | .idle, todo => todo = []
  | .applying b processed, todo => ∃ done rest, b.commands = done ++ rest ∧
      processed = (recordBytes done).length ∧ todo = rest.map KvsRecord.bytes
  | .answering b processed length, todo => ∃ done rest, b.commands = done ++ rest ∧
      processed + length = (recordBytes done).length ∧ todo = rest.map KvsRecord.bytes

/-- The batches that a node has read from a link and, if it is going to, written to its log
file. -/
def received (s : Server n DB) : List (CmdBuffer n) := s.logFile ++ s.thread2.toLog

/-- The batches from node `i` to the log file of node `j`, the oldest first. -/
def pipeline (c : Cluster n DB) (i j : Fin n) : List (CmdBuffer n) :=
  conveyor (fun _ _ => []) (fun s _ => received s) unsentBatches Message.entries (fun _ => []) c i j

/-! ### The invariant -/

/-- A batch on a link is the leader's, under its term. -/
def FromLeader (leader : Fin n) (term lastTerm lastIndex : ℕ) (i : Fin n) (m : Message n) :
    Prop :=
  ∀ prevLogTerm prevLogIndex leaderCommit entries,
    m.body = .appendEntries prevLogTerm prevLogIndex leaderCommit entries →
      i = leader ∧ m.term = term ∧ prevLogTerm = lastTerm ∧ prevLogIndex = lastIndex

/-- The batch of `thread_3` is of the given term, and so is what it sends. -/
def Thread3.InTerm (term lastTerm lastIndex : ℕ) : Thread3 n → Prop
  | .idle => True
  | .building w _ => w.term = term
  | .sending w _ prevLogTerm prevLogIndex _ =>
      w.term = term ∧ prevLogTerm = lastTerm ∧ prevLogIndex = lastIndex
  | .waiting w _ _ => w.term = term
  | .logging w => w.term = term
  | .enqueueing w => w.term = term

/-- The leader has all batches it has enqueued, in its log file or before it, and all commands
it has admitted, in a batch. -/
structure Leading (term lastTerm lastIndex : ℕ) (s : Server n DB) : Prop where
  toLog : s.thread2.toLog = []
  written : s.thread2.written = []
  buffers : ∀ w r, s.thread1.buffers = some (w, r) → w.term = term
  queue13 : ∀ p ∈ s.queue13, p.1.term = term
  thread3 : s.thread3.InTerm term lastTerm lastIndex
  logged : s.logFile ++ (s.thread3.toLog ++ s.queue13.map Prod.fst) = s.enqueued
  admitted : s.enqueued.flatMap CmdBuffer.commandBytes ++
    (s.thread1.buffers.toList.map Prod.fst).flatMap CmdBuffer.commandBytes = s.admitted

/-- Another node creates no batches, and accepts those it reads. -/
structure Following (lastTerm lastIndex : ℕ) (s : Server n DB) : Prop where
  thread1 : s.thread1 = .idle
  queue13 : s.queue13 = []
  thread3 : s.thread3 = .idle
  handling : ∀ m, s.thread2 = .handling m →
    ∀ prevLogTerm prevLogIndex leaderCommit entries,
      m.body = .appendEntries prevLogTerm prevLogIndex leaderCommit entries →
        prevLogTerm = lastTerm ∧ prevLogIndex = lastIndex

/-- The commands that a node has applied, and those on their way to its store, are those in
its log file. -/
def AppliesLog (s : Server n DB) : Prop :=
  ∃ todo, s.thread5.ToApply todo ∧
    s.applied.map Prod.snd ++ (todo ++ (s.queue35 ++ (s.thread2.written ++
      s.thread3.written)).flatMap CmdBuffer.commandBytes) =
        s.logFile.flatMap CmdBuffer.commandBytes

/-! ### Applying commands -/

section Commands

variable {R : RocksDb DB} {i : Fin n} {s s' : Server n DB}

lemma thread5Command_length {b : CmdBuffer n} {diskMap diskMap' : DB} {cmd length : ℕ}
    (h : thread5Command R diskMap b cmd = some (diskMap', length)) :
    kvsCommandLen b.data cmd = some length := by
  rw [thread5Command] at h
  split at h
  · cases h
  · obtain ⟨len, hlen, h⟩ := Option.bind_eq_some_iff.1 h
    obtain ⟨key, -, h⟩ := Option.bind_eq_some_iff.1 h
    split at h
    · obtain ⟨-, rfl⟩ := Prod.mk.inj (Option.some.inj h)
      exact hlen
    · obtain ⟨value, -, h⟩ := Option.map_eq_some_iff.1 h
      obtain ⟨-, rfl⟩ := Prod.mk.inj h
      exact hlen
    · cases h

/-- As long as the commands before do not fill a batch, there is a next one. -/
lemma exists_next {b : CmdBuffer n} {done rest : List KvsRecord}
    (hcommands : b.commands = done ++ rest)
    (hlt : (recordBytes done).length < b.cmdsLength) : ∃ r rest', rest = r :: rest' := by
  cases rest with
  | nil =>
      rw [CmdBuffer.cmdsLength, CmdBuffer.data, hcommands, List.append_nil] at hlt
      exact absurd hlt (lt_irrefl _)
  | cons r rest' => exact ⟨r, rest', rfl⟩

/-- Where a batch ends there are no commands to come. -/
lemma rest_eq_nil {b : CmdBuffer n} {done rest : List KvsRecord}
    (hcommands : b.commands = done ++ rest)
    (hend : b.cmdsLength ≤ (recordBytes done).length) : rest = [] := by
  cases rest with
  | nil => rfl
  | cons r rest' =>
      have hr := r.thirtyTwo_le_length
      rw [CmdBuffer.cmdsLength, CmdBuffer.data, hcommands, recordBytes_append, List.length_append,
        recordBytes_cons, List.length_append] at hend
      omega

/-- `thread_5` finds the next command of a batch where the earlier ones end. -/
lemma applies_next {b : CmdBuffer n} {diskMap diskMap' : DB} {length : ℕ}
    {done rest : List KvsRecord} (hcommands : b.commands = done ++ rest)
    (hlt : (recordBytes done).length < b.cmdsLength)
    (h : thread5Command R diskMap b (recordBytes done).length = some (diskMap', length)) :
    ∃ r rest', rest = r :: rest' ∧ commandAt b.data (recordBytes done).length = r.bytes ∧
      length = r.bytes.length := by
  obtain ⟨r, rest', rfl⟩ := exists_next hcommands hlt
  have hdata : b.data = recordBytes done ++ (r.bytes ++ recordBytes rest') := by
    rw [CmdBuffer.data, hcommands, recordBytes_append, recordBytes_cons]
  have hlen := thread5Command_length h
  rw [hdata, r.kvsCommandLen_eq _ _ (length_recordBytes_mod_eight done)] at hlen
  refine ⟨r, rest', rfl, ?_, (Option.some.inj hlen).symm⟩
  rw [hdata, r.commandAt_eq]

lemma Thread5Outcome.appliesLog (h : Thread5Outcome R s s') (hs : AppliesLog s) :
    AppliesLog s' := by
  obtain ⟨todo, htodo, heq⟩ := hs
  cases h with
  | @takes b rest hidle hqueue =>
      rw [hidle] at htodo
      obtain rfl := htodo
      refine ⟨b.commandBytes, ⟨[], b.commands, rfl, rfl, rfl⟩, ?_⟩
      rw [← heq, hqueue, List.nil_append, List.cons_append, List.flatMap_cons]
  | @applies b processed length diskMap hfrom hlt hcommand =>
      rw [hfrom] at htodo
      obtain ⟨done, rest, hcommands, rfl, rfl⟩ := htodo
      obtain ⟨r, rest', rfl, hnext, rfl⟩ := applies_next hcommands hlt hcommand
      refine ⟨rest'.map KvsRecord.bytes, ⟨done ++ [r], rest', ?_, ?_, rfl⟩, ?_⟩
      · rw [hcommands, List.append_assoc]
        rfl
      · exact (length_recordBytes_concat done r).symm
      · rw [← heq, List.map_append, List.append_assoc, List.map_cons]
        simp only [List.map_cons, List.map_nil, hnext]
        rfl
  | @finishes b processed hfrom hend =>
      rw [hfrom] at htodo
      obtain ⟨done, rest, hcommands, hprocessed, rfl⟩ := htodo
      obtain rfl := rest_eq_nil hcommands (hend.symm.trans hprocessed).le
      exact ⟨[], rfl, heq⟩
  | answers hfrom =>
      rw [hfrom] at htodo
      exact ⟨todo, htodo, heq⟩
  | keepsSilent hfrom =>
      rw [hfrom] at htodo
      exact ⟨todo, htodo, heq⟩

end Commands

/-! ### What the steps keep -/

section Steps

variable {leader : Fin n} {term lastTerm lastIndex : ℕ} {i : Fin n} {s s' : Server n DB}

lemma fromLeader_of_no_entries {m : Message n} (h : m.entries = []) :
    FromLeader leader term lastTerm lastIndex i m := by
  intro prevLogTerm prevLogIndex leaderCommit entries hbody
  rw [Message.entries, hbody] at h
  cases h

/-- Other messages carry no batch. -/
lemma FromLeader.entries_eq_nil {m : Message n}
    (h : FromLeader leader term lastTerm lastIndex i m) (hnot : i ≠ leader ∨ m.term ≠ term) :
    m.entries = [] := by
  rw [Message.entries]
  split
  · rename_i hbody
    obtain ⟨hi, hterm, -⟩ := h _ _ _ _ hbody
    rcases hnot with hne | hne
    · exact absurd hi hne
    · exact absurd hterm hne
  · rfl

namespace Following

lemma no_thread1 (hs : Following lastTerm lastIndex s) (hstate : s.raft.state ≠ .leader) :
    ¬ Thread1Outcome i s s' := by
  have hidle := hs.thread1
  intro h
  cases h with
  | seesLeader _ hleader => exact hstate hleader
  | opens hseen => rw [hidle] at hseen; cases hseen
  | goesOn hfrom => rw [hidle] at hfrom; cases hfrom
  | admitsRead hfrom => rw [hidle] at hfrom; cases hfrom
  | admitsWrite hfrom => rw [hidle] at hfrom; cases hfrom
  | abandons hfrom => rw [hidle] at hfrom; cases hfrom
  | enqueues hfrom => rw [hidle] at hfrom; cases hfrom

lemma no_thread3 (hs : Following lastTerm lastIndex s) {out : Outgoing n} :
    ¬ Thread3Outcome i s s' out := by
  intro h
  obtain ⟨w, r, rest, hqueue, -⟩ := h.of_idle hs.thread3
  rw [hs.queue13] at hqueue
  cases hqueue

lemma of_thread2 {popped out : Outgoing n} (hs : Following lastTerm lastIndex s)
    (h : Thread2Outcome i s popped s' out)
    (hpopped : ∀ j m, popped = some (j, m) → FromLeader leader term lastTerm lastIndex j m) :
    Following lastTerm lastIndex s' := by
  cases h with
  | discards => exact hs
  | @reads j m raft =>
      refine { hs with handling := ?_ }
      rintro m' ⟨⟩ prevLogTerm prevLogIndex leaderCommit entries hbody
      exact (hpopped j m rfl _ _ _ _ hbody).2.2
  | countsVote _ _ hto =>
      refine { hs with handling := ?_ }
      rintro m hm
      rcases hto with rfl | rfl
      · cases hm
      · cases hm
  | _ => exact { hs with handling := by rintro m ⟨⟩ }

/-- What a node reads from the leader it accepts and writes to its log file, in order. -/
lemma received_of_thread2 {popped out : Outgoing n} (hs : Following lastTerm lastIndex s)
    (h : Thread2Outcome i s popped s' out) (hterm : s.raft.currentTerm ≤ term)
    (hlast : s.raft.lastAppliedTerm = lastTerm ∧ s.raft.lastAppliedIndex = lastIndex)
    (hpopped : ∀ j m, popped = some (j, m) → FromLeader leader term lastTerm lastIndex j m) :
    received s' = received s ++ (onLink popped leader).flatMap Message.entries := by
  have hentries : ∀ j m, popped = some (j, m) → j ≠ leader ∨ m.term ≠ term → m.entries = [] :=
    fun j m hm hnot => (hpopped j m hm).entries_eq_nil hnot
  have hhandling := hs.handling
  cases h with
  | @discards j m hlt =>
      -- an outdated message is not the leader's, so it carries no batch
      have hnone : m.entries = [] := hentries j m rfl (.inr (by omega))
      rw [onLink_some]
      split
      · simp [hnone]
      · simp
  | @reads j m raft hidle hterm' =>
      rw [onLink_some]
      split
      · simp [received, hidle, Thread2.toLog]
      · rename_i hj
        simp [received, hidle, Thread2.toLog, hentries j m rfl (.inl (Ne.symm hj))]
  | accepts hfrom hbody => simp [received, hfrom, Thread2.toLog, Message.entries, hbody]
  | refuses hfrom hbody hrefuses =>
      -- the leader's values of `last_applied_*` are the node's own
      obtain ⟨rfl, rfl⟩ := hhandling _ hfrom _ _ _ _ hbody
      simp [thread2Accepts, hlast.1, hlast.2] at hrefuses
  | votes hfrom hbody => simp [received, hfrom, Thread2.toLog, Message.entries, hbody]
  | takesOk hfrom hbody => simp [received, hfrom, Thread2.toLog, Message.entries, hbody]
  | takesErr hfrom hbody => simp [received, hfrom, Thread2.toLog, Message.entries, hbody]
  | countsVote hfrom hbody hto =>
      rcases hto with rfl | rfl
      · simp [received, hfrom, Thread2.toLog, Message.entries, hbody]
      · simp [received, hfrom, Thread2.toLog, Message.entries, hbody]
  | repliesOk hfrom => simp [received, hfrom, Thread2.toLog]
  | replies hfrom => simp [received, hfrom, Thread2.toLog]
  | logs hfrom => simp [received, hfrom, Thread2.toLog]
  | enqueues hfrom => simp [received, hfrom, Thread2.toLog]
  | becomesLeader hfrom => simp [received, hfrom, Thread2.toLog]

end Following

namespace Leading

lemma of_thread1 (hs : Leading term lastTerm lastIndex s) (h : Thread1Outcome i s s')
    (hterm : s.raft.currentTerm = term) : Leading term lastTerm lastIndex s' := by
  have hbuffers := hs.buffers
  have hadmitted := hs.admitted
  cases h with
  | seesLeader hidle =>
      rw [hidle] at hadmitted
      exact { hs with buffers := by rintro w r ⟨⟩, admitted := hadmitted }
  | opens hseen =>
      rw [hseen] at hadmitted
      refine { hs with buffers := ?_, admitted := ?_ }
      · rintro w r ⟨⟩
        exact hterm
      · rw [← hadmitted]
        rfl
  | goesOn hfrom hto =>
      rw [hfrom, ← hto] at hbuffers hadmitted
      exact { hs with buffers := hbuffers, admitted := hadmitted }
  | @admitsRead w r r' t hfrom hto =>
      rw [hfrom] at hadmitted
      refine { hs with buffers := Thread1.forall_buffers hto ?_, admitted := ?_ }
      · exact hbuffers w r hfrom
      · rw [hto, ← hadmitted]
        rfl
  | @admitsWrite w r t record hfrom hto =>
      rw [hfrom] at hadmitted
      refine { hs with buffers := Thread1.forall_buffers hto ?_, admitted := ?_ }
      · exact hbuffers w r hfrom
      · rw [hto, ← hadmitted]
        simp [CmdBuffer.commandBytes, CmdBuffer.push]
  | @abandons w r hfrom hwhy =>
      -- the term has not changed, so the batch was empty
      have hw : w.commands = [] := by
        have hbatch : w.term = term := hbuffers w r (by rw [hfrom]; rfl)
        rcases hwhy with hne | hempty
        · exact absurd (hterm.trans hbatch.symm) hne
        · exact hempty
      rw [hfrom] at hadmitted
      refine { hs with buffers := by rintro w r ⟨⟩, admitted := ?_ }
      rw [← hadmitted]
      simp [Thread1.buffers, CmdBuffer.commandBytes, hw]
  | @enqueues w r hfrom =>
      have hbatch : w.term = term := hbuffers w r (by rw [hfrom]; rfl)
      rw [hfrom] at hadmitted
      refine { hs with
        buffers := by rintro w r ⟨⟩
        queue13 := ?_
        logged := ?_
        admitted := ?_ }
      · intro p hp
        rcases List.mem_append.1 hp with hold | hnew
        · exact hs.queue13 p hold
        · rw [List.mem_singleton.1 hnew]
          exact hbatch
      · rw [← hs.logged]
        simp
      · rw [← hadmitted]
        simp [Thread1.buffers]

lemma of_thread2 {popped out : Outgoing n} (hs : Leading term lastTerm lastIndex s)
    (h : Thread2Outcome i s popped s' out)
    (hpopped : ∀ j m, popped = some (j, m) → m.entries = []) :
    Leading term lastTerm lastIndex s' := by
  have htoLog := hs.toLog
  have hwritten := hs.written
  cases h with
  | discards => exact hs
  | reads => exact { hs with toLog := hpopped _ _ rfl, written := rfl }
  | accepts hfrom hbody =>
      rw [hfrom, Thread2.toLog, Message.entries, hbody] at htoLog
      cases htoLog
  | countsVote _ _ hto =>
      rcases hto with rfl | rfl
      · exact { hs with toLog := rfl, written := rfl }
      · exact { hs with toLog := rfl, written := rfl }
  | repliesOk hfrom =>
      rw [hfrom] at htoLog
      cases htoLog
  | logs hfrom =>
      rw [hfrom] at htoLog
      cases htoLog
  | enqueues hfrom =>
      rw [hfrom] at hwritten
      cases hwritten
  | _ => exact { hs with toLog := rfl, written := rfl }

lemma of_thread3 {out : Outgoing n} (hs : Leading term lastTerm lastIndex s)
    (h : Thread3Outcome leader s s' out)
    (hlast : s.raft.lastAppliedTerm = lastTerm ∧ s.raft.lastAppliedIndex = lastIndex) :
    Leading term lastTerm lastIndex s' ∧
      ∀ j m, out = some (j, m) → FromLeader leader term lastTerm lastIndex leader m := by
  have hthread3 := hs.thread3
  have hlogged := hs.logged
  cases h with
  | @takes w r rest hidle hqueue =>
      have hqueue13 := hs.queue13
      rw [hqueue] at hqueue13
      rw [hidle, hqueue] at hlogged
      exact ⟨{ hs with
        queue13 := fun p hp => hqueue13 p (List.mem_cons_of_mem _ hp)
        thread3 := hqueue13 (w, r) List.mem_cons_self
        logged := hlogged }, by rintro j m ⟨⟩⟩
  | builds hfrom =>
      rw [hfrom] at hthread3 hlogged
      exact ⟨{ hs with thread3 := ⟨hthread3, hlast⟩, logged := hlogged }, by rintro j m ⟨⟩⟩
  | sends hfrom =>
      rw [hfrom] at hthread3 hlogged
      obtain ⟨hterm, rfl, rfl⟩ := hthread3
      refine ⟨{ hs with thread3 := ⟨hterm, rfl, rfl⟩, logged := hlogged }, ?_⟩
      rintro j m ⟨⟩ _ _ _ _ ⟨⟩
      exact ⟨rfl, hterm, rfl, rfl⟩
  | waits hfrom =>
      rw [hfrom] at hthread3 hlogged
      exact ⟨{ hs with thread3 := hthread3.1, logged := hlogged }, by rintro j m ⟨⟩⟩
  | counts hfrom =>
      rw [hfrom] at hthread3 hlogged
      exact ⟨{ hs with thread3 := hthread3, logged := hlogged }, by rintro j m ⟨⟩⟩
  | skips => exact ⟨{ hs with }, by rintro j m ⟨⟩⟩
  | commits hfrom =>
      rw [hfrom] at hthread3 hlogged
      exact ⟨{ hs with thread3 := hthread3, logged := hlogged }, by rintro j m ⟨⟩⟩
  | @logs w hfrom =>
      rw [hfrom] at hthread3 hlogged
      refine ⟨{ hs with thread3 := hthread3, logged := ?_ }, by rintro j m ⟨⟩⟩
      rw [← hlogged, List.append_assoc]
      rfl
  | enqueues hfrom =>
      rw [hfrom] at hlogged
      exact ⟨{ hs with thread3 := trivial, logged := hlogged }, by rintro j m ⟨⟩⟩

end Leading

/-- `thread_1` adds the batch it enqueues to those that wait to be sent. -/
lemma Thread1Outcome.unsent (h : Thread1Outcome i s s') : ∃ fresh,
    (∀ j, unsentBatches s' j = unsentBatches s j ++ fresh) ∧
      s'.enqueued = s.enqueued ++ fresh := by
  cases h with
  | @enqueues w r hfrom => exact ⟨[w], fun j => by simp [unsentBatches], rfl⟩
  | _ => exact ⟨[], fun j => by simp [unsentBatches], by simp⟩

/-- What the commands on their way to the store depend on. -/
lemma AppliesLog.congr (hs : AppliesLog s) (hthread5 : s'.thread5 = s.thread5)
    (hqueue35 : s'.queue35 = s.queue35) (happlied : s'.applied = s.applied)
    (hwritten2 : s'.thread2.written = s.thread2.written)
    (hwritten3 : s'.thread3.written = s.thread3.written) (hlogFile : s'.logFile = s.logFile) :
    AppliesLog s' := by
  rw [AppliesLog, hthread5, hqueue35, happlied, hwritten2, hwritten3, hlogFile]
  exact hs

lemma Thread1Outcome.appliesLog (h : Thread1Outcome i s s') (hs : AppliesLog s) :
    AppliesLog s' := by
  cases h <;> exact hs

lemma Thread2Outcome.appliesLog {popped out : Outgoing n} (h : Thread2Outcome i s popped s' out)
    (hs : AppliesLog s) (hother : s.thread2.toLog = [] ∨ s.thread3.written = []) :
    AppliesLog s' := by
  cases h with
  | discards => exact hs
  | reads hidle => exact hs.congr rfl rfl rfl (by rw [hidle]; rfl) rfl rfl
  | accepts hfrom => exact hs.congr rfl rfl rfl (by rw [hfrom]; rfl) rfl rfl
  | refuses hfrom => exact hs.congr rfl rfl rfl (by rw [hfrom]; rfl) rfl rfl
  | votes hfrom => exact hs.congr rfl rfl rfl (by rw [hfrom]; rfl) rfl rfl
  | takesOk hfrom => exact hs.congr rfl rfl rfl (by rw [hfrom]; rfl) rfl rfl
  | takesErr hfrom => exact hs.congr rfl rfl rfl (by rw [hfrom]; rfl) rfl rfl
  | countsVote hfrom _ hto =>
      refine hs.congr rfl rfl rfl ?_ rfl rfl
      rcases hto with rfl | rfl
      · rw [hfrom]; rfl
      · rw [hfrom]; rfl
  | repliesOk hfrom => exact hs.congr rfl rfl rfl (by rw [hfrom]; rfl) rfl rfl
  | replies hfrom => exact hs.congr rfl rfl rfl (by rw [hfrom]; rfl) rfl rfl
  | becomesLeader hfrom => exact hs.congr rfl rfl rfl (by rw [hfrom]; rfl) rfl rfl
  | @logs b hfrom =>
      -- nothing of `thread_3` is between the log file and the queue, so the order is kept
      obtain ⟨todo, htodo, heq⟩ := hs
      have hwritten : s.thread3.written = [] := by
        rw [hfrom] at hother
        rcases hother with hnone | hnone
        · cases hnone
        · exact hnone
      refine ⟨todo, htodo, ?_⟩
      rw [hfrom, hwritten] at heq
      simp only [hwritten, List.flatMap_append, ← heq]
      simp [Thread2.written]
  | enqueues hfrom =>
      obtain ⟨todo, htodo, heq⟩ := hs
      refine ⟨todo, htodo, ?_⟩
      rw [hfrom] at heq
      rw [← heq]
      simp [Thread2.written]

lemma Thread3Outcome.appliesLog {out : Outgoing n} (h : Thread3Outcome i s s' out)
    (hs : AppliesLog s) (hother : s.thread2.written = []) : AppliesLog s' := by
  cases h with
  | takes hidle => exact hs.congr rfl rfl rfl rfl (by rw [hidle]; rfl) rfl
  | builds hfrom => exact hs.congr rfl rfl rfl rfl (by rw [hfrom]; rfl) rfl
  | sends hfrom => exact hs.congr rfl rfl rfl rfl (by rw [hfrom]; rfl) rfl
  | waits hfrom => exact hs.congr rfl rfl rfl rfl (by rw [hfrom]; rfl) rfl
  | counts hfrom => exact hs.congr rfl rfl rfl rfl (by rw [hfrom]; rfl) rfl
  | skips => exact hs
  | commits hfrom => exact hs.congr rfl rfl rfl rfl (by rw [hfrom]; rfl) rfl
  | @logs w hfrom =>
      obtain ⟨todo, htodo, heq⟩ := hs
      refine ⟨todo, htodo, ?_⟩
      rw [hfrom, hother] at heq
      simp only [hother, List.flatMap_append, ← heq]
      simp [Thread3.written]
  | enqueues hfrom =>
      obtain ⟨todo, htodo, heq⟩ := hs
      refine ⟨todo, htodo, ?_⟩
      rw [hfrom, hother] at heq
      rw [hother, ← heq]
      simp [Thread3.written]

end Steps

/-! ### Runs -/

/-- The pipelines from the leader to the other nodes hold what it has enqueued. -/
structure Replicating (leader : Fin n) (term lastTerm lastIndex : ℕ) (c : Cluster n DB) :
    Prop where
  origins : ClusterOrigins c
  leading : Leading term lastTerm lastIndex (c.node leader)
  following : ∀ j, j ≠ leader → Following lastTerm lastIndex (c.node j)
  link : ∀ i j, ∀ m ∈ c.link i j, FromLeader leader term lastTerm lastIndex i m
  sent : ∀ j, j ≠ leader → pipeline c leader j = (c.node leader).enqueued
  appliesLog : ∀ j, AppliesLog (c.node j)

namespace Replicating

variable {leader : Fin n} {term lastTerm lastIndex : ℕ} {c c' : Cluster n DB}
  {R : RocksDb DB} {a : ClusterAction n}

lemma start (leader : Fin n) (term lastTerm lastIndex : ℕ) (raft : Fin n → RaftVars)
    (diskMap : Fin n → DB) :
    Replicating leader term lastTerm lastIndex (Cluster.start raft diskMap) where
  origins := ClusterOrigins.start raft diskMap
  leading :=
    { toLog := rfl
      written := rfl
      buffers := by rintro w r ⟨⟩
      queue13 := by rintro p ⟨⟩
      thread3 := trivial
      logged := rfl
      admitted := rfl }
  following := fun j _ =>
    { thread1 := rfl
      queue13 := rfl
      thread3 := rfl
      handling := by rintro m ⟨⟩ }
  link := by rintro i j m ⟨⟩
  sent := fun j _ => rfl
  appliesLog := fun j => ⟨[], rfl, rfl⟩

/-- A step of the leader: it adds the batches it enqueues to every pipeline. -/
lemma of_leader (fresh : List (CmdBuffer n)) {s : Server n DB} {popped out : Outgoing n}
    (hc : Replicating leader term lastTerm lastIndex c) (horigins : ClusterOrigins c')
    (hmoves : Moves c leader s (onLink popped) (onLink out) c')
    (hleading : Leading term lastTerm lastIndex s) (happlies : AppliesLog s)
    (hout : ∀ j m, out = some (j, m) → FromLeader leader term lastTerm lastIndex leader m)
    (hunsent : ∀ j, j ≠ leader → (onLink out j).flatMap Message.entries ++ unsentBatches s j =
      unsentBatches (c.node leader) j ++ fresh)
    (henqueued : s.enqueued = (c.node leader).enqueued ++ fresh) :
    Replicating leader term lastTerm lastIndex c' where
  origins := horigins
  leading := by
    rw [hmoves.node_self]
    exact hleading
  following := by
    intro j hj
    rw [hmoves.node_of_ne hj]
    exact hc.following j hj
  link := hmoves.forall_link hc.link fun j m hm => hout j m (mem_onLink.1 hm)
  sent := by
    intro j hj
    rw [hmoves.node_self, henqueued, ← hc.sent j hj]
    refine Network.conveyor_near Network.appends_eq hmoves hj ?_ (hunsent j hj)
    rw [List.flatMap_eq_nil_iff.2 fun _ _ => rfl, List.append_nil]
  appliesLog := hmoves.forall_node (P := fun _ => AppliesLog) hc.appliesLog happlies

/-- A step of another node: it reads from its pipeline. -/
lemma of_follower {i : Fin n} {s : Server n DB} {popped out : Outgoing n}
    (hc : Replicating leader term lastTerm lastIndex c) (hi : i ≠ leader)
    (horigins : ClusterOrigins c') (hmoves : Moves c i s (onLink popped) (onLink out) c')
    (hfollowing : Following lastTerm lastIndex s) (happlies : AppliesLog s)
    (hout : ∀ j, (onLink out j).flatMap Message.entries = [])
    (hreceived : received s =
      received (c.node i) ++ (onLink popped leader).flatMap Message.entries) :
    Replicating leader term lastTerm lastIndex c' where
  origins := horigins
  leading := by
    rw [hmoves.node_of_ne (Ne.symm hi)]
    exact hc.leading
  following := by
    intro j hj
    by_cases hji : j = i
    · rw [hji, hmoves.node_self]
      exact hfollowing
    · rw [hmoves.node_of_ne hji]
      exact hc.following j hj
  link := hmoves.forall_link hc.link fun j m hm =>
    fromLeader_of_no_entries (List.flatMap_eq_nil_iff.1 (hout j) m hm)
  sent := by
    intro j hj
    rw [hmoves.node_of_ne (Ne.symm hi), ← hc.sent j hj]
    by_cases hji : j = i
    · -- what comes off the link is what the node has received
      subst hji
      refine Network.conveyor_far Network.appends_eq hmoves (Ne.symm hi) ?_
      rw [List.flatMap_eq_nil_iff.2 fun _ _ => rfl, List.nil_append]
      exact hreceived
    · exact Network.conveyor_of_ne _ _ _ _ _ hmoves (Ne.symm hi) hji
  appliesLog := hmoves.forall_node (P := fun _ => AppliesLog) hc.appliesLog happlies

/-- **The pipelines stay complete.** -/
theorem step (hc : Replicating leader term lastTerm lastIndex c)
    (hstable : StableLeader leader term lastTerm lastIndex c)
    (hstep : clusterStep R c a = some c') : Replicating leader term lastTerm lastIndex c' := by
  have horigins := hc.origins.step hstep
  cases clusterStep_spec hstep with
  | @thread1 _ i s _ h hmoves =>
      by_cases hi : i = leader
      · subst hi
        obtain ⟨fresh, hunsent, henqueued⟩ := h.unsent
        exact hc.of_leader fresh horigins hmoves (hc.leading.of_thread1 h hstable.term_eq)
          (h.appliesLog (hc.appliesLog i)) (by rintro j m ⟨⟩) (fun j _ => hunsent j) henqueued
      · exact absurd h ((hc.following i hi).no_thread1 fun hleader => hi (hstable.only i hleader))
  | @thread2 _ i popped out s _ h hmoves =>
      have hpopped : ∀ j m, popped = some (j, m) →
          FromLeader leader term lastTerm lastIndex j m ∧ j ≠ i := by
        rintro j m rfl
        refine ⟨hc.link j i m (hmoves.mem_of_popped (mem_onLink.2 rfl) fun _ => ?_),
          (hc.origins.popped h hmoves rfl).ne⟩
        rw [h.out_eq_none, onLink_none]
      have hentries := h.no_entries (hc.origins.node i).thread2
      by_cases hi : i = leader
      · -- the other nodes send the leader no batches
        subst hi
        have hleading := hc.leading.of_thread2 h fun j m hm =>
          (hpopped j m hm).1.entries_eq_nil (.inl (hpopped j m hm).2)
        refine hc.of_leader [] horigins hmoves hleading
          (h.appliesLog (hc.appliesLog i) (.inl hc.leading.toLog)) ?_ ?_ ?_
        · intro j m hm
          refine fromLeader_of_no_entries (List.flatMap_eq_nil_iff.1 (hentries j) m ?_)
          exact mem_onLink.2 hm
        · intro j _
          rw [hentries j, List.append_nil, List.nil_append]
          cases h <;> rfl
        · rw [List.append_nil]
          cases h <;> rfl
      · have hfollowing := hc.following i hi
        have hwritten : (c.node i).thread3.written = [] := by
          rw [hfollowing.thread3]
          rfl
        exact hc.of_follower hi horigins hmoves
          (hfollowing.of_thread2 h fun j m hm => (hpopped j m hm).1)
          (h.appliesLog (hc.appliesLog i) (.inr hwritten)) hentries
          (hfollowing.received_of_thread2 h (hstable.term_le i) (hstable.lastApplied i) fun j m hm =>
            (hpopped j m hm).1)
  | @thread3 i out s _ h hmoves =>
      by_cases hi : i = leader
      · subst hi
        obtain ⟨hleading, hout⟩ := hc.leading.of_thread3 h (hstable.lastApplied i)
        refine hc.of_leader [] horigins hmoves hleading
          (h.appliesLog (hc.appliesLog i) hc.leading.written) hout ?_ ?_
        · intro j hj
          rw [h.unsent hj, List.append_nil]
        · rw [List.append_nil]
          cases h <;> rfl
      · exact absurd h (hc.following i hi).no_thread3
  | @thread5 i s _ h hmoves =>
      have happlies := h.appliesLog (hc.appliesLog i)
      by_cases hi : i = leader
      · subst hi
        refine hc.of_leader [] horigins hmoves ?_ happlies (by rintro j m ⟨⟩) ?_ ?_
        · have hleading := hc.leading
          cases h <;> exact { hleading with }
        · intro j _
          rw [List.append_nil]
          cases h <;> rfl
        · rw [List.append_nil]
          cases h <;> rfl
      · refine hc.of_follower hi horigins hmoves ?_ happlies (fun j => rfl) ?_
        · have hfollowing := hc.following i hi
          cases h <;> exact { hfollowing with }
        · rw [onLink_none, List.flatMap_nil, List.append_nil]
          cases h <;> rfl
  | @election _ i raft out _ hout hmoves =>
      have hentries := no_entries_of_election hout
      by_cases hi : i = leader
      · subst hi
        refine hc.of_leader [] horigins hmoves { hc.leading with }
          (hc.appliesLog i) ?_ ?_ (List.append_nil _).symm
        · intro j m hm
          refine fromLeader_of_no_entries (List.flatMap_eq_nil_iff.1 (hentries j) m ?_)
          exact mem_onLink.2 hm
        · intro j _
          rw [hentries j, List.append_nil]
          rfl
      · exact hc.of_follower hi horigins hmoves { hc.following i hi with } (hc.appliesLog i)
          hentries (List.append_nil _).symm

/-- What a node has written to its log file is the first part of what the leader has enqueued. -/
lemma logFile_prefix (hc : Replicating leader term lastTerm lastIndex c) (j : Fin n) :
    (c.node j).logFile <+: (c.node leader).enqueued := by
  by_cases hj : j = leader
  · subst hj
    exact ⟨_, hc.leading.logged⟩
  · rw [← hc.sent j hj, pipeline, conveyor, List.nil_append,
      List.flatMap_eq_nil_iff.2 fun _ _ => rfl, List.nil_append, received, List.append_assoc]
    exact List.prefix_append _ _

/-- What a node has applied is the first part of what the leader has admitted. -/
lemma applied_prefix (hc : Replicating leader term lastTerm lastIndex c) (j : Fin n) :
    (c.node j).applied.map Prod.snd <+: (c.node leader).admitted := by
  obtain ⟨todo, -, heq⟩ := hc.appliesLog j
  have hlog : (c.node j).applied.map Prod.snd <+:
      (c.node j).logFile.flatMap CmdBuffer.commandBytes := ⟨_, heq⟩
  have henqueued := (hc.logFile_prefix j).flatMap CmdBuffer.commandBytes
  have hadmitted : (c.node leader).enqueued.flatMap CmdBuffer.commandBytes <+:
      (c.node leader).admitted := ⟨_, hc.leading.admitted⟩
  exact (hlog.trans henqueued).trans hadmitted

end Replicating

/-- **Replicas agree under a stable leader.**  In a run in which one node is the only leader,
in one term that no other node's term is above, and all nodes have the same values of
`last_applied_term` and `last_applied_index`, at every moment the log file of every node is a
prefix of the batches that the leader has enqueued, and the commands that every node has
applied are a prefix of the commands that the leader has admitted. -/
theorem replicas_agree (R : RocksDb DB) (raft : Fin n → RaftVars) (diskMap : Fin n → DB)
    (as : List (ClusterAction n)) (leader : Fin n) (term lastTerm lastIndex : ℕ)
    {c : Cluster n DB}
    (hstable : Guarded (clusterStep R)
      (fun c _ => StableLeader leader term lastTerm lastIndex c) (Cluster.start raft diskMap) as)
    (hrun : run (clusterStep R) (Cluster.start raft diskMap) as = some c) (j : Fin n) :
    (c.node j).logFile <+: (c.node leader).enqueued ∧
      (c.node j).applied.map Prod.snd <+: (c.node leader).admitted := by
  have hc := hstable.invariant (I := Replicating leader term lastTerm lastIndex)
    (fun c a c' hc hs hstep => hc.step hs hstep)
    (Replicating.start leader term lastTerm lastIndex raft diskMap) hrun
  exact ⟨hc.logFile_prefix j, hc.applied_prefix j⟩

/-- Node `1` writes and applies the first batch before node `0` does. -/
theorem replicas_agree_first : ∃ c,
    run (clusterStep mapDb) (Cluster.start firstLeads fun _ _ => none)
        (admitSet ++ replicateSet ++ [.thread2 1, .thread2 1, .thread5 1, .thread5 1]) = some c ∧
      (c.node 1).applied ≠ [] ∧
        (c.node 1).logFile <+: (c.node 0).enqueued ∧
          (c.node 1).applied.map Prod.snd <+: (c.node 0).admitted :=
  ⟨_, rfl, by decide +kernel,
    replicas_agree mapDb firstLeads (fun _ _ => none)
      (admitSet ++ replicateSet ++ [.thread2 1, .thread2 1, .thread5 1, .thread5 1]) 0 1 1 0
      (by decide +kernel) rfl 1⟩

end Oceanliner
