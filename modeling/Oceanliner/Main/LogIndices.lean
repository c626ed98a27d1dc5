/-
# The indices in a follower's log file

`thread_2` accepts a batch when it follows on `last_applied_term` and `last_applied_index`, or
when both are 0, and then writes it to the log file; but nobody moves the two fields on.  So a
node that starts with other values than 0 accepts one index over and over, and one that starts
with 0 accepts every index.  `log_indices_iff` says for which sequences of messages the indices
in the file are contiguous all the same.
-/
import Oceanliner.Main.Cluster
import Oceanliner.Main.Inbox

namespace Oceanliner

variable {n : ℕ} {DB : Type}

/-- An AppendEntries message whose batch follows on the log entry it names.  Its index is a
`uint64_t`, so behind the last index comes 0. -/
structure AppendRequest (n : ℕ) where
  term : ℕ
  senderNodeId : Fin n
  prevLogTerm : ℕ
  prevLogIndex : ℕ
  leaderCommit : ℕ
  entries : CmdBuffer n
  prevLogIndex_lt : prevLogIndex < 2 ^ 64
  logIndex_eq : entries.logIndex = u64 (prevLogIndex + 1)

def AppendRequest.message (m : AppendRequest n) : Message n where
  term := m.term
  senderNodeId := m.senderNodeId
  body := .appendEntries m.prevLogTerm m.prevLogIndex m.leaderCommit m.entries

/-- `thread_2` processes AppendEntries messages, one after the other. -/
def thread2Appends (self : Fin n) (s : Server n DB) : List (AppendRequest n) → Option (Server n DB)
  | [] => some s
  | m :: ms => (thread2Process self s m.message).bind fun r => thread2Appends self r.1 ms

/-- The batches written to the log file between two states have the indices that follow on
`last_applied_index`, one after the other. -/
def LogsContiguous (s s' : Server n DB) : Prop :=
  ∃ new, s'.logFile = s.logFile ++ new ∧
    new.map CmdBuffer.logIndex =
      (List.range new.length).map fun i => u64 (s.raft.lastAppliedIndex + 1 + i)

/-- The messages that are not outdated name the entries of a log in their order: if the node
starts with an empty log, their indices are 0, 1, 2, …; if not, at most one of them names the
last entry of the node. -/
def NamesInOrder (raft : RaftVars) (ms : List (AppendRequest n)) : Prop :=
  let current := notOutdated AppendRequest.term raft.currentTerm ms
  if raft.lastAppliedTerm = 0 ∧ raft.lastAppliedIndex = 0 then
    ∀ i m, current[i]? = some m → m.prevLogIndex = u64 i
  else
    (current.filter fun m =>
      m.prevLogTerm = raft.lastAppliedTerm ∧ m.prevLogIndex = raft.lastAppliedIndex).length ≤ 1

/-! ### What is written -/

/-- The messages that are accepted, for fixed values of `last_applied_*`. -/
def acceptedOf (raft : RaftVars) (t : ℕ) (ms : List (AppendRequest n)) : List (AppendRequest n) :=
  (notOutdated AppendRequest.term t ms).filter fun m =>
    thread2Accepts raft m.prevLogTerm m.prevLogIndex

lemma acceptedOf_outdated {raft : RaftVars} {t : ℕ} {m : AppendRequest n}
    {ms : List (AppendRequest n)} (h : m.term < t) :
    acceptedOf raft t (m :: ms) = acceptedOf raft t ms := by
  rw [acceptedOf, notOutdated_of_lt h, acceptedOf]

lemma acceptedOf_current {raft : RaftVars} {t : ℕ} {m : AppendRequest n}
    {ms : List (AppendRequest n)} (h : t ≤ m.term) :
    (acceptedOf raft t (m :: ms)).map AppendRequest.entries =
      (if thread2Accepts raft m.prevLogTerm m.prevLogIndex then [m.entries] else []) ++
        (acceptedOf raft m.term ms).map AppendRequest.entries := by
  rw [acceptedOf, notOutdated_of_le h, List.filter_cons, acceptedOf]
  split
  · rfl
  · rfl

lemma thread2Accepts_congr {raft raft' : RaftVars}
    (hterm : raft'.lastAppliedTerm = raft.lastAppliedTerm)
    (hindex : raft'.lastAppliedIndex = raft.lastAppliedIndex) :
    thread2Accepts raft' = thread2Accepts raft := by
  funext prevLogTerm prevLogIndex
  rw [thread2Accepts, thread2Accepts, hterm, hindex]

/-- The log file grows by the accepted batches, in the order of their messages. -/
lemma thread2Appends_logFile (self : Fin n) (ms : List (AppendRequest n)) {s : Server n DB}
    (hidle : s.thread2 = .idle) :
    ∃ s', thread2Appends self s ms = some s' ∧ s'.logFile = s.logFile ++
      (acceptedOf s.raft s.raft.currentTerm ms).map AppendRequest.entries := by
  induction ms generalizing s with
  | nil => exact ⟨s, rfl, by simp [acceptedOf, notOutdated]⟩
  | cons m ms ih =>
      rw [thread2Appends]
      by_cases hterm : m.term < s.raft.currentTerm
      · rw [thread2Process_outdated hidle hterm, Option.bind_some, acceptedOf_outdated hterm]
        exact ih hidle
      · rw [not_lt] at hterm
        rw [thread2Process_appendEntries hidle hterm rfl, Option.bind_some,
          acceptedOf_current hterm]
        obtain ⟨s', hrun, hlog⟩ := ih (s :=
          { s with
            raft := raiseTerm s.raft m.term
            logFile := s.logFile ++ _
            queue35 := s.queue35 ++ _ }) hidle
        refine ⟨s', hrun, ?_⟩
        rw [hlog, acceptedOf, acceptedOf, thread2Accepts_congr (raiseTerm_lastAppliedTerm _ _)
          (raiseTerm_lastAppliedIndex _ _), raiseTerm_currentTerm hterm, List.append_assoc]

/-! ### When the indices are contiguous -/

lemma u64_succ_inj {a b : ℕ} : u64 (a + 1) = u64 (b + 1) ↔ u64 a = u64 b := by
  rw [u64, u64, u64, u64]
  omega

/-- Numbers are `f 0`, `f 1`, … exactly when each of them is in its place. -/
lemma map_eq_map_range {α : Type} (g : α → ℕ) (f : ℕ → ℕ) (xs : List α) :
    xs.map g = (List.range xs.length).map f ↔ ∀ i x, xs[i]? = some x → g x = f i := by
  constructor
  · intro h i x hx
    have hlt : i < xs.length := (List.getElem?_eq_some_iff.1 hx).1
    have hi := congrArg (fun l : List ℕ => l[i]?) h
    simp only [List.getElem?_map, hx, List.getElem?_range hlt, Option.map_some] at hi
    exact Option.some.inj hi
  · intro h
    refine List.ext_getElem (by simp) fun i h₁ h₂ => ?_
    rw [List.length_map] at h₁
    simpa using h i xs[i] (List.getElem?_eq_getElem h₁)

/-- With an empty log every message is accepted, and each must name the entry at its place. -/
lemma inPlace_iff_of_empty {raft : RaftVars} {t : ℕ} {ms : List (AppendRequest n)}
    (hterm : raft.lastAppliedTerm = 0) (hindex : raft.lastAppliedIndex = 0) :
    (∀ i m, (acceptedOf raft t ms)[i]? = some m →
        u64 (m.prevLogIndex + 1) = u64 (raft.lastAppliedIndex + 1 + i)) ↔
      ∀ i m, (notOutdated AppendRequest.term t ms)[i]? = some m → m.prevLogIndex = u64 i := by
  have hall : acceptedOf raft t ms = notOutdated AppendRequest.term t ms := by
    rw [acceptedOf, List.filter_eq_self]
    intro m hm
    simp [thread2Accepts, hterm, hindex]
  have hplace : ∀ (m : AppendRequest n) i,
      u64 (m.prevLogIndex + 1) = u64 (raft.lastAppliedIndex + 1 + i) ↔
        m.prevLogIndex = u64 i := by
    intro m i
    rw [hindex, Nat.zero_add, Nat.add_comm 1 i, u64_succ_inj, u64_of_lt m.prevLogIndex_lt]
  rw [hall]
  simp only [hplace]

/-- Otherwise the accepted messages all name one entry, so only the first is in its place. -/
lemma inPlace_iff_of_not_empty {raft : RaftVars} {t : ℕ} {ms : List (AppendRequest n)}
    (hne : ¬ (raft.lastAppliedTerm = 0 ∧ raft.lastAppliedIndex = 0)) :
    (∀ i m, (acceptedOf raft t ms)[i]? = some m →
        u64 (m.prevLogIndex + 1) = u64 (raft.lastAppliedIndex + 1 + i)) ↔
      ((notOutdated AppendRequest.term t ms).filter fun m =>
        m.prevLogTerm = raft.lastAppliedTerm ∧
          m.prevLogIndex = raft.lastAppliedIndex).length ≤ 1 := by
  have hfilter : acceptedOf raft t ms = (notOutdated AppendRequest.term t ms).filter fun m =>
      m.prevLogTerm = raft.lastAppliedTerm ∧ m.prevLogIndex = raft.lastAppliedIndex := by
    rw [acceptedOf]
    refine List.filter_congr fun m _ => ?_
    have hfirst : (decide (raft.lastAppliedTerm = 0) &&
        decide (raft.lastAppliedIndex = 0)) = false := by
      simpa using hne
    rw [thread2Accepts, hfirst, Bool.or_false, Bool.decide_and]
  rw [← hfilter]
  have hsame : ∀ m ∈ acceptedOf raft t ms, m.prevLogIndex = raft.lastAppliedIndex := by
    intro m hm
    rw [hfilter, List.mem_filter, decide_eq_true_eq] at hm
    exact hm.2.2
  constructor
  · intro h
    by_contra hlong
    have hlt : 1 < (acceptedOf raft t ms).length := not_le.1 hlong
    have h1 := h 1 _ (List.getElem?_eq_getElem hlt)
    rw [hsame _ (List.getElem_mem hlt), u64, u64] at h1
    omega
  · intro h i m hi
    have hlt : i < (acceptedOf raft t ms).length := (List.getElem?_eq_some_iff.1 hi).1
    have hzero : i = 0 := by omega
    rw [hsame m (List.mem_of_getElem? hi), hzero, Nat.add_zero]

/-- **When a follower's log file is contiguous.**  Every sequence of messages is processed; the
indices it writes to the log file follow on the first ones without a gap or a repetition exactly
when the messages name the entries of a log in their order. -/
theorem log_indices_iff {self : Fin n} {s : Server n DB} (hidle : s.thread2 = .idle)
    (ms : List (AppendRequest n)) :
    ∃ s', thread2Appends self s ms = some s' ∧
      (LogsContiguous s s' ↔ NamesInOrder s.raft ms) := by
  obtain ⟨s', hrun, hlog⟩ := thread2Appends_logFile self ms hidle
  refine ⟨s', hrun, ?_⟩
  have hmap := map_eq_map_range (fun m : AppendRequest n => m.entries.logIndex)
    (fun i => u64 (s.raft.lastAppliedIndex + 1 + i))
    (acceptedOf s.raft s.raft.currentTerm ms)
  simp only [AppendRequest.logIndex_eq] at hmap
  have hiff : LogsContiguous s s' ↔
      ∀ i m, (acceptedOf s.raft s.raft.currentTerm ms)[i]? = some m →
        u64 (m.prevLogIndex + 1) = u64 (s.raft.lastAppliedIndex + 1 + i) := by
    rw [← hmap, LogsContiguous, hlog]
    constructor
    · rintro ⟨new, heq, hnew⟩
      obtain rfl := List.append_cancel_left heq
      simpa [AppendRequest.logIndex_eq, Function.comp_def] using hnew
    · intro h
      refine ⟨_, rfl, ?_⟩
      simpa [AppendRequest.logIndex_eq, Function.comp_def] using h
  rw [hiff, NamesInOrder]
  by_cases hempty : s.raft.lastAppliedTerm = 0 ∧ s.raft.lastAppliedIndex = 0
  · rw [if_pos hempty]
    exact inPlace_iff_of_empty hempty.1 hempty.2
  · rw [if_neg hempty]
    exact inPlace_iff_of_not_empty hempty

/-! ### One index, twice -/

/-- An AppendEntries of term 1 with an empty batch that follows on the given entry. -/
def emptyAppend (prevLogTerm : ℕ) (prevLogIndex : Fin (2 ^ 64)) (serial : ℕ) :
    AppendRequest 2 where
  term := 1
  senderNodeId := 0
  prevLogTerm := prevLogTerm
  prevLogIndex := prevLogIndex
  leaderCommit := u64 (prevLogIndex + 1)
  entries := ⟨1, u64 (prevLogIndex + 1), [], ⟨0, serial⟩⟩
  prevLogIndex_lt := prevLogIndex.2
  logIndex_eq := rfl

/-- A follower of term 1 with an empty log. -/
def emptyFollower : RaftVars where
  state := .follower
  currentTerm := 1
  votesReceived := 0
  lastAppliedTerm := 0
  lastAppliedIndex := 0

/-- The messages for the first three batches of a leader, with an outdated one in between. -/
def threeAppends : List (AppendRequest 2) :=
  [emptyAppend 0 ⟨0, by decide⟩ 0, { emptyAppend 0 ⟨5, by decide⟩ 1 with term := 0 },
    emptyAppend 1 ⟨1, by decide⟩ 2, emptyAppend 1 ⟨2, by decide⟩ 3]

lemma namesInOrder_threeAppends : NamesInOrder emptyFollower threeAppends := by
  rw [NamesInOrder, if_pos ⟨rfl, rfl⟩]
  have hcurrent : notOutdated AppendRequest.term 1 threeAppends =
      [emptyAppend 0 ⟨0, by decide⟩ 0, emptyAppend 1 ⟨1, by decide⟩ 2,
        emptyAppend 1 ⟨2, by decide⟩ 3] := rfl
  intro i m hm
  rw [show emptyFollower.currentTerm = 1 from rfl, hcurrent] at hm
  match i with
  | 0 => obtain rfl := Option.some.inj hm; rfl
  | 1 => obtain rfl := Option.some.inj hm; rfl
  | 2 => obtain rfl := Option.some.inj hm; rfl
  | i + 3 => cases hm

/-- The follower logs the three batches in their order. -/
theorem log_indices_first : ∃ s',
    thread2Appends 1 (Server.start emptyFollower ()) threeAppends = some s' ∧
      s'.logFile.map CmdBuffer.logIndex = [1, 2, 3] ∧
        LogsContiguous (Server.start emptyFollower ()) s' := by
  obtain ⟨s', hrun, hindices⟩ : ∃ s',
      thread2Appends 1 (Server.start emptyFollower ()) threeAppends = some s' ∧
        s'.logFile.map CmdBuffer.logIndex = [1, 2, 3] := ⟨_, rfl, rfl⟩
  obtain ⟨s₁, hrun₁, hiff⟩ := @log_indices_iff 2 Unit 1 (.start emptyFollower ()) rfl threeAppends
  obtain rfl : s' = s₁ := Option.some.inj (hrun.symm.trans hrun₁)
  exact ⟨s', hrun, hindices, hiff.2 namesInOrder_threeAppends⟩

/-- A follower whose last entry has the term 1 and the index 0 logs the index 1 twice. -/
theorem log_indices_repeated :
    ∃ s', thread2Appends 1 (Server.start (firstLeads (1 : Fin 2)) ())
        [emptyAppend 1 0 0, emptyAppend 1 0 1] = some s' ∧
      s'.logFile.map CmdBuffer.logIndex = [1, 1] ∧
      ¬ LogsContiguous (Server.start (firstLeads (1 : Fin 2)) ()) s' := by
  obtain ⟨s', hrun, hlog⟩ := thread2Appends_logFile 1 [emptyAppend 1 0 0, emptyAppend 1 0 1]
    (show (Server.start (firstLeads (1 : Fin 2)) ()).thread2 = .idle from rfl)
  have hlog' : s'.logFile = [(emptyAppend 1 0 0).entries, (emptyAppend 1 0 1).entries] := hlog
  refine ⟨s', hrun, by rw [hlog']; rfl, ?_⟩
  rintro ⟨new, heq, hnew⟩
  obtain rfl : s'.logFile = new := heq
  rw [hlog'] at hnew
  exact absurd hnew (by decide)

end Oceanliner
