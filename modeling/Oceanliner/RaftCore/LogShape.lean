/-
# The shape of the log

The log is an array in which an entry stands one place below its index, in the order of the terms,
and the current term is the latest.  All that an operation does to it is to append entries of the
current term (`Appends`), so an operation that does not go back in the term keeps this shape, and
the entries that are there stay as they are (`log_shape`).
-/
import Oceanliner.RaftCore.Terms

open Transition

namespace Oceanliner

/-- The shape of the log of a node. -/
structure LogShape (node : RaftNode) : Prop where
  count_le : node.log.count ≤ node.log.capacity
  index : ∀ i e, node.log.entries[i]? = some e → e.index = i + 1
  sorted : node.log.entries.Pairwise fun e e' => e.term ≤ e'.term
  term_le : ∀ e ∈ node.log.entries, e.term ≤ node.currentTerm

/-- All that changes in the log is that it may have one more entry, of the current term. -/
inductive Appends (node node' : RaftNode) : Prop where
  | kept (hterm : node.currentTerm ≤ node'.currentTerm)
      (hlog : node'.log.entries = node.log.entries)
  | appended (hterm : node'.currentTerm = node.currentTerm) {type : RaftEntryType}
      {data : List UInt8}
      (hlog : node'.log.entries =
        node.log.entries ++ [⟨node.currentTerm, node.log.count + 1, type, data⟩])

/-- The operation does not go back in the term, and an entry that is appended by hand has the
current term. -/
def TermForward (node : RaftNode) : TermAction → Prop
  | .becomeFollower _ term => node.currentTerm ≤ term
  | .becomeCandidate _ | .startElection _ => node.currentTerm < 2 ^ 64 - 1
  | .appendEntry entry => entry.term = node.currentTerm
  | _ => True

instance (node : RaftNode) : ∀ a, Decidable (TermForward node a)
  | .becomeFollower _ term => inferInstanceAs (Decidable (node.currentTerm ≤ term))
  | .becomeCandidate _ => inferInstanceAs (Decidable (node.currentTerm < 2 ^ 64 - 1))
  | .startElection _ => inferInstanceAs (Decidable (node.currentTerm < 2 ^ 64 - 1))
  | .appendEntry entry => inferInstanceAs (Decidable (entry.term = node.currentTerm))
  | .becomeLeader => isTrue trivial
  | .recordVote => isTrue trivial
  | .requestVote .. => isTrue trivial
  | .appendEntries .. => isTrue trivial
  | .replicateLogs => isTrue trivial
  | .clientCommand _ => isTrue trivial
  | .batchThread _ => isTrue trivial

/-! ### What one operation appends -/

lemma LogsCommands.appends {node node' : RaftNode} {data : List UInt8}
    (h : LogsCommands node data node') : Appends node node' := by
  rcases h.entries with hlog | ⟨-, hlog⟩
  · exact .appended h.currentTerm_eq hlog
  · exact .kept h.currentTerm_eq.ge hlog

lemma FlushOutcome.appends {node node' : RaftNode} (h : FlushOutcome node node') :
    Appends node node' := by
  cases h with
  | kept h => exact .kept le_rfl rfl
  | logged h hnum hlog =>
      cases hlog.appends with
      | kept hterm hentries => exact .kept hterm hentries
      | appended hterm hentries => exact .appended hterm hentries

lemma ClientOutcome.appends {node node' : RaftNode} {cmd : KvsRecord} {r : ℤ}
    (h : ClientOutcome node cmd r node') : Appends node node' := by
  cases h with
  | refused h => exact .kept le_rfl rfl
  | batched h hadd => exact .kept le_rfl rfl
  | direct h hadd hlog => exact hlog.appends

lemma RequestVoteOutcome.appends {clk : Clock} {node node' : RaftNode} {granted : Bool}
    {req : RaftMsg RaftRequestVoteReq} (h : RequestVoteOutcome clk node req node' granted) :
    Appends node node' := by
  cases h with
  | refuse h => exact .kept le_rfl rfl
  | refuseLater h => exact .kept h.le rfl
  | grant h hfree hlog => exact .kept le_rfl rfl
  | grantLater h hlog => exact .kept h.le rfl

lemma AppendEntriesOutcome.appends {clk : Clock} {node node' : RaftNode}
    {req : RaftMsg RaftAppendEntriesReq} (h : AppendEntriesOutcome clk node req node') :
    Appends node node' := by
  cases h with
  | stale h => exact .kept le_rfl rfl
  | same h => exact .kept le_rfl rfl
  | later h => exact .kept h.le rfl

lemma raftAppendEntry_appends {node : RaftNode} {entry : RaftEntry}
    (h : entry.term = node.currentTerm) :
    Appends node ((raftAppendEntry node entry).getD node) := by
  cases happ : raftAppendEntry node entry with
  | none => exact .kept le_rfl rfl
  | some node' =>
      obtain ⟨log, rfl, hlog⟩ := raftAppendEntry_spec happ
      rw [h] at hlog
      exact .appended rfl hlog

lemma raftBecomeFollower_appends {clk : Clock} {node node' : RaftNode} {term : ℕ}
    (h : raftBecomeFollower clk node term = some node') (hterm : node.currentTerm ≤ term) :
    Appends node node' := by
  obtain ⟨batcher, rfl⟩ := raftBecomeFollower_eq h
  exact .kept hterm rfl

/-- What one operation does to the log. -/
lemma termStep_appends {node node' : RaftNode} {a : TermAction} (hforward : TermForward node a)
    (h : termStep node a = some node') : Appends node node' := by
  cases a with
  | becomeFollower clk term => exact raftBecomeFollower_appends h hforward
  | becomeCandidate clk =>
      obtain rfl := Option.some.inj h
      exact .kept (lt_u64_succ hforward).le rfl
  | startElection clk =>
      obtain rfl := Option.some.inj h
      exact .kept (lt_u64_succ hforward).le rfl
  | becomeLeader =>
      obtain rfl := Option.some.inj h
      exact .kept le_rfl rfl
  | recordVote =>
      obtain rfl := Option.some.inj h
      rw [raftRecordVote]
      split
      · exact .kept le_rfl rfl
      · exact .kept le_rfl rfl
  | requestVote clk req resp =>
      obtain rfl := Option.some.inj h
      exact (raftHandleRequestVote_outcome rfl).appends
  | appendEntries clk req resp =>
      obtain ⟨r, hr, rfl⟩ := Option.map_eq_some_iff.1 h
      exact (raftHandleAppendEntries_outcome hr).appends
  | appendEntry entry =>
      obtain rfl := Option.some.inj h
      exact raftAppendEntry_appends hforward
  | replicateLogs =>
      obtain rfl := Option.some.inj h
      exact .kept (by simp) (by simp)
  | clientCommand cmd =>
      obtain ⟨r, hr, rfl⟩ := Option.map_eq_some_iff.1 h
      exact (raftHandleClientCommand_outcome hr).appends
  | batchThread now =>
      obtain rfl := Option.some.inj h
      exact (batchProcessorTick_outcome now node).appends

/-! ### Runs -/

lemma Appends.logShape {node node' : RaftNode} (h : Appends node node') (hs : LogShape node) :
    LogShape node' := by
  cases h with
  | kept hterm hlog =>
      refine ⟨node'.log.count_le, ?_, ?_, ?_⟩
      · rw [hlog]
        exact hs.index
      · rw [hlog]
        exact hs.sorted
      · rw [hlog]
        exact fun e he => (hs.term_le e he).trans hterm
  | appended hterm hlog =>
      refine ⟨node'.log.count_le, ?_, ?_, ?_⟩
      · intro i e he
        rw [hlog] at he
        rcases lt_or_ge i node.log.entries.length with hi | hi
        · rw [List.getElem?_append_left hi] at he
          exact hs.index i e he
        · rw [List.getElem?_append_right hi, List.getElem?_singleton] at he
          split at he
          · rename_i hzero
            obtain rfl := Option.some.inj he
            show node.log.entries.length + 1 = i + 1
            omega
          · cases he
      · rw [hlog, List.pairwise_append]
        refine ⟨hs.sorted, List.pairwise_singleton _ _, fun e he e' he' => ?_⟩
        rw [List.mem_singleton] at he'
        rw [he']
        exact hs.term_le e he
      · intro e he
        rw [hlog, List.mem_append, List.mem_singleton] at he
        rw [hterm]
        rcases he with he | rfl
        · exact hs.term_le e he
        · exact le_rfl

lemma Appends.prefix {node node' : RaftNode} (h : Appends node node') :
    node.log.entries <+: node'.log.entries := by
  cases h with
  | kept hterm hlog => rw [hlog]
  | appended hterm hlog => exact ⟨_, hlog.symm⟩

lemma logShape_init (nodeId : ℕ) (clk : Clock) : LogShape (raftInit nodeId clk) where
  count_le := Nat.zero_le _
  index := fun i e he => by simp [raftInit, logInit] at he
  sorted := List.Pairwise.nil
  term_le := by simp [raftInit, logInit]

/-- **The log keeps its shape** in every run whose terms go forward, and the entries that are there
at some time are the first entries of the log at every later time. -/
theorem log_shape {nodeId : ℕ} {clk : Clock} {node node' : RaftNode} {as bs : List TermAction}
    (hforward : Guarded termStep TermForward (raftInit nodeId clk) (as ++ bs))
    (hrun : run termStep (raftInit nodeId clk) as = some node)
    (hrest : run termStep node bs = some node') :
    LogShape node ∧ LogShape node' ∧ node.log.entries <+: node'.log.entries := by
  have hstep : ∀ (n : RaftNode) a n', LogShape n → TermForward n a → termStep n a = some n' →
      LogShape n' ∧ n.log.entries <+: n'.log.entries := by
    intro n a n' hs hG h
    have happends := termStep_appends hG h
    exact ⟨happends.logShape hs, happends.prefix⟩
  have hshape : LogShape node :=
    hforward.append_left.invariant (fun n a n' hs hG h => (hstep n a n' hs hG h).1)
      (logShape_init nodeId clk) hrun
  have hlater := hforward.append_right hrun
  refine ⟨hshape, ?_, ?_⟩
  · exact hlater.invariant (fun n a n' hs hG h => (hstep n a n' hs hG h).1) hshape hrest
  · exact hlater.relation (R := fun n n' => n.log.entries <+: n'.log.entries)
      (fun _ => List.prefix_refl _) List.IsPrefix.trans hstep hshape hrest

/-- A node leads in term 1 and logs a command, and is elected again in term 2. -/
def firstTermLogged : List TermAction :=
  [.becomeCandidate ⟨0, 0⟩, .becomeLeader, .clientCommand emptyCommand, .batchThread 1000,
    .becomeCandidate ⟨1, 0⟩, .becomeLeader]

/-- In term 2 it logs another command behind the first one. -/
theorem log_shape_leader :
    ∃ node node', run termStep (raftInit 1 ⟨0, 0⟩) firstTermLogged = some node ∧
      run termStep node [.clientCommand emptyCommand, .batchThread 2000] = some node' ∧
      node.log.entries.map RaftEntry.term = [1] ∧ node'.log.entries.map RaftEntry.term = [1, 2] ∧
      LogShape node ∧ LogShape node' ∧ node.log.entries <+: node'.log.entries := by
  obtain ⟨h, h', hprefix⟩ := @log_shape 1 ⟨0, 0⟩ _ _ firstTermLogged
    [.clientCommand emptyCommand, .batchThread 2000] (by decide) rfl rfl
  exact ⟨_, _, rfl, rfl, rfl, rfl, h, h', hprefix⟩

end Oceanliner
