/-
# Terms and votes that are never taken back

The term and the vote of a node are its slip (`RaftNode.slip`), and an operation that takes
neither of them back moves the slip up.  Every operation does so except
`raft_become_follower`, which sets the term it is given and clears the vote without looking at
the term the node is in.
-/
import Oceanliner.Lib.Ballot
import Oceanliner.Lib.Transition
import Oceanliner.RaftCore.Client
import Oceanliner.RaftCore.Rpc

open Transition Ballot

namespace Oceanliner

/-! ### The operations of a node -/

/-- The operations of a node, and the batch thread's pass of its loop. -/
inductive TermAction where
  | becomeFollower (clk : Clock) (term : ℕ)
  | becomeCandidate (clk : Clock)
  | startElection (clk : Clock)
  | becomeLeader
  | recordVote
  | requestVote (clk : Clock) (req : RaftMsg RaftRequestVoteReq)
      (resp : RaftMsg RaftRequestVoteResp)
  | appendEntries (clk : Clock) (req : RaftMsg RaftAppendEntriesReq)
      (resp : RaftMsg RaftAppendEntriesResp)
  | appendEntry (entry : RaftEntry)
  | replicateLogs
  | clientCommand (cmd : KvsRecord)
  | batchThread (now : ℕ)

/-- One operation; `none` is one that does not return. -/
def termStep (node : RaftNode) : TermAction → Option RaftNode
  | .becomeFollower clk term => raftBecomeFollower clk node term
  | .becomeCandidate clk => some (raftBecomeCandidate clk node)
  | .startElection clk => some (raftStartElection clk node)
  | .becomeLeader => some (raftBecomeLeader node)
  | .recordVote => some (raftRecordVote node).2
  | .requestVote clk req resp => some (raftHandleRequestVote clk node req resp).1
  | .appendEntries clk req resp => (raftHandleAppendEntries clk node req resp).map Prod.fst
  | .appendEntry entry => some ((raftAppendEntry node entry).getD node)
  | .replicateLogs => some (raftReplicateLogs node)
  | .clientCommand cmd => (raftHandleClientCommand node cmd).map Prod.snd
  | .batchThread now => some (batchProcessorTick now node)

/-- Ids have 32 bits, and a term that is counted up stays below `2 ^ 64`. -/
def TermInRange (node : RaftNode) : TermAction → Prop
  | .becomeCandidate _ | .startElection _ => node.currentTerm < 2 ^ 64 - 1
  | .requestVote _ req _ => req.senderNodeId < 2 ^ 32
  | _ => True

/-! ### Slips -/

/-- The term of a node, and its vote there. -/
def RaftNode.slip (node : RaftNode) : Slip ℕ ℕ :=
  ⟨node.currentTerm, if node.votedFor = 0 then none else some node.votedFor⟩

/-- The term has not decreased, and a vote has changed only with a later term. -/
def KeepsTermAndVote (node node' : RaftNode) : Prop :=
  node.currentTerm ≤ node'.currentTerm ∧
    (node.votedFor ≠ 0 → node'.votedFor ≠ node.votedFor → node.currentTerm < node'.currentTerm)

lemma keepsTermAndVote_iff {node node' : RaftNode} :
    KeepsTermAndVote node node' ↔ node.slip ≤ node'.slip := by
  rw [Slip.le_iff, KeepsTermAndVote, RaftNode.slip, RaftNode.slip]
  by_cases hvote : node.votedFor = 0
  · simp only [hvote, if_true, ne_eq, not_true, false_implies, and_true, reduceCtorEq,
      implies_true]
    exact le_iff_lt_or_eq
  · simp only [hvote, if_false, Option.some.injEq, ne_eq, not_false_iff, forall_const]
    constructor
    · rintro ⟨hle, hchange⟩
      rcases hle.lt_or_eq with hlt | heq
      · exact Or.inl hlt
      · refine Or.inr ⟨heq, ?_⟩
        rintro c rfl
        have hsame : node'.votedFor = node.votedFor := by
          by_contra hne
          exact absurd (hchange hne) (by omega)
        rw [hsame, if_neg hvote]
    · rintro (hlt | ⟨heq, hsame⟩)
      · exact ⟨hlt.le, fun _ => hlt⟩
      · refine ⟨heq.le, fun hne => absurd ?_ hne⟩
        have hvote' := hsame _ rfl
        split at hvote'
        · cases hvote'
        · exact Option.some.inj hvote'

lemma slip_le_of_term_lt {node node' : RaftNode} (h : node.currentTerm < node'.currentTerm) :
    node.slip ≤ node'.slip :=
  Or.inl h

/-! ### Elections -/

lemma slip_le_candidate {node node' : RaftNode} (hrange : node.currentTerm < 2 ^ 64 - 1)
    (hterm : node'.currentTerm = u64 (node.currentTerm + 1)) : node.slip ≤ node'.slip := by
  refine slip_le_of_term_lt ?_
  rw [hterm]
  exact lt_u64_succ hrange

lemma raftRecordVote_slip (node : RaftNode) : (raftRecordVote node).2.slip = node.slip := by
  rw [raftRecordVote]
  split <;> rfl

lemma slip_le_requestVote {clk : Clock} {node node' : RaftNode} {granted : Bool}
    {req : RaftMsg RaftRequestVoteReq} (hsender : req.senderNodeId < 2 ^ 32)
    (h : RequestVoteOutcome clk node req node' granted) : node.slip ≤ node'.slip := by
  cases h with
  | refuse hle => exact le_rfl
  | refuseLater hlt => exact slip_le_of_term_lt hlt
  | grant heq hfree hlog =>
      rw [← keepsTermAndVote_iff]
      refine ⟨le_rfl, fun hvote hchange => absurd ?_ hchange⟩
      have hsame := hfree.resolve_left hvote
      rw [hsame]
      exact u32_of_lt hsender
  | grantLater hlt hlog => exact slip_le_of_term_lt hlt

lemma slip_le_appendEntries {clk : Clock} {node node' : RaftNode}
    {req : RaftMsg RaftAppendEntriesReq} (h : AppendEntriesOutcome clk node req node') :
    node.slip ≤ node'.slip := by
  cases h with
  | stale hlt => exact le_rfl
  | same heq => exact le_rfl
  | later hlt => exact slip_le_of_term_lt hlt

/-! ### Operations on the log -/

lemma TouchesLog.slip_eq {node node' : RaftNode} (h : TouchesLog node node') :
    node'.slip = node.slip := by
  obtain ⟨log, nextIndex, batcher, rfl⟩ := h
  rfl

/-! ### Stepping down -/

/-- A node that steps down enters a later term, or stays in its term without having a vote
there. -/
def StepsDownForward (node : RaftNode) : TermAction → Prop
  | .becomeFollower _ term =>
      node.currentTerm < term ∨ (term = node.currentTerm ∧ node.votedFor = 0)
  | _ => True

lemma slip_le_becomeFollower_iff {clk : Clock} {node node' : RaftNode} {term : ℕ}
    (h : raftBecomeFollower clk node term = some node') :
    node.slip ≤ node'.slip ↔ StepsDownForward node (.becomeFollower clk term) := by
  obtain ⟨batcher, rfl⟩ := raftBecomeFollower_eq h
  rw [← keepsTermAndVote_iff, KeepsTermAndVote, StepsDownForward]
  simp only [followerFields]
  omega

/-- What one operation does to the slip. -/
lemma termStep_slip_le_iff {node node' : RaftNode} {a : TermAction}
    (hrange : TermInRange node a) (h : termStep node a = some node') :
    node.slip ≤ node'.slip ↔ StepsDownForward node a := by
  cases a with
  | becomeFollower clk term => exact slip_le_becomeFollower_iff h
  | becomeCandidate clk =>
      obtain rfl := Option.some.inj h
      exact iff_of_true (slip_le_candidate hrange rfl) trivial
  | startElection clk =>
      obtain rfl := Option.some.inj h
      exact iff_of_true (slip_le_candidate hrange rfl) trivial
  | becomeLeader =>
      obtain rfl := Option.some.inj h
      exact iff_of_true le_rfl trivial
  | recordVote =>
      obtain rfl := Option.some.inj h
      exact iff_of_true (raftRecordVote_slip node).ge trivial
  | requestVote clk req resp =>
      obtain rfl := Option.some.inj h
      exact iff_of_true (slip_le_requestVote hrange (raftHandleRequestVote_outcome rfl)) trivial
  | appendEntries clk req resp =>
      obtain ⟨r, hr, rfl⟩ := Option.map_eq_some_iff.1 h
      exact iff_of_true (slip_le_appendEntries (raftHandleAppendEntries_outcome hr)) trivial
  | appendEntry entry =>
      obtain rfl := Option.some.inj h
      exact iff_of_true (raftAppendEntry_touchesLog node entry).slip_eq.ge trivial
  | replicateLogs =>
      obtain rfl := Option.some.inj h
      exact iff_of_true (raftReplicateLogs_touchesLog node).slip_eq.ge trivial
  | clientCommand cmd =>
      obtain ⟨r, hr, rfl⟩ := Option.map_eq_some_iff.1 h
      exact iff_of_true (raftHandleClientCommand_touchesLog hr).slip_eq.ge trivial
  | batchThread now =>
      obtain rfl := Option.some.inj h
      exact iff_of_true (batchProcessorTick_touchesLog now node).slip_eq.ge trivial

/-- A run whose steps down all go forward ends with a slip above the one it began with. -/
theorem slip_le_of_run {node node' : RaftNode} {as : List TermAction}
    (hrange : Guarded termStep TermInRange node as)
    (hforward : Guarded termStep StepsDownForward node as)
    (hrun : run termStep node as = some node') : node.slip ≤ node'.slip := by
  refine Guarded.relation (I := fun _ => True) (R := fun n n' => n.slip ≤ n'.slip)
    (fun _ => le_rfl) le_trans ?_ (hrange.and hforward) trivial hrun
  rintro n a n' - ⟨hD, hG⟩ hstep
  exact ⟨trivial, (termStep_slip_le_iff hD hstep).2 hG⟩

/-- **Terms and votes are kept** by a run exactly when each of its `raft_become_follower` steps
enters a later term, or stays in a term in which the node has no vote. -/
theorem terms_and_votes_kept_iff {node node' : RaftNode} {as : List TermAction}
    (hrange : Guarded termStep TermInRange node as) (hrun : run termStep node as = some node') :
    EveryStep termStep KeepsTermAndVote node as ↔ Guarded termStep StepsDownForward node as := by
  refine everyStep_iff_guarded ?_ hrange hrun
  intro n a n' hD hstep
  rw [keepsTermAndVote_iff]
  exact termStep_slip_le_iff hD hstep

/-- A leader of term `1` that steps down to term `2`. -/
theorem terms_and_votes_kept_leader :
    EveryStep termStep KeepsTermAndVote (raftInit 1 ⟨0, 0⟩)
      [.becomeCandidate ⟨0, 0⟩, .becomeLeader, .becomeFollower ⟨0, 0⟩ 2] := by
  refine (terms_and_votes_kept_iff ?_ rfl).2 ?_
  · refine ⟨(by decide : (0 : ℕ) < 2 ^ 64 - 1), fun n₁ _ => ?_⟩
    exact ⟨trivial, fun n₂ _ => ⟨trivial, fun _ _ => trivial⟩⟩
  · refine ⟨trivial, fun n₁ h₁ => ⟨trivial, fun n₂ h₂ => ⟨Or.inl ?_, fun _ _ => trivial⟩⟩⟩
    obtain rfl := Option.some.inj h₁
    obtain rfl := Option.some.inj h₂
    decide

/-- Node `1` stands in term `1`, steps down in the same term, which clears its vote, and then to
term `0`. -/
theorem terms_and_votes_taken_back :
    Guarded termStep TermInRange (raftInit 1 ⟨0, 0⟩)
        [.becomeCandidate ⟨0, 0⟩, .becomeFollower ⟨0, 0⟩ 1, .becomeFollower ⟨0, 0⟩ 0] ∧
      (run termStep (raftInit 1 ⟨0, 0⟩)
        [.becomeCandidate ⟨0, 0⟩, .becomeFollower ⟨0, 0⟩ 1, .becomeFollower ⟨0, 0⟩ 0]).isSome ∧
      ¬ EveryStep termStep KeepsTermAndVote (raftInit 1 ⟨0, 0⟩)
        [.becomeCandidate ⟨0, 0⟩, .becomeFollower ⟨0, 0⟩ 1, .becomeFollower ⟨0, 0⟩ 0] := by
  refine ⟨⟨(by decide : (0 : ℕ) < 2 ^ 64 - 1), fun n₁ _ => ?_⟩, rfl, ?_⟩
  · exact ⟨trivial, fun n₂ _ => ⟨trivial, fun _ _ => trivial⟩⟩
  · intro h
    have hvote := ((h _ rfl).2 _ rfl).1.2 (by decide) (by decide)
    exact absurd hvote (by decide)

end Oceanliner
