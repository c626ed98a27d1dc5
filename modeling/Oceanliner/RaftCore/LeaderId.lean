/-
# The leader that a node knows

`leader_id` should name the leader of the current term, or nobody.  Three steps can break this: an
election that `raft_start_election` starts, which unlike `raft_become_candidate` keeps the id, a
vote request of a later term, which keeps it as well, and an append request of the current term on
a node that is not a follower, which puts an id in without making the node one.  A run without such
steps keeps `leader_id` right (`leader_id_names_leader`).
-/
import Oceanliner.RaftCore.StoredEntries
import Oceanliner.RaftCore.Terms

open Transition

namespace Oceanliner

/-- An append request that a node has processed: its sender and its term. -/
structure HeardFrom where
  sender : ℕ
  term : ℕ
deriving DecidableEq, Repr

/-- A node with the append requests it has processed so far. -/
structure LedNode where
  node : RaftNode
  heard : List HeardFrom

/-- What a node hears by an action; a request of an earlier term is not processed. -/
def heardBy (node : RaftNode) : TermAction → List HeardFrom
  | .appendEntries _ req _ =>
      if req.term < node.currentTerm then [] else [⟨req.senderNodeId, req.term⟩]
  | _ => []

/-- One operation. -/
def ledStep (s : LedNode) (a : TermAction) : Option LedNode :=
  (termStep s.node a).map fun node => ⟨node, s.heard ++ heardBy s.node a⟩

/-- A node right after `raft_init`. -/
def LedNode.init (nodeId : ℕ) (clk : Clock) : LedNode := ⟨raftInit nodeId clk, []⟩

/-- `leader_id` is `0`, or names the node itself, which is leader, or names the sender of a request
of the current term that the node has processed, and the node is follower. -/
def LedNode.NamesLeader (s : LedNode) : Prop :=
  s.node.leaderId = 0 ∨ (s.node.leaderId = s.node.nodeId ∧ s.node.state = .leader) ∨
    (⟨s.node.leaderId, s.node.currentTerm⟩ ∈ s.heard ∧ s.node.state = .follower)

/-- The sender of an append request has an id, which is not `0` and has 32 bits. -/
def SenderHasId : TermAction → Prop
  | .appendEntries _ req _ => 0 < req.senderNodeId ∧ req.senderNodeId < 2 ^ 32
  | _ => True

/-- An election by `raft_start_election` and a vote request of a later term find no leader, unless
the node has heard from that leader in the later term already.  An append request that is processed
comes from a sender with an id of 32 bits, and if it is of the current term, it finds a follower or
comes from the leader that the node itself is. -/
def LeavesLeader (s : LedNode) : TermAction → Prop
  | .startElection _ => s.node.leaderId = 0
  | .requestVote _ req _ => s.node.currentTerm < req.term →
      s.node.leaderId = 0 ∨ ⟨s.node.leaderId, req.term⟩ ∈ s.heard
  | .appendEntries _ req _ => s.node.currentTerm ≤ req.term → req.senderNodeId < 2 ^ 32 ∧
      (req.term = s.node.currentTerm → s.node.state = .follower ∨
        (s.node.state = .leader ∧ req.senderNodeId = s.node.nodeId))
  | _ => True

/-! ### One operation -/

section

variable {s : LedNode} {node' : RaftNode}

/-- Operations that keep the id, the role, the leader and the term. -/
lemma namesLeader_of_eq (hid : node'.nodeId = s.node.nodeId) (hstate : node'.state = s.node.state)
    (hterm : node'.currentTerm = s.node.currentTerm) (hleader : node'.leaderId = s.node.leaderId)
    (hs : s.NamesLeader) (more : List HeardFrom) : (⟨node', s.heard ++ more⟩ : LedNode).NamesLeader := by
  simp only [LedNode.NamesLeader, hid, hstate, hterm, hleader, List.mem_append]
  rcases hs with hzero | hself | ⟨hheard, hfollower⟩
  · exact Or.inl hzero
  · exact Or.inr (Or.inl hself)
  · exact Or.inr (Or.inr ⟨Or.inl hheard, hfollower⟩)

lemma TouchesLog.namesLeader (h : TouchesLog s.node node') (hs : s.NamesLeader)
    (more : List HeardFrom) : (⟨node', s.heard ++ more⟩ : LedNode).NamesLeader := by
  obtain ⟨log, nextIndex, batcher, rfl⟩ := h
  exact namesLeader_of_eq rfl rfl rfl rfl hs more

lemma RequestVoteOutcome.namesLeader {clk : Clock} {req : RaftMsg RaftRequestVoteReq}
    {granted : Bool} (h : RequestVoteOutcome clk s.node req node' granted) (hs : s.NamesLeader) :
    (⟨node', s.heard ++ []⟩ : LedNode).NamesLeader ↔ (s.node.currentTerm < req.term →
      s.node.leaderId = 0 ∨ ⟨s.node.leaderId, req.term⟩ ∈ s.heard) := by
  cases h with
  | refuse h => exact iff_of_true (namesLeader_of_eq rfl rfl rfl rfl hs []) (by omega)
  | refuseLater h => simp [LedNode.NamesLeader, h]
  | grant h hfree hlog => exact iff_of_true (namesLeader_of_eq rfl rfl rfl rfl hs []) (by omega)
  | grantLater h hlog => simp [LedNode.NamesLeader, h]

lemma AppendEntriesOutcome.namesLeader {clk : Clock} {req : RaftMsg RaftAppendEntriesReq}
    {resp : RaftMsg RaftAppendEntriesResp} (h : AppendEntriesOutcome clk s.node req node')
    (hG : LeavesLeader s (.appendEntries clk req resp)) (hs : s.NamesLeader) :
    (⟨node', s.heard ++ heardBy s.node (.appendEntries clk req resp)⟩ : LedNode).NamesLeader := by
  rw [heardBy]
  cases h with
  | stale h => exact namesLeader_of_eq rfl rfl rfl rfl hs _
  | same h =>
      obtain ⟨hlt, hrole⟩ := hG h.ge
      rw [if_neg (by omega), LedNode.NamesLeader]
      simp only [u32_of_lt hlt]
      rcases hrole h with hfollower | ⟨hleader, hself⟩
      · exact Or.inr (Or.inr ⟨by simp [h], hfollower⟩)
      · exact Or.inr (Or.inl ⟨hself, hleader⟩)
  | later h =>
      obtain ⟨hlt, -⟩ := hG h.le
      rw [if_neg (by omega), LedNode.NamesLeader]
      simp only [u32_of_lt hlt]
      exact Or.inr (Or.inr ⟨by simp, trivial⟩)

/-- An append request that leaves the leader right meets the condition. -/
lemma AppendEntriesOutcome.leavesLeader {clk : Clock} {req : RaftMsg RaftAppendEntriesReq}
    {resp : RaftMsg RaftAppendEntriesResp} {heard : List HeardFrom}
    (h : AppendEntriesOutcome clk s.node req node')
    (hid : SenderHasId (.appendEntries clk req resp)) (hs : (⟨node', heard⟩ : LedNode).NamesLeader) :
    LeavesLeader s (.appendEntries clk req resp) := by
  obtain ⟨hpos, hlt⟩ := hid
  refine fun hle => ⟨hlt, fun heq => ?_⟩
  cases h with
  | stale h => omega
  | same h =>
      simp only [LedNode.NamesLeader, u32_of_lt hlt] at hs
      rcases hs with hzero | ⟨hself, hleader⟩ | ⟨-, hfollower⟩
      · omega
      · exact Or.inr ⟨hleader, hself⟩
      · exact Or.inl hfollower
  | later h => omega

/-- A step that meets the condition leaves the leader right. -/
lemma ledStep_namesLeader {s' : LedNode} {a : TermAction} (hs : s.NamesLeader)
    (hG : LeavesLeader s a) (h : ledStep s a = some s') : s'.NamesLeader := by
  obtain ⟨node', hstep, rfl⟩ := Option.map_eq_some_iff.1 h
  cases a with
  | becomeFollower clk term =>
      obtain ⟨batcher, rfl⟩ := raftBecomeFollower_eq hstep
      exact Or.inl rfl
  | becomeCandidate clk =>
      obtain rfl := Option.some.inj hstep
      exact Or.inl rfl
  | startElection clk =>
      obtain rfl := Option.some.inj hstep
      exact Or.inl hG
  | becomeLeader =>
      obtain rfl := Option.some.inj hstep
      exact Or.inr (Or.inl ⟨rfl, rfl⟩)
  | recordVote =>
      obtain rfl := Option.some.inj hstep
      rw [raftRecordVote]
      split
      · exact namesLeader_of_eq rfl rfl rfl rfl hs _
      · exact namesLeader_of_eq rfl rfl rfl rfl hs _
  | requestVote clk req resp =>
      obtain rfl := Option.some.inj hstep
      exact ((raftHandleRequestVote_outcome rfl).namesLeader hs).2 hG
  | appendEntries clk req resp =>
      obtain ⟨r, hr, rfl⟩ := Option.map_eq_some_iff.1 hstep
      exact (raftHandleAppendEntries_outcome hr).namesLeader hG hs
  | appendEntry entry =>
      obtain rfl := Option.some.inj hstep
      exact (raftAppendEntry_touchesLog s.node entry).namesLeader hs _
  | replicateLogs =>
      obtain rfl := Option.some.inj hstep
      exact (raftReplicateLogs_touchesLog s.node).namesLeader hs _
  | clientCommand cmd =>
      obtain ⟨r, hr, rfl⟩ := Option.map_eq_some_iff.1 hstep
      exact (raftHandleClientCommand_touchesLog hr).namesLeader hs _
  | batchThread now =>
      obtain rfl := Option.some.inj hstep
      exact (batchProcessorTick_touchesLog now s.node).namesLeader hs _

/-- A step that leaves the leader right meets the condition, when senders have ids. -/
lemma ledStep_leavesLeader {s' : LedNode} {a : TermAction} (hs : s.NamesLeader)
    (hid : SenderHasId a) (h : ledStep s a = some s') (hs' : s'.NamesLeader) :
    LeavesLeader s a := by
  obtain ⟨node', hstep, rfl⟩ := Option.map_eq_some_iff.1 h
  cases a with
  | startElection clk =>
      obtain rfl := Option.some.inj hstep
      rcases hs' with hzero | ⟨-, hleader⟩ | ⟨-, hfollower⟩
      · exact hzero
      · cases hleader
      · cases hfollower
  | requestVote clk req resp =>
      obtain rfl := Option.some.inj hstep
      exact ((raftHandleRequestVote_outcome rfl).namesLeader hs).1 hs'
  | appendEntries clk req resp =>
      obtain ⟨r, hr, rfl⟩ := Option.map_eq_some_iff.1 hstep
      exact (raftHandleAppendEntries_outcome hr).leavesLeader hid hs'
  | becomeFollower clk term => trivial
  | becomeCandidate clk => trivial
  | becomeLeader => trivial
  | recordVote => trivial
  | appendEntry entry => trivial
  | replicateLogs => trivial
  | clientCommand cmd => trivial
  | batchThread now => trivial

end

/-! ### Runs -/

/-- A reply buffer before a handler has written to it. -/
def appendRespBuffer : RaftMsg RaftAppendEntriesResp where
  bodyLength := 0
  term := 0
  senderNodeId := 0
  rpcType := .respAppendEntries
  data := ⟨false, 0, 0⟩

/-- **`leader_id` names the leader of the current term** in every state of a run whose steps all
meet the condition, and when all senders have ids, in no other run. -/
theorem leader_id_names_leader {nodeId : ℕ} {clk : Clock} {as : List TermAction} {s : LedNode}
    (hrun : run ledStep (.init nodeId clk) as = some s) :
    (Guarded ledStep LeavesLeader (.init nodeId clk) as →
        EveryStep ledStep (fun _ s' => s'.NamesLeader) (.init nodeId clk) as) ∧
      ((∀ a ∈ as, SenderHasId a) →
        EveryStep ledStep (fun _ s' => s'.NamesLeader) (.init nodeId clk) as →
          Guarded ledStep LeavesLeader (.init nodeId clk) as) := by
  have hinit : (LedNode.init nodeId clk).NamesLeader := Or.inl rfl
  constructor
  · exact fun hG => hG.always (fun s a s' hs hG h => ledStep_namesLeader hs hG h) hinit
  · exact fun hids => .of_always
      (fun s a s' hs hid h hs' => ledStep_leavesLeader hs hid h hs') hinit hids hrun

/-- Node `1` hears from the leader of term `1`, steps down from there, stands in term `2` and wins. -/
theorem leader_id_names_leader_elected :
    EveryStep ledStep (fun _ s' => s'.NamesLeader) (.init 1 ⟨0, 0⟩)
      [.appendEntries ⟨0, 0⟩ firstBatchMsg appendRespBuffer, .becomeFollower ⟨0, 0⟩ 1,
        .startElection ⟨0, 0⟩, .becomeLeader] := by
  refine (@leader_id_names_leader 1 ⟨0, 0⟩ [.appendEntries ⟨0, 0⟩ firstBatchMsg appendRespBuffer,
    .becomeFollower ⟨0, 0⟩ 1, .startElection ⟨0, 0⟩, .becomeLeader] _ rfl).1 ?_
  refine ⟨fun _ => ⟨by decide, fun h => absurd h (by decide)⟩, fun s₁ h₁ => ⟨trivial, fun s₂ h₂ => ?_⟩⟩
  obtain rfl := Option.some.inj h₁
  obtain rfl := Option.some.inj h₂
  exact ⟨rfl, fun _ _ => ⟨trivial, fun _ _ => trivial⟩⟩

/-- Node `1` hears from the leader of term `1` and starts an election: it is candidate in term `2`,
and goes on naming node `2`. -/
theorem leader_id_names_old_leader :
    ∃ s, run ledStep (.init 1 ⟨0, 0⟩)
        [.appendEntries ⟨0, 0⟩ firstBatchMsg appendRespBuffer, .startElection ⟨0, 0⟩] = some s ∧
      s.node.leaderId = 2 ∧ s.node.state = .candidate ∧ ¬ s.NamesLeader := by
  refine ⟨_, rfl, rfl, rfl, ?_⟩
  rintro (h | ⟨-, h⟩ | ⟨-, h⟩)
  · exact absurd h (by decide)
  · exact absurd h (by decide)
  · exact absurd h (by decide)

end Oceanliner
