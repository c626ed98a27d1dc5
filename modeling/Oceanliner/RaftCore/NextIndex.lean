/-
# The next entries for the other nodes

A leader keeps for every other node the index of the next entry to send, which is at most one
beyond its log.  The operations on the log move it forward one entry at a time and stop there
(`Advances`), while `raft_send_append_entries` adds the length of the payload in bytes.  So the
indices stay within the log exactly as long as no message to another node has more bytes than there
are entries left (`next_index_within_log`).
-/
import Oceanliner.RaftCore.Senders
import Oceanliner.RaftCore.Terms

open Transition

namespace Oceanliner

/-- The operations of a node, and the sending of entries. -/
inductive ReplicationAction where
  | operation (a : TermAction)
  | sendAppendEntries (targetId : Fin maxNodes) (entries : List UInt8)

/-- One step. -/
def replicationStep (xxh3 : List UInt8 → UInt64 × UInt64) (nextIndexAddr : ℕ) (node : RaftNode) :
    ReplicationAction → Option RaftNode
  | .operation a => termStep node a
  | .sendAppendEntries targetId entries =>
      some (raftSendAppendEntries xxh3 nextIndexAddr node targetId entries).1

/-- What the leader knows of each of the other nodes lies within its log. -/
def IndicesWithin (node : RaftNode) : Prop :=
  ∀ i : Fin maxNodes, i.val ≠ node.nodeId →
    node.matchIndex i < node.nextIndex i ∧ 1 ≤ node.nextIndex i ∧
      node.nextIndex i ≤ node.log.count + 1

/-- A payload for another node has at most as many bytes as there are entries that have not been
sent to it. -/
def FitsLog (node : RaftNode) : ReplicationAction → Prop
  | .operation _ => True
  | .sendAppendEntries targetId entries => targetId.val ≠ node.nodeId →
      node.nextIndex targetId + entries.length ≤ node.log.count + 1

/-- A payload is an object in memory. -/
def PayloadInMemory : ReplicationAction → Prop
  | .operation _ => True
  | .sendAppendEntries _ entries => entries.length < 2 ^ 63

/-! ### The operations of a node -/

/-- Of what concerns the other nodes, an operation moves at most the next entries, forward and
within the log. -/
structure Advances (node node' : RaftNode) : Prop where
  nodeId_eq : node'.nodeId = node.nodeId
  matchIndex_eq : node'.matchIndex = node.matchIndex
  count_le : node.log.count ≤ node'.log.count
  nextIndex : ∀ i, node'.nextIndex i = node.nextIndex i ∨
    (node.nextIndex i ≤ node'.nextIndex i ∧ node'.nextIndex i ≤ node'.log.count + 1)

lemma Advances.of_eq {node node' : RaftNode} (hid : node'.nodeId = node.nodeId)
    (hmatch : node'.matchIndex = node.matchIndex) (hlog : node'.log = node.log)
    (hnext : node'.nextIndex = node.nextIndex) : Advances node node' where
  nodeId_eq := hid
  matchIndex_eq := hmatch
  count_le := by rw [hlog]
  nextIndex := fun i => Or.inl (by rw [hnext])

lemma Advances.trans {node₁ node₂ node₃ : RaftNode} (h : Advances node₁ node₂)
    (h' : Advances node₂ node₃) : Advances node₁ node₃ where
  nodeId_eq := h'.nodeId_eq.trans h.nodeId_eq
  matchIndex_eq := h'.matchIndex_eq.trans h.matchIndex_eq
  count_le := h.count_le.trans h'.count_le
  nextIndex := fun i => by
    have hcount := h'.count_le
    rcases h.nextIndex i with h₁ | h₁ <;> rcases h'.nextIndex i with h₂ | h₂ <;> omega

lemma raftAppendEntry_advances (node : RaftNode) (entry : RaftEntry) :
    Advances node ((raftAppendEntry node entry).getD node) := by
  cases happ : raftAppendEntry node entry with
  | none => exact .of_eq rfl rfl rfl rfl
  | some node' =>
      obtain ⟨log, rfl, hlog⟩ := raftAppendEntry_spec happ
      refine ⟨rfl, rfl, ?_, fun i => Or.inl rfl⟩
      show node.log.entries.length ≤ log.entries.length
      rw [hlog, List.length_append]
      exact Nat.le_add_right _ _

lemma raftReplicateLogs_advances (node : RaftNode) : Advances node (raftReplicateLogs node) := by
  rw [raftReplicateLogs]
  split
  · exact .of_eq rfl rfl rfl rfl
  · refine ⟨rfl, rfl, le_rfl, fun i => ?_⟩
    simp only
    split
    · exact Or.inl rfl
    · split
      · right
        omega
      · exact Or.inl rfl

lemma processRaftBatch_advances (batch : CommandBatch) (node : RaftNode) :
    Advances node (processRaftBatch batch node) := by
  rw [processRaftBatch]
  split
  · exact (raftAppendEntry_advances _ _).trans (raftReplicateLogs_advances _)
  · exact raftAppendEntry_advances _ _

/-- A new batcher changes nothing for the other nodes. -/
lemma advances_batcher (node : RaftNode) (batcher : CommandBatcher) :
    Advances node { node with commandBatcher := batcher } :=
  .of_eq rfl rfl rfl rfl

lemma batchProcessorTick_advances (now : ℕ) (node : RaftNode) :
    Advances node (batchProcessorTick now node) := by
  rw [batchProcessorTick, processTaken]
  split
  · exact (advances_batcher node _).trans (processRaftBatch_advances _ _)
  · exact advances_batcher node _

lemma raftHandleClientCommand_advances {node node' : RaftNode} {cmd : KvsRecord} {r : ℤ}
    (h : raftHandleClientCommand node cmd = some (r, node')) : Advances node node' := by
  unfold raftHandleClientCommand at h
  split at h
  · obtain ⟨rfl, rfl⟩ := Prod.mk.injEq .. ▸ Option.some.inj h
    exact .of_eq rfl rfl rfl rfl
  · obtain ⟨cmdSize, -, hr⟩ := Option.map_eq_some_iff.1 h
    simp only at hr
    split at hr
    · obtain ⟨-, rfl⟩ := Prod.mk.injEq .. ▸ hr
      exact advances_batcher node _
    · obtain ⟨-, rfl⟩ := Prod.mk.injEq .. ▸ hr
      exact (advances_batcher node _).trans
        ((raftAppendEntry_advances _ _).trans (raftReplicateLogs_advances _))

lemma RequestVoteOutcome.advances {clk : Clock} {node node' : RaftNode} {granted : Bool}
    {req : RaftMsg RaftRequestVoteReq} (h : RequestVoteOutcome clk node req node' granted) :
    Advances node node' := by
  cases h <;> exact .of_eq rfl rfl rfl rfl

lemma AppendEntriesOutcome.advances {clk : Clock} {node node' : RaftNode}
    {req : RaftMsg RaftAppendEntriesReq} (h : AppendEntriesOutcome clk node req node') :
    Advances node node' := by
  cases h <;> exact .of_eq rfl rfl rfl rfl

lemma Advances.indicesWithin {node node' : RaftNode} (h : Advances node node')
    (hs : IndicesWithin node) : IndicesWithin node' := by
  intro i hi
  rw [h.nodeId_eq] at hi
  rw [h.matchIndex_eq]
  have hcount := h.count_le
  have hnode := hs i hi
  rcases h.nextIndex i with hnext | hnext <;> omega

lemma indicesWithin_becomeLeader (node : RaftNode) : IndicesWithin (raftBecomeLeader node) := by
  intro i hi
  have hcount := node.log.count_succ_lt
  simp only [raftBecomeLeader, u64_of_lt (lt_trans hcount (by norm_num))]
  omega

/-- Every operation keeps the indices within the log. -/
lemma termStep_indicesWithin {node node' : RaftNode} {a : TermAction} (hs : IndicesWithin node)
    (h : termStep node a = some node') : IndicesWithin node' := by
  cases a with
  | becomeFollower clk term =>
      obtain ⟨batcher, rfl⟩ := raftBecomeFollower_eq h
      exact (Advances.of_eq rfl rfl rfl rfl).indicesWithin hs
  | becomeCandidate clk =>
      obtain rfl := Option.some.inj h
      exact (Advances.of_eq rfl rfl rfl rfl).indicesWithin hs
  | startElection clk =>
      obtain rfl := Option.some.inj h
      exact (Advances.of_eq rfl rfl rfl rfl).indicesWithin hs
  | becomeLeader =>
      obtain rfl := Option.some.inj h
      exact indicesWithin_becomeLeader node
  | recordVote =>
      obtain rfl := Option.some.inj h
      rw [raftRecordVote]
      split <;> exact (Advances.of_eq rfl rfl rfl rfl).indicesWithin hs
  | requestVote clk req resp =>
      obtain rfl := Option.some.inj h
      exact (raftHandleRequestVote_outcome rfl).advances.indicesWithin hs
  | appendEntries clk req resp =>
      obtain ⟨r, hr, rfl⟩ := Option.map_eq_some_iff.1 h
      exact (raftHandleAppendEntries_outcome hr).advances.indicesWithin hs
  | appendEntry entry =>
      obtain rfl := Option.some.inj h
      exact (raftAppendEntry_advances node entry).indicesWithin hs
  | replicateLogs =>
      obtain rfl := Option.some.inj h
      exact (raftReplicateLogs_advances node).indicesWithin hs
  | clientCommand cmd =>
      obtain ⟨r, hr, rfl⟩ := Option.map_eq_some_iff.1 h
      exact (raftHandleClientCommand_advances hr).indicesWithin hs
  | batchThread now =>
      obtain rfl := Option.some.inj h
      exact (batchProcessorTick_advances now node).indicesWithin hs

/-! ### Sending entries -/

section

variable (xxh3 : List UInt8 → UInt64 × UInt64) (nextIndexAddr : ℕ)

/-- The next entry for the target afterwards; all others stay. -/
lemma raftSendAppendEntries_nextIndex (node : RaftNode) (targetId i : Fin maxNodes)
    (entries : List UInt8) :
    (raftSendAppendEntries xxh3 nextIndexAddr node targetId entries).1.nextIndex i =
      if i = targetId then u64 (node.nextIndex targetId + entries.length) else node.nextIndex i :=
  Function.update_apply _ _ _ _

lemma raftSendAppendEntries_indicesWithin {node : RaftNode} {targetId : Fin maxNodes}
    {entries : List UInt8} (hs : IndicesWithin node)
    (hfits : FitsLog node (.sendAppendEntries targetId entries)) :
    IndicesWithin (raftSendAppendEntries xxh3 nextIndexAddr node targetId entries).1 := by
  intro i hi
  have hnode := hs i hi
  have hcount := node.log.count_succ_lt
  rw [raftSendAppendEntries_nextIndex]
  show node.matchIndex i < _ ∧ _ ∧ _ ≤ node.log.count + 1
  split
  · rename_i heq
    subst heq
    have hle := hfits hi
    rw [u64_of_lt (by omega)]
    omega
  · exact hnode

/-- A payload that leaves the next entries within the log fits the log. -/
lemma fitsLog_of_indicesWithin {node : RaftNode} {targetId : Fin maxNodes} {entries : List UInt8}
    (hs : IndicesWithin node) (hlen : entries.length < 2 ^ 63)
    (hs' : IndicesWithin (raftSendAppendEntries xxh3 nextIndexAddr node targetId entries).1) :
    FitsLog node (.sendAppendEntries targetId entries) := by
  intro htarget
  have hnode := hs targetId htarget
  have hcount := node.log.count_succ_lt
  obtain ⟨-, -, hle⟩ := hs' targetId htarget
  rw [raftSendAppendEntries_nextIndex, if_pos rfl, u64_of_lt (by omega)] at hle
  exact hle

lemma replicationStep_indicesWithin {node node' : RaftNode} {a : ReplicationAction}
    (hs : IndicesWithin node) (hG : FitsLog node a)
    (h : replicationStep xxh3 nextIndexAddr node a = some node') : IndicesWithin node' := by
  cases a with
  | operation a => exact termStep_indicesWithin hs h
  | sendAppendEntries targetId entries =>
      obtain rfl := Option.some.inj h
      exact raftSendAppendEntries_indicesWithin xxh3 nextIndexAddr hs hG

lemma replicationStep_fitsLog {node node' : RaftNode} {a : ReplicationAction}
    (hs : IndicesWithin node) (hlen : PayloadInMemory a)
    (h : replicationStep xxh3 nextIndexAddr node a = some node') (hs' : IndicesWithin node') :
    FitsLog node a := by
  cases a with
  | operation a => trivial
  | sendAppendEntries targetId entries =>
      obtain rfl := Option.some.inj h
      exact fitsLog_of_indicesWithin xxh3 nextIndexAddr hs hlen hs'

lemma indicesWithin_init (nodeId : ℕ) (clk : Clock) : IndicesWithin (raftInit nodeId clk) :=
  fun _ _ => ⟨Nat.one_pos, le_rfl, le_rfl⟩

/-! ### Runs -/

/-- **The next entries for the other nodes lie within the log** in every state of a run whose
payloads for other nodes all fit the log, counted in bytes, and when payloads are objects in memory,
in no other run. -/
theorem next_index_within_log {nodeId : ℕ} {clk : Clock} {as : List ReplicationAction}
    {node : RaftNode}
    (hrun : run (replicationStep xxh3 nextIndexAddr) (raftInit nodeId clk) as = some node) :
    (Guarded (replicationStep xxh3 nextIndexAddr) FitsLog (raftInit nodeId clk) as →
        EveryStep (replicationStep xxh3 nextIndexAddr) (fun _ n => IndicesWithin n)
          (raftInit nodeId clk) as) ∧
      ((∀ a ∈ as, PayloadInMemory a) →
        EveryStep (replicationStep xxh3 nextIndexAddr) (fun _ n => IndicesWithin n)
            (raftInit nodeId clk) as →
          Guarded (replicationStep xxh3 nextIndexAddr) FitsLog (raftInit nodeId clk) as) := by
  have hinit := indicesWithin_init nodeId clk
  constructor
  · exact fun hG => hG.always
      (fun n a n' hs hG h => replicationStep_indicesWithin xxh3 nextIndexAddr hs hG h) hinit
  · exact fun hlen => .of_always
      (fun n a n' hs hlen h hs' => replicationStep_fitsLog xxh3 nextIndexAddr hs hlen h hs') hinit
      hlen hrun

end

/-- A leader logs one entry, and one byte is sent to node `2`. -/
theorem next_index_within_log_one_byte :
    EveryStep (replicationStep (fun _ => (0, 0)) 4096) (fun _ n => IndicesWithin n)
      (raftInit 1 ⟨0, 0⟩)
      [.operation (.becomeCandidate ⟨0, 0⟩), .operation .becomeLeader,
        .operation (.appendEntry ⟨1, 0, .noop, []⟩), .sendAppendEntries 2 [0]] := by
  refine (@next_index_within_log (fun _ => (0, 0)) 4096 1 ⟨0, 0⟩ [
    .operation (.becomeCandidate ⟨0, 0⟩), .operation .becomeLeader,
    .operation (.appendEntry ⟨1, 0, .noop, []⟩), .sendAppendEntries 2 [0]] _ rfl).1 ?_
  refine ⟨trivial, fun n₁ h₁ => ⟨trivial, fun n₂ h₂ => ⟨trivial, fun n₃ h₃ => ⟨?_, fun _ _ => trivial⟩⟩⟩⟩
  obtain rfl := Option.some.inj h₁
  obtain rfl := Option.some.inj h₂
  obtain rfl := Option.some.inj h₃
  exact fun _ => by decide

/-- With an empty log, two bytes for node `2` move its next entry from `1` to `3`. -/
theorem next_index_beyond_log :
    ∃ node, run (replicationStep (fun _ => (0, 0)) 4096) (raftInit 1 ⟨0, 0⟩)
        [.operation (.becomeCandidate ⟨0, 0⟩), .operation .becomeLeader,
          .sendAppendEntries 2 [0, 0]] = some node ∧
      node.log.count = 0 ∧ node.nextIndex 2 = 3 ∧ ¬ IndicesWithin node := by
  refine ⟨_, rfl, rfl, rfl, fun h => ?_⟩
  have hle : 3 ≤ 0 + 1 := (h 2 (by decide)).2.2
  exact absurd hle (by decide)

end Oceanliner
