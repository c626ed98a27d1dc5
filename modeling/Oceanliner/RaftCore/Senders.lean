/-
# The messages that the senders build

`raft_send_request_vote` and `raft_send_append_entries` allocate a message and fill it in through
casts of its address.  The first one casts the address of the message where it means that of its
body, so the log position lands on the length and the term (`request_vote_matches_iff`).  The
second one leaves out the four numbers in front of the first header when it computes the size, and
counts the payload in commands when it looks for the place of the second header, which therefore
always lies outside the message (`append_entries_never_matches`).
-/
import Oceanliner.KvsCommand
import Oceanliner.Lib.Stores
import Oceanliner.Main.Framing
import Oceanliner.RaftCore.OneVote

open Bytes Stores

namespace Oceanliner

/-- The number of a message type. -/
def RaftRpcType.toNat : RaftRpcType → ℕ
  | appendEntries => 0
  | requestVote => 1
  | respAppendEntries => 2
  | respRequestVote => 3
  | heartbeat => 4

/-- The message type a number stands for. -/
def RaftRpcType.ofNat? : ℕ → Option RaftRpcType
  | 0 => some appendEntries
  | 1 => some requestVote
  | 2 => some respAppendEntries
  | 3 => some respRequestVote
  | 4 => some heartbeat
  | _ => none

/-- The fields of a node have the values of their C types. -/
structure RaftNode.InRange (node : RaftNode) : Prop where
  nodeId : node.nodeId < 2 ^ 32
  currentTerm : node.currentTerm < 2 ^ 64
  lastTerm : node.log.lastTerm < 2 ^ 64

/-! ### Reading a message -/

/-- A `raft_msg_t`, with a body that `data` reads. -/
def readRaftMsg {β : Type} (data : Block → β) (m : Block) : Option (RaftMsg β) :=
  (RaftRpcType.ofNat? (read m 24 4)).map fun rpcType =>
    { bodyLength := read m 0 8
      term := read m 8 8
      senderNodeId := read m 16 8
      rpcType := rpcType
      data := data m }

/-- The `raft_request_vote_req_t` behind the header of a message. -/
def readRequestVoteReq (m : Block) : RaftRequestVoteReq where
  lastLogIndex := read m 32 8
  lastLogTerm := read m 40 8

/-- The `raft_append_entries_req_t` behind the header of a message, with `length` bytes of
commands. -/
def readAppendEntriesReq (length : ℕ) (m : Block) : RaftAppendEntriesReq where
  prevLogIndex := read m 32 8
  prevLogTerm := read m 40 8
  leaderCommit := read m 48 8
  nEntries := read m 56 8
  entries :=
    { header := .ofBytes (load m 64 sizeofKvsbHeader)
      data := load m 112 length }

/-! ### Vote requests -/

/-- The stores of `*req = (raft_msg_t) {..}`, which sets the padding to zero. -/
def raftMsgStores (bodyLength term senderNodeId : ℕ) (rpcType : RaftRpcType) :
    List (ℕ × List UInt8) :=
  [(0, toLe 8 bodyLength), (8, toLe 8 term), (16, toLe 8 senderNodeId),
    (24, toLe 4 rpcType.toNat), (28, toLe 4 0)]

/-- `sizeof(raft_request_vote_req_t)`. -/
def sizeofRaftRequestVoteReq : ℕ := 16

/-- The stores of `raft_send_request_vote` to its message.  `req_data` is `req` itself. -/
def raftSendRequestVote (node : RaftNode) : List (ℕ × List UInt8) :=
  raftMsgStores sizeofRaftRequestVoteReq node.currentTerm node.nodeId .requestVote ++
    [(0, toLe 8 node.log.count), (8, toLe 8 node.log.lastTerm)]

/-- What can be read in the message: the log position stands in the place of the length and the
term, and the body is as `malloc` returned it. -/
lemma readRaftMsg_requestVote (m : Block) {node : RaftNode} (h : node.InRange) :
    readRaftMsg readRequestVoteReq (storeAll m (raftSendRequestVote node)) =
      some
        { bodyLength := node.log.count
          term := node.log.lastTerm
          senderNodeId := node.nodeId
          rpcType := .requestVote
          data := readRequestVoteReq m } := by
  have hid := h.nodeId
  have hsender : node.nodeId < 256 ^ 8 := by omega
  have hindex : node.log.count < 256 ^ 8 := by
    have := node.log.count_succ_lt
    omega
  have hterm : node.log.lastTerm < 256 ^ 8 := lt_of_lt_of_eq h.lastTerm (by norm_num)
  have htype : RaftRpcType.requestVote.toNat < 256 ^ 4 := by decide
  simp only [readRaftMsg, readRequestVoteReq, raftSendRequestVote, raftMsgStores, storeAll,
    List.cons_append, List.nil_append, List.foldl_cons, List.foldl_nil]
  simp (disch := omega) only [read_store_toLe_of_disjoint]
  rw [read_store_self _ hsender, read_store_self _ hindex, read_store_self _ hterm,
    read_store_self _ htype]
  rfl

/-- **The encoder of vote requests matches the decoder** only for a log of 16 entries whose last one
is of the current term, and if the memory of the body has held the log position before. -/
theorem request_vote_matches_iff (m : Block) {node : RaftNode} (h : node.InRange) :
    readRaftMsg readRequestVoteReq (storeAll m (raftSendRequestVote node)) =
        some (requestVoteMsg node.currentTerm node.nodeId node.log.count node.log.lastTerm) ↔
      node.log.count = sizeofRaftRequestVoteReq ∧ node.log.lastTerm = node.currentTerm ∧
        readRequestVoteReq m = ⟨node.log.count, node.log.lastTerm⟩ := by
  rw [readRaftMsg_requestVote m h, Option.some.injEq, requestVoteMsg, RaftMsg.mk.injEq]
  simp only [true_and]
  rfl

/-- A candidate of the first term with 16 entries of this term in its log. -/
def sixteenEntries : RaftNode :=
  { raftStartElection ⟨0, 0⟩ (raftInit 1 ⟨0, 0⟩) with
    log :=
      { logInit with
        entries := (List.range 16).map fun i => ⟨1, i + 1, .noop, []⟩
        count_le := by decide } }

/-- Memory that holds the position of that log. -/
def positionBlock : Block := storeAll (fun _ => 0) [(32, toLe 8 16), (40, toLe 8 1)]

/-- Its vote request is decoded as it should be, by chance. -/
theorem request_vote_sixteen :
    readRaftMsg readRequestVoteReq (storeAll positionBlock (raftSendRequestVote sixteenEntries)) =
      some (requestVoteMsg 1 1 16 1) :=
  (request_vote_matches_iff positionBlock
    (⟨by decide, by decide, by decide⟩ : sixteenEntries.InRange)).2
    ⟨by decide, by decide, by decide⟩

/-- The first candidate of a cluster, with an empty log, announces the term `0` and a body without
bytes. -/
theorem request_vote_first_candidate :
    readRaftMsg readRequestVoteReq
        (storeAll (fun _ => 0)
          (raftSendRequestVote (raftStartElection ⟨0, 0⟩ (raftInit 1 ⟨0, 0⟩)))) ≠
      some (requestVoteMsg 1 1 0 0) := by
  rw [readRaftMsg_requestVote _ ⟨by decide, by decide, by decide⟩]
  decide

/-! ### Append requests -/

/-- The header that `raft_send_append_entries` puts in front of the payload and behind it.
`next_index` is an array in the node; without an index it is the address of the array. -/
def appendEntriesHeader (xxh3 : List UInt8 → UInt64 × UInt64) (node : RaftNode)
    (nextIndexAddr entriesLen : ℕ) : KvsbHeader :=
  kvsbHeaderCalcChecksum xxh3
    { term := node.currentTerm
      numCommands := 0
      logIndex := nextIndexAddr
      dataLength := entriesLen
      headerChecksum := (0, 0) }

/-- The offset of `req_data->entries.data`. -/
def entriesOffset : ℕ := 112

/-- `msg_body_len`. -/
def msgBodyLen (entriesLen : ℕ) : ℕ := u64 (entriesLen + 2 * sizeofKvsbHeader)

/-- The bytes that `raft_send_append_entries` asks `malloc` for. -/
def appendEntriesSize (entriesLen : ℕ) : ℕ := u64 (msgBodyLen entriesLen + sizeofRaftMsg)

/-- `raft_send_append_entries`: the node afterwards, and the stores to the message.  The address of
`next_index` stands where its value for the target is meant. -/
def raftSendAppendEntries (xxh3 : List UInt8 → UInt64 × UInt64) (nextIndexAddr : ℕ)
    (node : RaftNode) (targetId : Fin maxNodes) (entries : List UInt8) :
    RaftNode × List (ℕ × List UInt8) :=
  let header := appendEntriesHeader xxh3 node nextIndexAddr entries.length
  ({ node with
      nextIndex := Function.update node.nextIndex targetId
        (u64 (node.nextIndex targetId + entries.length)) },
    raftMsgStores (msgBodyLen entries.length) node.currentTerm node.nodeId .appendEntries ++
      [(40, toLe 8 (if node.currentTerm = 0 then 0 else node.currentTerm - 1)),
        (32, toLe 8 (nextIndexAddr + (2 ^ 64 - 1))),
        (48, toLe 8 node.commitIndex),
        (64, header.bytes),
        (entriesOffset + sizeofKvsCommand * entries.length, header.bytes),
        (entriesOffset, entries)])

/-- The term of the entry with an index, `0` for the index `0`. -/
def RaftLog.termAt (log : RaftLog) : ℕ → Option ℕ
  | 0 => some 0
  | i + 1 => (log.entries[i]?).map RaftEntry.term

/-- What `raft_handle_append_entries` is meant to find in a message `m` for the target: the log
position in front of its next entry, and the payload between two copies of a valid header, which
end with the body. -/
structure AppendEntriesMatches (xxh3 : List UInt8 → UInt64 × UInt64) (node : RaftNode)
    (targetId : Fin maxNodes) (entries : List UInt8) (m : Block) : Prop where
  msg : (readRaftMsg (readAppendEntriesReq entries.length) m).map (fun msg =>
      (msg.rpcType, msg.term, msg.senderNodeId, msg.bodyLength + sizeofRaftMsg)) =
    some (.appendEntries, node.currentTerm, node.nodeId, appendEntriesSize entries.length)
  prevLogIndex : (readAppendEntriesReq entries.length m).prevLogIndex =
    node.nextIndex targetId - 1
  prevLogTerm : some (readAppendEntriesReq entries.length m).prevLogTerm =
    node.log.termAt (node.nextIndex targetId - 1)
  leaderCommit : (readAppendEntriesReq entries.length m).leaderCommit = node.commitIndex
  data : (readAppendEntriesReq entries.length m).entries.data = entries
  dataLength : (readAppendEntriesReq entries.length m).entries.header.dataLength = entries.length
  checksum : kvsbHeaderValidateChecksum xxh3
    (readAppendEntriesReq entries.length m).entries.header = true
  secondHeader : load m (entriesOffset + entries.length) sizeofKvsbHeader =
    load m 64 sizeofKvsbHeader

variable (xxh3 : List UInt8 → UInt64 × UInt64) (nextIndexAddr : ℕ) (m : Block) (node : RaftNode)
  (targetId : Fin maxNodes) (entries : List UInt8)

/-- The second header is stored behind the end of the message, whatever the payload. -/
lemma not_within_appendEntries :
    ¬ Within (appendEntriesSize entries.length)
      (raftSendAppendEntries xxh3 nextIndexAddr node targetId entries).2 := by
  intro hwithin
  have hheader := hwithin
    (entriesOffset + sizeofKvsCommand * entries.length,
      (appendEntriesHeader xxh3 node nextIndexAddr entries.length).bytes)
    (by simp [raftSendAppendEntries])
  have hsize : appendEntriesSize entries.length ≤ msgBodyLen entries.length + sizeofRaftMsg :=
    Nat.mod_le _ _
  have hbody : msgBodyLen entries.length ≤ entries.length + 2 * sizeofKvsbHeader :=
    Nat.mod_le _ _
  rw [KvsbHeader.length_bytes] at hheader
  simp only [entriesOffset, sizeofKvsCommand, sizeofKvsbHeader, sizeofRaftMsg] at *
  omega

/-- What can be read of the log position and of the commit index: the first is an address, the
second the term before the current one. -/
lemma readAppendEntriesReq_sent (hterm : node.currentTerm < 2 ^ 64)
    (hcommit : node.commitIndex < 2 ^ 64) :
    let req := readAppendEntriesReq entries.length
      (storeAll m (raftSendAppendEntries xxh3 nextIndexAddr node targetId entries).2)
    req.prevLogIndex = u64 (nextIndexAddr + (2 ^ 64 - 1)) ∧
      req.prevLogTerm = node.currentTerm - 1 ∧ req.leaderCommit = node.commitIndex := by
  have hprev : (if node.currentTerm = 0 then 0 else node.currentTerm - 1) =
      node.currentTerm - 1 := by
    split <;> omega
  simp only [readAppendEntriesReq, raftSendAppendEntries, raftMsgStores, storeAll, hprev, entriesOffset,
    List.cons_append, List.nil_append, List.foldl_cons, List.foldl_nil]
  simp (disch := omega) only [read_store_of_disjoint, read_store_toLe_of_disjoint]
  rw [read_store, read_store, read_store]
  norm_num [u64]
  omega

/-- **The encoder of append requests never matches the decoder**: whatever the leader, the target
and the payload, something is stored outside the message. -/
theorem append_entries_never_matches :
    ¬ (Within (appendEntriesSize entries.length)
          (raftSendAppendEntries xxh3 nextIndexAddr node targetId entries).2 ∧
        AppendEntriesMatches xxh3 node targetId entries
          (storeAll m (raftSendAppendEntries xxh3 nextIndexAddr node targetId entries).2)) :=
  fun h => not_within_appendEntries xxh3 nextIndexAddr node targetId entries h.1

/-- The first leader of a cluster, with an empty log. -/
def emptyLeader : RaftNode := raftBecomeLeader (raftBecomeCandidate ⟨0, 0⟩ (raftInit 1 ⟨0, 0⟩))

/-- If its array lies at the address `4096`, it sends the position `4095`, and not the position `0`
in front of the target's next entry. -/
theorem append_entries_first_leader :
    ¬ (Within (appendEntriesSize 0)
          (raftSendAppendEntries (fun _ => (0, 0)) 4096 emptyLeader 2 []).2 ∧
        AppendEntriesMatches (fun _ => (0, 0)) emptyLeader 2 [] (storeAll (fun _ => 0)
          (raftSendAppendEntries (fun _ => (0, 0)) 4096 emptyLeader 2 []).2)) := by
  rintro ⟨-, h⟩
  have hsent := readAppendEntriesReq_sent (fun _ => (0, 0)) 4096 (fun _ => 0) emptyLeader 2 []
    (by decide) (by decide)
  have hindex : u64 (4096 + (2 ^ 64 - 1)) = 0 := hsent.1.symm.trans h.prevLogIndex
  exact absurd hindex (by decide)

end Oceanliner
