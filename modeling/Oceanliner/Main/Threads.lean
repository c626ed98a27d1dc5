/-
The threads 1, 2, 3 and 5 of `main.c`.

A step of a thread is what it does between two points where another thread can interfere: one
section under the mutex of `raft_state`, one operation on a queue, one message, one write to
the log file, one command on the store.  A step that is not defined is a thread that waits,
or one that a failed assertion or `exit` has stopped.

A write to the log file, `logfile_append_data`, is an `lseek` and three `write`s, for which
`thread_2` and `thread_3` hold no lock.  It is one step here: that the writes of the two can come to
stand in between each other is left out.

Left out are what only `thread_4`, `thread_6` and `thread_7` use (the read batches behind
`_1_to_3`, the refused AppendEntries, heartbeats), the counter `num_cmds`, which starts with
what `malloc` returned and is only printed, and the copy of a value that `thread_5` makes and
does not use.  Where this copy, the `int32_t` in `logfile_append_data` or the reads of `thread_2` stop
the program is said in `Main.Failures`.  Batches carry an identity that the source does not have, to
tell which batch a message is about.
-/
import Oceanliner.KvsCommand
import Oceanliner.KvStore
import Oceanliner.RaftCore.Node

open Bytes

namespace Oceanliner

/-- The identity of a batch: the node whose `thread_1` opened it, and how many it had opened
before. -/
structure BatchId (n : ℕ) where
  origin : Fin n
  serial : ℕ
deriving DecidableEq

/-- `cmd_buffer_t`.  The memory behind the header holds commands, one after the other. -/
structure CmdBuffer (n : ℕ) where
  term : ℕ
  logIndex : ℕ
  commands : List KvsRecord
  id : BatchId n
deriving DecidableEq

/-- The first `cmds_length` bytes behind the header. -/
def CmdBuffer.data {n : ℕ} (b : CmdBuffer n) : List UInt8 := recordBytes b.commands

/-- The field `cmds_length`. -/
def CmdBuffer.cmdsLength {n : ℕ} (b : CmdBuffer n) : ℕ := b.data.length

/-- `sizeof(cmd_buffer_t)`. -/
def sizeofCmdBuffer : ℕ := 40

/-- `sizeof(raft_append_entries_req_t)`. -/
def sizeofRaftAppendEntriesReq : ℕ := 80

/-- The bodies of the messages between nodes; a reply to an AppendEntries also names the batch
it answers, which the source does not send. -/
inductive MessageBody (n : ℕ) where
  | appendEntries (prevLogTerm prevLogIndex leaderCommit : ℕ) (entries : CmdBuffer n)
  | requestVote (lastLogTerm lastLogIndex : ℕ)
  | respAppendEntries (success : Bool) (term logIdx : ℕ) (answers : CmdBuffer n)
  | respRequestVote (voteGranted : Bool)
deriving DecidableEq

/-- A whole message. -/
structure Message (n : ℕ) where
  term : ℕ
  senderNodeId : Fin n
  body : MessageBody n
deriving DecidableEq

/-- `_2_to_3_t`, with the batch that the reply answers. -/
structure AppendOk (n : ℕ) where
  nodeId : Fin n
  term : ℕ
  logIndex : ℕ
  answers : CmdBuffer n
deriving DecidableEq

/-- The fields of `raft_state` that the threads use.  `last_applied_term` and
`last_applied_index` are read and never written. -/
structure RaftVars where
  state : RaftState
  currentTerm : ℕ
  votesReceived : ℕ
  lastAppliedTerm : ℕ
  lastAppliedIndex : ℕ
deriving DecidableEq

/-! ### Datagrams -/

/-- The largest datagram that `thread_1` receives. -/
def maxKvsCmdSize : ℕ := 2 ^ 11

/-- What `recv` returns and the first two assertions on it let through: a command whose length
is that of the datagram, rounded up to a multiple of 8. -/
def IsCommand (bytes : List UInt8) : Prop :=
  bytes.length ≤ maxKvsCmdSize ∧ sizeofKvsCommand ≤ bytes.length ∧
    kvsCommandLen bytes 0 = some (jumpToAlignment bytes.length 8)

instance (bytes : List UInt8) : Decidable (IsCommand bytes) :=
  inferInstanceAs (Decidable (_ ∧ _))

/-- The memory behind a datagram, up to the next multiple of 8. -/
def padding (length : ℕ) (memory : ℕ → UInt8) : List UInt8 :=
  (List.range (jumpToAlignment length 8 - length)).map memory

lemma length_datagram_padding {bytes : List UInt8} (h : IsCommand bytes)
    (memory : ℕ → UInt8) :
    (bytes ++ padding bytes.length memory).length =
      kvsLen (keyLength (bytes ++ padding bytes.length memory) 0)
        (valueLength (bytes ++ padding bytes.length memory) 0) := by
  obtain ⟨hmax, hmin, hlen⟩ := h
  rw [maxKvsCmdSize] at hmax
  have hjump : jumpToAlignment bytes.length 8 = (bytes.length + 7) / 8 * 8 :=
    jumpToAlignment_eight (by omega)
  rw [kvsCommandLen, if_pos (Nat.zero_mod 8), Option.some.injEq] at hlen
  rw [keyLength_append hmin, valueLength_append hmin, hlen, List.length_append, padding,
    List.length_map, List.length_range]
  omega

/-- The command that a datagram becomes in a buffer: the bytes received, and up to the next
multiple of 8 what the memory held before. -/
def paddedDatagram (bytes : List UInt8) (memory : ℕ → UInt8) (h : IsCommand bytes) :
    KvsRecord where
  bytes := bytes ++ padding bytes.length memory
  length_eq := length_datagram_padding h memory

/-! ### The pieces of the threads -/

section Pieces

variable {n : ℕ}

/-- A new write buffer; the read buffer starts as a copy of it. -/
def thread1Open (raft : RaftVars) (id : BatchId n) : CmdBuffer n where
  term := raft.currentTerm
  logIndex := u64 (raft.lastAppliedIndex + 1)
  commands := []
  id := id

/-- Whether `thread_1` puts a command into the read buffer: its type is `CMD_GET`. -/
def isGet (bytes : List UInt8) : Bool := decide (opType bytes 0 = 1)

/-- A buffer with one more command. -/
def CmdBuffer.push (b : CmdBuffer n) (r : KvsRecord) : CmdBuffer n :=
  { b with commands := b.commands ++ [r] }

/-- `thread_1` with a datagram: the write and the read buffer afterwards.  `none` is a failed
assertion. -/
def thread1Admit (w r : CmdBuffer n) (bytes : List UInt8) (memory : ℕ → UInt8) :
    Option (CmdBuffer n × CmdBuffer n) :=
  if h : IsCommand bytes then
    if (if isGet bytes then r else w).cmdsLength ≥ cmdbufSize - 256 then none
    else if isGet bytes then some (w, r.push (paddedDatagram bytes memory h))
    else some (w.push (paddedDatagram bytes memory h), r)
  else none

/-- The buffer is so full that `thread_1` closes the batch. -/
def thread1Full (target : CmdBuffer n) : Bool :=
  decide (target.cmdsLength ≥ cmdbufSize - maxKvsCmdSize - sizeofCmdBuffer - 64)

/-- The check of a message's term in `thread_2`; `none` when the message is outdated. -/
def thread2Term (raft : RaftVars) (term : ℕ) : Option RaftVars :=
  if term > raft.currentTerm then some { raft with currentTerm := term, state := .follower }
  else if term < raft.currentTerm then none
  else some raft

/-- `last_logs_match || is_first_log`. -/
def thread2Accepts (raft : RaftVars) (prevLogTerm prevLogIndex : ℕ) : Bool :=
  (decide (prevLogTerm = raft.lastAppliedTerm) && decide (prevLogIndex = raft.lastAppliedIndex)) ||
    (decide (raft.lastAppliedTerm = 0) && decide (raft.lastAppliedIndex = 0))

/-- The reply of `thread_2` to an AppendEntries. -/
def thread2AppendEntries (self : Fin n) (raft : RaftVars) (prevLogTerm prevLogIndex : ℕ)
    (entries : CmdBuffer n) : Message n where
  term := raft.currentTerm
  senderNodeId := self
  body :=
    if thread2Accepts raft prevLogTerm prevLogIndex then
      .respAppendEntries true prevLogTerm (u64 (prevLogIndex + 1)) entries
    else .respAppendEntries false raft.lastAppliedTerm raft.lastAppliedIndex entries

/-- The reply of `thread_2` to a vote request. -/
def thread2RequestVote (self : Fin n) (raft : RaftVars) (lastLogTerm lastLogIndex : ℕ) :
    Message n where
  term := raft.currentTerm
  senderNodeId := self
  body := .respRequestVote
    (if lastLogTerm < raft.lastAppliedTerm then false
      else if lastLogTerm = raft.lastAppliedTerm then
        decide (¬ lastLogIndex < raft.lastAppliedIndex)
      else true)

/-- `thread_2` counts a reply to a vote request, of the given term. -/
def thread2CountVote (raft : RaftVars) (term : ℕ) (voteGranted : Bool) : RaftVars :=
  if raft.currentTerm = term ∧ voteGranted = true then
    { raft with votesReceived := u32 (raft.votesReceived + 1) }
  else raft

/-- `thread_3` takes an OK for one of the batch it waits for. -/
def thread3Counts (ok : AppendOk n) (w : CmdBuffer n) : Bool :=
  decide (ok.term = w.term) && decide (ok.logIndex = w.logIndex)

/-- The AppendEntries message of `thread_3`. -/
def thread3Message (self : Fin n) (w : CmdBuffer n) (prevLogTerm prevLogIndex : ℕ) :
    Message n where
  term := w.term
  senderNodeId := self
  body := .appendEntries prevLogTerm prevLogIndex (u64 (prevLogIndex + 1)) w

/-- The other nodes, in the order in which `thread_3` sends to them. -/
def peers (self : Fin n) : List (Fin n) := (List.finRange n).filter (· ≠ self)

/-- One command in `thread_5`: the store afterwards and the length of the command.  `none` is
a failed assertion, or the `exit` for a command that is neither SET nor DELETE. -/
def thread5Command {DB : Type} (R : RocksDb DB) (diskMap : DB) (cmdBuffer : CmdBuffer n)
    (cmd : ℕ) : Option (DB × ℕ) :=
  let data := cmdBuffer.data
  if valueLength data cmd ≥ maxValLen ∨ valueLength data cmd ≥ cmdbufSize ∨
      cmdBuffer.cmdsLength - cmd < sizeofKvsCommand then none
  else
    (kvsCommandLen data cmd).bind fun length =>
      (kvsCommandGetKey data cmd).bind fun key =>
        match KvsOp.ofNat? (opType data cmd) with
        | some .delete => some ((kvStoreDelete R diskMap (cString data key)).2, length)
        | some .set =>
            (kvsCommandGetValue cmd).map fun value =>
              ((kvStoreSet R diskMap (cString data key)
                (slice data value (valueLength data cmd))).2, length)
        | _ => none

end Pieces

/-! ### The states of the threads -/

/-- Where `thread_1` stands, with its write and read buffer. -/
inductive Thread1 (n : ℕ) where
  | idle
  | leaderSeen
  | filling (w r : CmdBuffer n)
  | receiving (w r : CmdBuffer n)
  | closing (w r : CmdBuffer n)
  | enqueueing (w r : CmdBuffer n)
deriving DecidableEq

/-- Where `thread_2` stands: with a message whose term it has checked, with a reply it is about
to send (and the batch it has accepted, if it has), with a batch for the log file or for
`thread_5`, or with a majority of votes. -/
inductive Thread2 (n : ℕ) where
  | idle
  | handling (m : Message n)
  | replying (dest : Fin n) (reply : Message n) (accepted : Option (CmdBuffer n))
  | logging (b : CmdBuffer n)
  | enqueueing (b : CmdBuffer n)
  | becomingLeader
deriving DecidableEq

/-- Where `thread_3` stands with its write and read batch: about to read `last_applied_*`,
sending to the nodes that remain, waiting for OKs (with the nodes counted so far and the
batches they answered), writing the log file, or enqueueing for `thread_5`. -/
inductive Thread3 (n : ℕ) where
  | idle
  | building (w r : CmdBuffer n)
  | sending (w r : CmdBuffer n) (prevLogTerm prevLogIndex : ℕ) (remaining : List (Fin n))
  | waiting (w r : CmdBuffer n) (counted : List (Fin n × CmdBuffer n))
  | logging (w : CmdBuffer n)
  | enqueueing (w : CmdBuffer n)
deriving DecidableEq

/-- Where `thread_5` stands in its batch: at the top of its loop, or with a command applied
and not answered yet. -/
inductive Thread5 (n : ℕ) where
  | idle
  | applying (b : CmdBuffer n) (processed : ℕ)
  | answering (b : CmdBuffer n) (processed length : ℕ)
deriving DecidableEq

/-- A node of the cluster.  The last five fields record what has happened: the batches opened,
those `thread_1` has enqueued and the write datagrams it has admitted, the commands `thread_5`
has applied, and those it has answered with status 200. -/
structure Server (n : ℕ) (DB : Type) where
  raft : RaftVars
  thread1 : Thread1 n
  thread2 : Thread2 n
  thread3 : Thread3 n
  thread5 : Thread5 n
  queue13 : List (CmdBuffer n × CmdBuffer n)
  queue23 : List (AppendOk n)
  queue35 : List (CmdBuffer n)
  logFile : List (CmdBuffer n)
  diskMap : DB
  opened : ℕ
  enqueued : List (CmdBuffer n)
  admitted : List (List UInt8)
  applied : List (CmdBuffer n × List UInt8)
  acked : List (CmdBuffer n × List UInt8)

/-! ### The steps of the threads -/

/-- What happens around `thread_1` in a step: time passes, possibly the last of a batch, and
`recv` has nothing, or it returns a datagram, which the bytes in memory follow. -/
inductive Thread1Event where
  | tick (timeUp : Bool)
  | datagram (bytes : List UInt8) (memory : ℕ → UInt8)

section Steps

variable {n : ℕ} {DB : Type}

/-- A message on its way to another node. -/
abbrev Outgoing (n : ℕ) := Option (Fin n × Message n)

/-- A step of `thread_1`. -/
def thread1Step (self : Fin n) (s : Server n DB) : Thread1Event → Option (Server n DB)
  | .tick timeUp =>
      match s.thread1 with
      | .idle =>
          if s.raft.state = .leader then some { s with thread1 := .leaderSeen } else none
      | .leaderSeen =>
          let w := thread1Open s.raft ⟨self, s.opened⟩
          some { s with thread1 := .filling w w, opened := s.opened + 1 }
      | .filling w r =>
          if timeUp = true ∨ s.raft.currentTerm ≠ w.term then
            some { s with thread1 := .closing w r }
          else some { s with thread1 := .receiving w r }
      | .receiving w r => some { s with thread1 := .filling w r }
      | .closing w r =>
          -- a batch of an earlier term is abandoned, an empty one not sent on
          if s.raft.currentTerm ≠ w.term then some { s with thread1 := .idle }
          else if w.cmdsLength = 0 ∧ r.cmdsLength = 0 then some { s with thread1 := .idle }
          else some { s with thread1 := .enqueueing w r }
      | .enqueueing w r =>
          some
            { s with
              thread1 := .idle
              queue13 := s.queue13 ++ [(w, r)]
              enqueued := s.enqueued ++ [w] }
  | .datagram bytes memory =>
      match s.thread1 with
      | .receiving w r =>
          (thread1Admit w r bytes memory).map fun (w', r') =>
            let full := thread1Full (if isGet bytes then r' else w')
            { s with
              thread1 := if full then .closing w' r' else .filling w' r'
              admitted :=
                if isGet bytes then s.admitted
                else s.admitted ++ [bytes ++ padding bytes.length memory] }
      | _ => none

/-- `thread_2` reads a message and checks its term. -/
def thread2Receive (s : Server n DB) (m : Message n) : Option (Server n DB) :=
  match s.thread2 with
  | .idle =>
      match thread2Term s.raft m.term with
      | some raft => some { s with raft := raft, thread2 := .handling m }
      | none => some s
  | _ => none

/-- `thread_2` handles the message it has read. -/
def thread2Handle (self : Fin n) (s : Server n DB) (m : Message n) : Option (Server n DB) :=
  match m.body with
  | .appendEntries prevLogTerm prevLogIndex _ entries =>
      let reply := thread2AppendEntries self s.raft prevLogTerm prevLogIndex entries
      let accepted := if thread2Accepts s.raft prevLogTerm prevLogIndex then some entries else none
      some { s with thread2 := .replying m.senderNodeId reply accepted }
  | .requestVote lastLogTerm lastLogIndex =>
      let reply := thread2RequestVote self s.raft lastLogTerm lastLogIndex
      some { s with thread2 := .replying m.senderNodeId reply none }
  | .respAppendEntries success term logIdx answers =>
      if success then
        some
          { s with
            thread2 := .idle
            queue23 := s.queue23 ++ [⟨m.senderNodeId, term, logIdx, answers⟩] }
      else some { s with thread2 := .idle }
  | .respRequestVote voteGranted =>
      -- the assertion that the node is a candidate
      if s.raft.state ≠ .candidate then none
      else
        let raft := thread2CountVote s.raft m.term voteGranted
        some
          { s with
            raft := raft
            thread2 := if raft.votesReceived > n / 2 then .becomingLeader else .idle }

/-- A step of `thread_2` other than reading a message. -/
def thread2Step (self : Fin n) (s : Server n DB) : Option (Server n DB × Outgoing n) :=
  match s.thread2 with
  | .idle => none
  | .handling m => (thread2Handle self s m).map fun s' => (s', none)
  | .replying dest reply accepted =>
      -- the OK leaves before the batch is written to the log file
      let thread2 :=
        match accepted with
        | some b => .logging b
        | none => .idle
      some ({ s with thread2 := thread2 }, some (dest, reply))
  | .logging b =>
      some ({ s with thread2 := .enqueueing b, logFile := s.logFile ++ [b] }, none)
  | .enqueueing b =>
      -- without waiting for the leader to commit it
      some ({ s with thread2 := .idle, queue35 := s.queue35 ++ [b] }, none)
  | .becomingLeader =>
      some ({ s with thread2 := .idle, raft := { s.raft with state := .leader } }, none)

/-- A step of `thread_3`. -/
def thread3Step (self : Fin n) (s : Server n DB) : Option (Server n DB × Outgoing n) :=
  match s.thread3 with
  | .idle =>
      match s.queue13 with
      | [] => none
      | (w, r) :: rest =>
          -- the two assertions on what `thread_1` has enqueued
          if r.term ≠ w.term ∨
              sizeofCmdBuffer + w.cmdsLength + sizeofRaftAppendEntriesReq > cmdbufSize then none
          else some ({ s with thread3 := .building w r, queue13 := rest }, none)
  | .building w r =>
      let raft := s.raft
      some
        ({ s with
            thread3 := .sending w r raft.lastAppliedTerm raft.lastAppliedIndex (peers self) },
          none)
  | .sending w r _ _ [] => some ({ s with thread3 := .waiting w r [] }, none)
  | .sending w r prevLogTerm prevLogIndex (dest :: rest) =>
      some
        ({ s with thread3 := .sending w r prevLogTerm prevLogIndex rest },
          some (dest, thread3Message self w prevLogTerm prevLogIndex))
  | .waiting w r counted =>
      -- `num_nodes_ok` is one more than the OKs counted
      if 1 + counted.length ≤ n / 2 then
        match s.queue23 with
        | [] => none
        | ok :: rest =>
            if thread3Counts ok w then
              some
                ({ s with
                    thread3 := .waiting w r (counted ++ [(ok.nodeId, ok.answers)])
                    queue23 := rest },
                  none)
            else if ok.term ≤ r.term then
              -- an OK for another batch
              some ({ s with queue23 := rest }, none)
            else none
      else some ({ s with thread3 := .logging w }, none)
  | .logging w =>
      some ({ s with thread3 := .enqueueing w, logFile := s.logFile ++ [w] }, none)
  | .enqueueing w => some ({ s with thread3 := .idle, queue35 := s.queue35 ++ [w] }, none)

/-- A step of `thread_5`. -/
def thread5Step (R : RocksDb DB) (s : Server n DB) : Option (Server n DB) :=
  match s.thread5 with
  | .idle =>
      match s.queue35 with
      | [] => none
      | b :: rest =>
          if b.cmdsLength > cmdbufSize then none
          else some { s with thread5 := .applying b 0, queue35 := rest }
  | .applying b processed =>
      if processed < b.cmdsLength then
        (thread5Command R s.diskMap b processed).map fun (diskMap, length) =>
          { s with
            thread5 := .answering b processed length
            diskMap := diskMap
            applied := s.applied ++ [(b, commandAt b.data processed)] }
      else if processed = b.cmdsLength then some { s with thread5 := .idle }
      else none
  | .answering b processed length =>
      some
        { s with
          thread5 := .applying b (processed + length)
          acked :=
            if s.raft.state = .leader then s.acked ++ [(b, commandAt b.data processed)]
            else s.acked }

/-- A node at the start of its threads. -/
def Server.start (raft : RaftVars) (diskMap : DB) : Server n DB where
  raft := raft
  thread1 := .idle
  thread2 := .idle
  thread3 := .idle
  thread5 := .idle
  queue13 := []
  queue23 := []
  queue35 := []
  logFile := []
  diskMap := diskMap
  opened := 0
  enqueued := []
  admitted := []
  applied := []
  acked := []

end Steps

end Oceanliner
