/-
# The buffers of a process

The threads of `main.c` pass batches to each other as pointers.  `thread_1` allocates two buffers
for a batch; `thread_2` reads every message into one buffer, which it gives away with the batch in
it when it accepts one; `thread_3` allocates a buffer for the message it sends.  Whoever is done
with a batch frees what its field `data_to_free` says, which for a batch that has come in a message
is not the batch itself but the message around it.

`Process` is a node with its threads 1 to 5, in which a batch is a value.  `HeapNode` is the same
node with the buffers on a heap, in which every access to a batch goes through its pointer.  A step
of `HeapNode` that would use or free a buffer which is not live is not defined.

In a message the field `data_to_free` of the batch is an address in the memory of its sender.
Messages come in whole and well formed: what the field `cmds_length` of a batch says is what
stands behind it in the message.  Left out are the values that `kv_store_get` allocates, and the
copies in the queues.
-/
import Oceanliner.Lib.Memory
import Oceanliner.Main.ReadPath

namespace Oceanliner

variable {n : ℕ} {DB : Type}

/-! ### A process in which batches are values -/

/-- The threads 1 to 5 of a node, and the messages they have sent, each with its receiver. -/
structure Process (n : ℕ) (DB : Type) where
  node : LeaderNode n DB
  sent : List (Fin n × Message n)

/-- A process whose threads have just started. -/
def Process.start (raft : RaftVars) (diskMap : DB) : Process n DB := ⟨.start raft diskMap, []⟩

/-- A step of a process: one of its threads takes a step, `thread_2` reads a message, or the node
becomes a candidate. -/
inductive ProcessAction (n : ℕ) where
  | thread1 (event : Thread1Event)
  | receive (m : Message n)
  | thread2
  | thread3
  | thread4
  | thread5
  | candidate

/-- The messages sent after a step that may send one. -/
def sentAfter (sent : List (Fin n × Message n)) : Outgoing n → List (Fin n × Message n)
  | none => sent
  | some out => sent ++ [out]

/-- What `thread_3` sends in a step. -/
def thread3Sends (self : Fin n) (s : Server n DB) : Outgoing n :=
  match s.thread3 with
  | .sending w _ prevLogTerm prevLogIndex (dest :: _) =>
      some (dest, thread3Message self w prevLogTerm prevLogIndex)
  | _ => none

/-- A step of a process. -/
def processStep (R : RocksDb DB) (self : Fin n) (s : Process n DB) :
    ProcessAction n → Option (Process n DB)
  | .thread1 event =>
      (leaderStep R self s.node (.thread1 event)).map fun node => { s with node := node }
  | .receive m =>
      (thread2Receive s.node.server m).map fun server =>
        { s with node := { s.node with server := server } }
  | .thread2 =>
      (thread2Step self s.node.server).map fun (server, out) =>
        ⟨{ s.node with server := server }, sentAfter s.sent out⟩
  | .thread3 =>
      (leaderThread3Step self s.node).map fun node =>
        ⟨node, sentAfter s.sent (thread3Sends self s.node.server)⟩
  | .thread4 => (thread4Step R s.node).map fun node => { s with node := node }
  | .thread5 =>
      (thread5Step R s.node.server).map fun server =>
        { s with node := { s.node with server := server } }
  | .candidate =>
      let raft := becomeCandidate s.node.server.raft
      some { s with node := { s.node with server := { s.node.server with raft := raft } } }

/-! ### Buffers -/

/-- What a buffer holds: nothing yet, a batch with its field `data_to_free`, or a message with that
field of the batch in it. -/
inductive HeapBlock (n : ℕ) where
  | raw
  | cmdBuffer (b : CmdBuffer n) (dataToFree : ℕ)
  | raftMsg (m : Message n) (dataToFree : ℕ)

/-- The batch in a buffer, with its field `data_to_free`. -/
def HeapBlock.entries : HeapBlock n → Option (CmdBuffer n × ℕ)
  | .cmdBuffer b dataToFree => some (b, dataToFree)
  | .raftMsg ⟨_, _, .appendEntries _ _ _ b⟩ dataToFree => some (b, dataToFree)
  | _ => none

/-- The buffer after a write to the field `data_to_free`. -/
def HeapBlock.setDataToFree (p : ℕ) : HeapBlock n → HeapBlock n
  | .raw => .raw
  | .cmdBuffer b _ => .cmdBuffer b p
  | .raftMsg m _ => .raftMsg m p

/-- The buffers of a process. -/
abbrev Heap (n : ℕ) := Memory (HeapBlock n)

/-- The batch that a pointer refers to, with its field `data_to_free`. -/
def loadBuffer (m : Heap n) (p : ℕ) : Option (CmdBuffer n × ℕ) := (m.cell p).bind HeapBlock.entries

/-- A write to the field `data_to_free` of a batch. -/
def setDataToFree (m : Heap n) (p dataToFree : ℕ) : Option (Heap n) :=
  (m.cell p).bind fun block => m.store p (block.setDataToFree dataToFree)

/-- A write to the commands of a batch. -/
def storeBuffer (m : Heap n) (p : ℕ) (b : CmdBuffer n) : Option (Heap n) :=
  (loadBuffer m p).bind fun (_, dataToFree) => m.store p (.cmdBuffer b dataToFree)

/-- `free(cmd_buffer->data_to_free)`. -/
def freeBuffer (m : Heap n) (p : ℕ) : Option (Heap n) :=
  (loadBuffer m p).bind fun (_, dataToFree) => m.free (some dataToFree)

/-- `thread_1` frees the buffers of a batch that it abandons. -/
def freeBuffers (m : Heap n) (w r : ℕ) : Option (Heap n) :=
  (freeBuffer m w).bind fun m' => freeBuffer m' r

/-- `thread_1` allocates the buffers of a batch.  The read buffer is a copy of the write buffer, up
to the field `data_to_free`. -/
def allocBuffers (m : Heap n) (b : CmdBuffer n) : Option (ℕ × ℕ × Heap n) :=
  let (w, m₁) := m.malloc .raw
  let (r, m₂) := m₁.malloc .raw
  (m₂.store w (.cmdBuffer b w)).bind fun m₃ =>
    (m₃.cell w).bind fun block =>
      (m₃.store r block).bind fun m₄ => (setDataToFree m₄ r r).map fun m₅ => (w, r, m₅)

/-! ### A process with its buffers -/

/-- `Thread1` with pointers. -/
inductive HeapThread1 where
  | idle
  | leaderSeen
  | filling (w r : ℕ)
  | receiving (w r : ℕ)
  | closing (w r : ℕ)
  | enqueueing (w r : ℕ)

/-- `Thread2` with pointers; the message it handles is in its own buffer. -/
inductive HeapThread2 (n : ℕ) where
  | idle
  | handling
  | replying (dest : Fin n) (reply : Message n) (accepted : Bool)
  | logging (cmdBuffer : ℕ)
  | enqueueing (cmdBuffer : ℕ)
  | becomingLeader

/-- `Thread3` with pointers, its message among them, and with the read batch up to the end. -/
inductive HeapThread3 (n : ℕ) where
  | idle
  | building (w r : ℕ)
  | sending (w r msg : ℕ) (remaining : List (Fin n))
  | waiting (w r : ℕ) (counted : ℕ)
  | logging (w r : ℕ)
  | enqueueingRead (w r : ℕ)
  | enqueueingWrite (w : ℕ)

/-- `Thread4` with pointers. -/
inductive HeapThread4 where
  | idle
  | reading (cmdBuffer processed : ℕ)
  | answering (cmdBuffer processed length : ℕ) (result : Option (List UInt8) × ℤ)

/-- `Thread5` with pointers. -/
inductive HeapThread5 where
  | idle
  | applying (cmdBuffer processed : ℕ)
  | answering (cmdBuffer processed length : ℕ)

/-- What a process has that is not a batch: the variables of the threads, the store, the log file,
and what it has sent. -/
structure ProcessVars (n : ℕ) (DB : Type) where
  raft : RaftVars
  queue23 : List (AppendOk n)
  logFile : List (CmdBuffer n)
  diskMap : DB
  opened : ℕ
  sent : List (Fin n × Message n)

/-- A process with its buffers.  `msgBuffer` is the buffer of `thread_2`; `leaked` are the buffers
to which nobody has a pointer any more. -/
structure HeapNode (n : ℕ) (DB : Type) where
  vars : ProcessVars n DB
  memory : Heap n
  thread1 : HeapThread1
  thread2 : HeapThread2 n
  msgBuffer : ℕ
  thread3 : HeapThread3 n
  thread4 : HeapThread4
  thread5 : HeapThread5
  queue13 : List (ℕ × ℕ)
  queue34 : List ℕ
  queue35 : List ℕ
  leaked : List ℕ

/-- A process whose threads have just started; `thread_2` has allocated its buffer. -/
def HeapNode.start (raft : RaftVars) (diskMap : DB) : HeapNode n DB where
  vars := ⟨raft, [], [], diskMap, 0, []⟩
  memory := ((Memory.empty : Heap n).malloc .raw).2
  thread1 := .idle
  thread2 := .idle
  msgBuffer := ((Memory.empty : Heap n).malloc .raw).1
  thread3 := .idle
  thread4 := .idle
  thread5 := .idle
  queue13 := []
  queue34 := []
  queue35 := []
  leaked := []

/-- A step of a process with its buffers.  A message comes with the field `data_to_free` of the
batch in it. -/
inductive HeapAction (n : ℕ) where
  | thread1 (event : Thread1Event)
  | receive (m : Message n) (dataToFree : ℕ)
  | thread2
  | thread3
  | thread4
  | thread5
  | candidate

/-- The same step of a process in which batches are values. -/
def HeapAction.toProcess : HeapAction n → ProcessAction n
  | .thread1 event => .thread1 event
  | .receive m _ => .receive m
  | .thread2 => .thread2
  | .thread3 => .thread3
  | .thread4 => .thread4
  | .thread5 => .thread5
  | .candidate => .candidate

/-! ### The steps of the threads -/

/-- A step of `thread_1`. -/
def heapThread1Step (self : Fin n) (s : HeapNode n DB) : Thread1Event → Option (HeapNode n DB)
  | .tick timeUp =>
      match s.thread1 with
      | .idle =>
          if s.vars.raft.state = .leader then some { s with thread1 := .leaderSeen } else none
      | .leaderSeen =>
          (allocBuffers s.memory (thread1Open s.vars.raft ⟨self, s.vars.opened⟩)).map
            fun (w, r, memory) =>
              { s with
                memory := memory
                thread1 := .filling w r
                vars := { s.vars with opened := s.vars.opened + 1 } }
      | .filling w r =>
          (loadBuffer s.memory w).map fun (b, _) =>
            if timeUp = true ∨ s.vars.raft.currentTerm ≠ b.term then
              { s with thread1 := .closing w r }
            else { s with thread1 := .receiving w r }
      | .receiving w r => some { s with thread1 := .filling w r }
      | .closing w r =>
          (loadBuffer s.memory w).bind fun (b, _) =>
            if s.vars.raft.currentTerm ≠ b.term then
              (freeBuffers s.memory w r).map fun memory =>
                { s with memory := memory, thread1 := .idle }
            else
              (loadBuffer s.memory r).bind fun (b', _) =>
                if b.cmdsLength = 0 ∧ b'.cmdsLength = 0 then
                  (freeBuffers s.memory w r).map fun memory =>
                    { s with memory := memory, thread1 := .idle }
                else some { s with thread1 := .enqueueing w r }
      | .enqueueing w r => some { s with thread1 := .idle, queue13 := s.queue13 ++ [(w, r)] }
  | .datagram bytes memory =>
      match s.thread1 with
      | .receiving w r =>
          (loadBuffer s.memory w).bind fun (b, _) =>
            (loadBuffer s.memory r).bind fun (b', _) =>
              (thread1Admit b b' bytes memory).bind fun (b₁, b₁') =>
                let target := if isGet bytes then r else w
                let filled := if isGet bytes then b₁' else b₁
                (storeBuffer s.memory target filled).map fun memory =>
                  { s with
                    memory := memory
                    thread1 := if thread1Full filled then .closing w r else .filling w r }
      | _ => none

/-- `thread_2` reads a message into its buffer and checks its term. -/
def heapThread2Receive (s : HeapNode n DB) (m : Message n) (dataToFree : ℕ) :
    Option (HeapNode n DB) :=
  match s.thread2 with
  | .idle =>
      (s.memory.store s.msgBuffer (.raftMsg m dataToFree)).map fun memory =>
        match thread2Term s.vars.raft m.term with
        | some raft =>
            { s with
              memory := memory
              thread2 := .handling
              vars := { s.vars with raft := raft } }
        | none => { s with memory := memory }
  | _ => none

/-- `thread_2` handles the message in its buffer. -/
def heapThread2Handle (self : Fin n) (s : HeapNode n DB) (m : Message n) :
    Option (HeapNode n DB) :=
  let raft := s.vars.raft
  match m.body with
  | .appendEntries prevLogTerm prevLogIndex _ entries =>
      let reply := thread2AppendEntries self raft prevLogTerm prevLogIndex entries
      let accepted := thread2Accepts raft prevLogTerm prevLogIndex
      some { s with thread2 := .replying m.senderNodeId reply accepted }
  | .requestVote lastLogTerm lastLogIndex =>
      let reply := thread2RequestVote self raft lastLogTerm lastLogIndex
      some { s with thread2 := .replying m.senderNodeId reply false }
  | .respAppendEntries success term logIdx answers =>
      if success then
        let queue23 := s.vars.queue23 ++ [⟨m.senderNodeId, term, logIdx, answers⟩]
        some { s with thread2 := .idle, vars := { s.vars with queue23 := queue23 } }
      else some { s with thread2 := .idle }
  | .respRequestVote voteGranted =>
      if raft.state ≠ .candidate then none
      else
        let raft := thread2CountVote raft m.term voteGranted
        some
          { s with
            thread2 := if raft.votesReceived > n / 2 then .becomingLeader else .idle
            vars := { s.vars with raft := raft } }

/-- A step of `thread_2` other than reading a message. -/
def heapThread2Step (self : Fin n) (s : HeapNode n DB) : Option (HeapNode n DB) :=
  match s.thread2 with
  | .idle => none
  | .handling =>
      match s.memory.cell s.msgBuffer with
      | some (.raftMsg m _) => heapThread2Handle self s m
      | _ => none
  | .replying dest reply accepted =>
      let vars := { s.vars with sent := s.vars.sent ++ [(dest, reply)] }
      if accepted then
        -- thread 5 will free the message around the batch, so the next one needs a new buffer
        (setDataToFree s.memory s.msgBuffer s.msgBuffer).map fun memory =>
          { s with
            vars := vars
            memory := (memory.malloc .raw).2
            msgBuffer := (memory.malloc .raw).1
            thread2 := .logging s.msgBuffer }
      else some { s with vars := vars, thread2 := .idle }
  | .logging p =>
      (loadBuffer s.memory p).map fun (b, _) =>
        { s with
          thread2 := .enqueueing p
          vars := { s.vars with logFile := s.vars.logFile ++ [b] } }
  | .enqueueing p => some { s with thread2 := .idle, queue35 := s.queue35 ++ [p] }
  | .becomingLeader =>
      let raft := { s.vars.raft with state := .leader }
      some { s with thread2 := .idle, vars := { s.vars with raft := raft } }

/-- A step of `thread_3`.  It never frees its message. -/
def heapThread3Step (self : Fin n) (s : HeapNode n DB) : Option (HeapNode n DB) :=
  match s.thread3 with
  | .idle =>
      match s.queue13 with
      | [] => none
      | (w, r) :: rest =>
          (loadBuffer s.memory w).bind fun (b, _) =>
            (loadBuffer s.memory r).bind fun (b', _) =>
              if b'.term ≠ b.term ∨
                  sizeofCmdBuffer + b.cmdsLength + sizeofRaftAppendEntriesReq > cmdbufSize then none
              else some { s with thread3 := .building w r, queue13 := rest }
  | .building w r =>
      let raft := s.vars.raft
      (loadBuffer s.memory w).map fun (b, dataToFree) =>
        let message := thread3Message self b raft.lastAppliedTerm raft.lastAppliedIndex
        { s with
          memory := (s.memory.malloc (.raftMsg message dataToFree)).2
          thread3 :=
            .sending w r (s.memory.malloc (.raftMsg message dataToFree)).1 (peers self) }
  | .sending w r msg [] => some { s with thread3 := .waiting w r 0, leaked := s.leaked ++ [msg] }
  | .sending w r msg (dest :: rest) =>
      match s.memory.cell msg with
      | some (.raftMsg m _) =>
          some
            { s with
              thread3 := .sending w r msg rest
              vars := { s.vars with sent := s.vars.sent ++ [(dest, m)] } }
      | _ => none
  | .waiting w r counted =>
      if 1 + counted ≤ n / 2 then
        match s.vars.queue23 with
        | [] => none
        | ok :: rest =>
            let vars := { s.vars with queue23 := rest }
            (loadBuffer s.memory w).bind fun (b, _) =>
              (loadBuffer s.memory r).bind fun (b', _) =>
                if thread3Counts ok b then
                  some { s with thread3 := .waiting w r (counted + 1), vars := vars }
                else if ok.term ≤ b'.term then some { s with vars := vars }
                else none
      else some { s with thread3 := .logging w r }
  | .logging w r =>
      (loadBuffer s.memory w).map fun (b, _) =>
        { s with
          thread3 := .enqueueingRead w r
          vars := { s.vars with logFile := s.vars.logFile ++ [b] } }
  | .enqueueingRead w r =>
      some { s with thread3 := .enqueueingWrite w, queue34 := s.queue34 ++ [r] }
  | .enqueueingWrite w => some { s with thread3 := .idle, queue35 := s.queue35 ++ [w] }

/-- A step of `thread_4`. -/
def heapThread4Step (R : RocksDb DB) (s : HeapNode n DB) : Option (HeapNode n DB) :=
  match s.thread4 with
  | .idle =>
      match s.queue34 with
      | [] => none
      | p :: rest => some { s with thread4 := .reading p 0, queue34 := rest }
  | .reading p processed =>
      (loadBuffer s.memory p).bind fun (b, _) =>
        if processed < b.cmdsLength then
          (thread4Command b processed).map fun (key, length) =>
            let result := kvStoreGet R s.vars.diskMap key
            { s with thread4 := .answering p processed length result }
        else (freeBuffer s.memory p).map fun memory => { s with memory := memory, thread4 := .idle }
  | .answering p processed length result =>
      if result.2 < maxValLen then some { s with thread4 := .reading p (processed + length) }
      else none

/-- A step of `thread_5`. -/
def heapThread5Step (R : RocksDb DB) (s : HeapNode n DB) : Option (HeapNode n DB) :=
  match s.thread5 with
  | .idle =>
      match s.queue35 with
      | [] => none
      | p :: rest =>
          (loadBuffer s.memory p).bind fun (b, _) =>
            if b.cmdsLength > cmdbufSize then none
            else some { s with thread5 := .applying p 0, queue35 := rest }
  | .applying p processed =>
      (loadBuffer s.memory p).bind fun (b, _) =>
        if processed < b.cmdsLength then
          (thread5Command R s.vars.diskMap b processed).map fun (diskMap, length) =>
            { s with
              thread5 := .answering p processed length
              vars := { s.vars with diskMap := diskMap } }
        else if processed = b.cmdsLength then
          (freeBuffer s.memory p).map fun memory => { s with memory := memory, thread5 := .idle }
        else none
  | .answering p processed length => some { s with thread5 := .applying p (processed + length) }

/-- A step of a process with its buffers. -/
def heapStep (R : RocksDb DB) (self : Fin n) (s : HeapNode n DB) :
    HeapAction n → Option (HeapNode n DB)
  | .thread1 event => heapThread1Step self s event
  | .receive m dataToFree => heapThread2Receive s m dataToFree
  | .thread2 => heapThread2Step self s
  | .thread3 => heapThread3Step self s
  | .thread4 => heapThread4Step R s
  | .thread5 => heapThread5Step R s
  | .candidate => some { s with vars := { s.vars with raft := becomeCandidate s.vars.raft } }

end Oceanliner
