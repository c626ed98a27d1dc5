/-
# The read path of a leader

`thread_1` collects GETs in a batch of their own.  It goes to `thread_3` along with the write
batch, and from there, a step before the write batch, to `thread_4`, which looks every key up
in the store while `thread_5` applies the writes.  This file adds `thread_4` to the threads 1, 3
and 5 of a leader.

`Server` leaves the read batch out from the moment when the write batch is committed; here
`thread_3` keeps it until it has enqueued it.  Of the other threads of a leader only the OKs
that `thread_2` passes on matter, and any OK may arrive at any time.  What `thread_4` does with
a value it has found is left out, apart from the assertion on its length.
-/
import Oceanliner.KvStateMachine
import Oceanliner.Main.Cluster

open Bytes MapOps

namespace Oceanliner

variable {n : ℕ} {DB : Type}

/-! ### Datagrams of clients -/

/-- A GET, SET or DELETE that has been received up to the zero byte behind its key, with no
zero byte in the key. -/
structure WellFormed (bytes : List UInt8) : Prop where
  isCommand : IsCommand bytes
  op_mem : KvsOp.ofNat? (opType bytes 0) ∈ [some .get, some .set, some .delete]
  key_ne : 0 ∉ slice bytes (28 + (valueLength bytes 0 + 3) / 4 * 4) (keyLength bytes 0)
  key_end :
    slice bytes (28 + (valueLength bytes 0 + 3) / 4 * 4 + keyLength bytes 0) 1 = [0]

instance (bytes : List UInt8) : Decidable (WellFormed bytes) :=
  decidable_of_iff
    (IsCommand bytes ∧ KvsOp.ofNat? (opType bytes 0) ∈ [some .get, some .set, some .delete] ∧
      0 ∉ slice bytes (28 + (valueLength bytes 0 + 3) / 4 * 4) (keyLength bytes 0) ∧
      slice bytes (28 + (valueLength bytes 0 + 3) / 4 * 4 + keyLength bytes 0) 1 = [0])
    ⟨fun h => ⟨h.1, h.2.1, h.2.2.1, h.2.2.2⟩,
      fun h => ⟨h.isCommand, h.op_mem, h.key_ne, h.key_end⟩⟩

lemma length_paddedDatagram_le {bytes : List UInt8} (memory : ℕ → UInt8) (h : IsCommand bytes) :
    (paddedDatagram bytes memory h).bytes.length ≤ maxKvsCmdSize := by
  have hmax := h.1
  rw [maxKvsCmdSize] at hmax ⊢
  have hjump : jumpToAlignment bytes.length 8 = (bytes.length + 7) / 8 * 8 :=
    jumpToAlignment_eight (by omega)
  show (bytes ++ padding bytes.length memory).length ≤ 2 ^ 11
  rw [List.length_append, padding, List.length_map, List.length_range, hjump]
  omega

/-- In a buffer, a well-formed datagram is a command that stands for the same operation. -/
lemma WellFormed.exists_command {bytes : List UInt8} (h : WellFormed bytes)
    (memory : ℕ → UInt8) : ∃ c : MapCommand,
      c.toKvsRecord = paddedDatagram bytes memory h.isCommand ∧ mapOp bytes = c.toOp ∧
        (isGet bytes = true ↔ c.op = .get) := by
  obtain ⟨hcommand, hop, hzero, hend⟩ := h
  have hmin : 28 ≤ bytes.length := hcommand.2.1
  have hv := valueLength_lt bytes 0
  have hkey := keyLength_append hmin (padding bytes.length memory)
  have hvalue := valueLength_append hmin (padding bytes.length memory)
  have htype := opType_append hmin (padding bytes.length memory)
  set off := 28 + (valueLength bytes 0 + 3) / 4 * 4 with hoff
  -- the zero byte behind the key has been received, so the padding is behind it
  have hlen : off + (keyLength bytes 0 + 1) ≤ bytes.length := by
    have := congrArg List.length hend
    rw [length_slice, List.length_singleton] at this
    omega
  have hne : ∀ b ∈ slice bytes off (keyLength bytes 0), b ≠ 0 := by
    rintro b hb rfl
    exact hzero hb
  have hslice : slice bytes off (keyLength bytes 0 + 1) =
      slice bytes off (keyLength bytes 0) ++ [0] := by
    rw [slice_add, hend]
  have hpadded : slice (bytes ++ padding bytes.length memory) off (keyLength bytes 0 + 1) =
      slice bytes off (keyLength bytes 0) ++ [0] := by
    rw [slice_append_left hlen, hslice]
  have hmapOp : mapOp bytes = mapOp (bytes ++ padding bytes.length memory) := by
    have hjump : jumpToAlignment (sizeofKvsCommand + valueLength bytes 0) 4 = off := by
      rw [sizeofKvsCommand, jumpToAlignment_four (by omega)]
      omega
    have hslice' : slice (bytes ++ padding bytes.length memory) sizeofKvsCommand
        (valueLength bytes 0) = slice bytes sizeofKvsCommand (valueLength bytes 0) := by
      rw [slice_append_left]
      rw [sizeofKvsCommand]
      omega
    simp only [mapOp, htype, hvalue, hjump, cString_of_slice hslice hne,
      cString_of_slice hpadded hne, hslice']
  obtain ⟨op, hop', hnop⟩ : ∃ op, KvsOp.ofNat? (opType bytes 0) = some op ∧ op ≠ .nop := by
    simp only [List.mem_cons, List.not_mem_nil, or_false] at hop
    rcases hop with hop | hop | hop
    · exact ⟨_, hop, by decide⟩
    · exact ⟨_, hop, by decide⟩
    · exact ⟨_, hop, by decide⟩
  let c : MapCommand :=
    { paddedDatagram bytes memory hcommand with
      op := op
      op_ne := hnop
      op_eq := by
        show KvsOp.ofNat? (opType (bytes ++ padding bytes.length memory) 0) = some op
        rw [htype, hop']
      key := slice bytes off (keyLength bytes 0)
      key_ne := hne
      key_eq := by
        show slice (bytes ++ padding bytes.length memory)
          (28 + (valueLength (bytes ++ padding bytes.length memory) 0 + 3) / 4 * 4)
          (keyLength (bytes ++ padding bytes.length memory) 0 + 1) = _
        rw [hkey, hvalue, ← hoff, hpadded] }
  refine ⟨c, rfl, ?_, ?_⟩
  · rw [hmapOp]
    exact c.mapOp_bytes
  · show isGet bytes = true ↔ op = .get
    rw [isGet, decide_eq_true_iff]
    change opType bytes 0 = KvsOp.get.toNat ↔ op = .get
    rw [← KvsOp.ofNat?_eq_some, hop', Option.some.injEq]

/-! ### The state of the leader -/

/-- Where `thread_4` stands in its batch: at the top of its loop, or with what `kv_store_get`
has returned. -/
inductive Thread4 (n : ℕ) where
  | idle
  | reading (b : CmdBuffer n) (processed : ℕ)
  | answering (b : CmdBuffer n) (processed length : ℕ) (result : Option (List UInt8) × ℤ)
deriving DecidableEq

/-- The place of a command: its batch, and its offset there. -/
structure Place (n : ℕ) where
  batch : BatchId n
  offset : ℕ
deriving DecidableEq

/-- A GET that `thread_1` has received: where it has put it, the bytes, and how many answers
with status 200 `thread_5` had sent by then. -/
structure ReceivedGet (n : ℕ) where
  place : Place n
  datagram : List UInt8
  acked : ℕ

/-- A call of `kv_store_get` in `thread_4`: the place of the command it is for, the key, what it
has returned, and how many commands `thread_5` had applied by then. -/
structure PerformedGet (n : ℕ) where
  place : Place n
  key : List UInt8
  result : Option (List UInt8) × ℤ
  applied : ℕ

/-- A leader with its read path: the read batch that `thread_3` has not enqueued, `_3_to_4`, and
`thread_4`.  The last two fields record what has happened. -/
structure LeaderNode (n : ℕ) (DB : Type) where
  server : Server n DB
  readCmds : Option (CmdBuffer n)
  queue34 : List (CmdBuffer n)
  thread4 : Thread4 n
  received : List (ReceivedGet n)
  performed : List (PerformedGet n)

/-- A leader whose threads have just started. -/
def LeaderNode.start (raft : RaftVars) (diskMap : DB) : LeaderNode n DB where
  server := .start raft diskMap
  readCmds := none
  queue34 := []
  thread4 := .idle
  received := []
  performed := []

/-! ### The steps -/

/-- `sizeof(client_resp_t)`. -/
def sizeofClientResp : ℕ := 16

/-- One command in `thread_4`, up to the call of `kv_store_get`: the key it looks up and the
length of the command.  `none` is a failed assertion. -/
def thread4Command (cmdBuffer : CmdBuffer n) (cmd : ℕ) : Option (List UInt8 × ℕ) :=
  let data := cmdBuffer.data
  (kvsCommandLen data cmd).bind fun length =>
    if cmd % 8 ≠ 0 ∨ valueLength data cmd + sizeofClientResp > 2 ^ 12 then none
    else (kvsCommandGetKey data cmd).map fun key => (cString data key, length)

/-- A step of `thread_4`. -/
def thread4Step (R : RocksDb DB) (s : LeaderNode n DB) : Option (LeaderNode n DB) :=
  match s.thread4 with
  | .idle =>
      match s.queue34 with
      | [] => none
      | b :: rest => some { s with thread4 := .reading b 0, queue34 := rest }
  | .reading b processed =>
      if processed < b.cmdsLength then
        (thread4Command b processed).map fun (key, length) =>
          let result := kvStoreGet R s.server.diskMap key
          { s with
            thread4 := .answering b processed length result
            performed := s.performed ++
              [⟨⟨b.id, processed⟩, key, result, s.server.applied.length⟩] }
      else some { s with thread4 := .idle }
  | .answering b processed length result =>
      if result.2 < maxValLen then some { s with thread4 := .reading b (processed + length) }
      else none

/-- The GET that `thread_1` is about to put at the end of its read buffer, if it is one. -/
def receivedGet (s : Server n DB) : Thread1Event → List (ReceivedGet n)
  | .tick _ => []
  | .datagram bytes _ =>
      match s.thread1 with
      | .receiving _ r =>
          if isGet bytes then [⟨⟨r.id, r.cmdsLength⟩, bytes, s.acked.length⟩] else []
      | _ => []

/-- What happens on a leader: a step of one of its threads, or an OK from `thread_2`. -/
inductive LeaderAction (n : ℕ) where
  | thread1 (event : Thread1Event)
  | ok (ok : AppendOk n)
  | thread3
  | thread4
  | thread5

/-- The datagrams received are commands of clients. -/
def LeaderAction.WellFormed : LeaderAction n → Prop
  | .thread1 (.datagram bytes _) => Oceanliner.WellFormed bytes
  | _ => True

instance : ∀ a : LeaderAction n, Decidable a.WellFormed
  | .thread1 (.datagram bytes _) => inferInstanceAs (Decidable (Oceanliner.WellFormed bytes))
  | .thread1 (.tick _) => isTrue trivial
  | .ok _ => isTrue trivial
  | .thread3 => isTrue trivial
  | .thread4 => isTrue trivial
  | .thread5 => isTrue trivial

/-- A step of `thread_3`, which enqueues the read batch before the write batch. -/
def leaderThread3Step (self : Fin n) (s : LeaderNode n DB) : Option (LeaderNode n DB) :=
  match s.server.thread3, s.readCmds with
  | .idle, _ =>
      (thread3Step self s.server).map fun (server, _) =>
        { s with server := server, readCmds := s.server.queue13.head?.map Prod.snd }
  | .enqueueing _, some r => some { s with readCmds := none, queue34 := s.queue34 ++ [r] }
  | _, _ => (thread3Step self s.server).map fun (server, _) => { s with server := server }

/-- A step of the leader. -/
def leaderStep (R : RocksDb DB) (self : Fin n) (s : LeaderNode n DB) :
    LeaderAction n → Option (LeaderNode n DB)
  | .thread1 event =>
      (thread1Step self s.server event).map fun server =>
        { s with server := server, received := s.received ++ receivedGet s.server event }
  | .ok ok => some { s with server := { s.server with queue23 := s.server.queue23 ++ [ok] } }
  | .thread3 => leaderThread3Step self s
  | .thread4 => thread4Step R s
  | .thread5 => (thread5Step R s.server).map fun server => { s with server := server }

end Oceanliner
