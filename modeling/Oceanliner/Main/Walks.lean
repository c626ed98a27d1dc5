/-
# The walks over a batch

`thread_5` goes over a write batch and `thread_4` over a read batch with a pointer to a command
and the number of bytes processed.  This file models the two loops, and the variants
`thread_4_old` and `thread_5_new` of them: what they do with a command (`Visit`), what is in the
submission queue of the variants that use one, and what is sent to the clients.

The stores that `thread_4` finds and whether `thread_5` sees a leader depend on other threads;
they are functions of the place of the command.  Left out are the assertions on the socket and
on the fields of a response, which hold for every response built here, and a `sendto` that
fails.
-/
import Oceanliner.Lib.Ring
import Oceanliner.Main.Batching

open Bytes

namespace Oceanliner

variable {n : ℕ} {DB : Type}

/-! ### Responses -/

/-- `IOU_QUEUE_LEN`. -/
def iouQueueLen : ℕ := 1024

/-- `sizeof(struct sockaddr_in)`. -/
def sizeofSockaddrIn : ℕ := 16

/-- The size of the array `string`, to which the threads 4 and 5 copy every value. -/
def sizeofString : ℕ := 128

/-- The field `return_addr`. -/
def returnAddr (buf : List UInt8) (cmd : ℕ) : List UInt8 := slice buf (cmd + 8) sizeofSockaddrIn

/-- A `client_resp_t` with the data behind it. -/
def clientResp (bodyLength opType statusCode : ℕ) (data : List UInt8) : List UInt8 :=
  toLe 8 bodyLength ++ (toLe 4 opType ++ (toLe 2 statusCode ++ (toLe 2 0 ++ data)))

/-- What a client is sent: its address and the bytes. -/
structure Response where
  addr : List UInt8
  bytes : List UInt8
deriving DecidableEq

/-- What an iteration does with its command: `total_length_processed`, the length and the type
of the command, the address of the client, the string at `key`, and how many bytes are copied
to `string`. -/
structure Visit where
  offset : ℕ
  length : ℕ
  type : ℕ
  returnAddr : List UInt8
  key : List UInt8
  copied : ℕ
deriving DecidableEq

/-! ### The write path -/

/-- An iteration of `thread_5` and `thread_5_new`, up to the response: the store afterwards. -/
def thread5Visit (R : RocksDb DB) (diskMap : DB) (b : CmdBuffer n) (cmd : ℕ) :
    Option (DB × Visit) :=
  (thread5Command R diskMap b cmd).bind fun p =>
    (kvsCommandGetKey b.data cmd).map fun key =>
      (p.1,
        { offset := cmd
          length := p.2
          type := opType b.data cmd
          returnAddr := returnAddr b.data cmd
          key := cString b.data key
          copied := if opType b.data cmd = 2 then valueLength b.data cmd else 0 })

/-- The response to a SET or DELETE. -/
def Visit.success (v : Visit) : Response := ⟨v.returnAddr, clientResp 0 v.type 200 []⟩

/-- `thread_5` in its batch. -/
structure Walk5 (DB : Type) where
  diskMap : DB
  visits : List Visit
  sent : List Response
deriving DecidableEq

/-- The body of the loop of `thread_5`. -/
def thread5Body (R : RocksDb DB) (leads : ℕ → Bool) (b : CmdBuffer n) (s : Walk5 DB) (cmd : ℕ) :
    Option (Walk5 DB × ℕ) :=
  (thread5Visit R s.diskMap b cmd).map fun p =>
    ({ diskMap := p.1
       visits := s.visits ++ [p.2]
       sent := if leads cmd then s.sent ++ [p.2.success] else s.sent }, p.2.length)

/-- `thread_5` with a batch: what it has done, and `total_length_processed` at the end.  `none`
is a failed assertion or the `exit`. -/
def thread5Batch (R : RocksDb DB) (leads : ℕ → Bool) (diskMap : DB) (b : CmdBuffer n) :
    Option (Walk5 DB × ℕ) :=
  if b.cmdsLength > cmdbufSize then none
  else
    (Cursor.loop (thread5Body R leads b) b.cmdsLength b.cmdsLength ⟨diskMap, [], []⟩ 0).bind
      fun p => if p.2 = b.cmdsLength then some p else none

/-! ### The read path -/

/-- The response to a GET: `result` is what `kv_store_get` has returned. -/
def thread4Response (result : Option (List UInt8) × ℤ) : List UInt8 :=
  match result.1 with
  | none => clientResp 0 1 201 []
  | some data => clientResp result.2.toNat 1 200 data

/-- How many bytes of a result are copied to `string`. -/
def thread4Copied (result : Option (List UInt8) × ℤ) : ℕ :=
  match result.1 with
  | none => 0
  | some _ => result.2.toNat

/-- An iteration of `thread_4` and `thread_4_old`, up to sending the response. -/
def thread4Visit (R : RocksDb DB) (diskMap : DB) (b : CmdBuffer n) (cmd : ℕ) :
    Option (Visit × Response) :=
  (thread4Command b cmd).bind fun p =>
    let result := kvStoreGet R diskMap p.1
    if result.2 < maxValLen then
      some
        ({ offset := cmd
           length := p.2
           type := opType b.data cmd
           returnAddr := returnAddr b.data cmd
           key := p.1
           copied := thread4Copied result },
          ⟨returnAddr b.data cmd, thread4Response result⟩)
    else none

/-- `thread_4` in its batch.  All entries of its queue refer to the same memory: the address and
the message are found through `ms_addr` in the frame of `resp_to_client_uring`, which is in one
place on the stack in every call, and the message itself is in the array `value`. -/
structure Walk4 where
  visits : List Visit
  ring : Ring.SubmissionQueue Unit iouQueueLen
  sent : List Response

/-- The body of the loop of `thread_4`.  What is in memory at a submission is the response of
the same iteration. -/
def thread4Body (R : RocksDb DB) (stores : ℕ → DB) (b : CmdBuffer n) (s : Walk4) (cmd : ℕ) :
    Option (Walk4 × ℕ) :=
  (s.ring.push ()).bind fun ring =>
    (thread4Visit R (stores cmd) b cmd).map fun p =>
      if ring.entries.length = iouQueueLen ∨ cmd + p.1.length = b.cmdsLength then
        (⟨s.visits ++ [p.1], .empty, s.sent ++ ring.submit fun _ => p.2⟩, p.1.length)
      else (⟨s.visits ++ [p.1], ring, s.sent⟩, p.1.length)

/-- `thread_4` with a batch. -/
def thread4Batch (R : RocksDb DB) (stores : ℕ → DB) (b : CmdBuffer n) : Option (Walk4 × ℕ) :=
  Cursor.loop (thread4Body R stores b) b.cmdsLength b.cmdsLength ⟨[], .empty, []⟩ 0

/-- The body of the loop of `thread_4_old`. -/
def thread4OldBody (R : RocksDb DB) (stores : ℕ → DB) (b : CmdBuffer n)
    (s : List Visit × List Response) (cmd : ℕ) : Option ((List Visit × List Response) × ℕ) :=
  (thread4Visit R (stores cmd) b cmd).map fun p =>
    ((s.1 ++ [p.1], s.2 ++ [p.2]), p.1.length)

/-- `thread_4_old` with a batch. -/
def thread4OldBatch (R : RocksDb DB) (stores : ℕ → DB) (b : CmdBuffer n) :
    Option ((List Visit × List Response) × ℕ) :=
  Cursor.loop (thread4OldBody R stores b) b.cmdsLength b.cmdsLength ([], []) 0

/-! ### A record in the buffer -/

namespace KvsRecord

/-- The size of a record. -/
def size (r : KvsRecord) : ℕ := r.bytes.length

lemma size_pos (r : KvsRecord) : 0 < r.size := by
  have := r.thirtyTwo_le_length
  rw [size]
  omega

/-- The key of the record ends inside it. -/
def Terminated (r : KvsRecord) : Prop := 0 ∈ r.bytes.drop r.keyOffset

/-- A key that ends inside its record is found whatever is behind the record. -/
lemma Terminated.cString_in {r : KvsRecord} (h : r.Terminated) (pre suf : List UInt8) :
    cString (pre ++ (r.bytes ++ suf)) (pre.length + r.keyOffset) = cString r.bytes r.keyOffset := by
  rw [cString_append_right, cString_append h]

lemma returnAddr_eq (r : KvsRecord) (pre suf : List UInt8) :
    returnAddr (pre ++ (r.bytes ++ suf)) pre.length = returnAddr r.bytes 0 := by
  have hlen : 8 + 16 ≤ r.bytes.length := by
    have := r.thirtyTwo_le_length
    omega
  rw [returnAddr, returnAddr, sizeofSockaddrIn, r.slice_eq pre suf hlen]

lemma valueLength_le (r : KvsRecord) : valueLength r.bytes 0 + 29 ≤ r.bytes.length := by
  have hle := r.keyOffset_le
  rw [keyOffset] at hle
  omega

/-- What an iteration does with a record. -/
def visit (r : KvsRecord) (offset : ℕ) (key : List UInt8) (copied : ℕ) : Visit :=
  ⟨offset, r.bytes.length, opType r.bytes 0, Oceanliner.returnAddr r.bytes 0, key, copied⟩

/-- How many bytes of a record `thread_5` copies to `string`. -/
def copied5 (r : KvsRecord) : ℕ := if opType r.bytes 0 = 2 then valueLength r.bytes 0 else 0

end KvsRecord

section Command

variable {R : RocksDb DB} {db : DB} {b : CmdBuffer n} {r : KvsRecord} {pre suf : List UInt8}
  (hdata : b.data = pre ++ (r.bytes ++ suf)) (hmod : pre.length % 8 = 0)

include hdata

lemma cmdsLength_of_data : b.cmdsLength = pre.length + (r.bytes.length + suf.length) := by
  rw [CmdBuffer.cmdsLength, hdata, List.length_append, List.length_append]

include hmod

/-- `thread_5` takes a SET or a DELETE. -/
lemma exists_thread5Visit (hlt : b.cmdsLength ≤ cmdbufSize)
    (hlen : r.bytes.length ≤ maxKvsCmdSize) (htype : opType r.bytes 0 = 2 ∨ opType r.bytes 0 = 3) :
    ∃ q, thread5Visit R db b pre.length = some q := by
  have hle := cmdsLength_of_data hdata
  have hv := r.valueLength_le
  have hmin := r.thirtyTwo_le_length
  have hmax : ¬ (valueLength r.bytes 0 ≥ maxValLen ∨ valueLength r.bytes 0 ≥ cmdbufSize ∨
      b.cmdsLength - pre.length < sizeofKvsCommand) := by
    rw [maxKvsCmdSize] at hlen
    rw [maxValLen, cmdbufSize, sizeofKvsCommand]
    omega
  rw [cmdbufSize] at hlt
  simp only [thread5Visit, thread5Command, hdata, r.valueLength_eq, if_neg hmax,
    r.kvsCommandLen_eq pre suf hmod, r.getKey_in pre suf hmod (by omega), r.opType_eq,
    kvsCommandGetValue, if_pos hmod]
  rcases htype with htype | htype
  · simp [htype, KvsOp.ofNat?]
  · simp [htype, KvsOp.ofNat?]

/-- What `thread_5` has done with a command that it has taken. -/
lemma of_thread5Visit {q : DB × Visit} (hlt : b.cmdsLength ≤ cmdbufSize)
    (h : thread5Visit R db b pre.length = some q) :
    (opType r.bytes 0 = 2 ∨ opType r.bytes 0 = 3) ∧
      q.2 = r.visit pre.length (cString b.data (pre.length + r.keyOffset)) r.copied5 := by
  have hle := cmdsLength_of_data hdata
  rw [cmdbufSize] at hlt
  obtain ⟨p, hp, hq⟩ := Option.bind_eq_some_iff.1 h
  rw [hdata, r.getKey_in pre suf hmod (by omega), Option.map_some, r.opType_eq, r.returnAddr_eq,
    r.valueLength_eq] at hq
  obtain rfl := Option.some.inj hq
  simp only [thread5Command, hdata, r.kvsCommandLen_eq pre suf hmod,
    r.getKey_in pre suf hmod (by omega), r.opType_eq, Option.bind_some] at hp
  split at hp
  · cases hp
  · split at hp
    · rename_i hop
      obtain rfl := Option.some.inj hp
      exact ⟨.inr (KvsOp.ofNat?_eq_some.1 hop), by rw [hdata]; rfl⟩
    · rename_i hop
      obtain ⟨value, -, rfl⟩ := Option.map_eq_some_iff.1 hp
      exact ⟨.inl (KvsOp.ofNat?_eq_some.1 hop), by rw [hdata]; rfl⟩
    · cases hp

/-- `thread_4` looks the key up and responds, whatever the type of the command. -/
lemma exists_thread4Visit (hlt : b.cmdsLength ≤ cmdbufSize)
    (hlen : r.bytes.length ≤ maxKvsCmdSize)
    (hfound : (kvStoreGet R db (cString b.data (pre.length + r.keyOffset))).2 < maxValLen) :
    ∃ q, thread4Visit R db b pre.length = some q := by
  have hle := cmdsLength_of_data hdata
  have hv := r.valueLength_le
  have hmax : ¬ (pre.length % 8 ≠ 0 ∨ valueLength r.bytes 0 + sizeofClientResp > 2 ^ 12) := by
    rw [maxKvsCmdSize] at hlen
    rw [sizeofClientResp]
    omega
  rw [cmdbufSize] at hlt
  rw [hdata] at hfound
  simp only [thread4Visit, thread4Command, hdata, r.valueLength_eq, if_neg hmax,
    r.kvsCommandLen_eq pre suf hmod, r.getKey_in pre suf hmod (by omega), Option.bind_some,
    Option.map_some, if_pos hfound]
  exact ⟨_, rfl⟩

/-- What `thread_4` has done with a command. -/
lemma of_thread4Visit {q : Visit × Response} (hlt : b.cmdsLength ≤ cmdbufSize)
    (h : thread4Visit R db b pre.length = some q) :
    (kvStoreGet R db (cString b.data (pre.length + r.keyOffset))).2 < maxValLen ∧
      q = (r.visit pre.length (cString b.data (pre.length + r.keyOffset))
          (thread4Copied (kvStoreGet R db (cString b.data (pre.length + r.keyOffset)))),
        ⟨returnAddr r.bytes 0,
          thread4Response (kvStoreGet R db (cString b.data (pre.length + r.keyOffset)))⟩) := by
  have hle := cmdsLength_of_data hdata
  rw [cmdbufSize] at hlt
  obtain ⟨p, hp, hq⟩ := Option.bind_eq_some_iff.1 h
  simp only [thread4Command, hdata, r.kvsCommandLen_eq pre suf hmod,
    r.getKey_in pre suf hmod (by omega), Option.bind_some, Option.map_some] at hp
  split at hp
  · cases hp
  · obtain rfl := Option.some.inj hp
    simp only [hdata, r.opType_eq, r.returnAddr_eq] at hq
    rw [hdata]
    split at hq
    · rename_i hfound
      obtain rfl := Option.some.inj hq
      exact ⟨hfound, rfl⟩
    · cases hq

end Command

/-! ### The commands of a batch -/

namespace CmdBuffer

variable (b : CmdBuffer n)

/-- The commands of a batch, each with its offset. -/
def places : List (ℕ × KvsRecord) := Cursor.offsets KvsRecord.size 0 b.commands

lemma total_size : Cursor.total KvsRecord.size b.commands = b.cmdsLength := by
  rw [cmdsLength, data, recordBytes, List.length_flatten, List.map_map]
  rfl

lemma length_commands_le : b.commands.length ≤ b.cmdsLength := by
  rw [← b.total_size]
  induction b.commands with
  | nil => exact Nat.zero_le _
  | cons r rs ih =>
      have := r.size_pos
      rw [Cursor.total_cons, List.length_cons]
      omega

variable {b}

/-- The bytes before and behind a command. -/
lemma exists_data {p : ℕ × KvsRecord} (hp : p ∈ b.places) :
    ∃ pre suf, b.data = pre ++ (p.2.bytes ++ suf) ∧ pre.length = p.1 ∧ pre.length % 8 = 0 := by
  obtain ⟨done, rest, hcommands, hoffset⟩ := Cursor.mem_offsets.1 hp
  refine ⟨recordBytes done, recordBytes rest, ?_, ?_, length_recordBytes_mod_eight done⟩
  · rw [data, hcommands, recordBytes_append, recordBytes_cons]
  · rw [hoffset, Nat.zero_add, recordBytes, List.length_flatten, List.map_map]
    rfl

lemma mem_commands_of_place {p : ℕ × KvsRecord} (hp : p ∈ b.places) : p.2 ∈ b.commands := by
  obtain ⟨done, rest, hcommands, -⟩ := Cursor.mem_offsets.1 hp
  rw [hcommands]
  exact List.mem_append_right done List.mem_cons_self

end CmdBuffer

/-! ### The walks -/

section Walks

variable {R : RocksDb DB} {b : CmdBuffer n}

/-- The string at the key of the command at a place. -/
def CmdBuffer.keyAt (b : CmdBuffer n) (p : ℕ × KvsRecord) : List UInt8 :=
  cString b.data (p.1 + p.2.keyOffset)

/-- What `thread_5` does at a place. -/
def CmdBuffer.visit5 (b : CmdBuffer n) (p : ℕ × KvsRecord) : Visit :=
  p.2.visit p.1 (b.keyAt p) p.2.copied5

/-- What `thread_4` does at a place, with what it finds in the store. -/
def CmdBuffer.visit4 (R : RocksDb DB) (stores : ℕ → DB) (b : CmdBuffer n) (p : ℕ × KvsRecord) :
    Visit :=
  p.2.visit p.1 (b.keyAt p) (thread4Copied (kvStoreGet R (stores p.1) (b.keyAt p)))

/-- What `thread_4` responds at a place. -/
def CmdBuffer.response4 (R : RocksDb DB) (stores : ℕ → DB) (b : CmdBuffer n)
    (p : ℕ × KvsRecord) : Response :=
  ⟨Oceanliner.returnAddr p.2.bytes 0, thread4Response (kvStoreGet R (stores p.1) (b.keyAt p))⟩

section Thread5

variable {leads : ℕ → Bool} {s : Walk5 DB} {p : ℕ × KvsRecord} (hlt : b.cmdsLength ≤ cmdbufSize)
  (hp : p ∈ b.places)

include hlt hp

lemma exists_thread5Body (hlen : p.2.bytes.length ≤ maxKvsCmdSize)
    (htype : opType p.2.bytes 0 = 2 ∨ opType p.2.bytes 0 = 3) :
    ∃ s', thread5Body R leads b s p.1 = some (s', p.2.size) ∧
      s'.visits = s.visits ++ [b.visit5 p] := by
  obtain ⟨pre, suf, hdata, hoffset, hmod⟩ := CmdBuffer.exists_data hp
  obtain ⟨q, hq⟩ : ∃ q, thread5Visit R s.diskMap b pre.length = some q :=
    exists_thread5Visit hdata hmod hlt hlen htype
  obtain ⟨-, hvisit⟩ := of_thread5Visit hdata hmod hlt hq
  rw [hoffset] at hq hvisit
  rw [thread5Body, hq, Option.map_some, hvisit]
  exact ⟨_, rfl, rfl⟩

end Thread5

/-- `thread_5` gets to the end of a batch of SETs and DELETEs. -/
theorem exists_thread5Batch {leads : ℕ → Bool} {diskMap : DB} (hlt : b.cmdsLength ≤ cmdbufSize)
    (hb : ∀ r ∈ b.commands, r.bytes.length ≤ maxKvsCmdSize ∧
      (opType r.bytes 0 = 2 ∨ opType r.bytes 0 = 3)) :
    ∃ s, thread5Batch R leads diskMap b = some (s, b.cmdsLength) ∧
      s.visits = b.places.map b.visit5 := by
  have hbody : ∀ p ∈ b.places, ∀ s, True → ∃ s', thread5Body R leads b s p.1 = some (s', p.2.size) ∧
      True ∧ s'.visits = s.visits ++ [b.visit5 p] := by
    intro p hp s _
    obtain ⟨hlen, htype⟩ := hb p.2 (CmdBuffer.mem_commands_of_place hp)
    obtain ⟨s', hs', hvisits⟩ := exists_thread5Body hlt hp hlen htype
    exact ⟨s', hs', trivial, hvisits⟩
  obtain ⟨s, hloop, -, hvisits⟩ := Cursor.exists_loop (s := ⟨diskMap, [], []⟩) (fun _ => True)
    Walk5.visits b.visit5 KvsRecord.size_pos hbody b.length_commands_le trivial
  rw [b.total_size] at hloop
  refine ⟨s, ?_, hvisits⟩
  rw [thread5Batch, if_neg (Nat.not_lt.2 hlt), hloop, Option.bind_some, if_pos rfl]

section Thread4

variable {stores : ℕ → DB} {s : Walk4} {p : ℕ × KvsRecord} (hlt : b.cmdsLength ≤ cmdbufSize)
  (hp : p ∈ b.places)

include hlt hp

variable (stores) in
/-- `thread_4` and `thread_4_old` respond to any command when the value found is shorter than
`MAX_VAL_LEN`. -/
lemma thread4Visit_place (hlen : p.2.bytes.length ≤ maxKvsCmdSize)
    (hfound : (kvStoreGet R (stores p.1) (b.keyAt p)).2 < maxValLen) :
    thread4Visit R (stores p.1) b p.1 = some (b.visit4 R stores p, b.response4 R stores p) := by
  obtain ⟨pre, suf, hdata, hoffset, hmod⟩ := CmdBuffer.exists_data hp
  rw [CmdBuffer.keyAt, ← hoffset] at hfound
  obtain ⟨q, hq⟩ := exists_thread4Visit hdata hmod hlt hlen hfound
  obtain ⟨-, rfl⟩ := of_thread4Visit hdata hmod hlt hq
  rw [hoffset] at hq
  exact hq

lemma of_thread4Visit_place {q : Visit × Response}
    (h : thread4Visit R (stores p.1) b p.1 = some q) :
    (kvStoreGet R (stores p.1) (b.keyAt p)).2 < maxValLen ∧
      q = (b.visit4 R stores p, b.response4 R stores p) := by
  obtain ⟨pre, suf, hdata, hoffset, hmod⟩ := CmdBuffer.exists_data hp
  rw [← hoffset] at h
  obtain ⟨hfound, rfl⟩ := of_thread4Visit hdata hmod hlt h
  rw [hoffset] at hfound ⊢
  exact ⟨hfound, rfl⟩

/-- `thread_4` has room in its queue for the response to any command. -/
lemma exists_thread4Body (hlen : p.2.bytes.length ≤ maxKvsCmdSize)
    (hfound : (kvStoreGet R (stores p.1) (b.keyAt p)).2 < maxValLen)
    (hring : s.ring.entries.length < iouQueueLen) :
    ∃ q, thread4Body R stores b s p.1 = some q := by
  obtain ⟨ring, hpush, -⟩ := Ring.SubmissionQueue.exists_push hring ()
  rw [thread4Body, hpush, Option.bind_some, thread4Visit_place stores hlt hp hlen hfound]
  exact ⟨_, rfl⟩

/-- What `thread_4` has done at a place: it has a new entry in its queue, or it has sent as many
responses as there were entries with it. -/
lemma of_thread4Body {q : Walk4 × ℕ} (h : thread4Body R stores b s p.1 = some q) :
    q.2 = p.2.size ∧ (kvStoreGet R (stores p.1) (b.keyAt p)).2 < maxValLen ∧
      q.1.visits = s.visits ++ [b.visit4 R stores p] ∧
      ((s.ring.entries.length + 1 = iouQueueLen ∨ p.1 + p.2.size = b.cmdsLength) ∧
          q.1.ring.entries = [] ∧ q.1.sent =
            s.sent ++ List.replicate (s.ring.entries.length + 1) (b.response4 R stores p) ∨
        ¬ (s.ring.entries.length + 1 = iouQueueLen ∨ p.1 + p.2.size = b.cmdsLength) ∧
          q.1.ring.entries.length = s.ring.entries.length + 1 ∧ q.1.sent = s.sent) := by
  obtain ⟨ring, hpush, h⟩ := Option.bind_eq_some_iff.1 h
  obtain ⟨v, hv, rfl⟩ := Option.map_eq_some_iff.1 h
  obtain ⟨hfound, rfl⟩ := of_thread4Visit_place hlt hp hv
  have hentries : ring.entries.length = s.ring.entries.length + 1 := by
    rw [Ring.SubmissionQueue.entries_of_push hpush, List.length_append, List.length_singleton]
  have hsize : (b.visit4 R stores p).length = p.2.size := rfl
  simp only [hsize]
  rw [← hentries]
  split
  · rename_i hclose
    refine ⟨rfl, hfound, rfl, .inl ⟨hclose, rfl, ?_⟩⟩
    rw [Ring.SubmissionQueue.submit_const]
  · rename_i hopen
    exact ⟨rfl, hfound, rfl, .inr ⟨hopen, rfl, rfl⟩⟩

end Thread4

/-- The loop of a walk is at the end behind the last command of the batch. -/
lemma CmdBuffer.total_eq_iff {done rest : List KvsRecord} {r : KvsRecord}
    (h : b.commands = done ++ r :: rest) :
    Cursor.total KvsRecord.size done + r.size = b.cmdsLength ↔ rest = [] := by
  rw [← b.total_size, h, Cursor.total_append, Cursor.total_cons]
  constructor
  · intro heq
    cases rest with
    | nil => rfl
    | cons r' rest =>
        have := r'.size_pos
        rw [Cursor.total_cons] at heq
        omega
  · rintro rfl
    rw [Cursor.total_nil, Nat.add_zero]

/-- **`thread_4` gets to the end of a batch**, whatever its commands are, when all values that it
finds are shorter than `MAX_VAL_LEN`.  It sends its responses in groups, each of them replaced
by the last one of its group, and leaves its queue empty. -/
theorem exists_thread4Batch (stores : ℕ → DB) (hlt : b.cmdsLength ≤ cmdbufSize)
    (hlen : ∀ r ∈ b.commands, r.bytes.length ≤ maxKvsCmdSize)
    (hfound : ∀ p ∈ b.places, (kvStoreGet R (stores p.1) (b.keyAt p)).2 < maxValLen) :
    ∃ s, thread4Batch R stores b = some (s, b.cmdsLength) ∧
      s.visits = b.places.map (b.visit4 R stores) ∧
      s.sent = Ring.grouped iouQueueLen 0 (b.places.map (b.response4 R stores)) ∧
      s.ring.entries = [] := by
  let P : List (ℕ × KvsRecord) → Walk4 → Walk4 → Prop := fun ps s s' =>
    s'.visits = s.visits ++ ps.map (b.visit4 R stores) ∧
      s'.sent = s.sent ++
        Ring.grouped iouQueueLen s.ring.entries.length (ps.map (b.response4 R stores)) ∧
      (s.ring.entries = [] ∨ ps ≠ [] → s'.ring.entries = [])
  have hnil : ∀ s, P [] s s := by
    intro s
    refine ⟨by simp, by simp [Ring.grouped], fun h => ?_⟩
    exact h.resolve_right fun hne => hne rfl
  have hcons : ∀ done r rest s, b.commands = done ++ r :: rest →
      s.ring.entries.length < iouQueueLen →
      ∃ s₁, thread4Body R stores b s (Cursor.total KvsRecord.size done) = some (s₁, r.size) ∧
        s₁.ring.entries.length < iouQueueLen ∧
        ∀ s', P (Cursor.offsets KvsRecord.size (Cursor.total KvsRecord.size done + r.size) rest)
            s₁ s' →
          P ((Cursor.total KvsRecord.size done, r) ::
            Cursor.offsets KvsRecord.size (Cursor.total KvsRecord.size done + r.size) rest)
            s s' := by
    intro done r rest s hcommands hring
    have hp : (Cursor.total KvsRecord.size done, r) ∈ b.places :=
      Cursor.mem_offsets.2 ⟨done, rest, hcommands, (Nat.zero_add _).symm⟩
    have hr : r ∈ b.commands := CmdBuffer.mem_commands_of_place hp
    obtain ⟨⟨s₁, size⟩, hbody⟩ := exists_thread4Body hlt hp (hlen r hr) (hfound _ hp) hring
    obtain ⟨rfl, -, hvisits, hsent⟩ := of_thread4Body hlt hp hbody
    have hend : Cursor.total KvsRecord.size done + r.size = b.cmdsLength ↔
        (Cursor.offsets KvsRecord.size (Cursor.total KvsRecord.size done + r.size) rest).map
          (b.response4 R stores) = [] := by
      rw [CmdBuffer.total_eq_iff hcommands, ← List.length_eq_zero_iff, ← List.length_eq_zero_iff,
        List.length_map, Cursor.length_offsets]
    simp only [hend] at hsent
    refine ⟨s₁, hbody, ?_, ?_⟩
    · rcases hsent with ⟨-, hempty, -⟩ | ⟨hopen, hlength, -⟩
      · rw [hempty]
        decide
      · have := (not_or.1 hopen).1
        omega
    · rintro s' ⟨hvisits', hsent', hring'⟩
      refine ⟨?_, ?_, fun _ => ?_⟩
      · rw [hvisits', hvisits, List.map_cons, List.append_assoc, List.singleton_append]
      · rw [hsent', List.map_cons, Ring.grouped]
        rcases hsent with ⟨hclose, hempty, hsent⟩ | ⟨hopen, hlength, hsent⟩
        · rw [if_pos hclose, hsent, hempty, List.append_assoc, List.length_nil]
        · rw [if_neg hopen, hsent, hlength]
      · rcases hsent with ⟨-, hempty, -⟩ | ⟨hopen, -, -⟩
        · exact hring' (.inl hempty)
        · refine hring' (.inr fun hnil => (not_or.1 hopen).2 ?_)
          rw [hnil, List.map_nil]
  obtain ⟨s, hloop, -, hvisits, hsent, hring⟩ := Cursor.loop_total (s := ⟨[], .empty, []⟩)
    KvsRecord.size_pos hnil hcons b.length_commands_le (by decide)
  rw [b.total_size] at hloop
  exact ⟨s, hloop, hvisits, hsent, hring (.inl rfl)⟩

end Walks

end Oceanliner
