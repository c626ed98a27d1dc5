/-
# Reads see acknowledged writes

A write is acknowledged after it has been applied, and a GET is looked up after it has been
received.  So all that has to be shown is that nothing gets mixed up on the way: that
`thread_4` looks the GETs up in the order in which `thread_1` has received them, each under its
own key, and that `thread_5` acknowledges the commands in the order in which it applies them.
Between the two threads nothing is ordered, and nothing has to be: a lookup finds what
`thread_5` has applied by then, which is at least what it had acknowledged when the GET came in.
-/
import Oceanliner.Main.ReadPath
import Oceanliner.Main.StableLeader

open Bytes MapOps Transition

namespace Oceanliner

variable {n : ℕ} {DB : Type}

/-! ### Batches of commands -/

/-- The batch holds well-formed commands with the property `P`, in a buffer of bounded size. -/
structure CmdBuffer.Holds (P : MapCommand → Prop) (b : CmdBuffer n) : Prop where
  commands : ∀ r ∈ b.commands, ∃ c : MapCommand, c.toKvsRecord = r ∧ P c
  length_lt : b.cmdsLength < cmdbufSize + maxKvsCmdSize

/-- The batch holds SETs and DELETEs. -/
def WriteBatch (b : CmdBuffer n) : Prop := b.Holds fun c => c.op ≠ .get

/-- The batch holds GETs. -/
def ReadBatch (b : CmdBuffer n) : Prop := b.Holds fun c => c.op = .get

lemma CmdBuffer.cmdsLength_push (b : CmdBuffer n) (r : KvsRecord) :
    (b.push r).cmdsLength = b.cmdsLength + r.bytes.length :=
  length_recordBytes_concat b.commands r

namespace CmdBuffer.Holds

variable {P : MapCommand → Prop} {b : CmdBuffer n}

lemma of_nil (h : b.commands = []) : b.Holds P where
  commands := by
    rw [h]
    rintro r ⟨⟩
  length_lt := by
    rw [CmdBuffer.cmdsLength, CmdBuffer.data, h]
    decide

lemma push (hb : b.Holds P) {c : MapCommand} (hc : P c)
    (hroom : b.cmdsLength < cmdbufSize - 256) (hlen : c.bytes.length ≤ maxKvsCmdSize) :
    (b.push c.toKvsRecord).Holds P where
  commands := by
    intro r hr
    rcases List.mem_append.1 hr with hr | hr
    · exact hb.commands r hr
    · obtain rfl := List.mem_singleton.1 hr
      exact ⟨c, rfl, hc⟩
  length_lt := by
    rw [CmdBuffer.cmdsLength_push]
    omega

/-- The next command of the batch, in the buffer. -/
lemma next (hb : b.Holds P) {done rest : List KvsRecord} {r : KvsRecord}
    (hcommands : b.commands = done ++ r :: rest) :
    ∃ c : MapCommand, c.toKvsRecord = r ∧ P c ∧
      b.data = recordBytes done ++ (c.bytes ++ recordBytes rest) ∧
      (recordBytes done).length < 2 ^ 63 := by
  have hmem : r ∈ b.commands := by
    rw [hcommands]
    exact List.mem_append_right done List.mem_cons_self
  obtain ⟨c, rfl, hc⟩ := hb.commands r hmem
  have hdata : b.data = recordBytes done ++ (c.bytes ++ recordBytes rest) := by
    rw [CmdBuffer.data, hcommands, recordBytes_append, recordBytes_cons]
  have hlt := hb.length_lt
  rw [CmdBuffer.cmdsLength, hdata, List.length_append, cmdbufSize, maxKvsCmdSize] at hlt
  exact ⟨c, rfl, hc, hdata, by omega⟩

end CmdBuffer.Holds

/-- `thread_4` looks up the key of the command, and goes on behind it. -/
lemma thread4Command_eq {b : CmdBuffer n} (hb : ReadBatch b) {done rest : List KvsRecord}
    {r : KvsRecord} (hcommands : b.commands = done ++ r :: rest) {key : List UInt8} {length : ℕ}
    (h : thread4Command b (recordBytes done).length = some (key, length)) :
    mapOp r.bytes = .get key ∧ length = r.bytes.length := by
  obtain ⟨c, rfl, hget, hdata, hlt⟩ := hb.next hcommands
  have hmod := length_recordBytes_mod_eight done
  simp only [thread4Command, hdata] at h
  rw [c.toKvsRecord.kvsCommandLen_eq _ _ hmod, Option.bind_some, c.getKey_in _ _ hmod hlt,
    Option.map_some, c.cString_in] at h
  split at h
  · cases h
  · obtain ⟨rfl, rfl⟩ := Prod.mk.inj (Option.some.inj h)
    refine ⟨?_, rfl⟩
    rw [c.mapOp_bytes, MapCommand.toOp, hget]

section Ideal

variable {R : RocksDb DB} {view : DB → List UInt8 → Option (List UInt8)} (hR : R.Ideal view)

include hR

/-- `thread_5` applies the command to the map that the store holds. -/
lemma thread5Command_view {b : CmdBuffer n} (hb : WriteBatch b) {done rest : List KvsRecord}
    {r : KvsRecord} (hcommands : b.commands = done ++ r :: rest) {diskMap diskMap' : DB}
    {length : ℕ}
    (h : thread5Command R diskMap b (recordBytes done).length = some (diskMap', length)) :
    view diskMap' = MapOps.apply (view diskMap) (mapOp r.bytes) := by
  obtain ⟨c, rfl, hget, hdata, hlt⟩ := hb.next hcommands
  have hmod := length_recordBytes_mod_eight done
  simp only [thread5Command, hdata] at h
  rw [c.toKvsRecord.kvsCommandLen_eq _ _ hmod, Option.bind_some, c.getKey_in _ _ hmod hlt,
    Option.bind_some, c.cString_in, c.toKvsRecord.opType_eq, c.op_eq, kvsCommandGetValue,
    if_pos hmod, Option.map_some, c.toKvsRecord.valueLength_eq, c.value_in] at h
  split at h
  · cases h
  · rw [c.mapOp_bytes, MapCommand.toOp]
    cases hop : c.op with
    | nop => exact absurd hop c.op_ne
    | get => exact absurd hop hget
    | set =>
        rw [hop] at h
        obtain ⟨rfl, rfl⟩ := Prod.mk.inj (Option.some.inj h)
        exact (kvStoreSet_view hR diskMap c.key c.value).2
    | delete =>
        rw [hop] at h
        obtain ⟨rfl, rfl⟩ := Prod.mk.inj (Option.some.inj h)
        exact (kvStoreDelete_view hR diskMap c.key).2

end Ideal

/-! ### The invariant -/

/-- The places of the commands from an offset of a batch on, with the operations they stand
for. -/
def askedFrom (id : BatchId n) :
    ℕ → List KvsRecord → List (Place n × Op (List UInt8) (List UInt8))
  | _, [] => []
  | offset, r :: rs => (⟨id, offset⟩, mapOp r.bytes) :: askedFrom id (offset + r.bytes.length) rs

lemma askedFrom_append (id : BatchId n) (offset : ℕ) (rs rs' : List KvsRecord) :
    askedFrom id offset (rs ++ rs') =
      askedFrom id offset rs ++ askedFrom id (offset + (recordBytes rs).length) rs' := by
  induction rs generalizing offset with
  | nil => rfl
  | cons r rs ih =>
      rw [List.cons_append, askedFrom, askedFrom, ih, recordBytes_cons, List.length_append,
        Nat.add_assoc, List.cons_append]

/-- What a batch asks `thread_4`. -/
def CmdBuffer.asked (b : CmdBuffer n) : List (Place n × Op (List UInt8) (List UInt8)) :=
  askedFrom b.id 0 b.commands

/-- A command at the end of a batch is asked for last. -/
lemma CmdBuffer.asked_push (b : CmdBuffer n) (r : KvsRecord) :
    (b.push r).asked = b.asked ++ [(⟨b.id, b.cmdsLength⟩, mapOp r.bytes)] := by
  show askedFrom b.id 0 (b.commands ++ [r]) = _
  rw [askedFrom_append, Nat.zero_add]
  rfl

/-- What a GET that has been received asks. -/
def ReceivedGet.asked (g : ReceivedGet n) : Place n × Op (List UInt8) (List UInt8) :=
  (g.place, mapOp g.datagram)

/-- The write and read batches that `thread_3` has not taken, the oldest first. -/
def openBatches (s : Server n DB) : List (CmdBuffer n × CmdBuffer n) :=
  s.queue13 ++ s.thread1.buffers.toList

/-- The read batches on their way to `thread_4`, the oldest first. -/
def readBatches (s : LeaderNode n DB) : List (CmdBuffer n) :=
  s.queue34 ++ (s.readCmds.toList ++ (openBatches s.server).map Prod.snd)

/-- The write batches on their way to `thread_5`. -/
def writeBatches (s : Server n DB) : List (CmdBuffer n) :=
  s.queue35 ++ (s.thread3.written ++ (s.thread3.toLog ++ (openBatches s).map Prod.fst))

/-- What `thread_4` is still asked by its batch. -/
def Thread4.ToRead : Thread4 n → List (Place n × Op (List UInt8) (List UInt8)) → Prop
  | .idle, todo => todo = []
  | .reading b processed, todo => ReadBatch b ∧ ∃ done rest, b.commands = done ++ rest ∧
      processed = (recordBytes done).length ∧ todo = askedFrom b.id processed rest
  | .answering b processed length _, todo => ReadBatch b ∧ ∃ done rest,
      b.commands = done ++ rest ∧ processed + length = (recordBytes done).length ∧
        todo = askedFrom b.id (processed + length) rest

/-- `thread_5` stands between two commands of a batch of writes. -/
def Thread5.Between : Thread5 n → Prop
  | .idle => True
  | .applying b processed => WriteBatch b ∧ ∃ done rest, b.commands = done ++ rest ∧
      processed = (recordBytes done).length
  | .answering b processed length => WriteBatch b ∧ ∃ done rest, b.commands = done ++ rest ∧
      processed + length = (recordBytes done).length

/-- The command that `thread_5` has applied and not answered. -/
def Thread5.unanswered : Thread5 n → List (CmdBuffer n × List UInt8)
  | .answering b processed _ => [(b, commandAt b.data processed)]
  | _ => []

/-- The operations that a list of commands stands for. -/
def operations (commands : List (CmdBuffer n × List UInt8)) :
    List (Op (List UInt8) (List UInt8)) :=
  commands.map fun command => mapOp command.2

/-- A call of `kv_store_get` is for the GET `g`, and has found what the commands applied by then
make of the map `m`. -/
structure Finds (m : List UInt8 → Option (List UInt8)) (applied : List (CmdBuffer n × List UInt8))
    (d : PerformedGet n) (g : ReceivedGet n) : Prop where
  asked : g.asked = (d.place, .get d.key)
  acked_le : g.acked ≤ d.applied
  applied_le : d.applied ≤ applied.length
  result : d.result.1 = MapOps.exec m (operations (applied.take d.applied)) d.key

lemma Finds.append {m : List UInt8 → Option (List UInt8)}
    {applied : List (CmdBuffer n × List UInt8)} {d : PerformedGet n} {g : ReceivedGet n}
    (h : Finds m applied d g) (more : List (CmdBuffer n × List UInt8)) :
    Finds m (applied ++ more) d g where
  asked := h.asked
  acked_le := h.acked_le
  applied_le := by
    rw [List.length_append]
    exact Nat.le_add_right_of_le h.applied_le
  result := by
    rw [List.take_append_of_le_length h.applied_le]
    exact h.result

/-- The leader carries its commands out in order, on a store that has started as the map `m`. -/
structure Serving (view : DB → List UInt8 → Option (List UInt8))
    (m : List UInt8 → Option (List UInt8)) (s : LeaderNode n DB) : Prop where
  leads : s.server.raft.state = .leader
  term : ∀ w r, s.server.thread1.buffers = some (w, r) → w.term = s.server.raft.currentTerm
  writes : ∀ b ∈ writeBatches s.server, WriteBatch b
  thread5 : s.server.thread5.Between
  stored : view s.server.diskMap = MapOps.exec m (operations s.server.applied)
  acked : s.server.acked ++ s.server.thread5.unanswered = s.server.applied
  reads : ∀ b ∈ readBatches s, ReadBatch b
  idle : s.server.thread3 = .idle → s.readCmds = none
  received : ∀ g ∈ s.received, g.acked ≤ s.server.acked.length
  inOrder : ∃ done waiting todo, s.received = done ++ waiting ∧
    List.Forall₂ (Finds m s.server.applied) s.performed done ∧ s.thread4.ToRead todo ∧
      waiting.map ReceivedGet.asked = todo ++ (readBatches s).flatMap CmdBuffer.asked

/-! ### What the threads can do -/

/-- In a step without a datagram `thread_1` keeps its buffers, opens new ones, drops them because
the term is another one or they are empty, or enqueues them. -/
lemma thread1Step_tick {self : Fin n} {s s' : Server n DB} {timeUp : Bool}
    (h : thread1Step self s (.tick timeUp) = some s') :
    (∃ t, t.buffers = s.thread1.buffers ∧ s' = { s with thread1 := t }) ∨
      (∃ t, s.thread1.buffers = none ∧
        t.buffers = some (thread1Open s.raft ⟨self, s.opened⟩, thread1Open s.raft ⟨self, s.opened⟩) ∧
        s' = { s with thread1 := t, opened := s.opened + 1 }) ∨
      (∃ w r, s.thread1.buffers = some (w, r) ∧
        (s.raft.currentTerm ≠ w.term ∨ r.commands = []) ∧ s' = { s with thread1 := .idle }) ∨
      ∃ w r enqueued, s.thread1.buffers = some (w, r) ∧
        s' = { s with
          thread1 := .idle, queue13 := s.queue13 ++ [(w, r)], enqueued := enqueued } := by
  rw [thread1Step] at h
  split at h
  · rename_i hfrom
    split at h
    · obtain rfl := Option.some.inj h
      exact .inl ⟨.leaderSeen, by rw [hfrom]; rfl, rfl⟩
    · cases h
  · rename_i hfrom
    obtain rfl := Option.some.inj h
    exact .inr (.inl ⟨_, by rw [hfrom]; rfl, rfl, rfl⟩)
  · rename_i w r hfrom
    split at h
    · obtain rfl := Option.some.inj h
      exact .inl ⟨.closing w r, by rw [hfrom]; rfl, rfl⟩
    · obtain rfl := Option.some.inj h
      exact .inl ⟨.receiving w r, by rw [hfrom]; rfl, rfl⟩
  · rename_i w r hfrom
    obtain rfl := Option.some.inj h
    exact .inl ⟨.filling w r, by rw [hfrom]; rfl, rfl⟩
  · rename_i w r hfrom
    have hbuffers : s.thread1.buffers = some (w, r) := by rw [hfrom]; rfl
    split at h
    · rename_i hterm
      obtain rfl := Option.some.inj h
      exact .inr (.inr (.inl ⟨w, r, hbuffers, .inl hterm, rfl⟩))
    · split at h
      · rename_i hempty
        obtain rfl := Option.some.inj h
        exact .inr (.inr (.inl ⟨w, r, hbuffers, .inr (CmdBuffer.commands_eq_nil hempty.2), rfl⟩))
      · obtain rfl := Option.some.inj h
        exact .inl ⟨.enqueueing w r, by rw [hfrom]; rfl, rfl⟩
  · rename_i w r hfrom
    obtain rfl := Option.some.inj h
    exact .inr (.inr (.inr ⟨w, r, _, by rw [hfrom]; rfl, rfl⟩))

/-- A well-formed datagram becomes a command at the end of the buffer for its type. -/
lemma thread1Step_datagram {self : Fin n} {s s' : Server n DB} {bytes : List UInt8}
    {memory : ℕ → UInt8} (hbytes : WellFormed bytes)
    (h : thread1Step self s (.datagram bytes memory) = some s') :
    ∃ (w r w' r' : CmdBuffer n) (t : Thread1 n) (admitted : List (List UInt8)) (c : MapCommand),
      s.thread1 = .receiving w r ∧ t.buffers = some (w', r') ∧
      s' = { s with thread1 := t, admitted := admitted } ∧ mapOp bytes = c.toOp ∧
      c.bytes.length ≤ maxKvsCmdSize ∧
      ((isGet bytes = true ∧ c.op = .get ∧ r.cmdsLength < cmdbufSize - 256 ∧ w' = w ∧
          r' = r.push c.toKvsRecord) ∨
        (isGet bytes = false ∧ c.op ≠ .get ∧ w.cmdsLength < cmdbufSize - 256 ∧
          w' = w.push c.toKvsRecord ∧ r' = r)) := by
  rw [thread1Step] at h
  split at h
  · rename_i w r hfrom
    obtain ⟨⟨w', r'⟩, hadmit, rfl⟩ := Option.map_eq_some_iff.1 h
    obtain ⟨c, hc, hop, hget⟩ := hbytes.exists_command memory
    have hlen := length_paddedDatagram_le memory hbytes.isCommand
    rw [← hc] at hlen
    refine ⟨w, r, w', r', _, _, c, hfrom, Thread1.buffers_closing_or_filling _ _ _, rfl, hop,
      hlen, ?_⟩
    rw [thread1Admit, dif_pos hbytes.isCommand, ← hc] at hadmit
    cases hisGet : isGet bytes with
    | true =>
        simp only [hisGet, if_true] at hadmit
        split at hadmit
        · cases hadmit
        · rename_i hroom
          obtain ⟨rfl, rfl⟩ := Prod.mk.inj (Option.some.inj hadmit)
          exact .inl ⟨rfl, hget.1 hisGet, Nat.lt_of_not_le hroom, rfl, rfl⟩
    | false =>
        simp only [hisGet, Bool.false_eq_true, if_false] at hadmit
        split at hadmit
        · cases hadmit
        · rename_i hroom
          obtain ⟨rfl, rfl⟩ := Prod.mk.inj (Option.some.inj hadmit)
          refine .inr ⟨rfl, fun hop => ?_, Nat.lt_of_not_le hroom, rfl, rfl⟩
          rw [hget.2 hop] at hisGet
          cases hisGet
  · cases h

lemma receivedGet_datagram {s : Server n DB} {w r : CmdBuffer n} (h : s.thread1 = .receiving w r)
    (bytes : List UInt8) (memory : ℕ → UInt8) : receivedGet s (.datagram bytes memory) =
      if isGet bytes = true then [⟨⟨r.id, r.cmdsLength⟩, bytes, s.acked.length⟩] else [] := by
  rw [receivedGet, h]

/-- What `thread_3` can do: take the next batches, enqueue the read batch, or go on with the
write batch. -/
lemma leaderThread3Step_spec {self : Fin n} {s s' : LeaderNode n DB}
    (h : leaderThread3Step self s = some s') :
    (∃ w r rest, s.server.thread3 = .idle ∧ s.server.queue13 = (w, r) :: rest ∧
      s' = { s with
        server := { s.server with thread3 := .building w r, queue13 := rest }
        readCmds := some r }) ∨
      (∃ w r, s.server.thread3 = .enqueueing w ∧ s.readCmds = some r ∧
        s' = { s with readCmds := none, queue34 := s.queue34 ++ [r] }) ∨
      ∃ server out, Thread3Outcome self s.server server out ∧ s.server.thread3 ≠ .idle ∧
        (∀ w, s.server.thread3 = .enqueueing w → s.readCmds = none) ∧
        s' = { s with server := server } := by
  rw [leaderThread3Step] at h
  split at h
  · rename_i hidle
    obtain ⟨⟨server, out⟩, hstep, rfl⟩ := Option.map_eq_some_iff.1 h
    obtain ⟨w, r, rest, hqueue, rfl⟩ := (thread3Step_spec hstep).of_idle hidle
    refine .inl ⟨w, r, rest, hidle, hqueue, ?_⟩
    rw [hqueue]
    rfl
  · rename_i w r hfrom hr
    obtain rfl := Option.some.inj h
    exact .inr (.inl ⟨w, r, hfrom, hr, rfl⟩)
  · rename_i hnotidle hnot
    obtain ⟨⟨server, out⟩, hstep, rfl⟩ := Option.map_eq_some_iff.1 h
    refine .inr (.inr ⟨server, out, thread3Step_spec hstep, hnotidle, ?_, rfl⟩)
    intro w hw
    cases hr : s.readCmds with
    | none => rfl
    | some r => exact (hnot w r hw hr).elim

/-- `thread_3` takes no write batch away and brings none. -/
lemma Thread3Outcome.writeBatches_eq {self : Fin n} {s s' : Server n DB} {out : Outgoing n}
    (h : Thread3Outcome self s s' out) : writeBatches s' = writeBatches s := by
  cases h with
  | takes hidle hqueue =>
      simp [writeBatches, openBatches, hidle, hqueue, Thread3.written, Thread3.toLog]
  | builds hfrom => simp [writeBatches, openBatches, hfrom, Thread3.written, Thread3.toLog]
  | sends hfrom => simp [writeBatches, openBatches, hfrom, Thread3.written, Thread3.toLog]
  | waits hfrom => simp [writeBatches, openBatches, hfrom, Thread3.written, Thread3.toLog]
  | counts hfrom => simp [writeBatches, openBatches, hfrom, Thread3.written, Thread3.toLog]
  | skips hfrom => rfl
  | commits hfrom => simp [writeBatches, openBatches, hfrom, Thread3.written, Thread3.toLog]
  | logs hfrom => simp [writeBatches, openBatches, hfrom, Thread3.written, Thread3.toLog]
  | enqueues hfrom => simp [writeBatches, openBatches, hfrom, Thread3.written, Thread3.toLog]

namespace Serving

variable {R : RocksDb DB} {view : DB → List UInt8 → Option (List UInt8)}
  {m : List UInt8 → Option (List UInt8)} {self : Fin n} {s s' : LeaderNode n DB}

lemma start (view : DB → List UInt8 → Option (List UInt8)) {raft : RaftVars}
    (hleader : raft.state = .leader) (diskMap : DB) :
    Serving view (view diskMap) (LeaderNode.start raft diskMap : LeaderNode n DB) where
  leads := hleader
  term := by rintro w r ⟨⟩
  writes := by rintro b ⟨⟩
  thread5 := trivial
  stored := rfl
  acked := rfl
  reads := by rintro b ⟨⟩
  idle := fun _ => rfl
  received := by rintro g ⟨⟩
  inOrder := ⟨[], [], [], rfl, .nil, rfl, rfl⟩

/-- A step of `thread_1`: the batches that `thread_3` has not taken ask what they have asked
before, and what the GETs that have been received ask. -/
lemma of_thread1 (hs : Serving view m s) {t : Thread1 n} {queue13 : List (CmdBuffer n × CmdBuffer n)}
    {opened : ℕ} {enqueued : List (CmdBuffer n)} {admitted : List (List UInt8)}
    (fresh : List (ReceivedGet n))
    (hterm : ∀ w r, t.buffers = some (w, r) → w.term = s.server.raft.currentTerm)
    (hbatches : ∀ p ∈ queue13 ++ t.buffers.toList, WriteBatch p.1 ∧ ReadBatch p.2)
    (hasked : ((queue13 ++ t.buffers.toList).map Prod.snd).flatMap CmdBuffer.asked =
      ((openBatches s.server).map Prod.snd).flatMap CmdBuffer.asked ++
        fresh.map ReceivedGet.asked)
    (hfresh : ∀ g ∈ fresh, g.acked = s.server.acked.length) :
    Serving view m
      { s with
        server := { s.server with
          thread1 := t, queue13 := queue13, opened := opened, enqueued := enqueued
          admitted := admitted }
        received := s.received ++ fresh } where
  leads := hs.leads
  term := hterm
  writes := by
    intro b hb
    have hwrites := hs.writes
    simp only [writeBatches, openBatches, List.mem_append] at hb hwrites
    rcases hb with hb | hb | hb | hb
    · exact hwrites b (.inl hb)
    · exact hwrites b (.inr (.inl hb))
    · exact hwrites b (.inr (.inr (.inl hb)))
    · obtain ⟨p, hp, rfl⟩ := List.mem_map.1 hb
      exact (hbatches p hp).1
  thread5 := hs.thread5
  stored := hs.stored
  acked := hs.acked
  reads := by
    intro b hb
    have hreads := hs.reads
    simp only [readBatches, openBatches, List.mem_append] at hb hreads
    rcases hb with hb | hb | hb
    · exact hreads b (.inl hb)
    · exact hreads b (.inr (.inl hb))
    · obtain ⟨p, hp, rfl⟩ := List.mem_map.1 hb
      exact (hbatches p hp).2
  idle := hs.idle
  received := by
    intro g hg
    rcases List.mem_append.1 hg with hg | hg
    · exact hs.received g hg
    · exact (hfresh g hg).le
  inOrder := by
    obtain ⟨done, waiting, todo, hreceived, hdone, htodo, hwaiting⟩ := hs.inOrder
    refine ⟨done, waiting ++ fresh, todo, ?_, hdone, htodo, ?_⟩
    · show s.received ++ fresh = _
      rw [hreceived, List.append_assoc]
    · rw [List.map_append, hwaiting, readBatches, readBatches, List.flatMap_append,
        List.flatMap_append, List.flatMap_append, List.flatMap_append]
      show _ = todo ++ (_ ++ (_ ++ ((queue13 ++ t.buffers.toList).map Prod.snd).flatMap _))
      rw [hasked]
      simp only [List.append_assoc]

/-- The batches that `thread_3` has not taken are of the two kinds. -/
lemma openBatches_spec (hs : Serving view m s) {p : CmdBuffer n × CmdBuffer n}
    (hp : p ∈ openBatches s.server) : WriteBatch p.1 ∧ ReadBatch p.2 := by
  constructor
  · refine hs.writes p.1 ?_
    rw [writeBatches]
    exact List.mem_append_right _ (List.mem_append_right _ (List.mem_append_right _
      (List.mem_map_of_mem hp)))
  · refine hs.reads p.2 ?_
    rw [readBatches]
    exact List.mem_append_right _ (List.mem_append_right _ (List.mem_map_of_mem hp))

lemma of_tick (hs : Serving view m s) {timeUp : Bool} {server : Server n DB}
    (h : thread1Step self s.server (.tick timeUp) = some server) :
    Serving view m { s with server := server } := by
  have hterm := hs.term
  have hbatches : ∀ p ∈ openBatches s.server, WriteBatch p.1 ∧ ReadBatch p.2 := fun p hp =>
    hs.openBatches_spec hp
  have hnil : s.received = s.received ++ [] := (List.append_nil _).symm
  rw [openBatches] at hbatches
  rcases thread1Step_tick h with ⟨t, hto, rfl⟩ | ⟨t, hfrom, hto, rfl⟩ |
    ⟨w, r, hfrom, hwhy, rfl⟩ | ⟨w, r, enqueued, hfrom, rfl⟩
  · rw [← hto] at hterm hbatches
    rw [hnil]
    refine hs.of_thread1 [] hterm hbatches ?_ (by rintro g ⟨⟩)
    rw [openBatches, hto, List.map_nil, List.append_nil]
  · rw [hnil]
    refine hs.of_thread1 [] ?_ ?_ ?_ (by rintro g ⟨⟩)
    · intro w r hbuffers
      rw [hto] at hbuffers
      obtain ⟨rfl, rfl⟩ := Prod.mk.inj (Option.some.inj hbuffers)
      rfl
    · intro p hp
      rw [hfrom, Option.toList_none, List.append_nil] at hbatches
      rw [hto, Option.toList_some] at hp
      rcases List.mem_append.1 hp with hp | hp
      · exact hbatches p hp
      · obtain rfl := List.mem_singleton.1 hp
        exact ⟨.of_nil rfl, .of_nil rfl⟩
    · rw [openBatches, hfrom, hto]
      simp [CmdBuffer.asked, thread1Open, askedFrom]
  · -- the term is still the one of the batch, so only an empty batch is dropped
    have hempty : r.commands = [] := hwhy.resolve_left fun hne => hne (hterm w r hfrom).symm
    rw [hnil]
    refine hs.of_thread1 [] (by rintro w' r' ⟨⟩) ?_ ?_ (by rintro g ⟨⟩)
    · intro p hp
      rw [Thread1.buffers, Option.toList_none, List.append_nil] at hp
      exact hbatches p (List.mem_append_left _ hp)
    · rw [openBatches, hfrom]
      simp [CmdBuffer.asked, hempty, askedFrom, Thread1.buffers]
  · rw [hfrom, Option.toList_some] at hbatches
    rw [hnil]
    refine hs.of_thread1 [] (by rintro w' r' ⟨⟩) ?_ ?_ (by rintro g ⟨⟩)
    · rw [Thread1.buffers, Option.toList_none, List.append_nil]
      exact hbatches
    · rw [openBatches, hfrom]
      simp [Thread1.buffers]

lemma of_datagram (hs : Serving view m s) {bytes : List UInt8} {memory : ℕ → UInt8}
    {server : Server n DB} (hbytes : WellFormed bytes)
    (h : thread1Step self s.server (.datagram bytes memory) = some server) :
    Serving view m
      { s with
        server := server
        received := s.received ++ receivedGet s.server (.datagram bytes memory) } := by
  obtain ⟨w, r, w', r', t, admitted, c, hfrom, hto, rfl, hop, hlen, hwhich⟩ :=
    thread1Step_datagram hbytes h
  have hbuffers : s.server.thread1.buffers = some (w, r) := by rw [hfrom]; rfl
  have hbatches : ∀ p ∈ openBatches s.server, WriteBatch p.1 ∧ ReadBatch p.2 := fun p hp =>
    hs.openBatches_spec hp
  rw [openBatches, hbuffers, Option.toList_some] at hbatches
  obtain ⟨hw, hr⟩ := hbatches (w, r) (List.mem_append_right _ (List.mem_singleton_self _))
  have hterm : ∀ w₁ r₁, t.buffers = some (w₁, r₁) → w₁.term = s.server.raft.currentTerm := by
    refine Thread1.forall_buffers hto ?_
    rcases hwhich with ⟨-, -, -, rfl, -⟩ | ⟨-, -, -, rfl, -⟩
    · exact hs.term _ r hbuffers
    · exact hs.term w r hbuffers
  have hnew : ∀ p ∈ s.server.queue13 ++ t.buffers.toList, WriteBatch w' → ReadBatch r' →
      WriteBatch p.1 ∧ ReadBatch p.2 := by
    intro p hp hw' hr'
    rw [hto, Option.toList_some] at hp
    rcases List.mem_append.1 hp with hp | hp
    · exact hbatches p (List.mem_append_left _ hp)
    · obtain rfl := List.mem_singleton.1 hp
      exact ⟨hw', hr'⟩
  rcases hwhich with ⟨hisGet, hget, hroom, rfl, rfl⟩ | ⟨hisGet, hget, hroom, rfl, rfl⟩
  · -- a GET is put where the read buffer ends
    rw [receivedGet_datagram hfrom, if_pos hisGet]
    refine hs.of_thread1 _ hterm (fun p hp => hnew p hp hw (hr.push hget hroom hlen)) ?_ ?_
    · rw [openBatches, hbuffers, hto]
      simp [CmdBuffer.asked_push, ReceivedGet.asked, hop, c.mapOp_bytes]
    · intro g hg
      obtain rfl := List.mem_singleton.1 hg
      rfl
  · rw [receivedGet_datagram hfrom, if_neg (by simp [hisGet])]
    refine hs.of_thread1 [] hterm (fun p hp => hnew p hp (hw.push hget hroom hlen) hr) ?_
      (by rintro g ⟨⟩)
    rw [openBatches, hbuffers, hto]
    simp

lemma of_thread3 (hs : Serving view m s) (h : leaderThread3Step self s = some s') :
    Serving view m s' := by
  have hwrites := hs.writes
  have hreads := hs.reads
  obtain ⟨done, waiting, todo, hreceived, hdone, htodo, hwaiting⟩ := hs.inOrder
  rcases leaderThread3Step_spec h with ⟨w, r, rest, hidle, hqueue, rfl⟩ | ⟨w, r, hfrom, hr, rfl⟩ |
    ⟨server, out, hout, hnotidle, hnone, rfl⟩
  · have hbatches : readBatches { s with
        server := { s.server with thread3 := .building w r, queue13 := rest }
        readCmds := some r } = readBatches s := by
      simp [readBatches, openBatches, hqueue, hs.idle hidle]
    have htakes : Thread3Outcome self s.server
        { s.server with thread3 := .building w r, queue13 := rest } none :=
      .takes hidle hqueue
    rw [← hbatches] at hreads hwaiting
    rw [← htakes.writeBatches_eq] at hwrites
    exact { hs with
      writes := hwrites
      reads := hreads
      idle := by rintro ⟨⟩
      inOrder := ⟨done, waiting, todo, hreceived, hdone, htodo, hwaiting⟩ }
  · have hbatches : readBatches { s with readCmds := none, queue34 := s.queue34 ++ [r] } =
        readBatches s := by
      simp [readBatches, hr]
    rw [← hbatches] at hreads hwaiting
    exact { hs with
      reads := hreads
      idle := fun _ => rfl
      inOrder := ⟨done, waiting, todo, hreceived, hdone, htodo, hwaiting⟩ }
  · rw [← hout.writeBatches_eq] at hwrites
    cases hout with
    | takes hidle => exact absurd hidle hnotidle
    | builds => exact { hs with writes := hwrites, idle := by rintro ⟨⟩ }
    | sends => exact { hs with writes := hwrites, idle := by rintro ⟨⟩ }
    | waits => exact { hs with writes := hwrites, idle := by rintro ⟨⟩ }
    | counts => exact { hs with writes := hwrites, idle := by rintro ⟨⟩ }
    | skips => exact { hs with writes := hwrites, idle := fun hidle => absurd hidle hnotidle }
    | commits => exact { hs with writes := hwrites, idle := by rintro ⟨⟩ }
    | logs => exact { hs with writes := hwrites, idle := by rintro ⟨⟩ }
    | @enqueues w hfrom => exact { hs with writes := hwrites, idle := fun _ => hnone w hfrom }

section Ideal

variable (hR : R.Ideal view)

include hR

lemma of_thread4 (hs : Serving view m s) (h : thread4Step R s = some s') :
    Serving view m s' := by
  have hreads := hs.reads
  obtain ⟨done, waiting, todo, hreceived, hdone, htodo, hwaiting⟩ := hs.inOrder
  rw [thread4Step] at h
  split at h
  · rename_i hidle
    split at h
    · cases h
    · rename_i b rest hqueue
      obtain rfl := Option.some.inj h
      rw [hidle] at htodo
      obtain rfl := htodo
      have hbatches : readBatches s =
          b :: readBatches { s with thread4 := .reading b 0, queue34 := rest } := by
        simp [readBatches, hqueue]
      rw [hbatches] at hreads hwaiting
      refine { hs with
        reads := fun b' hb' => hreads b' (List.mem_cons_of_mem b hb')
        inOrder := ⟨done, waiting, b.asked, hreceived, hdone, ?_, hwaiting⟩ }
      exact ⟨hreads b List.mem_cons_self, [], b.commands, rfl, rfl, rfl⟩
  · rename_i b processed hfrom
    rw [hfrom] at htodo
    obtain ⟨hb, before, rest, hcommands, rfl, rfl⟩ := htodo
    split at h
    · rename_i hlt
      obtain ⟨⟨key, length⟩, hcommand, rfl⟩ := Option.map_eq_some_iff.1 h
      obtain ⟨r, rest', rfl⟩ := exists_next hcommands hlt
      obtain ⟨hop, rfl⟩ := thread4Command_eq hb hcommands hcommand
      -- the oldest GET that waits is the one that is looked up
      rw [askedFrom, hop, List.cons_append] at hwaiting
      obtain ⟨g, waiting', rfl, hg, hwaiting'⟩ := List.map_eq_cons_iff.1 hwaiting
      refine { hs with
        inOrder := ⟨done ++ [g], waiting', askedFrom b.id _ rest', ?_, ?_, ?_, hwaiting'⟩ }
      · show s.received = _
        rw [hreceived, List.append_assoc]
        rfl
      · refine List.rel_append hdone (.cons ?_ .nil)
        have hacked : g.acked ≤ s.server.applied.length := by
          have hle := hs.received g (by rw [hreceived]; simp)
          rw [← hs.acked, List.length_append]
          exact Nat.le_add_right_of_le hle
        exact
          { asked := hg
            acked_le := hacked
            applied_le := le_refl _
            result := by
              show (kvStoreGet R s.server.diskMap key).1 = _
              rw [kvStoreGet_view hR, hs.stored, List.take_length] }
      · refine ⟨hb, before ++ [r], rest', ?_, ?_, rfl⟩
        · rw [hcommands, List.append_assoc]
          rfl
        · exact (length_recordBytes_concat before r).symm
    · rename_i hend
      obtain rfl := Option.some.inj h
      obtain rfl := rest_eq_nil hcommands (Nat.le_of_not_lt hend)
      exact { hs with inOrder := ⟨done, waiting, [], hreceived, hdone, rfl, hwaiting⟩ }
  · rename_i b processed length result hfrom
    rw [hfrom] at htodo
    split at h
    · obtain rfl := Option.some.inj h
      exact { hs with inOrder := ⟨done, waiting, todo, hreceived, hdone, htodo, hwaiting⟩ }
    · cases h

lemma of_thread5 (hs : Serving view m s) {server : Server n DB}
    (h : thread5Step R s.server = some server) : Serving view m { s with server := server } := by
  have hthread5 := hs.thread5
  have hacked := hs.acked
  cases thread5Step_spec h with
  | @takes b rest hidle hqueue =>
      have hwrites := hs.writes
      rw [writeBatches, hqueue] at hwrites
      rw [hidle] at hacked
      exact { hs with
        writes := fun b' hb' => hwrites b' (List.mem_cons_of_mem b hb')
        thread5 := ⟨hwrites b List.mem_cons_self, [], b.commands, rfl, rfl⟩
        acked := hacked }
  | @applies b processed length diskMap hfrom hlt hcommand =>
      rw [hfrom] at hthread5 hacked
      obtain ⟨hb, before, rest, hcommands, rfl⟩ := hthread5
      obtain ⟨r, rest', rfl, hat, rfl⟩ := applies_next hcommands hlt hcommand
      have hview := thread5Command_view hR hb hcommands hcommand
      obtain ⟨done, waiting, todo, hreceived, hdone, htodo, hwaiting⟩ := hs.inOrder
      refine { hs with
        thread5 := ⟨hb, before ++ [r], rest', ?_, ?_⟩
        stored := ?_
        acked := ?_
        inOrder := ⟨done, waiting, todo, hreceived, ?_, htodo, hwaiting⟩ }
      · rw [hcommands, List.append_assoc]
        rfl
      · exact (length_recordBytes_concat before r).symm
      · rw [hview, hs.stored, operations, operations, List.map_append, exec_append]
        simp only [List.map_cons, List.map_nil, hat]
        rfl
      · rw [← hacked]
        show _ = s.server.acked ++ [] ++ _
        rw [List.append_nil]
        rfl
      · exact hdone.imp fun d g hd => hd.append _
  | finishes hfrom =>
      rw [hfrom] at hacked
      exact { hs with thread5 := trivial, acked := hacked }
  | @answers b processed length hfrom =>
      rw [hfrom] at hthread5 hacked
      refine { hs with
        thread5 := hthread5
        acked := ?_
        received := ?_ }
      · rw [← hacked]
        simp [Thread5.unanswered]
      · intro g hg
        rw [List.length_append]
        exact Nat.le_add_right_of_le (hs.received g hg)
  | keepsSilent hfrom =>
      -- a leader answers
      rw [thread5Step, hfrom] at h
      simp [hs.leads] at h

/-- **The leader stays in order.** -/
theorem step (hs : Serving view m s) {a : LeaderAction n} (ha : a.WellFormed)
    (h : leaderStep R self s a = some s') : Serving view m s' := by
  cases a with
  | thread1 event =>
      obtain ⟨server, hstep, rfl⟩ := Option.map_eq_some_iff.1 h
      cases event with
      | tick timeUp =>
          rw [receivedGet, List.append_nil]
          exact hs.of_tick hstep
      | datagram bytes memory => exact hs.of_datagram ha hstep
  | ok ok =>
      obtain rfl := Option.some.inj h
      exact { hs with }
  | thread3 => exact hs.of_thread3 h
  | thread4 => exact hs.of_thread4 hR h
  | thread5 =>
      obtain ⟨server, hstep, rfl⟩ := Option.map_eq_some_iff.1 h
      exact hs.of_thread5 hR hstep

end Ideal

end Serving

/-! ### Places -/

/-- No two GETs are put at the same place: in the open read batch all are before its end, and
every other batch is an earlier one. -/
structure Placing (s : LeaderNode n DB) : Prop where
  nodup : (s.received.map ReceivedGet.place).Nodup
  opened : ∀ g ∈ s.received, g.place.batch.serial < s.server.opened
  current : ∀ w r, s.server.thread1.buffers = some (w, r) → r.id.serial < s.server.opened ∧
    ∀ g ∈ s.received, g.place.batch = r.id → g.place.offset < r.cmdsLength

namespace Placing

variable {R : RocksDb DB} {self : Fin n} {s s' : LeaderNode n DB}

lemma start (raft : RaftVars) (diskMap : DB) :
    Placing (LeaderNode.start raft diskMap : LeaderNode n DB) where
  nodup := List.nodup_nil
  opened := by rintro g ⟨⟩
  current := by rintro w r ⟨⟩

lemma of_tick (hs : Placing s) {timeUp : Bool} {server : Server n DB}
    (h : thread1Step self s.server (.tick timeUp) = some server) :
    Placing { s with server := server } := by
  have hcurrent := hs.current
  rcases thread1Step_tick h with ⟨t, hto, rfl⟩ | ⟨t, hfrom, hto, rfl⟩ |
    ⟨w, r, hfrom, hwhy, rfl⟩ | ⟨w, r, enqueued, hfrom, rfl⟩
  · rw [← hto] at hcurrent
    exact { hs with current := hcurrent }
  · refine { hs with opened := ?_, current := ?_ }
    · intro g hg
      exact Nat.lt_succ_of_lt (hs.opened g hg)
    · intro w r hbuffers
      rw [hto] at hbuffers
      obtain ⟨rfl, rfl⟩ := Prod.mk.inj (Option.some.inj hbuffers)
      refine ⟨Nat.lt_succ_self s.server.opened, fun g hg hbatch => ?_⟩
      -- the earlier GETs are in earlier batches
      have hlt := hs.opened g hg
      rw [hbatch] at hlt
      exact absurd hlt (lt_irrefl _)
  · exact { hs with current := by rintro w' r' ⟨⟩ }
  · exact { hs with current := by rintro w' r' ⟨⟩ }

lemma of_datagram (hs : Placing s) {bytes : List UInt8} {memory : ℕ → UInt8}
    {server : Server n DB} (hbytes : WellFormed bytes)
    (h : thread1Step self s.server (.datagram bytes memory) = some server) :
    Placing
      { s with
        server := server
        received := s.received ++ receivedGet s.server (.datagram bytes memory) } := by
  obtain ⟨w, r, w', r', t, admitted, c, hfrom, hto, rfl, -, -, hwhich⟩ :=
    thread1Step_datagram hbytes h
  have hbuffers : s.server.thread1.buffers = some (w, r) := by rw [hfrom]; rfl
  obtain ⟨hserial, hbefore⟩ := hs.current w r hbuffers
  rcases hwhich with ⟨hisGet, -, -, rfl, rfl⟩ | ⟨hisGet, -, -, rfl, rfl⟩
  · have hend : r.cmdsLength < (r.push c.toKvsRecord).cmdsLength := by
      have hr := c.toKvsRecord.thirtyTwo_le_length
      rw [CmdBuffer.cmdsLength_push]
      omega
    rw [receivedGet_datagram hfrom, if_pos hisGet]
    exact
      { nodup := by
          show (List.map _ (s.received ++ [_])).Nodup
          rw [List.map_append, List.map_singleton]
          refine hs.nodup.append (List.nodup_singleton _) ?_
          intro place hplace hnew
          obtain rfl := List.mem_singleton.1 hnew
          obtain ⟨g, hg, hgplace⟩ := List.mem_map.1 hplace
          have hlt := hbefore g hg (by rw [hgplace])
          rw [hgplace] at hlt
          exact lt_irrefl _ hlt
        opened := by
          intro g hg
          rcases List.mem_append.1 hg with hg | hg
          · exact hs.opened g hg
          · obtain rfl := List.mem_singleton.1 hg
            exact hserial
        current := by
          refine Thread1.forall_buffers hto ⟨hserial, fun g hg hbatch => ?_⟩
          rcases List.mem_append.1 hg with hg | hg
          · exact (hbefore g hg hbatch).trans hend
          · obtain rfl := List.mem_singleton.1 hg
            exact hend }
  · rw [receivedGet_datagram hfrom, if_neg (by simp [hisGet]), List.append_nil]
    exact { hs with current := Thread1.forall_buffers hto ⟨hserial, hbefore⟩ }

theorem step (hs : Placing s) {a : LeaderAction n} (ha : a.WellFormed)
    (h : leaderStep R self s a = some s') : Placing s' := by
  cases a with
  | thread1 event =>
      obtain ⟨server, hstep, rfl⟩ := Option.map_eq_some_iff.1 h
      cases event with
      | tick timeUp =>
          rw [receivedGet, List.append_nil]
          exact hs.of_tick hstep
      | datagram bytes memory => exact hs.of_datagram ha hstep
  | ok ok =>
      obtain rfl := Option.some.inj h
      exact { hs with }
  | thread3 =>
      rcases leaderThread3Step_spec h with ⟨w, r, rest, -, -, rfl⟩ | ⟨w, r, -, -, rfl⟩ |
        ⟨server, out, hout, -, -, rfl⟩
      · exact { hs with }
      · exact { hs with }
      · cases hout <;> exact { hs with }
  | thread4 =>
      rw [leaderStep, thread4Step] at h
      split at h
      · split at h
        · cases h
        · obtain rfl := Option.some.inj h
          exact { hs with }
      · split at h
        · obtain ⟨_, -, rfl⟩ := Option.map_eq_some_iff.1 h
          exact { hs with }
        · obtain rfl := Option.some.inj h
          exact { hs with }
      · split at h
        · obtain rfl := Option.some.inj h
          exact { hs with }
        · cases h
  | thread5 =>
      obtain ⟨server, hstep, rfl⟩ := Option.map_eq_some_iff.1 h
      cases thread5Step_spec hstep <;> exact { hs with }

end Placing

/-- For every SET or DELETE of its key that `thread_5` had answered with status 200 when the GET
`g` was received, the call `d` returns what that command or a later one has written, the last
one on the key that had been applied when the call was made. -/
def SeesAcked (s : Server n DB) (g : ReceivedGet n) (d : PerformedGet n) : Prop :=
  ∀ p w v, p < g.acked → s.acked[p]? = some w → (mapOp w.2).Writes d.key v →
    ∃ q w', p ≤ q ∧ q < d.applied ∧ s.applied[q]? = some w' ∧
      (mapOp w'.2).Writes d.key d.result.1 ∧
      ∀ q' w'' v', q < q' → q' < d.applied → s.applied[q']? = some w'' →
        ¬ (mapOp w''.2).Writes d.key v'

lemma Finds.seesAcked {m : List UInt8 → Option (List UInt8)} {s : Server n DB}
    {d : PerformedGet n} {g : ReceivedGet n} (h : Finds m s.applied d g)
    (hacked : s.acked <+: s.applied) : SeesAcked s g d := by
  intro p w v hp hw hwrites
  -- positions among the operations are positions among the commands applied
  have hops : ∀ i, i < d.applied → (operations (s.applied.take d.applied))[i]? =
      s.applied[i]?.map fun command => mapOp command.2 := by
    intro i hi
    rw [operations, List.getElem?_map, List.getElem?_take_of_lt hi]
  have hpop : (operations (s.applied.take d.applied))[p]? = some (mapOp w.2) := by
    obtain ⟨rest, hrest⟩ := hacked
    have hlen := (List.getElem?_eq_some_iff.1 hw).1
    rw [hops p (lt_of_lt_of_le hp h.acked_le), ← hrest, List.getElem?_append_left hlen, hw]
    rfl
  obtain ⟨q, op', hpq, hq, hop', hafter⟩ := exists_last_write m hpop hwrites
  have hqapplied : q < d.applied := by
    have hqlen := (List.getElem?_eq_some_iff.1 hq).1
    rw [operations, List.length_map, List.length_take] at hqlen
    exact lt_of_lt_of_le hqlen (min_le_left _ _)
  rw [hops q hqapplied] at hq
  obtain ⟨w', hw', rfl⟩ := Option.map_eq_some_iff.1 hq
  rw [← h.result] at hop'
  refine ⟨q, w', hpq, hqapplied, hw', hop', ?_⟩
  intro q' w'' v' hqq' hq' hw''
  refine hafter q' _ v' hqq' ?_
  rw [hops q' hq', hw'']
  rfl

/-- **Reads see acknowledged writes.**  In every run of a leader in one term that receives
well-formed datagrams, however its threads are interleaved, `thread_5` answers the commands in
the order in which it applies them, and the `j`-th call of `kv_store_get` is for the `j`-th GET
received, the only one at its place, with the key of that GET, and sees every write of the key
that had been answered by then. -/
theorem reads_see_acked_writes (R : RocksDb DB)
    {view : DB → List UInt8 → Option (List UInt8)} (hR : R.Ideal view) (self : Fin n)
    (raft : RaftVars) (hleader : raft.state = .leader) (diskMap : DB)
    (as : List (LeaderAction n)) (has : ∀ a ∈ as, a.WellFormed) {s : LeaderNode n DB}
    (hrun : run (leaderStep R self) (LeaderNode.start raft diskMap) as = some s) {j : ℕ}
    {d : PerformedGet n} (hd : s.performed[j]? = some d) :
    s.server.acked <+: s.server.applied ∧
      ∃ g, s.received[j]? = some g ∧ g.place = d.place ∧
        (∀ i g', s.received[i]? = some g' → g'.place = d.place → i = j) ∧
        mapOp g.datagram = .get d.key ∧ SeesAcked s.server g d := by
  have hboth := (Guarded.of_forall has).invariant
    (I := fun s => Serving view (view diskMap) s ∧ Placing s)
    (fun s a s' hs ha h => ⟨hs.1.step hR ha h, hs.2.step ha h⟩)
    ⟨Serving.start view hleader diskMap, Placing.start raft diskMap⟩ hrun
  obtain ⟨hs, hplacing⟩ := hboth
  have hacked : s.server.acked <+: s.server.applied := ⟨_, hs.acked⟩
  obtain ⟨done, waiting, todo, hreceived, hdone, -, -⟩ := hs.inOrder
  obtain ⟨hj, hdj⟩ := List.getElem?_eq_some_iff.1 hd
  have hj' : j < done.length := by
    rw [← hdone.length_eq]
    exact hj
  have hfinds : Finds (view diskMap) s.server.applied d done[j] := by
    rw [← hdj]
    exact hdone.get hj hj'
  have hg : s.received[j]? = some done[j] := by
    rw [hreceived, List.getElem?_append_left hj', List.getElem?_eq_getElem hj']
  have hplace : done[j].place = d.place := (Prod.mk.inj hfinds.asked).1
  refine ⟨hacked, done[j], hg, hplace, ?_, (Prod.mk.inj hfinds.asked).2, hfinds.seesAcked hacked⟩
  intro i g' hg' hplace'
  have hi : i < (s.received.map ReceivedGet.place).length := by
    rw [List.length_map]
    exact (List.getElem?_eq_some_iff.1 hg').1
  refine (List.getElem?_inj hi hplacing.nodup).1 ?_
  rw [List.getElem?_map, List.getElem?_map, hg', hg, Option.map_some, Option.map_some, hplace,
    hplace']

/-- `thread_1` receives a datagram in a batch of its own, and `thread_3` gets it committed, in a
cluster of three nodes. -/
def commitDatagram {n : ℕ} [NeZero n] (bytes : List UInt8) : List (LeaderAction n) :=
  [.thread1 (.tick false), .thread1 (.tick false), .thread1 (.tick false),
    .thread1 (.datagram bytes fun _ => 0), .thread1 (.tick true), .thread1 (.tick false),
    .thread1 (.tick false), .thread3, .thread3, .thread3, .thread3, .thread3,
    .ok ⟨1, 1, 1, thread1Open (firstLeads (0 : Fin n)) ⟨0, 0⟩⟩, .thread3, .thread3, .thread3,
    .thread3, .thread3]

/-- A SET is applied and answered, and then its key is read. -/
theorem reads_see_acked_writes_set : ∃ s d,
    run (leaderStep mapDb (0 : Fin 3)) (LeaderNode.start (firstLeads (0 : Fin 3)) fun _ => none)
        (commitDatagram (shortBytes 2) ++ [.thread5, .thread5, .thread5, .thread4, .thread4] ++
          commitDatagram (shortBytes 1) ++ [.thread4, .thread4]) = some s ∧
      s.performed[0]? = some d ∧ d.result = (some [118], 1) ∧
      s.server.acked <+: s.server.applied ∧
        ∃ g, s.received[0]? = some g ∧ g.place = d.place ∧
          (∀ i g', s.received[i]? = some g' → g'.place = d.place → i = 0) ∧
          mapOp g.datagram = .get d.key ∧ SeesAcked s.server g d :=
  ⟨_, _, rfl, rfl, by decide +kernel,
    reads_see_acked_writes mapDb mapDb_ideal 0 (firstLeads (0 : Fin 3)) rfl (fun _ => none)
      (commitDatagram (shortBytes 2) ++ [.thread5, .thread5, .thread5, .thread4, .thread4] ++
        commitDatagram (shortBytes 1) ++ [.thread4, .thread4])
      (by decide +kernel) rfl (j := 0) rfl⟩

end Oceanliner
