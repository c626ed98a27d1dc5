/-
# Filling a batch

The inner loop of `thread_1` for one batch, without the other threads around it: it receives
datagrams and copies each of them to the end of the read or the write buffer, until a buffer
is full or the time is up.  The time may be up after any datagram, so a batch is a run over a
list of datagrams.
-/
import Oceanliner.Lib.Cursor
import Oceanliner.Main.Reads

open Bytes Transition

namespace Oceanliner

variable {n : ℕ} {DB : Type}

/-- What `recv` returns, and the bytes that follow it in memory. -/
structure Datagram where
  bytes : List UInt8
  memory : ℕ → UInt8

namespace Datagram

/-- The bytes that a buffer holds for the datagram. -/
def padded (d : Datagram) : List UInt8 := d.bytes ++ padding d.bytes.length d.memory

def isGet (d : Datagram) : Bool := Oceanliner.isGet d.bytes

end Datagram

/-- `thread_1` in the loop over a batch: the write and the read buffer, and whether it has left
the loop because one of them is full. -/
structure Filling (n : ℕ) where
  w : CmdBuffer n
  r : CmdBuffer n
  full : Bool

namespace Filling

/-- Two new buffers. -/
def start (raft : RaftVars) (id : BatchId n) : Filling n :=
  ⟨thread1Open raft id, thread1Open raft id, false⟩

/-- The buffer for a datagram, `target_cmdb`. -/
def target (f : Filling n) (d : Datagram) : CmdBuffer n := if d.isGet then f.r else f.w

/-- One iteration with a datagram.  `none` is a failed assertion, or a batch that is closed. -/
def receive (f : Filling n) (d : Datagram) : Option (Filling n) :=
  if f.full then none
  else
    (thread1Admit f.w f.r d.bytes d.memory).map fun p =>
      ⟨p.1, p.2, thread1Full (if d.isGet then p.2 else p.1)⟩

end Filling

/-- The step of `thread_1` with a datagram is an iteration of the loop. -/
lemma thread1Step_eq_receive {self : Fin n} {s : Server n DB} {w r : CmdBuffer n}
    (h : s.thread1 = .receiving w r) (d : Datagram) :
    (thread1Step self s (.datagram d.bytes d.memory)).map Server.thread1 =
      (Filling.receive ⟨w, r, false⟩ d).map fun f =>
        if f.full then .closing f.w f.r else .filling f.w f.r := by
  simp only [thread1Step, h, Filling.receive, Bool.false_eq_true, if_false, Option.map_map]
  rfl

/-! ### What a batch holds -/

/-- A datagram is copied to the end of its buffer if it is a command and there is room. -/
lemma Filling.receive_eq_some {f f' : Filling n} {d : Datagram} :
    f.receive d = some f' ↔ f.full = false ∧ ∃ h : IsCommand d.bytes,
      (f.target d).cmdsLength < cmdbufSize - 256 ∧
        f' = if d.isGet then
            ⟨f.w, f.r.push (paddedDatagram d.bytes d.memory h),
              thread1Full (f.r.push (paddedDatagram d.bytes d.memory h))⟩
          else
            ⟨f.w.push (paddedDatagram d.bytes d.memory h), f.r,
              thread1Full (f.w.push (paddedDatagram d.bytes d.memory h))⟩ := by
  rw [receive, target]
  cases hfull : f.full with
  | true => simp
  | false =>
      by_cases h : IsCommand d.bytes
      · rw [thread1Admit, dif_pos h]
        cases hget : d.isGet with
        | true =>
            have hbytes : isGet d.bytes = true := hget
            by_cases hroom : f.r.cmdsLength ≥ cmdbufSize - 256
            · simp [hbytes, hroom, h]
            · simp [hbytes, hroom, h, Nat.lt_of_not_le hroom, eq_comm]
        | false =>
            have hbytes : isGet d.bytes = false := hget
            by_cases hroom : f.w.cmdsLength ≥ cmdbufSize - 256
            · simp [hbytes, hroom, h]
            · simp [hbytes, hroom, h, Nat.lt_of_not_le hroom, eq_comm]
      · rw [thread1Admit, dif_neg h]
        simp [h]

/-- The records of a buffer are determined by their bytes. -/
lemma CmdBuffer.map_bytes_push (b : CmdBuffer n) (d : Datagram) (h : IsCommand d.bytes) :
    (b.push (paddedDatagram d.bytes d.memory h)).commands.map KvsRecord.bytes =
      b.commands.map KvsRecord.bytes ++ [d.padded] := by
  rw [push, List.map_append]
  rfl

/-- What a run has put into the buffers: the GETs into one, the other commands into the other. -/
structure Filled (f f' : Filling n) (ds : List Datagram) : Prop where
  isCommand : ∀ d ∈ ds, IsCommand d.bytes
  writes : f'.w.commands.map KvsRecord.bytes =
    f.w.commands.map KvsRecord.bytes ++ (ds.filter fun d => ¬ d.isGet).map Datagram.padded
  reads : f'.r.commands.map KvsRecord.bytes =
    f.r.commands.map KvsRecord.bytes ++ (ds.filter Datagram.isGet).map Datagram.padded

/-- **A batch holds what has been received**, in the order of arrival. -/
theorem Filling.filled_of_run {f f' : Filling n} {ds : List Datagram}
    (h : run receive f ds = some f') : Filled f f' ds := by
  induction ds generalizing f with
  | nil =>
      obtain rfl : f = f' := by simpa using h
      exact ⟨fun d hd => absurd hd List.not_mem_nil, by simp, by simp⟩
  | cons d ds ih =>
      obtain ⟨f₁, hstep, hrest⟩ := run_cons_eq_some.1 h
      obtain ⟨-, hd, -, rfl⟩ := receive_eq_some.1 hstep
      obtain ⟨hcommand, hwrites, hreads⟩ := ih hrest
      refine ⟨List.forall_mem_cons.2 ⟨hd, hcommand⟩, ?_, ?_⟩
      · cases hget : d.isGet with
        | true => simp [hwrites, hget]
        | false => simp [hwrites, hget, CmdBuffer.map_bytes_push]
      · cases hget : d.isGet with
        | true => simp [hreads, hget, CmdBuffer.map_bytes_push]
        | false => simp [hreads, hget]

/-! ### How much a batch holds -/

/-- Where the loop stands, a buffer has room for one more datagram; once it has been left, there
is still the room that the assertions of the other threads ask for. -/
structure Filling.Bounded (f : Filling n) : Prop where
  w_le : f.w.cmdsLength ≤ cmdbufSize - 112
  r_le : f.r.cmdsLength ≤ cmdbufSize - 112
  w_lt : f.full = false → f.w.cmdsLength ≤ cmdbufSize - 2160
  r_lt : f.full = false → f.r.cmdsLength ≤ cmdbufSize - 2160

lemma CmdBuffer.cmdsLength_mod_eight (b : CmdBuffer n) : b.cmdsLength % 8 = 0 :=
  length_recordBytes_mod_eight b.commands

@[simp] lemma cmdsLength_thread1Open (raft : RaftVars) (id : BatchId n) :
    (thread1Open raft id).cmdsLength = 0 := rfl

lemma Filling.bounded_start (raft : RaftVars) (id : BatchId n) : (start raft id).Bounded where
  w_le := by simp [start]
  r_le := by simp [start]
  w_lt := by simp [start]
  r_lt := by simp [start]

/-- A datagram that a buffer with room takes in. -/
lemma CmdBuffer.bounded_push (b : CmdBuffer n) {d : Datagram} (h : IsCommand d.bytes)
    (hb : b.cmdsLength ≤ cmdbufSize - 2160) :
    (b.push (paddedDatagram d.bytes d.memory h)).cmdsLength ≤ cmdbufSize - 112 ∧
      (thread1Full (b.push (paddedDatagram d.bytes d.memory h)) = false →
        (b.push (paddedDatagram d.bytes d.memory h)).cmdsLength ≤ cmdbufSize - 2160) := by
  have hlen := length_paddedDatagram_le d.memory h
  have hmod := (b.push (paddedDatagram d.bytes d.memory h)).cmdsLength_mod_eight
  rw [thread1Full, decide_eq_false_iff_not]
  rw [cmdsLength_push] at hmod ⊢
  rw [cmdbufSize, maxKvsCmdSize, sizeofCmdBuffer] at *
  constructor
  · omega
  · omega

lemma Filling.Bounded.receive {f f' : Filling n} {d : Datagram} (hf : f.Bounded)
    (h : f.receive d = some f') : f'.Bounded := by
  obtain ⟨hfull, hd, -, rfl⟩ := receive_eq_some.1 h
  cases hget : d.isGet with
  | true =>
      obtain ⟨hle, hlt⟩ := f.r.bounded_push hd (hf.r_lt hfull)
      exact ⟨hf.w_le, hle, fun _ => hf.w_lt hfull, hlt⟩
  | false =>
      obtain ⟨hle, hlt⟩ := f.w.bounded_push hd (hf.w_lt hfull)
      exact ⟨hle, hf.r_le, hlt, fun _ => hf.r_lt hfull⟩

/-- **A batch is never larger** than 112 bytes less than a command buffer. -/
theorem Filling.bounded_of_run {raft : RaftVars} {id : BatchId n} {f : Filling n}
    {ds : List Datagram} (h : run receive (start raft id) ds = some f) : f.Bounded :=
  run_invariant (fun _ _ _ hf hstep => hf.receive hstep) (bounded_start raft id) h

end Oceanliner
