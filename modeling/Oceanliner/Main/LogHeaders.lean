/-
# The header of a batch in the log file

`logfile_append_data` writes the length of the batch into its header and `0` as the number of its
commands, whatever `thread_1` has counted.  The length is right, and the header describes the batch
exactly when there is no command in it (`log_header_iff`).
-/
import Oceanliner.LogFile.Append
import Oceanliner.Main.Inbox
import Oceanliner.Main.Walks

open Bytes Transition

namespace Oceanliner

variable {n : ℕ}

/-! ### From `thread_1` to the log file -/

/-- `b` is the batch that is written to the log file when the write buffer `w` of a leader gets
there: by `thread_3` of the leader, or by `thread_2` of a node that the leader sends it to. -/
inductive ReachesLog (w b : CmdBuffer n) : Prop where
  | leader {DB : Type} {self : Fin n} {s s' : Server n DB} {out : Outgoing n}
      (hlogging : s.thread3 = .logging w) (hstep : thread3Step self s = some (s', out))
      (hlog : s'.logFile = s.logFile ++ [b])
  | follower {DB : Type} {self leader : Fin n} {s s' : Server n DB}
      {prevLogTerm prevLogIndex : ℕ} {sent : List (Fin n × Message n)} (hidle : s.thread2 = .idle)
      (hstep : thread2Process self s (thread3Message leader w prevLogTerm prevLogIndex) =
        some (s', sent))
      (hlog : s'.logFile = s.logFile ++ [b])

/-- The batch that is written is the write buffer. -/
lemma ReachesLog.eq {w b : CmdBuffer n} (h : ReachesLog w b) : b = w := by
  cases h with
  | leader hlogging hstep hlog =>
      rw [thread3Step, hlogging] at hstep
      obtain ⟨rfl, -⟩ := Prod.mk.injEq .. ▸ Option.some.inj hstep
      exact (List.singleton_inj.1 (List.append_cancel_left hlog)).symm
  | @follower DB self leader s s' prevLogTerm prevLogIndex sent hidle hstep hlog =>
      rcases lt_or_ge w.term s.raft.currentTerm with hold | hterm
      · rw [thread2Process_outdated hidle hold] at hstep
        obtain ⟨rfl, -⟩ := Prod.mk.injEq .. ▸ Option.some.inj hstep
        simp at hlog
      · rw [thread2Process_appendEntries hidle hterm rfl] at hstep
        obtain ⟨rfl, -⟩ := Prod.mk.injEq .. ▸ Option.some.inj hstep
        have haccepted := List.append_cancel_left hlog
        split at haccepted
        · exact (List.singleton_inj.1 haccepted).symm
        · cases haccepted

/-- What `logfile_append_data` reads of a batch. -/
structure LogBatch.Reads (lb : LogBatch) (b : CmdBuffer n) : Prop where
  term_eq : lb.term = b.term
  logIndex_eq : lb.logIndex = b.logIndex
  cmds_eq : lb.cmds = b.data

/-! ### Counting commands -/

/-- A walk by `kvs_command_len` over the bytes of a batch: the number of commands it finds, and
where it ends. -/
def countCommands (data : List UInt8) : Option (ℕ × ℕ) :=
  Cursor.loop (fun count cmd => (kvsCommandLen data cmd).map fun length => (count + 1, length))
    data.length data.length 0 0

/-- The walk over a batch finds its commands. -/
lemma countCommands_data (b : CmdBuffer n) :
    countCommands b.data = some (b.commands.length, b.cmdsLength) := by
  have hlength : ∀ p ∈ b.places, kvsCommandLen b.data p.1 = some p.2.size := by
    intro p hp
    obtain ⟨pre, suf, hdata, hoffset, hmod⟩ := CmdBuffer.exists_data hp
    rw [hdata, ← hoffset, p.2.kvsCommandLen_eq pre suf hmod]
    rfl
  have hwalk := Cursor.loop_count KvsRecord.size_pos hlength b.length_commands_le
  rwa [b.total_size] at hwalk

/-! ### What is in the file -/

/-- The header `h` describes the payload: its length, and the number of commands with which a
replay gets to the end of it. -/
structure KvsbHeader.Describes (h : KvsbHeader) (payload : List UInt8) : Prop where
  dataLength_eq : h.dataLength = payload.length
  count_eq : countCommands payload = some (h.numCommands, h.dataLength)

/-- At `offset` of the file stands the payload between two headers that describe it. -/
structure DescribedAt (file : List UInt8) (offset : ℕ) (payload : List UInt8) : Prop where
  header : (KvsbHeader.ofBytes (slice file offset sizeofKvsbHeader)).Describes payload
  payload_eq : slice file (offset + sizeofKvsbHeader) payload.length = payload
  trailer : (KvsbHeader.ofBytes (slice file (offset + sizeofKvsbHeader + payload.length)
    sizeofKvsbHeader)).Describes payload

section

variable {xxh3 : List UInt8 → UInt64 × UInt64} {lb : LogBatch}

/-- The header has the length right, and describes a payload without commands only. -/
lemma LogBatch.header_describes_iff {b : CmdBuffer n} (hreads : lb.Reads b) :
    (lb.header xxh3).Describes b.data ↔ b.commands = [] := by
  have hdata : (lb.header xxh3).dataLength = b.cmdsLength := congrArg List.length hreads.cmds_eq
  constructor
  · rintro ⟨-, hcount⟩
    rw [countCommands_data, Option.some.injEq, Prod.mk.injEq] at hcount
    exact List.length_eq_zero_iff.1 hcount.1
  · intro hempty
    refine ⟨hdata, ?_⟩
    rw [countCommands_data, hdata, hempty]
    rfl

/-- What an append puts into the file: the payload between two copies of the header. -/
lemma logfileAppendData_slices {file file' : List UInt8}
    (h : logfileAppendData xxh3 file lb = some file') :
    slice file' file.length sizeofKvsbHeader = (lb.header xxh3).bytes ∧
      slice file' (file.length + sizeofKvsbHeader) lb.cmds.length = lb.cmds ∧
      slice file' (file.length + sizeofKvsbHeader + lb.cmds.length) sizeofKvsbHeader =
        (lb.header xxh3).bytes := by
  rw [logfileAppendData] at h
  split at h
  · obtain rfl := Option.some.inj h
    rw [LogBatch.bytes]
    have hlen := (lb.header xxh3).length_bytes
    refine ⟨?_, ?_, ?_⟩
    · rw [slice, List.drop_left, List.take_append_of_le_length hlen.ge, ← hlen, List.take_length]
    · rw [← hlen, slice_append_right, slice, List.drop_left, List.take_left]
    · rw [Nat.add_assoc, slice_append_right, ← hlen, slice_append_right, slice, List.drop_left,
        List.take_length]
  · cases h

/-- An append leaves the batch described in the file exactly when its header describes it. -/
lemma describedAt_iff {b : CmdBuffer n} (hreads : lb.Reads b) {file file' : List UInt8}
    (h : logfileAppendData xxh3 file lb = some file') :
    DescribedAt file' file.length b.data ↔ (lb.header xxh3).Describes b.data := by
  obtain ⟨hheader, hpayload, htrailer⟩ := logfileAppendData_slices h
  rw [hreads.cmds_eq] at hpayload htrailer
  have hread := KvsbHeader.ofBytes_bytes (lb.header_inRange xxh3)
  constructor
  · rintro ⟨hdescribes, -, -⟩
    rwa [hheader, hread] at hdescribes
  · intro hdescribes
    refine ⟨?_, hpayload, ?_⟩
    · rwa [hheader, hread]
    · rwa [htrailer, hread]

end

/-- A write buffer stays empty exactly when all datagrams of the batch are GETs. -/
lemma Filling.commands_w_eq_nil_iff {raft : RaftVars} {id : BatchId n} {ds : List Datagram}
    {f : Filling n} (hrun : run Filling.receive (Filling.start raft id) ds = some f) :
    f.w.commands = [] ↔ ∀ d ∈ ds, d.isGet = true := by
  have hwrites := (Filling.filled_of_run hrun).writes
  rw [Filling.start] at hwrites
  have hempty : f.w.commands = [] ↔ f.w.commands.map KvsRecord.bytes = [] := by simp
  rw [hempty, hwrites]
  simp [thread1Open]

/-- **The log header describes its payload** for the batches without a write, and for no other:
`num_commands` is always `0`. -/
theorem log_header_iff {xxh3 : List UInt8 → UInt64 × UInt64} {raft : RaftVars} {id : BatchId n}
    {ds : List Datagram} {f : Filling n} {b : CmdBuffer n} {lb : LogBatch}
    {file file' : List UInt8}
    (hrun : run Filling.receive (Filling.start raft id) ds = some f) (hreach : ReachesLog f.w b)
    (hreads : lb.Reads b) (happend : logfileAppendData xxh3 file lb = some file') :
    DescribedAt file' file.length b.data ↔ ∀ d ∈ ds, d.isGet = true := by
  rw [describedAt_iff hreads happend, LogBatch.header_describes_iff hreads, hreach.eq,
    Filling.commands_w_eq_nil_iff hrun]

/-! ### Batches of GETs, and of a SET -/

/-- The write buffer of a node alone in its cluster gets to its log file, here the first batch
there. -/
lemma exists_logged (xxh3 : List UInt8 → UInt64 × UInt64) {w : CmdBuffer 1}
    (hw : w.term < 2 ^ 64 ∧ w.logIndex < 2 ^ 64 ∧ w.cmdsLength < 2 ^ 31) :
    ReachesLog w w ∧ ∃ (lb : LogBatch) (file : List UInt8), lb.Reads w ∧
      logfileAppendData xxh3 [] lb = some file := by
  obtain ⟨hterm, hindex, hlength⟩ := hw
  let s : Server 1 Unit := { Server.start ⟨.leader, 1, 0, 0, 0⟩ () with thread3 := .logging w }
  have hstep : thread3Step 0 s =
      some ({ s with logFile := [w], thread3 := .enqueueing w }, none) := rfl
  let lb : LogBatch := ⟨w.term, w.logIndex, w.data, hterm, hindex, lt_trans hlength (by norm_num)⟩
  have happend : logfileAppendData xxh3 [] lb = some ([] ++ lb.bytes xxh3) := by
    have hcmds : lb.cmds.length < 2 ^ 31 := hlength
    have hnil : ([] : List UInt8).length < 2 ^ 31 := by decide
    rw [logfileAppendData_eq _ (hnil.trans (by decide)) hcmds, if_pos hnil]
  exact ⟨.leader rfl hstep rfl, lb, _, ⟨rfl, rfl, rfl⟩, happend⟩

/-- Three GETs, one of which `thread_1` has to pad. -/
def threeGets : List Datagram :=
  [⟨shortBytes 1, fun _ => 0⟩, ⟨(shortBytes 1).take 34, fun _ => 9⟩, ⟨shortBytes 1, fun _ => 0⟩]

/-- All of them are in the read buffer, and nothing stands between the headers. -/
theorem log_header_of_gets : ∃ (f : Filling 1) (lb : LogBatch) (file : List UInt8),
    run Filling.receive (Filling.start ⟨.leader, 1, 0, 0, 0⟩ ⟨0, 0⟩) threeGets = some f ∧
      f.r.commands.length = 3 ∧ ReachesLog f.w f.w ∧ lb.Reads f.w ∧
      logfileAppendData xxh3Len4to8 [] lb = some file ∧ DescribedAt file 0 f.w.data := by
  obtain ⟨f, hrun, hr, hw⟩ : ∃ f : Filling 1,
      run Filling.receive (Filling.start ⟨.leader, 1, 0, 0, 0⟩ ⟨0, 0⟩) threeGets = some f ∧
      f.r.commands.length = 3 ∧
      f.w.term < 2 ^ 64 ∧ f.w.logIndex < 2 ^ 64 ∧ f.w.cmdsLength < 2 ^ 31 :=
    ⟨_, rfl, rfl, by decide, by decide, by decide⟩
  obtain ⟨hreach, lb, file, hreads, happend⟩ := exists_logged xxh3Len4to8 hw
  exact ⟨f, lb, file, hrun, hr, hreach, hreads, happend,
    (log_header_iff hrun hreach hreads happend).2 (by decide)⟩

/-- A batch of one SET: its headers say that there is no command in it. -/
theorem log_header_of_set : ∃ (f : Filling 1) (lb : LogBatch) (file : List UInt8),
    run Filling.receive (Filling.start ⟨.leader, 1, 0, 0, 0⟩ ⟨0, 0⟩)
        [⟨shortBytes 2, fun _ => 0⟩] = some f ∧
      ReachesLog f.w f.w ∧ lb.Reads f.w ∧
      logfileAppendData xxh3Len4to8 [] lb = some file ∧ ¬ DescribedAt file 0 f.w.data := by
  obtain ⟨f, hrun, hw⟩ : ∃ f : Filling 1,
      run Filling.receive (Filling.start ⟨.leader, 1, 0, 0, 0⟩ ⟨0, 0⟩)
        [⟨shortBytes 2, fun _ => 0⟩] = some f ∧
      f.w.term < 2 ^ 64 ∧ f.w.logIndex < 2 ^ 64 ∧ f.w.cmdsLength < 2 ^ 31 :=
    ⟨_, rfl, by decide, by decide, by decide⟩
  obtain ⟨hreach, lb, file, hreads, happend⟩ := exists_logged xxh3Len4to8 hw
  refine ⟨f, lb, file, hrun, hreach, hreads, happend, fun hdescribed => ?_⟩
  have hempty := (LogBatch.header_describes_iff hreads).1
    ((describedAt_iff hreads happend).1 hdescribed)
  have hget := (Filling.commands_w_eq_nil_iff hrun).1 hempty _ List.mem_cons_self
  exact absurd hget (by decide)

end Oceanliner
