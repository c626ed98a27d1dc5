/-
# The size of a batch

`thread_1` closes a batch at 2152 bytes less than `CMDBUF_SIZE`, which leaves room for the header
of the buffer and one more datagram.  `thread_3` adds the header of the buffer and the header
of an AppendEntries request, 120 bytes, and asserts that the sum is at most `CMDBUF_SIZE`.  A
batch that is just not closed and takes in a datagram of full size is 8 bytes too long for it
(`fits_iff`, `fits_full_batch`).
-/
import Oceanliner.Main.Batching
import Oceanliner.Main.Framing

open Bytes Transition

namespace Oceanliner

variable {n : ℕ}

/-- The `body_length` of the message that `thread_3` builds from a write batch. -/
def bodyLength (w : CmdBuffer n) : ℕ :=
  sizeofCmdBuffer + w.cmdsLength + sizeofRaftAppendEntriesReq

/-- The batch fits everywhere: the buffers of `thread_1`, as long as it goes on, have room for any
datagram, the body of the message passes the assertion of `thread_3`, and the message fits the
buffer of `thread_2`. -/
structure Filling.Fits (f : Filling n) : Prop where
  receives : f.full = false → ∀ d : Datagram, IsCommand d.bytes → ∃ f', f.receive d = some f'
  copies : f.full = false → ∀ d : Datagram, IsCommand d.bytes →
    sizeofCmdBuffer + (f.target d).cmdsLength + d.bytes.length ≤ cmdbufSize
  body_le : bodyLength f.w ≤ cmdbufSize
  message_le : sizeofRaftMsg + bodyLength f.w ≤ bufSize

/-- The assertion of `thread_3` on a batch that it dequeues. -/
lemma thread3Step_building {DB : Type} {self : Fin n} {s : Server n DB} {w r : CmdBuffer n}
    {rest : List (CmdBuffer n × CmdBuffer n)} (hidle : s.thread3 = .idle)
    (hqueue : s.queue13 = (w, r) :: rest) (hterm : r.term = w.term) :
    (thread3Step self s).isSome ↔ bodyLength w ≤ cmdbufSize := by
  simp only [thread3Step, hidle, hqueue, hterm, ne_eq, not_true_eq_false, false_or]
  rw [bodyLength]
  split
  · rename_i h
    simp
    omega
  · rename_i h
    simp
    omega

/-! ### The length of the write buffer -/

/-- The bytes that a list of datagrams takes in a buffer. -/
def paddedLength (ds : List Datagram) : ℕ := (ds.map fun d => d.padded.length).sum

@[simp] lemma paddedLength_nil : paddedLength [] = 0 := rfl

@[simp] lemma paddedLength_cons (d : Datagram) (ds : List Datagram) :
    paddedLength (d :: ds) = d.padded.length + paddedLength ds := by
  simp [paddedLength]

lemma paddedLength_append (ds ds' : List Datagram) :
    paddedLength (ds ++ ds') = paddedLength ds + paddedLength ds' := by
  simp [paddedLength]

lemma paddedLength_replicate (k : ℕ) (d : Datagram) :
    paddedLength (List.replicate k d) = k * d.padded.length := by
  simp [paddedLength]

/-- The write buffer is as long as the write datagrams together. -/
lemma cmdsLength_of_run {raft : RaftVars} {id : BatchId n} {f : Filling n} {ds : List Datagram}
    (h : run Filling.receive (Filling.start raft id) ds = some f) :
    f.w.cmdsLength = paddedLength (ds.filter fun d => ¬ d.isGet) := by
  have hwrites := congrArg (fun bs => (bs.map List.length).sum) (Filling.filled_of_run h).writes
  rw [CmdBuffer.cmdsLength, CmdBuffer.data, recordBytes, List.length_flatten, hwrites,
    paddedLength, List.map_append, List.map_map, List.map_map, List.sum_append]
  exact Nat.zero_add _

/-- **When a batch fits.** -/
theorem fits_iff {raft : RaftVars} {id : BatchId n} {f : Filling n} {ds : List Datagram}
    (hrun : run Filling.receive (Filling.start raft id) ds = some f) :
    f.Fits ↔ paddedLength (ds.filter fun d => ¬ d.isGet) ≤ cmdbufSize - 120 := by
  have hbounded := Filling.bounded_of_run hrun
  rw [← cmdsLength_of_run hrun]
  have hbody : bodyLength f.w ≤ cmdbufSize ↔ f.w.cmdsLength ≤ cmdbufSize - 120 := by
    rw [bodyLength, sizeofCmdBuffer, sizeofRaftAppendEntriesReq, cmdbufSize]
    omega
  have htarget : f.full = false → ∀ d : Datagram,
      (f.target d).cmdsLength ≤ cmdbufSize - 2160 := by
    intro hfull d
    rw [Filling.target]
    split
    · exact hbounded.r_lt hfull
    · exact hbounded.w_lt hfull
  constructor
  · exact fun h => hbody.1 h.body_le
  · intro h
    refine ⟨fun hfull d hd => ?_, fun hfull d hd => ?_, hbody.2 h, ?_⟩
    · have hroom : (f.target d).cmdsLength < cmdbufSize - 256 := by
        have := htarget hfull d
        rw [cmdbufSize] at *
        omega
      exact ⟨_, Filling.receive_eq_some.2 ⟨hfull, hd, hroom, rfl⟩⟩
    · have hle := htarget hfull d
      have hmax := hd.1
      rw [cmdbufSize] at hle ⊢
      rw [maxKvsCmdSize] at hmax
      rw [sizeofCmdBuffer]
      omega
    · have := hbody.2 h
      rw [bufSize]
      omega

theorem fits_set_get :
    ∃ f : Filling 1,
      run Filling.receive (Filling.start ⟨.leader, 1, 0, 0, 0⟩ ⟨0, 0⟩)
        [⟨shortBytes 2, fun _ => 0⟩, ⟨shortBytes 1, fun _ => 0⟩] = some f ∧ f.Fits := by
  obtain ⟨f, hrun⟩ : ∃ f : Filling 1,
      run Filling.receive (Filling.start ⟨.leader, 1, 0, 0, 0⟩ ⟨0, 0⟩)
        [⟨shortBytes 2, fun _ => 0⟩, ⟨shortBytes 1, fun _ => 0⟩] = some f := ⟨_, rfl⟩
  exact ⟨f, hrun, (fits_iff hrun).2 (by decide)⟩

/-! ### The largest batch -/

/-- A write datagram that there is room for. -/
lemma receive_write {f : Filling n} {d : Datagram} (hfull : f.full = false)
    (hd : IsCommand d.bytes) (hwrite : d.isGet = false)
    (hroom : f.w.cmdsLength < cmdbufSize - 256) :
    ∃ f', f.receive d = some f' ∧ f'.w.cmdsLength = f.w.cmdsLength + d.padded.length ∧
      f'.full = thread1Full f'.w := by
  have hget : ¬ d.isGet = true := by
    rw [hwrite]
    decide
  have htarget : (f.target d).cmdsLength < cmdbufSize - 256 := by
    rw [Filling.target, if_neg hget]
    exact hroom
  refine ⟨_, Filling.receive_eq_some.2 ⟨hfull, hd, htarget, rfl⟩, ?_⟩
  rw [if_neg hget]
  exact ⟨CmdBuffer.cmdsLength_push f.w _, rfl⟩

/-- Write datagrams that leave the write buffer below the threshold are all received. -/
lemma exists_run {f : Filling n} {ds : List Datagram} (hfull : f.full = false)
    (hds : ∀ d ∈ ds, IsCommand d.bytes ∧ d.isGet = false)
    (hle : f.w.cmdsLength + paddedLength ds ≤ cmdbufSize - 2160) :
    ∃ f', run Filling.receive f ds = some f' ∧ f'.full = false ∧
      f'.w.cmdsLength = f.w.cmdsLength + paddedLength ds := by
  induction ds generalizing f with
  | nil => exact ⟨f, rfl, hfull, rfl⟩
  | cons d ds ih =>
      obtain ⟨⟨hd, hwrite⟩, hrest⟩ := List.forall_mem_cons.1 hds
      rw [paddedLength_cons] at hle
      have hroom : f.w.cmdsLength < cmdbufSize - 256 := by
        rw [cmdbufSize] at *
        omega
      obtain ⟨f₁, hstep, hlength, hfull₁⟩ := receive_write hfull hd hwrite hroom
      have hopen : f₁.full = false := by
        rw [hfull₁, thread1Full, decide_eq_false_iff_not, maxKvsCmdSize, sizeofCmdBuffer]
        rw [cmdbufSize] at *
        omega
      obtain ⟨f', hrun, hfull', hlength'⟩ := ih hopen hrest (by omega)
      refine ⟨f', run_cons_eq_some.2 ⟨f₁, hstep, hrun⟩, hfull', ?_⟩
      rw [hlength', hlength, paddedLength_cons, Nat.add_assoc]

/-- A SET with a key of 7 bytes. -/
def setBytes (valueLength : ℕ) : List UInt8 :=
  [7, 0, 0, 0] ++ (toLe 4 valueLength ++ (List.replicate 16 0 ++ ([2, 0, 0, 0] ++
    (List.replicate valueLength 118 ++ (List.replicate 7 107 ++ [0])))))

/-- SETs that fill the write buffer up to 2160 bytes less than its size. -/
def fillingSets : List Datagram :=
  List.replicate 32766 ⟨setBytes 2012, fun _ => 0⟩ ++ [⟨setBytes 1900, fun _ => 0⟩]

/-- One more SET, and the message to the followers is 8 bytes too long. -/
theorem fits_full_batch :
    ∃ f : Filling 1,
      run Filling.receive (Filling.start ⟨.leader, 1, 0, 0, 0⟩ ⟨0, 0⟩)
        (fillingSets ++ [⟨setBytes 2012, fun _ => 0⟩]) = some f ∧
      bodyLength f.w = cmdbufSize + 8 := by
  have hlong : IsCommand (setBytes 2012) ∧ isGet (setBytes 2012) = false := by decide +kernel
  have hmid : IsCommand (setBytes 1900) ∧ isGet (setBytes 1900) = false := by decide +kernel
  have hlong' : (Datagram.padded ⟨setBytes 2012, fun _ => 0⟩).length = 2048 := by decide +kernel
  have hmid' : (Datagram.padded ⟨setBytes 1900, fun _ => 0⟩).length = 1936 := by decide +kernel
  have hds : ∀ d ∈ fillingSets, IsCommand d.bytes ∧ d.isGet = false := by
    intro d hd
    rcases List.mem_append.1 hd with hd | hd
    · obtain rfl := List.eq_of_mem_replicate hd
      exact hlong
    · obtain rfl := List.mem_singleton.1 hd
      exact hmid
  have hsum : paddedLength fillingSets = cmdbufSize - 2160 := by
    rw [fillingSets, paddedLength_append, paddedLength_replicate, paddedLength_cons,
      paddedLength_nil, hlong', hmid']
    decide
  obtain ⟨f, hrun, hfull, hlength⟩ := exists_run
    (f := Filling.start (n := 1) ⟨.leader, 1, 0, 0, 0⟩ ⟨0, 0⟩) rfl hds (by rw [hsum]; decide)
  obtain ⟨f', hstep, hlength', -⟩ := receive_write
    (d := ⟨setBytes 2012, fun _ => 0⟩) hfull hlong.1 hlong.2 (by
    rw [hlength, hsum]
    decide)
  refine ⟨f', run_append_eq_some.2 ⟨f, hrun, run_cons_eq_some.2 ⟨f', hstep, rfl⟩⟩, ?_⟩
  rw [bodyLength, hlength', hlength, hsum, hlong']
  decide

end Oceanliner
