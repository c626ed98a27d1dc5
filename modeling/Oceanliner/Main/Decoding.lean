/-
# A batch is decoded to what was put into it

`thread_1` computes the length of a command by rounding what it has received; `thread_5` and
`thread_4` compute it from the length fields, and round an address to find the key.  For
well-formed datagrams the two agree: every walk visits the datagrams of its buffer, each of
them once, in the order of arrival, and finds in each the key and the value that were sent
(`batch_decoded`).
-/
import Oceanliner.Main.Walks

open Bytes Transition

namespace Oceanliner

variable {n : ℕ} {DB : Type}

/-! ### Datagrams in a buffer -/

namespace Datagram

/-- Where the key of a command starts. -/
def keyOffset (d : Datagram) : ℕ := 28 + (valueLength d.bytes 0 + 3) / 4 * 4

/-- The `key_length` bytes of the key. -/
def key (d : Datagram) : List UInt8 := slice d.bytes d.keyOffset (keyLength d.bytes 0)

/-- The `value_length` bytes of the value. -/
def value (d : Datagram) : List UInt8 := slice d.bytes 28 (valueLength d.bytes 0)

/-- The key of a well-formed datagram has been received up to its zero byte. -/
lemma keyEnd_le {d : Datagram} (h : WellFormed d.bytes) :
    d.keyOffset + (keyLength d.bytes 0 + 1) ≤ d.bytes.length := by
  have hlen := congrArg List.length h.key_end
  rw [length_slice, List.length_singleton] at hlen
  rw [keyOffset]
  omega

variable {d : Datagram} {r : KvsRecord} (hr : r.bytes = d.padded)

include hr

/-- A record that holds a datagram begins with the bytes received. -/
lemma slice_record {off k : ℕ} (h : off + k ≤ d.bytes.length) :
    slice r.bytes off k = slice d.bytes off k := by
  rw [hr, padded, slice_append_left h]

lemma length_record (h : IsCommand d.bytes) :
    d.bytes.length ≤ r.bytes.length ∧ r.bytes.length ≤ maxKvsCmdSize := by
  constructor
  · rw [hr, padded, List.length_append]
    exact Nat.le_add_right _ _
  · rw [hr]
    exact length_paddedDatagram_le d.memory h

section

variable (h : sizeofKvsCommand ≤ d.bytes.length)

include h

lemma keyLength_record : keyLength r.bytes 0 = keyLength d.bytes 0 := by
  rw [hr, padded, keyLength_append h]

lemma valueLength_record : valueLength r.bytes 0 = valueLength d.bytes 0 := by
  rw [hr, padded, valueLength_append h]

lemma opType_record : opType r.bytes 0 = opType d.bytes 0 := by
  rw [hr, padded, opType_append h]

lemma returnAddr_record : returnAddr r.bytes 0 = returnAddr d.bytes 0 := by
  rw [sizeofKvsCommand] at h
  rw [returnAddr, returnAddr, sizeofSockaddrIn, slice_record hr (by omega)]

lemma keyOffset_record : r.keyOffset = d.keyOffset := by
  rw [KvsRecord.keyOffset, keyOffset, valueLength_record hr h]

end

/-- The key of a well-formed datagram, with the zero byte behind it. -/
lemma key_record (h : WellFormed d.bytes) :
    slice r.bytes r.keyOffset (keyLength r.bytes 0 + 1) = d.key ++ [0] := by
  have hmin := h.isCommand.2.1
  rw [keyOffset_record hr hmin, keyLength_record hr hmin, slice_record hr (keyEnd_le h), slice_add]
  congr 1
  exact h.key_end

end Datagram

/-- The places of a buffer hold the datagrams that have been copied to it. -/
lemma CmdBuffer.holds_datagrams {b : CmdBuffer n} {ds : List Datagram}
    (h : b.commands.map KvsRecord.bytes = ds.map Datagram.padded) :
    List.Forall₂ (fun p d => p ∈ b.places ∧ d ∈ ds ∧ p.2.bytes = d.padded) b.places ds := by
  have heq : (b.places.map Prod.snd).map KvsRecord.bytes = ds.map Datagram.padded := by
    rw [places, Cursor.map_snd_offsets, h]
  rw [List.map_map, ← List.forall₂_eq_eq_eq, List.forall₂_map_left_iff,
    List.forall₂_map_right_iff] at heq
  rw [List.forall₂_and_left]
  refine ⟨fun _ hp => hp, List.Forall₂.flip ?_⟩
  exact (List.forall₂_and_left ds b.places).2 ⟨fun _ hd => hd, heq.flip⟩

/-- A well-formed datagram that is no GET is a SET or a DELETE. -/
lemma WellFormed.opType_of_write {bytes : List UInt8} (h : WellFormed bytes)
    (hget : isGet bytes = false) : opType bytes 0 = 2 ∨ opType bytes 0 = 3 := by
  have hop := h.op_mem
  simp only [List.mem_cons, List.not_mem_nil, or_false, KvsOp.ofNat?_eq_some] at hop
  rcases hop with hop | hop | hop
  · rw [isGet, decide_eq_false_iff_not] at hget
    exact absurd hop hget
  · exact .inl hop
  · exact .inr hop

/-! ### Decoding -/

/-- A visit is for a datagram: the record starts at a multiple of 8 with the bytes received, and
the key and the value found in the buffer are those of the datagram, one behind the other
inside the record. -/
structure Decodes (data : List UInt8) (v : Visit) (d : Datagram) : Prop where
  aligned : v.offset % 8 = 0
  length : kvsCommandLen data v.offset = some v.length
  received : d.bytes.length ≤ v.length ∧ slice data v.offset d.bytes.length = d.bytes
  type : v.type = opType d.bytes 0
  returnAddr : v.returnAddr = Oceanliner.returnAddr d.bytes 0
  key : v.key = d.key
  places : ∃ key value,
    kvsCommandGetKey data v.offset = some key ∧ cString data key = d.key ∧
      kvsCommandGetValue v.offset = some value ∧
      slice data value (valueLength d.bytes 0) = d.value ∧
      v.offset ≤ value ∧ value + valueLength d.bytes 0 ≤ key ∧
      key + (keyLength d.bytes 0 + 1) ≤ v.offset + v.length

/-- A walk that visits the place of a well-formed datagram decodes it. -/
lemma decodes_of_place {b : CmdBuffer n} (hlt : b.cmdsLength ≤ cmdbufSize) {p : ℕ × KvsRecord}
    (hp : p ∈ b.places) {d : Datagram} (hd : WellFormed d.bytes) (hbytes : p.2.bytes = d.padded)
    (copied : ℕ) : Decodes b.data (p.2.visit p.1 (b.keyAt p) copied) d := by
  obtain ⟨pre, suf, hdata, hoffset, hmod⟩ := CmdBuffer.exists_data hp
  have hmin := hd.isCommand.2.1
  have hle := cmdsLength_of_data hdata
  have hend := p.2.keyOffset_le
  have hvalue := d.valueLength_record hbytes hmin
  have hkeyOffset : p.2.keyOffset = 28 + (valueLength d.bytes 0 + 3) / 4 * 4 := by
    rw [KvsRecord.keyOffset, hvalue]
  have hrec := Datagram.length_record hbytes hd.isCommand
  have hkey : cString b.data (pre.length + p.2.keyOffset) = d.key := by
    refine cString_of_slice (n := keyLength p.2.bytes 0 + 1) ?_ ?_
    · rw [hdata, p.2.slice_eq pre suf hend, Datagram.key_record hbytes hd]
    · rintro x hx rfl
      exact hd.key_ne hx
  rw [cmdbufSize] at hlt
  rw [CmdBuffer.keyAt, ← hoffset, hkey]
  constructor
  case aligned => exact hmod
  case length =>
    show kvsCommandLen b.data pre.length = some p.2.bytes.length
    rw [hdata, p.2.kvsCommandLen_eq pre suf hmod]
  case received =>
    refine ⟨hrec.1, ?_⟩
    show slice b.data pre.length d.bytes.length = d.bytes
    have hreceived : 0 + d.bytes.length ≤ p.2.bytes.length := by omega
    rw [hdata, ← Nat.add_zero pre.length, p.2.slice_eq pre suf hreceived,
      Datagram.slice_record hbytes (by omega), slice, List.drop_zero, List.take_length]
  case type => exact d.opType_record hbytes hmin
  case returnAddr => exact d.returnAddr_record hbytes hmin
  case key => rfl
  case places =>
    refine ⟨pre.length + p.2.keyOffset, pre.length + 28, ?_, hkey, ?_, ?_, ?_, ?_, ?_⟩
    · show kvsCommandGetKey b.data pre.length = _
      rw [hdata, p.2.getKey_in pre suf hmod (by omega)]
    · show kvsCommandGetValue pre.length = _
      rw [kvsCommandGetValue, if_pos hmod, sizeofKvsCommand]
    · rw [hdata, ← hvalue, p.2.slice_eq pre suf (by omega), hvalue, Datagram.slice_record hbytes]
      · rfl
      · have := Datagram.keyEnd_le hd
        rw [Datagram.keyOffset] at this
        omega
    · exact Nat.le_add_right _ _
    · rw [hkeyOffset]
      omega
    · show pre.length + p.2.keyOffset + (keyLength d.bytes 0 + 1) ≤ pre.length + p.2.bytes.length
      rw [← d.keyLength_record hbytes hmin]
      omega

/-! ### The walks -/

/-- RocksDB returns no value of `MAX_VAL_LEN` bytes or more. -/
def RocksDb.Bounded (R : RocksDb DB) (db : DB) : Prop :=
  ∀ key value, R.get db key = .ok (some value) → value.length < maxValLen

lemma RocksDb.Bounded.kvStoreGet_lt {R : RocksDb DB} {db : DB} (h : R.Bounded db)
    (key : List UInt8) : (kvStoreGet R db key).2 < maxValLen := by
  rw [kvStoreGet]
  split
  · decide
  · decide
  · rename_i value hget
    have hlt := h key value hget
    show (value.length : ℤ) < maxValLen
    exact_mod_cast hlt

/-- The commands of a buffer that datagrams have been copied to. -/
lemma exists_datagram {b : CmdBuffer n} {ds : List Datagram}
    (h : b.commands.map KvsRecord.bytes = ds.map Datagram.padded) {r : KvsRecord}
    (hr : r ∈ b.commands) : ∃ d ∈ ds, r.bytes = d.padded := by
  have hmem : r.bytes ∈ ds.map Datagram.padded := by
    rw [← h]
    exact List.mem_map_of_mem hr
  obtain ⟨d, hd, heq⟩ := List.mem_map.1 hmem
  exact ⟨d, hd, heq.symm⟩

/-- A walk over a buffer of well-formed datagrams decodes them one after the other. -/
lemma forall₂_decodes {b : CmdBuffer n} (hlt : b.cmdsLength ≤ cmdbufSize) {ds : List Datagram}
    (h : b.commands.map KvsRecord.bytes = ds.map Datagram.padded)
    (hds : ∀ d ∈ ds, WellFormed d.bytes) (copied : ℕ × KvsRecord → ℕ) :
    List.Forall₂ (Decodes b.data)
      (b.places.map fun p => p.2.visit p.1 (b.keyAt p) (copied p)) ds := by
  rw [List.forall₂_map_left_iff]
  refine (CmdBuffer.holds_datagrams h).imp ?_
  rintro p d ⟨hp, hd, hbytes⟩
  exact decodes_of_place hlt hp (hds d hd) hbytes (copied p)

/-- **A batch is decoded to exactly the commands put into it.** -/
theorem batch_decoded {R : RocksDb DB} {leads : ℕ → Bool} {diskMap : DB} {stores : ℕ → DB}
    {raft : RaftVars} {id : BatchId n} {f : Filling n} {ds : List Datagram}
    (hstores : ∀ offset, R.Bounded (stores offset)) (hds : ∀ d ∈ ds, WellFormed d.bytes)
    (hrun : run Filling.receive (Filling.start raft id) ds = some f) :
    (∃ s, thread5Batch R leads diskMap f.w = some (s, f.w.cmdsLength) ∧
        List.Forall₂ (Decodes f.w.data) s.visits (ds.filter fun d => ¬ d.isGet)) ∧
      ∃ s, thread4Batch R stores f.r = some (s, f.r.cmdsLength) ∧
        List.Forall₂ (Decodes f.r.data) s.visits (ds.filter Datagram.isGet) := by
  obtain ⟨-, hwrites, hreads⟩ := Filling.filled_of_run hrun
  obtain ⟨hw, hr, -, -⟩ := Filling.bounded_of_run hrun
  replace hw := hw.trans (Nat.sub_le _ _)
  replace hr := hr.trans (Nat.sub_le _ _)
  have hfilter : ∀ p : Datagram → Bool, ∀ d ∈ ds.filter p, WellFormed d.bytes :=
    fun p d hd => hds d (List.mem_filter.1 hd).1
  constructor
  · obtain ⟨s, hwalk, hvisits⟩ := exists_thread5Batch (R := R) hw (fun r hr => by
      obtain ⟨d, hd, hbytes⟩ := exists_datagram hwrites hr
      have hformed := hfilter _ d hd
      have hwrite : d.isGet = false := by simpa using (List.mem_filter.1 hd).2
      refine ⟨(d.length_record hbytes hformed.isCommand).2, ?_⟩
      rw [d.opType_record hbytes hformed.isCommand.2.1]
      exact hformed.opType_of_write hwrite)
    refine ⟨s, hwalk, ?_⟩
    rw [hvisits]
    exact forall₂_decodes hw hwrites (hfilter _) _
  · obtain ⟨s, hwalk, hvisits, -, -⟩ := exists_thread4Batch (R := R) stores hr
      (fun r hr => by
        obtain ⟨d, hd, hbytes⟩ := exists_datagram hreads hr
        exact (d.length_record hbytes (hfilter _ d hd).isCommand).2)
      (fun p _ => (hstores p.1).kvStoreGet_lt (f.r.keyAt p))
    refine ⟨s, hwalk, ?_⟩
    rw [hvisits]
    exact forall₂_decodes hr hreads (hfilter _) _

/-- A SET and a GET in one batch. -/
theorem batch_decoded_set_get :
    ∃ f : Filling 1,
      run Filling.receive (Filling.start ⟨.leader, 1, 0, 0, 0⟩ ⟨0, 0⟩)
        [⟨shortBytes 2, fun _ => 0⟩, ⟨shortBytes 1, fun _ => 0⟩] = some f ∧
      (∃ s, thread5Batch mapDb (fun _ => true) MapOps.empty f.w = some (s, f.w.cmdsLength) ∧
        List.Forall₂ (Decodes f.w.data) s.visits [⟨shortBytes 2, fun _ => 0⟩]) ∧
      ∃ s, thread4Batch mapDb (fun _ => MapOps.empty) f.r = some (s, f.r.cmdsLength) ∧
        List.Forall₂ (Decodes f.r.data) s.visits [⟨shortBytes 1, fun _ => 0⟩] := by
  have hds : ∀ d ∈ [(⟨shortBytes 2, fun _ => 0⟩ : Datagram), ⟨shortBytes 1, fun _ => 0⟩],
      WellFormed d.bytes := by
    simp only [List.forall_mem_cons]
    exact ⟨by decide, by decide, List.forall_mem_nil _⟩
  have hempty : mapDb.Bounded MapOps.empty := by
    intro key value h
    cases h
  exact ⟨_, rfl, batch_decoded (fun _ => hempty) hds rfl⟩

end Oceanliner
