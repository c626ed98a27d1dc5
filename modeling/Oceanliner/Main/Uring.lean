/-
# Responses through io_uring

`thread_4` and `thread_5_new` queue their responses and send them in groups of `IOU_QUEUE_LEN`;
`thread_4_old` and `thread_5` send each response at once.  `thread_4` submits every group, also
the last one, but all its entries refer to the response of the last command in their group, so
it answers as `thread_4_old` does exactly when the commands of a group have one and the same
answer (`thread4_iff`).  `thread_5_new` tests for the end of the batch before it has counted
the command, so it never submits a group that is not full (`thread5New_iff`).
-/
import Oceanliner.Main.Admission

open Bytes Ring

namespace Oceanliner

variable {n : ℕ} {DB : Type}

/-- A batch of commands of clients, in a buffer as `thread_1` fills it. -/
structure CmdBuffer.Carries (b : CmdBuffer n) (cs : List MapCommand) : Prop where
  commands : b.commands = cs.map MapCommand.toKvsRecord
  length_le : ∀ c ∈ cs, c.bytes.length ≤ maxKvsCmdSize
  cmdsLength_le : b.cmdsLength ≤ cmdbufSize

namespace CmdBuffer.Carries

variable {b : CmdBuffer n} {cs : List MapCommand} (h : b.Carries cs)

include h

lemma exists_command {r : KvsRecord} (hr : r ∈ b.commands) :
    ∃ c ∈ cs, c.toKvsRecord = r := by
  rw [h.commands] at hr
  exact List.mem_map.1 hr

lemma record_length_le : ∀ r ∈ b.commands, r.bytes.length ≤ maxKvsCmdSize := by
  intro r hr
  obtain ⟨c, hc, rfl⟩ := h.exists_command hr
  exact h.length_le c hc

end CmdBuffer.Carries

/-- The key of a command ends inside it. -/
lemma MapCommand.terminated (c : MapCommand) : c.toKvsRecord.Terminated := by
  have hmem : (0 : UInt8) ∈ slice c.bytes c.toKvsRecord.keyOffset (keyLength c.bytes 0 + 1) := by
    rw [c.key_eq]
    exact List.mem_append_right _ (List.mem_singleton.2 rfl)
  exact List.mem_of_mem_take hmem

/-! ### The read path -/

/-- What decides the answer to a GET: where it goes, and what the store has. -/
def MapCommand.asks (R : RocksDb DB) (diskMap : DB) (c : MapCommand) :
    List UInt8 × (Option (List UInt8) × ℤ) :=
  (returnAddr c.bytes 0, kvStoreGet R diskMap c.key)

/-- The answer to a GET. -/
def answer (asked : List UInt8 × (Option (List UInt8) × ℤ)) : Response :=
  ⟨asked.1, thread4Response asked.2⟩

section ReadPath

variable {R : RocksDb DB} {diskMap : DB} {b : CmdBuffer n} {cs : List MapCommand}
  (hb : b.Carries cs)

include hb

/-- The responses at the places of a batch are the answers to its commands. -/
lemma map_response4 :
    b.places.map (b.response4 R fun _ => diskMap) =
      (cs.map (MapCommand.asks R diskMap)).map answer := by
  have hplaces : b.places.map (b.response4 R fun _ => diskMap) =
      (b.places.map Prod.snd).map fun r =>
        ⟨returnAddr r.bytes 0, thread4Response (kvStoreGet R diskMap (cString r.bytes r.keyOffset))⟩ := by
    rw [List.map_map]
    refine List.map_congr_left fun p hp => ?_
    obtain ⟨c, -, hc⟩ := hb.exists_command (CmdBuffer.mem_commands_of_place hp)
    have hterminated : p.2.Terminated := hc ▸ c.terminated
    rw [CmdBuffer.response4, CmdBuffer.keyAt_eq hp hterminated]
    rfl
  rw [hplaces, CmdBuffer.places, Cursor.map_snd_offsets, hb.commands, List.map_map, List.map_map]
  refine List.map_congr_left fun c _ => ?_
  show Response.mk _ (thread4Response (kvStoreGet R diskMap
    (cString c.bytes c.toKvsRecord.keyOffset))) = _
  rw [c.cString_key]
  rfl

/-- `thread_4_old` answers every command. -/
lemma exists_thread4OldBatch (hR : R.Bounded diskMap) :
    ∃ s, thread4OldBatch R (fun _ => diskMap) b = some (s, b.cmdsLength) ∧
      s.2 = (cs.map (MapCommand.asks R diskMap)).map answer := by
  have hbody : ∀ p ∈ b.places, ∀ s, True →
      ∃ s', thread4OldBody R (fun _ => diskMap) b s p.1 = some (s', p.2.size) ∧ True ∧
        s'.2 = s.2 ++ [b.response4 R (fun _ => diskMap) p] := by
    intro p hp s _
    have hr := CmdBuffer.mem_commands_of_place hp
    rw [thread4OldBody, thread4Visit_place (fun _ => diskMap) hb.cmdsLength_le hp
      (hb.record_length_le p.2 hr) (hR.kvStoreGet_lt _), Option.map_some]
    exact ⟨_, rfl, trivial, rfl⟩
  obtain ⟨s, hloop, -, hsent⟩ := Cursor.exists_loop (s := ([], [])) (fun _ => True) Prod.snd
    (b.response4 R fun _ => diskMap) KvsRecord.size_pos hbody b.length_commands_le trivial
  rw [b.total_size] at hloop
  rw [← map_response4 hb]
  exact ⟨s, hloop, hsent⟩

/-- `thread_4` answers in groups, with the last answer of each. -/
lemma exists_thread4Batch_carries (hR : R.Bounded diskMap) :
    ∃ s, thread4Batch R (fun _ => diskMap) b = some (s, b.cmdsLength) ∧
      s.sent = grouped iouQueueLen 0 ((cs.map (MapCommand.asks R diskMap)).map answer) := by
  obtain ⟨s, hwalk, -, hsent, -⟩ := exists_thread4Batch (fun _ => diskMap)
    hb.cmdsLength_le hb.record_length_le fun p _ => hR.kvStoreGet_lt _
  rw [map_response4 hb] at hsent
  exact ⟨s, hwalk, hsent⟩

end ReadPath

/-- A response tells its status and its data. -/
lemma clientResp_inj {bodyLength bodyLength' opType opType' status status' : ℕ}
    {data data' : List UInt8}
    (h : clientResp bodyLength opType status data = clientResp bodyLength' opType' status' data') :
    toLe 2 status = toLe 2 status' ∧ data = data' := by
  obtain ⟨-, h⟩ := List.append_inj h (by simp)
  obtain ⟨-, h⟩ := List.append_inj h (by simp)
  obtain ⟨hstatus, h⟩ := List.append_inj h (by simp)
  exact ⟨hstatus, (List.append_inj h (by simp)).2⟩

/-- A response tells what the store has. -/
lemma thread4Response_inj {R : RocksDb DB} {diskMap diskMap' : DB} {key key' : List UInt8}
    (h : thread4Response (kvStoreGet R diskMap key) =
      thread4Response (kvStoreGet R diskMap' key')) :
    kvStoreGet R diskMap key = kvStoreGet R diskMap' key' := by
  have hresult : ∀ db k, (∃ v, kvStoreGet R db k = (some v, (v.length : ℤ))) ∨
      kvStoreGet R db k = (none, -1) := by
    intro db k
    rw [kvStoreGet]
    split
    · exact .inr rfl
    · exact .inr rfl
    · exact .inl ⟨_, rfl⟩
  rcases hresult diskMap key with ⟨v, hv⟩ | hv <;> rcases hresult diskMap' key' with ⟨v', hv'⟩ | hv' <;>
    rw [hv, hv'] at h ⊢
  · obtain ⟨-, rfl⟩ := clientResp_inj h
    rfl
  · exact absurd (clientResp_inj h).1 (by decide)
  · exact absurd (clientResp_inj h).1 (by decide)

/-- The answers to a batch determine what the commands ask. -/
lemma answer_inj {R : RocksDb DB} {diskMap : DB} {cs : List MapCommand} :
    ∀ x ∈ cs.map (MapCommand.asks R diskMap), ∀ y ∈ cs.map (MapCommand.asks R diskMap),
      answer x = answer y → x = y := by
  intro x hx y hy h
  obtain ⟨c, -, rfl⟩ := List.mem_map.1 hx
  obtain ⟨c', -, rfl⟩ := List.mem_map.1 hy
  rw [answer, answer, Response.mk.injEq] at h
  exact Prod.ext h.1 (thread4Response_inj h.2)

/-- **When `thread_4` answers like `thread_4_old`.**  Both get to the end of every batch, with
room in the queue for every response; they send the same exactly when the commands of each
group of `IOU_QUEUE_LEN` have the same return address and find the same in the store. -/
theorem thread4_iff {R : RocksDb DB} {diskMap : DB} {b : CmdBuffer n} {cs : List MapCommand}
    (hR : R.Bounded diskMap) (hb : b.Carries cs) :
    (∃ s old, thread4Batch R (fun _ => diskMap) b = some (s, b.cmdsLength) ∧
        thread4OldBatch R (fun _ => diskMap) b = some (old, b.cmdsLength) ∧ s.sent = old.2) ↔
      SameInGroups iouQueueLen (cs.map (MapCommand.asks R diskMap)) := by
  obtain ⟨s, hwalk, hsent⟩ := exists_thread4Batch_carries hb hR
  obtain ⟨old, hold, hsentOld⟩ := exists_thread4OldBatch hb hR
  have hgroups : s.sent = old.2 ↔
      SameInGroups iouQueueLen (cs.map (MapCommand.asks R diskMap)) := by
    rw [hsent, hsentOld, grouped_eq_iff (by decide), sameInGroups_map_iff answer_inj]
  rw [← hgroups]
  constructor
  · rintro ⟨s', old', hwalk', hold', heq⟩
    obtain ⟨rfl, -⟩ := Prod.mk.inj (Option.some.inj (hwalk.symm.trans hwalk'))
    obtain ⟨rfl, -⟩ := Prod.mk.inj (Option.some.inj (hold.symm.trans hold'))
    exact heq
  · exact fun heq => ⟨s, old, hwalk, hold, heq⟩

/-- A batch of the given commands. -/
def batchOf [NeZero n] (cs : List MapCommand) : CmdBuffer n :=
  ⟨1, 1, cs.map MapCommand.toKvsRecord, ⟨0, 0⟩⟩

/-- The store that has the value `[7]` under every key. -/
def oneValue : List UInt8 → Option (List UInt8) := fun _ => some [7]

lemma bounded_oneValue : mapDb.Bounded oneValue := by
  intro key value h
  obtain rfl : [7] = value := Option.some.inj (Except.ok.inj h)
  decide

/-- `shortGet` for another key. -/
def otherKeyGet : MapCommand :=
  { shortGet with
    bytes := [1, 0, 0, 0, 1, 0, 0, 0] ++ List.replicate 16 0 ++ [1, 0, 0, 0] ++
      [118, 0, 0, 0, 106, 0] ++ List.replicate 6 0
    key := [106]
    length_eq := by decide
    op_eq := by decide
    key_ne := by simp
    key_eq := by decide }

/-- Three GETs of one client, for two keys. -/
def oneClient : List MapCommand := [shortGet, otherKeyGet, shortGet]

lemma asks_oneClient : oneClient.map (MapCommand.asks mapDb oneValue) =
    List.replicate 3 (List.replicate 16 0, some [7], 1) := rfl

/-- One client, for whom the store has the same under all its keys, is answered alike by both. -/
theorem thread4_oneClient :
    ∃ s old,
      thread4Batch mapDb (fun _ => oneValue) (batchOf (n := 1) oneClient) = some (s, 120) ∧
      thread4OldBatch mapDb (fun _ => oneValue) (batchOf (n := 1) oneClient) = some (old, 120) ∧
      s.sent = old.2 := by
  have hb : (batchOf (n := 1) oneClient).Carries oneClient := by
    refine ⟨rfl, ?_, by decide +kernel⟩
    rw [oneClient]
    simp only [List.forall_mem_cons]
    exact ⟨by decide, by decide, by decide, List.forall_mem_nil _⟩
  refine (thread4_iff bounded_oneValue hb).2 ?_
  rw [asks_oneClient]
  intro i j hi hj _
  rw [List.length_replicate] at hi hj
  rw [List.getElem?_replicate_of_lt hi, List.getElem?_replicate_of_lt hj]

/-- `shortGet` from another client. -/
def otherGet : MapCommand :=
  { shortGet with
    bytes := [1, 0, 0, 0, 1, 0, 0, 0] ++ List.replicate 16 1 ++ [1, 0, 0, 0] ++
      [118, 0, 0, 0, 107, 0] ++ List.replicate 6 0
    length_eq := by decide
    op_eq := by decide
    key_eq := by decide }

/-- Two clients in one batch: both answers go to the second one. -/
theorem thread4_two_clients :
    (batchOf (n := 1) [shortGet, otherGet]).Carries [shortGet, otherGet] ∧
      ∃ s old,
        thread4Batch mapDb (fun _ => MapOps.empty) (batchOf (n := 1) [shortGet, otherGet]) =
          some (s, 80) ∧
        thread4OldBatch mapDb (fun _ => MapOps.empty) (batchOf (n := 1) [shortGet, otherGet]) =
          some (old, 80) ∧
        s.sent.map Response.addr = [List.replicate 16 1, List.replicate 16 1] ∧
        old.2.map Response.addr = [List.replicate 16 0, List.replicate 16 1] := by
  constructor
  · refine ⟨rfl, ?_, by decide⟩
    simp only [List.forall_mem_cons]
    exact ⟨by decide, by decide, List.forall_mem_nil _⟩
  · exact ⟨_, _, rfl, rfl, rfl, rfl⟩

/-! ### The write path -/

/-- `thread_5_new` in its batch.  The entries of its queue are the responses themselves. -/
structure Walk5New (DB : Type) where
  diskMap : DB
  visits : List Visit
  ring : SubmissionQueue Response iouQueueLen
  sent : List Response

/-- The body of the loop of `thread_5_new`.  The test for the end of the batch comes before
`total_length_processed` is moved on. -/
def thread5NewBody (R : RocksDb DB) (leads : ℕ → Bool) (b : CmdBuffer n) (s : Walk5New DB)
    (cmd : ℕ) : Option (Walk5New DB × ℕ) :=
  (thread5Visit R s.diskMap b cmd).bind fun p =>
    if leads cmd then
      (s.ring.push p.2.success).map fun ring =>
        if ring.entries.length = iouQueueLen ∨ cmd = b.cmdsLength then
          (⟨p.1, s.visits ++ [p.2], .empty, s.sent ++ ring.submit id⟩, p.2.length)
        else (⟨p.1, s.visits ++ [p.2], ring, s.sent⟩, p.2.length)
    else some (⟨p.1, s.visits ++ [p.2], s.ring, s.sent⟩, p.2.length)

/-- `thread_5_new` with a batch; its ring is a new one. -/
def thread5NewBatch (R : RocksDb DB) (leads : ℕ → Bool) (diskMap : DB) (b : CmdBuffer n) :
    Option (Walk5New DB × ℕ) :=
  if b.cmdsLength > cmdbufSize then none
  else
    Cursor.loop (thread5NewBody R leads b) b.cmdsLength b.cmdsLength ⟨diskMap, [], .empty, []⟩ 0

/-- While the node is leader, `thread_5_new` has the store of `thread_5`, and has sent or queued
the responses that `thread_5` has sent; what it has sent are whole groups. -/
structure InStep (s : Walk5 DB) (t : Walk5New DB) : Prop where
  diskMap : t.diskMap = s.diskMap
  sent : t.sent ++ t.ring.entries = s.sent
  visits : s.sent = s.visits.map Visit.success
  groups : t.sent.length % iouQueueLen = 0
  room : t.ring.entries.length < iouQueueLen

/-- An iteration of both threads on one command. -/
lemma inStep_body {R : RocksDb DB} {b : CmdBuffer n} {s : Walk5 DB} {t : Walk5New DB}
    (h : InStep s t) (cmd : ℕ) (hlt : cmd < b.cmdsLength) :
    (thread5Body R (fun _ => true) b s cmd = none ∧
        thread5NewBody R (fun _ => true) b t cmd = none) ∨
      ∃ s' t' d, thread5Body R (fun _ => true) b s cmd = some (s', d) ∧
        thread5NewBody R (fun _ => true) b t cmd = some (t', d) ∧ InStep s' t' := by
  rw [thread5Body, thread5NewBody, h.diskMap]
  cases hvisit : thread5Visit R s.diskMap b cmd with
  | none => exact .inl ⟨rfl, rfl⟩
  | some p =>
      obtain ⟨ring, hpush, hentries⟩ := SubmissionQueue.exists_push h.room p.2.success
      have hvisits : s.sent ++ [p.2.success] = (s.visits ++ [p.2]).map Visit.success := by
        rw [h.visits, List.map_append, List.map_singleton]
      have hsent : t.sent ++ ring.entries = s.sent ++ [p.2.success] := by
        rw [hentries, ← List.append_assoc, h.sent]
      have hmore : cmd ≠ b.cmdsLength := Nat.ne_of_lt hlt
      have hlen := congrArg List.length hentries
      rw [List.length_append, List.length_singleton] at hlen
      have hroom := h.room
      have hgroups := h.groups
      rw [Option.map_some, Option.bind_some, if_pos rfl, if_pos rfl, hpush, Option.map_some]
      by_cases hfull : ring.entries.length = iouQueueLen
      · rw [if_pos (.inl hfull)]
        refine .inr ⟨_, _, _, rfl, rfl, rfl, ?_, hvisits, ?_, ?_⟩
        · show (t.sent ++ ring.entries.map id) ++ [] = s.sent ++ [p.2.success]
          rw [List.append_nil, List.map_id, hsent]
        · show (t.sent ++ ring.entries.map id).length % iouQueueLen = 0
          rw [List.length_append, List.length_map, hfull, Nat.add_mod_right, hgroups]
        · show 0 < iouQueueLen
          decide
      · rw [if_neg (not_or.2 ⟨hfull, hmore⟩)]
        refine .inr ⟨_, _, _, rfl, rfl, rfl, hsent, hvisits, hgroups, ?_⟩
        show ring.entries.length < iouQueueLen
        omega

/-- Both threads get to the end of a batch of SETs and DELETEs. -/
lemma exists_inStep {R : RocksDb DB} (diskMap : DB) {b : CmdBuffer n} {cs : List MapCommand}
    (hb : b.Carries cs) (hwrites : ∀ c ∈ cs, c.op ≠ .get) :
    ∃ s t, thread5Batch R (fun _ => true) diskMap b = some (s, b.cmdsLength) ∧
      thread5NewBatch R (fun _ => true) diskMap b = some (t, b.cmdsLength) ∧ InStep s t ∧
      s.sent.length = cs.length := by
  have hcommands : ∀ r ∈ b.commands, r.bytes.length ≤ maxKvsCmdSize ∧
      (opType r.bytes 0 = 2 ∨ opType r.bytes 0 = 3) := by
    intro r hr
    refine ⟨hb.record_length_le r hr, ?_⟩
    obtain ⟨c, hc, rfl⟩ := hb.exists_command hr
    have htype := KvsOp.ofNat?_eq_some.1 c.op_eq
    cases hop : c.op with
    | nop => exact absurd hop c.op_ne
    | get => exact absurd hop (hwrites c hc)
    | set => exact .inl (htype.trans (by rw [hop]; rfl))
    | delete => exact .inr (htype.trans (by rw [hop]; rfl))
  obtain ⟨s, hwalk, hvisits⟩ := exists_thread5Batch (R := R) hb.cmdsLength_le hcommands
  have hpos : 0 < iouQueueLen := by decide
  have hstart : InStep (⟨diskMap, [], []⟩ : Walk5 DB) ⟨diskMap, [], .empty, []⟩ :=
    ⟨rfl, rfl, rfl, rfl, hpos⟩
  have hle : ¬ b.cmdsLength > cmdbufSize := Nat.not_lt.2 hb.cmdsLength_le
  have hloops := Cursor.loop_rel
    (fun s t c (h : InStep s t) (hlt : c < b.cmdsLength) => inStep_body (R := R) h c hlt)
    b.cmdsLength hstart 0
  have hwalk' := hwalk
  rw [thread5Batch, if_neg hle] at hwalk'
  obtain ⟨q, hloop, hq⟩ := Option.bind_eq_some_iff.1 hwalk'
  split at hq
  · obtain rfl := Option.some.inj hq
    rcases hloops with ⟨hnone, -⟩ | ⟨s', t, c, hloop', hnew, hstep⟩
    · rw [hloop] at hnone
      cases hnone
    · obtain ⟨rfl, rfl⟩ := Prod.mk.inj (Option.some.inj (hloop.symm.trans hloop'))
      refine ⟨s, t, hwalk, ?_, hstep, ?_⟩
      · rw [thread5NewBatch, if_neg hle, hnew]
      · rw [hstep.visits, hvisits, List.length_map, List.length_map, CmdBuffer.places,
          Cursor.length_offsets, hb.commands, List.length_map]
  · cases hq

/-- **When `thread_5_new` answers like `thread_5`.**  It leaves the store as `thread_5` does, and
has sent the same responses when it frees the buffer exactly when their number is a multiple of
`IOU_QUEUE_LEN`. -/
theorem thread5New_iff {R : RocksDb DB} {diskMap : DB} {b : CmdBuffer n} {cs : List MapCommand}
    (hb : b.Carries cs) (hwrites : ∀ c ∈ cs, c.op ≠ .get) :
    (∃ s t c, thread5Batch R (fun _ => true) diskMap b = some (s, c) ∧
        thread5NewBatch R (fun _ => true) diskMap b = some (t, c) ∧ t.diskMap = s.diskMap ∧
        t.sent.Perm s.sent) ↔
      cs.length % iouQueueLen = 0 := by
  obtain ⟨s, t, hwalk, hnew, hstep, hlength⟩ := exists_inStep (R := R) diskMap hb hwrites
  have hsent := congrArg List.length hstep.sent
  have hgroups : t.sent.length % 1024 = 0 := hstep.groups
  have hroom : t.ring.entries.length < 1024 := hstep.room
  rw [List.length_append, hlength] at hsent
  show _ ↔ cs.length % 1024 = 0
  constructor
  · rintro ⟨s', t', c, hwalk', hnew', -, hperm⟩
    obtain ⟨rfl, -⟩ := Prod.mk.inj (Option.some.inj (hwalk.symm.trans hwalk'))
    obtain ⟨rfl, -⟩ := Prod.mk.inj (Option.some.inj (hnew.symm.trans hnew'))
    have := hperm.length_eq
    omega
  · intro hmod
    have hempty : t.ring.entries = [] := by
      rw [← List.length_eq_zero_iff]
      omega
    refine ⟨s, t, _, hwalk, hnew, hstep.diskMap, ?_⟩
    rw [← hstep.sent, hempty, List.append_nil]

/-- A batch of 1024 SETs is answered. -/
theorem thread5New_full_group :
    ∃ s t c,
      thread5Batch mapDb (fun _ => true) MapOps.empty
        (batchOf (n := 1) (List.replicate 1024 shortSet)) = some (s, c) ∧
      thread5NewBatch mapDb (fun _ => true) MapOps.empty
        (batchOf (n := 1) (List.replicate 1024 shortSet)) = some (t, c) ∧
      t.diskMap = s.diskMap ∧ t.sent.Perm s.sent := by
  have hb : (batchOf (n := 1) (List.replicate 1024 shortSet)).Carries
      (List.replicate 1024 shortSet) := by
    refine ⟨rfl, fun c hc => ?_, ?_⟩
    · obtain rfl := List.eq_of_mem_replicate hc
      decide
    · have hsize : shortSet.toKvsRecord.size = 40 := by decide
      rw [← CmdBuffer.total_size, Cursor.total, batchOf, List.map_map, List.map_replicate,
        List.sum_replicate_nat, Function.comp_apply, hsize]
      decide
  refine (thread5New_iff hb fun c hc => ?_).2 (by rw [List.length_replicate]; decide)
  obtain rfl := List.eq_of_mem_replicate hc
  decide

/-- The response to a single SET stays in the queue. -/
theorem thread5New_one :
    (batchOf (n := 1) [shortSet]).Carries [shortSet] ∧
      ∃ s t,
        thread5Batch mapDb (fun _ => true) MapOps.empty (batchOf (n := 1) [shortSet]) =
          some (s, 40) ∧
        thread5NewBatch mapDb (fun _ => true) MapOps.empty (batchOf (n := 1) [shortSet]) =
          some (t, 40) ∧
        s.sent = [⟨List.replicate 16 0, clientResp 0 2 200 []⟩] ∧ t.sent = [] := by
  constructor
  · refine ⟨rfl, ?_, by decide⟩
    simp only [List.forall_mem_singleton]
    decide
  · exact ⟨_, _, rfl, rfl, rfl, rfl⟩

end Oceanliner
