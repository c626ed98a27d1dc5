/-
# The walks over a batch end

`apply_command_batch`, `thread_5` and `thread_4` go over a batch by the lengths that
`kvs_command_len` computes.  Here their loops run over any bytes, with no assertion in the way:
`buf` is the memory from the first command on, the batch and what is behind it, and `n` the size of
the batch, which need not be the sum of the lengths in it.  The offset is counted in `size_t`.

The assertions are the difference to the loops of `RaftCore.Apply` and `Main.Walks`; where those go
through, these end in the same state.  An overflow of the arrays on the stack, to which values are
copied, is left out.
-/
import Oceanliner.Lib.Scan
import Oceanliner.Main.Walks
import Oceanliner.RaftCore.Apply

open Bytes Scan

namespace Oceanliner

/-! ### The loops without assertions -/

section Commands

variable (buf : List UInt8) (cmd : ℕ)

/-- `kvs_command_len` at any address. -/
def commandLength : ℕ := kvsLen (keyLength buf cmd) (valueLength buf cmd)

/-- `kvs_command_get_key` at any address: the string that is found there. -/
def commandKey : List UInt8 :=
  cString buf (jumpToAlignment (cmd + sizeofKvsCommand + valueLength buf cmd) 4)

/-- `kvs_command_get_value` at any address: the value that is found there. -/
def commandValue : List UInt8 := slice buf (cmd + sizeofKvsCommand) (valueLength buf cmd)

/-- What a thread does with the command, when it copies so many bytes of a value. -/
def commandVisit (copied : ℕ) : Visit where
  offset := cmd
  length := commandLength buf cmd
  type := opType buf cmd
  returnAddr := returnAddr buf cmd
  key := commandKey buf cmd
  copied := copied

end Commands

section Loops

variable {σ DB : Type}

/-- The body of the loop of `apply_command_batch`, with `apply_result` in front of the state. -/
def applyCommandBatchBody (apply : σ → List UInt8 → ℕ → ℤ × σ) (buf : List UInt8)
    (s : ℤ × Applying σ) (offset : ℕ) : Option (ℤ × Applying σ) :=
  let (cmdApplyResult, s') := callApply apply s.2 buf offset
  some (if cmdApplyResult ≠ 0 then cmdApplyResult else s.1, s')

/-- The loop of `apply_command_batch`. -/
def applyCommandBatchLoop (apply : σ → List UInt8 → ℕ → ℤ × σ) (buf : List UInt8) (n fuel : ℕ)
    (s : ℤ × Applying σ) : Outcome (ℤ × Applying σ) × List ℕ :=
  scan (applyCommandBatchBody apply buf) (commandLength buf) u64 n fuel s 0

/-- What `thread_5` has done after a command, with the store as it is then. -/
def Walk5.after (leads : ℕ → Bool) (s : Walk5 DB) (diskMap : DB) (v : Visit) : Walk5 DB where
  diskMap := diskMap
  visits := s.visits ++ [v]
  sent := if leads v.offset then s.sent ++ [v.success] else s.sent

/-- The body of the loop of `thread_5`.  It leaves the loop with `exit` at a command that is neither
SET nor DELETE. -/
def thread5LoopBody (R : RocksDb DB) (leads : ℕ → Bool) (buf : List UInt8) (s : Walk5 DB)
    (cmd : ℕ) : Option (Walk5 DB) :=
  match KvsOp.ofNat? (opType buf cmd) with
  | some .delete =>
      some (s.after leads (kvStoreDelete R s.diskMap (commandKey buf cmd)).2
        (commandVisit buf cmd 0))
  | some .set =>
      some (s.after leads
        (kvStoreSet R s.diskMap (commandKey buf cmd) (commandValue buf cmd)).2
        (commandVisit buf cmd (valueLength buf cmd)))
  | _ => none

/-- The loop of `thread_5`. -/
def thread5Loop (R : RocksDb DB) (leads : ℕ → Bool) (buf : List UInt8) (n fuel : ℕ)
    (s : Walk5 DB) : Outcome (Walk5 DB) × List ℕ :=
  scan (thread5LoopBody R leads buf) (commandLength buf) u64 n fuel s 0

/-- The body of the loop of `thread_4`, with `num_ring_added` behind the state.  The queue may hold
entries of an earlier batch as well.  The body does not come back from a queue without room: the
entry it gets is then a null pointer. -/
def thread4LoopBody (R : RocksDb DB) (stores : ℕ → DB) (buf : List UInt8) (n : ℕ) (s : Walk4 × ℕ)
    (cmd : ℕ) : Option (Walk4 × ℕ) :=
  (s.1.ring.push ()).map fun ring =>
    let result := kvStoreGet R (stores cmd) (commandKey buf cmd)
    let visits := s.1.visits ++ [commandVisit buf cmd (thread4Copied result)]
    if s.2 + 1 = iouQueueLen ∨ u64 (cmd + commandLength buf cmd) = n then
      (⟨visits, .empty,
        s.1.sent ++ ring.submit fun _ => ⟨returnAddr buf cmd, thread4Response result⟩⟩, 0)
    else (⟨visits, ring, s.1.sent⟩, s.2 + 1)

/-- The loop of `thread_4`. -/
def thread4Loop (R : RocksDb DB) (stores : ℕ → DB) (buf : List UInt8) (n fuel : ℕ) (s : Walk4) :
    Outcome (Walk4 × ℕ) × List ℕ :=
  scan (thread4LoopBody R stores buf n) (commandLength buf) u64 n fuel (s, 0) 0

end Loops

/-! ### Lengths and offsets -/

section Lengths

variable (buf : List UInt8) (cmd : ℕ)

lemma commandLength_mod_eight : commandLength buf cmd % 8 = 0 :=
  kvsLen_mod_eight (keyLength_lt buf cmd) (valueLength_lt buf cmd)

lemma thirtyTwo_le_commandLength : 32 ≤ commandLength buf cmd :=
  thirtyTwo_le_kvsLen (keyLength_lt buf cmd) (valueLength_lt buf cmd)

/-- Two lengths of 32 bits and two roundings stay below 2 ^ 34. -/
lemma commandLength_lt : commandLength buf cmd < 2 ^ 34 := by
  have hk := keyLength_lt buf cmd
  have hv := valueLength_lt buf cmd
  rw [commandLength, kvsLen_eq hk hv]
  omega

variable {buf cmd} {n : ℕ}

/-- The offset does not wrap around. -/
lemma add_commandLength_lt (hn : n < 2 ^ 63) (hcmd : cmd < n) :
    cmd + commandLength buf cmd < 2 ^ 64 := by
  have hlength := commandLength_lt buf cmd
  omega

lemma u64_add_commandLength (hn : n < 2 ^ 63) :
    ∀ c < n, u64 (c + commandLength buf c) = c + commandLength buf c :=
  fun _ hc => u64_of_lt (add_commandLength_lt hn hc)

end Lengths

/-- How a loop over `n` bytes goes: it ends, after at most `⌈n / 32⌉` iterations, and where it
computes a length, at a multiple of 8 below `n`, neither the length nor the next offset wraps
around. -/
structure WalkEnds {S : Type} (buf : List UInt8) (n : ℕ) (r : Outcome S × List ℕ) : Prop where
  ends : r.1 ≠ .running
  iterations : r.2.length ≤ (n + 31) / 32
  offset_lt : ∀ c ∈ r.2, c < n
  offset_mod_eight : ∀ c ∈ r.2, c % 8 = 0
  length_mod_eight : ∀ c ∈ r.2, commandLength buf c % 8 = 0
  thirtyTwo_le_length : ∀ c ∈ r.2, 32 ≤ commandLength buf c
  next_lt : ∀ c ∈ r.2, c + commandLength buf c < 2 ^ 64

/-- Every loop that advances by `kvs_command_len` ends, whatever it does with a command. -/
lemma walkEnds {S : Type} (body : S → ℕ → Option S) (buf : List UInt8) {n fuel : ℕ}
    (hn : n < 2 ^ 63) (hfuel : (n + 31) / 32 ≤ fuel) (s : S) :
    WalkEnds buf n (scan body (commandLength buf) u64 n fuel s 0) := by
  have hwrap : ∀ c < n, u64 (c + commandLength buf c) = c + commandLength buf c :=
    u64_add_commandLength hn
  obtain ⟨hends, hiterations⟩ :
      (scan body (commandLength buf) u64 n fuel s 0).1 ≠ .running ∧
        (scan body (commandLength buf) u64 n fuel s 0).2.length ≤ (n + 31) / 32 :=
    scan_ends hwrap (by omega) (fun c _ => thirtyTwo_le_commandLength buf c) hfuel
  have hoffset : ∀ c ∈ (scan body (commandLength buf) u64 n fuel s 0).2, c < n ∧ c % 8 = 0 := by
    refine forall_mem_scan (P := fun c => c % 8 = 0) (fun c hc hmod => ?_) rfl
    have hlength := commandLength_mod_eight buf c
    rw [hwrap c hc]
    omega
  exact
    { ends := hends
      iterations := hiterations
      offset_lt := fun c hc => (hoffset c hc).1
      offset_mod_eight := fun c hc => (hoffset c hc).2
      length_mod_eight := fun c _ => commandLength_mod_eight buf c
      thirtyTwo_le_length := fun c _ => thirtyTwo_le_commandLength buf c
      next_lt := fun c hc => add_commandLength_lt hn (hoffset c hc).1 }

/-- **Batch walks end on every input.**  For all length fields of 32 bits, the length that
`kvs_command_len` computes in 64-bit arithmetic is the exact one, a multiple of 8 and at least 32;
and the loops of `apply_command_batch`, `thread_5` and `thread_4` end from every state, over any
memory, after at most `⌈n / 32⌉` iterations. -/
theorem batch_walks_end (σ DB : Type) (buf : List UInt8) (n : ℕ) (hn : n < 2 ^ 63) :
    (∀ k v, k < 2 ^ 32 → v < 2 ^ 32 →
      kvsLen k v = (28 + (v + 3) / 4 * 4 + k + 1 + 7) / 8 * 8 ∧ kvsLen k v < 2 ^ 64 ∧
        kvsLen k v % 8 = 0 ∧ 32 ≤ kvsLen k v) ∧
      (∀ (apply : σ → List UInt8 → ℕ → ℤ × σ) (fuel : ℕ) (s : ℤ × Applying σ),
        (n + 31) / 32 ≤ fuel → WalkEnds buf n (applyCommandBatchLoop apply buf n fuel s)) ∧
      (∀ (R : RocksDb DB) (leads : ℕ → Bool) (fuel : ℕ) (s : Walk5 DB),
        (n + 31) / 32 ≤ fuel → WalkEnds buf n (thread5Loop R leads buf n fuel s)) ∧
      ∀ (R : RocksDb DB) (stores : ℕ → DB) (fuel : ℕ) (s : Walk4),
        (n + 31) / 32 ≤ fuel → WalkEnds buf n (thread4Loop R stores buf n fuel s) := by
  refine ⟨fun k v hk hv => ?_, fun apply fuel s hfuel => ?_, fun R leads fuel s hfuel => ?_,
    fun R stores fuel s hfuel => ?_⟩
  · have hlt : kvsLen k v < 2 ^ 64 := by
      rw [kvsLen_eq hk hv]
      omega
    exact ⟨kvsLen_eq hk hv, hlt, kvsLen_mod_eight hk hv, thirtyTwo_le_kvsLen hk hv⟩
  · exact walkEnds (applyCommandBatchBody apply buf) buf hn hfuel s
  · exact walkEnds (thread5LoopBody R leads buf) buf hn hfuel s
  · exact walkEnds (thread4LoopBody R stores buf n) buf hn hfuel (s, 0)

/-- A batch of 40 bytes in a memory whose length fields all hold the largest number. -/
theorem batch_walks_end_largest :
    kvsLen (2 ^ 32 - 1) (2 ^ 32 - 1) = 2 ^ 33 + 32 ∧
      WalkEnds (List.replicate 64 255) 40
        (thread5Loop mapDb (fun _ => true) (List.replicate 64 255) 40 2 ⟨MapOps.empty, [], []⟩) ∧
      WalkEnds (List.replicate 64 255) 40
        (thread4Loop mapDb (fun _ => MapOps.empty) (List.replicate 64 255) 40 2
          ⟨[], .empty, []⟩) := by
  obtain ⟨hlength, -, h5, h4⟩ := batch_walks_end Unit (List UInt8 → Option (List UInt8))
    (List.replicate 64 255) 40 (by norm_num)
  obtain ⟨hexact, -, -⟩ := hlength (2 ^ 32 - 1) (2 ^ 32 - 1) (by norm_num) (by norm_num)
  exact ⟨hexact, h5 _ _ 2 _ le_rfl, h4 _ _ 2 _ le_rfl⟩

/-! ### The loops with assertions -/

section Checked

variable {σ DB : Type} {nodes : ℕ}

/-- One iteration of `apply_command_batch`: at a multiple of 8 the assertion holds. -/
lemma applyCommandBatchFrom_of_lt (apply : σ → List UInt8 → ℕ → ℤ × σ) {batchData : List UInt8}
    {offset : ℕ} (hlt : offset < batchData.length) (hmod : offset % 8 = 0) (a : ℤ)
    (s : Applying σ) :
    ∃ s', applyCommandBatchBody apply batchData (a, s) offset = some s' ∧
      applyCommandBatchFrom apply batchData s offset a =
        applyCommandBatchFrom apply batchData s'.2 (offset + commandLength batchData offset)
          s'.1 := by
  have hlength : kvsCommandLen batchData offset = some (commandLength batchData offset) :=
    if_pos hmod
  refine ⟨_, rfl, ?_⟩
  rw [applyCommandBatchFrom, if_pos hlt]
  dsimp only
  split
  · rename_i hnone
    rw [hlength] at hnone
    cases hnone
  · rename_i size hsome
    obtain rfl := Option.some.inj (hlength.symm.trans hsome)
    rfl

/-- The assertion of `apply_command_batch` never fails, and the loop ends as the one without. -/
theorem applyCommandBatchFrom_eq_loop (apply : σ → List UInt8 → ℕ → ℤ × σ)
    (batchData : List UInt8) (hn : batchData.length < 2 ^ 63) (a : ℤ) (s : Applying σ) {fuel : ℕ}
    (hfuel : (batchData.length + 31) / 32 ≤ fuel) :
    ∃ s' c, (applyCommandBatchLoop apply batchData batchData.length fuel (a, s)).1 = .ended s' c ∧
      applyCommandBatchFrom apply batchData s 0 a = some s' := by
  have hwrap : ∀ c < batchData.length,
      u64 (c + commandLength batchData c) = c + commandLength batchData c :=
    u64_add_commandLength hn
  suffices hrest : ∀ fuel offset a s, offset % 8 = 0 →
      (batchData.length - offset + 31) / 32 ≤ fuel →
      ∃ s' c, (scan (applyCommandBatchBody apply batchData) (commandLength batchData) u64
        batchData.length fuel (a, s) offset).1 = .ended s' c ∧
          applyCommandBatchFrom apply batchData s offset a = some s' from
    hrest fuel 0 a s rfl hfuel
  intro fuel
  induction fuel with
  | zero =>
      intro offset a s _ hfuel
      have hdone : ¬ offset < batchData.length := by omega
      refine ⟨(a, s), offset, by rw [scan_of_not_lt hdone], ?_⟩
      rw [applyCommandBatchFrom, if_neg hdone]
  | succ fuel ih =>
      intro offset a s hmod hfuel
      by_cases hlt : offset < batchData.length
      · obtain ⟨s₁, hbody, hfrom⟩ := applyCommandBatchFrom_of_lt apply hlt hmod a s
        have hlength := commandLength_mod_eight batchData offset
        have hmin := thirtyTwo_le_commandLength batchData offset
        obtain ⟨s', c, hscan, hend⟩ := ih (offset + commandLength batchData offset) s₁.1 s₁.2
          (by omega) (by omega)
        refine ⟨s', c, ?_, hfrom.trans hend⟩
        rw [scan_of_some hlt hbody, hwrap offset hlt]
        exact hscan
      · refine ⟨(a, s), offset, by rw [scan_of_not_lt hlt], ?_⟩
        rw [applyCommandBatchFrom, if_neg hlt]

/-- The assertions on the address of a command are one. -/
lemma kvsCommandLen_eq_some {buf : List UInt8} {cmd length : ℕ}
    (h : kvsCommandLen buf cmd = some length) :
    cmd % 8 = 0 ∧ length = commandLength buf cmd := by
  rw [kvsCommandLen] at h
  split at h
  · rename_i hmod
    exact ⟨hmod, (Option.some.inj h).symm⟩
  · cases h

/-- What `thread_5` does with a command when no assertion fails. -/
lemma thread5LoopBody_of_thread5Body {R : RocksDb DB} {leads : ℕ → Bool} {b : CmdBuffer nodes}
    {s : Walk5 DB} {cmd : ℕ} {q : Walk5 DB × ℕ} (h : thread5Body R leads b s cmd = some q) :
    thread5LoopBody R leads b.data s cmd = some q.1 ∧ q.2 = commandLength b.data cmd := by
  obtain ⟨p, hvisit, rfl⟩ := Option.map_eq_some_iff.1 h
  obtain ⟨r, hcommand, hkey⟩ := Option.bind_eq_some_iff.1 hvisit
  obtain ⟨key, hget, rfl⟩ := Option.map_eq_some_iff.1 hkey
  rw [thread5Command] at hcommand
  split at hcommand
  · cases hcommand
  · obtain ⟨length, hlength, hrest⟩ := Option.bind_eq_some_iff.1 hcommand
    obtain ⟨hmod, rfl⟩ := kvsCommandLen_eq_some hlength
    have hkey : kvsCommandGetKey b.data cmd =
        some (jumpToAlignment (cmd + sizeofKvsCommand + valueLength b.data cmd) 4) := if_pos hmod
    rw [hkey] at hget hrest
    obtain rfl := Option.some.inj hget
    rw [Option.bind_some] at hrest
    split at hrest
    · rename_i hop
      obtain rfl := Option.some.inj hrest
      have htype : ¬ opType b.data cmd = 2 := by
        rw [KvsOp.ofNat?_eq_some.1 hop]
        decide
      refine ⟨?_, rfl⟩
      rw [thread5LoopBody, hop, if_neg htype]
      rfl
    · rename_i hop
      obtain ⟨value, hvalue, rfl⟩ := Option.map_eq_some_iff.1 hrest
      rw [kvsCommandGetValue, if_pos hmod] at hvalue
      obtain rfl := Option.some.inj hvalue
      have htype : opType b.data cmd = 2 := KvsOp.ofNat?_eq_some.1 hop
      refine ⟨?_, rfl⟩
      rw [thread5LoopBody, hop, if_pos htype]
      rfl
    · cases hrest

/-- Where `thread_5` gets to the end of a batch, so does the loop without assertions. -/
theorem thread5Loop_of_thread5Batch {R : RocksDb DB} {leads : ℕ → Bool} {diskMap : DB}
    {b : CmdBuffer nodes} {s : Walk5 DB} {c : ℕ}
    (h : thread5Batch R leads diskMap b = some (s, c)) :
    (thread5Loop R leads b.data b.cmdsLength b.cmdsLength ⟨diskMap, [], []⟩).1 = .ended s c := by
  rw [thread5Batch] at h
  split at h
  · cases h
  · rename_i hsize
    rw [cmdbufSize] at hsize
    obtain ⟨p, hloop, hend⟩ := Option.bind_eq_some_iff.1 h
    split at hend
    · obtain rfl := Option.some.inj hend
      have hbody : ∀ s s₁ cmd q, cmd < b.cmdsLength → s = s₁ →
          thread5Body R leads b s cmd = some q → q.2 = commandLength b.data cmd ∧
            ∃ s', thread5LoopBody R leads b.data s₁ cmd = some s' ∧ q.1 = s' := by
        rintro s _ cmd q - rfl hq
        obtain ⟨hbody, hlength⟩ := thread5LoopBody_of_thread5Body hq
        exact ⟨hlength, q.1, hbody, rfl⟩
      obtain ⟨s', hscan, rfl⟩ :=
        scan_of_loop (P := Eq) (u64_add_commandLength (by omega)) hbody rfl hloop
      exact hscan
    · cases hend

/-- `num_ring_added` is the number of the entries in the queue. -/
def RingCounted (t : Walk4) (s : Walk4 × ℕ) : Prop := s = (t, t.ring.entries.length)

/-- What `thread_4` does with a command when no assertion fails. -/
lemma thread4LoopBody_of_thread4Body {R : RocksDb DB} {stores : ℕ → DB} {b : CmdBuffer nodes}
    (hn : b.cmdsLength < 2 ^ 63) {t : Walk4} {s : Walk4 × ℕ} {cmd : ℕ} {q : Walk4 × ℕ}
    (hcmd : cmd < b.cmdsLength) (hs : RingCounted t s) (h : thread4Body R stores b t cmd = some q) :
    q.2 = commandLength b.data cmd ∧
      ∃ s', thread4LoopBody R stores b.data b.cmdsLength s cmd = some s' ∧ RingCounted q.1 s' := by
  obtain rfl : s = (t, t.ring.entries.length) := hs
  obtain ⟨ring, hpush, hrest⟩ := Option.bind_eq_some_iff.1 h
  obtain ⟨p, hvisit, rfl⟩ := Option.map_eq_some_iff.1 hrest
  obtain ⟨r, hcommand, hget⟩ := Option.bind_eq_some_iff.1 hvisit
  obtain ⟨length, hlength, hkey⟩ := Option.bind_eq_some_iff.1 hcommand
  obtain ⟨hmod, rfl⟩ := kvsCommandLen_eq_some hlength
  have hkeyAt : kvsCommandGetKey b.data cmd =
      some (jumpToAlignment (cmd + sizeofKvsCommand + valueLength b.data cmd) 4) := if_pos hmod
  have hcount : t.ring.entries.length + 1 = ring.entries.length := by
    rw [Ring.SubmissionQueue.entries_of_push hpush, List.length_append, List.length_singleton]
  split at hkey
  · cases hkey
  · rw [hkeyAt, Option.map_some] at hkey
    obtain rfl := Option.some.inj hkey
    dsimp only at hget
    split at hget
    · obtain rfl := Option.some.inj hget
      rw [thread4LoopBody, hpush, Option.map_some, u64_add_commandLength hn cmd hcmd, hcount]
      dsimp only
      split
      · exact ⟨rfl, _, rfl, rfl⟩
      · exact ⟨rfl, _, rfl, rfl⟩
    · cases hget

/-- Where `thread_4` gets to the end of a batch, so does the loop without assertions. -/
theorem thread4Loop_of_thread4Batch {R : RocksDb DB} {stores : ℕ → DB} {b : CmdBuffer nodes}
    (hn : b.cmdsLength < 2 ^ 63) {s : Walk4} {c : ℕ} (h : thread4Batch R stores b = some (s, c)) :
    (thread4Loop R stores b.data b.cmdsLength b.cmdsLength ⟨[], .empty, []⟩).1 =
      .ended (s, s.ring.entries.length) c := by
  have hstart : RingCounted ⟨[], .empty, []⟩ (⟨[], .empty, []⟩, 0) := rfl
  obtain ⟨s', hscan, rfl⟩ := scan_of_loop (u64_add_commandLength hn)
    (fun _ _ _ _ hlt hs hq => thread4LoopBody_of_thread4Body hn hlt hs hq) hstart h
  exact hscan

end Checked

end Oceanliner
