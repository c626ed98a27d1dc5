/-
# Steps that fail

A step of a thread that is not defined waits, or a failed assertion has stopped it; and there are
steps that the model takes and `main.c` does not: an append to a log file of 2 GiB, the copy of a
value that is longer than the array `string`, and a read that returns more than one message.
`Fails` are all of these together; an append fails when it does not meet the assertions of
`logfile_append_data` (`appendFits_iff`).  With one leader, batches within the limits and reads that
return one message each, nothing of the kind happens to the threads 2, 3 and 5
(`CalmCluster.noneFails`).

Sockets, memory and the file system are taken to work: `send`, `write` and `malloc` do not fail.
-/
import Oceanliner.Main.BatchSize
import Oceanliner.Main.CalmRuns
import Oceanliner.Main.LogHeaders

namespace Oceanliner

variable {n : ℕ} {DB : Type}

/-! ### The log file in bytes -/

/-- The length of a log file with the given batches. -/
def logFileSize (bs : List (CmdBuffer n)) : ℕ :=
  (bs.map fun b => 2 * sizeofKvsbHeader + b.cmdsLength).sum

@[simp] lemma logFileSize_nil : logFileSize ([] : List (CmdBuffer n)) = 0 := rfl

@[simp] lemma logFileSize_append (bs bs' : List (CmdBuffer n)) :
    logFileSize (bs ++ bs') = logFileSize bs + logFileSize bs' := by
  simp [logFileSize]

@[simp] lemma logFileSize_singleton (b : CmdBuffer n) :
    logFileSize [b] = 2 * sizeofKvsbHeader + b.cmdsLength := by
  simp [logFileSize]

/-- What `logfile_append_data` asserts of the offset, which is stored in an `int32_t`, and of the
number of bytes written. -/
def AppendFits (logFile : List (CmdBuffer n)) (b : CmdBuffer n) : Prop :=
  i32 (logFileSize logFile) ≥ 0 ∧ i32 b.cmdsLength ≥ 0

/-- The assertions of `logfile_append_data` hold exactly when the append fits. -/
lemma appendFits_iff {xxh3 : List UInt8 → UInt64 × UInt64} {file : List UInt8}
    {logFile : List (CmdBuffer n)} {lb : LogBatch} {b : CmdBuffer n} (hreads : lb.Reads b)
    (hfile : file.length = logFileSize logFile) :
    AppendFits logFile b ↔ (logfileAppendData xxh3 file lb).isSome := by
  have hheader : i32 sizeofKvsbHeader ≥ 0 := by decide
  rw [AppendFits, logfileAppendData, hfile, hreads.cmds_eq]
  split
  · rename_i h
    exact iff_of_true ⟨h.1, h.2.2⟩ rfl
  · rename_i h
    exact iff_of_false (fun hfits => h ⟨hfits.1, hheader, hfits.2⟩) (by simp)

/-- A file stays below 2 GiB with what is at its beginning. -/
lemma appendFits_of_isPrefix {logFile bs : List (CmdBuffer n)} {b : CmdBuffer n}
    (hle : logFile ++ [b] <+: bs) (hfile : logFileSize bs < 2 ^ 31) : AppendFits logFile b := by
  obtain ⟨rest, rfl⟩ := hle
  simp only [logFileSize_append, logFileSize_singleton] at hfile
  exact ⟨(i32_nonneg (by omega)).2 (by omega), (i32_nonneg (by omega)).2 (by omega)⟩

/-! ### Waiting and failing -/

/-- `thread_3` waits for a batch, or for an OK. -/
inductive Server.Waits3 (s : Server n DB) : Prop where
  | batch (hidle : s.thread3 = .idle) (hqueue : s.queue13 = [])
  | ok {w r : CmdBuffer n} {counted : List (Fin n × CmdBuffer n)}
      (hfrom : s.thread3 = .waiting w r counted) (hfew : 1 + counted.length ≤ n / 2)
      (hqueue : s.queue23 = [])

/-- `thread_5` waits for a batch. -/
def Server.Waits5 (s : Server n DB) : Prop := s.thread5 = .idle ∧ s.queue35 = []

/-- A step in which an assertion of `main.c` fails, or a value is copied past the end of `string`.
When `thread_2` of node `i` reads from node `j`, the first `arrived i j` messages have come in: the
length in the header of the first one is then that of what has been read only if it is alone, and if
it is no reply to a vote request, which announces a longer body than it has. -/
inductive Fails (R : RocksDb DB) (arrived : Fin n → Fin n → ℕ) (c : Cluster n DB) :
    ClusterAction n → Prop
  | reads {i j : Fin n} {m : Message n} {rest : List (Message n)} (hlink : c.link j i = m :: rest)
      (h : 1 < arrived i j ∨ m.isVoteReply = true ∨ maxNodes ≤ m.senderNodeId.val) :
      Fails R arrived c (.receive i j)
  | thread2 {i : Fin n} (hbusy : (c.node i).thread2 ≠ .idle)
      (hstep : thread2Step i (c.node i) = none) : Fails R arrived c (.thread2 i)
  | thread3 {i : Fin n} (hbusy : ¬ (c.node i).Waits3) (hstep : thread3Step i (c.node i) = none) :
      Fails R arrived c (.thread3 i)
  | thread5 {i : Fin n} (hbusy : ¬ (c.node i).Waits5) (hstep : thread5Step R (c.node i) = none) :
      Fails R arrived c (.thread5 i)
  | appends2 {i : Fin n} {b : CmdBuffer n} (hlogging : (c.node i).thread2 = .logging b)
      (hlong : ¬ AppendFits (c.node i).logFile b) : Fails R arrived c (.thread2 i)
  | appends3 {i : Fin n} {w : CmdBuffer n} (hlogging : (c.node i).thread3 = .logging w)
      (hlong : ¬ AppendFits (c.node i).logFile w) : Fails R arrived c (.thread3 i)
  | copies {i : Fin n} {b : CmdBuffer n} {processed : ℕ}
      (happlying : (c.node i).thread5 = .applying b processed) (hlt : processed < b.cmdsLength)
      (hset : opType b.data processed = 2)
      (hlong : sizeofString < valueLength b.data processed) : Fails R arrived c (.thread5 i)

/-- What the threads can take: every batch fits into a message and every value into `string`, and
all the batches together are a log file of less than 2 GiB. -/
structure WithinLimits (bs : List (CmdBuffer n)) : Prop where
  message : ∀ b ∈ bs, bodyLength b ≤ cmdbufSize
  value : ∀ b ∈ bs, ∀ r ∈ b.commands, opType r.bytes 0 = 2 →
    valueLength r.bytes 0 ≤ sizeofString
  file : logFileSize bs < 2 ^ 31

lemma WithinLimits.of_isPrefix {bs bs' : List (CmdBuffer n)} (hle : bs <+: bs')
    (h : WithinLimits bs') : WithinLimits bs where
  message := fun b hb => h.message b (hle.subset hb)
  value := fun b hb => h.value b (hle.subset hb)
  file := by
    obtain ⟨rest, rfl⟩ := hle
    have hfile := h.file
    rw [logFileSize_append] at hfile
    omega

/-- As long as every read returns at most one message, no step fails. -/
def NoneFails (R : RocksDb DB) (c : Cluster n DB) : Prop :=
  ∀ arrived : Fin n → Fin n → ℕ, (∀ i j, arrived i j ≤ 1) → ∀ a, ¬ Fails R arrived c a

/-! ### The threads of a calm cluster -/

/-- `thread_5` passes its assertions on the next command of a batch of SETs and DELETEs. -/
lemma exists_thread5Command (R : RocksDb DB) {b : CmdBuffer n} (hb : WriteBatch b)
    (hlength : b.cmdsLength ≤ cmdbufSize) {done rest : List KvsRecord} {r : KvsRecord}
    (hcommands : b.commands = done ++ r :: rest) (diskMap : DB) :
    ∃ result, thread5Command R diskMap b (recordBytes done).length = some result := by
  obtain ⟨c, rfl, hget, hdata, hlt⟩ := hb.next hcommands
  have hmod := length_recordBytes_mod_eight done
  have hvalue : valueLength c.bytes 0 + 28 ≤ c.bytes.length := by
    rw [c.length_eq, kvsLen_eq (keyLength_lt _ _) (valueLength_lt _ _)]
    omega
  have htotal : (recordBytes done).length + c.bytes.length ≤ b.cmdsLength := by
    rw [CmdBuffer.cmdsLength, hdata, List.length_append, List.length_append]
    omega
  have hpass : ¬ (valueLength c.bytes 0 ≥ maxValLen ∨ valueLength c.bytes 0 ≥ cmdbufSize ∨
      b.cmdsLength - (recordBytes done).length < sizeofKvsCommand) := by
    rw [sizeofKvsCommand, maxValLen]
    rw [cmdbufSize] at *
    omega
  simp only [thread5Command, hdata]
  rw [c.toKvsRecord.kvsCommandLen_eq _ _ hmod, Option.bind_some, c.getKey_in _ _ hmod hlt,
    Option.bind_some, c.cString_in, c.toKvsRecord.opType_eq, c.op_eq, kvsCommandGetValue,
    if_pos hmod, Option.map_some, c.toKvsRecord.valueLength_eq, c.value_in, if_neg hpass]
  cases hop : c.op with
  | nop => exact absurd hop c.op_ne
  | get => exact absurd hop hget
  | set => exact ⟨_, rfl⟩
  | delete => exact ⟨_, rfl⟩

namespace CalmCluster

variable {R : RocksDb DB} {leader : Fin n} {raft : RaftVars} {c : Cluster n DB}
  (hc : CalmCluster leader raft c)

include hc

/-- No assertion of `thread_2` fails. -/
lemma thread2_idle {i : Fin n} (hstep : thread2Step i (c.node i) = none) :
    (c.node i).thread2 = .idle := by
  have hthread2 := (hc.node i).thread2
  rw [thread2Step] at hstep
  split at hstep
  · assumption
  · rename_i m hfrom
    have hhandle := Option.map_eq_none_iff.1 hstep
    rw [hfrom, Thread2.Replicates, Replicates] at hthread2
    rw [thread2Handle] at hhandle
    split at hhandle
    · cases hhandle
    · rename_i hbody
      rw [hbody] at hthread2
      exact hthread2.2.elim
    · split at hhandle
      · cases hhandle
      · cases hhandle
    · rename_i hbody
      rw [hbody] at hthread2
      exact hthread2.2.elim
  all_goals cases hstep

/-- What a node holds was enqueued by the leader. -/
lemma mem_enqueued (hlogged : ∀ i, HoldsLogged (c.node i)) {i : Fin n} {b : CmdBuffer n}
    (hb : b ∈ (c.node i).queue35 ++ (c.node i).thread5.batch) :
    b ∈ (c.node leader).enqueued := by
  refine (hc.replicating.logFile_prefix i).subset (hlogged i b ?_)
  rw [loggedAhead]
  simp only [List.mem_append] at hb ⊢
  tauto

/-- No assertion of `thread_3` fails, when the batches fit into messages. -/
lemma thread3_waits (hterm : raft.lastAppliedTerm = raft.currentTerm)
    (hlimits : WithinLimits (c.node leader).enqueued)
    (hstep : thread3Step leader (c.node leader) = none) : (c.node leader).Waits3 := by
  have hleader := hc.node leader
  rw [thread3Step] at hstep
  split at hstep
  · rename_i hidle
    split at hstep
    · exact .batch hidle ‹_›
    · rename_i w r rest hqueue
      have hp : (w, r) ∈ (c.node leader).queue13 := by rw [hqueue]; exact List.mem_cons_self
      obtain ⟨hw, hr⟩ := hleader.queue13 _ hp
      have hbody : bodyLength w ≤ cmdbufSize := by
        refine hlimits.message w ?_
        rw [← hc.replicating.leading.logged]
        exact List.mem_append_right _ (List.mem_append_right _ (List.mem_map_of_mem hp))
      rw [bodyLength] at hbody
      split at hstep
      · rename_i hfail
        -- the batches are of the leader's term and fit into a message
        rw [hw.term, hr.term] at hfail
        simp only [ne_eq, not_true_eq_false, false_or] at hfail
        omega
      · cases hstep
  · cases hstep
  · cases hstep
  · cases hstep
  · rename_i w r counted hfrom
    split at hstep
    · rename_i hfew
      split at hstep
      · exact .ok hfrom hfew ‹_›
      · rename_i ok rest hqueue
        have hmem : ok ∈ (c.node leader).queue23 := by
          rw [hqueue]
          exact List.mem_cons_self
        -- an OK that has come is counted
        rw [if_pos (hleader.counts hterm hfrom hmem)] at hstep
        cases hstep
    · cases hstep
  · cases hstep
  · cases hstep

/-- No assertion of `thread_5` fails, when the batches are of SETs and DELETEs and not too long. -/
lemma thread5_waits {view : DB → List UInt8 → Option (List UInt8)}
    {m : Fin n → List UInt8 → Option (List UInt8)} (hcarry : AllCarryOut view m c)
    (hlogged : ∀ i, HoldsLogged (c.node i)) (hlimits : WithinLimits (c.node leader).enqueued)
    {i : Fin n} (hstep : thread5Step R (c.node i) = none) : (c.node i).Waits5 := by
  have hbetween := (hcarry.node i).thread5
  have hlength : ∀ b ∈ (c.node i).queue35 ++ (c.node i).thread5.batch,
      b.cmdsLength ≤ cmdbufSize := by
    intro b hb
    have hbody := hlimits.message b (hc.mem_enqueued hlogged hb)
    rw [bodyLength] at hbody
    omega
  rw [thread5Step] at hstep
  split at hstep
  · rename_i hidle
    refine ⟨hidle, ?_⟩
    split at hstep
    · assumption
    · rename_i b rest hqueue
      have hb := hlength b (by rw [hqueue]; exact List.mem_cons_self)
      split at hstep
      · omega
      · cases hstep
  · rename_i b processed hfrom
    have hb := hlength b (by rw [hfrom]; exact List.mem_append_right _ (List.mem_singleton_self b))
    rw [hfrom] at hbetween
    obtain ⟨hwrite, done, rest, hcommands, rfl⟩ := hbetween
    split at hstep
    · rename_i hlt
      obtain ⟨r, rest', rfl⟩ := exists_next hcommands hlt
      obtain ⟨result, hresult⟩ :=
        exists_thread5Command R hwrite hb hcommands (c.node i).diskMap
      rw [hresult] at hstep
      cases hstep
    · rename_i hle
      have hdone : (recordBytes done).length ≤ b.cmdsLength := by
        rw [CmdBuffer.cmdsLength, CmdBuffer.data, hcommands, recordBytes_append, List.length_append]
        omega
      rw [if_pos (by omega)] at hstep
      cases hstep
  · cases hstep

/-- The next batch for the log file comes next among those that the leader has enqueued. -/
lemma logging2_isPrefix {i : Fin n} {b : CmdBuffer n} (h : (c.node i).thread2 = .logging b) :
    (c.node i).logFile ++ [b] <+: (c.node leader).enqueued := by
  by_cases hi : i = leader
  · subst hi
    have hnone := hc.replicating.leading.toLog
    rw [h] at hnone
    cases hnone
  · rw [← hc.replicating.sent i hi, pipeline, Network.conveyor, List.nil_append,
      List.flatMap_eq_nil_iff.2 fun _ _ => rfl, List.nil_append, received, h]
    exact List.prefix_append _ _

lemma logging3_isPrefix {i : Fin n} {w : CmdBuffer n} (h : (c.node i).thread3 = .logging w) :
    (c.node i).logFile ++ [w] <+: (c.node leader).enqueued := by
  by_cases hi : i = leader
  · subst hi
    have hlogged := hc.replicating.leading.logged
    rw [h] at hlogged
    rw [← hlogged, ← List.append_assoc]
    exact List.prefix_append _ _
  · have hidle := (hc.replicating.following i hi).thread3
    rw [h] at hidle
    cases hidle

/-- The values that `thread_5` copies are those of the batches. -/
lemma copy_fits {view : DB → List UInt8 → Option (List UInt8)}
    {m : Fin n → List UInt8 → Option (List UInt8)} (hcarry : AllCarryOut view m c)
    (hlogged : ∀ i, HoldsLogged (c.node i)) (hlimits : WithinLimits (c.node leader).enqueued)
    {i : Fin n} {b : CmdBuffer n} {processed : ℕ}
    (happlying : (c.node i).thread5 = .applying b processed) (hlt : processed < b.cmdsLength)
    (hset : opType b.data processed = 2) : valueLength b.data processed ≤ sizeofString := by
  have hb : b ∈ (c.node leader).enqueued := by
    refine hc.mem_enqueued hlogged (i := i) (List.mem_append_right _ ?_)
    rw [happlying]
    exact List.mem_singleton_self b
  have hbetween := (hcarry.node i).thread5
  rw [happlying] at hbetween
  obtain ⟨hwrite, done, rest, hcommands, rfl⟩ := hbetween
  obtain ⟨r, rest', rfl⟩ := exists_next hcommands hlt
  -- the command at the cursor is the next record
  have hdata : b.data = recordBytes done ++ (r.bytes ++ recordBytes rest') := by
    rw [CmdBuffer.data, hcommands, recordBytes_append, recordBytes_cons]
  have hr : r ∈ b.commands := by
    rw [hcommands]
    exact List.mem_append_right _ List.mem_cons_self
  rw [hdata, r.opType_eq] at hset
  rw [hdata, r.valueLength_eq]
  exact hlimits.value b hb r hr hset

/-- **In a calm cluster no step fails**, when the batches are within the limits. -/
theorem noneFails (hn : n ≤ maxNodes) (hterm : raft.lastAppliedTerm = raft.currentTerm)
    {view : DB → List UInt8 → Option (List UInt8)}
    {m : Fin n → List UInt8 → Option (List UInt8)} (hcarry : AllCarryOut view m c)
    (hlogged : ∀ i, HoldsLogged (c.node i)) (hlimits : WithinLimits (c.node leader).enqueued) :
    NoneFails R c := by
  intro arrived harrived a hfails
  cases hfails with
  | @reads i j m rest hlink h =>
      have hm : m ∈ c.link j i := by
        rw [hlink]
        exact List.mem_cons_self
      rcases h with hmany | hreply | hsender
      · exact absurd (harrived i j) hmany.not_ge
      · -- only batches and OKs are on the way
        obtain ⟨voteGranted, hbody⟩ := isVoteReply_iff.1 hreply
        have hkind := hc.link j i m hm
        rw [Replicates, hbody] at hkind
        exact hkind.2
      · exact absurd (hsender.trans_lt m.senderNodeId.isLt) hn.not_gt
  | thread2 hbusy hstep => exact hbusy (hc.thread2_idle hstep)
  | @thread3 i hbusy hstep =>
      by_cases hi : i = leader
      · subst hi
        exact hbusy (hc.thread3_waits hterm hlimits hstep)
      · have hfollowing := hc.replicating.following i hi
        exact hbusy (.batch hfollowing.thread3 hfollowing.queue13)
  | thread5 hbusy hstep => exact hbusy (hc.thread5_waits hcarry hlogged hlimits hstep)
  | appends2 hlogging hlong =>
      exact hlong (appendFits_of_isPrefix (hc.logging2_isPrefix hlogging) hlimits.file)
  | appends3 hlogging hlong =>
      exact hlong (appendFits_of_isPrefix (hc.logging3_isPrefix hlogging) hlimits.file)
  | copies happlying hlt hset hlong =>
      exact hlong.not_ge (hc.copy_fits hcarry hlogged hlimits happlying hlt hset)

end CalmCluster

end Oceanliner
