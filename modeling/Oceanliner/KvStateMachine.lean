/-
# The state machine of the key-value store

`kv_state_machine_apply` decodes a command and carries it out on the store: a GET and a
DELETE go through to the store, while the call that a SET would need is commented out in the
source.  So the store never gets a value, and the machine behaves as a map exactly on the
sequences of commands in which every SET is undone by a DELETE of its key before a GET of it
(`apply_correct_iff`).
-/
import Oceanliner.KvStore
import Oceanliner.KvsCommand
import Oceanliner.Lib.MapOps

open Bytes MapOps

namespace Oceanliner

/-- What `kv_state_machine_apply` returns: its result, `*result` with `none` for a null
pointer, and `*result_size`. -/
structure ApplyResult where
  code : ℤ
  result : Option (List UInt8)
  resultSize : ℕ
deriving DecidableEq

/-- `kv_state_machine_apply`.  `none` is a failed assertion on the address of the command.
The hash of key and value that the branch for a SET computes goes nowhere, since the call of
`kv_store_set` behind it is commented out. -/
def kvStateMachineApply {DB : Type} (R : RocksDb DB) (kvStore : DB) (buf : List UInt8) (cmd : ℕ) :
    Option (ApplyResult × DB) :=
  match KvsOp.ofNat? (opType buf cmd) with
  | some .set =>
      (kvsCommandGetKey buf cmd).bind fun _ =>
        (kvsCommandGetValue cmd).map fun _ => (⟨0, none, 0⟩, kvStore)
  | some .delete =>
      (kvsCommandGetKey buf cmd).map fun key =>
        let r := kvStoreDelete R kvStore (cString buf key)
        (⟨r.1, none, 0⟩, r.2)
  | some .get =>
      (kvsCommandGetKey buf cmd).map fun key =>
        match kvStoreGet R kvStore (cString buf key) with
        | (some value, valueLen) =>
            if valueLen ≥ 0 then (⟨0, some value, valueLen.toNat⟩, kvStore)
            else (⟨-1, none, 0⟩, kvStore)
        | (none, _) => (⟨-1, none, 0⟩, kvStore)
  -- "Unknown command type"
  | some .nop => some (⟨-2, none, 0⟩, kvStore)
  | none => some (⟨-2, none, 0⟩, kvStore)

/-! ### Well-formed commands -/

/-- The operation on a map that the bytes of a command stand for. -/
def mapOp (bytes : List UInt8) : Op (List UInt8) (List UInt8) :=
  let key := cString bytes (jumpToAlignment (sizeofKvsCommand + valueLength bytes 0) 4)
  match KvsOp.ofNat? (opType bytes 0) with
  | some .set => .set key (slice bytes sizeofKvsCommand (valueLength bytes 0))
  | some .delete => .delete key
  | _ => .get key

/-- Where the key of a record stands in it. -/
def KvsRecord.keyOffset (r : KvsRecord) : ℕ := 28 + (valueLength r.bytes 0 + 3) / 4 * 4

/-- The key and the byte behind it lie inside the record. -/
lemma KvsRecord.keyOffset_le (r : KvsRecord) :
    r.keyOffset + (keyLength r.bytes 0 + 1) ≤ r.bytes.length := by
  rw [r.length_eq, kvsLen_eq (keyLength_lt _ _) (valueLength_lt _ _), keyOffset]
  omega

/-- The place of the key, in a buffer with other bytes before and behind the record. -/
lemma KvsRecord.getKey_in (r : KvsRecord) (pre suf : List UInt8) (h : pre.length % 8 = 0)
    (hlt : pre.length < 2 ^ 63) :
    kvsCommandGetKey (pre ++ (r.bytes ++ suf)) pre.length = some (pre.length + r.keyOffset) := by
  have hv := valueLength_lt r.bytes 0
  rw [kvsCommandGetKey, if_pos h, r.valueLength_eq, sizeofKvsCommand,
    jumpToAlignment_four (by omega), keyOffset]
  congr 1
  omega

/-- A SET, GET or DELETE whose key has no zero byte in it and one behind it. -/
structure MapCommand extends KvsRecord where
  op : KvsOp
  op_ne : op ≠ .nop
  op_eq : KvsOp.ofNat? (opType bytes 0) = some op
  key : List UInt8
  key_ne : ∀ b ∈ key, b ≠ 0
  key_eq : slice bytes toKvsRecord.keyOffset (keyLength bytes 0 + 1) = key ++ [0]

namespace MapCommand

/-- The value of a command. -/
def value (c : MapCommand) : List UInt8 := slice c.bytes 28 (valueLength c.bytes 0)

/-- The operation on a map that a command stands for. -/
def toOp (c : MapCommand) : Op (List UInt8) (List UInt8) :=
  match c.op with
  | .set => .set c.key c.value
  | .delete => .delete c.key
  | _ => .get c.key

/-- The string at the place of the key is the key. -/
lemma cString_in (c : MapCommand) (pre suf : List UInt8) :
    cString (pre ++ (c.bytes ++ suf)) (pre.length + c.toKvsRecord.keyOffset) = c.key := by
  refine cString_of_slice (n := keyLength c.bytes 0 + 1) ?_ c.key_ne
  rw [c.toKvsRecord.slice_eq pre suf c.toKvsRecord.keyOffset_le, c.key_eq]

lemma value_in (c : MapCommand) (pre suf : List UInt8) :
    slice (pre ++ (c.bytes ++ suf)) (pre.length + sizeofKvsCommand) (valueLength c.bytes 0) =
      c.value := by
  have hle := c.toKvsRecord.keyOffset_le
  rw [KvsRecord.keyOffset] at hle
  rw [c.toKvsRecord.slice_eq pre suf (by rw [sizeofKvsCommand]; omega)]
  rfl

lemma getKey_eq (c : MapCommand) : kvsCommandGetKey c.bytes 0 = some c.toKvsRecord.keyOffset := by
  simpa using c.getKey_in [] [] rfl (by norm_num)

lemma cString_key (c : MapCommand) : cString c.bytes c.toKvsRecord.keyOffset = c.key := by
  simpa using c.cString_in [] []

lemma mapOp_bytes (c : MapCommand) : mapOp c.bytes = c.toOp := by
  have hv := valueLength_lt c.bytes 0
  have hkey : jumpToAlignment (sizeofKvsCommand + valueLength c.bytes 0) 4 =
      c.toKvsRecord.keyOffset := by
    rw [sizeofKvsCommand, jumpToAlignment_four (by omega), KvsRecord.keyOffset]
    omega
  simp only [mapOp, hkey, c.cString_key, c.op_eq, toOp]
  cases c.op <;> rfl

end MapCommand

/-! ### One command -/

section Ideal

variable {DB : Type} {R : RocksDb DB} {view : DB → List UInt8 → Option (List UInt8)}
  (hR : R.Ideal view)

include hR

/-- On an empty store a command finds nothing and leaves nothing behind. -/
lemma kvStateMachineApply_empty {db : DB} (hempty : view db = MapOps.empty) (c : MapCommand) :
    ∃ r db', kvStateMachineApply R db c.bytes 0 = some (r, db') ∧ view db' = MapOps.empty ∧
      (c.op = .get → r = ⟨-1, none, 0⟩) := by
  rw [kvStateMachineApply, c.op_eq, c.getKey_eq]
  cases hop : c.op with
  | nop => exact absurd hop c.op_ne
  | set => exact ⟨_, db, rfl, hempty, by simp⟩
  | get =>
      have hnone : view db c.key = none := by
        rw [hempty]
        rfl
      have hmiss := kvStoreGet_miss hR hnone
      refine ⟨⟨-1, none, 0⟩, db, ?_, hempty, fun _ => rfl⟩
      simp only [Option.map_some, c.cString_key, hmiss]
  | delete =>
      obtain ⟨-, hview⟩ := kvStoreDelete_view hR db (cString c.bytes c.toKvsRecord.keyOffset)
      refine ⟨_, _, rfl, ?_, by simp⟩
      rw [hview, hempty]
      exact Function.update_eq_self _ _

end Ideal

/-! ### Sequences of commands -/

/-- The results of a sequence of commands, and the store it leaves. -/
def applyAll {DB : Type} (R : RocksDb DB) (db : DB) :
    List MapCommand → Option (List ApplyResult × DB)
  | [] => some ([], db)
  | c :: cs =>
      (kvStateMachineApply R db c.bytes 0).bind fun r =>
        (applyAll R r.2 cs).map fun rs => (r.1 :: rs.1, rs.2)

/-- The answer a GET should give: the value, or a negative result without one. -/
def RightAnswer (value : Option (List UInt8)) (r : ApplyResult) : Prop :=
  match value with
  | some v => r.code = 0 ∧ r.result = some v ∧ r.resultSize = v.length
  | none => r.code < 0 ∧ r.result = none

/-- Every GET of a sequence that starts with the map `m` is answered from the map. -/
def AllRight : (List UInt8 → Option (List UInt8)) → List MapCommand → List ApplyResult → Prop
  | _, [], [] => True
  | m, c :: cs, r :: rs =>
      (c.op = .get → RightAnswer (m c.key) r) ∧ AllRight (MapOps.apply m c.toOp) cs rs
  | _, _, _ => False

/-- The sequence is carried out as on a map that starts empty: all answers are right, and the
store ends as the map does. -/
def CorrectRun {DB : Type} (R : RocksDb DB) (view : DB → List UInt8 → Option (List UInt8))
    (db : DB) (cs : List MapCommand) : Prop :=
  ∃ rs db', applyAll R db cs = some (rs, db') ∧ AllRight MapOps.empty cs rs ∧
    view db' = MapOps.exec MapOps.empty (cs.map MapCommand.toOp)

section Ideal

variable {DB : Type} {R : RocksDb DB} {view : DB → List UInt8 → Option (List UInt8)}
  (hR : R.Ideal view)

include hR

/-- From an empty store every sequence runs through and leaves the store empty, and its
answers are right for a map `m` exactly when all its GETs miss there. -/
lemma applyAll_empty {db : DB} (hempty : view db = MapOps.empty) (cs : List MapCommand) :
    ∃ rs db', applyAll R db cs = some (rs, db') ∧ view db' = MapOps.empty ∧
      ∀ m, AllRight m cs rs ↔ GetsMiss m (cs.map MapCommand.toOp) := by
  induction cs generalizing db with
  | nil => exact ⟨[], db, rfl, hempty, fun _ => Iff.rfl⟩
  | cons c cs ih =>
      obtain ⟨r, db₁, hrun, hempty₁, hget⟩ := kvStateMachineApply_empty hR hempty c
      obtain ⟨rs, db', hrest, hempty', hright⟩ := ih hempty₁
      refine ⟨r :: rs, db', ?_, hempty', fun m => ?_⟩
      · rw [applyAll, hrun, Option.bind_some, hrest]
        rfl
      · rw [AllRight, List.map_cons, GetsMiss, hright]
        refine and_congr_left fun _ => ?_
        cases hop : c.op with
        | nop => exact absurd hop c.op_ne
        | set => simp [MapCommand.toOp, hop]
        | delete => simp [MapCommand.toOp, hop]
        | get =>
            simp only [MapCommand.toOp, hop, forall_const, Op.get.injEq, forall_eq', hget hop]
            cases m c.key with
            | none => simp [RightAnswer]
            | some v => simp [RightAnswer]

/-- **When the state machine is a map.**  A sequence of commands on an empty store is carried
out as on a map exactly when every SET in it is followed by a DELETE of its key before a GET
of it. -/
theorem apply_correct_iff {db : DB} (hempty : view db = MapOps.empty) (cs : List MapCommand) :
    CorrectRun R view db cs ↔ SetsUnseen (cs.map MapCommand.toOp) := by
  obtain ⟨rs, db', hrun, hempty', hright⟩ := applyAll_empty hR hempty cs
  rw [← unseen_iff]
  constructor
  · rintro ⟨rs₁, db₁, hrun₁, hright₁, hview⟩
    rw [hrun] at hrun₁
    obtain ⟨rfl, rfl⟩ := Prod.mk.injEq .. ▸ Option.some.inj hrun₁
    exact ⟨(hright _).1 hright₁, by rw [← hview, hempty']⟩
  · rintro ⟨hmiss, hexec⟩
    exact ⟨rs, db', hrun, (hright _).2 hmiss, by rw [hempty', hexec]⟩

end Ideal

/-! ### One key -/

def shortGet : MapCommand where
  bytes := shortBytes 1
  length_eq := by decide
  op := .get
  op_ne := by decide
  op_eq := by decide
  key := [107]
  key_ne := by simp
  key_eq := by decide

def shortSet : MapCommand where
  bytes := shortBytes 2
  length_eq := by decide
  op := .set
  op_ne := by decide
  op_eq := by decide
  key := [107]
  key_ne := by simp
  key_eq := by decide

def shortDelete : MapCommand where
  bytes := shortBytes 3
  length_eq := by decide
  op := .delete
  op_ne := by decide
  op_eq := by decide
  key := [107]
  key_ne := by simp
  key_eq := by decide

theorem apply_correct_set_delete_get :
    CorrectRun mapDb id MapOps.empty [shortSet, shortDelete, shortGet] := by
  refine (apply_correct_iff mapDb_ideal rfl [shortSet, shortDelete, shortGet]).2 ?_
  show (([107] : List UInt8) = [107] ∨ _) ∧ True
  exact ⟨Or.inl rfl, trivial⟩

/-- A GET right behind the SET of its key finds nothing. -/
theorem apply_incorrect_set_get :
    applyAll mapDb MapOps.empty [shortSet, shortGet] =
        some ([⟨0, none, 0⟩, ⟨-1, none, 0⟩], MapOps.empty) ∧
      ¬ CorrectRun mapDb id MapOps.empty [shortSet, shortGet] := by
  refine ⟨rfl, ?_⟩
  rintro ⟨rs, db', hrun, hright, -⟩
  obtain ⟨rfl, -⟩ := Prod.mk.injEq .. ▸ Option.some.inj hrun
  have hget := hright.2.1 rfl
  exact absurd hget.1 (by decide)

end Oceanliner
