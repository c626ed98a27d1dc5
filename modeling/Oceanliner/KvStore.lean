/-
The key-value store (`kv_store.c`), a thin layer over RocksDB.

RocksDB is not part of the program: a database is a value of an arbitrary type `DB`, and the
three calls of its C interface that the store makes are functions that may fail with a
message.  What the store prints on a failure is left out.
-/
import Oceanliner.Globals

namespace Oceanliner

/-- The calls `rocksdb_get`, `rocksdb_put` and `rocksdb_delete`. -/
structure RocksDb (DB : Type) where
  get : DB → List UInt8 → Except String (Option (List UInt8))
  put : DB → List UInt8 → List UInt8 → Except String DB
  delete : DB → List UInt8 → Except String DB

/-- The calls behave as those of a map that never fails: `view` says what a database holds. -/
structure RocksDb.Ideal {DB : Type} (R : RocksDb DB)
    (view : DB → List UInt8 → Option (List UInt8)) : Prop where
  get : ∀ db key, R.get db key = .ok (view db key)
  put : ∀ db key value, ∃ db', R.put db key value = .ok db' ∧
    view db' = Function.update (view db) key (some value)
  delete : ∀ db key, ∃ db', R.delete db key = .ok db' ∧
    view db' = Function.update (view db) key none

/-- A database that is a map. -/
def mapDb : RocksDb (List UInt8 → Option (List UInt8)) where
  get := fun m key => .ok (m key)
  put := fun m key value => .ok (Function.update m key (some value))
  delete := fun m key => .ok (Function.update m key none)

lemma mapDb_ideal : mapDb.Ideal id where
  get := fun _ _ => rfl
  put := fun _ _ _ => ⟨_, rfl, rfl⟩
  delete := fun _ _ => ⟨_, rfl, rfl⟩

section Calls

variable {DB : Type} (R : RocksDb DB)

/-- `kv_store_get`: the value, `none` for a null pointer, and what is stored in
`*value_length`. -/
def kvStoreGet (map : DB) (key : List UInt8) : Option (List UInt8) × ℤ :=
  match R.get map key with
  | .error _ => (none, -1)
  | .ok none => (none, -1)
  | .ok (some value) => (some value, value.length)

/-- `kv_store_set`. -/
def kvStoreSet (map : DB) (key value : List UInt8) : ℤ × DB :=
  match R.put map key value with
  | .error _ => (-1, map)
  | .ok map' => (0, map')

/-- `kv_store_delete`. -/
def kvStoreDelete (map : DB) (key : List UInt8) : ℤ × DB :=
  match R.delete map key with
  | .error _ => (-1, map)
  | .ok map' => (0, map')

end Calls

section Ideal

variable {DB : Type} {R : RocksDb DB} {view : DB → List UInt8 → Option (List UInt8)}
  (h : R.Ideal view)

include h

lemma kvStoreGet_miss {map : DB} {key : List UInt8} (hkey : view map key = none) :
    kvStoreGet R map key = (none, -1) := by
  rw [kvStoreGet, h.get, hkey]

/-- The value that a read returns is the one the database holds. -/
lemma kvStoreGet_view (map : DB) (key : List UInt8) : (kvStoreGet R map key).1 = view map key := by
  rw [kvStoreGet, h.get]
  cases view map key with
  | none => rfl
  | some value => rfl

lemma kvStoreSet_view (map : DB) (key value : List UInt8) :
    (kvStoreSet R map key value).1 = 0 ∧
      view (kvStoreSet R map key value).2 = Function.update (view map) key (some value) := by
  obtain ⟨map', hput, hview⟩ := h.put map key value
  rw [kvStoreSet, hput]
  exact ⟨rfl, hview⟩

lemma kvStoreDelete_view (map : DB) (key : List UInt8) :
    (kvStoreDelete R map key).1 = 0 ∧
      view (kvStoreDelete R map key).2 = Function.update (view map) key none := by
  obtain ⟨map', hdelete, hview⟩ := h.delete map key
  rw [kvStoreDelete, hdelete]
  exact ⟨rfl, hview⟩

end Ideal

end Oceanliner
