/-
# Stores to a block of memory

A block is an address space of its own, with the bytes that are allocated and those behind them.
A load that a store covers sees what was stored (`load_store_self`), and one that it does not
touch sees what was there before (`load_store_of_disjoint`).  A sequence of stores is a list, so
that one can ask whether all of them stay inside what has been allocated (`Within`).
-/
import Oceanliner.Lib.Bytes

namespace Stores

open Bytes

/-- The bytes at every offset. -/
abbrev Block := ℕ → UInt8

/-- `k` bytes from the offset `off` on. -/
def load (m : Block) (off k : ℕ) : List UInt8 := (List.range k).map fun i => m (off + i)

/-- The bytes `bs` at the offset `off`, and everything else as before. -/
def store (m : Block) (off : ℕ) (bs : List UInt8) : Block := fun a =>
  if off ≤ a then (bs[a - off]?).getD (m a) else m a

/-- The number in `k` bytes from the offset `off` on. -/
def read (m : Block) (off k : ℕ) : ℕ := le (load m off k)

/-- One store after the other. -/
def storeAll (m : Block) (ws : List (ℕ × List UInt8)) : Block :=
  ws.foldl (fun m w => store m w.1 w.2) m

/-- Every store stays inside the first `size` bytes. -/
def Within (size : ℕ) (ws : List (ℕ × List UInt8)) : Prop := ∀ w ∈ ws, w.1 + w.2.length ≤ size

variable (m : Block)

@[simp] lemma length_load (off k : ℕ) : (load m off k).length = k := by
  simp [load]

lemma load_store_self (off : ℕ) (bs : List UInt8) : load (store m off bs) off bs.length = bs := by
  refine List.ext_getElem (length_load _ _ _) fun i hi hi' => ?_
  simp [load, store, hi']

lemma load_store_of_disjoint {off off' k : ℕ} {bs : List UInt8}
    (h : off' + k ≤ off ∨ off + bs.length ≤ off') :
    load (store m off bs) off' k = load m off' k := by
  refine List.map_congr_left fun i hi => ?_
  have hik := List.mem_range.1 hi
  rw [store]
  split
  · rw [List.getElem?_eq_none (by omega), Option.getD_none]
  · rfl

/-! ### Numbers -/

lemma read_store (off k n : ℕ) : read (store m off (toLe k n)) off k = n % 256 ^ k := by
  have hload := load_store_self m off (toLe k n)
  rw [length_toLe] at hload
  rw [read, hload, le_toLe]

lemma read_store_self {off k n : ℕ} (h : n < 256 ^ k) : read (store m off (toLe k n)) off k = n := by
  rw [read_store, Nat.mod_eq_of_lt h]

lemma read_store_of_disjoint {off off' k : ℕ} {bs : List UInt8}
    (h : off' + k ≤ off ∨ off + bs.length ≤ off') :
    read (store m off bs) off' k = read m off' k := by
  rw [read, load_store_of_disjoint m h, read]

lemma read_store_toLe_of_disjoint {off off' k k' n : ℕ} (h : off' + k ≤ off ∨ off + k' ≤ off') :
    read (store m off (toLe k' n)) off' k = read m off' k :=
  read_store_of_disjoint m (by rwa [length_toLe])

end Stores
