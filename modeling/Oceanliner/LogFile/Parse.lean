/-
# Reading the log file from either end

"header1 and header2 are copies of each other and allow us to iterate over our log file in
forward or reverse order."  The program has no such reader; below it is the generic reader of
records, which also checks that the two headers of a batch are equal and have the right
checksum.  It gets back exactly the batches that were appended, in both directions and whatever
the commands look like (`log_parses`).
-/
import Oceanliner.LogFile.Append

namespace Oceanliner

/-- The term, the index and the bytes of the commands of a batch. -/
def LogBatch.content (b : LogBatch) : ℕ × ℕ × List UInt8 := (b.term, b.logIndex, b.cmds)

/-- What a header and the bytes next to it say about a batch. -/
def headerContent (p : KvsbHeader × List UInt8) : ℕ × ℕ × List UInt8 :=
  (p.1.term, p.1.logIndex, p.2)

section

variable (xxh3 : List UInt8 → UInt64 × UInt64)

/-- A header, `data_length` bytes, an equal header, until the end of the file; `none` when the
file is not of this shape, or a checksum is wrong. -/
def parseForwards (file : List UInt8) : Option (List (ℕ × ℕ × List UInt8)) :=
  (Records.readForwards (logFormat xxh3) file).map (List.map headerContent)

/-- From the end of the file: a header, the `data_length` bytes before it, an equal header,
until the start. -/
def parseBackwards (file : List UInt8) : Option (List (ℕ × ℕ × List UInt8)) :=
  (Records.readBackwards (logFormat xxh3) file).map (List.map headerContent)

lemma parseForwards_logBytes (bs : List LogBatch) :
    parseForwards xxh3 (logBytes xxh3 bs) = some (bs.map LogBatch.content) := by
  rw [parseForwards, logBytes, Records.readForwards_stream, Option.map_some, List.map_map,
    List.map_map]
  rfl

lemma parseBackwards_logBytes (bs : List LogBatch) :
    parseBackwards xxh3 (logBytes xxh3 bs) = some (bs.map LogBatch.content).reverse := by
  rw [parseBackwards, logBytes, Records.readBackwards_stream, Option.map_some, List.map_reverse,
    List.map_map, List.map_map]
  rfl

/-- Files of batches are uniquely decodable. -/
theorem content_eq_of_logBytes_eq {bs bs' : List LogBatch}
    (h : logBytes xxh3 bs = logBytes xxh3 bs') :
    bs.map LogBatch.content = bs'.map LogBatch.content := by
  have hparse := parseForwards_logBytes xxh3 bs
  rw [h, parseForwards_logBytes] at hparse
  exact (Option.some.inj hparse).symm

/-- **The log file parses.**  Below 2 GiB, the batches appended to an empty file are read back
from the front in their order, and from the end in the opposite one. -/
theorem log_parses {bs : List LogBatch} (hsize : logSize bs < 2 ^ 31) :
    ∃ file, logfileAppendAll xxh3 [] bs = some file ∧
      parseForwards xxh3 file = some (bs.map LogBatch.content) ∧
      parseBackwards xxh3 file = some (bs.map LogBatch.content).reverse :=
  ⟨logBytes xxh3 bs, logfileAppendAll_eq xxh3 hsize, parseForwards_logBytes xxh3 bs,
    parseBackwards_logBytes xxh3 bs⟩

end

theorem log_parses_two : ∃ file,
    logfileAppendAll xxh3Len4to8 []
      [zeroBatch 1 1 40 (by decide), zeroBatch 2 1 0 (by decide)] = some file ∧
    parseForwards xxh3Len4to8 file = some [(1, 1, List.replicate 40 0), (2, 1, [])] ∧
    parseBackwards xxh3Len4to8 file = some [(2, 1, []), (1, 1, List.replicate 40 0)] :=
  log_parses xxh3Len4to8 (by decide)

end Oceanliner
