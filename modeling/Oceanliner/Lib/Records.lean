/-
# Records between two copies of a header

A record is a body between two copies of its header, which says how long the body is.  A file
that is a sequence of records can be read from either end: the header in front says where the
next record starts, the one behind says where the record itself starts.  Both readers check
that the two copies are equal and acceptable, and both recover exactly the records that were
written, whatever the bodies look like (`readForwards_stream`, `readBackwards_stream`).
-/
import Mathlib.Tactic

namespace Records

variable {B H : Type*}

/-- A format of headers that take `size` symbols each. -/
structure Format (B H : Type*) where
  size : ℕ
  encode : H → List B
  decode : List B → H
  bodyLength : H → ℕ
  accept : H → Bool
  size_pos : 0 < size
  length_encode : ∀ h, (encode h).length = size

/-- A header that survives its encoding and is acceptable, with a body of the length it
gives. -/
structure Record (F : Format B H) where
  header : H
  body : List B
  decode_encode : F.decode (F.encode header) = header
  accepted : F.accept header = true
  length_body : body.length = F.bodyLength header

variable {F : Format B H}

/-- A record as it is written. -/
def Record.bytes (r : Record F) : List B :=
  F.encode r.header ++ (r.body ++ F.encode r.header)

lemma Record.length_bytes (r : Record F) :
    r.bytes.length = F.size + (F.bodyLength r.header + F.size) := by
  rw [bytes, List.length_append, List.length_append, F.length_encode, r.length_body]

/-- A sequence of records. -/
def stream (rs : List (Record F)) : List B := (rs.map Record.bytes).flatten

@[simp] lemma stream_nil : stream ([] : List (Record F)) = [] := rfl

@[simp] lemma stream_cons (r : Record F) (rs : List (Record F)) :
    stream (r :: rs) = r.bytes ++ stream rs := by
  simp [stream]

@[simp] lemma stream_append (rs rs' : List (Record F)) :
    stream (rs ++ rs') = stream rs ++ stream rs' := by
  simp [stream]

/-- What a reader gets out of a record. -/
def Record.content (r : Record F) : H × List B := (r.header, r.body)

/-! ### The header at the end -/

/-- The last `size` symbols of a file, as a header. -/
def lastHeader (F : Format B H) (buf : List B) : H := F.decode (buf.drop (buf.length - F.size))

/-- A file that ends in the encoding of a header ends in that header. -/
lemma lastHeader_append (pre : List B) {h : H} (hdec : F.decode (F.encode h) = h) :
    lastHeader F (pre ++ F.encode h) = h := by
  have hdrop : (pre ++ F.encode h).length - F.size = pre.length := by
    rw [List.length_append, F.length_encode]
    omega
  rw [lastHeader, hdrop, List.drop_left, hdec]

lemma lastHeader_record (pre : List B) (r : Record F) :
    lastHeader F (pre ++ r.bytes) = r.header := by
  rw [Record.bytes, ← List.append_assoc, ← List.append_assoc]
  exact lastHeader_append _ r.decode_encode

/-! ### Reading forwards -/

variable [DecidableEq H]

section

variable (F)

/-- A header, as many symbols as it says, and the header again, until the end of the file. -/
def readForwards (buf : List B) : Option (List (H × List B)) :=
  if _h : buf.length = 0 then some []
  else
    let header := F.decode (buf.take F.size)
    let rest := buf.drop F.size
    let copy := F.decode ((rest.drop (F.bodyLength header)).take F.size)
    if rest.length < F.bodyLength header + F.size then none
    else if F.accept header = true ∧ F.accept copy = true ∧ copy = header then
      (readForwards (rest.drop (F.bodyLength header + F.size))).map
        ((header, rest.take (F.bodyLength header)) :: ·)
    else none
termination_by buf.length
decreasing_by
  have hpos := F.size_pos
  simp only [List.length_drop]
  omega

/-- The same from the end of the file on. -/
def readBackwards (buf : List B) : Option (List (H × List B)) :=
  if _h : buf.length = 0 then some []
  else
    let header := lastHeader F buf
    let rest := buf.take (buf.length - F.size)
    let start := rest.length - F.bodyLength header
    let copy := F.decode ((rest.take start).drop (start - F.size))
    if rest.length < F.bodyLength header + F.size then none
    else if F.accept header = true ∧ F.accept copy = true ∧ copy = header then
      (readBackwards (rest.take (start - F.size))).map ((header, rest.drop start) :: ·)
    else none
termination_by buf.length
decreasing_by
  have hpos := F.size_pos
  simp only [List.length_take]
  omega

end

lemma readForwards_record (r : Record F) (suf : List B) :
    readForwards F (r.bytes ++ suf) = (readForwards F suf).map (r.content :: ·) := by
  have hpos := F.size_pos
  have hlen : (F.encode r.header).length = F.size := F.length_encode _
  have hbuf : r.bytes ++ suf = F.encode r.header ++ (r.body ++ (F.encode r.header ++ suf)) := by
    simp only [Record.bytes, List.append_assoc]
  have htake : (r.bytes ++ suf).take F.size = F.encode r.header := by
    rw [hbuf, List.take_left' hlen]
  have hdrop : (r.bytes ++ suf).drop F.size = r.body ++ (F.encode r.header ++ suf) := by
    rw [hbuf, List.drop_left' hlen]
  have hcopy : (r.body ++ (F.encode r.header ++ suf)).drop (F.bodyLength r.header) =
      F.encode r.header ++ suf := List.drop_left' r.length_body
  have hrest : (r.body ++ (F.encode r.header ++ suf)).drop (F.bodyLength r.header + F.size) =
      suf := by
    rw [← List.drop_drop, hcopy, List.drop_left' hlen]
  have hne : ¬ (r.bytes ++ suf).length = 0 := by
    rw [List.length_append, r.length_bytes]
    omega
  have henough : ¬ (r.body ++ (F.encode r.header ++ suf)).length <
      F.bodyLength r.header + F.size := by
    rw [List.length_append, List.length_append, hlen, r.length_body]
    omega
  rw [readForwards, dif_neg hne]
  simp only [htake, hdrop, r.decode_encode, hcopy, List.take_left' hlen, hrest]
  rw [if_neg henough, if_pos ⟨r.accepted, r.accepted, trivial⟩, List.take_left' r.length_body]
  rfl

/-- **Forwards.**  The reader recovers the records in the order in which they were written. -/
theorem readForwards_stream (rs : List (Record F)) :
    readForwards F (stream rs) = some (rs.map Record.content) := by
  induction rs with
  | nil => rw [stream_nil, readForwards, dif_pos List.length_nil, List.map_nil]
  | cons r rs ih => rw [stream_cons, readForwards_record, ih, List.map_cons, Option.map_some]

/-! ### Reading backwards -/

lemma readBackwards_record (pre : List B) (r : Record F) :
    readBackwards F (pre ++ r.bytes) = (readBackwards F pre).map (r.content :: ·) := by
  have hpos := F.size_pos
  have hlen : (F.encode r.header).length = F.size := F.length_encode _
  have hbuf : pre ++ r.bytes = (pre ++ F.encode r.header) ++ r.body ++ F.encode r.header := by
    simp only [Record.bytes, List.append_assoc]
  have hsize : (pre ++ r.bytes).length - F.size =
      ((pre ++ F.encode r.header) ++ r.body).length := by
    rw [hbuf, List.length_append, hlen]
    omega
  have htake : (pre ++ r.bytes).take ((pre ++ r.bytes).length - F.size) =
      (pre ++ F.encode r.header) ++ r.body := by
    rw [hsize, hbuf, List.take_left]
  have hstart : ((pre ++ F.encode r.header) ++ r.body).length - F.bodyLength r.header =
      (pre ++ F.encode r.header).length := by
    rw [List.length_append, r.length_body]
    omega
  have hfront : (pre ++ F.encode r.header).length - F.size = pre.length := by
    rw [List.length_append, hlen]
    omega
  have hpre : (pre ++ F.encode r.header ++ r.body).take pre.length = pre := by
    rw [List.append_assoc, List.take_left]
  have hne : ¬ (pre ++ r.bytes).length = 0 := by
    rw [List.length_append, r.length_bytes]
    omega
  have henough : ¬ ((pre ++ F.encode r.header) ++ r.body).length <
      F.bodyLength r.header + F.size := by
    rw [List.length_append, List.length_append, hlen, r.length_body]
    omega
  rw [readBackwards, dif_neg hne]
  simp only [htake, lastHeader_record, hstart, hfront, List.take_left, List.drop_left, hpre,
    r.decode_encode]
  rw [if_neg henough, if_pos ⟨r.accepted, r.accepted, trivial⟩]
  rfl

/-- **Backwards.**  The reader recovers the records in the opposite order. -/
theorem readBackwards_stream (rs : List (Record F)) :
    readBackwards F (stream rs) = some (rs.map Record.content).reverse := by
  induction rs using List.reverseRecOn with
  | nil =>
      rw [stream_nil, readBackwards, dif_pos List.length_nil, List.map_nil, List.reverse_nil]
  | append_singleton rs r ih =>
      have hone : stream (rs ++ [r]) = stream rs ++ r.bytes := by
        rw [stream_append, stream_cons, stream_nil, List.append_nil]
      rw [hone, readBackwards_record, ih, List.map_append, List.reverse_append]
      rfl

end Records
