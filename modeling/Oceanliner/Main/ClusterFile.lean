/-
# The cluster file

`parse_ip_addr` reads `cluster.txt`: every line with an address, a colon and a port becomes a
node, up to `MAX_NODES` of them, and the other lines are skipped.  A line is skipped at six
places, at some of them with its text already in the slot of the next node.  The number of
characters in front of the colon is put into an `int`, and this is the only thing that can go
wrong (`cluster_file_iff`): a line with at least `2 ^ 31` of them may be misread.

`inet_pton` is a parameter.  The file is the list of its bytes, and there is memory for it.
-/
import Mathlib.Data.List.GetD
import Oceanliner.Globals
import Oceanliner.Lib.Tokens

open Bytes Function

namespace Oceanliner

/-! ### Strings and addresses -/

/-- `P_ADDR_LEN`. -/
def pAddrLen : ℕ := 22

/-- `AF_INET`. -/
def afInet : ℕ := 2

/-- `htons` on a little-endian machine. -/
def htons (port : ℕ) : ℕ := port % 2 ^ 8 * 2 ^ 8 + port / 2 ^ 8 % 2 ^ 8

/-- `strchr`: the place of the first `c`. -/
def strchr (s : List UInt8) (c : UInt8) : Option ℕ :=
  if c ∈ s then some (s.takeWhile (· ≠ c)).length else none

/-- The characters that `strtoul` skips at the start: a space, and `\t`, `\n`, `\v`, `\f`, `\r`. -/
def isSpace (c : UInt8) : Bool := c == 32 || (9 ≤ c && c ≤ 13)

/-- The digits `0` to `9`. -/
def isDigit (c : UInt8) : Bool := 48 ≤ c && c ≤ 57

/-- The number that decimal digits stand for. -/
def decimal (digits : List UInt8) : ℕ := digits.foldl (fun n c => 10 * n + (c.toNat - 48)) 0

/-- `strtoul` in base 10: the number and what is behind it.  Without digits it is `0` and the whole
string, a number that does not fit an `unsigned long` is the largest one, and behind a minus sign
it is negated. -/
def strtoul (s : List UInt8) : ℕ × List UInt8 :=
  let signed := s.dropWhile isSpace
  let unsigned := if signed.head? = some 43 ∨ signed.head? = some 45 then signed.tail else signed
  let digits := unsigned.takeWhile isDigit
  if digits = [] then (0, s)
  else if decimal digits ≥ 2 ^ 64 then (2 ^ 64 - 1, unsigned.dropWhile isDigit)
  else if signed.head? = some 45 then
    (u64 (2 ^ 64 - decimal digits), unsigned.dropWhile isDigit)
  else (decimal digits, unsigned.dropWhile isDigit)

/-- `struct sockaddr_in`. -/
structure SockaddrIn where
  sinFamily : ℕ
  sinPort : ℕ
  sinAddr : UInt32
  sinZero : Fin 8 → UInt8

/-- `dual_format_addr_t`. -/
structure DualFormatAddr where
  presentationIp : Fin pAddrLen → UInt8
  presentationPort : ℕ
  addr : SockaddrIn

/-- All bytes of a slot are zero. -/
def DualFormatAddr.zero : DualFormatAddr where
  presentationIp := fun _ => 0
  presentationPort := 0
  addr := ⟨0, 0, 0, fun _ => 0⟩

/-- The string at `presentation_ip`. -/
def DualFormatAddr.text (a : DualFormatAddr) : List UInt8 := cString (List.ofFn a.presentationIp) 0

/-- `strncpy` of the first `n` characters of a line, and a zero byte behind them. -/
def copyIp (ip : Fin pAddrLen → UInt8) (line : List UInt8) (n : ℕ) : Fin pAddrLen → UInt8 :=
  fun i => if i.val < n then line.getD i 0 else if i.val = n then 0 else ip i

/-! ### `parse_ip_addr` -/

/-- `cluster_t`.  Of the arrays only the first `MAX_NODES` elements are used. -/
structure ClusterT where
  nodes : ℕ → DualFormatAddr
  nodeFds : ℕ → ℤ
  selfId : ℕ
  numNodes : ℕ

/-- The loop of `parse_ip_addr`.  The last field records what has happened: the lines with which
`node_index` has been advanced. -/
structure Parsing where
  nodes : ℕ → DualFormatAddr
  nodeIndex : ℕ
  accepted : List (List UInt8)

/-- How `parse_ip_addr` stops early: at a failed assertion, or in a `strncpy` with a negative
length, which is a size larger than any array. -/
inductive Stop where
  | assertion
  | overflow
deriving DecidableEq

/-- The slot at `node_index` is changed. -/
def Parsing.setNode (p : Parsing) (f : DualFormatAddr → DualFormatAddr) : Parsing :=
  { p with nodes := update p.nodes p.nodeIndex (f (p.nodes p.nodeIndex)) }

section Functions

variable (inetPton : List UInt8 → Option UInt32)

/-- The body of the loop, for a line. -/
def parseLine (line : List UInt8) (p : Parsing) : Except Stop Parsing :=
  if line = [] then .ok p
  else
    match strchr line 58 with
    | none => .ok p
    | some colon =>
        let ipLen := i32 colon
        if ipLen ≥ pAddrLen then .ok p
        else if ipLen = 0 then .ok p
        else if ipLen < 0 then .error .overflow
        else
          let p := p.setNode fun a =>
            { a with presentationIp := copyIp a.presentationIp line ipLen.toNat }
          let portStr := line.drop (colon + 1)
          if portStr = [] then .ok p
          else
            let portUl := strtoul portStr
            if portUl.2 ≠ [] ∨ portUl.1 = 0 ∨ portUl.1 > 65535 then .ok p
            else
              let p := p.setNode fun a =>
                { a with
                  presentationPort := portUl.1 % 2 ^ 16
                  addr := ⟨afInet, htons (portUl.1 % 2 ^ 16), 0, fun _ => 0⟩ }
              match inetPton (p.nodes p.nodeIndex).text with
              | none => .error .assertion
              | some ip =>
                  let p := p.setNode fun a => { a with addr := { a.addr with sinAddr := ip } }
                  .ok { p with
                    nodeIndex := u64 (p.nodeIndex + 1)
                    accepted := p.accepted ++ [line] }

/-- The loop, over what is left of the lines. -/
def parseLines : List (List UInt8) → Parsing → Except Stop Parsing
  | [], p => .ok p
  | line :: rest, p =>
      if p.nodeIndex < maxNodes then
        match parseLine inetPton line p with
        | .error stop => .error stop
        | .ok p => parseLines rest p
      else .ok p

/-- The characters at which `strtok_r` cuts: `\n` and `\r`. -/
def isNewline (c : UInt8) : Bool := c == 10 || c == 13

/-- `parse_ip_addr` with the content of `cluster.txt`: the cluster afterwards, and the lines that
have become nodes. -/
def parseIpAddr (cluster : ClusterT) (selfId : ℕ) (content : List UInt8) :
    Except Stop (ClusterT × List (List UInt8)) :=
  if content.length = 0 then .error .assertion
  else
    let buffer := cString (content ++ [0]) 0
    match parseLines inetPton (Tokens.tokens isNewline buffer.length buffer)
        ⟨fun _ => .zero, 0, []⟩ with
    | .error stop => .error stop
    | .ok p =>
        if p.nodeIndex > maxNodes then .error .assertion
        else if selfId ≥ u8 p.nodeIndex then .error .assertion
        else
          .ok
            ({ nodes := p.nodes
               nodeFds := fun i => if i < maxNodes then -1 else cluster.nodeFds i
               selfId := selfId
               numNodes := u8 p.nodeIndex }, p.accepted)

end Functions

/-! ### Well-formed lines -/

/-- What is in front of the first colon of a line. -/
def ipText (line : List UInt8) : List UInt8 := line.takeWhile (· ≠ 58)

/-- What is behind the first colon of a line. -/
def portText (line : List UInt8) : List UInt8 := line.drop ((ipText line).length + 1)

/-- The port of a line. -/
def linePort (line : List UInt8) : ℕ := (strtoul (portText line)).1

/-- A line ends with a port: a number from 1 to 65535 that `strtoul` reads to the end. -/
def HasPort (line : List UInt8) : Prop :=
  portText line ≠ [] ∧ (strtoul (portText line)).2 = [] ∧ 1 ≤ linePort line ∧ linePort line ≤ 65535

instance : DecidablePred HasPort := fun _ => inferInstanceAs (Decidable (_ ∧ _))

/-- A line with an address of 1 to 21 characters, a colon and a port. -/
def WellFormedLine (line : List UInt8) : Prop :=
  58 ∈ line ∧ 1 ≤ (ipText line).length ∧ (ipText line).length ≤ 21 ∧ HasPort line

instance : DecidablePred WellFormedLine := fun _ => inferInstanceAs (Decidable (_ ∧ _))

/-- The lines of a file. -/
def clusterLines (content : List UInt8) : List (List UInt8) := Tokens.split isNewline content

/-- The slot of a node holds the address, the port and the socket address of a line. -/
structure DualFormatAddr.Holds (inetPton : List UInt8 → Option UInt32) (a : DualFormatAddr)
    (line : List UInt8) : Prop where
  text_eq : a.text = ipText line
  port_eq : a.presentationPort = linePort line
  addr_eq : ∃ ip, inetPton (ipText line) = some ip ∧
    a.addr = ⟨afInet, htons (linePort line), ip, fun _ => 0⟩

/-- The parser has accepted the well-formed lines among `lines`, up to `MAX_NODES` of them, and no
others, and the nodes are those of these lines. -/
structure AcceptsLines (inetPton : List UInt8 → Option UInt32) (lines : List (List UInt8))
    (result : ClusterT × List (List UInt8)) : Prop where
  accepted_eq : result.2 = (lines.filter WellFormedLine).take maxNodes
  numNodes_eq : result.1.numNodes = min (lines.filter WellFormedLine).length maxNodes
  holds : ∀ k line, k < result.1.numNodes → (lines.filter WellFormedLine)[k]? = some line →
    (result.1.nodes k).Holds inetPton line

/-! ### One line -/

/-- The number of characters in front of the colon, put into an `int`, is negative, or it is that
of an address although the number itself is not. -/
def Misread (line : List UInt8) : Prop :=
  58 ∈ line ∧ (2 ^ 31 ≤ (ipText line).length % 2 ^ 32 ∨
    2 ^ 31 ≤ (ipText line).length ∧ 1 ≤ (ipText line).length % 2 ^ 32 ∧
      (ipText line).length % 2 ^ 32 ≤ 21 ∧ HasPort line)

section Parsing

variable (p : Parsing) (f g : DualFormatAddr → DualFormatAddr)

@[simp] lemma Parsing.setNode_nodeIndex : (p.setNode f).nodeIndex = p.nodeIndex := rfl

@[simp] lemma Parsing.setNode_accepted : (p.setNode f).accepted = p.accepted := rfl

@[simp] lemma Parsing.setNode_nodes_nodeIndex :
    (p.setNode f).nodes p.nodeIndex = f (p.nodes p.nodeIndex) := update_self ..

@[simp] lemma Parsing.setNode_setNode :
    (p.setNode f).setNode g = p.setNode fun a => g (f a) := by
  simp [setNode]

lemma Parsing.setNode_id : p.setNode id = p := by
  simp [setNode]

end Parsing

/-- The next node is that of a line. -/
def Parsing.advance (p : Parsing) (a : DualFormatAddr) (line : List UInt8) : Parsing where
  nodes := update p.nodes p.nodeIndex a
  nodeIndex := u64 (p.nodeIndex + 1)
  accepted := p.accepted ++ [line]

lemma length_ipText_lt {line : List UInt8} (h : 58 ∈ line) :
    (ipText line).length < line.length := by
  have hne : line.dropWhile (· ≠ 58) ≠ [] := by
    rw [Ne, List.dropWhile_eq_nil_iff]
    intro hall
    simpa using hall 58 h
  have hpos := List.length_pos_of_ne_nil hne
  have hlen := congrArg List.length
    (List.takeWhile_append_dropWhile (p := fun c => decide (c ≠ 58)) (l := line))
  rw [List.length_append] at hlen
  rw [ipText]
  omega

lemma strchr_eq {line : List UInt8} (h : 58 ∈ line) :
    strchr line 58 = some (ipText line).length := if_pos h

/-- The text in a slot after a copy. -/
lemma text_copyIp {a : DualFormatAddr} {line : List UInt8} {n : ℕ} (hn : n < pAddrLen)
    (hle : n ≤ line.length) (hline : 0 ∉ line) :
    ({ a with presentationIp := copyIp a.presentationIp line n } : DualFormatAddr).text =
      line.take n := by
  have hslice : slice (List.ofFn (copyIp a.presentationIp line n)) 0 (n + 1) =
      line.take n ++ [0] := by
    rw [slice, List.drop_zero]
    refine List.ext_getElem ?_ fun i hi hi' => ?_
    · rw [List.length_take, List.length_ofFn, List.length_append, List.length_take,
        List.length_singleton]
      omega
    · have hin : i ≤ n := by
        rw [List.length_take] at hi
        omega
      rw [List.getElem_take, List.getElem_ofFn, copyIp]
      rcases Nat.lt_or_eq_of_le hin with hlt | rfl
      · have hline : i < line.length := hlt.trans_le hle
        rw [if_pos hlt, List.getElem_append_left (by rw [List.length_take]; omega),
          List.getElem_take, List.getD_eq_getElem _ _ hline]
      · rw [if_neg (lt_irrefl _), if_pos rfl]
        simp [hle]
  exact cString_of_slice hslice fun b hb => ne_of_mem_of_not_mem (List.mem_of_mem_take hb) hline

section

variable {inetPton : List UInt8 → Option UInt32} {line : List UInt8} {p : Parsing}

variable (inetPton p) in
/-- A line whose address has the length `n` for the parser, and that ends with a port. -/
lemma parseLine_of_hasPort {n : ℕ} (hcolon : 58 ∈ line) (hlen : i32 (ipText line).length = n)
    (hpos : 1 ≤ n) (hle : n ≤ 21) (hport : HasPort line) :
    (parseLine inetPton line p = .error .assertion ∧
        (0 ∉ line → n ≤ line.length → inetPton (line.take n) = none)) ∨
      ∃ a, parseLine inetPton line p = .ok (p.advance a line) ∧
        (0 ∉ line → n ≤ line.length → a.text = line.take n) ∧
        a.presentationPort = linePort line ∧
        ∃ ip, inetPton a.text = some ip ∧
          a.addr = ⟨afInet, htons (linePort line), ip, fun _ => 0⟩ := by
  have hline : line ≠ [] := List.ne_nil_of_mem hcolon
  obtain ⟨hport, hend, hlow, hhigh⟩ := hport
  have hconverted : ¬ ((strtoul (portText line)).2 ≠ [] ∨ linePort line = 0 ∨
      linePort line > 65535) := by
    rw [not_or, not_or]
    exact ⟨not_not.2 hend, by omega, by omega⟩
  have hmod : linePort line % 2 ^ 16 = linePort line := Nat.mod_eq_of_lt (by omega)
  have hn' : n < pAddrLen := by
    rw [pAddrLen]
    omega
  rw [parseLine, if_neg hline, strchr_eq hcolon]
  simp only [hlen]
  rw [if_neg (by rw [pAddrLen]; omega), if_neg (by omega), if_neg (by omega)]
  rw [← portText, if_neg hport, ← linePort, if_neg hconverted, hmod]
  simp only [Parsing.setNode_setNode, Parsing.setNode_nodeIndex, Parsing.setNode_nodes_nodeIndex]
  simp only [DualFormatAddr.text, Int.toNat_natCast]
  cases hip : inetPton (cString (List.ofFn (copyIp (p.nodes p.nodeIndex).presentationIp line n)) 0)
    with
  | none =>
      refine .inl ⟨rfl, fun hline hn => ?_⟩
      rw [← hip]
      exact congrArg inetPton (text_copyIp (a := p.nodes p.nodeIndex) hn' hn hline).symm
  | some ip => exact .inr ⟨_, rfl, fun hline hn => text_copyIp hn' hn hline, rfl, ip, hip, rfl⟩

/-- A line that is skipped may have changed the slot of the next node. -/
lemma parseLine_of_not_hasPort {n : ℕ} (hcolon : 58 ∈ line) (hlen : i32 (ipText line).length = n)
    (hskip : n = 0 ∨ 22 ≤ n ∨ ¬ HasPort line) :
    ∃ f, parseLine inetPton line p = .ok (p.setNode f) := by
  have hline : line ≠ [] := List.ne_nil_of_mem hcolon
  rw [parseLine, if_neg hline, strchr_eq hcolon]
  simp only [hlen]
  by_cases hlong : (n : ℤ) ≥ pAddrLen
  · rw [if_pos hlong]
    exact ⟨id, by rw [Parsing.setNode_id]⟩
  · rw [if_neg hlong]
    by_cases hzero : (n : ℤ) = 0
    · rw [if_pos hzero]
      exact ⟨id, by rw [Parsing.setNode_id]⟩
    · rw [if_neg hzero, if_neg (by omega), ← portText]
      by_cases hempty : portText line = []
      · rw [if_pos hempty]
        exact ⟨_, rfl⟩
      · rw [if_neg hempty, ← linePort]
        by_cases hbad : (strtoul (portText line)).2 ≠ [] ∨ linePort line = 0 ∨ linePort line > 65535
        · rw [if_pos hbad]
          exact ⟨_, rfl⟩
        · exfalso
          rw [not_or, not_or, not_not] at hbad
          rw [pAddrLen] at hlong
          rcases hskip with hskip | hskip | hskip
          · omega
          · omega
          · exact hskip ⟨hempty, hbad.1, by omega, by omega⟩

/-- A line that is neither well formed nor misread is skipped. -/
lemma parseLine_of_not_wellFormed (hline : ¬ WellFormedLine line) (hread : ¬ Misread line) :
    ∃ f, parseLine inetPton line p = .ok (p.setNode f) := by
  by_cases hcolon : 58 ∈ line
  · have hlow : (ipText line).length % 2 ^ 32 < 2 ^ 31 :=
      not_le.1 fun h => hread ⟨hcolon, .inl h⟩
    refine parseLine_of_not_hasPort hcolon (i32_eq hlow) ?_
    by_contra hskip
    rw [not_or, not_or, not_not] at hskip
    obtain ⟨hzero, hlong, hport⟩ := hskip
    -- the length is that of an address, so the number of characters is larger than that
    have hshort : ¬ (ipText line).length < 2 ^ 31 := fun h =>
      hline ⟨hcolon, by omega, by omega, hport⟩
    exact hread ⟨hcolon, .inr ⟨by omega, by omega, by omega, hport⟩⟩
  · refine ⟨id, ?_⟩
    rw [parseLine, strchr, if_neg hcolon, Parsing.setNode_id]
    split
    · rfl
    · rfl

/-- A well-formed line becomes the next node, if `inet_pton` takes its address. -/
lemma parseLine_of_wellFormed (hline : WellFormedLine line) :
    parseLine inetPton line p = .error .assertion ∨
      ∃ a : DualFormatAddr, parseLine inetPton line p = .ok (p.advance a line) ∧
        (0 ∉ line → a.Holds inetPton line) := by
  obtain ⟨hcolon, hpos, hle, hport⟩ := hline
  have hmod : (ipText line).length % 2 ^ 32 = (ipText line).length := Nat.mod_eq_of_lt (by omega)
  have hlen : i32 (ipText line).length = (ipText line).length := by
    rw [i32_eq (by omega), hmod]
  rcases parseLine_of_hasPort inetPton p hcolon hlen hpos hle hport with
    ⟨hassert, -⟩ | ⟨a, hparse, htext, hp, ip, hip, haddr⟩
  · exact .inl hassert
  · refine .inr ⟨a, hparse, fun hzero => ?_⟩
    have htake : line.take (ipText line).length = ipText line :=
      (List.prefix_iff_eq_take.1 (List.takeWhile_prefix _)).symm
    have htext := htext hzero (length_ipText_lt hcolon).le
    rw [htake] at htext
    exact ⟨htext, hp, ip, htext ▸ hip, haddr⟩

/-- A misread line stops the parser, or becomes the next node. -/
lemma parseLine_of_misread (hread : Misread line) :
    (∃ stop, parseLine inetPton line p = .error stop) ∨
      ∃ a, parseLine inetPton line p = .ok (p.advance a line) := by
  obtain ⟨hcolon, hneg | ⟨-, hpos, hle, hport⟩⟩ := hread
  · have hi32 := i32_neg hneg
    left
    refine ⟨.overflow, ?_⟩
    rw [parseLine, if_neg (List.ne_nil_of_mem hcolon), strchr_eq hcolon]
    simp only
    rw [if_neg (by rw [pAddrLen]; omega), if_neg (by omega), if_pos hi32]
  · rcases parseLine_of_hasPort inetPton p hcolon
      (i32_eq (lt_of_le_of_lt hle (by norm_num))) hpos hle hport with ⟨hassert, -⟩ | ⟨a, hparse, -⟩
    · exact .inl ⟨_, hassert⟩
    · exact .inr ⟨a, hparse⟩

/-- A line that does not stop the parser has become the next node or changed its slot. -/
lemma parseLine_eq_ok {p' : Parsing} (h : parseLine inetPton line p = .ok p') :
    (∃ f, p' = p.setNode f) ∨ ∃ a, p' = p.advance a line := by
  by_cases hread : Misread line
  · rcases parseLine_of_misread hread with ⟨stop, hparse⟩ | ⟨a, hparse⟩
    · cases hparse.symm.trans h
    · exact .inr ⟨a, Except.ok.inj (h.symm.trans hparse)⟩
  · by_cases hline : WellFormedLine line
    · rcases parseLine_of_wellFormed hline with hparse | ⟨a, hparse, -⟩
      · cases hparse.symm.trans h
      · exact .inr ⟨a, Except.ok.inj (h.symm.trans hparse)⟩
    · obtain ⟨f, hparse⟩ := parseLine_of_not_wellFormed hline hread
      exact .inl ⟨f, Except.ok.inj (h.symm.trans hparse)⟩

end

/-! ### All lines -/

/-- Among the lines with fewer than `room` well-formed ones before them, none is misread. -/
def ReadsRight (room : ℕ) (lines : List (List UInt8)) : Prop :=
  ∀ pre line post, lines = pre ++ line :: post → (pre.filter WellFormedLine).length < room →
    ¬ Misread line

lemma not_misread_of_wellFormed {line : List UInt8} (h : WellFormedLine line) : ¬ Misread line := by
  obtain ⟨-, hpos, hle, -⟩ := h
  rintro ⟨-, hneg | ⟨hlong, -⟩⟩
  · omega
  · omega

lemma readsRight_zero (lines : List (List UInt8)) : ReadsRight 0 lines :=
  fun _ _ _ _ h => absurd h (Nat.not_lt_zero _)

lemma readsRight_nil (room : ℕ) : ReadsRight room [] := by
  intro pre line post h
  cases pre <;> cases h

/-- Whether the first line is well formed is all that the rest has to know of it. -/
lemma length_filter_cons (line : List UInt8) (pre : List (List UInt8)) :
    ((line :: pre).filter WellFormedLine).length =
      ([line].filter WellFormedLine).length + (pre.filter WellFormedLine).length := by
  rw [← List.length_append, ← List.filter_append, List.singleton_append]

lemma readsRight_cons {room : ℕ} {line : List UInt8} {rest : List (List UInt8)} (hroom : 0 < room) :
    ReadsRight room (line :: rest) ↔
      ¬ Misread line ∧ ReadsRight (room - ([line].filter WellFormedLine).length) rest := by
  constructor
  · intro h
    refine ⟨h [] line rest rfl hroom, fun pre line' post hrest hlt => ?_⟩
    refine h (line :: pre) line' post (by rw [hrest, List.cons_append]) ?_
    rw [length_filter_cons]
    omega
  · rintro ⟨hline, hrest⟩ pre line' post hlines hlt
    cases pre with
    | nil =>
        obtain ⟨rfl, -⟩ := List.cons.inj hlines
        exact hline
    | cons l pre =>
        obtain ⟨rfl, hpost⟩ := List.cons.inj hlines
        refine hrest pre line' post hpost ?_
        rw [length_filter_cons] at hlt
        omega

/-- `node_index` counts the accepted lines. -/
structure Parsing.Counted (p : Parsing) : Prop where
  index_eq : p.nodeIndex = p.accepted.length
  index_le : p.nodeIndex ≤ maxNodes

/-- The slots up to `node_index` are those of the accepted lines. -/
def Parsing.Filled (inetPton : List UInt8 → Option UInt32) (p : Parsing) : Prop :=
  ∀ k line, p.accepted[k]? = some line → (p.nodes k).Holds inetPton line

section

variable {inetPton : List UInt8 → Option UInt32} {line : List UInt8} {p : Parsing}

lemma Parsing.Counted.setNode (hp : p.Counted) (f : DualFormatAddr → DualFormatAddr) :
    (p.setNode f).Counted := ⟨hp.index_eq, hp.index_le⟩

lemma Parsing.Counted.advance (hp : p.Counted) (hlt : p.nodeIndex < maxNodes) (a : DualFormatAddr)
    (line : List UInt8) : (p.advance a line).Counted := by
  have hindex : (p.advance a line).nodeIndex = p.nodeIndex + 1 := by
    rw [maxNodes] at hlt
    exact u64_of_lt (by omega)
  refine ⟨?_, ?_⟩
  · rw [hindex, hp.index_eq, Parsing.advance, List.length_append, List.length_singleton]
  · rw [hindex]
    exact hlt

/-- A slot that is not that of an accepted line may change. -/
lemma Parsing.Filled.setNode (hp : p.Counted) (hfilled : p.Filled inetPton)
    (f : DualFormatAddr → DualFormatAddr) : (p.setNode f).Filled inetPton := by
  intro k line hk
  have hlt : k < p.nodeIndex := by
    rw [hp.index_eq]
    exact (List.getElem?_eq_some_iff.1 hk).1
  show (update p.nodes p.nodeIndex _ k).Holds inetPton line
  rw [update_of_ne hlt.ne]
  exact hfilled k line hk

lemma Parsing.Filled.advance (hp : p.Counted) (hfilled : p.Filled inetPton) {a : DualFormatAddr}
    (ha : a.Holds inetPton line) : (p.advance a line).Filled inetPton := by
  intro k line' hk
  have hk : (p.accepted ++ [line])[k]? = some line' := hk
  show (update p.nodes p.nodeIndex a k).Holds inetPton line'
  rcases lt_trichotomy k p.nodeIndex with hlt | rfl | hgt
  · rw [hp.index_eq] at hlt
    rw [List.getElem?_append_left hlt] at hk
    rw [update_of_ne (hp.index_eq ▸ hlt.ne)]
    exact hfilled k line' hk
  · rw [hp.index_eq, List.getElem?_concat_length, Option.some.injEq] at hk
    rw [update_self, ← hk]
    exact ha
  · rw [List.getElem?_eq_none (by
      rw [List.length_append, List.length_singleton, ← hp.index_eq]
      omega)] at hk
    cases hk

section

variable {rest : List (List UInt8)} (hlt : p.nodeIndex < maxNodes)

include hlt

lemma parseLines_of_ok {p₁ : Parsing} (h : parseLine inetPton line p = .ok p₁) :
    parseLines inetPton (line :: rest) p = parseLines inetPton rest p₁ := by
  rw [parseLines, if_pos hlt, h]

lemma parseLines_of_error {stop : Stop} (h : parseLine inetPton line p = .error stop) :
    parseLines inetPton (line :: rest) p = .error stop := by
  rw [parseLines, if_pos hlt, h]

end

lemma parseLines_of_full {lines : List (List UInt8)} (hfull : ¬ p.nodeIndex < maxNodes) :
    parseLines inetPton lines p = .ok p := by
  cases lines with
  | nil => rfl
  | cons line rest => rw [parseLines, if_neg hfull]

/-- The loop keeps the lines it has accepted, and counts them. -/
lemma counted_of_parseLines {lines : List (List UInt8)} {p' : Parsing} (hp : p.Counted)
    (h : parseLines inetPton lines p = .ok p') : p'.Counted ∧ p.accepted <+: p'.accepted := by
  induction lines generalizing p with
  | nil =>
      obtain rfl := Except.ok.inj h
      exact ⟨hp, List.prefix_rfl⟩
  | cons line rest ih =>
      by_cases hlt : p.nodeIndex < maxNodes
      · cases hparse : parseLine inetPton line p with
        | error stop =>
            rw [parseLines_of_error hlt hparse] at h
            cases h
        | ok p₁ =>
            rw [parseLines_of_ok hlt hparse] at h
            rcases parseLine_eq_ok hparse with ⟨f, rfl⟩ | ⟨a, rfl⟩
            · have hrest := ih (hp.setNode f) h
              exact hrest
            · obtain ⟨hp', hprefix⟩ := ih (hp.advance hlt a line) h
              exact ⟨hp', (List.prefix_append _ _).trans hprefix⟩
      · rw [parseLines_of_full hlt] at h
        obtain rfl := Except.ok.inj h
        exact ⟨hp, List.prefix_rfl⟩

/-- A misread line that the loop gets over is among the lines accepted from there on. -/
lemma mem_of_misread {rest more : List (List UInt8)} {p' : Parsing} (hp : p.Counted)
    (hlt : p.nodeIndex < maxNodes) (hread : Misread line)
    (h : parseLines inetPton (line :: rest) p = .ok p') (hmore : p'.accepted = p.accepted ++ more) :
    line ∈ more := by
  rcases parseLine_of_misread hread with ⟨stop, hparse⟩ | ⟨a, hparse⟩
  · rw [parseLines_of_error hlt hparse] at h
    cases h
  · rw [parseLines_of_ok hlt hparse] at h
    obtain ⟨-, tail, htail⟩ := counted_of_parseLines (hp.advance hlt a line) h
    rw [hmore, Parsing.advance, List.append_assoc] at htail
    rw [← List.append_cancel_left htail]
    exact List.mem_cons_self

/-- **The loop.**  Unless `inet_pton` refuses an address, the loop accepts the well-formed lines
and no others, as far as there is room, exactly when no line that it reaches is misread. -/
lemma parseLines_iff {lines : List (List UInt8)} (hp : p.Counted) (hfilled : p.Filled inetPton)
    (hzero : ∀ line ∈ lines, 0 ∉ line) (hassert : parseLines inetPton lines p ≠ .error .assertion) :
    (∃ p', parseLines inetPton lines p = .ok p' ∧ p'.Counted ∧ p'.Filled inetPton ∧
        p'.accepted = p.accepted ++
          (lines.filter WellFormedLine).take (maxNodes - p.accepted.length)) ↔
      ReadsRight (maxNodes - p.accepted.length) lines := by
  induction lines generalizing p with
  | nil => exact iff_of_true ⟨p, rfl, hp, hfilled, by simp⟩ (readsRight_nil _)
  | cons line rest ih =>
      have hrest : ∀ line ∈ rest, 0 ∉ line := fun l hl => hzero l (List.mem_cons_of_mem line hl)
      by_cases hlt : p.nodeIndex < maxNodes
      · obtain ⟨room, hroom⟩ : ∃ room, maxNodes - p.accepted.length = room + 1 :=
          Nat.exists_eq_succ_of_ne_zero (by rw [← hp.index_eq]; omega)
        rw [hroom, readsRight_cons (Nat.succ_pos room)]
        by_cases hread : Misread line
        · refine iff_of_false ?_ fun h => h.1 hread
          rintro ⟨p', hp', -, -, haccepted⟩
          have hfirst := mem_of_misread hp hlt hread hp' haccepted
          have hformed := List.of_mem_filter (List.mem_of_mem_take hfirst)
          exact not_misread_of_wellFormed (of_decide_eq_true hformed) hread
        · rw [and_iff_right hread]
          by_cases hline : WellFormedLine line
          · rcases parseLine_of_wellFormed hline with hparse | ⟨a, hparse, ha⟩
            · exact absurd (parseLines_of_error hlt hparse) hassert
            · rw [parseLines_of_ok hlt hparse] at hassert ⊢
              have ih := ih (hp.advance hlt a line)
                (hfilled.advance hp (ha (hzero line List.mem_cons_self))) hrest hassert
              have hlength : maxNodes - (p.advance a line).accepted.length = room := by
                rw [Parsing.advance, List.length_append, List.length_singleton]
                omega
              have haccepted : (p.advance a line).accepted = p.accepted ++ [line] := rfl
              rw [hlength, haccepted, List.append_assoc, List.singleton_append] at ih
              have hfilter : ∀ ls : List (List UInt8), (line :: ls).filter WellFormedLine =
                  line :: ls.filter WellFormedLine := fun ls => by simp [hline]
              rw [hfilter, hfilter, List.take_succ_cons, List.filter_nil, List.length_singleton,
                Nat.succ_sub_one]
              exact ih
          · obtain ⟨f, hparse⟩ := parseLine_of_not_wellFormed hline hread
            rw [parseLines_of_ok hlt hparse] at hassert ⊢
            have ih := ih (hp.setNode f) (hfilled.setNode hp f) hrest hassert
            rw [Parsing.setNode_accepted, hroom] at ih
            rw [List.filter_cons_of_neg (by simpa using hline), ih]
            simp [hline]
      · have hfull : maxNodes - p.accepted.length = 0 := by
          rw [← hp.index_eq]
          omega
        rw [parseLines_of_full hlt, hfull]
        exact iff_of_true ⟨p, rfl, hp, hfilled, by simp⟩ (readsRight_zero _)

end

/-! ### The file -/

section

variable {inetPton : List UInt8 → Option UInt32} {cluster : ClusterT} {selfId : ℕ}
  {content : List UInt8}

/-- Without a zero byte in it, the file is cut into its lines. -/
lemma tokens_buffer (hzero : 0 ∉ content) :
    Tokens.tokens isNewline (cString (content ++ [0]) 0).length (cString (content ++ [0]) 0) =
      clusterLines content := by
  have hbuffer : cString (content ++ [0]) 0 = content := by
    refine cString_of_slice (n := content.length + 1) ?_ fun b hb => ne_of_mem_of_not_mem hb hzero
    rw [slice, List.drop_zero, List.take_of_length_le (by simp)]
  rw [hbuffer, Tokens.tokens_eq_split le_rfl, clusterLines]

/-- What the loop has put into the slots, counted by `num_nodes`. -/
lemma acceptsLines_iff {p : Parsing} (hp : p.Counted) {lines : List (List UInt8)} :
    AcceptsLines inetPton lines
        ({ nodes := p.nodes
           nodeFds := fun i => if i < maxNodes then -1 else cluster.nodeFds i
           selfId := selfId
           numNodes := u8 p.nodeIndex }, p.accepted) ↔
      p.Filled inetPton ∧ p.accepted = (lines.filter WellFormedLine).take maxNodes := by
  have hle := hp.index_le
  have hnum : u8 p.nodeIndex = p.accepted.length := by
    rw [maxNodes] at hle
    rw [u8_of_lt (by omega), hp.index_eq]
  rw [hp.index_eq] at hle
  constructor
  · rintro ⟨haccepted, -, hholds⟩
    have haccepted : p.accepted = (lines.filter WellFormedLine).take maxNodes := haccepted
    refine ⟨fun k line hk => ?_, haccepted⟩
    have hlt := (List.getElem?_eq_some_iff.1 hk).1
    rw [haccepted, List.getElem?_take_of_lt (hlt.trans_le hle)] at hk
    exact hholds k line (lt_of_lt_of_eq hlt hnum.symm) hk
  · rintro ⟨hfilled, haccepted⟩
    refine ⟨haccepted, ?_, fun k line hk hline => hfilled k line ?_⟩
    · rw [hnum, haccepted, List.length_take, Nat.min_comm]
    · have hlt : k < p.accepted.length := lt_of_lt_of_eq hk hnum
      rw [haccepted, List.getElem?_take_of_lt (hlt.trans_le hle)]
      exact hline

/-- What the assertions at the end say of the loop. -/
lemma parseIpAddr_of_ok (hzero : 0 ∉ content) {p : Parsing}
    (hparse : parseLines inetPton (clusterLines content) ⟨fun _ => .zero, 0, []⟩ = .ok p)
    (hassert : parseIpAddr inetPton cluster selfId content ≠ .error .assertion) :
    parseIpAddr inetPton cluster selfId content =
      .ok
        ({ nodes := p.nodes
           nodeFds := fun i => if i < maxNodes then -1 else cluster.nodeFds i
           selfId := selfId
           numNodes := u8 p.nodeIndex }, p.accepted) := by
  rw [parseIpAddr] at hassert ⊢
  simp only [tokens_buffer hzero, hparse] at hassert ⊢
  split_ifs at hassert ⊢
  · exact absurd rfl hassert
  · exact absurd rfl hassert
  · exact absurd rfl hassert
  · rfl

lemma parseIpAddr_of_error (hzero : 0 ∉ content) {stop : Stop}
    (hparse : parseLines inetPton (clusterLines content) ⟨fun _ => .zero, 0, []⟩ = .error stop) :
    parseIpAddr inetPton cluster selfId content =
      if content.length = 0 then .error .assertion else .error stop := by
  rw [parseIpAddr]
  simp only [tokens_buffer hzero, hparse]

/-- **The cluster file parser accepts exactly its well-formed lines**, as long as no line among
those with fewer than `MAX_NODES` well-formed ones before them is misread, and only then. -/
theorem cluster_file_iff (hzero : 0 ∉ content)
    (hassert : parseIpAddr inetPton cluster selfId content ≠ .error .assertion) :
    (∃ result, parseIpAddr inetPton cluster selfId content = .ok result ∧
        AcceptsLines inetPton (clusterLines content) result) ↔
      ReadsRight maxNodes (clusterLines content) := by
  have hlines : ∀ line ∈ clusterLines content, 0 ∉ line := fun line hline hmem =>
    hzero ((Tokens.sublist_of_mem_split hline).mem hmem)
  have hcounted : Parsing.Counted ⟨fun _ => .zero, 0, []⟩ := ⟨rfl, Nat.zero_le _⟩
  have hfilled : Parsing.Filled inetPton ⟨fun _ => .zero, 0, []⟩ := fun k line hk => by
    simp at hk
  have hloop : parseLines inetPton (clusterLines content) ⟨fun _ => .zero, 0, []⟩ ≠
      .error .assertion := by
    intro hparse
    rw [parseIpAddr_of_error hzero hparse, ite_self] at hassert
    exact hassert rfl
  have hiff := parseLines_iff hcounted hfilled hlines hloop
  simp only [List.nil_append, List.length_nil, Nat.sub_zero] at hiff
  rw [← hiff]
  constructor
  · rintro ⟨result, hresult, haccepts⟩
    cases hparse : parseLines inetPton (clusterLines content) ⟨fun _ => .zero, 0, []⟩ with
    | error stop =>
        rw [parseIpAddr_of_error hzero hparse] at hresult
        split at hresult <;> cases hresult
    | ok p =>
        rw [parseIpAddr_of_ok hzero hparse hassert] at hresult
        obtain rfl := Except.ok.inj hresult
        have hp := (counted_of_parseLines hcounted hparse).1
        obtain ⟨hpfilled, haccepted⟩ := (acceptsLines_iff hp).1 haccepts
        exact ⟨p, rfl, hp, hpfilled, haccepted⟩
  · rintro ⟨p, hparse, hp, hpfilled, haccepted⟩
    exact ⟨_, parseIpAddr_of_ok hzero hparse hassert,
      (acceptsLines_iff hp).2 ⟨hpfilled, haccepted⟩⟩

end

/-- In a file of less than 2 GiB no line is misread. -/
lemma readsRight_of_length_lt {content : List UInt8} (h : content.length < 2 ^ 31) (room : ℕ) :
    ReadsRight room (clusterLines content) := by
  intro pre line post hlines _
  have hmem : line ∈ clusterLines content := by
    rw [hlines]
    exact List.mem_append_right pre List.mem_cons_self
  have hline := (Tokens.sublist_of_mem_split hmem).length_le
  rintro ⟨hcolon, hneg⟩
  have hlt := length_ipText_lt hcolon
  omega

/-! ### Two files -/

/-- `127.0.0.1`. -/
def localIp : List UInt8 := [49, 50, 55, 46, 48, 46, 48, 46, 49]

/-- `inet_pton` for a file with one address in it. -/
def inetPtonLocal (text : List UInt8) : Option UInt32 :=
  if text = localIp then some 0x0100007f else none

/-- The variable `cluster_state` at the start of the program. -/
def clusterStart : ClusterT := ⟨fun _ => .zero, fun _ => 0, 0, 0⟩

/-- The line `#`, the lines `127.0.0.1:8000` and `127.0.0.1:8001` with an address without a port, a
port that is no number and an empty line between them, and the line `:80`. -/
def mixedLines : List UInt8 :=
  [35, 10] ++ localIp ++ [58, 56, 48, 48, 48, 10] ++ localIp ++ [10] ++ localIp ++
    [58, 120, 10, 10] ++ localIp ++ [58, 56, 48, 48, 49, 10, 58, 56, 48, 10]

/-- The two well-formed lines become nodes, and no other. -/
theorem cluster_file_mixed_lines :
    ∃ result, parseIpAddr inetPtonLocal clusterStart 0 mixedLines = .ok result ∧
      AcceptsLines inetPtonLocal (clusterLines mixedLines) result ∧
        (clusterLines mixedLines).length = 6 ∧ result.1.numNodes = 2 := by
  have htwo : (parseIpAddr inetPtonLocal clusterStart 0 mixedLines).toOption.map
      (·.1.numNodes) = some 2 := by decide
  have hassert : parseIpAddr inetPtonLocal clusterStart 0 mixedLines ≠ .error .assertion := by
    intro h
    rw [h] at htwo
    cases htwo
  obtain ⟨result, hok, haccepts⟩ :=
    (cluster_file_iff (by decide) hassert).2 (readsRight_of_length_lt (by decide) _)
  rw [hok] at htwo
  exact ⟨result, hok, haccepts, by decide, Option.some.inj htwo⟩

section LongLine

variable (n : ℕ)

/-- The address `127.0.0.1` with `n` letters behind it, and the port 80. -/
def longLine : List UInt8 := localIp ++ List.replicate n 97 ++ [58, 56, 48]

lemma mem_longLine {c : UInt8} (h : c ∈ longLine n) : c ≠ 0 ∧ isNewline c = false := by
  have hall : (localIp ++ [97, 58, 56, 48]).all (fun c => c ≠ 0 ∧ isNewline c = false) = true := by
    decide
  refine of_decide_eq_true (List.all_eq_true.1 hall c ?_)
  rw [longLine, List.mem_append, List.mem_append, List.mem_replicate] at h
  rcases h with (h | ⟨-, rfl⟩) | h
  · exact List.mem_append_left _ h
  · decide
  · exact List.mem_append_right _ (List.mem_cons_of_mem 97 h)

lemma clusterLines_longLine : clusterLines (longLine n) = [longLine n] := by
  have hne : longLine n ≠ [] := by simp [longLine]
  have hsplit := Tokens.split_append hne (fun c hc => (mem_longLine n hc).2) [] fun c rest h => by
    cases h
  rwa [List.append_nil] at hsplit

lemma ipText_longLine : ipText (longLine n) = localIp ++ List.replicate n 97 := by
  have hip : ∀ c ∈ localIp ++ List.replicate n 97, decide (c ≠ 58) = true := by
    intro c hc
    rcases List.mem_append.1 hc with h | h
    · have hall : localIp.all (fun c => c ≠ 58) = true := by decide
      exact List.all_eq_true.1 hall c h
    · rw [List.eq_of_mem_replicate h]
      rfl
  rw [ipText, longLine, List.takeWhile_append_of_pos hip, List.takeWhile_cons_of_neg (by decide),
    List.append_nil]

lemma portText_longLine : portText (longLine n) = [56, 48] := by
  rw [portText, ipText_longLine, longLine, ← List.drop_drop, List.drop_left]
  rfl

lemma hasPort_longLine : HasPort (longLine n) := by
  rw [HasPort, linePort, portText_longLine]
  decide

variable {n}

/-- For the parser the address has its own length again. -/
lemma parseIpAddr_longLine (h : (9 + n) % 2 ^ 32 = 9) :
    ∃ result, parseIpAddr inetPtonLocal clusterStart 0 (longLine n) = .ok result ∧
      result.1.numNodes = 1 := by
  have hzero : 0 ∉ longLine n := fun hmem => (mem_longLine n hmem).1 rfl
  have hlen : (ipText (longLine n)).length = 9 + n := by
    rw [ipText_longLine, List.length_append, List.length_replicate]
    rfl
  have hcolon : 58 ∈ longLine n := by simp [longLine]
  have hshort : 9 ≤ (longLine n).length := by
    have := length_ipText_lt hcolon
    omega
  have htake : (longLine n).take 9 = localIp := by
    have hnine : 9 = localIp.length := rfl
    rw [longLine, List.append_assoc, hnine, List.take_left]
  have hi32 : i32 (ipText (longLine n)).length = (9 : ℕ) := by
    rw [hlen, i32_eq (by omega), h]
  rcases parseLine_of_hasPort inetPtonLocal ⟨fun _ => .zero, 0, []⟩ hcolon
    hi32 (by decide) (by decide) (hasPort_longLine n) with ⟨-, hnone⟩ | ⟨a, hparse, -⟩
  · have hsome := hnone hzero hshort
    rw [htake] at hsome
    cases hsome
  · have hloop : parseLines inetPtonLocal (clusterLines (longLine n)) ⟨fun _ => .zero, 0, []⟩ =
        .ok (Parsing.advance ⟨fun _ => .zero, 0, []⟩ a (longLine n)) := by
      rw [clusterLines_longLine, parseLines_of_ok (by decide) hparse, parseLines]
    rw [parseIpAddr, if_neg (by omega)]
    simp only [tokens_buffer hzero, hloop]
    exact ⟨_, rfl, rfl⟩

end LongLine

/-- With `2 ^ 32` letters behind the address, the line becomes a node with this address. -/
theorem cluster_file_long_line : ∃ content : List UInt8, 0 ∉ content ∧
    (clusterLines content).filter WellFormedLine = [] ∧
    ∃ result, parseIpAddr inetPtonLocal clusterStart 0 content = .ok result ∧
      result.1.numNodes = 1 := by
  refine ⟨longLine (2 ^ 32), fun h => (mem_longLine _ h).1 rfl, ?_,
    parseIpAddr_longLine (by norm_num)⟩
  have hformed : ¬ WellFormedLine (longLine (2 ^ 32)) := by
    rintro ⟨-, -, hle, -⟩
    rw [ipText_longLine, List.length_append, List.length_replicate] at hle
    omega
  rw [clusterLines_longLine, List.filter_singleton, decide_eq_false hformed]
  rfl

end Oceanliner
