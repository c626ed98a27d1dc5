/-
# Framing of the messages between nodes

The threads of `main.c` send messages over one stream for each pair of nodes, and `thread_2`
reads them back in chunks of whatever size `read` returns.  It takes the length of a message
from the header, reads on while that is more than it has, and asserts that it is exactly what
it has.  So it needs every message to end where a chunk ends; and a reply to a vote request
announces the body of a longer message than the one that is sent.  `framing_iff` says exactly
when a sequence of messages arrives.
-/
import Oceanliner.Globals
import Oceanliner.Lib.Framing

open Bytes Framing Transition

namespace Oceanliner

/-- `sizeof(raft_msg_t)`. -/
def sizeofRaftMsg : ℕ := 32

/-- `sizeof(raft_append_entries_resp_t)`. -/
def sizeofRaftAppendEntriesResp : ℕ := 24

/-- The messages that `main.c` sends, with the bytes of their bodies: those of `thread_3`,
which asserts a bound on the body, the two replies of `thread_2`, and those of `thread_7`. -/
inductive SentMessage where
  | appendEntries (term senderNodeId : ℕ) (body : List UInt8) (h : body.length ≤ cmdbufSize)
  | respAppendEntries (term senderNodeId : ℕ) (body : List UInt8)
      (h : body.length = sizeofRaftAppendEntriesResp)
  | respRequestVote (term senderNodeId : ℕ) (voteGranted : Bool)
  | heartbeat (term senderNodeId : ℕ)

namespace SentMessage

/-- The bytes behind the header. -/
def body : SentMessage → List UInt8
  | appendEntries _ _ body _ => body
  | respAppendEntries _ _ body _ => body
  | respRequestVote _ _ voteGranted => [if voteGranted then 1 else 0]
  | heartbeat _ _ => []

/-- The field `body_length`.  The reply to a vote request is given the size of the reply to
an AppendEntries. -/
def bodyLength : SentMessage → ℕ
  | appendEntries _ _ body _ => body.length
  | respAppendEntries _ _ _ _ => sizeofRaftAppendEntriesResp
  | respRequestVote _ _ _ => sizeofRaftAppendEntriesResp
  | heartbeat _ _ => 0

/-- The fields behind `body_length`; the type of a heartbeat, which the header file does not
declare, is the next free number. -/
def headerRest : SentMessage → List UInt8
  | appendEntries term senderNodeId _ _ => toLe 8 term ++ toLe 8 senderNodeId ++ toLe 8 0
  | respAppendEntries term senderNodeId _ _ => toLe 8 term ++ toLe 8 senderNodeId ++ toLe 8 2
  | respRequestVote term senderNodeId _ => toLe 8 term ++ toLe 8 senderNodeId ++ toLe 8 3
  | heartbeat term senderNodeId => toLe 8 term ++ toLe 8 senderNodeId ++ toLe 8 4

/-- What `send` is given: the header and the body. -/
def bytes (m : SentMessage) : List UInt8 := toLe 8 m.bodyLength ++ (m.headerRest ++ m.body)

def IsVoteReply : SentMessage → Prop
  | respRequestVote _ _ _ => True
  | _ => False

lemma length_bytes (m : SentMessage) : m.bytes.length = sizeofRaftMsg + m.body.length := by
  cases m <;> simp [bytes, headerRest, sizeofRaftMsg] <;> omega

lemma bodyLength_le (m : SentMessage) : m.bodyLength ≤ cmdbufSize := by
  have hsmall : sizeofRaftAppendEntriesResp ≤ cmdbufSize := by decide
  cases m with
  | appendEntries term sender data h => exact h
  | respAppendEntries term sender data h => exact hsmall
  | respRequestVote term sender granted => exact hsmall
  | heartbeat term sender => exact Nat.zero_le _

lemma body_length_le (m : SentMessage) : m.body.length ≤ cmdbufSize := by
  cases m with
  | appendEntries term sender data h => exact h
  | respAppendEntries term sender data h =>
      have hsmall : sizeofRaftAppendEntriesResp ≤ cmdbufSize := by decide
      exact h.trans_le hsmall
  | respRequestVote term sender granted =>
      show 1 ≤ cmdbufSize
      decide
  | heartbeat term sender => exact Nat.zero_le _

/-- All messages but the reply to a vote request announce the body that they have. -/
lemma bodyLength_eq_iff (m : SentMessage) : m.bodyLength = m.body.length ↔ ¬ m.IsVoteReply := by
  cases m with
  | appendEntries term sender data h => simp [bodyLength, body, IsVoteReply]
  | respAppendEntries term sender data h => simp [bodyLength, body, IsVoteReply, h]
  | respRequestVote term sender granted =>
      simp [bodyLength, body, IsVoteReply, sizeofRaftAppendEntriesResp]
  | heartbeat term sender => simp [bodyLength, body, IsVoteReply]

end SentMessage

/-! ### The read loop -/

section ReadLoop

-- What `msg_buffer` holds when the first read for the message number `n` starts: a message
-- read before, or whatever `malloc` returned.
variable (stale : ℕ → List UInt8)

/-- `msg_buffer->body_length + sizeof(raft_msg_t)`, when `received` has been read over the
start of the buffer. -/
def messageLength (n : ℕ) (received : List UInt8) : ℕ :=
  u64 (le (slice (received ++ (stale n).drop received.length) 0 8) + sizeofRaftMsg)

/-- The size of `msg_buffer`. -/
def bufSize : ℕ := cmdbufSize + sizeofRaftMsg

/-- One `read` of `thread_2`, the first one for a message or one of the inner loop, with the
test of that loop and the assertion behind it.  Where the chunks run out inside a message,
`read` fails on the non-blocking socket, and the assertion in the loop with it. -/
def readStep : Reader UInt8 → Chunk UInt8 → Option (Reader UInt8) :=
  Framing.step (messageLength stale) bufSize

/-- The loop delivers exactly the messages `ms`, and no assertion fails. -/
def Delivers (ms : List SentMessage) (chunks : List (Chunk UInt8)) : Prop :=
  run (readStep stale) ⟨[], []⟩ chunks = some ⟨[], ms.map SentMessage.bytes⟩

/-- A read that ends within the first 8 bytes of a message leaves `body_length` half stale;
what stands there then must not make the loop stop reading. -/
def HeadersWait (groups : List (List (Chunk UInt8))) : Prop :=
  ∀ n g, groups[n]? = some g → ∀ p q, g = p ++ q → p ≠ [] → (join p).length < 8 →
    (join p).length < messageLength stale n (join p)

variable {stale}

/-- Once 8 bytes are there, the length is that of the header. -/
lemma messageLength_eq (n : ℕ) {m : SentMessage} {received rest : List UInt8}
    (h : m.bytes = received ++ rest) (h8 : 8 ≤ received.length) :
    messageLength stale n received = m.bodyLength + sizeofRaftMsg := by
  have hhead : slice (received ++ (stale n).drop received.length) 0 8 = toLe 8 m.bodyLength := by
    have htake : received.take 8 = m.bytes.take 8 := by
      rw [h, List.take_append_of_le_length h8]
    rw [slice, List.drop_zero, List.take_append_of_le_length h8, htake, SentMessage.bytes]
    exact List.take_left' (length_toLe 8 _)
  have hle := m.bodyLength_le
  rw [cmdbufSize] at hle
  rw [messageLength, hhead, le_toLe, Nat.mod_eq_of_lt (by omega), sizeofRaftMsg,
    u64_of_lt (by omega)]

/-- The chunks of one message are a frame when its body is as long as announced, and no read
stops early. -/
lemma frame_iff (n : ℕ) {m : SentMessage} {g : List (Chunk UInt8)} (hg : join g = m.bytes) :
    Frame (messageLength stale) bufSize n g ↔ ¬ m.IsVoteReply ∧
      ∀ p q, g = p ++ q → p ≠ [] → (join p).length < 8 →
        (join p).length < messageLength stale n (join p) := by
  have hlen := m.length_bytes
  have hbody := m.body_length_le
  have hneed : messageLength stale n m.bytes = m.bodyLength + sizeofRaftMsg := by
    refine messageLength_eq n (List.append_nil _).symm ?_
    rw [hlen, sizeofRaftMsg]
    omega
  have hne : g ≠ [] := by
    rintro rfl
    rw [← hg, sizeofRaftMsg, join_nil, List.length_nil] at hlen
    omega
  rw [Frame, completes_iff]
  simp only [List.nil_append, hg, hneed]
  rw [← m.bodyLength_eq_iff]
  constructor
  · rintro ⟨-, -, hlen', hinner⟩
    refine ⟨by omega, ?_⟩
    rintro p q rfl hp h8
    refine hinner p q rfl hp ?_
    rintro rfl
    rw [List.append_nil] at hg
    rw [hg, hlen, sizeofRaftMsg] at h8
    omega
  · rintro ⟨hlen', hwait⟩
    refine ⟨hne, by rw [hlen, bufSize]; omega, by omega, ?_⟩
    rintro p q rfl hp hq
    by_cases h8 : (join p).length < 8
    · exact hwait p q rfl hp h8
    · -- the rest of the message is not empty
      obtain ⟨c, q, rfl⟩ := List.exists_cons_of_ne_nil hq
      have hsplit : m.bytes = join p ++ join (c :: q) := by
        rw [← hg]
        simp [join]
      have hpos : 0 < c.1.length := List.length_pos_of_ne_nil c.2
      have htotal := congrArg List.length hsplit
      rw [List.length_append, join_cons, List.length_append] at htotal
      rw [messageLength_eq n hsplit (not_lt.1 h8)]
      omega

variable (stale)

/-- **When messages arrive.**  The loop delivers the messages, in order and with their full
bodies, and no assertion on a length fails, exactly when none of them is a reply to a vote
request, every message ends where a chunk ends, and no read that ends within the first 8
bytes of a message finds a stale rest that makes it stop. -/
theorem framing_iff (ms : List SentMessage) (chunks : List (Chunk UInt8)) :
    Delivers stale ms chunks ↔ (∀ m ∈ ms, ¬ m.IsVoteReply) ∧
      ∃ groups : List (List (Chunk UInt8)), groups.flatten = chunks ∧
        groups.map join = ms.map SentMessage.bytes ∧ HeadersWait stale groups := by
  have hrun : Delivers stale ms chunks ↔ ∃ gs : List (List (Chunk UInt8)),
      gs.flatten = chunks ∧ gs.map join = ms.map SentMessage.bytes ∧
        Frames (messageLength stale) bufSize 0 gs := run_eq_some_iff
  have hpair : ∀ gs : List (List (Chunk UInt8)), gs.map join = ms.map SentMessage.bytes →
      ∀ n : ℕ, (gs[n]?).map join = (ms[n]?).map SentMessage.bytes := by
    intro gs hjoin n
    rw [← List.getElem?_map, ← List.getElem?_map, hjoin]
  rw [hrun]
  constructor
  · rintro ⟨gs, hflat, hjoin, hframes⟩
    rw [frames_iff] at hframes
    refine ⟨?_, gs, hflat, hjoin, ?_⟩
    · intro m hm
      obtain ⟨n, hn⟩ := List.getElem?_of_mem hm
      have hg := hpair gs hjoin n
      rw [hn, Option.map_some, Option.map_eq_some_iff] at hg
      obtain ⟨g, hg, hbytes⟩ := hg
      exact ((frame_iff _ hbytes).1 (hframes n g hg)).1
    · intro n g hg
      have hm := hpair gs hjoin n
      rw [hg, Option.map_some, eq_comm, Option.map_eq_some_iff] at hm
      obtain ⟨m, -, hbytes⟩ := hm
      have hframe := ((frame_iff _ hbytes.symm).1 (hframes n g hg)).2
      rwa [Nat.zero_add] at hframe
  · rintro ⟨hreply, gs, hflat, hjoin, hwait⟩
    refine ⟨gs, hflat, hjoin, ?_⟩
    rw [frames_iff]
    intro n g hg
    have hm := hpair gs hjoin n
    rw [hg, Option.map_some, eq_comm, Option.map_eq_some_iff] at hm
    obtain ⟨m, hm, hbytes⟩ := hm
    rw [Nat.zero_add]
    exact (frame_iff n hbytes.symm).2 ⟨hreply m (List.mem_of_getElem? hm), hwait n g hg⟩

end ReadLoop

/-- Two heartbeats that one `read` returns together are not delivered, although the buffer was
empty and their bytes are those that were sent. -/
theorem framing_two_heartbeats : ∃ c : Chunk UInt8,
    join [c] = ([.heartbeat 1 0, .heartbeat 1 0].map SentMessage.bytes).flatten ∧
      ¬ Delivers (fun _ => List.replicate 64 0) [.heartbeat 1 0, .heartbeat 1 0] [c] := by
  refine ⟨⟨([.heartbeat 1 0, .heartbeat 1 0].map SentMessage.bytes).flatten, by decide⟩,
    by decide, ?_⟩
  intro h
  have hnone : run (readStep fun _ => List.replicate 64 0) ⟨[], []⟩
      [⟨([SentMessage.heartbeat 1 0, .heartbeat 1 0].map SentMessage.bytes).flatten,
        by decide⟩] = none := by
    decide
  rw [Delivers, hnone] at h
  cases h

end Oceanliner
