/-
# The work that is left

Between one datagram and the next, and one election and the next, the threads 2, 3 and 5 of a
cluster only finish what has been started: a batch is sent to every other node once, every
AppendEntries message is answered once, an answer is never answered, and a batch is applied
command by command.  Every such step takes away some of the work that is left (`Cluster.work`),
so without new datagrams the cluster comes to rest.

The heartbeats of `thread_7` are left out: a leader goes on sending them every 75 ms, and a cluster
at rest is one in which nothing else is sent.
-/
import Oceanliner.Main.StableLeader

open Network (Moves weight)
open Transition

namespace Oceanliner

variable {n : ℕ} {DB : Type}

/-! ### How much there is to do -/

/-- The steps that `thread_5` can take with a batch: every command takes two, and has at least one
byte. -/
def CmdBuffer.work (b : CmdBuffer n) : ℕ := 2 * b.cmdsLength + 2

/-- The steps that a message can cause, the one in which it is read among them. -/
def Message.work (m : Message n) : ℕ :=
  match m.body with
  | .appendEntries _ _ _ entries => entries.work + 8
  | .requestVote _ _ => 6
  | .respAppendEntries _ _ _ _ => 3
  | .respRequestVote _ => 3

def Thread2.work : Thread2 n → ℕ
  | .idle => 0
  | .handling m => m.work - 1
  | .replying _ reply none => reply.work + 1
  | .replying _ reply (some b) => reply.work + b.work + 3
  | .logging b => b.work + 2
  | .enqueueing b => b.work + 1
  | .becomingLeader => 1

/-- A batch that is sent to `k` nodes more, and applied. -/
def CmdBuffer.sendWork (k : ℕ) (w : CmdBuffer n) : ℕ := k * (w.work + 9) + w.work

def Thread3.work : Thread3 n → ℕ
  | .idle => 0
  | .building w _ => w.sendWork n + 5
  | .sending w _ _ _ rest => w.sendWork rest.length + 4
  | .waiting w _ _ => w.work + 3
  | .logging w => w.work + 2
  | .enqueueing w => w.work + 1

def Thread5.work : Thread5 n → ℕ
  | .idle => 0
  | .applying b processed => 2 * (b.cmdsLength - processed) + 1
  | .answering b processed length => 2 * (b.cmdsLength - (processed + length)) + 2

def Server.work (s : Server n DB) : ℕ :=
  s.thread2.work + s.thread3.work + s.thread5.work +
    (s.queue13.map fun p => p.1.sendWork n + 6).sum + s.queue23.length +
      (s.queue35.map CmdBuffer.work).sum

/-- The steps that the threads 2, 3 and 5 can take before `thread_1` or an election does. -/
def Cluster.work (c : Cluster n DB) : ℕ := weight Server.work Message.work c

/-- The work that comes with a message, if there is one. -/
def outgoingWork : Outgoing n → ℕ
  | none => 0
  | some (_, m) => m.work

lemma sum_onLink (out : Outgoing n) :
    ∑ j, ((onLink out j).map Message.work).sum = outgoingWork out := by
  rcases out with _ | ⟨dest, m⟩
  · simp [outgoingWork]
  · have hlink : ∀ j, ((onLink (some (dest, m)) j).map Message.work).sum =
        if j = dest then m.work else 0 := by
      intro j
      rw [onLink_some]
      split <;> simp
    simp only [hlink, outgoingWork, Finset.sum_ite_eq', Finset.mem_univ, if_true]

lemma Message.work_pos (m : Message n) : 3 ≤ m.work := by
  rw [Message.work]
  split <;> omega

lemma work_respAppendEntries (senderTerm : ℕ) (self : Fin n) (success : Bool) (term logIdx : ℕ)
    (answers : CmdBuffer n) :
    (⟨senderTerm, self, .respAppendEntries success term logIdx answers⟩ : Message n).work = 3 := rfl

/-! ### Every step takes some of it away -/

section Steps

variable {R : RocksDb DB} {i : Fin n} {s s' : Server n DB}

lemma Thread2Outcome.work_lt {popped out : Outgoing n} (h : Thread2Outcome i s popped s' out) :
    s'.work + outgoingWork out < s.work + outgoingWork popped := by
  cases h with
  | @discards j m =>
      have hm := m.work_pos
      simp only [outgoingWork]
      omega
  | @reads j m raft hidle =>
      have hm := m.work_pos
      simp only [Server.work, hidle, Thread2.work, outgoingWork]
      omega
  | @accepts m prevLogTerm prevLogIndex leaderCommit entries hfrom hbody =>
      -- the batch is to be logged, enqueued and applied, and an OK to be sent and counted
      have hm : m.work = entries.work + 8 := by rw [Message.work, hbody]
      simp only [Server.work, hfrom, Thread2.work, outgoingWork, hm, work_respAppendEntries]
      omega
  | @refuses m prevLogTerm prevLogIndex leaderCommit entries hfrom hbody =>
      have hm : m.work = entries.work + 8 := by rw [Message.work, hbody]
      simp only [Server.work, hfrom, Thread2.work, outgoingWork, hm, work_respAppendEntries]
      omega
  | @votes m lastLogTerm lastLogIndex hfrom hbody =>
      have hm : m.work = 6 := by rw [Message.work, hbody]
      -- a reply is less work than the request it answers
      have hreply : (thread2RequestVote i s.raft lastLogTerm lastLogIndex).work = 3 := rfl
      simp only [Server.work, hfrom, Thread2.work, outgoingWork, hm, hreply]
      omega
  | @takesOk m term logIdx answers hfrom hbody =>
      have hm : m.work = 3 := by rw [Message.work, hbody]
      simp only [Server.work, hfrom, Thread2.work, outgoingWork, hm, List.length_append,
        List.length_singleton]
      omega
  | @takesErr m term logIdx answers hfrom hbody =>
      have hm : m.work = 3 := by rw [Message.work, hbody]
      simp only [Server.work, hfrom, Thread2.work, outgoingWork, hm]
      omega
  | @countsVote m voteGranted raft t hfrom hbody hto =>
      have hm : m.work = 3 := by rw [Message.work, hbody]
      rcases hto with rfl | rfl
      · simp only [Server.work, hfrom, Thread2.work, outgoingWork, hm]
        omega
      · simp only [Server.work, hfrom, Thread2.work, outgoingWork, hm]
        omega
  | repliesOk hfrom =>
      simp only [Server.work, hfrom, Thread2.work, outgoingWork]
      omega
  | replies hfrom =>
      simp only [Server.work, hfrom, Thread2.work, outgoingWork]
      omega
  | logs hfrom =>
      simp only [Server.work, hfrom, Thread2.work, outgoingWork]
      omega
  | enqueues hfrom =>
      simp only [Server.work, hfrom, Thread2.work, outgoingWork, List.map_append, List.sum_append,
        List.map_cons, List.map_nil, List.sum_cons, List.sum_nil]
      omega
  | becomesLeader hfrom =>
      simp only [Server.work, hfrom, Thread2.work, outgoingWork]
      omega

lemma length_peers_le (i : Fin n) : (peers i).length ≤ n :=
  (List.length_filter_le _ _).trans (List.length_finRange).le

lemma Thread3Outcome.work_lt {out : Outgoing n} (h : Thread3Outcome i s s' out) :
    s'.work + outgoingWork out < s.work := by
  cases h with
  | takes hidle hqueue =>
      simp only [Server.work, hidle, hqueue, Thread3.work, outgoingWork, List.map_cons,
        List.sum_cons]
      omega
  | @builds w r hfrom =>
      have hsend : w.sendWork (peers i).length ≤ w.sendWork n :=
        Nat.add_le_add_right (Nat.mul_le_mul_right _ (length_peers_le i)) _
      simp only [Server.work, hfrom, Thread3.work, outgoingWork]
      omega
  | @sends w r prevLogTerm prevLogIndex dest rest hfrom =>
      -- the share of one receiver moves from the thread to the link
      have hsend : w.sendWork (rest.length + 1) = w.sendWork rest.length + (w.work + 9) := by
        rw [CmdBuffer.sendWork, CmdBuffer.sendWork, Nat.succ_mul]
        omega
      have hm : (thread3Message i w prevLogTerm prevLogIndex).work = w.work + 8 := rfl
      simp only [Server.work, hfrom, Thread3.work, outgoingWork, List.length_cons, hsend, hm]
      omega
  | @waits w r prevLogTerm prevLogIndex hfrom =>
      have hsend : w.sendWork 0 = w.work := by rw [CmdBuffer.sendWork, Nat.zero_mul, Nat.zero_add]
      simp only [Server.work, hfrom, Thread3.work, outgoingWork, List.length_nil, hsend]
      omega
  | counts hfrom hqueue =>
      simp only [Server.work, hfrom, hqueue, Thread3.work, outgoingWork, List.length_cons]
      omega
  | skips hfrom hqueue =>
      simp only [Server.work, hqueue, outgoingWork, List.length_cons]
      omega
  | commits hfrom =>
      simp only [Server.work, hfrom, Thread3.work, outgoingWork]
      omega
  | logs hfrom =>
      simp only [Server.work, hfrom, Thread3.work, outgoingWork]
      omega
  | enqueues hfrom =>
      simp only [Server.work, hfrom, Thread3.work, outgoingWork, List.map_append, List.sum_append,
        List.map_cons, List.map_nil, List.sum_cons, List.sum_nil]
      omega

lemma Thread5Outcome.work_lt (h : Thread5Outcome R s s') : s'.work < s.work := by
  cases h with
  | @takes b rest hidle hqueue =>
      have hb : b.work = 2 * b.cmdsLength + 2 := rfl
      simp only [Server.work, hidle, hqueue, Thread5.work, List.map_cons, List.sum_cons, hb]
      omega
  | @applies b processed length diskMap hfrom hlt hcommand =>
      -- a command is not empty, so fewer bytes are left behind it
      have hlength := kvsCommandLen_pos (thread5Command_length hcommand)
      simp only [Server.work, hfrom, Thread5.work]
      omega
  | finishes hfrom =>
      simp only [Server.work, hfrom, Thread5.work]
      omega
  | answers hfrom =>
      simp only [Server.work, hfrom, Thread5.work]
      omega
  | keepsSilent hfrom =>
      simp only [Server.work, hfrom, Thread5.work]
      omega

end Steps

/-! ### Coming to rest -/

/-- A step that neither takes in a datagram nor starts or wins an election from outside. -/
def ClusterAction.Inner : ClusterAction n → Prop
  | .receive _ _ => True
  | .thread2 _ => True
  | .thread3 _ => True
  | .thread5 _ => True
  | _ => False

/-- What a node does changes the work by what it has done itself and by the messages. -/
lemma work_lt_of_moves {c c' : Cluster n DB} {k : Fin n} {s : Server n DB} {popped out : Outgoing n}
    (hmoves : Moves c k s (onLink popped) (onLink out) c')
    (h : s.work + outgoingWork out < (c.node k).work + outgoingWork popped) : c'.work < c.work := by
  have heq := hmoves.weight_eq (w := Server.work) (v := Message.work)
  -- what is popped from a link has left it, and what is pushed is on one
  rw [sum_onLink, sum_onLink] at heq
  rw [Cluster.work, Cluster.work]
  omega

theorem inner_work_lt {R : RocksDb DB} {c c' : Cluster n DB} {a : ClusterAction n} (ha : a.Inner)
    (hstep : clusterStep R c a = some c') : c'.work < c.work := by
  cases a with
  | thread1 i event => exact ha.elim
  | receive i j =>
      rw [clusterStep] at hstep
      split at hstep
      · cases hstep
      · rename_i m rest hlink
        obtain ⟨s, hs, rfl⟩ := Option.map_eq_some_iff.1 hstep
        have hspec : Thread2Outcome i (c.node i) (some (j, m)) s none := thread2Receive_spec hs
        exact work_lt_of_moves (c.moves_receive s hlink) hspec.work_lt
  | thread2 i =>
      obtain ⟨⟨s, out⟩, hs, rfl⟩ := Option.map_eq_some_iff.1 hstep
      exact work_lt_of_moves (c.moves_send i s out) (thread2Step_spec hs).work_lt
  | thread3 i =>
      obtain ⟨⟨s, out⟩, hs, rfl⟩ := Option.map_eq_some_iff.1 hstep
      exact work_lt_of_moves (c.moves_send i s out) (thread3Step_spec hs).work_lt
  | thread5 i =>
      obtain ⟨s, hs, rfl⟩ := Option.map_eq_some_iff.1 hstep
      exact work_lt_of_moves (c.moves_send i s none) (thread5Step_spec hs).work_lt
  | candidate i => exact ha.elim
  | requestVote i j => exact ha.elim

/-- **Without new datagrams a cluster comes to rest**, up to the heartbeats of `thread_7`.  From
every state, whatever messages are on their way, the threads 2, 3 and 5 of all nodes can take no
more steps than there is work left, and they can go on until none of them can. -/
theorem inner_steps_end (R : RocksDb DB) (c : Cluster n DB) :
    (∀ as c', (∀ a ∈ as, ClusterAction.Inner a) → run (clusterStep R) c as = some c' →
      as.length ≤ c.work) ∧
    ∃ as c', (∀ a ∈ as, ClusterAction.Inner a) ∧ run (clusterStep R) c as = some c' ∧
      ∀ a, ClusterAction.Inner a → clusterStep R c' a = none := by
  have hwork : ∀ (c : Cluster n DB) a c', ClusterAction.Inner a → clusterStep R c a = some c' →
      c'.work < c.work := fun c a c' ha hstep => inner_work_lt ha hstep
  refine ⟨fun as c' has hrun => ?_, exists_run_to_rest hwork c⟩
  have hle := run_length_le hwork has hrun
  omega

end Oceanliner
