/-
# The election timeout

`raft_check_election_timeout` measures the time since the last heartbeat in seconds, and divides
the timeout, which has milliseconds, by 1000 to compare.  No timeout that the node can have reaches
a second, so the quotient is `0` and the check says yes whenever it is made.  It says so too early
exactly in the second in which the timer has been reset (`election_timeout_early_iff`).
-/
import Oceanliner.AdaptiveTimeout
import Oceanliner.RaftCore.NextIndex

open Transition

namespace Oceanliner

/-- `MILLISECONDS_PER_SECOND`. -/
def millisecondsPerSecond : ℕ := 1000

/-- A node with its adaptive timeout. -/
structure TimedNode where
  node : RaftNode
  adaptiveTimeout : AdaptiveTimeout

/-- `raft_init`, with the adaptive timeout that `raft_adaptive_init` gives the node. -/
def TimedNode.init (nodeId : ℕ) (clk : Clock) (lastRequest : Timespec) : TimedNode :=
  ⟨raftInit nodeId clk, adaptiveTimeoutInit lastRequest⟩

/-- `raft_check_election_timeout` at the time `now`: its answer, and the node afterwards. -/
def raftCheckElectionTimeout (now : ℕ) (s : TimedNode) : Bool × TimedNode :=
  if s.node.state ≠ .leader then
    let elapsed : ℤ := now - s.node.lastHeartbeat
    let currentTimeout := s.adaptiveTimeout.currentTimeout
    if elapsed ≥ (currentTimeout / millisecondsPerSecond : ℕ) then
      (true,
        { s with adaptiveTimeout := adaptiveTimeoutCheckMissedHeartbeat s.adaptiveTimeout })
    else (false, s)
  else (false, s)

/-- `raft_reset_election_timer`. -/
def raftResetElectionTimer (clk : Clock) (s : TimedNode) : TimedNode where
  node := { s.node with lastHeartbeat := clk.time }
  adaptiveTimeout := adaptiveTimeoutRecordHeartbeat s.adaptiveTimeout

/-- What an operation of the node does with the adaptive timeout. -/
def adaptiveAfter : TermAction → AdaptiveTimeout → AdaptiveTimeout
  | .becomeFollower .. => adaptiveTimeoutRecordHeartbeat
  | .becomeCandidate _ => adaptiveTimeoutRecordVote
  | _ => id

/-- The operations of a node with its timeout.  The two senders measure a round trip around their
work, and `convert` is what the conversion of the raw timeout does in it. -/
inductive TimedAction where
  | operation (a : TermAction)
  | sendAppendEntries (start stop : Timespec) (convert : ℚ → ℕ) (targetId : Fin maxNodes)
      (entries : List UInt8)
  | sendRequestVote (start stop : Timespec) (convert : ℚ → ℕ)
  | checkElectionTimeout (now : ℕ)
  | resetElectionTimer (clk : Clock)

/-- One operation. -/
def timedStep (xxh3 : List UInt8 → UInt64 × UInt64) (nextIndexAddr : ℕ) (s : TimedNode) :
    TimedAction → Option TimedNode
  | .operation a =>
      (termStep s.node a).map fun node => ⟨node, adaptiveAfter a s.adaptiveTimeout⟩
  | .sendAppendEntries start stop convert targetId entries =>
      some
        { node := (raftSendAppendEntries xxh3 nextIndexAddr s.node targetId entries).1
          adaptiveTimeout := adaptiveTimeoutRpcEnd convert stop
            (adaptiveTimeoutRpcStart start s.adaptiveTimeout) }
  | .sendRequestVote start stop convert =>
      some
        { s with
          adaptiveTimeout := adaptiveTimeoutRpcEnd convert stop
            (adaptiveTimeoutRpcStart start s.adaptiveTimeout) }
  | .checkElectionTimeout now => some (raftCheckElectionTimeout now s).2
  | .resetElectionTimer clk => some (raftResetElectionTimer clk s)

/-! ### The timeouts a node can have -/

/-- The timeout has the default configuration, and lies between 150 and 300 milliseconds. -/
structure TimedNode.DefaultTimeout (s : TimedNode) : Prop where
  config_eq : s.adaptiveTimeout.config = defaultConfig
  inBounds : s.adaptiveTimeout.InBounds

lemma defaultConfig_ordered : defaultConfig.Ordered := ⟨by decide, by decide⟩

lemma defaultTimeout_init (nodeId : ℕ) (clk : Clock) (lastRequest : Timespec) :
    (TimedNode.init nodeId clk lastRequest).DefaultTimeout :=
  ⟨rfl, initWithConfig_inBounds lastRequest defaultConfig_ordered⟩

section

variable (xxh3 : List UInt8 → UInt64 × UInt64) (nextIndexAddr : ℕ) {s s' : TimedNode}

lemma TimedNode.DefaultTimeout.ordered (h : s.DefaultTimeout) :
    s.adaptiveTimeout.config.Ordered := by
  rw [h.config_eq]
  exact defaultConfig_ordered

lemma TimedNode.DefaultTimeout.range (h : s.DefaultTimeout) :
    150 ≤ s.adaptiveTimeout.currentTimeout ∧ s.adaptiveTimeout.currentTimeout ≤ 300 := by
  have hmin := h.inBounds.min_le
  have hmax := h.inBounds.le_max
  rw [h.config_eq] at hmin hmax
  exact ⟨hmin, hmax⟩

lemma raftCheckElectionTimeout_default (now : ℕ) (h : s.DefaultTimeout) :
    (raftCheckElectionTimeout now s).2.DefaultTimeout := by
  have hmissed : (adaptiveTimeoutCheckMissedHeartbeat s.adaptiveTimeout).InBounds := by
    refine checkMissedHeartbeat_inBounds h.inBounds ?_
    rw [h.config_eq]
    decide
  rw [raftCheckElectionTimeout]
  split
  · simp only
    split
    · exact ⟨h.config_eq, hmissed⟩
    · exact h
  · exact h

lemma timedStep_default {a : TimedAction} (h : s.DefaultTimeout)
    (hstep : timedStep xxh3 nextIndexAddr s a = some s') : s'.DefaultTimeout := by
  cases a with
  | operation a =>
      obtain ⟨node, -, rfl⟩ := Option.map_eq_some_iff.1 hstep
      cases a with
      | becomeFollower clk term => exact ⟨h.config_eq, inBounds_of_min h.ordered rfl⟩
      | becomeCandidate clk => exact ⟨h.config_eq, inBounds_of_min h.ordered rfl⟩
      | startElection clk => exact ⟨h.config_eq, h.inBounds⟩
      | becomeLeader => exact ⟨h.config_eq, h.inBounds⟩
      | recordVote => exact ⟨h.config_eq, h.inBounds⟩
      | requestVote clk req resp => exact ⟨h.config_eq, h.inBounds⟩
      | appendEntries clk req resp => exact ⟨h.config_eq, h.inBounds⟩
      | appendEntry entry => exact ⟨h.config_eq, h.inBounds⟩
      | replicateLogs => exact ⟨h.config_eq, h.inBounds⟩
      | clientCommand cmd => exact ⟨h.config_eq, h.inBounds⟩
      | batchThread now => exact ⟨h.config_eq, h.inBounds⟩
  | sendAppendEntries start stop convert targetId entries =>
      obtain rfl := Option.some.inj hstep
      exact ⟨h.config_eq, recordRtt_inBounds convert _ h.ordered⟩
  | sendRequestVote start stop convert =>
      obtain rfl := Option.some.inj hstep
      exact ⟨h.config_eq, recordRtt_inBounds convert _ h.ordered⟩
  | checkElectionTimeout now =>
      obtain rfl := Option.some.inj hstep
      exact raftCheckElectionTimeout_default now h
  | resetElectionTimer clk =>
      obtain rfl := Option.some.inj hstep
      exact ⟨h.config_eq, inBounds_of_min h.ordered rfl⟩

/-- A timeout of less than a second is over at once. -/
lemma raftCheckElectionTimeout_true {now : ℕ} (h : s.DefaultTimeout) (hstate : s.node.state ≠ .leader)
    (hnow : s.node.lastHeartbeat ≤ now) : (raftCheckElectionTimeout now s).1 = true := by
  have hle := h.range.2
  have hzero : s.adaptiveTimeout.currentTimeout / millisecondsPerSecond = 0 := by
    rw [millisecondsPerSecond]
    omega
  have helapsed : (now : ℤ) - s.node.lastHeartbeat ≥ (0 : ℕ) := by omega
  rw [raftCheckElectionTimeout, if_pos hstate]
  simp only [hzero, if_pos helapsed]

/-- **When the election timeout is not early.**  In every reachable state of a node that is not
leader, the check is true only after the current timeout, exactly when the clock has moved on since
the last heartbeat. -/
theorem election_timeout_early_iff {nodeId : ℕ} {clk : Clock} {lastRequest : Timespec}
    {as : List TimedAction} {now : ℕ}
    (hrun : run (timedStep xxh3 nextIndexAddr) (.init nodeId clk lastRequest) as = some s)
    (hstate : s.node.state ≠ .leader) (hnow : s.node.lastHeartbeat ≤ now) :
    ((raftCheckElectionTimeout now s).1 = true →
        s.adaptiveTimeout.currentTimeout ≤ millisecondsPerSecond * (now - s.node.lastHeartbeat)) ↔
      s.node.lastHeartbeat < now := by
  have hdefault : s.DefaultTimeout :=
    run_invariant (fun _ _ _ h hstep => timedStep_default xxh3 nextIndexAddr h hstep)
      (defaultTimeout_init nodeId clk lastRequest) hrun
  obtain ⟨hmin, hmax⟩ := hdefault.range
  rw [raftCheckElectionTimeout_true hdefault hstate hnow, millisecondsPerSecond]
  simp only [forall_const]
  omega

end

/-- A second after a node has heard from its leader. -/
theorem election_timeout_after_a_second :
    ∃ s, run (timedStep (fun _ => (0, 0)) 4096) (.init 1 ⟨0, 0⟩ ⟨0, 0⟩)
        [.resetElectionTimer ⟨7, 0⟩] = some s ∧
      ((raftCheckElectionTimeout 8 s).1 = true →
        s.adaptiveTimeout.currentTimeout ≤ millisecondsPerSecond * (8 - s.node.lastHeartbeat)) :=
  ⟨_, rfl, (@election_timeout_early_iff (fun _ => (0, 0)) 4096 _ 1 ⟨0, 0⟩ ⟨0, 0⟩
    [.resetElectionTimer ⟨7, 0⟩] 8 rfl (by decide) (by decide)).2 (by decide)⟩

/-- Right after `raft_init` the timeout of 200 milliseconds is over. -/
theorem election_timeout_at_once :
    (raftCheckElectionTimeout 0 (.init 1 ⟨0, 0⟩ ⟨0, 0⟩)).1 = true ∧
      ¬ (TimedNode.init 1 ⟨0, 0⟩ ⟨0, 0⟩).adaptiveTimeout.currentTimeout ≤
        millisecondsPerSecond * (0 - (TimedNode.init 1 ⟨0, 0⟩ ⟨0, 0⟩).node.lastHeartbeat) :=
  ⟨by decide, by decide⟩

end Oceanliner
