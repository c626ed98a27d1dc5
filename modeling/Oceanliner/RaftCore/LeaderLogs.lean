/-
# The role and the term under which commands are logged

A leader takes client commands into its current batch, and the batch is logged later, by a
pass of the batch processor.  The handlers of messages do not look at the batch: a node that
moves to a later term, or stands in an election, while commands are waiting logs them in
another role or under another term than it took them in (`logged_as_follower`).  In every run
in which nothing of that kind happens while commands wait, all commands are logged by a
leader, in the term in which it accepted them (`logged_as_leader`).
-/
import Oceanliner.RaftCore.Client
import Oceanliner.RaftCore.Rpc
import Oceanliner.Lib.Transition

open Transition

namespace Oceanliner

/-- A command for which the call returned `0`, with the role and the term of the node then. -/
structure Acceptance where
  command : KvsRecord
  state : RaftState
  term : ℕ
deriving DecidableEq

/-- An entry that was appended to the log, with the role of the node then and the commands
it was made from. -/
structure LoggedEntry where
  entry : RaftEntry
  state : RaftState
  commands : List Acceptance
deriving DecidableEq

/-- The entry was appended by a leader, in the term in which the node as leader accepted each
of its commands. -/
def LoggedEntry.AsLeader (r : LoggedEntry) : Prop :=
  r.state = .leader ∧ ∀ c ∈ r.commands, c.state = .leader ∧ c.term = r.entry.term

/-- A node, the commands that wait in its current batch, and the entries it has logged. -/
structure LoggingNode where
  node : RaftNode
  waiting : List Acceptance
  logged : List LoggedEntry

inductive LoggingAction where
  | becomeCandidate (clk : Clock)
  | startElection (clk : Clock)
  | becomeLeader
  | appendEntries (clk : Clock) (req : RaftMsg RaftAppendEntriesReq)
      (resp : RaftMsg RaftAppendEntriesResp)
  | requestVote (clk : Clock) (req : RaftMsg RaftRequestVoteReq)
      (resp : RaftMsg RaftRequestVoteResp)
  | clientCommand (cmd : KvsRecord)
  | tick (now : ℕ)
deriving DecidableEq

/-- The entries of `node'` that are not in the log of `node`, as made from `commands`. -/
def newEntries (node node' : RaftNode) (commands : List Acceptance) : List LoggedEntry :=
  (node'.log.entries.drop node.log.count).map fun e => ⟨e, node.state, commands⟩

/-- One operation of the node. -/
def loggingStep (s : LoggingNode) : LoggingAction → Option LoggingNode
  | .becomeCandidate clk => some { s with node := raftBecomeCandidate clk s.node }
  | .startElection clk => some { s with node := raftStartElection clk s.node }
  | .becomeLeader => some { s with node := raftBecomeLeader s.node }
  | .appendEntries clk req resp =>
      (raftHandleAppendEntries clk s.node req resp).map fun r => { s with node := r.1 }
  | .requestVote clk req resp =>
      some { s with node := (raftHandleRequestVote clk s.node req resp).1 }
  | .clientCommand cmd =>
      (raftHandleClientCommand s.node cmd).map fun r =>
        let accepted := ⟨cmd, s.node.state, s.node.currentTerm⟩
        -- the call took the command, into the batch or straight into the log
        if r.1 ≠ 0 then { s with node := r.2 }
        else if r.2.commandBatcher = s.node.commandBatcher then
          { s with node := r.2, logged := s.logged ++ newEntries s.node r.2 [accepted] }
        else { s with node := r.2, waiting := s.waiting ++ [accepted] }
  | .tick now =>
      let node' := batchProcessorTick now s.node
      some
        { node := node'
          waiting :=
            if node'.commandBatcher.currentBatch.numCommands = 0 then [] else s.waiting
          logged := s.logged ++ newEntries s.node node' s.waiting }

/-- A node right after `raft_init`. -/
def LoggingNode.init (nodeId : ℕ) (clk : Clock) : LoggingNode := ⟨raftInit nodeId clk, [], []⟩

/-- The step does not make the node leave its role and its term: it is no election and brings
no message of a later term. -/
def KeepsOffice (node : RaftNode) : LoggingAction → Prop
  | .becomeCandidate _ => False
  | .startElection _ => False
  | .appendEntries _ req _ => req.term ≤ node.currentTerm
  | .requestVote _ req _ => req.term ≤ node.currentTerm
  | _ => True

instance (node : RaftNode) : ∀ a, Decidable (KeepsOffice node a)
  | .becomeCandidate _ => isFalse not_false
  | .startElection _ => isFalse not_false
  | .becomeLeader => isTrue trivial
  | .appendEntries _ req _ => inferInstanceAs (Decidable (req.term ≤ node.currentTerm))
  | .requestVote _ req _ => inferInstanceAs (Decidable (req.term ≤ node.currentTerm))
  | .clientCommand _ => isTrue trivial
  | .tick _ => isTrue trivial

/-- No command waits, or the step keeps the node in its role and its term. -/
def QuietWhileWaiting (s : LoggingNode) (a : LoggingAction) : Prop :=
  s.node.commandBatcher.currentBatch.numCommands = 0 ∨ KeepsOffice s.node a

instance (s : LoggingNode) (a : LoggingAction) : Decidable (QuietWhileWaiting s a) :=
  inferInstanceAs (Decidable (_ ∨ _))

/-! ### The invariant -/

/-- Commands wait only on a leader, and were accepted by it in its present term. -/
structure LoggingNode.Owned (s : LoggingNode) : Prop where
  leader : s.node.commandBatcher.currentBatch.numCommands ≠ 0 → s.node.state = .leader
  waiting_nil : s.node.commandBatcher.currentBatch.numCommands = 0 → s.waiting = []
  waiting : ∀ c ∈ s.waiting, c.state = .leader ∧ c.term = s.node.currentTerm
  logged : ∀ r ∈ s.logged, r.AsLeader
  entries : s.logged.map LoggedEntry.entry = s.node.log.entries

lemma owned_init (nodeId : ℕ) (clk : Clock) : (LoggingNode.init nodeId clk).Owned where
  leader := fun h => absurd rfl h
  waiting_nil := fun _ => rfl
  waiting := by simp [LoggingNode.init]
  logged := by simp [LoggingNode.init]
  entries := rfl

/-- An operation that touches neither the batch nor the log, and keeps role and term as long
as commands wait. -/
structure RoleChange (node node' : RaftNode) : Prop where
  batch : node'.commandBatcher.currentBatch = node.commandBatcher.currentBatch
  log : node'.log = node.log
  keeps : node.commandBatcher.currentBatch.numCommands ≠ 0 → node.state = .leader →
    node'.state = .leader ∧ node'.currentTerm = node.currentTerm

lemma LoggingNode.Owned.roleChange {s : LoggingNode} (h : s.Owned) {node' : RaftNode}
    (hr : RoleChange s.node node') : LoggingNode.Owned { s with node := node' } := by
  refine ⟨?_, ?_, ?_, h.logged, ?_⟩
  · intro hne
    rw [hr.batch] at hne
    exact (hr.keeps hne (h.leader hne)).1
  · intro hzero
    rw [hr.batch] at hzero
    exact h.waiting_nil hzero
  · intro c hc
    have hne : s.node.commandBatcher.currentBatch.numCommands ≠ 0 := by
      intro hzero
      simp [h.waiting_nil hzero] at hc
    rw [(hr.keeps hne (h.leader hne)).2]
    exact h.waiting c hc
  · rw [hr.log]
    exact h.entries

lemma roleChange_becomeLeader (node : RaftNode) : RoleChange node (raftBecomeLeader node) := by
  refine ⟨?_, rfl, fun _ _ => ⟨rfl, rfl⟩⟩
  rw [raftBecomeLeader, commandBatcherStart]
  split <;> rfl

lemma roleChange_appendEntries {clk : Clock} {node node' : RaftNode}
    {req : RaftMsg RaftAppendEntriesReq} (hquiet :
      node.commandBatcher.currentBatch.numCommands = 0 ∨ req.term ≤ node.currentTerm)
    (h : AppendEntriesOutcome clk node req node') : RoleChange node node' := by
  cases h with
  | stale hlt => exact ⟨rfl, rfl, fun _ hst => ⟨hst, rfl⟩⟩
  | same heq => exact ⟨rfl, rfl, fun _ hst => ⟨hst, rfl⟩⟩
  | later hgt =>
      refine ⟨rfl, rfl, fun hne _ => ?_⟩
      rcases hquiet with hzero | hle
      · exact absurd hzero hne
      · omega

lemma roleChange_requestVote {clk : Clock} {node node' : RaftNode} {granted : Bool}
    {req : RaftMsg RaftRequestVoteReq} (hquiet :
      node.commandBatcher.currentBatch.numCommands = 0 ∨ req.term ≤ node.currentTerm)
    (h : RequestVoteOutcome clk node req node' granted) : RoleChange node node' := by
  cases h with
  | refuse hle => exact ⟨rfl, rfl, fun _ hst => ⟨hst, rfl⟩⟩
  | grant heq hfree hlog => exact ⟨rfl, rfl, fun _ hst => ⟨hst, rfl⟩⟩
  | refuseLater hlt =>
      refine ⟨rfl, rfl, fun hne _ => ?_⟩
      rcases hquiet with hzero | hle
      · exact absurd hzero hne
      · omega
  | grantLater hlt hlog =>
      refine ⟨rfl, rfl, fun hne _ => ?_⟩
      rcases hquiet with hzero | hle
      · exact absurd hzero hne
      · omega

/-! ### Entries -/

/-- The entries one attempt to log commands adds, as records: at most one, in the present
role and term. -/
lemma newEntries_spec {node node' : RaftNode} {data : List UInt8}
    (h : LogsCommands node data node') (commands : List Acceptance) :
    node'.log.entries = node.log.entries ++ (newEntries node node' commands).map
        LoggedEntry.entry ∧
      ∀ r ∈ newEntries node node' commands,
        r.state = node.state ∧ r.entry.term = node.currentTerm ∧ r.commands = commands := by
  rcases h.entries with he | ⟨-, he⟩
  · have hnew : newEntries node node' commands =
        [⟨⟨node.currentTerm, node.log.count + 1, .command, data⟩, node.state, commands⟩] := by
      rw [newEntries, he, RaftLog.count, List.drop_left]
      rfl
    rw [hnew]
    refine ⟨he, ?_⟩
    rintro r hr
    obtain rfl := List.mem_singleton.1 hr
    exact ⟨rfl, rfl, rfl⟩
  · have hnew : newEntries node node' commands = [] := by
      rw [newEntries, he, RaftLog.count, List.drop_length]
      rfl
    rw [hnew]
    refine ⟨by rw [he]; simp, ?_⟩
    rintro r hr
    cases hr

/-- Logging commands of the present term on a leader. -/
lemma LoggingNode.Owned.logs {s : LoggingNode} (h : s.Owned) {node node' : RaftNode}
    {data : List UInt8} {commands waiting : List Acceptance}
    (hlog : LogsCommands node data node') (hst : node.state = .leader)
    (hterm : node.currentTerm = s.node.currentTerm) (hentries : node.log = s.node.log)
    (hcommands : ∀ c ∈ commands, c.state = .leader ∧ c.term = s.node.currentTerm)
    (hnil : node.commandBatcher.currentBatch.numCommands = 0 → waiting = [])
    (hwaiting : ∀ c ∈ waiting, c.state = .leader ∧ c.term = s.node.currentTerm) :
    LoggingNode.Owned ⟨node', waiting, s.logged ++ newEntries node node' commands⟩ := by
  obtain ⟨hnew, hrec⟩ := newEntries_spec hlog commands
  refine ⟨?_, ?_, ?_, ?_, ?_⟩
  · intro _
    rw [hlog.state_eq, hst]
  · intro hzero
    rw [hlog.commandBatcher_eq] at hzero
    exact hnil hzero
  · intro c hc
    rw [hlog.currentTerm_eq, hterm]
    exact hwaiting c hc
  · intro r hr
    rcases List.mem_append.1 hr with hr | hr
    · exact h.logged r hr
    · obtain ⟨hrst, hrterm, hrcmds⟩ := hrec r hr
      refine ⟨hrst.trans hst, ?_⟩
      intro c hc
      rw [hrcmds] at hc
      rw [hrterm, hterm]
      exact hcommands c hc
  · rw [List.map_append, hnew, h.entries, hentries]

/-! ### Runs -/

lemma loggingStep_owned {s s' : LoggingNode} {a : LoggingAction} (h : s.Owned)
    (hquiet : QuietWhileWaiting s a) (hs : loggingStep s a = some s') : s'.Owned := by
  cases a with
  | becomeCandidate clk =>
      obtain rfl := Option.some.inj hs
      refine h.roleChange ⟨rfl, rfl, fun hne _ => ?_⟩
      exact absurd (hquiet.resolve_right not_false) hne
  | startElection clk =>
      obtain rfl := Option.some.inj hs
      refine h.roleChange ⟨rfl, rfl, fun hne _ => ?_⟩
      exact absurd (hquiet.resolve_right not_false) hne
  | becomeLeader =>
      obtain rfl := Option.some.inj hs
      exact h.roleChange (roleChange_becomeLeader s.node)
  | appendEntries clk req resp =>
      simp only [loggingStep, Option.map_eq_some_iff] at hs
      obtain ⟨⟨node', resp'⟩, hr, rfl⟩ := hs
      exact h.roleChange (roleChange_appendEntries hquiet (raftHandleAppendEntries_outcome hr))
  | requestVote clk req resp =>
      obtain rfl := Option.some.inj hs
      exact h.roleChange (roleChange_requestVote hquiet (raftHandleRequestVote_outcome rfl))
  | clientCommand cmd =>
      simp only [loggingStep, Option.map_eq_some_iff] at hs
      obtain ⟨⟨r, node'⟩, hr, rfl⟩ := hs
      cases raftHandleClientCommand_outcome hr with
      | refused hst => exact h
      | batched hst hadd =>
          rename_i batcher
          have hnum := (addCommand_accept hadd).num
          have hchanged : batcher ≠ s.node.commandBatcher := by
            rintro rfl
            omega
          simp only [ne_eq, not_true_eq_false, if_false, hchanged]
          refine ⟨fun _ => hst, ?_, ?_, h.logged, h.entries⟩
          · intro hzero
            simp only [hnum] at hzero
            omega
          · intro c hc
            rcases List.mem_append.1 hc with hc | hc
            · exact h.waiting c hc
            · obtain rfl := List.mem_singleton.1 hc
              exact ⟨hst, rfl⟩
      | direct hst hadd hlog =>
          simp only [ne_eq, not_true_eq_false, if_false, hlog.commandBatcher_eq, if_true]
          refine h.logs hlog hst rfl rfl ?_ h.waiting_nil h.waiting
          intro c hc
          obtain rfl := List.mem_singleton.1 hc
          exact ⟨hst, rfl⟩
  | tick now =>
      simp only [loggingStep, Option.some.injEq] at hs
      have hflush := batchProcessorTick_outcome now s.node
      generalize batchProcessorTick now s.node = node' at hs hflush
      subst hs
      cases hflush with
      | kept hbatch =>
          rename_i batcher
          have hnew : newEntries s.node { s.node with commandBatcher := batcher } s.waiting =
              [] := by
            simp [newEntries, RaftLog.count]
          have hwaiting : (if batcher.currentBatch.numCommands = 0 then [] else s.waiting) =
              s.waiting := by
            split
            · rename_i hzero
              rw [hbatch] at hzero
              rw [h.waiting_nil hzero]
            · rfl
          simp only [hnew, hwaiting, List.append_nil]
          exact h.roleChange ⟨hbatch, rfl, fun _ hst => ⟨hst, rfl⟩⟩
      | logged hpos hnum hlog =>
          have hzero : node'.commandBatcher.currentBatch.numCommands = 0 := by
            rw [hlog.commandBatcher_eq]
            exact hnum
          have hnone : ∀ c ∈ ([] : List Acceptance), c.state = .leader ∧
              c.term = s.node.currentTerm := by simp
          have hlogs := h.logs hlog (h.leader (by omega)) rfl rfl h.waiting (fun _ => rfl) hnone
          simp only [hzero, if_true]
          exact hlogs

/-- **Leaders log what they accepted as leaders.**  In every run in which the node keeps its
role and its term while commands wait, every entry of the log was appended by a leader, in
the term in which the node as leader accepted each of the commands in it. -/
theorem logged_as_leader (nodeId : ℕ) (clk : Clock) (as : List LoggingAction) {s : LoggingNode}
    (hquiet : Guarded loggingStep QuietWhileWaiting (LoggingNode.init nodeId clk) as)
    (hrun : run loggingStep (LoggingNode.init nodeId clk) as = some s) :
    s.logged.map LoggedEntry.entry = s.node.log.entries ∧ ∀ r ∈ s.logged, r.AsLeader := by
  have h : s.Owned :=
    Guarded.invariant (fun _ _ _ h hq hstep => loggingStep_owned h hq hstep) hquiet
      (owned_init nodeId clk) hrun
  exact ⟨h.entries, h.logged⟩

theorem logged_as_leader_once : ∃ s,
    run loggingStep (LoggingNode.init 1 ⟨0, 0⟩)
        [.becomeCandidate ⟨0, 0⟩, .becomeLeader, .clientCommand emptyCommand, .tick 50,
          .startElection ⟨1, 100⟩] = some s ∧
      s.logged.map LoggedEntry.entry = s.node.log.entries ∧ ∀ r ∈ s.logged, r.AsLeader :=
  ⟨_, rfl, logged_as_leader 1 ⟨0, 0⟩ [.becomeCandidate ⟨0, 0⟩, .becomeLeader,
    .clientCommand emptyCommand, .tick 50, .startElection ⟨1, 100⟩] (by decide) rfl⟩

/-- An AppendEntries message of a later term, from node `2`. -/
def laterLeaderMsg : RaftMsg RaftAppendEntriesReq where
  bodyLength := 0
  term := 5
  senderNodeId := 2
  rpcType := .appendEntries
  data := ⟨0, 0, 0, 0, ⟨⟨0, 0, 0, 0, (0, 0)⟩, []⟩⟩

/-- A leader of term `1` accepts a command, hears of a leader of term `5`, and logs the
command as a follower under term `5`. -/
theorem logged_as_follower : ∃ s,
    run loggingStep (LoggingNode.init 1 ⟨0, 0⟩)
        [.becomeCandidate ⟨0, 0⟩, .becomeLeader, .clientCommand emptyCommand,
          .appendEntries ⟨0, 0⟩ laterLeaderMsg ⟨0, 0, 0, .respAppendEntries, ⟨false, 0, 0⟩⟩,
          .tick 50] = some s ∧
      ∃ r ∈ s.logged, r.entry ∈ s.node.log.entries ∧ r.state = .follower ∧
        r.entry.term = 5 ∧ r.commands = [⟨emptyCommand, .leader, 1⟩] ∧ ¬ r.AsLeader := by
  refine ⟨_, rfl, _, List.mem_singleton_self _, List.mem_singleton_self _, rfl, rfl, rfl, ?_⟩
  rintro ⟨hst, -⟩
  exact absurd hst (by decide)

end Oceanliner
