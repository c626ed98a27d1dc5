/-
# Logs agree on the batches of a leader

Whoever leads and however often that changes, the batches that one node has opened in one term
are in every log file in the order in which the node has enqueued them, without a gap: what a log
file has of them is a first part of what the node has enqueued (`logs_agree`).

As long as a node has not heard of a later term, the pipeline to it is complete.  When it has, it
takes nothing of that term any more, because a batch travels under its own term.  A node whose
values of `last_applied_*` do not fit those of the sender never takes anything from it.  All this
needs that terms grow, so a candidate must not step over the largest `uint64_t`.

What `thread_5` takes of these batches has the same order (`stores_agree`), although it may take
the batches of different nodes in another order than they have in the log file.
-/
import Oceanliner.Main.CommitTerms
import Oceanliner.Main.WriteAhead

open Network (Moves conveyor)
open Transition

namespace Oceanliner

variable {n : ℕ} {DB : Type}

/-! ### Terms -/

/-- A candidate finds a term above its own. -/
def TermsFit (c : Cluster n DB) : ClusterAction n → Prop
  | .candidate i => (c.node i).raft.currentTerm + 1 < 2 ^ 64
  | _ => True

instance (c : Cluster n DB) : ∀ a, Decidable (TermsFit c a)
  | .candidate i => inferInstanceAs (Decidable ((c.node i).raft.currentTerm + 1 < 2 ^ 64))
  | .thread1 _ _ => isTrue trivial
  | .receive _ _ => isTrue trivial
  | .thread2 _ => isTrue trivial
  | .thread3 _ => isTrue trivial
  | .thread5 _ => isTrue trivial
  | .requestVote _ _ => isTrue trivial

lemma RaftStep.currentTerm_le {i : Fin n} {a : ClusterAction n} {raft raft' : RaftVars}
    (h : RaftStep i a raft raft') (hfits : a = .candidate i → raft.currentTerm + 1 < 2 ^ 64) :
    raft.currentTerm ≤ raft'.currentTerm := by
  cases h with
  | stays => exact le_rfl
  | @hears term _ hterm =>
      rw [thread2Term] at hterm
      split at hterm
      · rename_i hgt
        obtain rfl := Option.some.inj hterm
        exact hgt.le
      · split at hterm
        · cases hterm
        · obtain rfl := Option.some.inj hterm
          exact le_rfl
  | counts => exact le_rfl
  | leads => exact le_rfl
  | stands ha =>
      show raft.currentTerm ≤ u64 (raft.currentTerm + 1)
      rw [u64_of_lt (hfits ha)]
      exact Nat.le_succ _

lemma thread2Term_le {raft raft' : RaftVars} {term : ℕ} (h : thread2Term raft term = some raft') :
    raft.currentTerm ≤ term := by
  rw [thread2Term] at h
  split at h
  · omega
  · split at h
    · cases h
    · omega

/-! ### The batches of a leader in a term -/

/-- The batches that node `origin` has opened in the term. -/
def batchesOf (origin : Fin n) (term : ℕ) (bs : List (CmdBuffer n)) : List (CmdBuffer n) :=
  bs.filter fun b => b.id.origin = origin ∧ b.term = term

section BatchesOf

variable {origin : Fin n} {term : ℕ}

@[simp] lemma batchesOf_nil : batchesOf origin term [] = [] := rfl

@[simp] lemma batchesOf_append (bs bs' : List (CmdBuffer n)) :
    batchesOf origin term (bs ++ bs') = batchesOf origin term bs ++ batchesOf origin term bs' :=
  List.filter_append ..

lemma batchesOf_flatMap (ms : List (Message n)) :
    batchesOf origin term (ms.flatMap Message.entries) =
      ms.flatMap fun m => batchesOf origin term m.entries :=
  List.filter_flatMap

lemma batchesOf_eq_nil {bs : List (CmdBuffer n)}
    (h : ∀ b ∈ bs, b.id.origin ≠ origin ∨ b.term ≠ term) : batchesOf origin term bs = [] := by
  rw [batchesOf, List.filter_eq_nil_iff]
  intro b hb hof
  obtain ⟨horigin, hterm⟩ := of_decide_eq_true hof
  rcases h b hb with hne | hne
  · exact hne horigin
  · exact hne hterm

end BatchesOf

/-! ### What a node has taken from a leader -/

/-- The batch of a message goes under its own term, with what its sender takes for the last
entry it has applied. -/
def Message.Names (raft : RaftVars) (m : Message n) : Prop :=
  ∀ prevLogTerm prevLogIndex leaderCommit entries,
    m.body = .appendEntries prevLogTerm prevLogIndex leaderCommit entries →
      m.term = entries.term ∧ prevLogTerm = raft.lastAppliedTerm ∧
        prevLogIndex = raft.lastAppliedIndex

/-- What a node has read, and what it is sending, names the last entries of the senders. -/
structure SendersNamed (raft : Fin n → RaftVars) (i : Fin n) (s : Server n DB) : Prop where
  handling : ∀ m, s.thread2 = .handling m → m.Names (raft m.senderNodeId)
  sending : ∀ w r prevLogTerm prevLogIndex rest,
    s.thread3 = .sending w r prevLogTerm prevLogIndex rest →
      prevLogTerm = (raft i).lastAppliedTerm ∧ prevLogIndex = (raft i).lastAppliedIndex

/-- Node `i` accepts the batches of node `j`. -/
def acceptsFrom (raft : Fin n → RaftVars) (i j : Fin n) : Bool :=
  thread2Accepts (raft i) (raft j).lastAppliedTerm (raft j).lastAppliedIndex

/-- The batch that `thread_2` has read and not yet written to the log file, when it `accepts`. -/
def Thread2.taken (accepts : Bool) : Thread2 n → List (CmdBuffer n)
  | .handling m => if accepts then m.entries else []
  | t => t.toLog

/-- What a node has taken from a leader whose batches it accepts, or does not. -/
def kept (accepts : Bool) (s : Server n DB) : List (CmdBuffer n) :=
  s.logFile ++ s.thread2.taken accepts

/-- The batches of the term from node `i` to the log file of node `j`, the oldest first. -/
def pipelineOf (raft : Fin n → RaftVars) (term : ℕ) (c : Cluster n DB) (i j : Fin n) :
    List (CmdBuffer n) :=
  conveyor (fun _ _ => []) (fun s _ => batchesOf i term (kept (acceptsFrom raft j i) s))
    (fun s j => batchesOf i term (unsentBatches s j)) (fun m => batchesOf i term m.entries)
    (fun _ => []) c i j

section Steps

variable {raft : Fin n → RaftVars} {leader i j : Fin n} {term : ℕ} {s s' : Server n DB}
  {m : Message n}

lemma mem_entries {b : CmdBuffer n} (hb : b ∈ m.entries) :
    ∃ prevLogTerm prevLogIndex leaderCommit,
      m.body = .appendEntries prevLogTerm prevLogIndex leaderCommit b := by
  rw [Message.entries] at hb
  split at hb
  · rename_i hbody
    obtain rfl := List.mem_singleton.1 hb
    exact ⟨_, _, _, hbody⟩
  · cases hb

lemma names_of_no_entries {r : RaftVars} (h : m.entries = []) : m.Names r := by
  intro prevLogTerm prevLogIndex leaderCommit entries hbody
  rw [Message.entries, hbody] at h
  cases h

lemma batchesOf_of_sender (hm : MessageFrom j i m) (hj : j ≠ leader) :
    batchesOf leader term m.entries = [] :=
  batchesOf_eq_nil fun b hb => .inl (by rw [hm.entries b hb]; exact hj)

lemma batchesOf_of_term {r : RaftVars} (hm : m.Names r) (hterm : m.term ≠ term) :
    batchesOf leader term m.entries = [] := by
  refine batchesOf_eq_nil fun b hb => .inr ?_
  obtain ⟨prevLogTerm, prevLogIndex, leaderCommit, hbody⟩ := mem_entries hb
  rw [← (hm _ _ _ _ hbody).1]
  exact hterm

/-- Whether a node accepts a batch depends on the sender only. -/
lemma thread2Accepts_eq (hraft : (raft i).SameLast s.raft) (hm : m.Names (raft j))
    {prevLogTerm prevLogIndex leaderCommit : ℕ} {entries : CmdBuffer n}
    (hbody : m.body = .appendEntries prevLogTerm prevLogIndex leaderCommit entries) :
    thread2Accepts s.raft prevLogTerm prevLogIndex = acceptsFrom raft i j := by
  obtain ⟨-, rfl, rfl⟩ := hm _ _ _ _ hbody
  rw [acceptsFrom, thread2Accepts, thread2Accepts, hraft.1, hraft.2]

/-- What `thread_2` reads from the leader it takes if it accepts and has heard of no later term. -/
lemma kept_of_thread2 {popped out : Outgoing n} (horigins : s.thread2.FromOthers i)
    (hnamed : SendersNamed raft i s) (hraft : (raft i).SameLast s.raft)
    (h : Thread2Outcome i s popped s' out)
    (hpopped : ∀ j m, popped = some (j, m) → MessageFrom j i m ∧ m.Names (raft j)) :
    batchesOf leader term (kept (acceptsFrom raft i leader) s') =
      batchesOf leader term (kept (acceptsFrom raft i leader) s) ++
        if acceptsFrom raft i leader = true ∧ s.raft.currentTerm ≤ term then
          (onLink popped leader).flatMap fun m => batchesOf leader term m.entries
        else [] := by
  have hhandling := hnamed.handling
  cases h with
  | @discards j m hlt =>
      -- an outdated batch is not of the term
      obtain ⟨-, hm⟩ := hpopped j m rfl
      split
      · rename_i hopen
        have hnone : batchesOf leader term m.entries = [] :=
          batchesOf_of_term hm (by have := hopen.2; omega)
        rw [onLink_some]
        split
        · rw [List.flatMap_singleton, hnone, List.append_nil]
        · exact (List.append_nil _).symm
      · exact (List.append_nil _).symm
  | @reads j m r hidle hterm =>
      obtain ⟨hfrom, hm⟩ := hpopped j m rfl
      have hkept : kept (acceptsFrom raft i leader) s = s.logFile := by
        simp [kept, hidle, Thread2.taken, Thread2.toLog]
      rw [hkept, kept, batchesOf_append]
      refine congrArg _ ?_
      rw [Thread2.taken]
      cases hacc : acceptsFrom raft i leader with
      | false => rfl
      | true =>
          rw [if_pos rfl, onLink_some]
          by_cases hj : leader = j
          · rw [if_pos hj, List.flatMap_singleton]
            split
            · rfl
            · rename_i hclosed
              have hle := thread2Term_le hterm
              exact batchesOf_of_term hm fun heq => hclosed ⟨rfl, heq ▸ hle⟩
          · rw [if_neg hj, List.flatMap_nil, ite_self]
            exact batchesOf_of_sender hfrom (Ne.symm hj)
  | @accepts m prevLogTerm prevLogIndex leaderCommit entries hfrom hbody haccepts =>
      rw [hfrom] at horigins
      have hentries : m.entries = [entries] := by rw [Message.entries, hbody]
      rw [onLink_none, List.flatMap_nil, ite_self, List.append_nil, kept, kept, batchesOf_append,
        batchesOf_append, hfrom]
      refine congrArg _ ?_
      show batchesOf leader term [entries] =
        batchesOf leader term (if acceptsFrom raft i leader then m.entries else [])
      rw [hentries]
      cases hacc : acceptsFrom raft i leader with
      | true => rfl
      | false =>
          -- the sender is another one
          rw [thread2Accepts_eq hraft (hhandling m hfrom) hbody] at haccepts
          have hsender : m.senderNodeId ≠ leader := by
            rintro rfl
            exact Bool.false_ne_true (hacc.symm.trans haccepts)
          rw [← hentries]
          exact batchesOf_of_sender horigins hsender
  | @refuses m prevLogTerm prevLogIndex leaderCommit entries hfrom hbody hrefuses =>
      rw [hfrom] at horigins
      rw [onLink_none, List.flatMap_nil, ite_self, List.append_nil, kept, kept, batchesOf_append,
        batchesOf_append, hfrom]
      refine congrArg _ ?_
      show batchesOf leader term [] =
        batchesOf leader term (if acceptsFrom raft i leader then m.entries else [])
      cases hacc : acceptsFrom raft i leader with
      | false => rfl
      | true =>
          rw [thread2Accepts_eq hraft (hhandling m hfrom) hbody] at hrefuses
          have hsender : m.senderNodeId ≠ leader := by
            rintro rfl
            exact Bool.false_ne_true (hrefuses.symm.trans hacc)
          exact (batchesOf_of_sender horigins hsender).symm
  | votes hfrom hbody =>
      simp [kept, hfrom, Thread2.taken, Thread2.toLog, Message.entries, hbody]
  | takesOk hfrom hbody =>
      simp [kept, hfrom, Thread2.taken, Thread2.toLog, Message.entries, hbody]
  | takesErr hfrom hbody =>
      simp [kept, hfrom, Thread2.taken, Thread2.toLog, Message.entries, hbody]
  | countsVote hfrom hbody hto =>
      rcases hto with rfl | rfl
      · simp [kept, hfrom, Thread2.taken, Thread2.toLog, Message.entries, hbody]
      · simp [kept, hfrom, Thread2.taken, Thread2.toLog, Message.entries, hbody]
  | repliesOk hfrom => simp [kept, hfrom, Thread2.taken, Thread2.toLog]
  | replies hfrom => simp [kept, hfrom, Thread2.taken, Thread2.toLog]
  | logs hfrom => simp [kept, hfrom, Thread2.taken, Thread2.toLog]
  | enqueues hfrom => simp [kept, hfrom, Thread2.taken, Thread2.toLog]
  | becomesLeader hfrom => simp [kept, hfrom, Thread2.taken, Thread2.toLog]

/-- `thread_3` writes batches of its own node to the log file. -/
lemma kept_of_thread3 {accepts : Bool} {out : Outgoing n} (horigins : s.thread3.OwnedBy i)
    (hi : i ≠ leader) (h : Thread3Outcome i s s' out) :
    batchesOf leader term (kept accepts s') = batchesOf leader term (kept accepts s) := by
  cases h with
  | @logs w hfrom =>
      rw [hfrom] at horigins
      have hnone : batchesOf leader term [w] = [] := by
        refine batchesOf_eq_nil fun b hb => .inl ?_
        rw [List.mem_singleton.1 hb, show w.id.origin = i from horigins]
        exact hi
      show batchesOf leader term ((s.logFile ++ [w]) ++ s.thread2.taken accepts) = _
      rw [batchesOf_append, batchesOf_append, hnone, List.append_nil, kept, batchesOf_append]
  | _ => rfl

namespace SendersNamed

lemma congr (hs : SendersNamed raft i s) (hthread2 : s'.thread2 = s.thread2)
    (hthread3 : s'.thread3 = s.thread3) : SendersNamed raft i s' := by
  constructor
  · rw [hthread2]
    exact hs.handling
  · rw [hthread3]
    exact hs.sending

lemma of_thread2 {popped out : Outgoing n} (hs : SendersNamed raft i s)
    (h : Thread2Outcome i s popped s' out)
    (hpopped : ∀ j m, popped = some (j, m) → MessageFrom j i m ∧ m.Names (raft j)) :
    SendersNamed raft i s' := by
  cases h with
  | discards => exact hs
  | @reads j m r =>
      obtain ⟨hfrom, hm⟩ := hpopped j m rfl
      refine { hs with handling := ?_ }
      rintro m' ⟨⟩
      rw [hfrom.sender]
      exact hm
  | countsVote _ _ hto =>
      refine { hs with handling := ?_ }
      rintro m hm
      rcases hto with rfl | rfl
      · cases hm
      · cases hm
  | _ => exact { hs with handling := by rintro m ⟨⟩ }

lemma of_thread3 {out : Outgoing n} (hs : SendersNamed raft i s)
    (hraft : (raft i).SameLast s.raft) (h : Thread3Outcome i s s' out) :
    SendersNamed raft i s' ∧ ∀ j m, out = some (j, m) → m.Names (raft i) := by
  cases h with
  | builds =>
      refine ⟨{ hs with sending := ?_ }, by rintro j m ⟨⟩⟩
      rintro w r prevLogTerm prevLogIndex rest ⟨⟩
      exact hraft
  | @sends w r prevLogTerm prevLogIndex dest rest hfrom =>
      have hlast := hs.sending _ _ _ _ _ hfrom
      refine ⟨{ hs with sending := ?_ }, ?_⟩
      · rintro w r prevLogTerm prevLogIndex rest ⟨⟩
        exact hlast
      · rintro j m ⟨⟩ _ _ _ _ ⟨⟩
        exact ⟨rfl, hlast⟩
  | skips => exact ⟨{ hs with }, by rintro j m ⟨⟩⟩
  | _ => exact ⟨{ hs with sending := by rintro w r prevLogTerm prevLogIndex rest ⟨⟩ },
      by rintro j m ⟨⟩⟩

end SendersNamed

/-- The batches of its own that a node has written to its log file or is going to. -/
def ownBatches (s : Server n DB) : List (CmdBuffer n) :=
  s.logFile ++ (s.thread3.toLog ++ s.queue13.map Prod.fst)

/-- What a node has enqueued in a term is in its log file or before it. -/
def OwnLogged (leader : Fin n) (term : ℕ) (s : Server n DB) : Prop :=
  batchesOf leader term (ownBatches s) = batchesOf leader term s.enqueued

lemma Thread1Outcome.ownLogged (h : Thread1Outcome leader s s') (hs : OwnLogged leader term s) :
    OwnLogged leader term s' := by
  cases h with
  | @enqueues w r hfrom =>
      rw [OwnLogged] at hs ⊢
      show batchesOf leader term (s.logFile ++ (s.thread3.toLog ++
        (s.queue13 ++ [(w, r)]).map Prod.fst)) = batchesOf leader term (s.enqueued ++ [w])
      rw [batchesOf_append s.enqueued, ← hs, ← batchesOf_append, ownBatches, List.map_append,
        List.append_assoc, List.append_assoc]
      rfl
  | _ => exact hs

lemma Thread2Outcome.ownLogged {popped out : Outgoing n}
    (h : Thread2Outcome leader s popped s' out) (horigins : s.thread2.FromOthers leader)
    (hs : OwnLogged leader term s) : OwnLogged leader term s' := by
  cases h with
  | @logs b hfrom =>
      -- the batch is from another node
      rw [hfrom] at horigins
      have hnone : batchesOf leader term [b] = [] := by
        refine batchesOf_eq_nil fun b' hb' => .inl ?_
        rw [List.mem_singleton.1 hb']
        exact horigins
      rw [OwnLogged, ownBatches, batchesOf_append] at hs
      rw [OwnLogged, ← hs, ownBatches, batchesOf_append, batchesOf_append, hnone, List.append_nil]
  | _ => exact hs

lemma Thread3Outcome.ownLogged {out : Outgoing n} (h : Thread3Outcome i s s' out)
    (hs : OwnLogged leader term s) : OwnLogged leader term s' := by
  rw [OwnLogged, ownBatches] at hs
  rw [OwnLogged, ownBatches]
  cases h with
  | takes hidle hqueue => rwa [hidle, hqueue] at hs
  | builds hfrom => rwa [hfrom] at hs
  | sends hfrom => rwa [hfrom] at hs
  | waits hfrom => rwa [hfrom] at hs
  | counts hfrom => rwa [hfrom] at hs
  | skips => exact hs
  | commits hfrom => rwa [hfrom] at hs
  | @logs w hfrom =>
      rw [hfrom] at hs
      rw [← hs, List.append_assoc]
      rfl
  | enqueues hfrom => rwa [hfrom] at hs

/-- Node `i` takes a step: it adds the batches `fresh` to those it has enqueued and to all its
pipelines. -/
structure AddsBatches (i : Fin n) (s s' : Server n DB) (out : Outgoing n)
    (fresh : List (CmdBuffer n)) : Prop where
  unsent : ∀ j, j ≠ i → (onLink out j).flatMap Message.entries ++ unsentBatches s' j =
    unsentBatches s j ++ fresh
  enqueued : s'.enqueued = s.enqueued ++ fresh
  own : ∀ term, OwnLogged i term s → OwnLogged i term s'

lemma Thread1Outcome.addsBatches (h : Thread1Outcome i s s') :
    ∃ fresh, AddsBatches i s s' none fresh := by
  obtain ⟨fresh, hunsent, henqueued⟩ := h.unsent
  exact ⟨fresh, fun j _ => hunsent j, henqueued, fun _ hs => h.ownLogged hs⟩

lemma Thread2Outcome.addsBatches {popped out : Outgoing n} (h : Thread2Outcome i s popped s' out)
    (horigins : s.thread2.FromOthers i) : AddsBatches i s s' out [] where
  unsent := by
    intro j _
    rw [h.no_entries horigins j, List.append_nil, List.nil_append]
    cases h <;> rfl
  enqueued := by
    rw [List.append_nil]
    cases h <;> rfl
  own := fun _ hs => h.ownLogged horigins hs

lemma Thread3Outcome.addsBatches {out : Outgoing n} (h : Thread3Outcome i s s' out) :
    AddsBatches i s s' out [] where
  unsent := by
    intro j hj
    rw [h.unsent hj, List.append_nil]
  enqueued := by
    rw [List.append_nil]
    cases h <;> rfl
  own := fun _ hs => h.ownLogged hs

lemma Thread5Outcome.addsBatches {R : RocksDb DB} (h : Thread5Outcome R s s') :
    AddsBatches i s s' none [] where
  unsent := by
    intro j _
    rw [List.append_nil]
    cases h <;> rfl
  enqueued := by
    rw [List.append_nil]
    cases h <;> rfl
  own := by
    intro term hs
    cases h <;> exact hs

/-- An election moves no batch. -/
lemma addsBatches_of_election {r : RaftVars} {out : Outgoing n}
    (hentries : ∀ j, (onLink out j).flatMap Message.entries = []) :
    AddsBatches i s { s with raft := r } out [] where
  unsent := by
    intro j _
    rw [hentries j, List.append_nil]
    rfl
  enqueued := (List.append_nil _).symm
  own := fun _ hs => hs

end Steps

/-! ### Runs -/

/-- What the log files have of the batches that a leader has opened in a term. -/
structure LogsAgree (raft : Fin n → RaftVars) (leader : Fin n) (term : ℕ) (c : Cluster n DB) :
    Prop where
  origins : ClusterOrigins c
  sameLast : ∀ i, (raft i).SameLast (c.node i).raft
  named : ∀ i, SendersNamed raft i (c.node i)
  link : ∀ a b, ∀ m ∈ c.link a b, m.Names (raft a)
  own : OwnLogged leader term (c.node leader)
  kept_prefix : ∀ j, j ≠ leader →
    batchesOf leader term (kept (acceptsFrom raft j leader) (c.node j)) <+:
      batchesOf leader term (c.node leader).enqueued
  sent : ∀ j, j ≠ leader → acceptsFrom raft j leader = true →
    (c.node j).raft.currentTerm ≤ term →
      pipelineOf raft term c leader j = batchesOf leader term (c.node leader).enqueued

namespace LogsAgree

variable {R : RocksDb DB} {raft : Fin n → RaftVars} {leader : Fin n} {term : ℕ}
  {c c' : Cluster n DB} {a : ClusterAction n}

lemma start (raft : Fin n → RaftVars) (diskMap : Fin n → DB) (leader : Fin n) (term : ℕ) :
    LogsAgree raft leader term (Cluster.start raft diskMap) where
  origins := ClusterOrigins.start raft diskMap
  sameLast := fun _ => ⟨rfl, rfl⟩
  named := fun _ => ⟨by rintro m ⟨⟩, by rintro w r prevLogTerm prevLogIndex rest ⟨⟩⟩
  link := by rintro a b m ⟨⟩
  own := rfl
  kept_prefix := fun _ _ => List.nil_prefix
  sent := fun _ _ _ _ => rfl

/-- Node `k` takes a step, and takes what comes off the pipelines of others. -/
lemma of_moves {k : Fin n} {s : Server n DB} {popped out : Outgoing n}
    (hc : LogsAgree raft leader term c) (hfits : TermsFit c a)
    (hstep : clusterStep R c a = some c')
    (hmoves : Moves c k s (onLink popped) (onLink out) c') (hnamed : SendersNamed raft k s)
    (hout : ∀ j m, out = some (j, m) → m.Names (raft k))
    {fresh : List (CmdBuffer n)} (hfresh : AddsBatches k (c.node k) s out fresh)
    (hkept : k ≠ leader → batchesOf leader term (kept (acceptsFrom raft k leader) s) =
      batchesOf leader term (kept (acceptsFrom raft k leader) (c.node k)) ++
        if acceptsFrom raft k leader = true ∧ (c.node k).raft.currentTerm ≤ term then
          (onLink popped leader).flatMap fun m => batchesOf leader term m.entries
        else []) :
    LogsAgree raft leader term c' where
  origins := hc.origins.step hstep
  sameLast := by
    intro i
    have hsame := clusterStep_sameLast hstep i
    exact ⟨hsame.1.trans (hc.sameLast i).1, hsame.2.trans (hc.sameLast i).2⟩
  named := hmoves.forall_node hc.named hnamed
  link := hmoves.forall_link hc.link fun j m hm => hout j m (mem_onLink.1 hm)
  own := by
    by_cases hk : k = leader
    · subst hk
      rw [hmoves.node_self]
      exact hfresh.own term hc.own
    · rw [hmoves.node_of_ne (Ne.symm hk)]
      exact hc.own
  kept_prefix := by
    intro j hj
    by_cases hk : k = leader
    · subst hk
      rw [hmoves.node_of_ne hj, hmoves.node_self, hfresh.enqueued, batchesOf_append]
      exact (hc.kept_prefix j hj).trans (List.prefix_append _ _)
    · rw [hmoves.node_of_ne (Ne.symm hk)]
      by_cases hjk : j = k
      · subst hjk
        rw [hmoves.node_self, hkept hk]
        split
        · -- what is taken was the next thing in the pipeline
          rename_i hopen
          rw [← hc.sent j hj hopen.1 hopen.2, pipelineOf, conveyor, hmoves.link_in (Ne.symm hj),
            List.flatMap_append, List.nil_append, List.flatMap_eq_nil_iff.2 fun _ _ => rfl,
            List.nil_append, List.append_assoc, ← List.append_assoc]
          exact List.prefix_append _ _
        · rw [List.append_nil]
          exact hc.kept_prefix j hj
      · rw [hmoves.node_of_ne hjk]
        exact hc.kept_prefix j hj
  sent := by
    intro j hj hacc hle
    by_cases hk : k = leader
    · subst hk
      rw [hmoves.node_of_ne hj] at hle
      rw [hmoves.node_self, hfresh.enqueued, batchesOf_append, ← hc.sent j hj hacc hle]
      refine Network.conveyor_near Network.appends_eq hmoves hj ?_ ?_
      · rw [List.flatMap_eq_nil_iff.2 fun _ _ => rfl, List.append_nil]
      · rw [← batchesOf_flatMap, ← batchesOf_append, hfresh.unsent j hj, batchesOf_append]
    · rw [hmoves.node_of_ne (Ne.symm hk)]
      by_cases hjk : j = k
      · -- a node that has heard of no later term had not before
        subst hjk
        have hgrows := (clusterStep_raft hstep j).currentTerm_le fun ha => by
          subst ha
          exact hfits
        have hopen := hgrows.trans hle
        rw [← hc.sent j hj hacc hopen]
        refine Network.conveyor_far Network.appends_eq hmoves (Ne.symm hj) ?_
        rw [List.flatMap_eq_nil_iff.2 fun _ _ => rfl, List.nil_append, hkept hk,
          if_pos ⟨hacc, hopen⟩]
      · rw [hmoves.node_of_ne hjk] at hle
        rw [← hc.sent j hj hacc hle]
        exact Network.conveyor_of_ne _ _ _ _ _ hmoves (Ne.symm hk) hjk

theorem step (hc : LogsAgree raft leader term c) (hfits : TermsFit c a)
    (hstep : clusterStep R c a = some c') : LogsAgree raft leader term c' := by
  cases clusterStep_spec hstep with
  | @thread1 _ i s _ h hmoves =>
      obtain ⟨fresh, hfresh⟩ := h.addsBatches
      refine hc.of_moves hfits hstep hmoves ((hc.named i).congr ?_ ?_) (by rintro j m ⟨⟩) hfresh
        fun _ => ?_
      · cases h <;> rfl
      · cases h <;> rfl
      · rw [onLink_none, List.flatMap_nil, ite_self, List.append_nil]
        cases h <;> rfl
  | @thread2 _ i popped out s _ h hmoves =>
      have hpopped : ∀ j m, popped = some (j, m) → MessageFrom j i m ∧ m.Names (raft j) := by
        rintro j m rfl
        refine ⟨hc.origins.popped h hmoves rfl, hc.link j i m ?_⟩
        refine hmoves.mem_of_popped (mem_onLink.2 rfl) fun _ => ?_
        rw [h.out_eq_none, onLink_none]
      have horigins := (hc.origins.node i).thread2
      refine hc.of_moves hfits hstep hmoves ((hc.named i).of_thread2 h hpopped) ?_
        (h.addsBatches horigins) fun _ =>
          kept_of_thread2 horigins (hc.named i) (hc.sameLast i) h hpopped
      -- a reply carries no batch
      intro j m hm
      exact names_of_no_entries
        (List.flatMap_eq_nil_iff.1 (h.no_entries horigins j) m (mem_onLink.2 hm))
  | @thread3 i out s _ h hmoves =>
      obtain ⟨hnamed, hout⟩ := (hc.named i).of_thread3 (hc.sameLast i) h
      refine hc.of_moves hfits hstep hmoves hnamed hout h.addsBatches fun hi => ?_
      rw [onLink_none, List.flatMap_nil, ite_self, List.append_nil]
      exact kept_of_thread3 (hc.origins.node i).thread3 hi h
  | @thread5 i s _ h hmoves =>
      refine hc.of_moves hfits hstep hmoves ((hc.named i).congr ?_ ?_) (by rintro j m ⟨⟩)
        h.addsBatches fun _ => ?_
      · cases h <;> rfl
      · cases h <;> rfl
      · rw [onLink_none, List.flatMap_nil, ite_self, List.append_nil]
        cases h <;> rfl
  | @election _ i r out _ hout hmoves =>
      have hentries := no_entries_of_election hout
      refine hc.of_moves hfits hstep hmoves ((hc.named i).congr rfl rfl) ?_
        (addsBatches_of_election hentries) fun _ => ?_
      · intro j m hm
        exact names_of_no_entries
          (List.flatMap_eq_nil_iff.1 (hentries j) m (mem_onLink.2 hm))
      · rw [onLink_none, List.flatMap_nil, ite_self, List.append_nil]
        rfl

lemma of_run {diskMap : Fin n → DB} {as : List (ClusterAction n)}
    (hfits : Guarded (clusterStep R) TermsFit (Cluster.start raft diskMap) as)
    (hrun : run (clusterStep R) (Cluster.start raft diskMap) as = some c) :
    LogsAgree raft leader term c :=
  hfits.invariant (fun _ _ _ hc hfits hstep => hc.step hfits hstep)
    (start raft diskMap leader term) hrun

/-- A log file has a first part of the batches of the leader. -/
lemma logFile_prefix (hc : LogsAgree raft leader term c) (i : Fin n) :
    batchesOf leader term (c.node i).logFile <+:
      batchesOf leader term (c.node leader).enqueued := by
  by_cases hi : i = leader
  · subst hi
    rw [← hc.own, ownBatches, batchesOf_append]
    exact List.prefix_append _ _
  · refine List.IsPrefix.trans ?_ (hc.kept_prefix i hi)
    rw [kept, batchesOf_append]
    exact List.prefix_append _ _

end LogsAgree

/-- **Log files agree, whoever leads.**  In every run of a cluster in which no candidate steps over
the largest term, with any elections and any order of steps, every log file has of the batches that
a node has opened in a term a first part of those that the node has enqueued; so of two log files
one has a first part of what the other one has. -/
theorem logs_agree (R : RocksDb DB) (raft : Fin n → RaftVars) (diskMap : Fin n → DB)
    (as : List (ClusterAction n))
    (hfits : Guarded (clusterStep R) TermsFit (Cluster.start raft diskMap) as) {c : Cluster n DB}
    (hrun : run (clusterStep R) (Cluster.start raft diskMap) as = some c) (leader : Fin n)
    (term : ℕ) :
    (∀ i, batchesOf leader term (c.node i).logFile <+:
        batchesOf leader term (c.node leader).enqueued) ∧
      ∀ i j, batchesOf leader term (c.node i).logFile <+:
          batchesOf leader term (c.node j).logFile ∨
        batchesOf leader term (c.node j).logFile <+:
          batchesOf leader term (c.node i).logFile := by
  have hc : LogsAgree raft leader term c := .of_run hfits hrun
  exact ⟨hc.logFile_prefix, fun i j =>
    List.prefix_or_prefix_of_prefix (hc.logFile_prefix i) (hc.logFile_prefix j)⟩

/-- A follower writes and takes a batch, and another node stands for election before it reads it. -/
def standsMeanwhile (follower candidate leader : Fin n) : List (ClusterAction n) :=
  [.thread2 follower, .candidate candidate, .receive candidate leader, .thread2 follower,
    .thread5 follower]

/-- Node `1` has the first batch of node `0` in its log file, and node `2` has none. -/
theorem logs_agree_first : ∃ c,
    run (clusterStep mapDb) (Cluster.start (firstLeads (n := 3)) fun _ _ => none)
        (admitSet ++ replicateSet ++ standsMeanwhile 1 2 0) = some c ∧
      (batchesOf 0 1 (c.node 1).logFile).length = 1 ∧
        batchesOf 0 1 (c.node 2).logFile = [] ∧
          batchesOf 0 1 (c.node 1).logFile <+: batchesOf 0 1 (c.node 0).enqueued := by
  have hend : ∃ c,
      run (clusterStep mapDb) (Cluster.start (firstLeads (n := 3)) fun _ _ => none)
          (admitSet ++ replicateSet ++ standsMeanwhile 1 2 0) = some c ∧
        (batchesOf 0 1 (c.node 1).logFile).length = 1 ∧
          batchesOf 0 1 (c.node 2).logFile = [] := ⟨_, rfl, by decide +kernel, by decide +kernel⟩
  obtain ⟨c, hrun, hlength, hnil⟩ := hend
  have hagree := logs_agree mapDb firstLeads (fun _ _ => none) _ (by decide +kernel) hrun 0 1
  exact ⟨c, hrun, hlength, hnil, hagree.1 1⟩

/-! ### Stores -/

/-- `thread_5` takes, of the batches that a leader has opened in a term, what the log file has of
them, in the same order; what `thread_2` has written is from other nodes. -/
structure TakesInOrder (leader i : Fin n) (term : ℕ) (s : Server n DB)
    (taken : List (CmdBuffer n)) : Prop where
  others : ∀ b ∈ s.thread2.written, b.id.origin ≠ i
  logged : batchesOf leader term (taken ++ loggedAhead s) = batchesOf leader term s.logFile

section Stores

variable {R : RocksDb DB} {leader i : Fin n} {term : ℕ} {a : ClusterAction n} {s s' : Server n DB}
  {taken fresh : List (CmdBuffer n)}

/-- In whatever order the batches of a node and those of others stand, a leader's have the same. -/
lemma batchesOf_comm {others own : List (CmdBuffer n)} (hothers : ∀ b ∈ others, b.id.origin ≠ i)
    (hown : ∀ b ∈ own, b.id.origin = i) :
    batchesOf leader term (others ++ own) = batchesOf leader term (own ++ others) := by
  rw [batchesOf_append, batchesOf_append]
  by_cases hi : i = leader
  · subst hi
    have hnone : batchesOf i term others = [] := batchesOf_eq_nil fun b hb => .inl (hothers b hb)
    rw [hnone, List.nil_append, List.append_nil]
  · have hnone : batchesOf leader term own = [] :=
      batchesOf_eq_nil fun b hb => .inl (by rw [hown b hb]; exact hi)
    rw [hnone, List.nil_append, List.append_nil]

lemma Thread3.OwnedBy.written {t : Thread3 n} (ht : t.OwnedBy i) :
    ∀ b ∈ t.written, b.id.origin = i := by
  cases t with
  | enqueueing w =>
      intro b hb
      rw [List.mem_singleton.1 hb]
      exact ht
  | _ => rintro b ⟨⟩

lemma Thread2Outcome.written_others {popped out : Outgoing n}
    (h : Thread2Outcome i s popped s' out) (horigins : s.thread2.FromOthers i)
    (hs : ∀ b ∈ s.thread2.written, b.id.origin ≠ i) :
    ∀ b ∈ s'.thread2.written, b.id.origin ≠ i := by
  cases h with
  | discards => exact hs
  | countsVote _ _ hto =>
      rcases hto with rfl | rfl
      · rintro b ⟨⟩
      · rintro b ⟨⟩
  | @logs b hfrom =>
      rw [hfrom] at horigins
      intro b' hb'
      rw [List.mem_singleton.1 hb']
      exact horigins
  | _ => rintro b ⟨⟩

namespace TakesInOrder

lemma of_thread2 {popped out : Outgoing n} (hs : TakesInOrder leader i term s taken)
    (horigins : Origins i s) (h : Thread2Outcome i s popped s' out) :
    TakesInOrder leader i term s' taken := by
  have hlogged := hs.logged
  have hother := h.thread3_eq
  have hothers := h.written_others horigins.thread2 hs.others
  rw [loggedAhead] at hlogged
  refine ⟨hothers, ?_⟩
  cases h.logStep with
  | silent hlog hqueue hown => rw [loggedAhead, hlog, hqueue, hown, hother, hlogged]
  | @logs b _ hlog hqueue hfrom hto =>
      -- what `thread_3` has written before is of the node itself
      rw [hto] at hothers
      have hcomm : batchesOf leader term ([b] ++ s.thread3.written) =
          batchesOf leader term (s.thread3.written ++ [b]) :=
        batchesOf_comm hothers horigins.thread3.written
      rw [hfrom, List.nil_append] at hlogged
      rw [loggedAhead, hlog, hqueue, hto, hother]
      simp only [batchesOf_append] at hcomm hlogged ⊢
      rw [hcomm, ← hlogged, List.append_assoc, List.append_assoc]
  | enqueues hlog hqueue hfrom hto =>
      rw [hfrom] at hlogged
      rw [loggedAhead, hlog, hqueue, hto, hother, ← hlogged, List.nil_append, List.append_assoc]

lemma of_thread3 {out : Outgoing n} (hs : TakesInOrder leader i term s taken)
    (horigins : Origins i s) (h : Thread3Outcome i s s' out) :
    TakesInOrder leader i term s' taken := by
  have hlogged := hs.logged
  have hother := h.thread2_eq
  have hown := horigins.thread3.written
  rw [loggedAhead] at hlogged
  refine ⟨by rw [hother]; exact hs.others, ?_⟩
  cases h.logStep with
  | silent hlog hqueue hown => rw [loggedAhead, hlog, hqueue, hown, hother, hlogged]
  | logs _ hlog hqueue hfrom hto =>
      rw [hfrom, List.append_nil] at hlogged
      rw [loggedAhead, hlog, hqueue, hto, hother]
      simp only [batchesOf_append] at hlogged ⊢
      rw [← hlogged, List.append_assoc, List.append_assoc]
  | @enqueues w hlog hqueue hfrom hto =>
      -- the batch overtakes one of another node
      rw [hfrom] at hown hlogged
      have hcomm : batchesOf leader term (s.thread2.written ++ [w]) =
          batchesOf leader term ([w] ++ s.thread2.written) := batchesOf_comm hs.others hown
      rw [loggedAhead, hlog, hqueue, hto, hother, List.append_nil, ← hlogged]
      simp only [batchesOf_append] at hcomm ⊢
      rw [hcomm, List.append_assoc]

lemma step (hs : TakesInOrder leader i term s taken) (horigins : Origins i s)
    (h : NodeStep R i a s s' fresh) : TakesInOrder leader i term s' (taken ++ fresh) := by
  cases h with
  | stays => rwa [List.append_nil]
  | thread1 h =>
      obtain ⟨hlog, hthread2, hthread3, hqueue⟩ := h.loggedAhead_eq
      rw [List.append_nil]
      refine ⟨by rw [hthread2]; exact hs.others, ?_⟩
      rw [loggedAhead, hlog, hthread2, hthread3, hqueue]
      exact hs.logged
  | thread2 h =>
      rw [List.append_nil]
      exact hs.of_thread2 horigins h
  | thread3 h =>
      rw [List.append_nil]
      exact hs.of_thread3 horigins h
  | thread5 h =>
      obtain ⟨hlog, hahead, hthread2, -⟩ := h.loggedAhead_eq
      refine ⟨by rw [hthread2]; exact hs.others, ?_⟩
      rw [List.append_assoc, ← hahead, hlog]
      exact hs.logged
  | election =>
      rw [List.append_nil]
      exact { hs with }

end TakesInOrder

/-- Of the batches of a leader, a node takes those in its log file, in the same order. -/
lemma taken_isPrefix {raft : Fin n → RaftVars} {diskMap : Fin n → DB} {as : List (ClusterAction n)}
    {c : Cluster n DB} (hrun : run (clusterStep R) (Cluster.start raft diskMap) as = some c) :
    batchesOf leader term
        (trace (clusterStep R) (takenBatches i) (Cluster.start raft diskMap) as) <+:
      batchesOf leader term (c.node i).logFile := by
  have hstart : ClusterOrigins (Cluster.start raft diskMap) ∧
      TakesInOrder leader i term ((Cluster.start raft diskMap).node i) [] :=
    ⟨ClusterOrigins.start raft diskMap, by rintro b ⟨⟩, rfl⟩
  have hboth := run_invariant_trace (takenBatches i)
    (I := fun c taken => ClusterOrigins c ∧ TakesInOrder leader i term (c.node i) taken)
    (fun c taken a c' hc hstep =>
      ⟨hc.1.step hstep, hc.2.step (hc.1.node i) (clusterStep_node hstep i)⟩)
    hstart hrun
  rw [List.nil_append] at hboth
  rw [← hboth.2.logged, batchesOf_append]
  exact List.prefix_append _ _

end Stores

/-- **Stores agree, whoever leads.**  In the same runs, every `thread_5` takes the batches that a
node has opened in a term in the order in which the node has enqueued them, without a gap; so of
two stores one has been given a first part of what the other one has. -/
theorem stores_agree (R : RocksDb DB) (raft : Fin n → RaftVars) (diskMap : Fin n → DB)
    (as : List (ClusterAction n))
    (hfits : Guarded (clusterStep R) TermsFit (Cluster.start raft diskMap) as) {c : Cluster n DB}
    (hrun : run (clusterStep R) (Cluster.start raft diskMap) as = some c) (leader : Fin n)
    (term : ℕ) :
    (∀ i, batchesOf leader term
        (trace (clusterStep R) (takenBatches i) (Cluster.start raft diskMap) as) <+:
          batchesOf leader term (c.node leader).enqueued) ∧
      ∀ i j, batchesOf leader term
          (trace (clusterStep R) (takenBatches i) (Cluster.start raft diskMap) as) <+:
            batchesOf leader term
              (trace (clusterStep R) (takenBatches j) (Cluster.start raft diskMap) as) ∨
        batchesOf leader term
          (trace (clusterStep R) (takenBatches j) (Cluster.start raft diskMap) as) <+:
            batchesOf leader term
              (trace (clusterStep R) (takenBatches i) (Cluster.start raft diskMap) as) := by
  have hc : LogsAgree raft leader term c := .of_run hfits hrun
  have htaken : ∀ i, batchesOf leader term
      (trace (clusterStep R) (takenBatches i) (Cluster.start raft diskMap) as) <+:
        batchesOf leader term (c.node leader).enqueued := fun i =>
    (taken_isPrefix hrun).trans (hc.logFile_prefix i)
  exact ⟨htaken, fun i j => List.prefix_or_prefix_of_prefix (htaken i) (htaken j)⟩

/-- Node `1` takes the first batch of node `0`. -/
theorem stores_agree_first : ∃ c,
    run (clusterStep mapDb) (Cluster.start (firstLeads (n := 3)) fun _ _ => none)
        (admitSet ++ replicateSet ++ standsMeanwhile 1 2 0) = some c ∧
      (batchesOf 0 1 (trace (clusterStep mapDb) (takenBatches 1)
        (Cluster.start (firstLeads (n := 3)) fun _ _ => none)
        (admitSet ++ replicateSet ++ standsMeanwhile 1 2 0))).length = 1 ∧
        batchesOf 0 1 (trace (clusterStep mapDb) (takenBatches 1)
          (Cluster.start (firstLeads (n := 3)) fun _ _ => none)
          (admitSet ++ replicateSet ++ standsMeanwhile 1 2 0)) <+:
            batchesOf 0 1 (c.node 0).enqueued := by
  have hend : ∃ c,
      run (clusterStep mapDb) (Cluster.start (firstLeads (n := 3)) fun _ _ => none)
        (admitSet ++ replicateSet ++ standsMeanwhile 1 2 0) = some c := ⟨_, rfl⟩
  obtain ⟨c, hrun⟩ := hend
  have hagree := stores_agree mapDb firstLeads (fun _ _ => none) _ (by decide +kernel) hrun 0 1
  exact ⟨c, hrun, by decide +kernel, hagree.1 1⟩

end Oceanliner
