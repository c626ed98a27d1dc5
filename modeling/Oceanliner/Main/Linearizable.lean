/-
# A stable leader is linearizable

A client calls when `thread_1` receives its datagram, and has its answer when `thread_5` or
`thread_4_old` sends it.  In between, a SET or DELETE takes effect when `thread_5` hands it to the
store, and a GET when `thread_4_old` looks its key up.  The two threads run side by side, each
with its own queue of batches, so the leader is a service with two lanes.

`thread_4` differs from `thread_4_old` only in what it makes of the values it has found: the
answers here are the values.
-/
import Oceanliner.Lib.Linearizability
import Oceanliner.Main.Reads

open Bytes Linearizability MapOps Transition

namespace Oceanliner

variable {n : ℕ} {DB : Type}

/-! ### What clients see -/

/-- The call of a client: whether it is a GET, and where `thread_1` puts its command. -/
structure CallId (n : ℕ) where
  isGet : Bool
  place : Place n
deriving DecidableEq

/-- The call that a datagram makes: its command is put at the end of the buffer for its type. -/
def nextCall (w r : CmdBuffer n) (bytes : List UInt8) : CallId n :=
  if isGet bytes then ⟨true, ⟨r.id, r.cmdsLength⟩⟩ else ⟨false, ⟨w.id, w.cmdsLength⟩⟩

/-- What the clients of a leader see of a step. -/
def leaderEvents (s : LeaderNode n DB) : LeaderAction n →
    List (Event (CallId n) (Op (List UInt8) (List UInt8)) (Option (List UInt8)))
  | .thread1 (.datagram bytes _) =>
      match s.server.thread1 with
      | .receiving w r => [.invoke (nextCall w r bytes) (mapOp bytes)]
      | _ => []
  | .thread4 =>
      match s.thread4 with
      | .answering b processed _ result => [.respond ⟨true, ⟨b.id, processed⟩⟩ result.1]
      | _ => []
  | .thread5 =>
      match s.server.thread5 with
      | .answering b processed _ =>
          if s.server.raft.state = .leader then [.respond ⟨false, ⟨b.id, processed⟩⟩ none] else []
      | _ => []
  | _ => []

/-! ### The leader as a service -/

/-- The map of the store as a service with a lane for GETs and one for the other commands. -/
abbrev MapService (n : ℕ) :=
  Service (CallId n) (Op (List UInt8) (List UInt8)) (Option (List UInt8))
    (List UInt8 → Option (List UInt8)) Bool

/-- What a lane is asked. -/
def inLane (lane : Bool) (asked : Place n × Op (List UInt8) (List UInt8)) :
    CallId n × Op (List UInt8) (List UInt8) :=
  (⟨lane, asked.1⟩, asked.2)

/-- An effect as its client will see it. -/
def outcome (c : Completed (CallId n) (Op (List UInt8) (List UInt8)) (Option (List UInt8))) :
    CallId n × Option (List UInt8) :=
  (c.id, c.result)

/-- What `thread_4` has found and not answered. -/
def Thread4.found : Thread4 n → List (CallId n × Option (List UInt8))
  | .answering b processed _ result => [(⟨true, ⟨b.id, processed⟩⟩, result.1)]
  | _ => []

/-- What `thread_5` has applied and not answered. -/
def Thread5.done : Thread5 n → List (CallId n × Option (List UInt8))
  | .answering b processed _ => [(⟨false, ⟨b.id, processed⟩⟩, none)]
  | _ => []

/-- What `thread_5` is still asked by its batch. -/
def Thread5.ToWrite : Thread5 n → List (Place n × Op (List UInt8) (List UInt8)) → Prop
  | .idle, todo => todo = []
  | .applying b processed, todo => WriteBatch b ∧ ∃ done rest, b.commands = done ++ rest ∧
      processed = (recordBytes done).length ∧ todo = askedFrom b.id processed rest
  | .answering b processed length, todo => WriteBatch b ∧ ∃ done rest,
      b.commands = done ++ rest ∧ processed + length = (recordBytes done).length ∧
        todo = askedFrom b.id (processed + length) rest

/-- The place of a command in an open batch is before the end of what has been put there. -/
structure PlacedIn (w r : CmdBuffer n) (opened : ℕ) (called : List (CallId n)) : Prop where
  write_lt : w.id.serial < opened
  read_lt : r.id.serial < opened
  write : ∀ i ∈ called, i.isGet = false → i.place.batch = w.id → i.place.offset < w.cmdsLength
  read : ∀ i ∈ called, i.isGet = true → i.place.batch = r.id → i.place.offset < r.cmdsLength

/-- The leader does what the service does. -/
structure Serves (view : DB → List UInt8 → Option (List UInt8))
    (m : List UInt8 → Option (List UInt8)) (s : LeaderNode n DB) (σ : MapService n) : Prop where
  serving : Serving view m s
  object : σ.object = view s.server.diskMap
  reads : ∃ todo, s.thread4.ToRead todo ∧
    σ.waiting true = (todo ++ (readBatches s).flatMap CmdBuffer.asked).map (inLane true)
  writes : ∃ todo, s.server.thread5.ToWrite todo ∧
    σ.waiting false = (todo ++ (writeBatches s.server).flatMap CmdBuffer.asked).map (inLane false)
  found : (σ.unanswered true).map outcome = s.thread4.found
  done : (σ.unanswered false).map outcome = s.server.thread5.done
  opened : ∀ i ∈ σ.called, i.place.batch.serial < s.server.opened
  placed : ∀ w r, s.server.thread1.buffers = some (w, r) →
    PlacedIn w r s.server.opened σ.called

/-! ### What a step of `thread_1` asks -/

lemma asked_readBatches (s : LeaderNode n DB) : (readBatches s).flatMap CmdBuffer.asked =
    s.queue34.flatMap CmdBuffer.asked ++ (s.readCmds.toList.flatMap CmdBuffer.asked ++
      ((openBatches s.server).map Prod.snd).flatMap CmdBuffer.asked) := by
  rw [readBatches, List.flatMap_append, List.flatMap_append]

lemma asked_writeBatches (s : Server n DB) : (writeBatches s).flatMap CmdBuffer.asked =
    s.queue35.flatMap CmdBuffer.asked ++ (s.thread3.written.flatMap CmdBuffer.asked ++
      (s.thread3.toLog.flatMap CmdBuffer.asked ++
        ((openBatches s).map Prod.fst).flatMap CmdBuffer.asked)) := by
  rw [writeBatches, List.flatMap_append, List.flatMap_append, List.flatMap_append]

/-- `thread_1` drops its buffers only when the term is another one or both are empty. -/
lemma thread1Step_drops {self : Fin n} {s s' : Server n DB} {timeUp : Bool}
    (h : thread1Step self s (.tick timeUp) = some s') {w r : CmdBuffer n}
    (hfrom : s.thread1.buffers = some (w, r)) (hto : s'.thread1.buffers = none)
    (hqueue : s'.queue13 = s.queue13) :
    s.raft.currentTerm ≠ w.term ∨ (w.commands = [] ∧ r.commands = []) := by
  rw [thread1Step] at h
  cases hs : s.thread1 with
  | idle => rw [hs] at hfrom; cases hfrom
  | leaderSeen => rw [hs] at hfrom; cases hfrom
  | filling w' r' =>
      simp only [hs] at h
      split at h <;> obtain rfl := Option.some.inj h <;> cases hto
  | receiving w' r' =>
      simp only [hs] at h
      obtain rfl := Option.some.inj h
      cases hto
  | closing w' r' =>
      rw [hs] at hfrom
      obtain ⟨rfl, rfl⟩ := Prod.mk.inj (Option.some.inj hfrom)
      simp only [hs] at h
      split at h
      · rename_i hterm
        exact .inl hterm
      · split at h
        · rename_i hempty
          exact .inr ⟨CmdBuffer.commands_eq_nil hempty.1, CmdBuffer.commands_eq_nil hempty.2⟩
        · obtain rfl := Option.some.inj h
          cases hto
  | enqueueing w' r' =>
      simp only [hs] at h
      obtain rfl := Option.some.inj h
      exact absurd hqueue (by simp)

/-- Without a datagram `thread_1` asks nothing new, and drops nothing that has been asked. -/
lemma asked_tick {self : Fin n} {s s' : Server n DB} {timeUp : Bool}
    (h : thread1Step self s (.tick timeUp) = some s')
    (hterm : ∀ w r, s.thread1.buffers = some (w, r) → w.term = s.raft.currentTerm) :
    ((openBatches s').map Prod.fst).flatMap CmdBuffer.asked =
        ((openBatches s).map Prod.fst).flatMap CmdBuffer.asked ∧
      ((openBatches s').map Prod.snd).flatMap CmdBuffer.asked =
        ((openBatches s).map Prod.snd).flatMap CmdBuffer.asked := by
  have hidle : (Thread1.idle : Thread1 n).buffers = none := rfl
  rcases thread1Step_tick h with ⟨t, hto, rfl⟩ | ⟨t, hfrom, hto, rfl⟩ |
    ⟨w, r, hfrom, hwhy, rfl⟩ | ⟨w, r, enqueued, hfrom, rfl⟩
  · simp [openBatches, hto]
  · simp [openBatches, hfrom, hto, CmdBuffer.asked, thread1Open, askedFrom]
  · obtain ⟨hw, hr⟩ := (thread1Step_drops h hfrom rfl rfl).resolve_left
      fun hne => hne (hterm w r hfrom).symm
    simp [openBatches, hfrom, hidle, CmdBuffer.asked, hw, hr, askedFrom]
  · simp [openBatches, hfrom, hidle]

/-! ### Each step of the leader is one of the service -/

/-- A move of the service that carries out the operations on the map. -/
def mapServiceStep (σ : MapService n) :
    Move (CallId n) (Op (List UInt8) (List UInt8)) Bool → Option (MapService n) :=
  Service.step CallId.isGet MapOps.call σ

namespace Serves

variable {R : RocksDb DB} {view : DB → List UInt8 → Option (List UInt8)}
  {m : List UInt8 → Option (List UInt8)} {self : Fin n} {s s' : LeaderNode n DB}
  {σ σ' : MapService n}

lemma start (view : DB → List UInt8 → Option (List UInt8)) {raft : RaftVars}
    (hleader : raft.state = .leader) (diskMap : DB) :
    Serves view (view diskMap) (LeaderNode.start raft diskMap : LeaderNode n DB)
      (.start (view diskMap)) where
  serving := .start view hleader diskMap
  object := rfl
  reads := ⟨[], rfl, rfl⟩
  writes := ⟨[], rfl, rfl⟩
  found := rfl
  done := rfl
  opened := by rintro i ⟨⟩
  placed := by rintro w r ⟨⟩

/-- A step of `thread_1`: each lane waits for what it has waited for, and for what is new. -/
lemma of_thread1 (hs : Serves view m s σ) {t : Thread1 n}
    {queue13 : List (CmdBuffer n × CmdBuffer n)} {opened : ℕ} {enqueued : List (CmdBuffer n)}
    {admitted : List (List UInt8)} {received : List (ReceivedGet n)}
    (hs' : s' = { s with
      server := { s.server with
        thread1 := t, queue13 := queue13, opened := opened, enqueued := enqueued
        admitted := admitted }
      received := received })
    (hserving : Serving view m s') (hobject : σ'.object = σ.object)
    (hunanswered : σ'.unanswered = σ.unanswered)
    (newReads newWrites : List (Place n × Op (List UInt8) (List UInt8)))
    (hreads : σ'.waiting true = σ.waiting true ++ newReads.map (inLane true))
    (hreads' : ((queue13 ++ t.buffers.toList).map Prod.snd).flatMap CmdBuffer.asked =
      ((openBatches s.server).map Prod.snd).flatMap CmdBuffer.asked ++ newReads)
    (hwrites : σ'.waiting false = σ.waiting false ++ newWrites.map (inLane false))
    (hwrites' : ((queue13 ++ t.buffers.toList).map Prod.fst).flatMap CmdBuffer.asked =
      ((openBatches s.server).map Prod.fst).flatMap CmdBuffer.asked ++ newWrites)
    (hopened : ∀ i ∈ σ'.called, i.place.batch.serial < opened)
    (hplaced : ∀ w r, t.buffers = some (w, r) → PlacedIn w r opened σ'.called) :
    Serves view m s' σ' := by
  subst hs'
  obtain ⟨todo, htodo, hwaiting⟩ := hs.reads
  obtain ⟨todo', htodo', hwaiting'⟩ := hs.writes
  exact
    { serving := hserving
      object := hobject.trans hs.object
      reads := by
        refine ⟨todo, htodo, ?_⟩
        rw [hreads, hwaiting, asked_readBatches, asked_readBatches]
        show _ = (todo ++ (_ ++ (_ ++
          ((queue13 ++ t.buffers.toList).map Prod.snd).flatMap CmdBuffer.asked))).map _
        rw [hreads']
        simp only [List.map_append, List.append_assoc]
      writes := by
        refine ⟨todo', htodo', ?_⟩
        rw [hwrites, hwaiting', asked_writeBatches, asked_writeBatches]
        show _ = (todo' ++ (_ ++ (_ ++ (_ ++
          ((queue13 ++ t.buffers.toList).map Prod.fst).flatMap CmdBuffer.asked)))).map _
        rw [hwrites']
        simp only [List.map_append, List.append_assoc]
      found := by
        rw [hunanswered]
        exact hs.found
      done := by
        rw [hunanswered]
        exact hs.done
      opened := hopened
      placed := hplaced }

lemma of_tick (hs : Serves view m s σ) {timeUp : Bool} {server : Server n DB}
    (h : thread1Step self s.server (.tick timeUp) = some server)
    (hserving : Serving view m { s with server := server }) :
    Serves view m { s with server := server } σ := by
  obtain ⟨hwrites, hreads⟩ := asked_tick h hs.serving.term
  rw [← List.append_nil (((openBatches s.server).map Prod.fst).flatMap CmdBuffer.asked)] at hwrites
  rw [← List.append_nil (((openBatches s.server).map Prod.snd).flatMap CmdBuffer.asked)] at hreads
  have hnil : ∀ lane, σ.waiting lane = σ.waiting lane ++ [].map (inLane lane) := fun lane =>
    (List.append_nil _).symm
  rcases thread1Step_tick h with ⟨t, hto, rfl⟩ | ⟨t, hfrom, hto, rfl⟩ |
    ⟨w, r, hfrom, hwhy, rfl⟩ | ⟨w, r, enqueued, hfrom, rfl⟩
  · refine hs.of_thread1 rfl hserving rfl rfl [] [] (hnil true) hreads (hnil false) hwrites
      hs.opened ?_
    intro w r hbuffers
    exact hs.placed w r (hto ▸ hbuffers)
  · refine hs.of_thread1 rfl hserving rfl rfl [] [] (hnil true) hreads (hnil false) hwrites
      (fun i hi => Nat.lt_succ_of_lt (hs.opened i hi)) ?_
    -- what has been called is in earlier batches
    have hearlier : ∀ i ∈ σ.called, i.place.batch ≠ ⟨self, s.server.opened⟩ := by
      intro i hi hbatch
      have hlt := hs.opened i hi
      rw [hbatch] at hlt
      exact absurd hlt (lt_irrefl _)
    exact Thread1.forall_buffers hto
      { write_lt := Nat.lt_succ_self _
        read_lt := Nat.lt_succ_self _
        write := fun i hi _ hbatch => absurd hbatch (hearlier i hi)
        read := fun i hi _ hbatch => absurd hbatch (hearlier i hi) }
  · exact hs.of_thread1 rfl hserving rfl rfl [] [] (hnil true) hreads (hnil false) hwrites
      hs.opened (by rintro w' r' ⟨⟩)
  · exact hs.of_thread1 rfl hserving rfl rfl [] [] (hnil true) hreads (hnil false) hwrites
      hs.opened (by rintro w' r' ⟨⟩)

lemma of_datagram (hs : Serves view m s σ) {bytes : List UInt8} {memory : ℕ → UInt8}
    {server : Server n DB} (hbytes : WellFormed bytes)
    (h : thread1Step self s.server (.datagram bytes memory) = some server)
    {received : List (ReceivedGet n)}
    (hserving : Serving view m { s with server := server, received := received }) :
    ∃ move σ', mapServiceStep σ move = some σ' ∧
      Service.emit σ move = leaderEvents s (.thread1 (.datagram bytes memory)) ∧
      Serves view m { s with server := server, received := received } σ' := by
  obtain ⟨w, r, w', r', t, admitted, c, hfrom, hto, rfl, hop, -, hwhich⟩ :=
    thread1Step_datagram hbytes h
  have hbuffers : s.server.thread1.buffers = some (w, r) := by rw [hfrom]; rfl
  have hplaced := hs.placed w r hbuffers
  -- a call is the place of its command, and the place behind a batch is new
  have hnew : nextCall w r bytes ∉ σ.called := by
    intro hmem
    rw [nextCall] at hmem
    split at hmem
    · exact lt_irrefl _ (hplaced.read _ hmem rfl rfl)
    · exact lt_irrefl _ (hplaced.write _ hmem rfl rfl)
  have hpush : ∀ b : CmdBuffer n, b.cmdsLength < (b.push c.toKvsRecord).cmdsLength := by
    intro b
    have hr := c.toKvsRecord.thirtyTwo_le_length
    rw [CmdBuffer.cmdsLength_push]
    omega
  refine ⟨.invoke (nextCall w r bytes) (mapOp bytes), _, if_neg hnew, ?_, ?_⟩
  · rw [leaderEvents, hfrom]
    rfl
  have hasked : ∀ b : CmdBuffer n, (b.push c.toKvsRecord).asked =
      b.asked ++ [(⟨b.id, b.cmdsLength⟩, mapOp bytes)] := by
    intro b
    rw [CmdBuffer.asked_push, hop, ← c.mapOp_bytes]
  have hopen : openBatches s.server = s.server.queue13 ++ [(w, r)] := by
    rw [openBatches, hbuffers, Option.toList_some]
  have hcalled : ∀ i ∈ σ.called ++ [nextCall w r bytes], i ∈ σ.called ∨ i = nextCall w r bytes := by
    intro i hi
    rw [List.mem_append, List.mem_singleton] at hi
    exact hi
  rcases hwhich with ⟨hisGet, -, -, rfl, rfl⟩ | ⟨hisGet, -, -, rfl, rfl⟩
  · -- a GET goes to the read batch
    have hcall : nextCall w' r bytes = ⟨true, ⟨r.id, r.cmdsLength⟩⟩ := by rw [nextCall, hisGet]; rfl
    rw [hcall] at hcalled ⊢
    refine hs.of_thread1 rfl hserving rfl rfl [(⟨r.id, r.cmdsLength⟩, mapOp bytes)] []
      ?_ ?_ ?_ ?_ ?_ (Thread1.forall_buffers hto ?_)
    · show Function.update σ.waiting true _ true = _
      rw [Function.update_self]
      rfl
    · rw [hopen, hto, Option.toList_some]
      simp [hasked]
    · rw [List.map_nil, List.append_nil]
      exact Service.waiting_afterInvoke_of_ne σ _ Bool.false_ne_true
    · rw [hopen, hto, Option.toList_some]
      simp
    · intro i hi
      rcases hcalled i hi with hi | rfl
      · exact hs.opened i hi
      · exact hplaced.read_lt
    · refine ⟨hplaced.write_lt, hplaced.read_lt, ?_, ?_⟩
      · intro i hi hlane hbatch
        rcases hcalled i hi with hi | rfl
        · exact hplaced.write i hi hlane hbatch
        · cases hlane
      · intro i hi hlane hbatch
        rcases hcalled i hi with hi | rfl
        · exact (hplaced.read i hi hlane hbatch).trans (hpush r)
        · exact hpush r
  · -- a SET or DELETE goes to the write batch
    have hcall : nextCall w r' bytes = ⟨false, ⟨w.id, w.cmdsLength⟩⟩ := by
      rw [nextCall, hisGet]; rfl
    rw [hcall] at hcalled ⊢
    refine hs.of_thread1 rfl hserving rfl rfl [] [(⟨w.id, w.cmdsLength⟩, mapOp bytes)]
      ?_ ?_ ?_ ?_ ?_ (Thread1.forall_buffers hto ?_)
    · rw [List.map_nil, List.append_nil]
      exact Service.waiting_afterInvoke_of_ne σ _ Bool.false_ne_true.symm
    · rw [hopen, hto, Option.toList_some]
      simp
    · show Function.update σ.waiting false _ false = _
      rw [Function.update_self]
      rfl
    · rw [hopen, hto, Option.toList_some]
      simp [hasked]
    · intro i hi
      rcases hcalled i hi with hi | rfl
      · exact hs.opened i hi
      · exact hplaced.write_lt
    · refine ⟨hplaced.write_lt, hplaced.read_lt, ?_, ?_⟩
      · intro i hi hlane hbatch
        rcases hcalled i hi with hi | rfl
        · exact (hplaced.write i hi hlane hbatch).trans (hpush w)
        · exact hpush w
      · intro i hi hlane hbatch
        rcases hcalled i hi with hi | rfl
        · exact hplaced.read i hi hlane hbatch
        · cases hlane

/-- `thread_3` passes the batches on as they are. -/
lemma of_thread3 (hs : Serves view m s σ) (h : leaderThread3Step self s = some s')
    (hserving : Serving view m s') : Serves view m s' σ := by
  obtain ⟨todo, htodo, hreads⟩ := hs.reads
  obtain ⟨todo', htodo', hwrites⟩ := hs.writes
  rcases leaderThread3Step_spec h with ⟨w, r, rest, hidle, hqueue, rfl⟩ | ⟨w, r, hfrom, hr, rfl⟩ |
    ⟨server, out, hout, hnotidle, hnone, rfl⟩
  · have hbatches : readBatches { s with
        server := { s.server with thread3 := .building w r, queue13 := rest }
        readCmds := some r } = readBatches s := by
      simp [readBatches, openBatches, hqueue, hs.serving.idle hidle]
    have htakes : Thread3Outcome self s.server
        { s.server with thread3 := .building w r, queue13 := rest } none :=
      .takes hidle hqueue
    rw [← hbatches] at hreads
    rw [← htakes.writeBatches_eq] at hwrites
    exact { hs with
      serving := hserving
      reads := ⟨todo, htodo, hreads⟩
      writes := ⟨todo', htodo', hwrites⟩ }
  · have hbatches : readBatches { s with readCmds := none, queue34 := s.queue34 ++ [r] } =
        readBatches s := by
      simp [readBatches, hr]
    rw [← hbatches] at hreads
    exact { hs with
      serving := hserving
      reads := ⟨todo, htodo, hreads⟩ }
  · rw [← hout.writeBatches_eq] at hwrites
    cases hout with
    | takes hidle => exact absurd hidle hnotidle
    | builds => exact { hs with serving := hserving, writes := ⟨todo', htodo', hwrites⟩ }
    | sends => exact { hs with serving := hserving, writes := ⟨todo', htodo', hwrites⟩ }
    | waits => exact { hs with serving := hserving, writes := ⟨todo', htodo', hwrites⟩ }
    | counts => exact { hs with serving := hserving, writes := ⟨todo', htodo', hwrites⟩ }
    | skips => exact { hs with serving := hserving }
    | commits => exact { hs with serving := hserving, writes := ⟨todo', htodo', hwrites⟩ }
    | logs => exact { hs with serving := hserving, writes := ⟨todo', htodo', hwrites⟩ }
    | enqueues => exact { hs with serving := hserving, writes := ⟨todo', htodo', hwrites⟩ }

section Ideal

variable (hR : R.Ideal view)

include hR

/-- `thread_4` looks the oldest GET up, or answers it. -/
lemma of_thread4 (hs : Serves view m s σ) (h : thread4Step R s = some s') :
    ∃ moves σ', run mapServiceStep σ moves = some σ' ∧
      trace mapServiceStep Service.emit σ moves = leaderEvents s .thread4 ∧ Serves view m s' σ' := by
  have hserving := hs.serving.of_thread4 hR h
  obtain ⟨todo, htodo, hwaiting⟩ := hs.reads
  have hfound := hs.found
  rw [thread4Step] at h
  split at h
  · rename_i hidle
    rw [leaderEvents, hidle]
    split at h
    · cases h
    · rename_i b rest hqueue
      obtain rfl := Option.some.inj h
      rw [hidle] at htodo hfound
      obtain rfl := htodo
      have hbatches : readBatches s =
          b :: readBatches { s with thread4 := .reading b 0, queue34 := rest } := by
        simp [readBatches, hqueue]
      have hb : ReadBatch b := hs.serving.reads b (by rw [hbatches]; exact List.mem_cons_self)
      rw [hbatches] at hwaiting
      exact ⟨[], σ, rfl, rfl, { hs with
        serving := hserving
        reads := ⟨b.asked, ⟨hb, [], b.commands, rfl, rfl, rfl⟩, hwaiting⟩
        found := hfound }⟩
  · rename_i b processed hfrom
    rw [leaderEvents, hfrom]
    rw [hfrom] at htodo hfound
    obtain ⟨hb, before, rest, hcommands, rfl, rfl⟩ := htodo
    split at h
    · rename_i hlt
      obtain ⟨⟨key, length⟩, hcommand, rfl⟩ := Option.map_eq_some_iff.1 h
      obtain ⟨r, rest', rfl⟩ := exists_next hcommands hlt
      obtain ⟨hop, rfl⟩ := thread4Command_eq hb hcommands hcommand
      rw [askedFrom, hop, List.cons_append, List.map_cons, inLane] at hwaiting
      -- the GET takes effect when the store is read
      have hmove : mapServiceStep σ (.effect true) = _ := Service.step_effect hwaiting
      refine ⟨[.effect true], _, run_singleton hmove, trace_singleton hmove, ?_⟩
      have hresult : (MapOps.call σ.object (.get key)).2 =
          (kvStoreGet R s.server.diskMap key).1 := by
        rw [kvStoreGet_view hR, ← hs.object]
        rfl
      exact { hs with
        serving := hserving
        object := hs.object
        reads := by
          refine ⟨askedFrom b.id _ rest', ⟨hb, before ++ [r], rest', ?_, ?_, rfl⟩,
            Service.waiting_afterEffect_self σ _ _ _ _⟩
          · rw [hcommands, List.append_assoc]
            rfl
          · exact (length_recordBytes_concat before r).symm
        writes := by
          rw [Service.waiting_afterEffect_of_ne σ Bool.false_ne_true]
          exact hs.writes
        found := by
          rw [Service.unanswered_afterEffect_self, List.map_append, hfound]
          show [] ++ [(_, (MapOps.call σ.object (.get key)).2)] = _
          rw [hresult]
          rfl
        done := by
          rw [Service.unanswered_afterEffect_of_ne σ Bool.false_ne_true]
          exact hs.done }
    · rename_i hend
      obtain rfl := Option.some.inj h
      obtain rfl := rest_eq_nil hcommands (Nat.le_of_not_lt hend)
      exact ⟨[], σ, rfl, rfl, { hs with
        serving := hserving
        reads := ⟨[], rfl, hwaiting⟩
        found := hfound }⟩
  · rename_i b processed length result hfrom
    rw [leaderEvents, hfrom]
    rw [hfrom] at htodo hfound
    split at h
    · obtain rfl := Option.some.inj h
      obtain ⟨c, rest, hc, houtcome, hrest⟩ := List.map_eq_cons_iff.1 hfound
      obtain rfl := List.map_eq_nil_iff.1 hrest
      obtain ⟨hid, hresult⟩ := Prod.mk.inj houtcome
      -- what was found then is what the client is told
      have hmove : mapServiceStep σ (.respond true) = _ := Service.step_respond hc
      refine ⟨[.respond true], _, run_singleton hmove, ?_, ?_⟩
      · rw [trace_singleton hmove, Service.emit, hc]
        show [Event.respond c.id c.result] = _
        rw [hid, hresult]
      exact { hs with
        serving := hserving
        reads := ⟨todo, htodo, hwaiting⟩
        found := by
          rw [Service.unanswered_afterRespond_self]
          rfl
        done := by
          rw [Service.unanswered_afterRespond_of_ne σ Bool.false_ne_true]
          exact hs.done }
    · cases h

/-- `thread_5` applies the oldest SET or DELETE, or answers it. -/
lemma of_thread5 (hs : Serves view m s σ) {server : Server n DB}
    (h : thread5Step R s.server = some server) :
    ∃ moves σ', run mapServiceStep σ moves = some σ' ∧
      trace mapServiceStep Service.emit σ moves = leaderEvents s .thread5 ∧
        Serves view m { s with server := server } σ' := by
  have hserving := hs.serving.of_thread5 hR h
  obtain ⟨todo, htodo, hwaiting⟩ := hs.writes
  have hdone := hs.done
  have hsilent := h
  cases thread5Step_spec h with
  | @takes b rest hidle hqueue =>
      rw [leaderEvents, hidle]
      rw [hidle] at htodo hdone
      obtain rfl := htodo
      have hbatches : writeBatches s.server =
          b :: writeBatches { s.server with thread5 := .applying b 0, queue35 := rest } := by
        simp only [writeBatches, hqueue]
        rfl
      have hb : WriteBatch b := hs.serving.writes b (by rw [hbatches]; exact List.mem_cons_self)
      rw [hbatches] at hwaiting
      exact ⟨[], σ, rfl, rfl, { hs with
        serving := hserving
        writes := ⟨b.asked, ⟨hb, [], b.commands, rfl, rfl, rfl⟩, hwaiting⟩
        done := hdone }⟩
  | @applies b processed length diskMap hfrom hlt hcommand =>
      rw [leaderEvents, hfrom]
      rw [hfrom] at htodo hdone
      obtain ⟨hb, before, rest, hcommands, rfl, rfl⟩ := htodo
      obtain ⟨r, rest', rfl, -, rfl⟩ := applies_next hcommands hlt hcommand
      have hview := thread5Command_view hR hb hcommands hcommand
      rw [askedFrom, List.cons_append, List.map_cons, inLane] at hwaiting
      -- the write takes effect when the store is changed
      have hmove : mapServiceStep σ (.effect false) = _ := Service.step_effect hwaiting
      have hresult : (MapOps.call σ.object (mapOp r.bytes)).2 = none := by
        obtain ⟨c, rfl, hc⟩ := hb.commands r (by rw [hcommands]; simp)
        rw [c.mapOp_bytes, MapCommand.toOp]
        cases hop : c.op with
        | nop => exact absurd hop c.op_ne
        | get => exact absurd hop hc
        | set => rfl
        | delete => rfl
      refine ⟨[.effect false], _, run_singleton hmove, trace_singleton hmove, ?_⟩
      exact { hs with
        serving := hserving
        object := by
          show MapOps.apply σ.object (mapOp r.bytes) = _
          rw [hs.object, hview]
        reads := by
          rw [Service.waiting_afterEffect_of_ne σ Bool.false_ne_true.symm]
          exact hs.reads
        writes := by
          refine ⟨askedFrom b.id _ rest', ⟨hb, before ++ [r], rest', ?_, ?_, rfl⟩,
            Service.waiting_afterEffect_self σ _ _ _ _⟩
          · rw [hcommands, List.append_assoc]
            rfl
          · exact (length_recordBytes_concat before r).symm
        found := by
          rw [Service.unanswered_afterEffect_of_ne σ Bool.false_ne_true.symm]
          exact hs.found
        done := by
          rw [Service.unanswered_afterEffect_self, List.map_append, hdone]
          show [] ++ [(_, (MapOps.call σ.object (mapOp r.bytes)).2)] = _
          rw [hresult]
          rfl }
  | @finishes b processed hfrom hend =>
      rw [leaderEvents, hfrom]
      rw [hfrom] at htodo hdone
      obtain ⟨hb, before, rest, hcommands, hprocessed, rfl⟩ := htodo
      obtain rfl := rest_eq_nil hcommands (hend.symm.trans hprocessed).le
      exact ⟨[], σ, rfl, rfl, { hs with
        serving := hserving
        writes := ⟨[], rfl, hwaiting⟩
        done := hdone }⟩
  | @answers b processed length hfrom hleader =>
      rw [leaderEvents, hfrom]
      rw [hfrom] at htodo hdone
      obtain ⟨c, rest, hc, houtcome, hrest⟩ := List.map_eq_cons_iff.1 hdone
      obtain rfl := List.map_eq_nil_iff.1 hrest
      obtain ⟨hid, hresult⟩ := Prod.mk.inj houtcome
      have hmove : mapServiceStep σ (.respond false) = _ := Service.step_respond hc
      refine ⟨[.respond false], _, run_singleton hmove, ?_, ?_⟩
      · rw [trace_singleton hmove, Service.emit, hc]
        show [Event.respond c.id c.result] = if s.server.raft.state = .leader then _ else _
        rw [hid, hresult, if_pos hleader]
      exact { hs with
        serving := hserving
        writes := ⟨todo, htodo, hwaiting⟩
        found := by
          rw [Service.unanswered_afterRespond_of_ne σ Bool.false_ne_true.symm]
          exact hs.found
        done := by
          rw [Service.unanswered_afterRespond_self]
          rfl }
  | keepsSilent hfrom =>
      -- a leader answers
      rw [thread5Step, hfrom] at hsilent
      simp [hs.serving.leads] at hsilent

/-- **The leader does what a service with two lanes does.** -/
theorem step (hs : Serves view m s σ) {a : LeaderAction n} (ha : a.WellFormed)
    (h : leaderStep R self s a = some s') :
    ∃ moves σ', run mapServiceStep σ moves = some σ' ∧
      trace mapServiceStep Service.emit σ moves = leaderEvents s a ∧ Serves view m s' σ' := by
  have hserving := hs.serving.step hR ha h
  cases a with
  | thread1 event =>
      obtain ⟨server, hstep, rfl⟩ := Option.map_eq_some_iff.1 h
      cases event with
      | tick timeUp =>
          rw [receivedGet, List.append_nil] at hserving ⊢
          exact ⟨[], σ, rfl, rfl, hs.of_tick hstep hserving⟩
      | datagram bytes memory =>
          obtain ⟨move, σ', hmove, hemit, hσ'⟩ := hs.of_datagram ha hstep hserving
          exact ⟨[move], σ', run_singleton hmove, (trace_singleton hmove).trans hemit, hσ'⟩
  | ok ok =>
      obtain rfl := Option.some.inj h
      exact ⟨[], σ, rfl, rfl, { hs with serving := hserving }⟩
  | thread3 => exact ⟨[], σ, rfl, rfl, hs.of_thread3 h hserving⟩
  | thread4 => exact hs.of_thread4 hR h
  | thread5 =>
      obtain ⟨server, hstep, rfl⟩ := Option.map_eq_some_iff.1 h
      exact hs.of_thread5 hR hstep

end Ideal

end Serves

/-- **A stable leader is linearizable.**  In every run of a leader in one term that receives
well-formed datagrams, however its threads are interleaved, the calls and answers are a history
that some sequential execution on a map explains: no command is answered twice, none before it
has been received, and every answer is the one the map gives when the commands are carried out
one at a time, in an order in which what was answered comes before what was called later. -/
theorem leader_linearizable (R : RocksDb DB) {view : DB → List UInt8 → Option (List UInt8)}
    (hR : R.Ideal view) (self : Fin n) (raft : RaftVars) (hleader : raft.state = .leader)
    (diskMap : DB) (as : List (LeaderAction n)) (has : ∀ a ∈ as, a.WellFormed)
    {s : LeaderNode n DB}
    (hrun : run (leaderStep R self) (LeaderNode.start raft diskMap) as = some s) :
    Proper (trace (leaderStep R self) leaderEvents (LeaderNode.start raft diskMap) as) ∧
      Linearizable MapOps.call (view diskMap)
        (trace (leaderStep R self) leaderEvents (LeaderNode.start raft diskMap) as) := by
  have hstep : ∀ s σ a s', Serves view (view diskMap) s σ → a.WellFormed →
      leaderStep R self s a = some s' → ∃ moves σ', run mapServiceStep σ moves = some σ' ∧
        trace mapServiceStep Service.emit σ moves = leaderEvents s a ∧
        Serves view (view diskMap) s' σ' := fun s σ a s' hs ha h => hs.step hR ha h
  obtain ⟨moves, σ, hmoves, htrace, -⟩ := (Guarded.of_forall has).simulation hstep
    (Serves.start view hleader diskMap) hrun
  rw [← htrace]
  exact Service.linearizable hmoves

/-- A SET and then a GET of its key, both answered. -/
theorem leader_linearizable_set : ∃ s,
    run (leaderStep mapDb (0 : Fin 3)) (LeaderNode.start (firstLeads (0 : Fin 3)) fun _ => none)
        (commitDatagram (shortBytes 2) ++ [.thread5, .thread5, .thread5, .thread4, .thread4] ++
          commitDatagram (shortBytes 1) ++ [.thread4, .thread4, .thread4]) = some s ∧
      Proper (trace (leaderStep mapDb (0 : Fin 3)) leaderEvents
        (LeaderNode.start (firstLeads (0 : Fin 3)) fun _ => none)
        (commitDatagram (shortBytes 2) ++ [.thread5, .thread5, .thread5, .thread4, .thread4] ++
          commitDatagram (shortBytes 1) ++ [.thread4, .thread4, .thread4])) ∧
      Linearizable MapOps.call (fun _ => none) (trace (leaderStep mapDb (0 : Fin 3)) leaderEvents
        (LeaderNode.start (firstLeads (0 : Fin 3)) fun _ => none)
        (commitDatagram (shortBytes 2) ++ [.thread5, .thread5, .thread5, .thread4, .thread4] ++
          commitDatagram (shortBytes 1) ++ [.thread4, .thread4, .thread4])) :=
  ⟨_, rfl, leader_linearizable mapDb mapDb_ideal 0 (firstLeads (0 : Fin 3)) rfl (fun _ => none)
    (commitDatagram (shortBytes 2) ++ [.thread5, .thread5, .thread5, .thread4, .thread4] ++
      commitDatagram (shortBytes 1) ++ [.thread4, .thread4, .thread4])
    (by decide +kernel) rfl⟩

end Oceanliner
