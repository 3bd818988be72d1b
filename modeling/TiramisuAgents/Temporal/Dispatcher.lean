import TiramisuAgents.Events.Outbox
import TiramisuAgents.Library.Tables
import TiramisuAgents.Library.Transactions

/-!
The delivery of the outbox: `TemporalOutboxDispatcher.dispatch_one` (`temporal/dispatcher.py`) and
`OutboxRecoveryService.requeue` (`events/outbox_recovery.py`).

A dispatcher claims a message, starts the workflow with the signal of the message, and marks the
message in a transaction of its own.  Between these it may stop.  The claim reads, locks and writes
one row in one transaction, and so does a requeue; the other two updates are single statements, so
each of them is one step.  The producers add their messages when they commit.

* `Dispatcher`, `ClaimedMessage`: a dispatcher and what it has claimed.
* `Call`, `Stage`, `Answer`, `DeliveryEvent`: the calls, where they stand, what they are told, and
  what is observed.
* `Database.claimable`, `claimRow`, `publishRow`, `Dispatcher.failRow`, `requeueRow`: the query and
  the updates.
* `dispatchers`: the code.
-/

namespace TiramisuAgents.Temporal

open Events Tables

/-! ### Rows -/

/-- What requeue uses of a `RequeueOutboxInput`. -/
structure RequeueOutboxInput where
  commandId : UUID
  outboxMessageId : UUID
  actorId : UUID
  reason : String
  deriving DecidableEq, Repr

/-- A row of `outbox_recovery_commands`. -/
structure RecoveryRow where
  id : UUID
  outboxMessageId : UUID
  actorId : UUID
  reason : String
  previousAttemptCount : ℕ
  previousError : Option String
  previousDeadLetteredAt : Option Time
  deriving DecidableEq, Repr

/-- The rows of a tenant. -/
structure Database where
  outbox : List OutboxMessage := []
  recoveries : List RecoveryRow := []

/-! ### Dispatchers -/

/-- A `TemporalOutboxDispatcher`, with the processes of its deployment release. -/
structure Dispatcher where
  maxAttempts : ℤ := 5
  staleClaimAfter : Time := 300000000
  retryBaseDelay : Time := 5000000
  processes : List UUID
  deriving DecidableEq, Repr

/-- `ClaimedMessage`. -/
structure ClaimedMessage where
  id : UUID
  processInstanceId : UUID
  messageType : String
  destination : String
  payload : Payload
  attemptCount : ℕ
  claimToken : UUID
  deriving DecidableEq, Repr

/-- The message types that a dispatcher claims. -/
def temporalMessageTypes : List String :=
  ["temporal.process_event", "temporal.process_review", "temporal.action_resolution",
    "temporal.process_control"]

/-- The condition of the query in `_claim`. -/
def Dispatcher.eligible (d : Dispatcher) (now : Time) (m : OutboxMessage) : Bool :=
  m.processInstanceId.any (· ∈ d.processes) && m.messageType ∈ temporalMessageTypes &&
    decide (m.availableAt ≤ now) &&
    (m.status = .pending ||
      m.status = .publishing && m.claimedAt.any (· < now - d.staleClaimAfter))

/-- The first row in the order of `available_at`; of equal ones, the first created. -/
def earliest : List OutboxMessage → Option OutboxMessage
  | [] => none
  | m :: rest =>
      match earliest rest with
      | none => some m
      | some m' => if m'.availableAt < m.availableAt then some m' else some m

lemma earliest_mem {rows : List OutboxMessage} {m : OutboxMessage} (h : earliest rows = some m) :
    m ∈ rows := by
  induction rows with
  | nil => cases h
  | cons m₀ rest ih =>
      rw [earliest] at h
      split at h
      · cases h
        exact List.mem_cons_self
      · rename_i m' hrest
        split_ifs at h
        · cases h
          exact List.mem_cons_of_mem _ (ih hrest)
        · cases h
          exact List.mem_cons_self

/-- The message that `_claim` selects: the first that is available, among those that no other
transaction has locked; the rows are in the order of their creation. -/
def Database.claimable (db : Database) (d : Dispatcher) (now : Time) (locked : List UUID) :
    Option OutboxMessage :=
  earliest (db.outbox.filter fun m => d.eligible now m && !(m.id ∈ locked))

/-! ### Updates -/

/-- What `_claim` writes. -/
def claimRow (now : Time) (token : UUID) (m : OutboxMessage) : OutboxMessage :=
  { m with
    status := .publishing
    claimedAt := some now
    claimToken := some token
    attemptCount := m.attemptCount + 1 }

/-- What `dispatch_one` writes after the workflow has taken the signal. -/
def publishRow (now : Time) (m : OutboxMessage) : OutboxMessage :=
  { m with
    status := .published
    publishedAt := some now
    deadLetteredAt := none
    claimedAt := none
    claimToken := none
    lastError := none }

/-- The failure of a claim is final. -/
def Dispatcher.terminal (d : Dispatcher) (c : ClaimedMessage) : Bool :=
  d.maxAttempts ≤ c.attemptCount

/-- What `_record_failure` writes. -/
def Dispatcher.failRow (d : Dispatcher) (c : ClaimedMessage) (error : String) (now later : Time)
    (m : OutboxMessage) : OutboxMessage :=
  { m with
    status := if d.terminal c then .deadLetter else .pending
    claimedAt := none
    claimToken := none
    lastError := some (error.take 2000).toString
    availableAt := if d.terminal c then now else now + d.retryBaseDelay * 2 ^ (c.attemptCount - 1)
    deadLetteredAt := if d.terminal c then some later else none }

/-- What `requeue` writes. -/
def requeueRow (now : Time) (m : OutboxMessage) : OutboxMessage :=
  { m with
    status := .pending
    availableAt := now
    attemptCount := 0
    claimedAt := none
    claimToken := none
    lastError := none
    publishedAt := none
    deadLetteredAt := none }

/-- The row is still claimed under the token: the condition of both updates of a dispatcher. -/
def ClaimedMessage.holds (c : ClaimedMessage) (m : OutboxMessage) : Bool :=
  m.id = c.id && m.status = .publishing && m.claimToken = some c.claimToken

/-- An update of the row of a claim, if it is still claimed under its token. -/
def Database.update (db : Database) (c : ClaimedMessage) (f : OutboxMessage → OutboxMessage) :
    Option Database :=
  if db.outbox.any c.holds then some { db with outbox := modify OutboxMessage.id c.id f db.outbox }
  else none

/-- What `requeue` stores. -/
def RequeueOutboxInput.row (c : RequeueOutboxInput) (m : OutboxMessage) : RecoveryRow where
  id := c.commandId
  outboxMessageId := c.outboxMessageId
  actorId := c.actorId
  reason := c.reason
  previousAttemptCount := m.attemptCount
  previousError := m.lastError
  previousDeadLetteredAt := m.deadLetteredAt

/-! ### Calls -/

/-- The calls. -/
inductive Call where
  | produce (p : Production)
  | dispatchOne (d : Dispatcher)
  | requeue (command : RequeueOutboxInput)
  deriving DecidableEq, Repr

/-- `DispatchStatus`. -/
inductive DispatchStatus where
  | empty | published | retryScheduled | deadLettered | claimLost
  deriving DecidableEq, Repr

/-- How a call ends. -/
inductive Outcome where
  | produced
  | dispatched (status : DispatchStatus) (messageId : Option UUID) (error : Option String)
  | requeued (row : RecoveryRow)
  | raised (message : String)
  deriving DecidableEq, Repr

/-- Where a call stands. -/
inductive Stage where
  | idle
  | ended (outcome : Outcome)
  | producing (p : Production)
  | claiming (d : Dispatcher)
  | claimed (d : Dispatcher) (c : ClaimedMessage)
  | delivered (d : Dispatcher) (c : ClaimedMessage)
  | failed (d : Dispatcher) (c : ClaimedMessage) (error : String)
  | requeueing (command : RequeueOutboxInput)
  | requeueCommanded (command : RequeueOutboxInput)
  | requeueNew (command : RequeueOutboxInput)
  deriving DecidableEq, Repr

/-- What a statement is told: nothing; the outcome of a check outside these rows; the time, the rows
that others have locked and a token; how `start_workflow` ends, and whether the server has taken the
signal although it raises; or the time, twice. -/
inductive Answer where
  | go
  | check (error : Option String)
  | claim (now : Time) (locked : List UUID) (token : UUID)
  | started
  | startFailed (error : String) (taken : Bool)
  | times (now later : Time)
  deriving DecidableEq, Repr

/-- What is observed. -/
inductive DeliveryEvent where
  | produced (p : Production)
  | claimed (d : Dispatcher) (messageId token : UUID)
  | taken (workflowId : String) (signal : Signal)
  | started (messageId : UUID) (workflowId : String) (signal : Signal)
  | requeued (messageId : UUID)
  deriving DecidableEq, Repr

/-- The stage after a statement, the committed database and what is observed. -/
abbrev Effect := Option (Stage × Database × List DeliveryEvent)

/-- A statement that commits nothing. -/
def Stage.keep (t : Stage) (db : Database) : Effect := some (t, db, [])

/-- A call ends. -/
def Stage.stop (o : Outcome) (db : Database) : Effect := (Stage.ended o).keep db

/-- The first stage of a call. -/
def Call.start : Call → Stage
  | .produce p => .producing p
  | .dispatchOne d => .claiming d
  | .requeue command => .requeueing command

/-- The call is over, or there is none. -/
def Stage.resting : Stage → Bool
  | .idle | .ended _ => true
  | _ => false

/-! ### Statements -/

/-- A producer adds its message, with `on_conflict_do_nothing` on the deduplication key. -/
def produce (p : Production) (db : Database) : Effect :=
  let m := p.message
  if (lookup OutboxMessage.deduplicationKey m.deduplicationKey db.outbox).isSome then
    Stage.stop .produced db
  else if (lookup OutboxMessage.id m.id db.outbox).isSome then
    Stage.stop (.raised "IntegrityError") db
  else some (.ended .produced, { db with outbox := db.outbox ++ [m] }, [.produced p])

/-- `_claim`. -/
def claimOne (d : Dispatcher) (now : Time) (locked : List UUID) (token : UUID) (db : Database) :
    Effect :=
  match db.claimable d now locked with
  | none => Stage.stop (.dispatched .empty none none) db
  | some m =>
      match m.processInstanceId with
      | none => Stage.stop (.raised "Temporal outbox message has no process instance") db
      | some processId =>
          some (.claimed d ⟨m.id, processId, m.messageType, m.destination, m.payload,
              m.attemptCount + 1, token⟩,
            { db with outbox := modify OutboxMessage.id m.id (claimRow now token) db.outbox },
            [.claimed d m.id token])

/-- The delivery of a claimed message. -/
def deliver (d : Dispatcher) (c : ClaimedMessage) (x : Answer) (db : Database) : Effect :=
  match decodeSignal c.messageType c.payload, x with
  | .error error, .go => (Stage.failed d c error).keep db
  | .ok signal, .started =>
      some (.delivered d c, db, [.taken c.destination signal, .started c.id c.destination signal])
  | .ok signal, .startFailed error taken =>
      some (.failed d c error, db, if taken then [.taken c.destination signal] else [])
  | _, _ => none

/-- The update of `dispatch_one`. -/
def complete (c : ClaimedMessage) (now : Time) (db : Database) : Effect :=
  match db.update c (publishRow now) with
  | none => Stage.stop (.dispatched .claimLost (some c.id) none) db
  | some db' => some (.ended (.dispatched .published (some c.id) none), db', [])

/-- `_record_failure`. -/
def recordFailure (d : Dispatcher) (c : ClaimedMessage) (error : String) (now later : Time)
    (db : Database) : Effect :=
  match db.update c (d.failRow c error now later) with
  | none => Stage.stop (.dispatched .claimLost (some c.id) (some error)) db
  | some db' =>
      let status := if d.terminal c then DispatchStatus.deadLettered else .retryScheduled
      some (.ended (.dispatched status (some c.id) (some error)), db', [])

/-- A command that is stored already. -/
def RequeueOutboxInput.replay (c : RequeueOutboxInput) (row : RecoveryRow) : Outcome :=
  if row.outboxMessageId ≠ c.outboxMessageId ∨ row.actorId ≠ c.actorId ∨ row.reason ≠ c.reason then
    .raised "requeue command ID was reused"
  else .requeued row

/-- The end of `requeue`. -/
def commitRequeue (c : RequeueOutboxInput) (now : Time) (db : Database) : Effect :=
  match lookup OutboxMessage.id c.outboxMessageId db.outbox with
  | none => Stage.stop (.raised "dead-lettered outbox message not found") db
  | some m =>
      if m.status ≠ .deadLetter ∨ m.deadLetteredAt = none then
        Stage.stop (.raised "outbox message is not dead-lettered") db
      else if (lookup RecoveryRow.id c.commandId db.recoveries).isSome then
        Stage.stop (.raised "IntegrityError") db
      else
        some (.ended (.requeued (c.row m)),
          { outbox := modify OutboxMessage.id m.id (requeueRow now) db.outbox
            recoveries := db.recoveries ++ [c.row m] }, [.requeued m.id])

/-- The next statement of a call.  The tenant, the release of the process and the reason of a
requeue are checked outside these rows. -/
def Stage.statement : Stage → Answer → Database → Effect
  | .producing p, .go, db => produce p db
  | .claiming _, .check none, db => Stage.stop (.dispatched .empty none none) db
  | .claiming _, .check (some error), db => Stage.stop (.raised error) db
  | .claiming d, .claim now locked token, db => claimOne d now locked token db
  | .claimed d c, x, db => deliver d c x db
  | .delivered _ c, .times now _, db => complete c now db
  | .failed d c error, .times now later, db => recordFailure d c error now later db
  | .requeueing _, .check (some error), db => Stage.stop (.raised error) db
  | .requeueing c, .check none, db => (Stage.requeueCommanded c).keep db
  | .requeueCommanded c, .go, db =>
      match lookup RecoveryRow.id c.commandId db.recoveries with
      | some row => Stage.stop (c.replay row) db
      | none => (Stage.requeueNew c).keep db
  | .requeueNew c, .times now _, db => commitRequeue c now db
  | _, _, _ => none

/-- What happens to a call: it is made, it stops, or its next statement is answered. -/
inductive CallInput where
  | call (call : Call)
  | crash
  | answer (answer : Answer)
  deriving DecidableEq, Repr

/-- One step of a call. -/
def next (t : Stage) : CallInput → Database → Effect
  | .call c, db => if t.resting then c.start.keep db else none
  | .crash, db => Stage.idle.keep db
  | .answer x, db => t.statement x db

/-- The advisory lock of a requeue. -/
def Stage.locks : Stage → List UUID
  | .requeueCommanded c | .requeueNew c => [c.commandId]
  | _ => []

/-- The code of the calls. -/
def dispatchers : Transactions.Code Database Stage CallInput DeliveryEvent UUID where
  next := next
  locks := Stage.locks

/-! ### Steps -/

/-- A step of a call. -/
inductive Step : Stage → CallInput → Database → Stage → Database → List DeliveryEvent → Prop
  | halt {t t' : Stage} {x : CallInput} {db : Database} (resting : t'.resting = true) :
      Step t x db t' db []
  | start {t : Stage} {db : Database} (c : Call) : Step t (.call c) db c.start db []
  | produce {db : Database} (p : Production)
      (new : lookup OutboxMessage.deduplicationKey p.message.deduplicationKey db.outbox = none)
      (unused : lookup OutboxMessage.id p.message.id db.outbox = none) :
      Step (.producing p) (.answer .go) db (.ended .produced)
        { db with outbox := db.outbox ++ [p.message] } [.produced p]
  | claim {db : Database} (d : Dispatcher) (now : Time) (locked : List UUID)
      (token processId : UUID)
      (m : OutboxMessage) (found : db.claimable d now locked = some m)
      (owned : m.processInstanceId = some processId) :
      Step (.claiming d) (.answer (.claim now locked token)) db
        (.claimed d ⟨m.id, processId, m.messageType, m.destination, m.payload, m.attemptCount + 1,
          token⟩)
        { db with outbox := modify OutboxMessage.id m.id (claimRow now token) db.outbox }
        [.claimed d m.id token]
  | deliver {db : Database} (d : Dispatcher) (c : ClaimedMessage) (signal : Signal)
      (decoded : decodeSignal c.messageType c.payload = .ok signal) :
      Step (.claimed d c) (.answer .started) db (.delivered d c) db
        [.taken c.destination signal, .started c.id c.destination signal]
  | miss {db : Database} (d : Dispatcher) (c : ClaimedMessage) (x : CallInput) (error : String)
      (obs : List DeliveryEvent) (taken : obs = [] ∨ ∃ signal,
        decodeSignal c.messageType c.payload = .ok signal ∧ obs = [.taken c.destination signal]) :
      Step (.claimed d c) x db (.failed d c error) db obs
  | complete {db : Database} (d : Dispatcher) (c : ClaimedMessage) (now later : Time)
      (held : db.outbox.any c.holds = true) :
      Step (.delivered d c) (.answer (.times now later)) db
        (.ended (.dispatched .published (some c.id) none))
        { db with outbox := modify OutboxMessage.id c.id (publishRow now) db.outbox } []
  | fail {db : Database} (d : Dispatcher) (c : ClaimedMessage) (error : String) (now later : Time)
      (o : Outcome) (held : db.outbox.any c.holds = true) :
      Step (.failed d c error) (.answer (.times now later)) db (.ended o)
        { db with
          outbox := modify OutboxMessage.id c.id (d.failRow c error now later) db.outbox } []
  | lockRequeue {db : Database} (c : RequeueOutboxInput) :
      Step (.requeueing c) (.answer (.check none)) db (.requeueCommanded c) db []
  | freshRequeue {db : Database} (c : RequeueOutboxInput) :
      Step (.requeueCommanded c) (.answer .go) db (.requeueNew c) db []
  | requeue {db : Database} (c : RequeueOutboxInput) (now later : Time) (m : OutboxMessage)
      (found : lookup OutboxMessage.id c.outboxMessageId db.outbox = some m)
      (dead : m.status = .deadLetter) :
      Step (.requeueNew c) (.answer (.times now later)) db (.ended (.requeued (c.row m)))
        { outbox := modify OutboxMessage.id m.id (requeueRow now) db.outbox
          recoveries := db.recoveries ++ [c.row m] } [.requeued m.id]

namespace Step

variable {t t' : Stage} {x : CallInput} {db db' : Database} {obs : List DeliveryEvent}

lemma of_stop {o : Outcome} (h : Stage.stop o db = some (t', db', obs)) :
    Step t x db t' db' obs := by
  cases h
  exact .halt rfl

lemma of_keep {u : Stage} (h : u.keep db = some (t', db', obs)) (hu : Step t x db u db []) :
    Step t x db t' db' obs := by
  cases h
  exact hu

/-- The delivery of a claimed message. -/
lemma of_deliver {d : Dispatcher} {c : ClaimedMessage} {y : Answer}
    (h : Temporal.deliver d c y db = some (t', db', obs)) :
    Step (.claimed d c) (.answer y) db t' db' obs := by
  unfold Temporal.deliver at h
  split at h
  · exact of_keep h (.miss d c _ _ [] (.inl rfl))
  · rename_i signal hdecoded
    cases h
    exact .deliver d c signal hdecoded
  · rename_i signal error taken hdecoded
    cases h
    refine .miss d c _ error _ ?_
    cases taken with
    | false => exact .inl rfl
    | true => exact .inr ⟨signal, hdecoded, rfl⟩
  · cases h

/-- The update of a claimed message. -/
lemma update_eq_some {c : ClaimedMessage} {f : OutboxMessage → OutboxMessage}
    (h : db.update c f = some db') : db.outbox.any c.holds = true ∧
      db' = { db with outbox := modify OutboxMessage.id c.id f db.outbox } := by
  rw [Database.update] at h
  split_ifs at h with hheld
  exact ⟨hheld, (Option.some.inj h).symm⟩

/-- What a step is. -/
lemma of_next (h : next t x db = some (t', db', obs)) : Step t x db t' db' obs := by
  cases x with
  | call c =>
      rw [next] at h
      split_ifs at h
      exact of_keep h (.start c)
  | crash =>
      cases h
      exact .halt rfl
  | answer y =>
      rw [next] at h
      unfold Stage.statement at h
      split at h
      · rw [Temporal.produce] at h
        split_ifs at h with hstored hused
        · exact of_stop h
        · exact of_stop h
        · cases h
          exact .produce _ (by simpa using hstored) (by simpa using hused)
      · exact of_stop h
      · exact of_stop h
      · rw [claimOne] at h
        split at h
        · exact of_stop h
        · rename_i m hfound
          split at h
          · exact of_stop h
          · rename_i processId howned
            cases h
            exact .claim _ _ _ _ processId m hfound howned
      · exact of_deliver h
      · rw [Temporal.complete] at h
        split at h
        · exact of_stop h
        · rename_i hupdate
          obtain ⟨hheld, rfl⟩ := update_eq_some hupdate
          cases h
          exact .complete _ _ _ _ hheld
      · rw [recordFailure] at h
        split at h
        · exact of_stop h
        · rename_i hupdate
          obtain ⟨hheld, rfl⟩ := update_eq_some hupdate
          cases h
          exact .fail _ _ _ _ _ _ hheld
      · exact of_stop h
      · exact of_keep h (.lockRequeue _)
      · split at h
        · exact of_stop h
        · exact of_keep h (.freshRequeue _)
      · rw [commitRequeue] at h
        split at h
        · exact of_stop h
        · rename_i m hfound
          split_ifs at h with halive hused
          · exact of_stop h
          · exact of_stop h
          · rw [not_or, not_not] at halive
            cases h
            exact .requeue _ _ _ m hfound halive.1
      · cases h

end Step

end TiramisuAgents.Temporal
