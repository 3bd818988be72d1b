import TiramisuAgents.Library.Transactions
import TiramisuAgents.Operators.Database

/-!
The commands of operators, statement by statement, next to the other services of a tenant.

The resolution of an event, the ingestion, the dispatchers and the producers of messages are the
code of `Events` and `Temporal`, on their rows.  What executions and turns write to attempts,
requests and interventions is taken as calls that write any row, except that an attempt with an
outcome is left as it is.

* `Call`, `Stage`, `CallInput`: the calls, where they stand, what happens to them.
* `Controlling.statement`, `Requeueing.statement`, `Reconciling.statement`,
  `quarantineStatement`: the statements of the commands.
* `calls`: the code, with the locks of each stage.  A command that takes effect is observed.
-/

namespace TiramisuAgents.Operators

open Json Tables

/-! ### Calls -/

section

variable {F : Type}

/-- What executions and turns write. -/
inductive Write (F : Type) where
  | attempt (row : AttemptRow F)
  | outcome (row : AttemptRow F)
  | request (row : RequestRow)
  | intervention (row : InterventionRow)

/-- The calls. -/
inductive Call (F : Type) where
  | submit (c : Command F)
  | ingest (event : Events.CanonicalEvent) (bootstrap : Option Events.ProcessBootstrap)
  | setStatus (processId : UUID) (status : ProcessStatus)
  | dispatchOne (d : Temporal.Dispatcher)
  | produce (p : Events.Production)
  | write (w : Write F)

/-- Where a control stands. -/
inductive Controlling where
  | opening
  | commanded
  | unused
  | holding (process : Events.ProcessRow)
  | bound (process : Events.ProcessRow) (intervention : Option InterventionRow)
  deriving DecidableEq, Repr

/-- Where a requeue stands. -/
inductive Requeueing where
  | opening
  | commanded
  | unused
  deriving DecidableEq, Repr

/-- Where the resolution of an attempt stands. -/
inductive Reconciling (F : Type) where
  | opening
  | found
  | unresolved
  | settled (attempt : AttemptRow F)
  | deciding (attempt : AttemptRow F)
  | addressed (attempt : AttemptRow F) (workflowId : String)

/-- Where a call stands. -/
inductive Stage (F : Type) where
  | idle
  | ended (outcome : Outcome F)
  | controlling (c : ProcessControlInput) (k : Controlling)
  | requeueing (c : Temporal.RequeueOutboxInput) (k : Requeueing)
  | quarantining (c : Events.ResolveQuarantineInput) (k : Events.Resolving)
  | reconciling (c : OperatorActionResolution F) (k : Reconciling F)
  | event (t : Events.Stage)
  | delivery (t : Temporal.Stage)
  | writing (w : Write F)
  | writingLocked (w : Write F)

/-- The first stage of a command. -/
def Command.start : Command F → Stage F
  | .control c => .controlling c .opening
  | .requeue c => .requeueing c .opening
  | .quarantine c => .quarantining c .opening
  | .resolution c => .reconciling c .opening

/-- The first stage of a call. -/
def Call.start : Call F → Stage F
  | .submit c => c.start
  | .ingest event bootstrap => .event (.ingesting event bootstrap .opening)
  | .setStatus processId status => .event (.settingStatus processId status)
  | .dispatchOne d => .delivery (.claiming d)
  | .produce p => .delivery (.producing p)
  | .write w => .writing w

/-- The call is over, or there is none. -/
def Stage.resting : Stage F → Bool
  | .idle | .ended _ => true
  | _ => false

/-- The command of a call. -/
def Stage.command : Stage F → Option (Command F)
  | .controlling c _ => some (.control c)
  | .requeueing c _ => some (.requeue c)
  | .quarantining c _ => some (.quarantine c)
  | .reconciling c _ => some (.resolution c)
  | _ => none

/-- The stage after a statement, the committed database, and the command that takes effect. -/
abbrev Effect (F : Type) := Option (Stage F × Database F × List (Command F))

/-- A statement that commits nothing. -/
def Stage.keep (t : Stage F) (db : Database F) : Effect F := some (t, db, [])

/-- A call ends. -/
def Stage.stop (o : Outcome F) (db : Database F) : Effect F := (Stage.ended o).keep db

/-- What the deployment and the column give: the identity of the tenant, and a result as it is
read back. -/
structure Platform (F : Type) where
  tenantId : UUID
  jsonb : JsonObject F → JsonObject F

/-! ### Controls -/

/-- What ingestion uses of a control. -/
def ProcessControlInput.input (c : ProcessControlInput) (sources : Option TurnSources) :
    Events.ControlInput where
  commandId := c.commandId
  processInstanceId := c.processInstanceId
  commandType := controlTypeValue c.commandType
  sources := sources

/-- The row that `apply_control` stores. -/
def ProcessControlInput.row (c : ProcessControlInput) (payload : Option TurnSources) :
    ControlRow where
  id := c.commandId
  processInstanceId := c.processInstanceId
  actorId := c.actorId
  interventionId := c.interventionId
  commandType := c.commandType
  reason := strip c.reason
  payload := payload

/-- The intervention that a control resolves. -/
def resolveIntervention (db : Database F) (intervention : Option InterventionRow)
    (commandId : UUID) (now : Time) : List InterventionRow :=
  match intervention with
  | none => db.interventions
  | some row => modify InterventionRow.id row.id
      (fun r => { r with
        status := .resolved, resolvedByCommandId := some commandId, resolvedAt := some now })
      db.interventions

/-- The end of `apply_control`, to its commit. -/
def commitControl (c : ProcessControlInput) (process : Events.ProcessRow)
    (intervention : Option InterventionRow) (eventId outboxId : UUID) (now : Time)
    (db : Database F) : Effect F :=
  let stored := c.row (intervention.map InterventionRow.sources)
  if (lookup ControlRow.id c.commandId db.controls).isSome then
    Stage.stop (.raised "IntegrityError") db
  else
    match Events.commitControl (c.input stored.payload) process eventId outboxId now db.events with
    | some (.ended (.controlled _), events, _) =>
        some (.ended (.controlled stored), { db with
          events := events
          controls := db.controls ++ [stored]
          interventions := resolveIntervention db intervention c.commandId now }, [.control c])
    | some (.ended (.raised message), _, _) => Stage.stop (.raised message) db
    | _ => none

/-- What the type of a control asks for; a retry, for an open intervention. -/
def ProcessControlInput.require (c : ProcessControlInput) (process : Events.ProcessRow)
    (db : Database F) : Except String (Option InterventionRow) :=
  match c.commandType with
  | .retry =>
      match c.interventionId with
      | none => .error "retry requires an intervention ID"
      | some id =>
          match db.intervention c.processInstanceId id with
          | none => .error "intervention is not open"
          | some row =>
              if row.status ≠ .open_ then .error "intervention is not open" else .ok (some row)
  | .takeover => if process.status = .paused then .error "process is already paused" else .ok none
  | .resume =>
      if process.status ≠ .paused then .error "only a paused process can be resumed" else .ok none
  | .wake =>
      if process.status = .paused then .error "resume a paused process before waking it"
      else .ok none

/-- `ProcessControlService.apply_control`. -/
def Controlling.statement (c : ProcessControlInput) :
    Controlling → Events.Answer → Database F → Effect F
  | .opening, .go, db =>
      match c.checkReason with
      | .error message => Stage.stop (.raised message) db
      | .ok _ => (Stage.controlling c .commanded).keep db
  | .commanded, .go, db =>
      match lookup ControlRow.id c.commandId db.controls with
      | some existing => Stage.stop (c.replay existing) db
      | none => (Stage.controlling c .unused).keep db
  | .unused, .go, db =>
      match db.events.process c.processInstanceId with
      | none => Stage.stop (.raised "process instance not found") db
      | some process =>
          if process.status.terminal then
            Stage.stop (.raised "terminal processes cannot be controlled") db
          else (Stage.controlling c (.holding process)).keep db
  | .holding process, .go, db =>
      match c.require process db with
      | .error message => Stage.stop (.raised message) db
      | .ok intervention => (Stage.controlling c (.bound process intervention)).keep db
  | .bound process intervention, .fresh eventId outboxId now, db =>
      commitControl c process intervention eventId outboxId now db
  | _, _, _ => none

/-! ### Requeues -/

/-- `OutboxRecoveryService.requeue`. -/
def Requeueing.statement (c : Temporal.RequeueOutboxInput) :
    Requeueing → Events.Answer → Database F → Effect F
  | .opening, .go, db =>
      match checkReason c.reason with
      | .error message => Stage.stop (.raised message) db
      | .ok _ => (Stage.requeueing c .commanded).keep db
  | .commanded, .go, db =>
      match lookup Temporal.RecoveryRow.id c.commandId db.recoveries with
      | some existing => Stage.stop (replayRequeue c existing) db
      | none => (Stage.requeueing c .unused).keep db
  | .unused, .fresh _ _ now, db =>
      match Temporal.commitRequeue (strippedRequeue c) now db.delivery with
      | some (.ended (.requeued row), delivery, _) =>
          some (.ended (.requeued row), db.withDelivery delivery, [.requeue c])
      | some (.ended (.raised message), _, _) => Stage.stop (.raised message) db
      | _ => none
  | _, _, _ => none

/-! ### Resolutions of events -/

/-- The statement that commits. -/
def commits : Events.Resolving → Bool
  | .bound _ _ _ _ => true
  | _ => false

/-- `QuarantineResolutionService.resolve`: the reason is checked before the tenant. -/
def quarantineStatement (c : Events.ResolveQuarantineInput) (k : Events.Resolving)
    (x : Events.Answer) (db : Database F) : Effect F :=
  match if k = .opening then checkReason c.reason else .ok () with
  | .error message => Stage.stop (.raised message) db
  | .ok _ =>
      match k.statement (strippedResolve c) x db.events with
      | some (.resolving _ k', events, _) =>
          some (.quarantining c k', { db with events := events }, [])
      | some (.ended (.resolved row), events, _) =>
          some (.ended (.quarantined row), { db with events := events },
            if commits k then [.quarantine c] else [])
      | some (.ended (.raised message), _, _) => Stage.stop (.raised message) db
      | _ => none

/-! ### Resolutions of attempts -/

/-- The decision that `resolve_unknown` stores. -/
def OperatorActionResolution.row (P : Platform F) (c : OperatorActionResolution F)
    (attempt : AttemptRow F) : DecisionRow F where
  id := c.decisionId
  processInstanceId := c.processInstanceId
  actionRequestId := attempt.actionRequestId
  actionAttemptId := attempt.id
  actorId := c.actorId
  previousStatus := attempt.status
  resolution := c.resolution
  evidence := c.evidence
  providerReference := c.providerReference
  result := c.result.map P.jsonb

/-- The attempt that is resolved. -/
def OperatorActionResolution.apply (c : OperatorActionResolution F) (now : Time)
    (attempt : AttemptRow F) : AttemptRow F :=
  { attempt with
    status := c.resolution.status
    providerReference := c.providerReference.or attempt.providerReference
    result := c.result.or attempt.result
    completedAt := some now }

/-- The text of a resolution. -/
def resolutionValue : ActionResolution → String
  | .succeeded => "succeeded"
  | .failed => "failed"

/-- The message that `resolve_unknown` adds. -/
def OperatorActionResolution.message (c : OperatorActionResolution F) (attempt : AttemptRow F)
    (workflowId : String) (outboxId : UUID) (now : Time) : Events.OutboxMessage :=
  Events.resolutionMessage outboxId
    ⟨c.decisionId, attempt.actionRequestId, attempt.id, resolutionValue c.resolution⟩
    c.processInstanceId workflowId now

/-- The commit of `resolve_unknown`.  What is returned is the row of the session. -/
def commitResolution (P : Platform F) (c : OperatorActionResolution F) (attempt : AttemptRow F)
    (workflowId : String) (outboxId : UUID) (now : Time) (db : Database F) : Effect F :=
  if (lookup DecisionRow.id c.decisionId db.decisions).isSome ∨
      (lookup DecisionRow.actionAttemptId attempt.id db.decisions).isSome then
    Stage.stop (.raised "IntegrityError") db
  else
    let read := { c with result := c.result.map P.jsonb }
    some (.ended (.resolved (c.apply now attempt).executionResult), { db with
      decisions := db.decisions ++ [c.row P attempt]
      attempts := modify AttemptRow.id attempt.id (read.apply now) db.attempts
      requests := modify RequestRow.id attempt.actionRequestId
        (fun r => { r with status := c.resolution.status.toRequest }) db.requests
      events := { db.events with
        outbox := Events.enqueue db.events.outbox (c.message attempt workflowId outboxId now) } },
      [.resolution c])

/-- `ActionReconciliationService.resolve_unknown`. -/
def Reconciling.statement [FloatValues F] (P : Platform F) (c : OperatorActionResolution F) :
    Reconciling F → Events.Answer → Database F → Effect F
  | .opening, .go, db =>
      match db.decision c.processInstanceId c.actionAttemptId with
      | none => (Stage.reconciling c .unresolved).keep db
      | some stored =>
          match requireSameDecision stored c with
          | .error message => Stage.stop (.raised message) db
          | .ok _ => (Stage.reconciling c .found).keep db
  | .found, .go, db =>
      match lookup AttemptRow.id c.actionAttemptId db.attempts with
      | none => Stage.stop (.raised "resolved action attempt is unavailable") db
      | some attempt => Stage.stop (.resolved attempt.executionResult) db
  | .unresolved, .go, db =>
      match db.attempt c.processInstanceId c.actionAttemptId with
      | none => Stage.stop (.raised "action attempt not found") db
      | some attempt =>
          if attempt.status ≠ .unknown ∧ attempt.status ≠ .reconciling then
            (Stage.reconciling c (.settled attempt)).keep db
          else (Stage.reconciling c (.deciding attempt)).keep db
  | .settled attempt, .go, db =>
      match db.decision c.processInstanceId c.actionAttemptId with
      | none => Stage.stop (.raised "only an unknown action outcome can be resolved") db
      | some stored =>
          match requireSameDecision stored c with
          | .error message => Stage.stop (.raised message) db
          | .ok _ => Stage.stop (.resolved attempt.executionResult) db
  | .deciding attempt, .go, db =>
      match db.events.process c.processInstanceId with
      | none => Stage.stop (.raised "action process has no workflow identity") db
      | some process => (Stage.reconciling c (.addressed attempt process.workflowId)).keep db
  | .addressed attempt workflowId, .fresh outboxId _ now, db =>
      commitResolution P c attempt workflowId outboxId now db
  | _, _, _ => none

/-! ### The other services -/

/-- The stages of ingestion and of the services that write the status of a process. -/
def internal : Events.Stage → Bool
  | .ingesting _ _ _ | .settingStatus _ _ | .settingStatusLocked _ _ => true
  | _ => false

/-- A statement of them. -/
def eventStatement (P : Platform F) (t : Events.Stage) (x : Events.Answer) (db : Database F) :
    Effect F :=
  if !internal t then none
  else
    match t.statement ⟨P.tenantId⟩ x db.events with
    | none => none
    | some (t', events, _) =>
        some (if t'.resting then .ended .written else .event t', { db with events := events }, [])

/-- The stages of dispatchers and producers. -/
def dispatching : Temporal.Stage → Bool
  | .requeueing _ | .requeueCommanded _ | .requeueNew _ => false
  | _ => true

/-- A statement of them. -/
def deliveryStatement (t : Temporal.Stage) (x : Temporal.Answer) (db : Database F) : Effect F :=
  if !dispatching t then none
  else
    match t.statement x db.delivery with
    | none => none
    | some (t', delivery, _) =>
        some (if t'.resting then .ended .written else .delivery t', db.withDelivery delivery, [])

/-- An outcome is recorded, unless there is one. -/
def AttemptRow.record (row a : AttemptRow F) : AttemptRow F :=
  if a.status.terminal then a
  else { row with
    id := a.id
    processInstanceId := a.processInstanceId
    actionRequestId := a.actionRequestId
    idempotencyKey := a.idempotencyKey }

/-- The commit of a write; an intervention is opened. -/
def Write.commit (db : Database F) : Write F → Effect F
  | .attempt row =>
      if (lookup AttemptRow.id row.id db.attempts).isSome then
        Stage.stop (.raised "IntegrityError") db
      else some (.ended .written, { db with attempts := db.attempts ++ [row] }, [])
  | .outcome row => some (.ended .written,
      { db with attempts := modify AttemptRow.id row.id row.record db.attempts }, [])
  | .request row => some (.ended .written,
      { db with requests := (db.requests.filter fun r => r.id ≠ row.id) ++ [row] }, [])
  | .intervention row =>
      if (lookup InterventionRow.id row.id db.interventions).isSome then
        Stage.stop (.raised "IntegrityError") db
      else some (.ended .written,
        { db with interventions := db.interventions ++ [{ row with status := .open_ }] }, [])

/-! ### One step -/

/-- What happens to a call: it is made, it stops, or its next statement is answered. -/
inductive CallInput (F : Type) where
  | call (c : Call F)
  | crash
  | answer (x : Events.Answer)
  | delivered (x : Temporal.Answer)

/-- The next statement of a call. -/
def Stage.statement [FloatValues F] (P : Platform F) :
    Stage F → Events.Answer → Database F → Effect F
  | .controlling c k, x, db => k.statement c x db
  | .requeueing c k, x, db => k.statement c x db
  | .quarantining c k, x, db => quarantineStatement c k x db
  | .reconciling c k, x, db => k.statement P c x db
  | .event t, x, db => eventStatement P t x db
  | .writing w, .go, db => (Stage.writingLocked w).keep db
  | .writingLocked w, .go, db => w.commit db
  | _, _, _ => none

/-- One step of a call. -/
def next [FloatValues F] (P : Platform F) (t : Stage F) : CallInput F → Database F → Effect F
  | .call c, db => if t.resting then c.start.keep db else none
  | .crash, db => Stage.idle.keep db
  | .answer x, db => t.statement P x db
  | .delivered x, db =>
      match t with
      | .delivery t => deliveryStatement t x db
      | _ => none

/-! ### Locks -/

/-- The locks: those of the events, those of the requeues, and the rows of interventions, attempts
and requests. -/
inductive CommandLock where
  | event (l : Events.EventLock)
  | requeue (commandId : UUID)
  | intervention (id : UUID)
  | attempt (id : UUID)
  | request (id : UUID)
  deriving DecidableEq, Repr

/-- The locks of a control. -/
def Controlling.locks (c : ProcessControlInput) : Controlling → List CommandLock
  | .opening => []
  | .commanded | .unused => [.event (.control c.commandId)]
  | .holding process => [.event (.control c.commandId), .event (.process process.id)]
  | .bound process intervention =>
      [.event (.control c.commandId), .event (.process process.id)] ++
        intervention.toList.map fun row => .intervention row.id

/-- The locks of the resolution of an attempt. -/
def Reconciling.locks : Reconciling F → List CommandLock
  | .opening | .found | .unresolved => []
  | .settled attempt | .deciding attempt | .addressed attempt _ =>
      [.attempt attempt.id, .request attempt.actionRequestId]

/-- The lock of a write. -/
def Write.lock : Write F → CommandLock
  | .attempt row | .outcome row => .attempt row.id
  | .request row => .request row.id
  | .intervention row => .intervention row.id

/-- The locks of a stage. -/
def Stage.locks : Stage F → List CommandLock
  | .controlling c k => k.locks c
  | .requeueing c .commanded | .requeueing c .unused => [.requeue c.commandId]
  | .quarantining c k => (k.locks (strippedResolve c)).map .event
  | .reconciling _ k => k.locks
  | .event t => t.locks.map .event
  | .writingLocked w => [w.lock]
  | _ => []

/-- The code of the calls. -/
def calls [FloatValues F] (P : Platform F) :
    Transactions.Code (Database F) (Stage F) (CallInput F) (Command F) CommandLock where
  next := next P
  locks := Stage.locks

end

end TiramisuAgents.Operators
