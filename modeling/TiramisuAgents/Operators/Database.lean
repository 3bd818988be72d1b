import TiramisuAgents.Core.CompletionValues
import TiramisuAgents.Core.Text
import TiramisuAgents.Events.Calls
import TiramisuAgents.Processes.Database
import TiramisuAgents.Temporal.Dispatcher

/-!
The commands of operators, and the rows of a tenant that they read and write: `apply_control`
(`processes/control.py`), `requeue` (`events/outbox_recovery.py`), `resolve`
(`events/quarantine.py`) and `resolve_unknown` (`actions/reconciliation.py`).

Of processes, the inbox, the correlations and the outbox there are the rows that ingestion has; the
rows of the control commands are there in full besides.

* `Command`: the commands.  `SameId`: the identity under which a command is stored is that of the
  command, or the attempt it resolves.  `SameContent`: the rest is the same too.
* `Database`: the rows.
* `ProcessControlInput.replay`, `RequeueOutboxInput.replay`, `requireSameDecision`: what is made of
  a command that is stored already.
-/

namespace TiramisuAgents.Operators

open Json Tables

/-! ### Commands -/

/-- `ProcessControlInput`. -/
structure ProcessControlInput where
  commandId : UUID
  processInstanceId : UUID
  actorId : UUID
  commandType : ProcessControlType
  reason : String
  interventionId : Option UUID := none
  deriving DecidableEq, Repr

/-- `OperatorActionResolution`. -/
structure OperatorActionResolution (F : Type) where
  decisionId : UUID
  processInstanceId : UUID
  actionAttemptId : UUID
  actorId : UUID
  resolution : ActionResolution
  evidence : String
  providerReference : Option String := none
  result : Option (JsonObject F) := none

/-- The commands, with the reasons as they are given. -/
inductive Command (F : Type) where
  | control (c : ProcessControlInput)
  | requeue (c : Temporal.RequeueOutboxInput)
  | quarantine (c : Events.ResolveQuarantineInput)
  | resolution (c : OperatorActionResolution F)

/-- The text of a control type. -/
def controlTypeValue : ProcessControlType → String
  | .retry => "retry"
  | .wake => "wake"
  | .takeover => "takeover"
  | .resume => "resume"

/-- The command with the reason that is stored. -/
def ProcessControlInput.stripped (c : ProcessControlInput) : ProcessControlInput :=
  { c with reason := strip c.reason }

/-- The checks on the reason of a control. -/
def ProcessControlInput.checkReason (c : ProcessControlInput) : Except String Unit := do
  requireThat (!(strip c.reason = "" ∨ 10000 < (strip c.reason).length))
    "control command reason must contain 1 to 10000 characters"
  requireUtf8Bytes (strip c.reason) "operator guidance" (16 * 1024)

/-- The check on the reason of a requeue or of a resolution of an event. -/
def checkReason (reason : String) : Except String Unit :=
  requireThat (!(strip reason = "" ∨ 10000 < (strip reason).length))
    "reason must contain 1 to 10000 characters"

/-- The command with the reason that is stored. -/
def strippedRequeue (c : Temporal.RequeueOutboxInput) : Temporal.RequeueOutboxInput :=
  { c with reason := strip c.reason }

/-- The command with the reason that is stored. -/
def strippedResolve (c : Events.ResolveQuarantineInput) : Events.ResolveQuarantineInput :=
  { c with reason := strip c.reason }

section

variable {F : Type}

/-- Two results are the same: both are missing, or their values are related. -/
def agreeResults (r : JsonAtom F → JsonAtom F → Bool) :
    Option (JsonObject F) → Option (JsonObject F) → Bool
  | none, none => true
  | some o, some o' => o.value.agree r o'.value
  | _, _ => false

/-- The command without its result. -/
def OperatorActionResolution.withoutResult (c : OperatorActionResolution F) :
    OperatorActionResolution F :=
  { c with result := none }

/-- The commands are the same: up to white space around the reason, up to the order and the
repetition of references, and with results that are the same JSON values. -/
def Command.SameContent [FloatValues F] : Command F → Command F → Prop
  | .control c, .control c' => c.stripped = c'.stripped
  | .requeue c, .requeue c' => strippedRequeue c = strippedRequeue c'
  | .quarantine c, .quarantine c' =>
      strippedResolve { c with bindReferences := [] }
          = strippedResolve { c' with bindReferences := [] } ∧
        c.bindReferences.toFinset = c'.bindReferences.toFinset
  | .resolution c, .resolution c' =>
      c.withoutResult = c'.withoutResult ∧ agreeResults jsonEq c.result c'.result = true
  | _, _ => False

/-! ### Rows -/

/-- A row of `process_interventions`, as far as `apply_control` uses it. -/
structure InterventionRow where
  id : UUID
  processInstanceId : UUID
  status : InterventionStatus := .open_
  sources : TurnSources
  resolvedByCommandId : Option UUID := none
  resolvedAt : Option Time := none
  deriving DecidableEq, Repr

/-- A row of `process_control_commands`; a retry has the sources of its intervention as its
payload. -/
structure ControlRow where
  id : UUID
  processInstanceId : UUID
  actorId : UUID
  interventionId : Option UUID
  commandType : ProcessControlType
  reason : String
  payload : Option TurnSources
  deriving DecidableEq, Repr

/-- A row of `action_attempts`. -/
structure AttemptRow (F : Type) where
  id : UUID
  processInstanceId : UUID
  actionRequestId : UUID
  idempotencyKey : String
  status : ActionAttemptStatus
  providerReference : Option String := none
  result : Option (JsonObject F) := none
  facts : List (FactObservation (JsonValue F)) := []
  error : Option String := none
  completedAt : Option Time := none

/-- What `resolve_unknown` uses of a row of `action_requests`. -/
structure RequestRow where
  id : UUID
  status : ActionRequestStatus
  deriving DecidableEq, Repr

/-- A row of `action_reconciliation_decisions`. -/
structure DecisionRow (F : Type) where
  id : UUID
  processInstanceId : UUID
  actionRequestId : UUID
  actionAttemptId : UUID
  actorId : UUID
  previousStatus : ActionAttemptStatus
  resolution : ActionResolution
  evidence : String
  providerReference : Option String
  result : Option (JsonObject F)

/-- The rows of a tenant. -/
structure Database (F : Type) where
  events : Events.Database := {}
  interventions : List InterventionRow := []
  controls : List ControlRow := []
  recoveries : List Temporal.RecoveryRow := []
  attempts : List (AttemptRow F) := []
  requests : List RequestRow := []
  decisions : List (DecisionRow F) := []

/-- The rows of the outbox and its recovery commands. -/
def Database.delivery (db : Database F) : Temporal.Database := ⟨db.events.outbox, db.recoveries⟩

/-- These rows are written. -/
def Database.withDelivery (db : Database F) (delivery : Temporal.Database) : Database F :=
  { db with
    events := { db.events with outbox := delivery.outbox }
    recoveries := delivery.recoveries }

/-- The intervention of a process. -/
def Database.intervention (db : Database F) (processId id : UUID) : Option InterventionRow :=
  (lookup InterventionRow.id id db.interventions).filter fun r => r.processInstanceId = processId

/-- The attempt of a process. -/
def Database.attempt (db : Database F) (processId id : UUID) : Option (AttemptRow F) :=
  (lookup AttemptRow.id id db.attempts).filter fun a => a.processInstanceId = processId

/-- The decision on an attempt of a process. -/
def Database.decision (db : Database F) (processId attemptId : UUID) : Option (DecisionRow F) :=
  (lookup DecisionRow.actionAttemptId attemptId db.decisions).filter fun d =>
    d.processInstanceId = processId

/-- `ActionExecutionResult`. -/
structure ActionExecutionResult (F : Type) where
  actionRequestId : UUID
  attemptId : UUID
  status : ActionAttemptStatus
  idempotencyKey : String
  providerReference : Option String
  result : Option (JsonObject F)
  facts : List (FactObservation (JsonValue F))
  error : Option String

/-- `_result`. -/
def AttemptRow.executionResult (a : AttemptRow F) : ActionExecutionResult F :=
  ⟨a.actionRequestId, a.id, a.status, a.idempotencyKey, a.providerReference, a.result, a.facts,
    a.error⟩

/-! ### Commands that are stored already -/

/-- How a call ends. -/
inductive Outcome (F : Type) where
  | controlled (row : ControlRow)
  | requeued (row : Temporal.RecoveryRow)
  | quarantined (row : Events.ResolutionRow)
  | resolved (result : ActionExecutionResult F)
  | written
  | raised (message : String)

/-- `apply_control`, where the identity of the command is stored. -/
def ProcessControlInput.replay (c : ProcessControlInput) (existing : ControlRow) : Outcome F :=
  if existing.processInstanceId ≠ c.processInstanceId ∨ existing.actorId ≠ c.actorId ∨
      existing.commandType ≠ c.commandType ∨ existing.reason ≠ strip c.reason ∨
      existing.interventionId ≠ c.interventionId then
    .raised "control command ID was reused"
  else .controlled existing

/-- `requeue`, where the identity of the command is stored. -/
def replayRequeue (c : Temporal.RequeueOutboxInput) (existing : Temporal.RecoveryRow) : Outcome F :=
  if existing.outboxMessageId ≠ c.outboxMessageId ∨ existing.actorId ≠ c.actorId ∨
      existing.reason ≠ strip c.reason then
    .raised "requeue command ID was reused"
  else .requeued existing

/-- `_require_same_decision`: the result is compared as it is read back, by Python's `==`. -/
def requireSameDecision [FloatValues F] (stored : DecisionRow F) (c : OperatorActionResolution F) :
    Except String Unit :=
  requireThat
    (stored.id = c.decisionId ∧ stored.actorId = c.actorId ∧ stored.resolution = c.resolution ∧
      stored.evidence = c.evidence ∧ stored.providerReference = c.providerReference ∧
      agreeResults pyEq stored.result c.result)
    "action attempt already has a different reconciliation decision"

end

end TiramisuAgents.Operators
