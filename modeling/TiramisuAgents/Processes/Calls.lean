import TiramisuAgents.Core.Text
import TiramisuAgents.Communications.Safety

/-!
The calls on one process, statement by statement: the calls on its actions, and
`ProcessStateService.apply_decision` (`processes/state.py`), `record_intervention` and
`apply_control` (`processes/control.py`), `EventIngestionService.ingest` and
`QuarantineResolutionService.resolve` (`events`).

The calls on an action are those of `Actions.Calls` on the rows of that action; the process row
and its lock are common to all of them.  Before a proposal is persisted and at the gate of an
execution the safety check reads the process, its requests and the inbox; the circuit breakers
are an answer from outside.  The gateway is taken
action by action, although its transaction commits all the actions of a decision together.

What a call learns from outside these rows is the answer it is given: the rows of events and
attempts that `apply_decision` loads, the process an event correlates to, the clock.

* `ProcessCall`, `ProcessStage`, `ProcessAnswer`, `ProcessEvent`: the calls, where they stand,
  what they are told, and what can be observed of them.
* `advance`: one statement.
* `processCalls`: the code, with the locks of each stage.
-/

namespace TiramisuAgents

/-! ### Requests and results -/

/-- What is fixed for the calls on a process: the platform of its actions, the communication
policy of its definition, the text of an instant and the size of a JSON value. -/
structure Services (V : Type) where
  platform : Platform
  policy : CommunicationPolicy
  isoformat : Time → String
  bytes : V → ℕ

/-- The platform of an action. -/
def Services.on {V : Type} (S : Services V) (a : UUID) : Platform :=
  { S.platform with actionRequestId := a }

/-- The arguments of `apply_decision`. -/
structure DecisionInput (V : Type) where
  agentTurnId : UUID
  decision : AgentDecision
  terminalStates : Option (List ProcessStatus) := none
  completionRequirements : List (String × V) := []

/-- `AppliedProcessState`. -/
structure AppliedProcessState where
  agentTurnId : UUID
  decisionId : UUID
  version : ℕ
  status : ProcessStatus
  wakeConditions : List WakeCondition
  pendingActionRequestIds : List UUID
  terminal : Bool
  deriving DecidableEq, Repr

/-- `InterventionInput`. -/
structure InterventionInput where
  interventionId : UUID
  agentTurnId : UUID
  kind : String
  errorType : String
  error : String
  sources : SourceIds := {}
  deriving DecidableEq, Repr

/-- `ProcessControlInput`. -/
structure ProcessControlInput where
  commandId : UUID
  actorId : UUID
  commandType : ProcessControlType
  reason : String
  interventionId : Option UUID := none
  deriving DecidableEq, Repr

/-- What `ingest` uses of a `CanonicalEvent`; its identity stands for its source key. -/
structure CanonicalEvent (V : Type) where
  eventId : UUID
  eventType : String
  receivedAt : Time
  facts : List (FactObservation V) := []

/-- `OPERATOR_MANUAL_WAKE_EVENT_TYPE`. -/
def operatorManualWakeEventType : String := "operator.manual_wake"

/-- `RESERVED_KERNEL_EVENT_TYPES`. -/
def reservedKernelEventTypes : List String := [operatorManualWakeEventType]

/-! ### Calls -/

/-- The calls. -/
inductive ProcessCall (V : Type) where
  | action (actionRequestId : UUID) (call : Call)
  | applyDecision (command : DecisionInput V)
  | recordIntervention (value : InterventionInput)
  | applyControl (command : ProcessControlInput)
  | ingest (event : CanonicalEvent V)
  | resolveQuarantine (eventId : UUID)

/-- How a call that is not on an action ends. -/
inductive CallOutcome where
  | applied (state : AppliedProcessState)
  | recorded (intervention : ProcessIntervention)
  | controlled (command : ProcessControlCommand)
  | received (eventId : UUID)
  | rejected (message : String)
  | raised (message : String)
  deriving DecidableEq, Repr

/-- Where `apply_decision` stands; `row` is the process as it was locked. -/
inductive Applying (V : Type) where
  | opening
  | locked (row : ProcessRow V)
  | repeating (revision : ProcessStateRevision V)
  | checked (row : ProcessRow V)
  | projected (row : ProcessRow V) (facts : FactProjection V)
  | flushing (row : ProcessRow V) (facts : FactProjection V) (openActions : OpenActions)
      (transition : ProjectedProcessTransition)

/-- Where `record_intervention` stands. -/
inductive Intervening (V : Type) where
  | opening
  | fresh
  | locked (row : ProcessRow V)

/-- Where `apply_control` stands. -/
inductive Controlling (V : Type) where
  | opening
  | commanded (reason : String)
  | fresh (reason : String)
  | locked (reason : String) (row : ProcessRow V)

/-- Where the correlation of an event stands. -/
inductive Correlating where
  | opening
  | eventLocked
  | locked

/-- Where a call stands.  An action call keeps the time at which it was made, and after a safety
check what the check has found. -/
inductive ProcessStage (V : Type) where
  | idle
  | done (outcome : CallOutcome)
  | action (actionRequestId : UUID) (stage : Stage) (startedAt : Time)
  | inspected (actionRequestId : UUID) (stage : Stage) (startedAt now : Time)
      (block : Option CommunicationBlock)
  | applying (command : DecisionInput V) (a : Applying V)
  | intervening (value : InterventionInput) (i : Intervening V)
  | controlling (command : ProcessControlInput) (c : Controlling V)
  | ingesting (event : CanonicalEvent V) (c : Correlating)
  | resolvingEvent (eventId : UUID) (c : Correlating)

/-- What a statement is told. -/
inductive ProcessAnswer (V : Type) where
  | go
  | action (answer : Answer)
  | inspection (now : Time)
  | breakers (message : Option String)
  | sources (events attempts : List (FactSource V))
  | wake (eventId : UUID) (recordedAt : Time)
  | correlated (matched : Bool)

/-- What is observed: what is observed of an action, the provider being invoked for it, a
decision that is applied or found to be applied before, and a control. -/
inductive ProcessEvent (V : Type) where
  | action (actionRequestId : UUID) (event : ActionEvent)
  | sent (actionRequestId : UUID) (actionType : String) (now : Time)
  | applied (command : DecisionInput V) (state : AppliedProcessState)
  | repeated (command : DecisionInput V) (state : AppliedProcessState)
  | controlled (command : ProcessControlCommand)

/-- What happens to a call. -/
inductive ProcessInput (V : Type) where
  | call (call : ProcessCall V) (now : Time)
  | crash
  | answer (answer : ProcessAnswer V)

section

variable {V : Type}

/-- The first stage of a call. -/
def ProcessCall.start (now : Time) : ProcessCall V → ProcessStage V
  | .action a call => .action a call.start now
  | .applyDecision command => .applying command .opening
  | .recordIntervention value => .intervening value .opening
  | .applyControl command => .controlling command .opening
  | .ingest event => .ingesting event .opening
  | .resolveQuarantine eventId => .resolvingEvent eventId .opening

/-- The call is over, or there is none. -/
def ProcessStage.resting : ProcessStage V → Bool
  | .idle | .done _ => true
  | .action _ stage _ => stage.resting
  | _ => false

/-- The call is a call of the process; its status is written by the calls below, and the reviews
of an action have their own messages. -/
def ProcessCall.exposed : ProcessCall V → Bool
  | .action _ (.setProcessStatus _) | .action _ (.reviewElsewhere _ _ _) => false
  | _ => true

/-- The stage after a statement, the committed database and what is observed. -/
abbrev ProcessEffect (V : Type) :=
  Option (ProcessStage V × ProcessDatabase V × List (ProcessEvent V))

/-- A statement that commits nothing. -/
def ProcessStage.keep (t : ProcessStage V) (w : ProcessDatabase V) : ProcessEffect V :=
  some (t, w, [])

/-- A call ends. -/
def ProcessStage.stop (o : CallOutcome) (w : ProcessDatabase V) : ProcessEffect V :=
  (ProcessStage.done o).keep w

/-! ### Actions -/

/-- A statement of a call on an action; where a safety check stands before it, the check has to
be made first. -/
def actionStatement (S : Services V) (a : UUID) (stage : Stage) (startedAt : Time) (x : Answer)
    (w : ProcessDatabase V) : ProcessEffect V :=
  match stage with
  | .gating _ _ _ | .persistingLocked _ => none
  | _ =>
      (next (S.on a) stage (.answer x) (w.view a)).map fun r =>
        (.action a r.1 startedAt, w.put a r.2.1 startedAt, r.2.2.map (.action a))

/-- The safety check of the gateway on a proposal, and that of the fence at the gate. -/
def safetyCheck (S : Services V) (a : UUID) (now : Time) (w : ProcessDatabase V) :
    Stage → Option (Except String (Option CommunicationBlock))
  | .gating _ _ row => some (w.fenceBlock S.isoformat S.policy now a row.request.actionType)
  | .persistingLocked p =>
      some (.ok (w.gatewayBlock S.isoformat S.policy now a p.action.actionType))
  | _ => none

/-- A safety check is made. -/
def inspectStatement (S : Services V) (a : UUID) (stage : Stage) (startedAt now : Time)
    (w : ProcessDatabase V) : ProcessEffect V :=
  match safetyCheck S a now w stage with
  | some (.ok block) => (ProcessStage.inspected a stage startedAt now block).keep w
  | some (.error message) => ProcessStage.stop (.raised message) w
  | none => none

/-- The answer of the gate. -/
def gateBlock (block : Option CommunicationBlock) (breakers : Option String) : Option GateBlock :=
  match block with
  | some b => some (.communication b.message)
  | none => breakers.map .breaker

/-- After the safety check the provider is invoked, or the execution is blocked. -/
def gateStatement (S : Services V) (a : UUID) (stage : Stage) (startedAt now : Time)
    (block : Option CommunicationBlock) (breakers : Option String) (w : ProcessDatabase V) :
    ProcessEffect V :=
  match stage with
  | .gating _ _ row =>
      (next (S.on a) stage (.answer (.gate (gateBlock block breakers))) (w.view a)).map fun r =>
        (.action a r.1 startedAt, w.put a r.2.1 startedAt,
          r.2.2.map (.action a) ++
            if (gateBlock block breakers).isNone then [.sent a row.request.actionType now] else [])
  | _ => none

/-- After the safety check the gateway commits the proposal, or rejects it. -/
def proposalStatement (S : Services V) (a : UUID) (stage : Stage) (startedAt : Time)
    (block : Option CommunicationBlock) (error : Option String) (w : ProcessDatabase V) :
    ProcessEffect V :=
  match stage with
  | .persistingLocked _ =>
      (next (S.on a) stage (.answer (.check ((block.map CommunicationBlock.message).or error)))
          (w.view a)).map fun r =>
        (.action a r.1 startedAt, w.put a r.2.1 startedAt, r.2.2.map (.action a))
  | _ => none

/-! ### Decisions -/

/-- `_result`. -/
def ProcessStateRevision.result (r : ProcessStateRevision V) (openActions : OpenActions) :
    AppliedProcessState where
  agentTurnId := r.agentTurnId
  decisionId := r.decisionId
  version := r.version
  status := r.processStatus
  wakeConditions := r.wakeConditions
  pendingActionRequestIds := openActions.map Prod.fst
  terminal := r.processStatus.terminal

/-- `require_memory_content` with the default limits. -/
def requireMemoryContent (summary : Option String) (openCommitments : List String) :
    Except String Unit := do
  match summary with
  | some text => requireUtf8Bytes text "memory summary" (16 * 1024)
  | none => pure ()
  requireItemCount "open commitments" openCommitments.length 50
  openCommitments.forM fun commitment => requireUtf8Bytes commitment "open commitment" (2 * 1024)
  requireJsonBytes "open commitments" (jsonStringsBytes openCommitments) (32 * 1024)

/-- The memory after an update, which replaces a summary only by another. -/
def MemoryUpdate.onto (update memory : MemoryUpdate) : MemoryUpdate :=
  if update.summary.isSome then update
  else { memory with openCommitments := update.openCommitments }

/-- The process row that `apply_decision` writes. -/
def ProcessRow.apply (row : ProcessRow V) (decision : AgentDecision) (facts : FactProjection V)
    (transition : ProjectedProcessTransition) : ProcessRow V :=
  { row with
    status := transition.status
    facts := facts
    memory := decision.memoryUpdate.onto row.memory
    currentWakeConditions := transition.wakeConditions
    stateVersion := row.stateVersion + 1 }

/-- The revision of a process row that has been written. -/
def ProcessRow.revision (row : ProcessRow V) (agentTurnId : UUID) (decision : AgentDecision) :
    ProcessStateRevision V where
  agentTurnId := agentTurnId
  decisionId := decision.decisionId
  version := row.stateVersion
  decisionStatus := decision.status
  processStatus := row.status
  facts := row.facts
  memory := row.memory
  wakeConditions := row.currentWakeConditions
  basedOnEventIds := decision.basedOnEventIds
  basedOnReviewCommandIds := decision.basedOnReviewCommandIds
  basedOnActionAttemptIds := decision.basedOnActionAttemptIds
  basedOnTimerIds := decision.basedOnTimerIds

/-- The checks of `apply_decision` on the revisions and on the locked process. -/
def DecisionInput.check (c : DecisionInput V) (row : ProcessRow V) (w : ProcessDatabase V) :
    ProcessEffect V :=
  match w.revisionOf c.agentTurnId with
  | some revision =>
      if revision.decisionId ≠ c.decision.decisionId then
        ProcessStage.stop (.rejected "agent turn was reused for another decision") w
      else (ProcessStage.applying c (.repeating revision)).keep w
  | none =>
      if w.revisions.any fun r => r.decisionId = c.decision.decisionId then
        ProcessStage.stop (.rejected "decision was reused for another agent turn") w
      else if row.status.terminal then
        ProcessStage.stop (.rejected "terminal process state cannot accept another decision") w
      else if row.status = .paused then
        ProcessStage.stop (.rejected "paused process cannot accept an agent decision") w
      else (ProcessStage.applying c (.checked row)).keep w

/-- The projection of the facts of a decision, with the limits on it. -/
def DecisionInput.project (S : Services V) (c : DecisionInput V) (row : ProcessRow V)
    (events attempts : List (FactSource V)) : Except String (FactProjection V) := do
  let facts ← decisionProjection row.facts c.decision events attempts
  requireProcessFactProjection S.bytes facts
  return facts

/-- The transition of a decision, with the limits on its memory. -/
def DecisionInput.transition [BEq V] (c : DecisionInput V) (facts : FactProjection V)
    (openActions : OpenActions) : Except String ProjectedProcessTransition := do
  let transition ← projectProcessTransition c.decision openActions c.terminalStates
    facts.authoritative c.completionRequirements
  requireMemoryContent c.decision.memoryUpdate.summary c.decision.memoryUpdate.openCommitments
  return transition

/-- The commit of `apply_decision`. -/
def DecisionInput.commit (c : DecisionInput V) (row : ProcessRow V) (facts : FactProjection V)
    (openActions : OpenActions) (transition : ProjectedProcessTransition)
    (w : ProcessDatabase V) : ProcessEffect V :=
  let written := row.apply c.decision facts transition
  let revision := written.revision c.agentTurnId c.decision
  some (.done (.applied (revision.result openActions)),
    { w with process := written, revisions := w.revisions ++ [revision] },
    [.applied c (revision.result openActions)])

/-- `apply_decision`. -/
def Applying.statement [BEq V] (S : Services V) (c : DecisionInput V) :
    Applying V → ProcessAnswer V → ProcessDatabase V → ProcessEffect V
  | .opening, .go, w => (ProcessStage.applying c (.locked w.process)).keep w
  | .locked row, .go, w => c.check row w
  | .repeating revision, .go, w =>
      some (.done (.applied (revision.result w.openActions)), w,
        [.repeated c (revision.result w.openActions)])
  | .checked row, .sources events attempts, w =>
      match c.project S row events attempts with
      | .error message => ProcessStage.stop (.rejected message) w
      | .ok facts => (ProcessStage.applying c (.projected row facts)).keep w
  | .projected row facts, .go, w =>
      match c.transition facts w.openActions with
      | .error message => ProcessStage.stop (.rejected message) w
      | .ok transition =>
          (ProcessStage.applying c (.flushing row facts w.openActions transition)).keep w
  | .flushing row facts openActions transition, .go, w =>
      c.commit row facts openActions transition w
  | _, _, _ => none

/-! ### Interventions -/

/-- The row `record_intervention` inserts. -/
def InterventionInput.row (v : InterventionInput) : ProcessIntervention where
  id := v.interventionId
  agentTurnId := v.agentTurnId
  kind := v.kind
  status := .open_
  errorType := v.errorType
  error := .ofList (v.error.toList.take 10000)
  sources := v.sources

/-- The process row after an intervention. -/
def ProcessRow.intervene (row : ProcessRow V) : ProcessRow V :=
  if row.status.fenced then row
  else { row with status := .review, currentWakeConditions := [.human .operator] }

/-- `record_intervention`. -/
def Intervening.statement (v : InterventionInput) :
    Intervening V → ProcessAnswer V → ProcessDatabase V → ProcessEffect V
  | .opening, .go, w =>
      match w.interventions.find? fun r => r.agentTurnId = v.agentTurnId with
      | some existing => ProcessStage.stop (.recorded existing) w
      | none => (ProcessStage.intervening v .fresh).keep w
  | .fresh, .go, w => (ProcessStage.intervening v (.locked w.process)).keep w
  | .locked row, .go, w =>
      if w.interventions.any fun r => r.agentTurnId = v.agentTurnId ∨ r.id = v.interventionId then
        ProcessStage.stop (.raised "IntegrityError") w
      else
        some (.done (.recorded v.row),
          { w with process := row.intervene, interventions := w.interventions ++ [v.row] }, [])
  | _, _, _ => none

/-! ### Controls -/

/-- The reason of a control command. -/
def ProcessControlInput.checkedReason (c : ProcessControlInput) : Except String String := do
  let reason := strip c.reason
  requireThat (!(reason = "" ∨ reason.length > 10000))
    "control command reason must contain 1 to 10000 characters"
  requireUtf8Bytes reason "operator guidance" (16 * 1024)
  return reason

/-- A command that is stored already. -/
def ProcessControlInput.replay (c : ProcessControlInput) (reason : String)
    (existing : ProcessControlCommand) : CallOutcome :=
  if existing.actorId ≠ c.actorId ∨ existing.commandType ≠ c.commandType
      ∨ existing.reason ≠ reason ∨ existing.interventionId ≠ c.interventionId then
    .rejected "control command ID was reused"
  else .controlled existing

/-- What a control writes: the process row, the payload of the command, and the intervention it
resolves. -/
structure ControlWrite (V : Type) where
  process : ProcessRow V
  payload : Option SourceIds := none
  resolved : Option UUID := none

/-- The branches of `apply_control`. -/
def ProcessControlInput.write (c : ProcessControlInput) (row : ProcessRow V)
    (interventions : List ProcessIntervention) : Except String (ControlWrite V) :=
  match c.commandType with
  | .retry =>
      match c.interventionId with
      | none => .error "retry requires an intervention ID"
      | some id =>
          match interventions.find? fun r => r.id = id with
          | none => .error "intervention is not open"
          | some intervention =>
              if intervention.status ≠ .open_ then .error "intervention is not open"
              else
                .ok { process := { row with status := .active, currentWakeConditions := [] }
                      payload := some intervention.sources
                      resolved := some id }
  | .takeover =>
      if row.status = .paused then .error "process is already paused"
      else
        .ok { process :=
                { row with status := .paused, currentWakeConditions := [.human .operator] } }
  | .resume =>
      if row.status ≠ .paused then .error "only a paused process can be resumed"
      else .ok { process := { row with status := .active, currentWakeConditions := [] } }
  | .wake =>
      if row.status = .paused then .error "resume a paused process before waking it"
      else .ok { process := row }

/-- The command that `apply_control` stores. -/
def ProcessControlInput.row (c : ProcessControlInput) (reason : String)
    (payload : Option SourceIds) : ProcessControlCommand where
  id := c.commandId
  actorId := c.actorId
  interventionId := c.interventionId
  commandType := c.commandType
  reason := reason
  payload := payload

/-- The event of `_enqueue_manual_wake`. -/
def manualWake (eventId : UUID) (recordedAt : Time) : InboxRow V where
  id := eventId
  eventType := operatorManualWakeEventType
  correlationStatus := .matched
  receivedAt := recordedAt

/-- The interventions after one of them is resolved. -/
def resolveIntervention (interventions : List ProcessIntervention) (id : Option UUID)
    (commandId : UUID) : List ProcessIntervention :=
  interventions.map fun r =>
    if some r.id = id then { r with status := .resolved, resolvedByCommandId := some commandId }
    else r

/-- The commit of `apply_control`. -/
def ProcessControlInput.commit (c : ProcessControlInput) (reason : String) (write : ControlWrite V)
    (eventId : UUID) (recordedAt : Time) (w : ProcessDatabase V) : ProcessEffect V :=
  let wakes := c.commandType = .wake ∨ c.commandType = .resume
  if w.controls.any (fun r => r.id = c.commandId) ∨
      (wakes ∧ w.inbox.any fun r => r.id = eventId) then
    ProcessStage.stop (.raised "IntegrityError") w
  else
    some (.done (.controlled (c.row reason write.payload)),
      { w with
        process := write.process
        controls := w.controls ++ [c.row reason write.payload]
        interventions := resolveIntervention w.interventions write.resolved c.commandId
        inbox := if wakes then w.inbox ++ [manualWake eventId recordedAt] else w.inbox },
      [.controlled (c.row reason write.payload)])

/-- `apply_control`. -/
def Controlling.statement (c : ProcessControlInput) :
    Controlling V → ProcessAnswer V → ProcessDatabase V → ProcessEffect V
  | .opening, .go, w =>
      match c.checkedReason with
      | .error message => ProcessStage.stop (.rejected message) w
      | .ok reason => (ProcessStage.controlling c (.commanded reason)).keep w
  | .commanded reason, .go, w =>
      match w.controls.find? fun r => r.id = c.commandId with
      | some existing => ProcessStage.stop (c.replay reason existing) w
      | none => (ProcessStage.controlling c (.fresh reason)).keep w
  | .fresh reason, .go, w => (ProcessStage.controlling c (.locked reason w.process)).keep w
  | .locked reason row, .wake eventId recordedAt, w =>
      if row.status.terminal then
        ProcessStage.stop (.rejected "terminal processes cannot be controlled") w
      else
        match c.write row w.interventions with
        | .error message => ProcessStage.stop (.rejected message) w
        | .ok write => c.commit reason write eventId recordedAt w
  | _, _, _ => none

/-! ### Events -/

/-- The inbox row of an event. -/
def CanonicalEvent.row (e : CanonicalEvent V) (status : CorrelationStatus) : InboxRow V where
  id := e.eventId
  eventType := e.eventType
  correlationStatus := status
  receivedAt := e.receivedAt
  facts := e.facts

/-- Insert an event; one that is there stays as it is. -/
def CanonicalEvent.commit (e : CanonicalEvent V) (status : CorrelationStatus)
    (w : ProcessDatabase V) : ProcessEffect V :=
  if w.inbox.any fun r => r.id = e.eventId then ProcessStage.stop (.received e.eventId) w
  else some (.done (.received e.eventId), { w with inbox := w.inbox ++ [e.row status] }, [])

/-- `ingest`: an event that matches the process is inserted while its row is locked. -/
def CanonicalEvent.statement (e : CanonicalEvent V) :
    Correlating → ProcessAnswer V → ProcessDatabase V → ProcessEffect V
  | .opening, .correlated matched, w =>
      if reservedKernelEventTypes.contains e.eventType then
        ProcessStage.stop
          (.rejected s!"event type is reserved for kernel use: {e.eventType}") w
      else if w.inbox.any fun r => r.id = e.eventId then
        ProcessStage.stop (.received e.eventId) w
      else if matched then (ProcessStage.ingesting e .locked).keep w
      else e.commit .pending w
  | .locked, .go, w => e.commit .matched w
  | _, _, _ => none

/-- The inbox after an event is matched. -/
def matchEvent (inbox : List (InboxRow V)) (eventId : UUID) : List (InboxRow V) :=
  inbox.map fun r => if r.id = eventId then { r with correlationStatus := .matched } else r

/-- `resolve`: an event in quarantine is matched while its row and that of the process are
locked. -/
def Correlating.resolve (eventId : UUID) :
    Correlating → ProcessAnswer V → ProcessDatabase V → ProcessEffect V
  | .opening, .go, w => (ProcessStage.resolvingEvent eventId .eventLocked).keep w
  | .eventLocked, .go, w =>
      match w.inbox.find? fun r => r.id = eventId with
      | none => ProcessStage.stop (.rejected "quarantined event not found") w
      | some row =>
          if reservedKernelEventTypes.contains row.eventType then
            ProcessStage.stop
              (.rejected "kernel events cannot be replayed through quarantine") w
          else if row.correlationStatus = .matched then
            ProcessStage.stop
              (.rejected "event is already correlated; use delivery recovery if needed") w
          else (ProcessStage.resolvingEvent eventId .locked).keep w
  | .locked, .go, w =>
      some (.done (.received eventId), { w with inbox := matchEvent w.inbox eventId }, [])
  | _, _, _ => none

/-! ### One statement -/

/-- The next statement of a call. -/
def ProcessStage.statement [BEq V] (S : Services V) :
    ProcessStage V → ProcessAnswer V → ProcessDatabase V → ProcessEffect V
  | .action a stage startedAt, .action x, w => actionStatement S a stage startedAt x w
  | .action a stage startedAt, .inspection now, w => inspectStatement S a stage startedAt now w
  | .inspected a stage startedAt now block, .breakers message, w =>
      gateStatement S a stage startedAt now block message w
  | .inspected a stage startedAt _ block, .action (.check error), w =>
      proposalStatement S a stage startedAt block error w
  | .applying c a, x, w => a.statement S c x w
  | .intervening v i, x, w => i.statement v x w
  | .controlling c k, x, w => k.statement c x w
  | .ingesting e c, x, w => e.statement c x w
  | .resolvingEvent eventId c, x, w => c.resolve eventId x w
  | _, _, _ => none

/-- One step of a call. -/
def advance [BEq V] (S : Services V) (t : ProcessStage V) :
    ProcessInput V → ProcessDatabase V → ProcessEffect V
  | .call c now, w => if t.resting ∧ c.exposed then (c.start now).keep w else none
  | .crash, w => ProcessStage.idle.keep w
  | .answer x, w => t.statement S x w

/-! ### Locks -/

/-- The locks on the rows of a process, on an event and on the identity of a command. -/
inductive ProcessLock where
  | process
  | request (actionRequestId : UUID)
  | attempt (actionRequestId : UUID) (key : String)
  | event (eventId : UUID)
  | command (commandId : UUID)
  deriving DecidableEq, Repr

/-- The lock on a row of an action. -/
def RowLock.on (a : UUID) : RowLock → ProcessLock
  | .process => .process
  | .request => .request a
  | .attempt key => .attempt a key

/-- The locks of `apply_decision`. -/
def Applying.locks : Applying V → List ProcessLock
  | .opening => []
  | _ => [.process]

/-- The locks of `record_intervention`. -/
def Intervening.locks : Intervening V → List ProcessLock
  | .locked _ => [.process]
  | _ => []

/-- The locks of `apply_control`. -/
def Controlling.locks (commandId : UUID) : Controlling V → List ProcessLock
  | .opening => []
  | .commanded _ | .fresh _ => [.command commandId]
  | .locked _ _ => [.command commandId, .process]

/-- The locks of a stage. -/
def ProcessStage.locks : ProcessStage V → List ProcessLock
  | .idle | .done _ => []
  | .action a stage _ | .inspected a stage _ _ _ => stage.locks.map (RowLock.on a)
  | .applying _ a => a.locks
  | .intervening _ i => i.locks
  | .controlling c k => k.locks c.commandId
  | .ingesting _ .locked => [.process]
  | .ingesting _ _ => []
  | .resolvingEvent _ .opening => []
  | .resolvingEvent eventId .eventLocked => [.event eventId]
  | .resolvingEvent eventId .locked => [.event eventId, .process]

/-- The code of the calls on a process. -/
def processCalls [BEq V] (S : Services V) :
    Transactions.Code (ProcessDatabase V) (ProcessStage V) (ProcessInput V) (ProcessEvent V)
      ProcessLock where
  next := advance S
  locks := ProcessStage.locks

end

end TiramisuAgents
