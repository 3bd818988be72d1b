import TiramisuAgents.Library.Coroutine
import TiramisuAgents.Mailbox.Continuation

/-!
`temporal/workflows/mailbox.py`, the code: `ProcessMailboxWorkflow.run` as a coroutine
over the workflow object.

The environment's script decides everything the workflow does not: which signals arrive
and when, the answers of the Activities, the workflow tasks with their clock and Temporal's
Continue-As-New suggestion, and what other services commit to the process's rows meanwhile.
Signals are handled at every await point, including before `run` starts; the predicate of
`wait_condition` and the timers are looked at in workflow tasks.

* `Flow`: the workflow's monad; `Await` names its await points.
* `executePendingAction`, `runTurn`, `iteration`, `loop`, `run`: the methods of the source.
* `continueAsNew` ends a run and starts its successor; `stay` is the boundary of a workflow
  that never rolls over.
-/

namespace TiramisuAgents

open Coroutine

/-! ### Activities -/

/-- The arguments the three Activities of a turn share. -/
structure TurnCommand where
  tenantId : String
  processInstanceId : String
  processDefinitionId : String
  processDefinitionVersion : String
  turnId : String
  sources : TurnSources
  workflowNow : Time
  deriving DecidableEq, Repr

/-- The arguments of `execute_action` and `reconcile_action`. -/
structure ActionCommand where
  tenantId : String
  processInstanceId : String
  actionRequestId : String
  revision : ℤ
  deriving DecidableEq, Repr

/-- The arguments of `record_process_intervention`. -/
structure InterventionCommand where
  interventionId : String
  tenantId : String
  processInstanceId : String
  agentTurnId : String
  kind : String
  errorType : String
  error : String
  sources : TurnSources
  deriving DecidableEq, Repr

/-- An Activity with its arguments. -/
inductive Activity where
  | runAgentTurn (command : TurnCommand)
  | persistAgentActions (command : TurnCommand) (decision : AgentDecision)
  | persistProcessState (command : TurnCommand) (decision : AgentDecision)
  | executeAction (command : ActionCommand)
  | reconcileAction (command : ActionCommand)
  | recordProcessIntervention (command : InterventionCommand)
  deriving DecidableEq

/-- An `ActivityError`: its text and the `type` of each `ApplicationError` on its chain of
causes, outermost first. -/
structure ActivityError where
  message : String
  causes : List (Option String)
  deriving DecidableEq, Repr

/-- `_is_activity_error_type`. -/
def ActivityError.isType (error : ActivityError) (expectedType : String) : Bool :=
  error.causes.contains (some expectedType)

/-- `_activity_error_type`. -/
def ActivityError.errorType (error : ActivityError) : String :=
  match error.causes with
  | [] => "ActivityError"
  | type :: _ =>
      match type with
      | some name => if name = "" then "ApplicationError" else name
      | none => "ApplicationError"

/-- The projection `persist_process_state` returns. -/
structure ProcessOutcome where
  terminal : Bool
  wakeConditions : List WakeCondition
  deriving DecidableEq, Repr

/-- The answer of an Activity.  `persist_process_state` may answer without a projection
(`"terminal" not in process_state_result`). -/
inductive Reply where
  | turn (answer : Except ActivityError AgentDecision)
  | actions (answer : Except ActivityError (List PersistedItem))
  | processState (answer : Except ActivityError (Option ProcessOutcome))
  | executed (answer : Except ActivityError ExecutionResult)
  | reconciled (answer : Except ActivityError ExecutionResult)
  | intervention (answer : Except ActivityError Unit)

/-! ### The environment -/

/-- A transaction on the action requests of the process that commits while the workflow
runs: the gateway, a review, an operator's resolution or control, and the transactions of
the executor. -/
inductive Commit where
  | persist (agentTurnId : String) (items : List PersistedItem)
  | review (review : MailboxReview)
  | resolve (resolution : MailboxActionResolution)
  | control (control : MailboxControl)
  | beginExecution (actionRequestId : String)
  | beginReconciliation (actionRequestId : String)
  | recordOutcome (actionRequestId : String) (status : ActionAttemptStatus)
  deriving DecidableEq, Repr

/-- What the environment does next. -/
inductive Input where
  | signal (signal : Signal)
  | reply (reply : Reply)
  | task (now : Time) (continueAsNewSuggested : Bool)
  | commit (commit : Commit)

/-- What is observed of a run. -/
inductive Obs where
  | received (signal : Signal)
  | popped (source : Source)
  | started (activity : Activity)
  | completed (activity : Activity) (reply : Reply)
  | turnRecorded (record : TurnRecord)
  | committed (commit : Commit)

/-- Where a workflow may be found suspended: before `run` starts, in an Activity, asleep,
in `wait_condition`, or between two rounds of its loop. -/
inductive Await where
  | start
  | activity (activity : Activity)
  | sleep
  | waitCondition
  | loopHead
  deriving DecidableEq

/-- What a workflow raises: an `ActivityError`, or the `ApplicationError` of a bad
snapshot. -/
inductive Failure where
  | activity (error : ActivityError)
  | application (message : String)
  deriving DecidableEq, Repr

/-- The workflow object with the input of its run, whether its `run` method has started, and
what `workflow` tells it: the clock, Temporal's suggestion and the identities that
`workflow.uuid4` will draw. -/
structure Runtime where
  mailbox : Mailbox
  input : MailboxInput
  running : Bool
  now : Time
  suggested : Bool
  uuids : ℕ → String

/-- Workflow code. -/
abbrev Flow (α : Type) := Co Runtime Input Obs Await Failure α

/-- A signal runs its handler, a workflow task moves the clock; the rest passes the
workflow object by. -/
def environment : Handler Runtime Input Obs where
  absorb
    | .signal signal, rt => { rt with mailbox := rt.mailbox.handle signal }
    | .task now suggested, rt => { rt with now := now, suggested := suggested }
    | .reply _, rt => rt
    | .commit _, rt => rt
  observe
    | .signal signal => [.received signal]
    | .task _ _ => []
    | .reply _ => []
    | .commit commit => [.committed commit]

/-- Change the fields of the workflow object. -/
def update (u : Update) : Flow Unit :=
  Co.modify fun rt => { rt with mailbox := u.apply rt.mailbox }

/-- Take a message out of its buffer. -/
def take (source : Source) : Flow Unit := do
  Co.modify fun rt => { rt with mailbox := source.pop rt.mailbox }
  Co.emit (.popped source)

/-- `workflow.uuid4`. -/
def uuid4 : Flow String := do
  let id ← Co.gets fun rt => rt.uuids 0
  Co.modify fun rt => { rt with uuids := fun n => rt.uuids (n + 1) }
  return id

/-- `workflow.execute_activity`: the answer of the Activity, or its error raised. -/
def executeActivity {α : Type} (activity : Activity)
    (answer? : Reply → Option (Except ActivityError α)) : Flow α := do
  Co.emit (.started activity)
  let answer ← Co.suspend environment (.activity activity) fun _ input =>
    match input with
    | .reply reply => (answer? reply).map fun answer => (answer, [.completed activity reply])
    | _ => none
  match answer with
  | .ok value => return value
  | .error error => Co.raise (.activity error)

/-- The Activity `run_agent_turn`. -/
def runAgentTurn (command : TurnCommand) : Flow AgentDecision :=
  executeActivity (.runAgentTurn command) fun | .turn answer => some answer | _ => none

/-- The Activity `persist_agent_actions`. -/
def persistAgentActions (command : TurnCommand) (decision : AgentDecision) :
    Flow (List PersistedItem) :=
  executeActivity (.persistAgentActions command decision) fun
    | .actions answer => some answer
    | _ => none

/-- The Activity `persist_process_state`. -/
def persistProcessState (command : TurnCommand) (decision : AgentDecision) :
    Flow (Option ProcessOutcome) :=
  executeActivity (.persistProcessState command decision) fun
    | .processState answer => some answer
    | _ => none

/-- The Activity `execute_action`. -/
def executeAction (command : ActionCommand) : Flow ExecutionResult :=
  executeActivity (.executeAction command) fun | .executed answer => some answer | _ => none

/-- The Activity `reconcile_action`. -/
def reconcileAction (command : ActionCommand) : Flow ExecutionResult :=
  executeActivity (.reconcileAction command) fun | .reconciled answer => some answer | _ => none

/-- `_record_intervention`. -/
def recordIntervention (command : InterventionCommand) : Flow Unit :=
  executeActivity (.recordProcessIntervention command) fun
    | .intervention answer => some answer
    | _ => none

/-- `_SUSPENSION_RECHECK_DELAY`. -/
def suspensionRecheckDelay : Time := 60 * 1000000

/-- `workflow.sleep`. -/
def sleep (delay : Time) : Flow Unit := do
  let start ← Co.gets Runtime.now
  Co.suspend environment .sleep fun rt input =>
    match input with
    | .task _ _ => if start + delay ≤ rt.now then some ((), []) else none
    | _ => none

/-- `try … except ActivityError`, with the error as a value. -/
def attempt {α : Type} (m : Flow α) : Flow (Except ActivityError α) :=
  Co.tryCatch (do return .ok (← m)) fun
    | .activity error => return .error error
    | .application message => Co.raise (.application message)

/-- `self._closed`. -/
def isClosed : Flow Bool := Co.gets fun rt => rt.mailbox.closed

/-- `self._lifecycle_preemption_pending()`. -/
def preemptionPending : Flow Bool := Co.gets fun rt => rt.mailbox.lifecyclePreemptionPending

/-- The `while True` around an Activity that a suspended tenant blocks: the Activity is
retried after a delay as long as it fails with the suspension's error type, until the
workflow is closed. -/
def retryWhileSuspended {α : Type} (suspension : String) (m : Flow α) : Flow (Option α) :=
  Co.repeatUntil .sleep do
    match ← attempt m with
    | .ok value => return some (some value)
    | .error error =>
        if error.isType suspension then
          sleep suspensionRecheckDelay
          if ← isClosed then return some none else return none
        else
          Co.raise (.activity error)

/-! ### Executing an action -/

/-- The command for an action of the process. -/
def Runtime.actionCommand (rt : Runtime) (actionRequestId : String) (revision : ℤ) :
    ActionCommand where
  tenantId := rt.mailbox.tenantId
  processInstanceId := rt.mailbox.processInstanceId
  actionRequestId := actionRequestId
  revision := revision

/-- Record the answer of `execute_action` or `reconcile_action`. -/
def recordExecution (command : ActionCommand) (answer : Except ActivityError ExecutionResult) :
    Flow Unit :=
  update (.appendExecutionRecord {
    actionRequestId := command.actionRequestId
    revision := command.revision
    result := answer.toOption
    error := match answer with | .ok _ => none | .error error => some error.message })

/-- The error type that a mailbox never absorbs. -/
def deploymentCompatibilityError : String := "DeploymentCompatibilityError"

/-- The `except ActivityError` clauses of `_execute_pending_action`: record the error, and
raise it again if it is one of compatibility. -/
def absorbExecutionError {α : Type} (command : ActionCommand) (error : ActivityError)
    (value : α) : Flow α := do
  recordExecution command (.error error)
  if error.isType deploymentCompatibilityError then
    Co.raise (.activity error)
  else
    return value

/-- The result of an executed action after its reconciliation, which only an unknown
outcome needs. -/
def reconcileUnknown (command : ActionCommand) (result : ExecutionResult) :
    Flow ExecutionResult := do
  if result.status = .unknown then
    match ← attempt (reconcileAction command) with
    | .ok reconciled =>
        recordExecution command (.ok reconciled)
        return reconciled
    | .error error => absorbExecutionError command error result
  else
    return result

/-- Forget a pending action once its outcome is recorded. -/
def settlePendingAction (command : ActionCommand) (result : ExecutionResult) : Flow Unit :=
  if result.status.terminal then update (.removePendingAction command.actionRequestId)
  else pure ()

/-- The `try` body of `_execute_pending_action`. -/
def executeAndReconcile (command : ActionCommand) : Flow (Option ExecutionResult) := do
  match ← retryWhileSuspended "ActionExecutionSuspended" (executeAction command) with
  | none => return none
  | some executed =>
      recordExecution command (.ok executed)
      let result ← reconcileUnknown command executed
      settlePendingAction command result
      return some result

/-- `_execute_pending_action`. -/
def executePendingAction (actionRequestId : String) (revision : ℤ) :
    Flow (Option ExecutionResult) := do
  let command ← Co.gets fun rt => rt.actionCommand actionRequestId revision
  update (.addPendingAction actionRequestId)
  match ← attempt (executeAndReconcile command) with
  | .ok result => return result
  | .error error => absorbExecutionError command error none

/-! ### A turn -/

/-- `_LIFECYCLE_PREEMPTION_ERROR`. -/
def lifecyclePreemptionError : String := "turn superseded by operator lifecycle control"

/-- The error of a turn whose results may not be chained. -/
def chainLimitError : String := "automatic action-result chain limit reached"

/-- Append a record of the turn. -/
def recordTurn (record : TurnRecord) : Flow Unit := do
  update (.appendTurnRecord record)
  Co.emit (.turnRecorded record)

/-- What a turn has produced so far: the locals of `_run_turn` that its exits record. -/
structure TurnProgress where
  decision : Option AgentDecision := none
  actions : Option (List PersistedItem) := none
  executionResults : List ExecutionResult := []

/-- The record of a turn that a lifecycle control has superseded. -/
def TurnCommand.preemptionRecord (command : TurnCommand) (decision : Option AgentDecision)
    (actions : Option (List PersistedItem)) (executionResults : Option (List ExecutionResult)) :
    TurnRecord where
  turnId := command.turnId
  sources := command.sources
  decision := decision
  actions := actions
  executionResults := executionResults
  error := some lifecyclePreemptionError

/-- `_record_preempted_turn`. -/
def recordPreemptedTurn (command : TurnCommand) (decision : Option AgentDecision)
    (actions : Option (List PersistedItem)) (executionResults : Option (List ExecutionResult)) :
    Flow Unit :=
  recordTurn (command.preemptionRecord decision actions executionResults)

/-- The intervention a turn records for its sources or for its results. -/
def TurnCommand.intervention (command : TurnCommand) (interventionId kind errorType error : String)
    (sources : TurnSources) : InterventionCommand where
  interventionId := interventionId
  tenantId := command.tenantId
  processInstanceId := command.processInstanceId
  agentTurnId := command.turnId
  kind := kind
  errorType := errorType
  error := error
  sources := sources

/-- The record of a turn that an error has ended. -/
def TurnCommand.failureRecord (command : TurnCommand) (error : ActivityError) : TurnRecord where
  turnId := command.turnId
  sources := command.sources
  decision := none
  actions := none
  executionResults := none
  error := some error.message

/-- The `except ActivityError` clause of `_run_turn`. -/
def turnFailed (command : TurnCommand) (progress : TurnProgress) (error : ActivityError) :
    Flow Unit := do
  if ← preemptionPending then
    recordPreemptedTurn command progress.decision progress.actions
      (some progress.executionResults)
  else
    recordTurn (command.failureRecord error)
    let interventionId ← uuid4
    recordIntervention (command.intervention interventionId "turn_failure" error.errorType
      error.message command.sources)
    update (.park .operator)

/-- `_apply_turn_outcome`; without a projection the decision's own status and wake
conditions count. -/
def applyTurnOutcome (outcome : Option ProcessOutcome) (decision : AgentDecision) : Flow Unit :=
  let terminal := outcome.elim (decide (decision.status = .completed)) ProcessOutcome.terminal
  let wakes := outcome.elim decision.wakeConditions ProcessOutcome.wakeConditions
  if terminal then update .close
  else update (.installPlan decision.decisionId wakes)

/-- How the loop over the actions of a turn ends, with the results of those executed. -/
inductive ActionsEnd where
  | finished (results : List ExecutionResult) (requiresApproval : Bool)
  | preempted (results : List ExecutionResult)
  | failed (results : List ExecutionResult) (error : ActivityError)

/-- The loop of `_run_turn` over its actions, with the results and the approval flag so
far. -/
def executeActions : List PersistedItem → List ExecutionResult → Bool → Flow ActionsEnd
  | [], results, requiresApproval => return .finished results requiresApproval
  | item :: rest, results, requiresApproval => do
      if ← preemptionPending then
        return .preempted results
      else
        match item.outcome with
        | .allow =>
            match ← attempt (executePendingAction item.actionRequestId item.revision) with
            | .error error => return .failed results error
            | .ok execution => executeActions rest (results ++ execution.toList) requiresApproval
        | .requireApproval =>
            update (.addPendingAction item.actionRequestId)
            executeActions rest results true
        | .deny => executeActions rest results requiresApproval

/-- The record of a turn that has executed its actions. -/
def TurnCommand.completionRecord (command : TurnCommand) (decision : AgentDecision)
    (items : List PersistedItem) (results : List ExecutionResult) (chainLimitReached : Bool) :
    TurnRecord where
  turnId := command.turnId
  sources := command.sources
  decision := some decision
  actions := some items
  executionResults := some results
  error := if chainLimitReached then some chainLimitError else none

/-- The end of the `try` body of `_run_turn`.  `chain` runs the next turn on the results,
and is absent once the chain limit is reached. -/
def settleTurn (chain : Option (TurnSources → Flow Unit)) (command : TurnCommand)
    (decision : AgentDecision) (items : List PersistedItem) (outcome : Option ProcessOutcome)
    (results : List ExecutionResult) (requiresApproval : Bool) : Flow Unit := do
  let attemptIds := results.map ExecutionResult.attemptId
  recordTurn (command.completionRecord decision items results
    (!attemptIds.isEmpty && chain.isNone))
  if !attemptIds.isEmpty then
    match chain with
    | some next => next { actionAttemptIds := attemptIds }
    | none =>
        let interventionId ← uuid4
        recordIntervention (command.intervention interventionId "action_chain_limit"
          "ActionChainLimitReached" chainLimitError { actionAttemptIds := attemptIds })
        update (.park .operator)
  else if requiresApproval || (← Co.gets fun rt => !rt.mailbox.pendingActionRequestIds.isEmpty)
  then
    if outcome.isSome then applyTurnOutcome outcome decision
    else update (.park .approval)
  else
    applyTurnOutcome outcome decision

/-- The rest of a turn once its process state is persisted. -/
def finishTurn (chain : Option (TurnSources → Flow Unit)) (command : TurnCommand)
    (decision : AgentDecision) (items : List PersistedItem) (outcome : Option ProcessOutcome) :
    Flow Unit := do
  match ← executeActions items [] false with
  | .preempted results => recordPreemptedTurn command (some decision) (some items) (some results)
  | .failed results error => turnFailed command ⟨some decision, some items, results⟩ error
  | .finished results requiresApproval =>
      if ← preemptionPending then
        recordPreemptedTurn command (some decision) (some items) (some results)
      else
        match ← attempt
          (settleTurn chain command decision items outcome results requiresApproval) with
        | .ok () => return ()
        | .error error => turnFailed command ⟨some decision, some items, results⟩ error

/-- A turn that has persisted its actions. -/
def projectTurn (chain : Option (TurnSources → Flow Unit)) (command : TurnCommand)
    (decision : AgentDecision) (items : List PersistedItem) : Flow Unit := do
  if ← preemptionPending then
    recordPreemptedTurn command (some decision) (some items) none
  else
    match ← attempt (persistProcessState command decision) with
    | .error error => turnFailed command ⟨some decision, some items, []⟩ error
    | .ok outcome => finishTurn chain command decision items outcome

/-- A turn that has its decision. -/
def persistTurn (chain : Option (TurnSources → Flow Unit)) (command : TurnCommand)
    (decision : AgentDecision) : Flow Unit := do
  if ← preemptionPending then
    recordPreemptedTurn command (some decision) none none
  else
    match ← attempt (persistAgentActions command decision) with
    | .error error => turnFailed command ⟨some decision, none, []⟩ error
    | .ok items => projectTurn chain command decision items

/-- The `try … except` of `_run_turn`. -/
def turnBody (chain : Option (TurnSources → Flow Unit)) (command : TurnCommand) : Flow Unit := do
  match ← attempt (retryWhileSuspended "TenantSuspended" (runAgentTurn command)) with
  | .error error => turnFailed command {} error
  | .ok none => return ()
  | .ok (some decision) => persistTurn chain command decision

/-- The command of a turn, if the workflow has a process definition. -/
def Runtime.turnCommand (rt : Runtime) (turnId : String) (sources : TurnSources) :
    Option TurnCommand :=
  match rt.mailbox.processDefinitionId, rt.mailbox.processDefinitionVersion with
  | some definitionId, some version => some {
      tenantId := rt.mailbox.tenantId
      processInstanceId := rt.mailbox.processInstanceId
      processDefinitionId := definitionId
      processDefinitionVersion := version
      turnId := turnId
      sources := sources
      workflowNow := rt.now }
  | _, _ => none

/-- One call of `_run_turn`, with the turn that its results may be chained to. -/
def turn (chain : Option (TurnSources → Flow Unit)) (sources : TurnSources) : Flow Unit := do
  match ← Co.gets fun rt => rt.turnCommand (rt.uuids 0) sources with
  | none => return ()
  | some command =>
      let _ ← uuid4
      update .beginTurn
      Co.onExit (fun rt => { rt with mailbox := Update.endTurn.apply rt.mailbox })
        (turnBody chain command)

/-- `_run_turn`, with the number of turns that may still be chained to it: five less the
source's `chain_depth`. -/
def runTurn : ℕ → TurnSources → Flow Unit
  | 0, sources => turn none sources
  | remaining + 1, sources => turn (some (runTurn remaining)) sources

/-- The number of turns `run` lets a turn chain. -/
def chainLimit : ℕ := 5

/-! ### The loop -/

/-- Append a wake record for an event. -/
def recordEventWake (reason : String) (event : MailboxEvent) : Flow Unit := do
  let now ← Co.gets Runtime.now
  update (.appendWakeRecord {
    reason := reason
    eventId := some event.eventId
    eventType := some event.eventType
    timerId := none
    wokeAt := now })

/-- The branch of a buffered review. -/
def handleReview (review : MailboxReview) : Flow Unit := do
  update .start
  let now ← Co.gets Runtime.now
  update (.appendWakeRecord {
    reason := "review"
    eventId := none
    eventType := none
    timerId := none
    wokeAt := now
    reviewCommandId := some review.commandId
    reviewCommandType := some review.commandType })
  update .clearWakePlan
  if review.commandType = "approve" then
    match ← executePendingAction review.actionRequestId review.proposalRevision with
    | none => return ()
    | some execution => runTurn chainLimit { actionAttemptIds := [execution.attemptId] }
  else if review.commandType = "reject" ∨ review.commandType = "request_revision" then
    update (.removePendingAction review.actionRequestId)
    runTurn chainLimit { reviewCommandIds := [review.commandId] }
  else if review.commandType = "comment" then
    runTurn chainLimit { reviewCommandIds := [review.commandId] }

/-- The branch of a buffered action resolution. -/
def handleActionResolution (resolution : MailboxActionResolution) : Flow Unit := do
  update .start
  update (.removePendingAction resolution.actionRequestId)
  update .clearWakePlan
  runTurn chainLimit { actionAttemptIds := [resolution.actionAttemptId] }

/-- The branch of a buffered control. -/
def handleControl (control : MailboxControl) : Flow Unit := do
  update .start
  if control.commandType = "takeover" then
    update (.park .operator)
  else if control.commandType = "retry" then
    update .clearWakePlan
    runTurn chainLimit control.sources

/-- The branches of a manual wake and of a matching event. -/
def handleEvent (reason : String) (event : MailboxEvent) : Flow Unit := do
  update .start
  recordEventWake reason event
  update .clearWakePlan
  runTurn chainLimit { eventIds := [event.eventId] }

/-- The branch of a due timer. -/
def handleTimer : Flow Unit := do
  let timerId ← Co.gets fun rt => rt.mailbox.wakePlan.bind WakePlan.timerId
  update .start
  let now ← Co.gets Runtime.now
  update (.appendWakeRecord {
    reason := "timer"
    eventId := none
    eventType := none
    timerId := timerId
    wokeAt := now })
  update .clearWakePlan
  match timerId with
  | some id => runTurn chainLimit { timerIds := [id] }
  | none => return ()

/-- The branch of the initial event, which clears no plan. -/
def handleInitial (event : MailboxEvent) : Flow Unit := do
  update .start
  recordEventWake "process_started" event
  runTurn chainLimit { eventIds := [event.eventId] }

/-- `workflow.wait_condition` at the end of the loop body, with the timer deadline as its
timeout. -/
def waitCondition : Flow Unit := do
  let awaited ← Co.gets Runtime.mailbox
  Co.suspend environment .waitCondition fun rt input =>
    match input with
    | .task _ _ =>
        if rt.mailbox.wakeReady awaited.planRevision
            || awaited.timerDueAt.elim false (fun due => decide (due ≤ rt.now)) then
          some ((), [])
        else none
    | _ => none

/-- The message a branch takes out of its buffer. -/
def Branch.source : Branch → Option Source
  | .initial index event => some (.event index event)
  | .review command => some (.review command)
  | .actionResolution resolution => some (.actionResolution resolution)
  | .control command => some (.control command)
  | .manualWake index event => some (.event index event)
  | .matching index event => some (.event index event)
  | .timer => none
  | .wait => none

/-- What a branch does once its message is taken. -/
def Branch.body : Branch → Flow Unit
  | .initial _ event => handleInitial event
  | .review command => handleReview command
  | .actionResolution resolution => handleActionResolution resolution
  | .control command => handleControl command
  | .manualWake _ event => handleEvent "operator_manual_wake" event
  | .matching _ event => handleEvent "event" event
  | .timer => handleTimer
  | .wait => waitCondition

/-- The `pop` of a branch. -/
def Branch.takeMessage (branch : Branch) : Flow Unit :=
  match branch.source with
  | some source => take source
  | none => pure ()

/-- The loop body of `run` below the Continue-As-New check. -/
def iteration : Flow Unit := do
  let branch ← Co.gets fun rt => rt.mailbox.nextBranch rt.now
  branch.takeMessage
  branch.body

/-- The loop body of `run`; `boundary` is what happens where the source continues as new. -/
def round (boundary : Flow Unit) : Flow Unit := do
  if ← Co.gets fun rt => rt.mailbox.shouldContinueAsNew rt.suggested then boundary
  else iteration

/-- The `while not self._closed` of `run`, for a number of rounds. -/
def loop (boundary : Flow Unit) : ℕ → Flow Unit
  | 0 => Co.halt .loopHead
  | rounds + 1 => do
      if ← isClosed then
        return ()
      else
        round boundary
        loop boundary rounds

/-- A workflow task reaches a workflow that has not started its `run`. -/
def awaitTask : Flow Unit :=
  Co.suspend environment .start fun _ input =>
    match input with
    | .task _ _ => some ((), [])
    | _ => none

/-- The `run` method starts: it takes over its input and restores the snapshot. -/
def restore (iso : IsoCodec) : Flow Unit := do
  match ← Co.gets fun rt => rt.mailbox.beginRun iso rt.input with
  | .ok mailbox => Co.modify fun rt => { rt with mailbox := mailbox, running := true }
  | .error message => Co.raise (.application message)

/-- A fresh workflow object; signals may be handled before its `run` starts. -/
def start (iso : IsoCodec) (input : MailboxInput) : Flow Unit := do
  Co.modify fun rt => { rt with mailbox := {}, input := input, running := false }
  awaitTask
  restore iso

/-- `workflow.continue_as_new`: the successor run starts from the snapshot. -/
def continueAsNew (iso : IsoCodec) : Flow Unit := do
  let input ← Co.gets fun rt => rt.mailbox.continuationInput iso
  start iso input

/-- The boundary of a workflow that stays in its run: the signals of the same time are
handled in place, and only the turn counter is reset. -/
def stay : Flow Unit := do
  awaitTask
  Co.modify fun rt => { rt with mailbox := { rt.mailbox with turnsSinceContinue := 0 } }

/-- `ProcessMailboxWorkflow.run` and its successors, for a number of rounds. -/
def run (iso : IsoCodec) (input : MailboxInput) (rounds : ℕ) : Flow Unit := do
  start iso input
  loop (continueAsNew iso) rounds

/-- The world a process's first run is started in. -/
def initialWorld (input : MailboxInput) (uuids : ℕ → String) : World Runtime Obs :=
  ⟨{ mailbox := {}, input := input, running := false, now := 0, suggested := false,
      uuids := uuids }, []⟩

end TiramisuAgents
