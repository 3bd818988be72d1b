import TiramisuAgents.Budgets.Breakers
import TiramisuAgents.Budgets.Ledger
import TiramisuAgents.Communications.Policy
import TiramisuAgents.Core.Definitions
import TiramisuAgents.Library.Tables
import TiramisuAgents.Processes.Facts

/-!
`run_agent_turn` (`temporal/activities/agent_turn.py`), with the model call of
`OpenAIAgentsTurnRunner.run_turn` (`agents/openai_runner.py`).

An execution of the Activity loads its turn, and then proposes up to three times: it checks in one
transaction whether a model call is allowed, calls the model, records the usage in another
transaction, and validates the decision.  Any number of executions run over the tables of one
tenant, next to whatever else moves the processes and the breakers.

* `AgentDecisionOutput.toAgentDecision`, `TurnWorker.runTurn`: what becomes of the result of a call.
* `Execution`, `Proposal`, `Stage`, `Answer`: the executions and where they stand.
* `TurnEvent`: what is observed of them.
* `agentTurns`: the code.
-/

namespace TiramisuAgents.Budgets

open Tables Transactions

/-! ### The input and the output of a model call -/

/-- `ActionResultContext`, as far as it is read here. -/
structure ActionResultContext (V : Type) where
  source : FactSource V
  actionType : String
  parameters : Parameters
  status : ActionAttemptStatus

/-- `AgentTurnInput`, as far as it is read here. -/
structure AgentTurnInput (V : Type) where
  events : List (FactSource V) := []
  reviewCommandIds : List UUID := []
  actionResults : List (ActionResultContext V) := []
  timerIds : List String := []
  authoritativeFacts : List (String × V) := []

/-- `ActionProposalOutput`. -/
structure ActionProposalOutput where
  logicalActionKey : String
  actionType : String
  parametersJson : String
  rationale : String
  deriving DecidableEq, Repr

/-- `AgentDecisionOutput`. -/
structure AgentDecisionOutput where
  status : DecisionStatus
  actions : List ActionProposalOutput := []
  wakeConditions : List WakeCondition := []
  memoryUpdate : MemoryUpdate := {}
  deriving DecidableEq, Repr

/-- What an `AgentsSDKExecutor` returns: the output and the reported usage. -/
structure AgentsSDKResult (β : Type) where
  finalOutput : β
  inputTokens : ℤ
  outputTokens : ℤ
  deriving DecidableEq, Repr

/-- `ModelTurnOutcome`. -/
structure ModelTurnOutcome where
  decision : AgentDecision
  usage : ModelUsage
  model : String
  deriving DecidableEq

/-- `ProposalCorrection`. -/
structure ProposalCorrection where
  correctionAttempt : ℕ
  rejectedDecision : AgentDecision
  validationError : String
  deriving DecidableEq

/-- The text `json.loads` decodes to an object, to another value, or not at all. -/
abbrev JsonLoads := String → Except String (Option Parameters)

/-- `to_action_proposal`, for proposals with new identities from one on. -/
def toActionProposals (loads : JsonLoads) (fresh : ℕ → UUID) :
    ℕ → List ActionProposalOutput → Except String (List ActionProposal)
  | _, [] => .ok []
  | k, action :: rest =>
      match loads action.parametersJson with
      | .error message => .error message
      | .ok none => .error "action parameters_json must decode to an object"
      | .ok (some parameters) =>
          (toActionProposals loads fresh (k + 1) rest).map fun actions =>
            ⟨fresh k, action.logicalActionKey, action.actionType, parameters, action.rationale⟩
              :: actions

/-- `to_agent_decision`. -/
def AgentDecisionOutput.toAgentDecision {V : Type} (o : AgentDecisionOutput) (loads : JsonLoads)
    (fresh : ℕ → UUID) (input : AgentTurnInput V) : Except String AgentDecision :=
  match toActionProposals loads fresh 1 o.actions with
  | .error message => .error message
  | .ok actions =>
      if h : o.status = .waiting → o.wakeConditions ≠ [] then
        .ok { decisionId := fresh 0
              basedOnEventIds := input.events.map (·.id)
              basedOnReviewCommandIds := input.reviewCommandIds
              basedOnActionAttemptIds := input.actionResults.map (·.source.id)
              basedOnTimerIds := input.timerIds
              status := o.status
              actions := actions
              wakeConditions := o.wakeConditions
              memoryUpdate := o.memoryUpdate
              waitingWakes := h }
      else .error "a waiting decision requires at least one wake condition"

/-! ### Workers -/

/-- A process definition, as far as a turn reads it. -/
structure TurnDefinition (V : Type) where
  budget : ModelBudget
  communicationPolicy : CommunicationPolicy
  decisionPolicy : DecisionPolicy V

/-- `AgentTurnActivities` and its runner: their configuration, and the functions they use from
outside (`model_validate` of the output type, `json.loads`, `action_payload_identity`,
`isoformat`). -/
structure TurnWorker (V β : Type) where
  tenantId : UUID
  tenantAuthorized : Bool := true
  registry : String → String → Option (TurnDefinition V)
  model : String
  modelPrices : List (String × PriceEntry)
  tenantSpendCaps : TenantSpendCaps := {}
  platformModelPaused : Bool := false
  modelValidate : β → Except String AgentDecisionOutput
  loads : JsonLoads
  identity : String → Parameters → String
  isoformat : Time → String
  /-- The constructor of the runner asks for a model. -/
  named : strip model ≠ ""

section

variable {V β : Type} (W : TurnWorker V β)

/-- The end of `OpenAIAgentsTurnRunner.run_turn`, after the executor has returned. -/
def TurnWorker.runTurn (fresh : ℕ → UUID) (input : AgentTurnInput V) (r : AgentsSDKResult β) :
    Except String ModelTurnOutcome :=
  match W.modelValidate r.finalOutput with
  | .error message => .error message
  | .ok output =>
      match modelUsage r.inputTokens r.outputTokens with
      | .error message => .error message
      | .ok usage =>
          (output.toAgentDecision W.loads fresh input).map fun decision =>
            ⟨decision, usage, W.model⟩

/-- `conflicted_action_payload_hashes`. -/
def TurnWorker.conflicted (input : AgentTurnInput V) : List String :=
  (input.actionResults.filter fun r => r.status = .conflict).map fun r =>
    W.identity r.actionType r.parameters

/-- `validate_decision` as the turn calls it. -/
def TurnWorker.validate [BEq V] (input : AgentTurnInput V) (policy : DecisionPolicy V)
    (workflowNow : Time) (decision : AgentDecision) : Except String AgentDecision :=
  validateDecision W.identity decision policy workflowNow
    { eventIds := some (input.events.map (·.id))
      reviewCommandIds := some input.reviewCommandIds
      actionAttemptIds := some (input.actionResults.map (·.source.id))
      timerIds := some input.timerIds }
    (W.conflicted input)
    (some (prospectiveFacts input.authoritativeFacts input.events
      (input.actionResults.map (·.source)))) true

end

/-! ### Tables -/

/-- A row of `process_instances`, as far as a turn reads it. -/
structure ProcessInstance where
  id : UUID
  processType : String
  definitionVersion : String
  status : ProcessStatus
  createdAt : Time
  deriving DecidableEq, Repr

/-- The rows of a tenant. -/
structure TurnDatabase where
  processes : List ProcessInstance := []
  breakers : List CircuitBreaker := []
  ledger : List ModelUsageLedger := []
  deriving DecidableEq, Repr

/-- The row of a process. -/
def TurnDatabase.process (db : TurnDatabase) (id : UUID) : Option ProcessInstance :=
  lookup ProcessInstance.id id db.processes

/-! ### Executions -/

/-- `AgentTurnCommand`, as far as it is read here. -/
structure AgentTurnCommand where
  processInstanceId : UUID
  processDefinitionId : String
  processDefinitionVersion : String
  turnId : UUID
  workflowNow : Time
  deriving DecidableEq, Repr

/-- An execution of the Activity. -/
structure Execution where
  command : AgentTurnCommand
  executionId : UUID
  deriving DecidableEq, Repr

/-- An execution in its loop: what it has loaded, and the proposal it is at. -/
structure Proposal (V : Type) where
  execution : Execution
  definition : TurnDefinition V
  input : AgentTurnInput V
  attempt : ℕ := 1
  correction : Option ProposalCorrection := none

/-- The process of a proposal. -/
def Proposal.processId {V : Type} (p : Proposal V) : UUID :=
  p.execution.command.processInstanceId

/-- The model call of a proposal. -/
def Proposal.key {V : Type} (p : Proposal V) : UsageKey where
  processInstanceId := p.processId
  agentTurnId := p.execution.command.turnId
  executionId := p.execution.executionId
  attemptNumber := p.attempt

/-- The statements of `_require_model_execution_allowed`, with the status of the process that the
first of them has read. -/
inductive Checkpoint where
  | process
  | budget (status : ProcessStatus)
  | tenant (status : ProcessStatus)
  | breakers (status : ProcessStatus) (scope : BreakerScope)
  | release (status : ProcessStatus)
  deriving DecidableEq, Repr

/-- Where an execution stands. -/
inductive TurnStage (V : Type) where
  | idle
  | loading (e : Execution) (definition : TurnDefinition V)
  | checking (p : Proposal V) (point : Checkpoint)
  | rendering (p : Proposal V)
  | calling (p : Proposal V)
  | recording (p : Proposal V) (outcome : ModelTurnOutcome) (costMicros : ℕ)

/-- The execution of a stage. -/
def TurnStage.execution {V : Type} : TurnStage V → Option Execution
  | .idle => none
  | .loading e _ => some e
  | .checking p _ | .rendering p | .calling p | .recording p _ _ => some p.execution

/-- An exception: its type and its message, and whether Temporal does without a retry. -/
structure TurnError where
  type : String
  message : String
  nonRetryable : Bool := true
  deriving DecidableEq, Repr

/-- What a statement is told: the command and the identity of an execution; whether the tenant
check, the checks on the command and the rest of the context loader go well; the result of the
executor; the identity of a row; or what happens to the tables from outside. -/
inductive TurnAnswer (V β : Type) where
  | start (command : AgentTurnCommand) (executionId : UUID)
  | context (tenant : Option String) (arguments : Option TurnError)
      (input : Except TurnError (AgentTurnInput V))
  | tenant (error : Option String)
  | go
  | release (error : Option String)
  | rendered (error : Option TurnError)
  | result (r : AgentsSDKResult β) (fresh : ℕ → UUID)
  | failed (error : TurnError)
  | recorded (id : UUID)
  | ledgerFailure (error : TurnError)
  | crash
  | created (row : ProcessInstance)
  | moved (processId : UUID) (status : ProcessStatus)
  | transition (row : CircuitBreaker)

/-- The answer with which a statement of a check passes. -/
def Checkpoint.pass {V β : Type} : Checkpoint → TurnAnswer V β
  | .process => .tenant none
  | .release _ => .release none
  | _ => .go

/-- How an execution ends. -/
inductive TurnOutcome where
  | returned (decision : AgentDecision) (proposalAttemptCount : ℕ)
  | raised (error : TurnError)
  deriving DecidableEq

/-- What is observed: an execution starts; a check passes, for a process with a status; the executor
is called; it returns; the execution ends. -/
inductive TurnEvent (β : Type) where
  | started (e : Execution)
  | checked (key : UsageKey) (status : ProcessStatus)
  | called (key : UsageKey)
  | returned (key : UsageKey) (r : AgentsSDKResult β)
  | finished (e : Execution) (outcome : TurnOutcome)
  deriving DecidableEq

section

variable {V β : Type} (W : TurnWorker V β)

/-- The stage after a statement, the committed tables and what is observed. -/
abbrev TurnEffect (V β : Type) := Option (TurnStage V × TurnDatabase × List (TurnEvent β))

/-- An execution ends. -/
def Execution.finish (e : Execution) (o : TurnOutcome) (db : TurnDatabase) : TurnEffect V β :=
  some (.idle, db, [.finished e o])

/-- An execution raises. -/
def Execution.raise (e : Execution) (type message : String) (db : TurnDatabase) :
    TurnEffect V β :=
  e.finish (.raised ⟨type, message, true⟩) db

/-- The tenant check has failed. -/
def Execution.blocked (e : Execution) (type : String) (db : TurnDatabase) : TurnEffect V β :=
  e.raise type "tenant safety control blocks agent execution" db

/-- The start of `run_agent_turn`. -/
def startTurn (e : Execution) (db : TurnDatabase) : TurnEffect V β :=
  if W.tenantAuthorized = false then
    some (.idle, db, [.started e, .finished e (.raised ⟨"TenantNotAuthorized",
      "worker deployment is not authorized for this tenant", true⟩)])
  else
    match W.registry e.command.processDefinitionId e.command.processDefinitionVersion with
    | none =>
        some (.idle, db, [.started e, .finished e (.raised ⟨"DeploymentCompatibilityError",
          "process definition is not present in the deployed client pack", true⟩)])
    | some definition => some (.loading e definition, db, [.started e])

/-- The transaction that loads the turn. -/
def loadTurn (e : Execution) (definition : TurnDefinition V) (tenant : Option String)
    (arguments : Option TurnError) (input : Except TurnError (AgentTurnInput V))
    (db : TurnDatabase) : TurnEffect V β :=
  match tenant, arguments, db.process e.command.processInstanceId, input with
  | some type, _, _, _ => e.blocked type db
  | none, some error, _, _ => e.finish (.raised error) db
  | none, none, none, _ => e.raise "AgentContextError" "process instance not found" db
  | none, none, some row, input =>
      if row.processType ≠ e.command.processDefinitionId ∨
          row.definitionVersion ≠ e.command.processDefinitionVersion then
        e.raise "DeploymentCompatibilityError"
          "process instance definition identity does not match the workflow command" db
      else
        match input with
        | .error error => e.finish (.raised error) db
        | .ok input => some (.checking { execution := e, definition, input } .process, db, [])

/-- `_require_model_execution_allowed`: the tenant, the process and its lifetime. -/
def checkProcess (p : Proposal V) (tenant : Option String) (db : TurnDatabase) : TurnEffect V β :=
  match tenant, db.process p.processId with
  | some type, _ => p.execution.blocked type db
  | none, none =>
      p.execution.raise "DeploymentCompatibilityError" "process instance is unavailable" db
  | none, some row =>
      match evaluateProcessLifetime W.isoformat row.createdAt p.definition.communicationPolicy
          p.execution.command.workflowNow with
      | some block => p.execution.raise "ProcessLifetimeExceeded" block.message db
      | none => some (.checking p (.budget row.status), db, [])

/-- The budget of the process. -/
def checkBudget (p : Proposal V) (status : ProcessStatus) (db : TurnDatabase) : TurnEffect V β :=
  let s := spent db.ledger p.processId
  match evaluateModelBudget p.definition.budget s.1 s.2 with
  | block :: _ => p.execution.raise "ModelBudgetExceeded" block.message db
  | [] => some (.checking p (.tenant status), db, [])

/-- The fence of the tenant, and the pause of the platform. -/
def checkTenant (p : Proposal V) (status : ProcessStatus) (db : TurnDatabase) : TurnEffect V β :=
  let s := tenantSpent db.ledger
  match evaluateTenantSpend s.1 s.2 W.tenantSpendCaps with
  | some block => p.execution.raise "ModelBudgetExceeded" block.message db
  | none =>
      if W.platformModelPaused then
        p.execution.raise "ModelBudgetExceeded" "platform model calls are paused" db
      else some (.checking p (.breakers status .all), db, [])

/-- `open_for_model_calls`, one scope after the other. -/
def checkBreakers (p : Proposal V) (status : ProcessStatus) (scope : BreakerScope)
    (db : TurnDatabase) : TurnEffect V β :=
  match latest db.breakers W.tenantId scope "" with
  | .error message => p.execution.finish (.raised ⟨"ValueError", message, false⟩) db
  | .ok current =>
      match current.filter (·.tripped) with
      | some opened =>
          p.execution.raise "ModelBudgetExceeded"
            s!"circuit breaker open ({opened.scope.value}): {opened.reason}" db
      | none =>
          if scope = .all then some (.checking p (.breakers status .modelCalls), db, [])
          else some (.checking p (.release status), db, [])

/-- The end of the check: the process fits the deployment. -/
def checkRelease (p : Proposal V) (status : ProcessStatus) (error : Option String)
    (db : TurnDatabase) : TurnEffect V β :=
  match error with
  | some message => p.execution.raise "DeploymentCompatibilityError" message db
  | none => some (.rendering p, db, [.checked p.key status])

/-- The result of the executor, up to the transaction of `_record_model_usage`. -/
def receiveResult (p : Proposal V) (r : AgentsSDKResult β) (fresh : ℕ → UUID) (db : TurnDatabase) :
    TurnEffect V β :=
  match W.runTurn fresh p.input r with
  | .error message =>
      some (.idle, db,
        [.returned p.key r, .finished p.execution (.raised ⟨"ValueError", message, false⟩)])
  | .ok outcome =>
      match estimateCostMicros outcome.model outcome.usage W.modelPrices with
      | .error message =>
          some (.idle, db,
            [.returned p.key r,
              .finished p.execution (.raised ⟨"UnknownModelPrice", message, true⟩)])
      | .ok costMicros => some (.recording p outcome costMicros, db, [.returned p.key r])

/-- The row of a call. -/
def Proposal.row (p : Proposal V) (outcome : ModelTurnOutcome) (costMicros : ℕ) (id : UUID) :
    ModelUsageLedger where
  id := id
  key := p.key
  model := outcome.model
  usage := outcome.usage
  costMicros := costMicros
  priceTableVersion := priceTableVersion

/-- The transaction of `_record_model_usage`, and the end of the loop body. -/
def recordUsage [BEq V] (p : Proposal V) (outcome : ModelTurnOutcome) (costMicros : ℕ) (id : UUID)
    (db : TurnDatabase) : TurnEffect V β :=
  match record db.ledger (p.row outcome costMicros id) with
  | .error message => p.execution.finish (.raised ⟨"ValueError", message, false⟩) db
  | .ok (ledger, _) =>
      let db := { db with ledger }
      match W.validate p.input p.definition.decisionPolicy p.execution.command.workflowNow
          outcome.decision with
      | .ok validated => p.execution.finish (.returned validated p.attempt) db
      | .error message =>
          if 2 < p.attempt then p.execution.raise "DecisionRejected" message db
          else
            let correction := ⟨p.attempt, outcome.decision, message⟩
            some (.checking { p with attempt := p.attempt + 1, correction := some correction }
              .process, db, [])

/-- What happens to the tables from outside: a process is created or its status moves, a breaker
moves. -/
def TurnDatabase.outside (db : TurnDatabase) : TurnAnswer V β → Option TurnDatabase
  | .created row =>
      if (db.process row.id).isSome then none
      else some { db with processes := db.processes ++ [row] }
  | .moved processId status =>
      some { db with
        processes := modify ProcessInstance.id processId (fun r => { r with status }) db.processes }
  | .transition row => some { db with breakers := db.breakers ++ [row] }
  | _ => none

/-- The next statement. -/
def advanceTurn [BEq V] : TurnStage V → TurnAnswer V β → TurnDatabase → TurnEffect V β
  | .idle, .start command executionId, db => startTurn W ⟨command, executionId⟩ db
  | .idle, x, db => (db.outside x).map fun db' => (.idle, db', [])
  | _, .crash, db => some (.idle, db, [])
  | .loading e definition, .context tenant arguments input, db =>
      loadTurn e definition tenant arguments input db
  | .checking p .process, .tenant error, db => checkProcess W p error db
  | .checking p (.budget status), .go, db => checkBudget p status db
  | .checking p (.tenant status), .go, db => checkTenant W p status db
  | .checking p (.breakers status scope), .go, db => checkBreakers W p status scope db
  | .checking p (.release status), .release error, db => checkRelease p status error db
  | .rendering p, .rendered none, db => some (.calling p, db, [.called p.key])
  | .rendering p, .rendered (some error), db => p.execution.finish (.raised error) db
  | .calling p, .result r fresh, db => receiveResult W p r fresh db
  | .calling p, .failed error, db => p.execution.finish (.raised error) db
  | .recording p outcome costMicros, .recorded id, db => recordUsage W p outcome costMicros id db
  | .recording p _ _, .ledgerFailure error, db => p.execution.finish (.raised error) db
  | _, _, _ => none

/-- The executions of `run_agent_turn`; the identity of an execution is its own. -/
def agentTurns [BEq V] :
    Code TurnDatabase (TurnStage V) (TurnAnswer V β) (TurnEvent β) UUID where
  next := advanceTurn W
  locks t := (t.execution.map (·.executionId)).toList

/-- Nothing from outside writes the ledger. -/
lemma outside_ledger {db db' : TurnDatabase} {x : TurnAnswer V β} (h : db.outside x = some db') :
    db'.ledger = db.ledger := by
  rw [TurnDatabase.outside.eq_def] at h
  split at h
  · split_ifs at h
    cases h
    rfl
  · cases h
    rfl
  · cases h
    rfl
  · cases h

/-! ### What a statement does -/

variable {W}

/-- No transition of the tenant leaves a scope tripped. -/
def TurnDatabase.Untripped (db : TurnDatabase) (tenantId : UUID) (scope : BreakerScope) : Prop :=
  ∃ current, latest db.breakers tenantId scope "" = .ok current ∧ current.filter (·.tripped) = none

/-- The part of a check after one of its statements, and what the statement has found. -/
inductive Passes (W : TurnWorker V β) (db : TurnDatabase) (p : Proposal V) :
    Checkpoint → Checkpoint → Prop where
  | process (row : ProcessInstance) : db.process p.processId = some row →
      evaluateProcessLifetime W.isoformat row.createdAt p.definition.communicationPolicy
        p.execution.command.workflowNow = none →
      Passes W db p .process (.budget row.status)
  | budget (status : ProcessStatus) :
      evaluateModelBudget p.definition.budget (spent db.ledger p.processId).1
        (spent db.ledger p.processId).2 = [] →
      Passes W db p (.budget status) (.tenant status)
  | tenant (status : ProcessStatus) :
      evaluateTenantSpend (tenantSpent db.ledger).1 (tenantSpent db.ledger).2
        W.tenantSpendCaps = none →
      W.platformModelPaused = false →
      Passes W db p (.tenant status) (.breakers status .all)
  | breakers (status : ProcessStatus) : db.Untripped W.tenantId .all →
      Passes W db p (.breakers status .all) (.breakers status .modelCalls)
  | lastBreaker (status : ProcessStatus) (scope : BreakerScope) : scope ≠ .all →
      db.Untripped W.tenantId scope →
      Passes W db p (.breakers status scope) (.release status)

/-- What a statement of an execution does. -/
inductive TurnMoves [BEq V] (W : TurnWorker V β) (db : TurnDatabase) :
    TurnStage V → TurnAnswer V β → TurnStage V → TurnDatabase → List (TurnEvent β) → Prop where
  | refused (command : AgentTurnCommand) (executionId : UUID) (o : TurnOutcome) :
      TurnMoves W db .idle (.start command executionId) .idle db
        [.started ⟨command, executionId⟩, .finished ⟨command, executionId⟩ o]
  | started (command : AgentTurnCommand) (executionId : UUID) (definition : TurnDefinition V) :
      W.registry command.processDefinitionId command.processDefinitionVersion = some definition →
      TurnMoves W db .idle (.start command executionId) (.loading ⟨command, executionId⟩ definition)
        db [.started ⟨command, executionId⟩]
  | outside (x : TurnAnswer V β) (db' : TurnDatabase) : db.outside x = some db' →
      TurnMoves W db .idle x .idle db' []
  | crash (t : TurnStage V) : TurnMoves W db t .crash .idle db []
  | finished (t : TurnStage V) (x : TurnAnswer V β) (e : Execution) (o : TurnOutcome) :
      t.execution = some e → (∀ p outcome costMicros, t ≠ .recording p outcome costMicros) →
      TurnMoves W db t x .idle db [.finished e o]
  | loaded (e : Execution) (definition : TurnDefinition V) (input : AgentTurnInput V)
      (tenant : Option String) (arguments : Option TurnError)
      (context : Except TurnError (AgentTurnInput V)) (row : ProcessInstance) :
      db.process e.command.processInstanceId = some row →
      row.processType = e.command.processDefinitionId →
      row.definitionVersion = e.command.processDefinitionVersion →
      TurnMoves W db (.loading e definition) (.context tenant arguments context)
        (.checking { execution := e, definition, input } .process) db []
  | passed (p : Proposal V) (point point' : Checkpoint) : Passes W db p point point' →
      TurnMoves W db (.checking p point) point.pass (.checking p point') db []
  | allowed (p : Proposal V) (status : ProcessStatus) :
      TurnMoves W db (.checking p (.release status)) (.release none) (.rendering p) db
        [.checked p.key status]
  | called (p : Proposal V) :
      TurnMoves W db (.rendering p) (.rendered none) (.calling p) db [.called p.key]
  | lost (p : Proposal V) (r : AgentsSDKResult β) (fresh : ℕ → UUID) (o : TurnOutcome) :
      (∀ outcome costMicros, W.runTurn fresh p.input r = .ok outcome →
        estimateCostMicros outcome.model outcome.usage W.modelPrices ≠ .ok costMicros) →
      TurnMoves W db (.calling p) (.result r fresh) .idle db
        [.returned p.key r, .finished p.execution o]
  | priced (p : Proposal V) (r : AgentsSDKResult β) (fresh : ℕ → UUID) (outcome : ModelTurnOutcome)
      (costMicros : ℕ) :
      W.runTurn fresh p.input r = .ok outcome →
      estimateCostMicros outcome.model outcome.usage W.modelPrices = .ok costMicros →
      TurnMoves W db (.calling p) (.result r fresh) (.recording p outcome costMicros) db
        [.returned p.key r]
  | ledgerFailed (p : Proposal V) (outcome : ModelTurnOutcome) (costMicros : ℕ)
      (error : TurnError) (o : TurnOutcome) :
      TurnMoves W db (.recording p outcome costMicros) (.ledgerFailure error) .idle db
        [.finished p.execution o]
  | recordRaised (p : Proposal V) (outcome : ModelTurnOutcome) (costMicros : ℕ) (id : UUID)
      (message : String) (o : TurnOutcome) :
      record db.ledger (p.row outcome costMicros id) = .error message →
      TurnMoves W db (.recording p outcome costMicros) (.recorded id) .idle db
        [.finished p.execution o]
  | recorded (p : Proposal V) (outcome : ModelTurnOutcome) (costMicros : ℕ) (id id' : UUID)
      (ledger : List ModelUsageLedger) (o : TurnOutcome) :
      record db.ledger (p.row outcome costMicros id) = .ok (ledger, id') →
      TurnMoves W db (.recording p outcome costMicros) (.recorded id) .idle { db with ledger }
        [.finished p.execution o]
  | corrected (p : Proposal V) (outcome : ModelTurnOutcome) (costMicros : ℕ) (id id' : UUID)
      (ledger : List ModelUsageLedger) (correction : ProposalCorrection) :
      record db.ledger (p.row outcome costMicros id) = .ok (ledger, id') →
      TurnMoves W db (.recording p outcome costMicros) (.recorded id)
        (.checking { p with attempt := p.attempt + 1, correction := some correction } .process)
        { db with ledger } []

lemma moves_loadTurn [BEq V] {e : Execution} {definition : TurnDefinition V}
    {tenant : Option String} {arguments : Option TurnError}
    {input : Except TurnError (AgentTurnInput V)} {db db' : TurnDatabase} {t' : TurnStage V}
    {obs : List (TurnEvent β)}
    (h : loadTurn e definition tenant arguments input db = some (t', db', obs)) :
    TurnMoves W db (.loading e definition) (.context tenant arguments input) t' db' obs := by
  have hend : ∀ o, TurnMoves W db (.loading e definition) (.context tenant arguments input) .idle
      db [.finished e o] := fun o => .finished _ _ e o rfl fun p _ _ h => by cases h
  unfold loadTurn at h
  split at h
  · cases h
    exact hend _
  · cases h
    exact hend _
  · cases h
    exact hend _
  · rename_i row hrow
    split_ifs at h with hdefinition
    · cases h
      exact hend _
    · rw [not_or, not_not, not_not] at hdefinition
      split at h
      · cases h
        exact hend _
      · cases h
        exact .loaded e definition _ none none _ row hrow hdefinition.1 hdefinition.2

/-- A statement of a check raises, passes or ends the check. -/
lemma moves_check [BEq V] {p : Proposal V} {point : Checkpoint} {x : TurnAnswer V β}
    {db db' : TurnDatabase} {t' : TurnStage V} {obs : List (TurnEvent β)}
    (h : advanceTurn W (.checking p point) x db = some (t', db', obs)) :
    TurnMoves W db (.checking p point) x t' db' obs := by
  have hend : ∀ y o, TurnMoves W db (.checking p point) y .idle db [.finished p.execution o] :=
    fun y o => .finished _ _ _ o rfl fun _ _ _ h => by cases h
  cases x with
  | crash =>
      cases point <;> cases h <;> exact .crash _
  | tenant error =>
      cases point with
      | process =>
          rw [advanceTurn] at h
          unfold checkProcess at h
          split at h
          · cases h
            exact hend _ _
          · cases h
            exact hend _ _
          · rename_i row hrow
            split at h
            · cases h
              exact hend _ _
            · rename_i hlifetime
              cases h
              exact .passed p _ _ (.process row hrow hlifetime)
      | _ => cases h
  | go =>
      cases point with
      | budget status =>
          rw [advanceTurn, checkBudget] at h
          split at h
          · cases h
            exact hend _ _
          · rename_i hallowed
            cases h
            exact .passed p _ _ (.budget status hallowed)
      | tenant status =>
          rw [advanceTurn, checkTenant] at h
          split at h
          · cases h
            exact hend _ _
          · rename_i hallowed
            split_ifs at h with hpaused
            · cases h
              exact hend _ _
            · cases h
              exact .passed p _ _ (.tenant status hallowed (by simpa using hpaused))
      | breakers status scope =>
          rw [advanceTurn, checkBreakers] at h
          split at h
          · cases h
            exact hend _ _
          · rename_i current hlatest
            split at h
            · cases h
              exact hend _ _
            · rename_i huntripped
              have hclosed : db.Untripped W.tenantId scope := ⟨current, hlatest, huntripped⟩
              split_ifs at h with hall
              · subst hall
                cases h
                exact .passed p _ _ (.breakers status hclosed)
              · cases h
                exact .passed p _ _ (.lastBreaker status scope hall hclosed)
      | _ => cases h
  | release error =>
      cases point with
      | release status =>
          rw [advanceTurn] at h
          unfold checkRelease at h
          split at h
          · cases h
            exact hend _ _
          · cases h
            exact .allowed p status
      | _ => cases h
  | _ => cases point <;> cases h

/-- The end of a model call. -/
lemma moves_recordUsage [BEq V] {p : Proposal V} {outcome : ModelTurnOutcome} {costMicros : ℕ}
    {id : UUID} {db db' : TurnDatabase} {t' : TurnStage V} {obs : List (TurnEvent β)}
    (h : recordUsage W p outcome costMicros id db = some (t', db', obs)) :
    TurnMoves W db (.recording p outcome costMicros) (.recorded id) t' db' obs := by
  rw [recordUsage] at h
  split at h
  · rename_i message herror
    cases h
    exact .recordRaised p outcome costMicros id message _ herror
  · rename_i ledger id' hrecord
    dsimp only at h
    split at h
    · cases h
      exact .recorded p outcome costMicros id id' ledger _ hrecord
    · split_ifs at h
      · cases h
        exact .recorded p outcome costMicros id id' ledger _ hrecord
      · cases h
        exact .corrected p outcome costMicros id id' ledger _ hrecord

/-- The result of the executor is lost or priced. -/
lemma moves_receiveResult [BEq V] {p : Proposal V} {r : AgentsSDKResult β} {fresh : ℕ → UUID}
    {db db' : TurnDatabase} {t' : TurnStage V} {obs : List (TurnEvent β)}
    (h : receiveResult W p r fresh db = some (t', db', obs)) :
    TurnMoves W db (.calling p) (.result r fresh) t' db' obs := by
  rw [receiveResult] at h
  split at h
  · rename_i message hrun
    cases h
    refine .lost p r fresh _ fun outcome costMicros hok => ?_
    rw [hrun] at hok
    cases hok
  · rename_i outcome hrun
    split at h
    · rename_i message hprice
      cases h
      refine .lost p r fresh _ fun outcome' costMicros hok => ?_
      rw [hrun] at hok
      cases hok
      rw [hprice]
      intro hok
      cases hok
    · rename_i costMicros hprice
      cases h
      exact .priced p r fresh outcome costMicros hrun hprice

/-- A step of the code is a move. -/
lemma moves_of_advanceTurn [BEq V] {t t' : TurnStage V} {x : TurnAnswer V β}
    {db db' : TurnDatabase} {obs : List (TurnEvent β)}
    (h : advanceTurn W t x db = some (t', db', obs)) : TurnMoves W db t x t' db' obs := by
  have hend : ∀ (t : TurnStage V) (e : Execution) (o : TurnOutcome) (x : TurnAnswer V β),
      t.execution = some e → (∀ p outcome costMicros, t ≠ .recording p outcome costMicros) →
      TurnMoves W db t x .idle db [.finished e o] := fun t e o x => .finished t x e o
  cases t with
  | idle =>
      by_cases hstart : ∃ command executionId, x = .start command executionId
      · obtain ⟨command, executionId, rfl⟩ := hstart
        rw [advanceTurn, startTurn] at h
        split_ifs at h
        · cases h
          exact .refused command executionId _
        · split at h
          · cases h
            exact .refused command executionId _
          · rename_i definition hregistry
            cases h
            exact .started command executionId definition hregistry
      · rw [advanceTurn.eq_2 W x db fun command executionId hx => hstart ⟨_, _, hx⟩,
          Option.map_eq_some_iff] at h
        obtain ⟨db₁, houtside, h⟩ := h
        cases h
        exact .outside x _ houtside
  | loading e definition =>
      cases x with
      | crash =>
          cases h
          exact .crash _
      | context tenant arguments input => exact moves_loadTurn h
      | _ => cases h
  | checking p point => exact moves_check h
  | rendering p =>
      cases x with
      | crash =>
          cases h
          exact .crash _
      | rendered error =>
          cases error with
          | none =>
              cases h
              exact .called p
          | some error =>
              cases h
              exact hend _ _ _ _ rfl fun _ _ _ h => by cases h
      | _ => cases h
  | calling p =>
      cases x with
      | crash =>
          cases h
          exact .crash _
      | result r fresh => exact moves_receiveResult h
      | failed error =>
          cases h
          exact hend _ _ _ _ rfl fun _ _ _ h => by cases h
      | _ => cases h
  | recording p outcome costMicros =>
      cases x with
      | crash =>
          cases h
          exact .crash _
      | recorded id => exact moves_recordUsage h
      | ledgerFailure error =>
          cases h
          exact .ledgerFailed p outcome costMicros error _
      | _ => cases h

end

/-! ### A worker -/

/-- A worker that finds its output parsed, and decodes one text. -/
def sampleWorker : TurnWorker ℕ AgentDecisionOutput where
  tenantId := "t"
  registry _ _ := some
    { budget := {}
      communicationPolicy :=
        { outboundActionTypes := []
          replyEventTypes := []
          maxFollowUpsWithoutReply := 0
          minimumFollowUpInterval := 0 }
      decisionPolicy := sampleDefinition.decisionPolicy }
  model := "gpt-4.1"
  modelPrices := [("gpt-4.1", ⟨2000000, 8000000⟩)]
  modelValidate := .ok
  loads text := if text = "{}" then .ok (some ⟨"{}", 0⟩) else .error "Expecting value"
  identity _ _ := ""
  isoformat _ := ""
  named := by decide +kernel

/-- An output with one action. -/
def sendingOutput (parametersJson : String) : AgentDecisionOutput where
  status := .active
  actions := [⟨"k", "send", parametersJson, "asked"⟩]

/-- A process that is active. -/
def sampleTables : TurnDatabase where
  processes := [⟨"p", "journey", "1", .active, 0⟩]

/-- The statements of an execution up to the result of its first call. -/
def firstCall (parametersJson : String) (inputTokens : ℤ) :
    List (Fin 1 × TurnAnswer ℕ AgentDecisionOutput) :=
  [.start ⟨"p", "journey", "1", "turn", 1⟩ "x", .context none none (.ok {}), .tenant none, .go, .go,
    .go, .go, .release none, .rendered none,
    .result ⟨sendingOutput parametersJson, inputTokens, 20⟩ fun k => toString k].map ((Fin.last 0, ·))

end TiramisuAgents.Budgets
