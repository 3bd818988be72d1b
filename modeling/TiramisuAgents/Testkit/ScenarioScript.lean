import TiramisuAgents.Budgets.Turns
import TiramisuAgents.Core.CompletionValues
import TiramisuAgents.Projects.Compiler
import TiramisuAgents.Testkit.Scenarios

/-!
`testkit/scenario_script.py`: what a step of a compiled scenario says, as an event, as a decision
on the facts of its turn, and as what the decision has to be; with the generated output type of
`projects/output.py`.

A compiled step is carried as the step it was dumped from.  What the pydantic models of the
contracts refuse, the texts of values and the identities are given by `ScenarioKernel`.

* `ScenarioRunError`: the errors of a run; `Structural` names the four of a script that does not
  fit its driver.
* `resolve`, `buildEvent`, `buildDecision`: the script.
* `requireExpectedAction`, `requireExpectedWait`, `assertFactValue`: its checks.
-/

namespace TiramisuAgents

open Json

/-! ### Errors -/

/-- `ScenarioRunError`: those of the driver about the structure of a script, every other error of
a step, and the errors that are raised about no step or by other code. -/
inductive ScenarioRunError where
  | expectedEvent (step : String)
  | notWaiting (step eventType : String)
  | endsWithoutDecision
  | expectedDecision (step : String)
  | rejected (step message : String)
  | other (message : String)
  deriving DecidableEq, Repr

/-- The text of an error about a step. -/
def stepErrorText (scenarioId step message : String) : String :=
  s!"scenario {scenarioId} step '{step}': {message}"

/-- The text of an error. -/
def ScenarioRunError.text (scenarioId : String) : ScenarioRunError → String
  | .expectedEvent step => stepErrorText scenarioId step "expected a business event wake source"
  | .notWaiting step eventType =>
      stepErrorText scenarioId step s!"process is not waiting for {eventType}"
  | .endsWithoutDecision => s!"scenario {scenarioId} ends without an agent decision"
  | .expectedDecision step =>
      stepErrorText scenarioId step "expected an action, wait, or completion decision"
  | .rejected step message => stepErrorText scenarioId step message
  | .other message => message

/-- The errors of a script whose steps do not fit the driver. -/
def ScenarioRunError.Structural : ScenarioRunError → Prop
  | .expectedEvent _ => True
  | .notWaiting _ _ => True
  | .endsWithoutDecision => True
  | .expectedDecision _ => True
  | .rejected _ _ => False
  | .other _ => False

section

variable {F : Type}

/-! ### What the script is given -/

/-- `ActionResultContext` and `AgentTurnInput` on JSON values. -/
abbrev ScenarioTurnInput (F : Type) := Budgets.AgentTurnInput (JsonValue F)

/-- `CanonicalEvent`, as far as a script gives it. -/
structure ScriptedEvent (F : Type) where
  eventId : UUID
  eventType : String
  source : String
  sourceEventId : String
  occurredAt : Time
  receivedAt : Time
  facts : List (FactObservation (JsonValue F))
  payload : JsonValue F

/-- The event as a source of facts. -/
def ScriptedEvent.factSource (event : ScriptedEvent F) : FactSource (JsonValue F) :=
  ⟨event.eventId, event.facts⟩

/-- `ProviderActionRequest`. -/
structure ProviderActionRequest (F : Type) where
  actionType : String
  parameters : Parameters
  idempotencyKey : String
  authoritativeFacts : List (String × JsonValue F)

/-- The code a scenario runs on: identities, texts and sizes of values, the encoding of
parameters, what the models of the contracts refuse, and the simulation adapters; `execute` is
also told how many actions were executed before. -/
structure ScenarioKernel (F : Type) where
  uuid5 : String → UUID
  uuid4 : ℕ → UUID
  isoformat : Time → String
  repr : JsonValue F → String
  bytes : JsonValue F → ℕ
  encode : JsonObject F → Parameters
  content : Parameters → JsonObject F
  payloadIdentity : String → Parameters → String
  idempotencyKey : UUID → ℕ → String → String
  fingerprint : ProcessDefinition (JsonValue F) → String
  acceptsEvent : ScriptedEvent F → Except String Unit
  acceptsInput : ScenarioTurnInput F → Except String Unit
  simulates : String → Bool
  execute : ℕ → ProviderActionRequest F → Except String (List (FactObservation (JsonValue F)))

/-- `GeneratedActionProposalOutput`. -/
structure GeneratedProposal (F : Type) where
  logicalActionKey : String
  actionType : String
  parameters : JsonObject F
  rationale : String

/-- `GeneratedAgentDecisionOutput`. -/
structure GeneratedOutput (F : Type) where
  status : DecisionStatus
  actions : List (GeneratedProposal F)
  wakeConditions : List WakeCondition
  memoryUpdate : MemoryUpdate := {}
  /-- `waiting_requires_a_wake`. -/
  waitingWakes : status = .waiting → wakeConditions ≠ []

/-- The output type of a project: its capabilities, the event types it may wait for, and the
transformer of the journey. -/
structure OutputType (F : Type) where
  capabilities : List (Capability F)
  wakeEventTypes : List String
  decisionTransformer : Option (AgentDecision → ScenarioTurnInput F → AgentDecision) := none

/-- An action of a scripted decision. -/
structure ScriptedAction (F : Type) where
  logicalActionKey : String
  actionType : String
  parameters : JsonValue F
  rationale : String

/-- The payload of a scripted decision. -/
structure ScriptedPayload (F : Type) where
  status : DecisionStatus
  actions : List (ScriptedAction F) := []
  wakeConditions : List WakeCondition := []

/-- `CompiledScenarioScript`: a scenario of a pack with the definition of its journey. -/
structure CompiledScenarioScript (F : Type) where
  kernel : ScenarioKernel F
  identity : String
  scenario : Scenario F
  definition : ProcessDefinition (JsonValue F)
  communicationPolicy : CommunicationPolicy
  outputType : OutputType F

/-- `CompiledScenarioScript.error`, with an error of other code as its message. -/
def ScenarioStep.raising {α : Type} (step : ScenarioStep F) (x : Except String α) :
    Except ScenarioRunError α :=
  x.mapError (.rejected step.description)

/-- An error that is not caught. -/
def uncaught {α : Type} (x : Except String α) : Except ScenarioRunError α := x.mapError .other

/-! ### Values -/

/-- `resolved[part]`. -/
def itemOf : JsonValue F → JsonValue F → Option (JsonValue F)
  | .object fields, .atom (.string key) => fields.lookup key
  | .array items, .atom (.number (.int z)) =>
      if 0 ≤ z then items[z.toNat]?
      else if -z ≤ items.length then items[(items.length + z).toNat]? else none
  | .array items, .atom (.bool b) => items[b.toNat]?
  | .atom (.string s), .atom (.number (.int z)) =>
      (if 0 ≤ z then s[z.toNat]?
        else if -z ≤ s.length then s[(s.length + z).toNat]? else none).map
        fun c => .atom (.string [c])
  | .atom (.string s), .atom (.bool b) => s[b.toNat]?.map fun c => .atom (.string [c])
  | _, _ => none

/-- The parts of a `path`: the items of a list, also the letters of a string and the keys of a
dictionary. -/
def pathParts : Option (JsonValue F) → Option (List (JsonValue F))
  | none => some []
  | some (.array items) => some items
  | some (.atom (.string s)) => some (s.map fun c => .atom (.string [c]))
  | some (.object fields) => some (fields.map fun f => .atom (.string f.1))
  | some (.atom _) => none

/-- The value at a path. -/
def followPath (value : JsonValue F) (path : List (JsonValue F)) : Option (JsonValue F) :=
  path.foldlM itemOf value

section

variable [DecidableEq F] (repr : JsonValue F → String) (facts : FactProjection (JsonValue F))
  (step : ScenarioStep F)

/-- The value a reference to a fact stands for. -/
def resolveReference (fields : List (PyString × JsonValue F)) :
    Except ScenarioRunError (JsonValue F) := do
  let key := (referencedKey fields).getD "None"
  let path := fields.lookup (codePoints "path")
  match (facts.authoritative.lookup key).or (facts.claims.lookup key) with
  | none => .error (.rejected step.description s!"fact is not available yet: {key}")
  | some value =>
      match pathParts path with
      | none => .error (.other "TypeError: object is not iterable")
      | some parts =>
          match followPath value parts with
          | some resolved => .ok resolved
          | none => .error (.rejected step.description
              (s!"fact path is unavailable: {key} " ++ repr (.array parts)))

mutual

/-- `CompiledScenarioScript.resolve`. -/
def resolve : JsonValue F → Except ScenarioRunError (JsonValue F)
  | .atom a => .ok (.atom a)
  | .array items => return .array (← resolveItems items)
  | .object fields =>
      if isFactReference fields then resolveReference repr facts step fields
      else return .object (← resolveFields fields)

/-- The items of a list. -/
def resolveItems : List (JsonValue F) → Except ScenarioRunError (List (JsonValue F))
  | [] => .ok []
  | item :: items => return (← resolve item) :: (← resolveItems items)

/-- The values of a dictionary. -/
def resolveFields :
    List (PyString × JsonValue F) → Except ScenarioRunError (List (PyString × JsonValue F))
  | [] => .ok []
  | (key, item) :: fields => return (key, ← resolve item) :: (← resolveFields fields)

end

end

/-- A value as a dictionary. -/
def asObject : JsonValue F → Option (JsonObject F)
  | .object fields => if h : (Value.object fields).WellFormed then some ⟨fields, h⟩ else none
  | _ => none

/-! ### The generated output type (`projects/output.py`) -/

/-- The validation of one scripted action: its capability checks the parameters. -/
def OutputType.validateAction (t : OutputType F) (action : ScriptedAction F) :
    Except String (GeneratedProposal F) := do
  requireThat (1 ≤ action.logicalActionKey.length ∧ action.logicalActionKey.length ≤ 200)
    "logical_action_key is too short or too long"
  requireThat (1 ≤ action.rationale.length ∧ action.rationale.length ≤ 1000)
    "rationale is too short or too long"
  match t.capabilities.find? fun capability => capability.actionType = action.actionType with
  | none => .error "action_type is not a capability of the project"
  | some capability =>
      match asObject action.parameters with
      | none => .error "parameters must be a dictionary"
      | some parameters => do
          let parameters ← capability.parametersModel parameters
          return ⟨action.logicalActionKey, action.actionType, parameters, action.rationale⟩

/-- The validation of one wake condition. -/
def OutputType.validateWake (t : OutputType F) : WakeCondition → Except String Unit
  | .event eventType =>
      requireThat (t.wakeEventTypes.contains eventType && isEventType eventType)
        "event_type is not a wake event of the project"
  | .timer _ => .ok ()
  | .human _ => .error "type must be event or timer"

/-- `agent_decision_output_type.model_validate`. -/
def OutputType.modelValidate (t : OutputType F) (payload : ScriptedPayload F) :
    Except String (GeneratedOutput F) := do
  let actions ← payload.actions.mapM t.validateAction
  payload.wakeConditions.forM t.validateWake
  if h : payload.status = .waiting → payload.wakeConditions ≠ [] then
    return ⟨payload.status, actions, payload.wakeConditions, {}, h⟩
  else .error "a waiting decision requires at least one wake condition"

/-- `_trusted_memory_update`. -/
def trustedMemoryUpdate (memory : MemoryUpdate) (input : ScenarioTurnInput F) : MemoryUpdate :=
  let eventIds := memory.summarySourceEventIds.filter (input.events.map FactSource.id).contains
  let reviewIds := memory.summarySourceReviewCommandIds.filter input.reviewCommandIds.contains
  let actionIds := memory.summarySourceActionAttemptIds.filter
    (input.actionResults.map fun r => r.source.id).contains
  let timerIds := memory.summarySourceTimerIds.filter input.timerIds.contains
  let rewritten := decide (eventIds ≠ memory.summarySourceEventIds ∨
    reviewIds ≠ memory.summarySourceReviewCommandIds ∨
    actionIds ≠ memory.summarySourceActionAttemptIds ∨ timerIds ≠ memory.summarySourceTimerIds)
  if memory.summary.isSome ∧ (rewritten ∨
      (eventIds = [] ∧ reviewIds = [] ∧ actionIds = [] ∧ timerIds = [])) then
    { openCommitments := memory.openCommitments }
  else
    { summary := memory.summary
      summarySourceEventIds := eventIds
      summarySourceReviewCommandIds := reviewIds
      summarySourceActionAttemptIds := actionIds
      summarySourceTimerIds := timerIds
      openCommitments := memory.openCommitments }

/-- `to_action_proposal`, for the action of an index. -/
def GeneratedProposal.toActionProposal (K : ScenarioKernel F) (index : ℕ)
    (action : GeneratedProposal F) : ActionProposal :=
  ⟨K.uuid4 (index + 1), action.logicalActionKey, action.actionType, K.encode action.parameters,
    action.rationale⟩

/-- `to_agent_decision`. -/
def GeneratedOutput.toAgentDecision (K : ScenarioKernel F) (t : OutputType F)
    (output : GeneratedOutput F) (input : ScenarioTurnInput F) : AgentDecision :=
  let decision : AgentDecision :=
    { decisionId := K.uuid4 0
      basedOnEventIds := input.events.map FactSource.id
      basedOnReviewCommandIds := input.reviewCommandIds
      basedOnActionAttemptIds := input.actionResults.map fun r => r.source.id
      basedOnTimerIds := input.timerIds
      status := output.status
      actions := output.actions.mapIdx fun index action => action.toActionProposal K index
      wakeConditions := output.wakeConditions
      memoryUpdate := trustedMemoryUpdate output.memoryUpdate input
      waitingWakes := output.waitingWakes }
  match t.decisionTransformer with
  | none => decision
  | some transformer => transformer decision input

/-! ### The script -/

variable [DecidableEq F] (script : CompiledScenarioScript F)

/-- `deterministic_uuid`. -/
def CompiledScenarioScript.deterministicUuid (value : String) : UUID :=
  script.kernel.uuid5 s!"{script.identity}:{value}"

/-- A second as a time. -/
def secondsAfter (now : Time) (delaySeconds : ℕ) : Time := now + delaySeconds * 1000000

/-- `build_event`. -/
def CompiledScenarioScript.buildEvent (step : ScenarioStep F) (reference : String)
    (data : ScenarioEvent F) (stepIndex : ℕ) (occurredAt : Time)
    (facts : FactProjection (JsonValue F)) : Except ScenarioRunError (ScriptedEvent F) := do
  let observations ← data.facts.mapM fun fact => do
    let value ← resolve script.kernel.repr facts step fact.value
    return (⟨fact.key, fact.kind, value⟩ : FactObservation (JsonValue F))
  let payload ← resolve script.kernel.repr facts step data.payload.value
  let event : ScriptedEvent F :=
    { eventId := script.deterministicUuid s!"event:{stepIndex}:{reference}"
      eventType := reference
      source := data.source
      sourceEventId := s!"{script.scenario.id}:{stepIndex}:{reference}"
      occurredAt := occurredAt
      receivedAt := occurredAt
      facts := observations
      payload := payload }
  uncaught (script.kernel.acceptsEvent event)
  return event

/-- `prospective_snapshot`, as far as the facts go. -/
def prospectiveProjection (process : FactProjection (JsonValue F))
    (input : ScenarioTurnInput F) : FactProjection (JsonValue F) :=
  (input.events ++ input.actionResults.map Budgets.ActionResultContext.source).foldl
    (fun p source => source.facts.foldl
      (fun p o =>
        if o.kind = .authoritative then
          { p with authoritative := Dict.setItem p.authoritative o.key o.value }
        else { p with claims := Dict.setItem p.claims o.key o.value }) p) process

/-- The wake condition a wait stands for. -/
def ScenarioWait.wake (now : Time) : ScenarioWait → WakeCondition
  | .event eventType => .event eventType
  | .timer _ delaySeconds => .timer (secondsAfter now delaySeconds)

/-- The payload of the decision of a step. -/
def CompiledScenarioScript.payload (step : ScenarioStep F)
    (resolution : FactProjection (JsonValue F)) (now : Time) :
    Except ScenarioRunError (ScriptedPayload F) :=
  match step.body with
  | .action reference action => do
      let parameters ← resolve script.kernel.repr resolution step action.parameters.value
      return { status := .active
               actions := [⟨action.logicalActionKey, reference, parameters, action.rationale⟩] }
  | .wait wait => .ok { status := .waiting, wakeConditions := [wait.wake now] }
  | _ => .ok { status := .completed }

/-- `build_decision`. -/
def CompiledScenarioScript.buildDecision (step : ScenarioStep F) (stepIndex : ℕ)
    (process : FactProjection (JsonValue F)) (input : ScenarioTurnInput F) (now : Time) :
    Except ScenarioRunError AgentDecision := do
  let payload ← script.payload step (prospectiveProjection process input) now
  let output ← step.raising ((script.outputType.modelValidate payload).mapError
    fun error => s!"scripted decision is invalid: {error}")
  let decision := output.toAgentDecision script.kernel script.outputType input
  let actions := decision.actions.mapIdx fun position action =>
    { action with actionRequestId :=
        script.deterministicUuid s!"action:{stepIndex}:{position}:{action.logicalActionKey}" }
  return { decision with
    decisionId := script.deterministicUuid s!"decision:{stepIndex}", actions := actions }

/-- `require_expected_action`. -/
def CompiledScenarioScript.requireExpectedAction [FloatValues F] (step : ScenarioStep F)
    (reference : String) (decision : AgentDecision) (expected : ScenarioAction F)
    (expectedParameters : JsonValue F) : Except ScenarioRunError Unit :=
  match decision.actions with
  | [action] =>
      step.raising (requireThat
        (decision.status = .active && decision.wakeConditions.isEmpty &&
          action.actionType = reference &&
          action.logicalActionKey = expected.logicalActionKey &&
          (script.kernel.content action.parameters).value == expectedParameters &&
          action.rationale = expected.rationale)
        "generated action changed the scripted action identity")
  | actions => .error (.rejected step.description
      (s!"scripted decision produced {actions.length} actions; expected exactly one"))

/-- `require_expected_wait`. -/
def requireExpectedWait (step : ScenarioStep F) (decision : AgentDecision) (wait : ScenarioWait)
    (now : Time) : Except ScenarioRunError Unit :=
  step.raising (requireThat
    (decision.status = .waiting && decision.wakeConditions = [wait.wake now])
    "generated wake plan changed the scripted wait")

/-- `assert_fact_value`. -/
def CompiledScenarioScript.assertFactValue [FloatValues F] (step : ScenarioStep F)
    (key : String) (expected : JsonValue F) (facts : FactProjection (JsonValue F)) :
    Except ScenarioRunError (JsonValue F) :=
  match (facts.authoritative.lookup key).or (facts.claims.lookup key) with
  | none => .error (.rejected step.description s!"expected fact is absent: {key}")
  | some actual =>
      if actual == expected then .ok actual
      else .error (.rejected step.description
        (s!"fact {key} is {script.kernel.repr actual}; expected " ++ script.kernel.repr expected))

end

end TiramisuAgents
