import TiramisuAgents.Core.Identity
import TiramisuAgents.Processes.Facts

/-!
The scenarios of a project (`projects/contracts.py`) and `_validate_scenario` of
`projects/compiler.py`, which accepts or refuses them when the project is compiled.

A step carries the data that `ScenarioStep.__post_init__` asks of its kind, and a value that is
read from a fact is the JSON object it is dumped to.

* `ScenarioStep`, `Scenario`: what is compiled.
* `validateValueReferences`: `_validate_scenario_value_references`.
* `ScenarioScan`, `scanStep`: the two flags of the compiler and what a step makes of them.
* `validateScenario`: the whole check.
-/

namespace TiramisuAgents

open Json

/-! ### Scenarios (`projects/contracts.py`) -/

section

variable {F : Type}

/-- `ScenarioFact`. -/
structure ScenarioFact (F : Type) where
  key : String
  kind : FactKind
  value : JsonValue F

/-- `ScenarioEvent`, without its external references. -/
structure ScenarioEvent (F : Type) where
  source : String := "scenario"
  facts : List (ScenarioFact F) := []
  payload : JsonObject F

/-- `ScenarioAction`. -/
structure ScenarioAction (F : Type) where
  logicalActionKey : String
  parameters : JsonObject F
  rationale : String
  approve : Bool := false

/-- `ScenarioEventWait` and `ScenarioTimerWait`. -/
inductive ScenarioWait where
  | event (eventType : String)
  | timer (timerId : String) (delaySeconds : ℕ)
  deriving DecidableEq, Repr

/-- The reference and the value of a step, by its kind; a wait refers to its event type or its
timer. -/
inductive ScenarioStepBody (F : Type) where
  | event (reference : String) (value : ScenarioEvent F)
  | action (reference : String) (value : ScenarioAction F)
  | wait (value : ScenarioWait)
  | fact (reference : String) (value : JsonValue F)
  | complete

/-- `ScenarioStep`. -/
structure ScenarioStep (F : Type) where
  description : String
  body : ScenarioStepBody F

/-- Whether a step asserts a fact. -/
def ScenarioStep.isFact (step : ScenarioStep F) : Bool :=
  match step.body with
  | .fact _ _ => true
  | _ => false

/-- `Scenario`. -/
structure Scenario (F : Type) where
  id : String
  title : String
  steps : List (ScenarioStep F)
  startedAt : Time
  steps_ne : steps ≠ []

/-- `Fact`, as far as it is read here. -/
structure Fact where
  key : String
  kinds : List FactKind
  deriving DecidableEq, Repr

/-- The kinds of a route. -/
inductive RouteKind where
  | start | wake
  deriving DecidableEq, Repr

/-- `Route`, as far as it is read here. -/
structure Route where
  kind : RouteKind
  eventType : String
  provides : List Fact := []
  deriving DecidableEq, Repr

/-- `Capability`, as far as it is read here: `parametersModel` validates parameters and dumps
them again. -/
structure Capability (F : Type) where
  actionType : String
  defaultPermission : PermissionOutcome := .requireApproval
  parametersModel : JsonObject F → Except String (JsonObject F)

/-- `Journey`, as far as it is read here. -/
structure Journey where
  id : String
  version : String
  capabilities : List String
  permissionOverrides : List (String × PermissionOutcome) := []

/-! ### References to facts -/

/-- The text of a JSON string. -/
def textOf (s : PyString) : String := String.ofList (s.map Char.ofNat)

/-- An object that stands for the value of a fact: its `type` is `fact`, and it has no other keys
than those of a `ScenarioValue`. -/
def isFactReference [DecidableEq F] (fields : List (PyString × JsonValue F)) : Bool :=
  (match fields.lookup (codePoints "type") with
    | some (.atom (.string s)) => decide (s = codePoints "fact")
    | _ => false) &&
  fields.all fun f =>
    [codePoints "type", codePoints "fact_key", codePoints "path"].contains f.1

/-- The `fact_key` of such an object; one that is no string is the key of no fact. -/
def referencedKey (fields : List (PyString × JsonValue F)) : Option String :=
  match fields.lookup (codePoints "fact_key") with
  | some (.atom (.string s)) => some (textOf s)
  | _ => none

section

variable [DecidableEq F] (scenarioId : String) (facts : List (String × Fact))

mutual

/-- `_validate_scenario_value_references`: whether the value refers to a fact. -/
def validateValueReferences : JsonValue F → Except String Bool
  | .atom _ => .ok false
  | .array items => validateItemReferences items
  | .object fields =>
      if isFactReference fields then
        if (referencedKey fields).any fun key => (facts.lookup key).isSome then .ok true
        else .error (s!"scenario {scenarioId} reads an unknown fact: " ++
          (referencedKey fields).getD "None")
      else validateFieldReferences fields

/-- The loop over a list. -/
def validateItemReferences : List (JsonValue F) → Except String Bool
  | [] => .ok false
  | item :: items => do
      let found ← validateValueReferences item
      return found || (← validateItemReferences items)

/-- The loop over the values of a dictionary. -/
def validateFieldReferences : List (PyString × JsonValue F) → Except String Bool
  | [] => .ok false
  | (_, item) :: fields => do
      let found ← validateValueReferences item
      return found || (← validateFieldReferences fields)

end

end

/-! ### The steps of a scenario (`projects/compiler.py`) -/

/-- What `_validate_scenario` is given beside the scenario: the journey with its routes, the
catalog of facts and the capabilities of the project. -/
structure ScenarioContext (F : Type) where
  journey : Journey
  routes : List Route
  facts : List (String × Fact)
  capabilities : List (String × Capability F)

/-- `routes_by_event`. -/
def ScenarioContext.routeOf (c : ScenarioContext F) (eventType : String) : Option Route :=
  (Dict.update [] (c.routes.map fun route => (route.eventType, route))).lookup eventType

/-- The event types of the routes of one kind: `starts` and `wakes`. -/
def ScenarioContext.eventTypes (c : ScenarioContext F) (kind : RouteKind) : List String :=
  (c.routes.filter fun route => route.kind = kind).map Route.eventType

/-- `expected_event` and `turn_ready`. -/
structure ScenarioScan where
  expectedEvent : Option String := none
  turnReady : Bool := false
  deriving DecidableEq, Repr

section

variable [DecidableEq F] (scenarioId : String) (c : ScenarioContext F)

/-- The checks on the facts and the payload of an event. -/
def validateEvent (route : Route) (reference : String) (event : ScenarioEvent F) :
    Except String Unit := do
  requireThat (event.facts.map ScenarioFact.key).Nodup
    s!"scenario {scenarioId} event {reference} repeats a fact"
  event.facts.forM fun observation =>
    match c.facts.lookup observation.key with
    | none => .error (s!"scenario {scenarioId} event {reference} supplies an undeclared " ++
        s!"fact: {observation.key}")
    | some fact => do
        requireThat ((route.provides.map Fact.key).contains observation.key)
          (s!"scenario {scenarioId} event {reference} supplies an undeclared " ++
            s!"fact: {observation.key}")
        requireThat (fact.kinds.contains observation.kind)
          (s!"scenario {scenarioId} event {reference} supplies {observation.key} " ++
            "with an unsupported authority kind")
        let _ ← validateValueReferences scenarioId c.facts observation.value
        return ()
  let _ ← validateValueReferences scenarioId c.facts event.payload.value
  return ()

/-- The checks on a scripted action. -/
def validateAction (reference : String) (action : ScenarioAction F) : Except String Unit := do
  requireThat (c.journey.capabilities.contains reference)
    s!"scenario {scenarioId} references an unavailable action: {reference}"
  match c.capabilities.lookup reference with
  | none => .error s!"KeyError: {reference}"
  | some capability => do
      let hasReferences ← validateValueReferences scenarioId c.facts action.parameters.value
      if !hasReferences then
        match capability.parametersModel action.parameters with
        | .ok _ => pure ()
        | .error error =>
            throw s!"scenario {scenarioId} has invalid {reference} parameters: {error}"
      let permission :=
        (c.journey.permissionOverrides.lookup reference).getD capability.defaultPermission
      requireThat (!action.approve || permission = .requireApproval)
        (s!"scenario {scenarioId} approves {reference}, but policy does not " ++
          "require approval")
      requireThat (!(permission = .requireApproval) || action.approve)
        s!"scenario {scenarioId} must explicitly approve {reference}"
      requireThat (permission ≠ .deny)
        s!"scenario {scenarioId} cannot execute denied action {reference}"

/-- The body of the loop of `_validate_scenario`, at the step of an index below `count`. -/
def scanStep (count index : ℕ) (scan : ScenarioScan) (step : ScenarioStep F) :
    Except String ScenarioScan :=
  match step.body with
  | .event reference event =>
      match c.routeOf reference with
      | none => .error (s!"scenario {scenarioId} references an event outside journey " ++
          s!"{c.journey.id}: {reference}")
      | some route => do
          requireThat (!(0 < index ∧ scan.expectedEvent ≠ some reference))
            s!"scenario {scenarioId} event {reference} must follow a matching wait"
          validateEvent scenarioId c route reference event
          return { expectedEvent := none, turnReady := true }
  | .action reference action => do
      requireThat scan.turnReady s!"scenario {scenarioId} action {reference} has no wake source"
      validateAction scenarioId c reference action
      return { scan with turnReady := true }
  | .wait wait => do
      requireThat scan.turnReady s!"scenario {scenarioId} wait has no wake source"
      match wait with
      | .event eventType => do
          requireThat ((c.eventTypes .wake).contains eventType)
            s!"scenario {scenarioId} waits for an unavailable event: {eventType}"
          return { expectedEvent := some eventType, turnReady := false }
      | .timer _ _ => return { scan with turnReady := true }
  | .fact reference _ => do
      requireThat scan.turnReady
        s!"scenario {scenarioId} fact assertion has no pending wake source"
      requireThat (c.facts.lookup reference).isSome
        s!"scenario {scenarioId} references an unknown fact: {reference}"
      return scan
  | .complete => do
      requireThat scan.turnReady s!"scenario {scenarioId} completion has no wake source"
      requireThat (index = count - 1) s!"scenario {scenarioId} completion must be the final step"
      return { scan with turnReady := false }

/-- The loop of `_validate_scenario`, from an index on. -/
def scanSteps (count : ℕ) : ℕ → ScenarioScan → List (ScenarioStep F) → Except String ScenarioScan
  | _, scan, [] => .ok scan
  | index, scan, step :: rest => do
      let scan ← scanStep scenarioId c count index scan step
      scanSteps count (index + 1) scan rest

end

/-- Whether a step is an event that starts the journey. -/
def ScenarioContext.starts (c : ScenarioContext F) (step : ScenarioStep F) : Bool :=
  match step.body with
  | .event reference _ => (c.eventTypes .start).contains reference
  | _ => false

/-- Whether a step is a completion. -/
def ScenarioStep.isComplete (step : ScenarioStep F) : Bool :=
  match step.body with
  | .complete => true
  | _ => false

/-- `_validate_scenario`. -/
def validateScenario [DecidableEq F] (c : ScenarioContext F) (scenario : Scenario F) :
    Except String Unit := do
  requireThat (c.starts (scenario.steps.head scenario.steps_ne))
    s!"scenario {scenario.id} must begin with a start event for journey {c.journey.id}"
  requireThat (scenario.steps.getLast scenario.steps_ne).isComplete
    s!"scenario {scenario.id} must end with completion"
  let scan ← scanSteps scenario.id c scenario.steps.length 0 {} scenario.steps
  match scan.expectedEvent with
  | some event => .error s!"scenario {scenario.id} never supplies awaited event {event}"
  | none => .ok ()

end

end TiramisuAgents
