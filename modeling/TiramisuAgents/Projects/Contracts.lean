import TiramisuAgents.Actions.Database
import TiramisuAgents.Communications.QuietHours
import TiramisuAgents.Core.Definitions
import TiramisuAgents.Core.Text
import TiramisuAgents.Projects.Compiler

/-!
What the author of a project declares: the rest of `projects/contracts.py`, with the conditions
that each `__post_init__` enforces carried by the declarations.

Documents that are only compared (the schemas of parameters and of values) are texts.  The values of
completion requirements are of any type, and a decision transformer is left out with the output type
of the agent that it rewrites for.

* `Fact`, `Capability`, `Route`, `Scenario`, `Communications`, `Journey`, `Project`: the
  declarations.
* `Journey.core`, `Capability.core`, `Route.core`, `Fact.core`: what `_validate_scenario` reads of
  them.
-/

namespace TiramisuAgents.Projects

/-- `DefinitionStatus`. -/
inductive DefinitionStatus where
  | draft | published | retired
  deriving DecidableEq, Repr

/-- What a project and a pack see of an adapter; one that cannot execute and look up is no
adapter. -/
structure Adapter where
  id : String
  guaranteesIdempotency : Option Bool
  isSimulationAdapter : Bool := false
  deriving DecidableEq, Repr

/-- `Fact`; its `FactDescription` and its `FactDefinition` have the same data. -/
structure Fact where
  key : String
  title : String
  description : String
  kinds : List FactKind := [.authoritative]
  valueSchema : String := "{}"
  operatorEditable : Bool := false
  keyed : isEventType key := by decide +kernel
  described : strip title ≠ "" ∧ strip description ≠ "" := by decide +kernel
  known : kinds ≠ [] ∧ kinds.Nodup := by decide +kernel
  editable : operatorEditable → .authoritative ∈ kinds := by decide +kernel
  deriving DecidableEq

/-- What a scenario reads of a fact. -/
def Fact.core (fact : Fact) : TiramisuAgents.Fact where
  key := fact.key
  kinds := fact.kinds

section

variable {F V : Type}

/-- `Capability`; the schema of its parameters forbids other fields. -/
structure Capability (F : Type) where
  actionType : String
  title : String
  description : String
  parametersModel : JsonObject F → Except String (JsonObject F)
  parametersSchema : String := "{}"
  adapter : Adapter
  guidance : String
  defaultPermission : PermissionOutcome := .requireApproval
  produces : List Fact := []
  simulationAdapter : Option Adapter := none
  named : isIdentifier actionType := by decide +kernel
  described : strip title ≠ "" ∧ strip description ≠ "" ∧ strip guidance ≠ "" := by decide +kernel
  bound : strip adapter.id ≠ "" ∧ adapter.guaranteesIdempotency.isSome := by decide +kernel
  simulated : ∀ a ∈ simulationAdapter, strip a.id ≠ "" ∧ a.isSimulationAdapter := by decide +kernel
  producesOnce : (produces.map Fact.key).Nodup := by decide +kernel

/-- What a scenario reads of a capability. -/
def Capability.core (capability : Capability F) : TiramisuAgents.Capability F where
  actionType := capability.actionType
  defaultPermission := capability.defaultPermission
  parametersModel := capability.parametersModel

/-- `Route`. -/
structure Route where
  kind : RouteKind
  eventType : String
  journeyId : String
  title : String
  description : String
  provides : List Fact := []
  typed : isEventType eventType := by decide +kernel
  routed : isIdentifier journeyId := by decide +kernel
  described : strip title ≠ "" ∧ strip description ≠ "" := by decide +kernel
  providesOnce : (provides.map Fact.key).Nodup := by decide +kernel
  deriving DecidableEq

/-- What a scenario reads of a route. -/
def Route.core (route : Route) : TiramisuAgents.Route where
  kind := route.kind
  eventType := route.eventType
  provides := route.provides.map Fact.core

/-- `Scenario`, with its journey and its description. -/
structure Scenario (F : Type) extends TiramisuAgents.Scenario F where
  journeyId : String
  description : String
  named : isIdentifier id ∧ isIdentifier journeyId := by decide +kernel
  described : strip title ≠ "" ∧ strip description ≠ "" := by decide +kernel

/-- The lists have no common member. -/
def disjointLists (a b : List String) : Bool := a.all fun x => !b.contains x

/-- `set(a).issubset(b)`. -/
def subsetOf (a b : List String) : Bool := a.all fun x => b.contains x

/-- `Communications`. -/
structure Communications where
  outboundActions : List String := []
  customerReplyEvents : List String := []
  optOutEvents : List String := []
  automatedResponseEvents : List String := []
  quietHours : Option DailyQuietHours := none
  uniqueIds : outboundActions.Nodup ∧ customerReplyEvents.Nodup ∧ optOutEvents.Nodup ∧
    automatedResponseEvents.Nodup := by decide +kernel
  identifiers : (∀ a ∈ outboundActions, isIdentifier a) ∧
    ∀ e ∈ customerReplyEvents ++ optOutEvents ++ automatedResponseEvents, isEventType e := by decide +kernel
  classified : disjointLists customerReplyEvents optOutEvents ∧
    disjointLists customerReplyEvents automatedResponseEvents ∧
    disjointLists optOutEvents automatedResponseEvents := by decide +kernel
  controlled : outboundActions = [] → customerReplyEvents = [] ∧ optOutEvents = [] ∧
    automatedResponseEvents = [] ∧ quietHours.isNone := by decide +kernel

/-- `FactRequirement`. -/
structure FactRequirement (V : Type) where
  factKey : String
  expectedValue : V

/-- `Journey`. -/
structure Journey (V : Type) where
  id : String
  version : String
  title : String
  description : String
  goals : List String
  capabilities : List String
  completeWhen : List (FactRequirement V)
  status : DefinitionStatus := .published
  permissionOverrides : List (String × PermissionOutcome) := []
  actionGuidance : List (String × String) := []
  decisionGuidance : List String := []
  terminalStates : List ProcessStatus := [.completed, .cancelled]
  limits : ProcessLimits := {}
  reviewCommands : List ReviewCommandType := [.approve, .reject, .requestRevision, .comment]
  communications : Communications := {}
  named : isIdentifier id := by decide +kernel
  described : strip version ≠ "" ∧ strip title ≠ "" ∧ strip description ≠ "" := by decide +kernel
  aimed : goals ≠ [] ∧ ∀ goal ∈ goals, strip goal ≠ "" := by decide +kernel
  capableOnce : capabilities.Nodup := by decide +kernel
  completes : completeWhen ≠ [] ∧ (completeWhen.map FactRequirement.factKey).Nodup := by simp

/-- What a scenario reads of a journey. -/
def Journey.core (journey : Journey V) : TiramisuAgents.Journey where
  id := journey.id
  version := journey.version
  capabilities := journey.capabilities
  permissionOverrides := journey.permissionOverrides

/-- `Project`. -/
structure Project (F V : Type) where
  id : String
  version : String
  title : String
  description : String
  journeys : List (Journey V)
  routes : List Route
  capabilities : List (Capability F)
  facts : List Fact := []
  scenarios : List (Scenario F) := []
  tiramisuCompatibility : String := ">=0.1,<0.2"
  named : isIdentifier id := by decide +kernel
  described : strip version ≠ "" ∧ strip title ≠ "" ∧ strip description ≠ "" := by decide +kernel
  journeys_ne : journeys ≠ []

end

end TiramisuAgents.Projects
