import Mathlib.Data.List.Sort
import TiramisuAgents.Projects.ClientPack

/-!
`compile_project` of `projects/compiler.py`: from the declarations of an author to the client pack
that the runtime composes.

The compiler refuses what is wrong with a project under the names of its author.  The pack then
compares its parts once more, and a project that got so far meets these comparisons.  The output
type of the agent is left out, with the decision transformers that are made for it.

* `compileJourney`, `assemble`, `compileProject`: the compiler, in the order of its checks.
* `Assembled`: what is known of a project for which a pack was made.
* `Reported`: the errors that are told to the author; the compiler looks nothing up that is not
  there (`Reported.assemble`).
-/

namespace TiramisuAgents.Projects

variable {F V : Type}

/-! ### The catalogs of a project -/

/-- `sorted(set(..))`. -/
def sortedSet (values : List String) : List String := values.dedup.insertionSort (· ≤ ·)

/-- `_unique_by`. -/
def uniqueBy {A : Type} (label : String) (key : A → String) (items : List A) :
    Except CompileError (List (String × A)) :=
  Dict.fillOnce (fun k => .configuration s!"duplicate {label}: {k}") []
    (items.map fun item => (key item, item))

/-- A subscript of a dictionary. -/
def getItem {A : Type} (d : List (String × A)) (key : String) : Except CompileError A :=
  match d.lookup key with
  | some a => .ok a
  | none => .error (.key key)

/-- The body of the loop of `_collect_fact_catalog`. -/
def collectFact (facts : List (String × Fact)) (fact : Fact) :
    Except CompileError (List (String × Fact)) := do
  ensure (!(facts.lookup fact.key).any fun existing => existing ≠ fact)
    (.configuration s!"fact {fact.key} has inconsistent definitions across the project")
  return Dict.setItem facts fact.key fact

/-- The facts that a project declares, produces and provides. -/
def Project.allFacts (project : Project F V) : List Fact :=
  project.facts ++ project.capabilities.flatMap Capability.produces ++
    project.routes.flatMap Route.provides

/-- `_collect_fact_catalog`. -/
def collectFactCatalog (project : Project F V) : Except CompileError (List (String × Fact)) :=
  project.allFacts.foldlM collectFact []

/-! ### Routes and scenarios -/

/-- The text of a route kind. -/
def routeKindText : RouteKind → String
  | .start => "start"
  | .wake => "wake"

/-- The identity of a route. -/
def Route.identity (route : Route) : String × RouteKind × String :=
  (route.journeyId, route.kind, route.eventType)

/-- The loop over the routes, with the identities that it has seen. -/
def checkRoutes (journeyIds : List String) :
    List (String × RouteKind × String) → List Route → Except CompileError Unit
  | _, [] => .ok ()
  | seen, route :: rest => do
      ensure (journeyIds.contains route.journeyId) (.configuration
        s!"route {route.eventType} references unknown journey {route.journeyId}")
      ensure (!seen.contains route.identity) (.configuration
        (s!"journey {route.journeyId} declares duplicate {routeKindText route.kind} route " ++
          route.eventType))
      checkRoutes journeyIds (route.identity :: seen) rest

/-- The start routes of the published journeys. -/
def Project.publishedStarts (project : Project F V) : List Route :=
  project.routes.filter fun route => route.kind = .start &&
    ((project.journeys.filter fun j => j.status = .published).map Journey.id).contains route.journeyId

/-- The loop that fills `published_starts`. -/
def checkPublishedStarts (project : Project F V) : Except CompileError (List (String × Unit)) :=
  Dict.fillOnce (fun eventType => .configuration
      s!"published start event is routed to more than one journey: {eventType}") []
    (project.publishedStarts.map fun route => (route.eventType, ()))

/-- `routes_by_journey`. -/
def Project.routesOf (project : Project F V) (journeyId : String) : List Route :=
  project.routes.filter fun route => route.journeyId = journeyId

/-- `scenarios_by_journey`. -/
def Project.scenariosOf (project : Project F V) (journeyId : String) : List (Scenario F) :=
  project.scenarios.filter fun scenario => scenario.journeyId = journeyId

/-- The event types of the routes of one kind. -/
def routedEvents (routes : List Route) (kind : RouteKind) : List String :=
  (routes.filter fun route => route.kind = kind).map Route.eventType

/-! ### One journey -/

/-- `completion_requirements`. -/
def Journey.completionRequirements (journey : Journey V) : List (String × V) :=
  Dict.update [] (journey.completeWhen.map fun r => (r.factKey, r.expectedValue))

/-- The permissions of a journey: its overrides, over the defaults of the capabilities. -/
def Journey.permissions (journey : Journey V) (selected : List (Capability F)) :
    List (String × PermissionOutcome) :=
  Dict.update [] (selected.map fun c =>
    (c.actionType, (journey.permissionOverrides.lookup c.actionType).getD c.defaultPermission))

/-- The guidance of a journey: its own, over that of the capabilities. -/
def Journey.guidance (journey : Journey V) (selected : List (Capability F)) :
    List (String × String) :=
  Dict.update [] (selected.map fun c =>
    (c.actionType, (journey.actionGuidance.lookup c.actionType).getD c.guidance))

/-- The communication rules of a definition. -/
def Communications.configuration (c : Communications) : CommunicationConfiguration where
  outboundActionTypes := c.outboundActions
  replyEventTypes := c.customerReplyEvents
  optOutEventTypes := c.optOutEvents
  automatedResponseEventTypes := c.automatedResponseEvents
  quietHours := c.quietHours

/-- `_capability_description`. -/
def Capability.describe (capability : Capability F) : CapabilityDescription where
  actionType := capability.actionType
  title := capability.title
  description := capability.description
  adapterId := capability.adapter.id
  defaultPermission := capability.defaultPermission
  parametersSchema := capability.parametersSchema
  producesFactKeys := capability.produces.map Fact.key

/-- `_route_description`. -/
def Route.describe (route : Route) : RouteDescription where
  kind := route.kind
  eventType := route.eventType
  title := route.title
  description := route.description
  providesFactKeys := route.provides.map Fact.key

/-- The checks of a journey against the catalogs. -/
def checkJourney (capabilities : List (String × Capability F)) (facts : List (String × Fact))
    (routes : List Route) (journey : Journey V) : Except CompileError Unit := do
  let wakes := routedEvents routes .wake
  ensure (!(journey.status = .published && (routedEvents routes .start).isEmpty)) (.configuration
    s!"published journey {journey.id} requires at least one start route")
  let unknown := journey.capabilities.filter fun a => !(capabilities.map Prod.fst).contains a
  ensure unknown.isEmpty (.configuration
    (s!"journey {journey.id} uses unknown capabilities: " ++ ", ".intercalate (sortedSet unknown)))
  ensure (subsetOf (journey.permissionOverrides.map Prod.fst) journey.capabilities) (.configuration
    s!"journey {journey.id} has permission overrides for unavailable capabilities")
  ensure (subsetOf (journey.actionGuidance.map Prod.fst) journey.capabilities) (.configuration
    s!"journey {journey.id} has guidance for unavailable capabilities")
  ensure (subsetOf journey.communications.outboundActions journey.capabilities) (.configuration
    s!"journey {journey.id} marks an unavailable capability as outbound")
  ensure (subsetOf (journey.communications.customerReplyEvents ++
      journey.communications.optOutEvents ++ journey.communications.automatedResponseEvents) wakes)
    (.configuration s!"journey {journey.id} communication events must have wake routes")
  let unknownFacts := (journey.completionRequirements.map Prod.fst).filter fun key =>
    !(facts.map Prod.fst).contains key
  ensure unknownFacts.isEmpty (.configuration
    (s!"journey {journey.id} completes on unknown facts: " ++
      ", ".intercalate (sortedSet unknownFacts)))
  ensure (journey.completionRequirements.all fun entry =>
      (facts.lookup entry.1).any fun fact => fact.kinds.contains .authoritative)
    (.configuration s!"journey {journey.id} completion must use authoritative facts")

/-- `relevant_fact_keys`. -/
def relevantFactKeys (journey : Journey V) (selected : List (Capability F)) (routes : List Route) :
    List String :=
  journey.completionRequirements.map Prod.fst ++
    selected.flatMap (fun c => c.produces.map Fact.key) ++
    routes.flatMap fun route => route.provides.map Fact.key

/-- The definition of a journey. -/
def Journey.definition (journey : Journey V) (selected : List (Capability F)) (routes : List Route)
    (facts : List Fact) : ProcessDefinition V where
  id := journey.id
  version := journey.version
  status := journey.status
  triggerEvents := routedEvents routes .start
  goals := journey.goals
  terminalStates := journey.terminalStates
  allowedActions := journey.capabilities
  actionPermissions := journey.permissions selected
  actionGuidance := journey.guidance selected
  decisionGuidance := journey.decisionGuidance
  allowedWakeEvents := routedEvents routes .wake
  limits := journey.limits
  reviewCommands := journey.reviewCommands
  communications := journey.communications.configuration
  integrations := Dict.update [] (selected.map fun c => (c.actionType, c.adapter.id))
  facts := facts
  completionRequirements := journey.completionRequirements
  permissionKeys := Dict.nodup_keys_update (by simp) _
  completionKeys := Dict.nodup_keys_update (by simp) _

/-- The metadata of a journey. -/
def Journey.describe (journey : Journey V) (selected : List (Capability F)) (routes : List Route)
    (facts : List Fact) (scenarios : List (Scenario F)) : JourneyDescription F V where
  id := journey.id
  version := journey.version
  title := journey.title
  description := journey.description
  status := journey.status
  goals := journey.goals
  routes := routes.map Route.describe
  capabilities := selected.map Capability.describe
  facts := facts
  permissions := journey.permissions selected
  limits := journey.limits
  communications := journey.communications.configuration
  completionRequirements := journey.completionRequirements
  scenarios := scenarios

/-- What `_validate_scenario` is given for a journey. -/
def scenarioContext (capabilities : List (String × Capability F)) (journey : Journey V)
    (routes : List Route) (facts : List Fact) : ScenarioContext F where
  journey := journey.core
  routes := routes.map Route.core
  facts := Dict.update [] (facts.map fun fact => (fact.key, fact.core))
  capabilities := capabilities.map fun entry => (entry.1, entry.2.core)

/-- `_validate_scenario`, with the error it raises. -/
def checkScenario [DecidableEq F] (c : ScenarioContext F) (scenario : Scenario F) :
    Except CompileError Unit :=
  (validateScenario c scenario.toScenario).mapError .configuration

/-- The body of the loop over the journeys. -/
def compileJourney [DecidableEq F] (canonical : V → Bool) (project : Project F V)
    (capabilities : List (String × Capability F)) (facts : List (String × Fact))
    (journey : Journey V) : Except CompileError (ProcessDefinition V × JourneyDescription F V) := do
  let routes := project.routesOf journey.id
  checkJourney capabilities facts routes journey
  let selected ← journey.capabilities.mapM (getItem capabilities)
  let relevantFacts ← (sortedSet (relevantFactKeys journey selected routes)).mapM (getItem facts)
  let definition := journey.definition selected routes relevantFacts
  ensure (definition.valid canonical) (.validation "ProcessDefinition")
  let scenarios := project.scenariosOf journey.id
  scenarios.forM (checkScenario (scenarioContext capabilities journey routes relevantFacts))
  return (definition, journey.describe selected routes relevantFacts scenarios)

/-! ### The whole project -/

/-- The adapter that a scenario may run instead of the real one. -/
def Capability.scenarioAdapter (capability : Capability F) : Option Adapter :=
  capability.simulationAdapter.or
    (if capability.adapter.isSimulationAdapter then some capability.adapter else none)

/-- The body of the loop that fills `simulation_bindings`. -/
def simulationBinding (capability : Capability F) : Except CompileError (String × Adapter) :=
  match capability.scenarioAdapter with
  | some adapter => .ok (capability.actionType, adapter)
  | none => .error (.configuration
      (s!"scenario action {capability.actionType} requires an explicitly safe " ++
        "simulation adapter"))

/-- `used_action_types`. -/
def Project.usedActions (project : Project F V) : List String :=
  project.journeys.flatMap Journey.capabilities

/-- `used_capabilities`. -/
def Project.usedCapabilities (project : Project F V) : List (Capability F) :=
  project.capabilities.filter fun c => project.usedActions.contains c.actionType

/-- The capabilities that scenarios execute. -/
def Project.executedCapabilities (project : Project F V) : List (Capability F) :=
  project.usedCapabilities.filter fun c =>
    (scenarioActionTypes project.scenarios).contains c.actionType

/-- `policy_ids`. -/
def Project.policyIds (project : Project F V) : List String :=
  project.journeys.map fun j => s!"{project.id}.{j.id}.policy.v{j.version}"

/-- The manifest of the pack. -/
def Project.manifest (project : Project F V) (definitions : List (ProcessDefinition V)) :
    ExtensionManifest where
  extensionId := project.id
  extensionVersion := project.version
  tiramisuCompatibility := project.tiramisuCompatibility
  processDefinitions := definitions.map ProcessDefinition.registered
  adapters := sortedSet (project.usedCapabilities.map fun c => c.adapter.id)
  policies := project.policyIds

/-- The parts of the pack. -/
def Project.pack (project : Project F V)
    (compiled : List (ProcessDefinition V × JourneyDescription F V))
    (simulationBindings : List (String × Adapter)) : ClientPack F V where
  manifest := project.manifest (compiled.map Prod.fst)
  definitions := compiled.map Prod.fst
  bindings := Dict.update [] (project.usedCapabilities.map fun c => (c.actionType, c.adapter))
  policyIds := project.policyIds
  project := some {
    id := project.id
    version := project.version
    title := project.title
    description := project.description
    journeys := compiled.map Prod.snd }
  simulationBindings := Dict.update [] simulationBindings

/-- `compile_project` up to the pack: what it passes to `ClientPack`. -/
def assemble [DecidableEq F] (canonical : V → Bool) (project : Project F V) :
    Except CompileError (ClientPack F V) := do
  let journeys ← uniqueBy "journey ID" Journey.id project.journeys
  let capabilities ← uniqueBy "capability action type" Capability.actionType project.capabilities
  let scenarios ← uniqueBy "scenario ID" (fun s : Scenario F => s.id) project.scenarios
  let _ ← uniqueBy "project fact key" Fact.key project.facts
  let facts ← collectFactCatalog project
  checkRoutes (journeys.map Prod.fst) [] project.routes
  let _ ← checkPublishedStarts project
  scenarios.forM fun entry =>
    ensure ((journeys.map Prod.fst).contains entry.2.journeyId) (.configuration
      s!"scenario {entry.1} references unknown journey {entry.2.journeyId}")
  let compiled ← project.journeys.mapM (compileJourney canonical project capabilities facts)
  let unused := (capabilities.map Prod.fst).filter fun a => !project.usedActions.contains a
  ensure unused.isEmpty (.configuration
    ("project registers capabilities unused by any journey: " ++
      ", ".intercalate (sortedSet unused)))
  let simulationBindings ← project.executedCapabilities.mapM simulationBinding
  ensure (project.manifest (compiled.map Prod.fst)).valid (.validation "ExtensionManifest")
  return project.pack compiled simulationBindings

/-- `compile_project`. -/
def compileProject [DecidableEq F] [BEq V] (canonical : V → Bool) (tiramisu : Tiramisu)
    (project : Project F V) : Except CompileError (ClientPack F V) := do
  let pack ← assemble canonical project
  pack.check tiramisu
  return pack

/-! ### What is known of a project that was assembled -/

lemma mapM_eq_ok_iff {E A B : Type} {f : A → Except E B} {l : List A} {r : List B} :
    l.mapM f = .ok r ↔ List.Forall₂ (fun a b => f a = .ok b) l r := by
  induction l generalizing r with
  | nil => simp [pure, Except.pure, eq_comm]
  | cons a l ih =>
      rw [List.mapM_cons, List.forall₂_cons_left_iff]
      constructor
      · intro h
        obtain ⟨b, hb, h⟩ := ok_of_bind h
        obtain ⟨r', hr', h⟩ := ok_of_bind h
        exact ⟨b, r', hb, ih.mp hr', (Except.ok.inj h).symm⟩
      · rintro ⟨b, r', hb, hr', rfl⟩
        rw [hb, ih.mpr hr']
        rfl

lemma uniqueBy_eq_ok_iff {A : Type} {label : String} {key : A → String} {items : List A}
    {d : List (String × A)} :
    uniqueBy label key items = .ok d ↔
      d = items.map (fun item => (key item, item)) ∧ (items.map key).Nodup := by
  rw [uniqueBy, Dict.fillOnce_eq_ok_iff (by simp), List.nil_append, List.map_map]
  rfl

lemma getItem_eq_ok_iff {A : Type} {d : List (String × A)} {key : String} {a : A} :
    getItem d key = .ok a ↔ d.lookup key = some a := by
  rw [getItem]
  cases d.lookup key with
  | none => simp
  | some b => simp

lemma mem_sortedSet {values : List String} {a : String} : a ∈ sortedSet values ↔ a ∈ values := by
  rw [sortedSet, List.mem_insertionSort, List.mem_dedup]

/-- A compiled journey: its definition and its metadata, made from the same parts. -/
structure CompiledJourney [DecidableEq F] (canonical : V → Bool) (project : Project F V)
    (journey : Journey V) (selected : List (Capability F)) (facts : List Fact)
    (compiled : ProcessDefinition V × JourneyDescription F V) : Prop where
  selection : List.Forall₂ (fun a c => c ∈ project.capabilities ∧ c.actionType = a)
    journey.capabilities selected
  definition : compiled.1 = journey.definition selected (project.routesOf journey.id) facts
  metadata : compiled.2 = journey.describe selected (project.routesOf journey.id) facts
    (project.scenariosOf journey.id)
  valid : compiled.1.valid canonical = true
  scenarios : ∀ scenario ∈ project.scenariosOf journey.id,
    ∀ a ∈ scenario.steps.filterMap actionReference, a ∈ journey.capabilities

lemma exists_left_of_forall₂ {A B : Type} {R : A → B → Prop} {l : List A} {r : List B}
    (h : List.Forall₂ R l r) {b : B} (hb : b ∈ r) : ∃ a ∈ l, R a b := by
  induction h with
  | nil => cases hb
  | cons hab _ ih =>
      obtain rfl | hb := List.mem_cons.mp hb
      · exact ⟨_, List.mem_cons_self, hab⟩
      · obtain ⟨a, ha, hab⟩ := ih hb
        exact ⟨a, List.mem_cons_of_mem _ ha, hab⟩

lemma exists_right_of_forall₂ {A B : Type} {R : A → B → Prop} {l : List A} {r : List B}
    (h : List.Forall₂ R l r) {a : A} (ha : a ∈ l) : ∃ b ∈ r, R a b :=
  exists_left_of_forall₂ h.flip ha

lemma map_eq_of_forall₂ {A B C : Type} {R : A → B → Prop} {l : List A} {r : List B}
    (h : List.Forall₂ R l r) {f : A → C} {g : B → C} (hfg : ∀ a b, R a b → g b = f a) :
    r.map g = l.map f := by
  induction h with
  | nil => rfl
  | cons hab _ ih => rw [List.map_cons, List.map_cons, hfg _ _ hab, ih]

/-- What `compile_project` knows when it makes the pack. -/
structure Assembled [DecidableEq F] (canonical : V → Bool) (project : Project F V)
    (compiled : List (ProcessDefinition V × JourneyDescription F V))
    (simulationBindings : List (String × Adapter)) : Prop where
  journeyIds : (project.journeys.map Journey.id).Nodup
  actionTypes : (project.capabilities.map Capability.actionType).Nodup
  routed : ∀ route ∈ project.routes, route.journeyId ∈ project.journeys.map Journey.id
  starts : (project.publishedStarts.map Route.eventType).Nodup
  described : ∀ scenario ∈ project.scenarios,
    scenario.journeyId ∈ project.journeys.map Journey.id
  journeys : List.Forall₂ (fun journey compiled => ∃ selected facts,
    CompiledJourney canonical project journey selected facts compiled) project.journeys compiled
  used : ∀ c ∈ project.capabilities, c.actionType ∈ project.usedActions
  simulation : List.Forall₂ (fun c binding => c.scenarioAdapter = some binding.2 ∧
    binding.1 = c.actionType) project.executedCapabilities simulationBindings

section

variable [DecidableEq F]

omit [DecidableEq F] in
lemma actionReference_eq_some {step : ScenarioStep F} {a : String}
    (h : actionReference step = some a) : ∃ action, step.body = .action a action := by
  rw [actionReference] at h
  split at h
  · next action hbody => exact ⟨action, hbody.trans (by rw [Option.some.inj h])⟩
  · cases h

/-- A scripted action that is accepted is one of the journey. -/
lemma scanSteps_actions {scenarioId : String} {c : ScenarioContext F} {count index : ℕ}
    {scan scan' : ScenarioScan} {steps : List (ScenarioStep F)}
    (h : scanSteps scenarioId c count index scan steps = .ok scan') :
    ∀ a ∈ steps.filterMap actionReference, a ∈ c.journey.capabilities := by
  induction steps generalizing index scan with
  | nil => simp
  | cons step rest ih =>
      obtain ⟨_, hstep, hrest⟩ := ok_of_bind h
      intro a ha
      obtain ⟨step', hmem, href⟩ := List.mem_filterMap.mp ha
      obtain rfl | hmem := List.mem_cons.mp hmem
      · obtain ⟨action, hbody⟩ := actionReference_eq_some href
        rw [scanStep, hbody] at hstep
        obtain ⟨_, -, hstep⟩ := ok_of_bind hstep
        obtain ⟨_, haction, -⟩ := ok_of_bind hstep
        obtain ⟨_, havailable, -⟩ := ok_of_bind haction
        exact List.contains_iff_mem.mp (requireThat_eq_ok havailable)
      · exact ih hrest a (List.mem_filterMap.mpr ⟨step', hmem, href⟩)

lemma checkScenario_actions {c : ScenarioContext F} {scenario : Scenario F}
    (h : checkScenario c scenario = .ok ()) :
    ∀ a ∈ scenario.steps.filterMap actionReference, a ∈ c.journey.capabilities := by
  rw [checkScenario] at h
  cases hvalid : validateScenario c scenario.toScenario with
  | error message =>
      rw [hvalid] at h
      cases h
  | ok u =>
      obtain ⟨_, -, hvalid⟩ := ok_of_bind hvalid
      obtain ⟨_, -, hvalid⟩ := ok_of_bind hvalid
      obtain ⟨_, hscan, -⟩ := ok_of_bind hvalid
      exact scanSteps_actions hscan

omit [DecidableEq F] in
lemma checkRoutes_routed {journeyIds : List String} {seen : List (String × RouteKind × String)}
    {routes : List Route} (h : checkRoutes journeyIds seen routes = .ok ()) :
    ∀ route ∈ routes, route.journeyId ∈ journeyIds := by
  induction routes generalizing seen with
  | nil => simp
  | cons route rest ih =>
      rw [checkRoutes, check_bind_iff, check_bind_iff, ensure_iff] at h
      rw [List.forall_mem_cons]
      exact ⟨List.contains_iff_mem.mp h.1, ih h.2.2⟩

variable {canonical : V → Bool} {project : Project F V}

/-- The body of the loop over the journeys. -/
lemma compileJourney_eq_ok {capabilities : List (String × Capability F)}
    {facts : List (String × Fact)} {journey : Journey V}
    {compiled : ProcessDefinition V × JourneyDescription F V}
    (hcapabilities : capabilities = project.capabilities.map fun c => (c.actionType, c))
    (htypes : (project.capabilities.map Capability.actionType).Nodup)
    (h : compileJourney canonical project capabilities facts journey = .ok compiled) :
    ∃ selected relevantFacts,
      CompiledJourney canonical project journey selected relevantFacts compiled := by
  obtain ⟨_, -, h⟩ := ok_of_bind h
  obtain ⟨selected, hselected, h⟩ := ok_of_bind h
  obtain ⟨relevantFacts, -, h⟩ := ok_of_bind h
  obtain ⟨_, hvalid, h⟩ := ok_of_bind h
  obtain ⟨_, hscenarios, h⟩ := ok_of_bind h
  obtain rfl := Except.ok.inj h
  refine ⟨selected, relevantFacts, ⟨?_, rfl, rfl, ensure_iff.mp hvalid, ?_⟩⟩
  · refine (mapM_eq_ok_iff.mp hselected).imp fun a c hc => ?_
    have hkeys : (capabilities.map Prod.fst).Nodup := by
      rw [hcapabilities, List.map_map]
      exact htypes
    have hmem := (Dict.lookup_eq_some_iff_mem hkeys a c).mp (getItem_eq_ok_iff.mp hc)
    rw [hcapabilities, List.mem_map] at hmem
    obtain ⟨c', hc', heq⟩ := hmem
    obtain ⟨rfl, rfl⟩ := Prod.mk.inj heq
    exact ⟨hc', rfl⟩
  · exact fun scenario hscenario =>
      checkScenario_actions (forM_ok_iff.mp hscenarios scenario hscenario)

/-- The pack of a project that was assembled. -/
lemma assemble_eq_ok {pack : ClientPack F V} (h : assemble canonical project = .ok pack) :
    ∃ compiled simulationBindings, pack = project.pack compiled simulationBindings ∧
      Assembled canonical project compiled simulationBindings := by
  obtain ⟨journeys, hjourneys, h⟩ := ok_of_bind h
  obtain ⟨capabilities, hcapabilities, h⟩ := ok_of_bind h
  obtain ⟨scenarios, hscenarios, h⟩ := ok_of_bind h
  obtain ⟨_, -, h⟩ := ok_of_bind h
  obtain ⟨facts, -, h⟩ := ok_of_bind h
  obtain ⟨_, hroutes, h⟩ := ok_of_bind h
  obtain ⟨_, hstarts, h⟩ := ok_of_bind h
  obtain ⟨_, hknown, h⟩ := ok_of_bind h
  obtain ⟨compiled, hcompiled, h⟩ := ok_of_bind h
  obtain ⟨_, hunused, h⟩ := ok_of_bind h
  obtain ⟨bindings, hbindings, h⟩ := ok_of_bind h
  obtain ⟨_, -, hpack⟩ := ok_of_bind h
  obtain ⟨rfl, hids⟩ := uniqueBy_eq_ok_iff.mp hjourneys
  obtain ⟨hcatalog, htypes⟩ := uniqueBy_eq_ok_iff.mp hcapabilities
  obtain ⟨rfl, -⟩ := uniqueBy_eq_ok_iff.mp hscenarios
  have hkeys : (project.journeys.map fun j => (j.id, j)).map Prod.fst
      = project.journeys.map Journey.id := by
    rw [List.map_map]
    rfl
  rw [hkeys] at hroutes hknown
  refine ⟨compiled, bindings, (Except.ok.inj hpack).symm, ⟨hids, htypes, checkRoutes_routed hroutes,
    ?_, ?_, ?_, ?_, ?_⟩⟩
  · rw [checkPublishedStarts, Dict.fillOnce_eq_ok_iff (by simp), List.nil_append,
      List.map_map] at hstarts
    exact hstarts.2
  · intro scenario hscenario
    have := forM_ok_iff.mp hknown _ (List.mem_map_of_mem hscenario)
    exact List.contains_iff_mem.mp (ensure_iff.mp this)
  · exact (mapM_eq_ok_iff.mp hcompiled).imp fun journey c hc =>
      compileJourney_eq_ok hcatalog htypes hc
  · intro c hc
    by_contra hnone
    rw [ensure_iff, List.isEmpty_iff, List.filter_eq_nil_iff] at hunused
    refine hunused c.actionType ?_ (by simpa using hnone)
    rw [hcatalog, List.map_map]
    exact List.mem_map_of_mem hc
  · refine (mapM_eq_ok_iff.mp hbindings).imp fun c binding hbinding => ?_
    rw [simulationBinding] at hbinding
    split at hbinding
    · next adapter hadapter =>
        obtain rfl := Except.ok.inj hbinding
        exact ⟨hadapter, rfl⟩
    · cases hbinding

end

/-! ### What the compiler reports -/

/-- A computation fails with nothing but the errors that an author is told: a
`ProjectConfigurationError`, or the `ValidationError` of a model. -/
def Reported {A : Type} (x : Except CompileError A) : Prop :=
  ∀ error, x = .error error →
    (∃ message, error = .configuration message) ∨ ∃ model, error = .validation model

lemma Reported.ok {A : Type} (a : A) : Reported (.ok a) := fun _ h => by cases h

lemma Reported.bind {A B : Type} {x : Except CompileError A} {f : A → Except CompileError B}
    (hx : Reported x) (hf : ∀ a, x = .ok a → Reported (f a)) : Reported (x >>= f) := by
  cases x with
  | error e => exact fun error h => hx error (congrArg _ (Except.error.inj h))
  | ok a => exact hf a rfl

lemma Reported.ensure {c : Bool} {message : String} :
    Reported (ensure c (.configuration message)) := by
  intro error h
  rw [Projects.ensure] at h
  split_ifs at h
  exact .inl ⟨message, (Except.error.inj h).symm⟩

lemma Reported.forM {A : Type} {check : A → Except CompileError Unit} {l : List A}
    (h : ∀ a ∈ l, Reported (check a)) : Reported (l.forM check) := by
  induction l with
  | nil => exact .ok _
  | cons a l ih =>
      rw [List.forall_mem_cons] at h
      exact h.1.bind fun _ _ => ih h.2

lemma Reported.mapM {A B : Type} {f : A → Except CompileError B} {l : List A}
    (h : ∀ a ∈ l, Reported (f a)) : Reported (l.mapM f) := by
  induction l with
  | nil => exact .ok _
  | cons a l ih =>
      rw [List.forall_mem_cons] at h
      rw [List.mapM_cons]
      exact h.1.bind fun _ _ => (ih h.2).bind fun _ _ => .ok _

lemma Reported.fillOnce {K A : Type} [BEq K] {message : K → String} {d ws : List (K × A)} :
    Reported (Dict.fillOnce (fun k => CompileError.configuration (message k)) d ws) := by
  intro error h
  obtain ⟨k, rfl⟩ := Dict.fillOnce_eq_error h
  exact .inl ⟨_, rfl⟩

/-- A subscript of a key that is there raises nothing. -/
lemma Reported.getItem {A : Type} {d : List (String × A)} {key : String}
    (h : key ∈ d.map Prod.fst) : Reported (getItem d key) := by
  obtain ⟨a, ha⟩ := Option.isSome_iff_exists.mp ((Dict.isSome_lookup_iff d key).mpr h)
  rw [getItem_eq_ok_iff.mpr ha]
  exact .ok a

/-- The catalog has the facts it was given, and those that are collected. -/
lemma collectFacts_keys {facts facts' : List (String × Fact)} {l : List Fact}
    (h : l.foldlM collectFact facts = .ok facts') :
    ∀ key, key ∈ facts.map Prod.fst ∨ key ∈ l.map Fact.key → key ∈ facts'.map Prod.fst := by
  induction l generalizing facts with
  | nil =>
      obtain rfl := Except.ok.inj h
      simp
  | cons fact l ih =>
      rw [List.foldlM_cons] at h
      obtain ⟨d, hd, h⟩ := ok_of_bind h
      obtain ⟨_, -, hd⟩ := ok_of_bind hd
      obtain rfl := Except.ok.inj hd
      have hkeys := Dict.mem_keys_update facts [(fact.key, fact)]
      intro key hkey
      refine ih h key ?_
      rw [List.map_cons, List.mem_cons] at hkey
      rw [show Dict.setItem facts fact.key fact = Dict.update facts [(fact.key, fact)] from rfl,
        hkeys key, List.map_singleton, List.mem_singleton]
      tauto

lemma Reported.collectFacts {facts : List (String × Fact)} {l : List Fact} :
    Reported (l.foldlM collectFact facts) := by
  induction l generalizing facts with
  | nil => exact .ok _
  | cons fact l ih =>
      rw [List.foldlM_cons]
      refine Reported.bind (Reported.bind .ensure fun _ _ => .ok _) fun d _ => ih

lemma Reported.checkRoutes {journeyIds : List String} {seen : List (String × RouteKind × String)}
    {routes : List Route} : Reported (checkRoutes journeyIds seen routes) := by
  induction routes generalizing seen with
  | nil => exact .ok _
  | cons route rest ih => exact .bind .ensure fun _ _ => .bind .ensure fun _ _ => ih

section

variable [DecidableEq F] {canonical : V → Bool} {project : Project F V}
  {capabilities : List (String × Capability F)} {facts : List (String × Fact)}
  {journey : Journey V}

omit [DecidableEq F] in
/-- The capabilities and the completion facts of a journey that was checked are known. -/
lemma checkJourney_known {routes : List Route}
    (h : checkJourney capabilities facts routes journey = .ok ()) :
    (∀ a ∈ journey.capabilities, a ∈ capabilities.map Prod.fst) ∧
      ∀ key ∈ journey.completionRequirements.map Prod.fst, key ∈ facts.map Prod.fst := by
  simp only [checkJourney, check_bind_iff, ensure_iff, List.isEmpty_iff,
    List.filter_eq_nil_iff, Bool.not_eq_true', Bool.not_eq_false, List.contains_iff_mem] at h
  exact ⟨h.2.1, h.2.2.2.2.2.2.1⟩

omit [DecidableEq F] in
/-- The facts of a journey are in the catalog of its project. -/
lemma relevantFactKeys_known {selected : List (Capability F)}
    (hfacts : collectFactCatalog project = .ok facts)
    (hselected : ∀ c ∈ selected, c ∈ project.capabilities)
    (hcompletion : ∀ key ∈ journey.completionRequirements.map Prod.fst, key ∈ facts.map Prod.fst) :
    ∀ key ∈ relevantFactKeys journey selected (project.routesOf journey.id),
      key ∈ facts.map Prod.fst := by
  have hknown : ∀ fact ∈ project.allFacts, fact.key ∈ facts.map Prod.fst := fun fact hfact =>
    collectFacts_keys hfacts fact.key (.inr (List.mem_map_of_mem hfact))
  intro key hkey
  rw [relevantFactKeys, List.mem_append, List.mem_append] at hkey
  obtain (hkey | hkey) | hkey := hkey
  · exact hcompletion key hkey
  · obtain ⟨c, hc, hkey⟩ := List.mem_flatMap.mp hkey
    obtain ⟨fact, hfact, rfl⟩ := List.mem_map.mp hkey
    refine hknown fact (List.mem_append_left _ (List.mem_append_right _ ?_))
    exact List.mem_flatMap.mpr ⟨c, hselected c hc, hfact⟩
  · obtain ⟨route, hroute, hkey⟩ := List.mem_flatMap.mp hkey
    obtain ⟨fact, hfact, rfl⟩ := List.mem_map.mp hkey
    refine hknown fact (List.mem_append_right _ ?_)
    exact List.mem_flatMap.mpr ⟨route, (List.mem_filter.mp hroute).1, hfact⟩

lemma Reported.checkScenario {c : ScenarioContext F} {scenario : Scenario F} :
    Reported (checkScenario c scenario) := by
  intro error h
  rw [Projects.checkScenario] at h
  cases hvalid : validateScenario c scenario.toScenario with
  | error message =>
      rw [hvalid] at h
      exact .inl ⟨message, (Except.error.inj h).symm⟩
  | ok u =>
      rw [hvalid] at h
      cases h

lemma Reported.compileJourney
    (hcapabilities : capabilities = project.capabilities.map fun c => (c.actionType, c))
    (hfacts : collectFactCatalog project = .ok facts) :
    Reported (compileJourney canonical project capabilities facts journey) := by
  refine Reported.bind ?_ fun u hchecked => ?_
  · exact .bind .ensure fun _ _ => .bind .ensure fun _ _ => .bind .ensure fun _ _ =>
      .bind .ensure fun _ _ => .bind .ensure fun _ _ => .bind .ensure fun _ _ =>
      .bind .ensure fun _ _ => .ensure
  obtain ⟨hknown, hcompletion⟩ := checkJourney_known hchecked
  refine Reported.bind (.mapM fun a ha => .getItem (hknown a ha)) fun selected hselected => ?_
  have hmem : ∀ c ∈ selected, c ∈ project.capabilities := by
    intro c hc
    obtain ⟨a, -, hfound⟩ := exists_left_of_forall₂ (mapM_eq_ok_iff.mp hselected) hc
    have hentry := Dict.mem_of_lookup (getItem_eq_ok_iff.mp hfound)
    rw [hcapabilities, List.mem_map] at hentry
    obtain ⟨c', hc', heq⟩ := hentry
    exact (Prod.mk.inj heq).2 ▸ hc'
  refine Reported.bind (.mapM fun key hkey => .getItem ?_) fun relevantFacts _ => ?_
  · exact relevantFactKeys_known hfacts hmem hcompletion key (mem_sortedSet.mp hkey)
  refine Reported.bind ?_ fun _ _ => .bind (.forM fun _ _ => .checkScenario) fun _ _ => .ok _
  intro error h
  rw [Projects.ensure] at h
  split_ifs at h
  exact .inr ⟨_, (Except.error.inj h).symm⟩

lemma Reported.assemble : Reported (assemble canonical project) := by
  refine .bind .fillOnce fun journeys _ => .bind .fillOnce fun capabilities hcapabilities =>
    .bind .fillOnce fun scenarios _ => .bind .fillOnce fun _ _ => .bind .collectFacts
    fun facts hfacts => .bind .checkRoutes fun _ _ => .bind .fillOnce fun _ _ =>
    .bind (.forM fun _ _ => .ensure) fun _ _ => .bind (.mapM fun journey _ => ?_) fun compiled _ =>
    .bind .ensure fun _ _ => .bind (.mapM fun c _ => ?_) fun bindings _ =>
    .bind ?_ fun _ _ => .ok _
  · exact .compileJourney (uniqueBy_eq_ok_iff.mp hcapabilities).1 hfacts
  · intro error h
    rw [simulationBinding] at h
    split at h
    · cases h
    · exact .inl ⟨_, (Except.error.inj h).symm⟩
  · intro error h
    rw [Projects.ensure] at h
    split_ifs at h
    exact .inr ⟨_, (Except.error.inj h).symm⟩

end

end TiramisuAgents.Projects
