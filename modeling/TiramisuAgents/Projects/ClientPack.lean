import TiramisuAgents.Library.Dict
import TiramisuAgents.Projects.Contracts

/-!
Client packs: `ClientPack` of `extensions/deployment.py` with its manifest and metadata, the process
definitions of `processes/definitions.py`, `processes/registry.py`, `processes/compatibility.py`,
and of `extensions/runtime.py` and `api/main.py` the pins and the trigger rules.

A pack checks its parts against each other when it is made.  Its fingerprints are SHA-256 digests of
canonical JSON: they are texts that `Fingerprints` computes.  The output type of the agent is left
out.

* `ProcessDefinition`, `ProcessDefinition.policies`: a definition, and what its policies read of it.
* `ClientPack.check`: what a pack asks of its parts.
* `resolveTrigger`, `ClientPack.triggerRules`, `requireTriggerRules`: which definition an event
  starts, and the rules that an API may be given.
* `Registered`: in a pack that was made an event starts at most one definition.
* `trigger_rules_exact`: the API accepts the rules that the pack makes, and no others.
-/

namespace TiramisuAgents.Projects

/-! ### Process definitions (`processes/definitions.py`) -/

/-- `CommunicationConfiguration`. -/
structure CommunicationConfiguration where
  outboundActionTypes : List String := []
  replyEventTypes : List String := []
  optOutEventTypes : List String := []
  automatedResponseEventTypes : List String := []
  quietHours : Option DailyQuietHours := none

/-- The validators of `CommunicationConfiguration`. -/
def CommunicationConfiguration.valid (c : CommunicationConfiguration) : Bool :=
  decide c.outboundActionTypes.Nodup && decide c.replyEventTypes.Nodup &&
  decide c.optOutEventTypes.Nodup && decide c.automatedResponseEventTypes.Nodup &&
  disjointLists c.replyEventTypes c.optOutEventTypes &&
  disjointLists c.replyEventTypes c.automatedResponseEventTypes &&
  disjointLists c.optOutEventTypes c.automatedResponseEventTypes &&
  (!c.outboundActionTypes.isEmpty || (c.replyEventTypes.isEmpty && c.optOutEventTypes.isEmpty &&
    c.automatedResponseEventTypes.isEmpty && c.quietHours.isNone))

/-- `ProcessDefinition`; dictionaries are lists of entries with different keys. -/
structure ProcessDefinition (V : Type) where
  id : String
  version : String
  status : DefinitionStatus
  triggerEvents : List String
  goals : List String
  terminalStates : List ProcessStatus
  allowedActions : List String
  actionPermissions : List (String × PermissionOutcome)
  actionGuidance : List (String × String)
  decisionGuidance : List String
  allowedWakeEvents : List String
  limits : ProcessLimits
  reviewCommands : List ReviewCommandType
  communications : CommunicationConfiguration
  integrations : List (String × String)
  facts : List Fact
  completionRequirements : List (String × V)
  permissionKeys : (actionPermissions.map Prod.fst).Nodup
  completionKeys : (completionRequirements.map Prod.fst).Nodup

/-- `validate_event_types`. -/
def validEventTypes (values : List String) : Bool :=
  values.all isEventType && decide values.Nodup &&
    values.all fun value => !reservedEventTypes.contains value

/-- `validate_action_types`. -/
def validActionTypes (values : List String) : Bool :=
  values.all isIdentifier && decide values.Nodup

/-- `validate_terminal_states`. -/
def validTerminalStates (values : List ProcessStatus) : Bool :=
  values.all ProcessStatus.terminal && values.contains .completed

/-- The lengths that `FactDefinition` asks for; the rest of its validators is what a `Fact` has. -/
def Fact.fits (fact : Fact) : Bool :=
  fact.key.length ≤ 200 && (1 ≤ fact.title.length && fact.title.length ≤ 200) &&
  (1 ≤ fact.description.length && fact.description.length ≤ 2000)

/-- The review commands that a definition may advertise. -/
def supportedReviewCommands : List ReviewCommandType :=
  [.approve, .reject, .requestRevision, .comment]

/-- A requirement names a declared fact that may be authoritative. -/
def requiresAuthoritative (facts : List Fact) (key : String) : Bool :=
  facts.any fun fact => fact.key = key && fact.kinds.contains .authoritative

namespace ProcessDefinition

variable {V : Type} (canonical : V → Bool) (d : ProcessDefinition V)

/-- The validators of the fields of a definition; `canonical` is what `canonical_json_bytes` admits. -/
def validFields : Bool :=
  isIdentifier d.id && (1 ≤ d.version.length && d.version.length ≤ 64) &&
  validEventTypes d.triggerEvents && validEventTypes d.allowedWakeEvents &&
  (!d.goals.isEmpty && d.goals.all fun goal => strip goal ≠ "") &&
  validTerminalStates d.terminalStates && validActionTypes d.allowedActions &&
  d.actionPermissions.all (fun entry => isIdentifier entry.1) &&
  d.actionGuidance.all (fun entry => isIdentifier entry.1 && strip entry.2 ≠ "") &&
  (d.decisionGuidance.all (fun guidance => strip guidance ≠ "") &&
    decide d.decisionGuidance.Nodup) &&
  (d.reviewCommands.all (supportedReviewCommands.contains ·) && decide d.reviewCommands.Nodup) &&
  d.communications.valid && d.facts.all Fact.fits &&
  d.completionRequirements.all fun entry => isEventType entry.1 && canonical entry.2

/-- `require_explicit_action_permissions`. -/
def validReferences : Bool :=
  sameSet (d.actionPermissions.map Prod.fst) d.allowedActions &&
  subsetOf (d.actionGuidance.map Prod.fst) d.allowedActions &&
  subsetOf d.communications.outboundActionTypes d.allowedActions &&
  subsetOf d.communications.replyEventTypes d.allowedWakeEvents &&
  subsetOf (d.communications.optOutEventTypes ++ d.communications.automatedResponseEventTypes)
    d.allowedWakeEvents &&
  decide (d.facts.map Fact.key).Nodup &&
  d.completionRequirements.all fun entry => requiresAuthoritative d.facts entry.1

/-- The validators of `ProcessDefinition`. -/
def valid : Bool := d.validFields canonical && d.validReferences

variable {canonical d}

/-- What the policies need of the validators. -/
lemma valid_parts (h : d.valid canonical = true) :
    validActionTypes d.allowedActions ∧ validEventTypes d.allowedWakeEvents ∧
      validTerminalStates d.terminalStates ∧
      sameSet (d.actionPermissions.map Prod.fst) d.allowedActions := by
  simp only [valid, validFields, validReferences, Bool.and_eq_true] at h
  tauto

lemma valid_triggerEvents (h : d.valid canonical = true) : d.triggerEvents.Nodup := by
  simp only [valid, validFields, validEventTypes, Bool.and_eq_true, decide_eq_true_eq] at h
  tauto

/-- What `action_policy` and `decision_policy` read of a valid definition. -/
def policies (h : d.valid canonical = true) : TiramisuAgents.ProcessDefinition V where
  terminalStates := d.terminalStates
  allowedActions := d.allowedActions
  actionPermissions := d.actionPermissions
  allowedWakeEvents := d.allowedWakeEvents
  limits := d.limits
  completionRequirements := d.completionRequirements
  actionTypes := by simpa [validActionTypes] using (valid_parts h).1
  eventTypes := by simpa [validEventTypes, and_assoc] using (valid_parts h).2.1
  terminal := by simpa [validTerminalStates] using (valid_parts h).2.2.1
  permissions := ⟨d.permissionKeys, (valid_parts h).2.2.2⟩
  requirements := d.completionKeys

end ProcessDefinition

/-! ### Manifest and metadata -/

/-- `ExtensionManifest`. -/
structure ExtensionManifest where
  extensionId : String
  extensionVersion : String
  tiramisuCompatibility : String
  processDefinitions : List String := []
  adapters : List String := []
  policies : List String := []
  activities : List String := []
  deriving DecidableEq, Repr

/-- The identifiers of a manifest. -/
def ExtensionManifest.identifiers (m : ExtensionManifest) : List String :=
  m.processDefinitions ++ m.adapters ++ m.policies ++ m.activities

/-- The validators of `ExtensionManifest`; identifiers that are unique across the categories are
unique within each. -/
def ExtensionManifest.valid (m : ExtensionManifest) : Bool :=
  isIdentifier m.extensionId && (1 ≤ m.extensionVersion.length && m.extensionVersion.length ≤ 100) &&
  (1 ≤ m.tiramisuCompatibility.length && m.tiramisuCompatibility.length ≤ 100) &&
  m.identifiers.all (fun value => strip value ≠ "") && decide m.identifiers.Nodup

/-- `CapabilityDescription`. -/
structure CapabilityDescription where
  actionType : String
  title : String
  description : String
  adapterId : String
  defaultPermission : PermissionOutcome
  parametersSchema : String
  producesFactKeys : List String
  deriving DecidableEq, Repr

/-- `RouteDescription`. -/
structure RouteDescription where
  kind : RouteKind
  eventType : String
  title : String
  description : String
  providesFactKeys : List String
  deriving DecidableEq, Repr

section

variable {F V : Type}

/-- `JourneyDescription`; a scenario is described by its own data. -/
structure JourneyDescription (F V : Type) where
  id : String
  version : String
  title : String
  description : String
  status : DefinitionStatus
  goals : List String
  routes : List RouteDescription
  capabilities : List CapabilityDescription
  facts : List Fact
  permissions : List (String × PermissionOutcome)
  limits : ProcessLimits
  communications : CommunicationConfiguration
  completionRequirements : List (String × V)
  scenarios : List (Scenario F)

/-- `ProjectDescription`. -/
structure ProjectDescription (F V : Type) where
  id : String
  version : String
  title : String
  description : String
  journeys : List (JourneyDescription F V)

/-- The event types of the routes of one kind. -/
def JourneyDescription.eventTypes (j : JourneyDescription F V) (kind : RouteKind) : List String :=
  (j.routes.filter fun route => route.kind = kind).map RouteDescription.eventType

/-- The action type that a step executes. -/
def actionReference (step : ScenarioStep F) : Option String :=
  match step.body with
  | .action reference _ => some reference
  | _ => none

/-- The action types that scenarios execute. -/
def scenarioActionTypes (scenarios : List (Scenario F)) : List String :=
  scenarios.flatMap fun scenario => scenario.steps.filterMap actionReference

/-! ### Client packs (`extensions/deployment.py`) -/

/-- `ClientPack`. -/
structure ClientPack (F V : Type) where
  manifest : ExtensionManifest
  definitions : List (ProcessDefinition V)
  bindings : List (String × Adapter)
  policyIds : List String
  project : Option (ProjectDescription F V) := none
  simulationBindings : List (String × Adapter) := []

/-- What a project or its pack can be refused with: a `ProjectConfigurationError`, a
`ValidationError` of the named model, a `KeyError`, a `ClientPackError`, and the two errors of the
registry. -/
inductive CompileError where
  | configuration (message : String)
  | validation (model : String)
  | key (key : String)
  | clientPack (message : String)
  | duplicateDefinition (id version : String)
  | ambiguousTrigger (eventType : String)
  deriving DecidableEq, Repr

/-- Refuse with an error unless a condition holds. -/
def ensure (c : Bool) (error : CompileError) : Except CompileError Unit :=
  if c then .ok () else .error error

/-- The release of Tiramisu that composes a pack: its version, and whether it is among the versions
of a specifier; `none` stands for a text that is no specifier. -/
structure Tiramisu where
  version : String
  supports : String → Option Bool

/-- Two lists are equal as sets. -/
def sameMembers {A : Type} [BEq A] (a b : List A) : Bool :=
  a.all (b.contains ·) && b.all (a.contains ·)

/-- Equality of dictionaries. -/
def sameEntries {A : Type} [BEq A] (a b : List (String × A)) : Bool :=
  a.length = b.length && a.all fun entry => (b.lookup entry.1).any (entry.2 == ·)

/-- The identity of a definition. -/
def ProcessDefinition.identity (d : ProcessDefinition V) : String × String := (d.id, d.version)

/-- The name of a definition in a manifest. -/
def ProcessDefinition.registered (d : ProcessDefinition V) : String := s!"{d.id}.v{d.version}"

/-- The checks of a definition against the metadata of its journey. -/
def JourneyDescription.agrees [BEq V] (j : JourneyDescription F V) (d : ProcessDefinition V) :
    Except CompileError Unit := do
  ensure (sameSet (j.eventTypes .start) d.triggerEvents
      && sameSet (j.eventTypes .wake) d.allowedWakeEvents)
    (.clientPack "project route metadata and process definitions disagree")
  ensure (j.status = d.status && j.goals = d.goals)
    (.clientPack "project journey metadata and definitions disagree")
  ensure (sameSet (j.capabilities.map CapabilityDescription.actionType) d.allowedActions)
    (.clientPack "project capability metadata and process definitions disagree")
  ensure (sameEntries
      (Dict.update [] (j.capabilities.map fun c => (c.actionType, c.adapterId))) d.integrations)
    (.clientPack "project adapter metadata and process definitions disagree")
  ensure (sameEntries j.permissions d.actionPermissions)
    (.clientPack "project permission metadata and process definitions disagree")
  ensure (sameEntries j.completionRequirements d.completionRequirements)
    (.clientPack "project completion metadata and process definitions disagree")
  ensure (j.facts = d.facts)
    (.clientPack "project fact metadata and process definitions disagree")

/-! ### The registry (`processes/registry.py`) -/

/-- `ProcessDefinitionRegistry.__init__`: the definitions by their identity. -/
def register (definitions : List (ProcessDefinition V)) :
    Except CompileError (List ((String × String) × ProcessDefinition V)) :=
  Dict.fillOnce (fun identity => .duplicateDefinition identity.1 identity.2) []
    (definitions.map fun d => (d.identity, d))

/-- The definitions that an event may start, of those with an enabled status. -/
def triggerCandidates (definitions : List (ProcessDefinition V)) (includeDrafts : Bool)
    (eventType : String) : List (ProcessDefinition V) :=
  definitions.filter fun d =>
    (d.status = .published || includeDrafts && d.status = .draft) && d.triggerEvents.contains eventType

/-- `resolve_trigger`. -/
def resolveTrigger (definitions : List (ProcessDefinition V)) (eventType : String)
    (includeDrafts : Bool := false) : Except CompileError (Option (ProcessDefinition V)) :=
  let candidates := triggerCandidates definitions includeDrafts eventType
  if 1 < candidates.length then .error (.ambiguousTrigger eventType) else .ok candidates.head?

/-- The definitions that are published. -/
def published (definitions : List (ProcessDefinition V)) : List (ProcessDefinition V) :=
  definitions.filter fun d => d.status = .published

/-! ### The checks of a pack -/

namespace ClientPack

variable (pack : ClientPack F V)

/-- The version of Tiramisu that a pack is made for, and the activities that it may not have. -/
def checkManifest (tiramisu : Tiramisu) : Except CompileError Unit := do
  ensure (!pack.definitions.isEmpty)
    (.clientPack "a client pack must register at least one process definition")
  match tiramisu.supports pack.manifest.tiramisuCompatibility with
  | none => .error (.clientPack "client pack has invalid Tiramisu compatibility metadata")
  | some compatible => do
      ensure compatible (.clientPack
        s!"client pack {pack.manifest.extensionId} does not support Tiramisu {tiramisu.version}")
      ensure pack.manifest.activities.isEmpty (.clientPack
        "custom Temporal activities are not supported by the client-pack contract yet")
      ensure (sameSet pack.manifest.processDefinitions
          (pack.definitions.map ProcessDefinition.registered))
        (.clientPack "manifest and process definition identities disagree")

/-- The comparison of a project with the manifest and the definitions. -/
def checkProject [BEq V] (project : ProjectDescription F V) : Except CompileError Unit := do
  ensure (project.id = pack.manifest.extensionId && project.version = pack.manifest.extensionVersion)
    (.clientPack "project and manifest identities disagree")
  let journeys := Dict.update [] (project.journeys.map fun j => ((j.id, j.version), j))
  ensure (sameMembers (journeys.map Prod.fst) (pack.definitions.map ProcessDefinition.identity))
    (.clientPack "project metadata and process definitions disagree")
  pack.definitions.forM fun d =>
    match journeys.lookup d.identity with
    | some j => j.agrees d
    | none => .error (.key s!"{d.identity}")

/-- The checks of the simulation bindings. -/
def checkSimulation (project : ProjectDescription F V) : Except CompileError Unit := do
  ensure (sameSet (pack.simulationBindings.map Prod.fst)
      (project.journeys.flatMap fun j => scenarioActionTypes j.scenarios))
    (.clientPack "simulation bindings do not cover the executable scenario actions")
  ensure (pack.simulationBindings.all fun binding => binding.2.isSimulationAdapter)
    (.clientPack "simulation bindings must be explicitly marked safe")
  ensure (pack.simulationBindings.all fun binding => binding.2.guaranteesIdempotency.isSome)
    (.clientPack "simulation bindings must implement the action adapter port")

/-- The checks of the bindings and of the policies. -/
def checkBindings : Except CompileError Unit := do
  ensure (sameSet pack.manifest.adapters
      (pack.definitions.flatMap fun d => d.integrations.map Prod.snd))
    (.clientPack "manifest and process integration identities disagree")
  ensure (sameSet (pack.bindings.map fun binding => binding.2.id) pack.manifest.adapters)
    (.clientPack "adapter bindings do not cover the manifest")
  ensure (sameSet (pack.bindings.map Prod.fst)
      (pack.definitions.flatMap ProcessDefinition.allowedActions))
    (.clientPack "action bindings do not cover the process definitions")
  ensure (sameSet pack.policyIds pack.manifest.policies)
    (.clientPack "policy registrations do not cover the manifest")

/-- The registry of a pack, and the published events, resolved in the order of the definitions. -/
def checkRegistry : Except CompileError Unit := do
  let _ ← register pack.definitions
  ((published pack.definitions).flatMap ProcessDefinition.triggerEvents).forM fun eventType => do
    let _ ← resolveTrigger pack.definitions eventType
    return ()

/-- The checks of a pack with its project, if it has one. -/
def checkMetadata [BEq V] : Except CompileError Unit :=
  match pack.project with
  | none => .ok ()
  | some project => do
      pack.checkProject project
      pack.checkSimulation project

/-- `__post_init__`. -/
def check [BEq V] (tiramisu : Tiramisu) : Except CompileError Unit := do
  pack.checkManifest tiramisu
  pack.checkMetadata
  pack.checkBindings
  pack.checkRegistry

end ClientPack

/-! ### Pins and trigger rules -/

/-- The SHA-256 digests of the canonical JSON of the parts of a pack. -/
structure Fingerprints (F V : Type) where
  manifest : ExtensionManifest → String
  definition : ProcessDefinition V → String
  composition : ClientPack F V → String

/-- `DeploymentRelease`, with its derived fingerprint. -/
structure DeploymentRelease where
  deploymentId : String
  clientPackFingerprint : String
  releaseFingerprint : String
  deriving DecidableEq, Repr

/-- The `temporal_task_queue` of a release. -/
def DeploymentRelease.temporalTaskQueue (release : DeploymentRelease) : String :=
  s!"tiramisu.{release.deploymentId}.{release.releaseFingerprint}"

/-- `ProcessBootstrap`: the pins that a process is created with. -/
structure ProcessBootstrap where
  processType : String
  definitionVersion : String
  extensionManifestHash : String
  clientPackFingerprint : String
  processDefinitionFingerprint : String
  deploymentId : String
  deploymentReleaseFingerprint : String
  temporalTaskQueue : String
  lateEventPolicy : String := "record_only"
  deriving DecidableEq, Repr

/-- `DeploymentCompatibility`. -/
structure DeploymentCompatibility where
  clientPackFingerprint : String
  extensionManifestHash : String
  definitionFingerprints : List ((String × String) × String)

/-- The name of a pin that is not what it should be. -/
def mismatch (name actual expected : String) : List String :=
  if actual = expected then [] else [name]

/-- `DeploymentCompatibility.require_process`. -/
def DeploymentCompatibility.requireProcess (c : DeploymentCompatibility) (b : ProcessBootstrap) :
    Except String Unit :=
  match c.definitionFingerprints.lookup (b.processType, b.definitionVersion) with
  | none => .error "process definition is not present in the deployed client pack"
  | some expectedDefinition =>
      let mismatches :=
        mismatch "client pack" b.clientPackFingerprint c.clientPackFingerprint ++
        mismatch "extension manifest" b.extensionManifestHash c.extensionManifestHash ++
        mismatch "process definition" b.processDefinitionFingerprint expectedDefinition
      requireThat mismatches.isEmpty
        ("process compatibility pins do not match the deployed composition: " ++
          ", ".intercalate mismatches)

/-- `DeploymentRelease.require_process`. -/
def DeploymentRelease.requireProcess (release : DeploymentRelease) (b : ProcessBootstrap) :
    Except String Unit :=
  let mismatches :=
    mismatch "deployment" b.deploymentId release.deploymentId ++
    mismatch "deployment release" b.deploymentReleaseFingerprint release.releaseFingerprint ++
    mismatch "Temporal task queue" b.temporalTaskQueue release.temporalTaskQueue
  requireThat mismatches.isEmpty
    ("process deployment pins do not match the running release: " ++ ", ".intercalate mismatches)

/-- `DeploymentRelease.require_client_pack`. -/
def DeploymentRelease.requireClientPack (release : DeploymentRelease) (fingerprint : String) :
    Except String Unit :=
  requireThat (fingerprint = release.clientPackFingerprint)
    "deployment release and client pack fingerprints disagree"

namespace ClientPack

variable (fingerprints : Fingerprints F V) (pack : ClientPack F V) (release : DeploymentRelease)

/-- The `compatibility` of a pack. -/
def compatibility : DeploymentCompatibility where
  clientPackFingerprint := fingerprints.composition pack
  extensionManifestHash := fingerprints.manifest pack.manifest
  definitionFingerprints :=
    Dict.update [] (pack.definitions.map fun d => (d.identity, fingerprints.definition d))

/-- The pins of the processes of a definition. -/
def bootstrap (d : ProcessDefinition V) : ProcessBootstrap where
  processType := d.id
  definitionVersion := d.version
  extensionManifestHash := fingerprints.manifest pack.manifest
  clientPackFingerprint := fingerprints.composition pack
  processDefinitionFingerprint := fingerprints.definition d
  deploymentId := release.deploymentId
  deploymentReleaseFingerprint := release.releaseFingerprint
  temporalTaskQueue := release.temporalTaskQueue

/-- The entries that the two loops of `trigger_rules` make. -/
def triggerEntries : List (String × ProcessBootstrap) :=
  (published pack.definitions).flatMap fun d =>
    d.triggerEvents.map fun eventType => (eventType, pack.bootstrap fingerprints release d)

/-- `trigger_rules`. -/
def triggerRules : Except String (List (String × ProcessBootstrap)) := do
  release.requireClientPack (fingerprints.composition pack)
  Dict.fillOnce (fun eventType => s!"ambiguous client-pack trigger: {eventType}") []
    (pack.triggerEntries fingerprints release)

/-- The check of one rule that `create_app` is given. -/
def requireTriggerRule (eventType : String) (b : ProcessBootstrap) : Except String Unit :=
  match resolveTrigger pack.definitions eventType with
  | .error _ => .error s!"ambiguous trigger {eventType}"
  | .ok none => .error "trigger rule is not published by the client pack"
  | .ok (some d) => do
      requireThat (b.processType = d.id && b.definitionVersion = d.version)
        "trigger rules and client-pack definitions disagree"
      (pack.compatibility fingerprints).requireProcess b
      release.requireProcess b

/-- The check of the rules that `create_app` is given with a pack and its release. -/
def requireTriggerRules (rules : List (String × ProcessBootstrap)) : Except String Unit := do
  release.requireClientPack (fingerprints.composition pack)
  rules.forM fun rule => pack.requireTriggerRule fingerprints release rule.1 rule.2

end ClientPack

/-! ### What a pack that was made guarantees -/

lemma ensure_iff {c : Bool} {error : CompileError} : ensure c error = .ok () ↔ c = true := by
  rw [ensure]
  split_ifs with h
  · exact iff_of_true rfl h
  · exact iff_of_false (fun h' => by cases h') h

/-- The definitions have different identities, and an event starts at most one of them. -/
structure Registered (definitions : List (ProcessDefinition V)) : Prop where
  identities : (definitions.map ProcessDefinition.identity).Nodup
  candidates : ∀ eventType, (triggerCandidates definitions false eventType).length ≤ 1

lemma register_eq_ok_iff {definitions : List (ProcessDefinition V)}
    {registered : List ((String × String) × ProcessDefinition V)} :
    register definitions = .ok registered ↔
      registered = definitions.map (fun d => (d.identity, d)) ∧
        (definitions.map ProcessDefinition.identity).Nodup := by
  rw [register, Dict.fillOnce_eq_ok_iff (by simp), List.nil_append, List.map_map]
  rfl

lemma triggerCandidates_eq (definitions : List (ProcessDefinition V)) (eventType : String) :
    triggerCandidates definitions false eventType
      = (published definitions).filter fun d => d.triggerEvents.contains eventType := by
  rw [triggerCandidates, published, List.filter_filter]
  refine List.filter_congr fun d _ => ?_
  simp [Bool.and_comm]

/-- Only what is published may start. -/
lemma mem_triggerCandidates {definitions : List (ProcessDefinition V)} {eventType : String}
    {d : ProcessDefinition V} :
    d ∈ triggerCandidates definitions false eventType ↔
      d ∈ definitions ∧ d.status = .published ∧ eventType ∈ d.triggerEvents := by
  simp [triggerCandidates]

lemma resolveTrigger_eq_ok {definitions : List (ProcessDefinition V)} {eventType : String}
    {found : Option (ProcessDefinition V)}
    (h : resolveTrigger definitions eventType = .ok found) :
    (triggerCandidates definitions false eventType).length ≤ 1 ∧
      found = (triggerCandidates definitions false eventType).head? := by
  rw [resolveTrigger] at h
  split_ifs at h with hmany
  exact ⟨not_lt.mp hmany, (Except.ok.inj h).symm⟩

lemma Registered.resolveTrigger {definitions : List (ProcessDefinition V)}
    (hr : Registered definitions) (eventType : String) :
    resolveTrigger definitions eventType
      = .ok (triggerCandidates definitions false eventType).head? := by
  rw [Projects.resolveTrigger]
  exact if_neg (not_lt.mpr (hr.candidates eventType))

/-- In a list with at most one member the first is the member. -/
lemma head?_eq_some_iff_mem {A : Type} {l : List A} (h : l.length ≤ 1) {a : A} :
    l.head? = some a ↔ a ∈ l := by
  match l, h with
  | [], _ => simp
  | [b], _ => simp [eq_comm]

lemma ClientPack.checkMetadata_eq_ok_iff [BEq V] {pack : ClientPack F V} :
    pack.checkMetadata = .ok () ↔ ∀ project, pack.project = some project →
      pack.checkProject project = .ok () ∧ pack.checkSimulation project = .ok () := by
  rw [checkMetadata]
  cases pack.project with
  | none => exact iff_of_true rfl fun project h => by cases h
  | some project => simp [check_bind_iff]

lemma ClientPack.checkRegistry_eq_ok_iff {pack : ClientPack F V} :
    pack.checkRegistry = .ok () ↔ Registered pack.definitions := by
  constructor
  · intro h
    obtain ⟨_, hregister, hresolve⟩ := ok_of_bind h
    refine ⟨(register_eq_ok_iff.mp hregister).2, fun eventType => ?_⟩
    by_cases hempty : triggerCandidates pack.definitions false eventType = []
    · rw [hempty]
      exact zero_le_one
    obtain ⟨d, hd⟩ := List.exists_mem_of_ne_nil _ hempty
    obtain ⟨hmem, hstatus, hevent⟩ := mem_triggerCandidates.mp hd
    have hpublished : eventType
        ∈ (published pack.definitions).flatMap ProcessDefinition.triggerEvents :=
      List.mem_flatMap.mpr ⟨d, List.mem_filter.mpr ⟨hmem, by simpa using hstatus⟩, hevent⟩
    obtain ⟨_, hfound, -⟩ := ok_of_bind (forM_ok_iff.mp hresolve eventType hpublished)
    exact (resolveTrigger_eq_ok hfound).1
  · intro hr
    rw [checkRegistry, register_eq_ok_iff.mpr ⟨rfl, hr.identities⟩]
    refine forM_ok_iff.mpr fun eventType _ => ?_
    rw [hr.resolveTrigger]
    rfl

/-- The checks of a pack, one by one. -/
lemma ClientPack.check_eq_ok_iff [BEq V] {pack : ClientPack F V} {tiramisu : Tiramisu} :
    pack.check tiramisu = .ok () ↔
      pack.checkManifest tiramisu = .ok () ∧
      (∀ project, pack.project = some project →
        pack.checkProject project = .ok () ∧ pack.checkSimulation project = .ok ()) ∧
      pack.checkBindings = .ok () ∧ Registered pack.definitions := by
  rw [check, check_bind_iff, check_bind_iff, check_bind_iff, checkMetadata_eq_ok_iff,
    checkRegistry_eq_ok_iff]

/-! ### The rules of the pack, and no others -/

section

variable {fingerprints : Fingerprints F V} {pack : ClientPack F V} {release : DeploymentRelease}
  {b : ProcessBootstrap} {d : ProcessDefinition V}

lemma mismatch_eq_nil {name actual expected : String} :
    mismatch name actual expected = [] ↔ actual = expected := by
  rw [mismatch]
  split_ifs with h <;> simp [h]

lemma DeploymentRelease.requireProcess_eq_ok_iff :
    release.requireProcess b = .ok () ↔
      b.deploymentId = release.deploymentId ∧
      b.deploymentReleaseFingerprint = release.releaseFingerprint ∧
      b.temporalTaskQueue = release.temporalTaskQueue := by
  simp only [requireProcess, requireThat_iff, List.isEmpty_iff, List.append_eq_nil_iff,
    mismatch_eq_nil, and_assoc]

/-- The pins of a process of a registered definition. -/
lemma ClientPack.requireProcess_eq_ok_iff (hr : Registered pack.definitions)
    (hd : d ∈ pack.definitions) (hidentity : (b.processType, b.definitionVersion) = d.identity) :
    (pack.compatibility fingerprints).requireProcess b = .ok () ↔
      b.clientPackFingerprint = fingerprints.composition pack ∧
      b.extensionManifestHash = fingerprints.manifest pack.manifest ∧
      b.processDefinitionFingerprint = fingerprints.definition d := by
  have hfound : (pack.compatibility fingerprints).definitionFingerprints.lookup
      (b.processType, b.definitionVersion) = some (fingerprints.definition d) := by
    rw [hidentity]
    refine (Dict.lookup_fill_eq_some_iff ?_ _ _).mpr (List.mem_map_of_mem hd)
    rw [List.map_map]
    exact hr.identities
  rw [DeploymentCompatibility.requireProcess, hfound]
  simp only [requireThat_iff, List.isEmpty_iff, List.append_eq_nil_iff, mismatch_eq_nil, and_assoc]
  rfl

/-- A rule is accepted iff its pins are those of the definition that its event starts. -/
lemma ClientPack.requireTriggerRule_eq_ok_iff (hr : Registered pack.definitions)
    {eventType : String} :
    pack.requireTriggerRule fingerprints release eventType b = .ok () ↔
      ∃ d ∈ triggerCandidates pack.definitions false eventType,
        { b with lateEventPolicy := "record_only" } = pack.bootstrap fingerprints release d := by
  rw [requireTriggerRule, hr.resolveTrigger]
  cases hhead : (triggerCandidates pack.definitions false eventType).head? with
  | none => simp [List.head?_eq_none_iff.mp hhead]
  | some d =>
      have hmem := fun d' => head?_eq_some_iff_mem (hr.candidates eventType) (a := d')
      simp only [hhead, Option.some.injEq] at hmem
      have hd := (mem_triggerCandidates.mp ((hmem d).mp rfl)).1
      simp only [← hmem, exists_eq_left']
      rw [check_bind_iff, check_bind_iff, requireThat_iff, Bool.and_eq_true, decide_eq_true_eq,
        decide_eq_true_eq, DeploymentRelease.requireProcess_eq_ok_iff]
      constructor
      · rintro ⟨⟨htype, hversion⟩, hpins, hdeployment, hfingerprint, hqueue⟩
        obtain ⟨hcomposition, hmanifest, hdefinition⟩ :=
          (requireProcess_eq_ok_iff hr hd (Prod.ext htype hversion)).mp hpins
        rw [ProcessBootstrap.mk.injEq]
        exact ⟨htype, hversion, hmanifest, hcomposition, hdefinition, hdeployment, hfingerprint,
          hqueue, rfl⟩
      · intro h
        rw [bootstrap, ProcessBootstrap.mk.injEq] at h
        obtain ⟨htype, hversion, hmanifest, hcomposition, hdefinition, hdeployment, hfingerprint,
          hqueue, -⟩ := h
        exact ⟨⟨htype, hversion⟩, (requireProcess_eq_ok_iff hr hd (Prod.ext htype hversion)).mpr
          ⟨hcomposition, hmanifest, hdefinition⟩, hdeployment, hfingerprint, hqueue⟩

/-- The events of the rules of a pack are different. -/
lemma ClientPack.triggerEntries_nodup (hr : Registered pack.definitions)
    (hevents : ∀ d ∈ pack.definitions, d.triggerEvents.Nodup) :
    ((pack.triggerEntries fingerprints release).map Prod.fst).Nodup := by
  have hkeys : (pack.triggerEntries fingerprints release).map Prod.fst
      = (published pack.definitions).flatMap ProcessDefinition.triggerEvents := by
    rw [triggerEntries, List.map_flatMap]
    exact List.flatMap_congr fun d _ => by rw [List.map_map]; exact List.map_id _
  have hpublished : ∀ d ∈ published pack.definitions, d.triggerEvents.Nodup :=
    fun d hd => hevents d (List.mem_filter.mp hd).1
  rw [hkeys, Dict.nodup_flatMap_iff hpublished]
  intro eventType
  rw [← triggerCandidates_eq]
  exact hr.candidates eventType

lemma ClientPack.mem_triggerEntries {eventType : String} :
    (eventType, b) ∈ pack.triggerEntries fingerprints release ↔
      ∃ d ∈ triggerCandidates pack.definitions false eventType,
        b = pack.bootstrap fingerprints release d := by
  simp only [triggerEntries, triggerCandidates_eq, List.mem_flatMap, List.mem_map, List.mem_filter,
    Prod.mk.injEq, List.contains_iff_mem]
  constructor
  · rintro ⟨d, hd, e, he, rfl, rfl⟩
    exact ⟨d, ⟨hd, he⟩, rfl⟩
  · rintro ⟨d, ⟨hd, he⟩, rfl⟩
    exact ⟨d, hd, eventType, he, rfl, rfl⟩

/-- **The API accepts the rules that the pack makes, and no others**: for a pack that was made from
valid definitions, and every release, the rules that an API is started with pass iff the pack is
the one of the release, and each of them pins its processes as the rule that the pack itself makes
for its event does. -/
theorem trigger_rules_exact [BEq V] (canonical : V → Bool) (tiramisu : Tiramisu)
    (fingerprints : Fingerprints F V) (pack : ClientPack F V) (release : DeploymentRelease)
    (rules : List (String × ProcessBootstrap))
    (hvalid : ∀ d ∈ pack.definitions, d.valid canonical = true)
    (hmade : pack.check tiramisu = .ok ()) :
    pack.requireTriggerRules fingerprints release rules = .ok () ↔
      ∃ own, pack.triggerRules fingerprints release = .ok own ∧
        ∀ rule ∈ rules, own.lookup rule.1
          = some { rule.2 with lateEventPolicy := "record_only" } := by
  have hr := (ClientPack.check_eq_ok_iff.mp hmade).2.2.2
  have hevents : ∀ d ∈ pack.definitions, d.triggerEvents.Nodup := fun d hd =>
    ProcessDefinition.valid_triggerEvents (hvalid d hd)
  have hnodup : ((pack.triggerEntries fingerprints release).map Prod.fst).Nodup :=
    ClientPack.triggerEntries_nodup hr hevents
  have hown : ∀ own, pack.triggerRules fingerprints release = .ok own ↔
      release.requireClientPack (fingerprints.composition pack) = .ok () ∧
        own = pack.triggerEntries fingerprints release := by
    intro own
    rw [ClientPack.triggerRules, check_bind_iff, Dict.fillOnce_eq_ok_iff (by simp),
      List.nil_append, and_iff_left hnodup]
  rw [ClientPack.requireTriggerRules, check_bind_iff, forM_ok_iff]
  simp only [hown, ClientPack.requireTriggerRule_eq_ok_iff hr]
  constructor
  · rintro ⟨hrelease, hrules⟩
    refine ⟨_, ⟨hrelease, rfl⟩, fun rule hrule => ?_⟩
    exact (Dict.lookup_eq_some_iff_mem hnodup _ _).mpr
      (ClientPack.mem_triggerEntries.mpr (hrules rule hrule))
  · rintro ⟨_, ⟨hrelease, rfl⟩, hrules⟩
    refine ⟨hrelease, fun rule hrule => ?_⟩
    exact ClientPack.mem_triggerEntries.mp
      ((Dict.lookup_eq_some_iff_mem hnodup _ _).mp (hrules rule hrule))

end

end

/-- The limits of a visit. -/
def visitLimits : ProcessLimits where
  maxActionsPerTurn := 2
  maximumTimerHorizonDays := 14

/-- A pack of one definition. -/
def visitPack : ClientPack Empty ℕ where
  manifest := {
    extensionId := "visits"
    extensionVersion := "1"
    tiramisuCompatibility := ">=0.1,<0.2"
    processDefinitions := ["visit.v1"]
    adapters := ["calendar"]
    policies := ["visits.policy"] }
  definitions := [{
    id := "visit"
    version := "1"
    status := .published
    triggerEvents := ["visit.requested"]
    goals := ["Agree on a time."]
    terminalStates := [.completed]
    allowedActions := ["book_visit"]
    actionPermissions := [("book_visit", .requireApproval)]
    actionGuidance := []
    decisionGuidance := []
    allowedWakeEvents := []
    limits := visitLimits
    reviewCommands := [.approve, .reject]
    communications := {}
    integrations := [("book_visit", "calendar")]
    facts := []
    completionRequirements := []
    permissionKeys := by decide
    completionKeys := List.nodup_nil }]
  bindings := [("book_visit", ⟨"calendar", some true, false⟩)]
  policyIds := ["visits.policy"]

/-- A rule with the pins of the pack, but for the digest of its definition, is refused. -/
theorem trigger_rules_exact_visit :
    let fingerprints : Fingerprints Empty ℕ := ⟨fun _ => "3a", fun _ => "5c", fun _ => "7e"⟩
    let release : DeploymentRelease := ⟨"north", "7e", "90"⟩
    let rules := [("visit.requested", ({
      processType := "visit"
      definitionVersion := "1"
      extensionManifestHash := "3a"
      clientPackFingerprint := "7e"
      processDefinitionFingerprint := "5d"
      deploymentId := "north"
      deploymentReleaseFingerprint := "90"
      temporalTaskQueue := "tiramisu.north.90" } : ProcessBootstrap))]
    visitPack.requireTriggerRules fingerprints release rules = .ok () ↔
      ∃ own, visitPack.triggerRules fingerprints release = .ok own ∧
        ∀ rule ∈ rules, own.lookup rule.1
          = some { rule.2 with lateEventPolicy := "record_only" } :=
  trigger_rules_exact (fun _ => true) ⟨"0.1.0", fun s => some (s = ">=0.1,<0.2")⟩ _ visitPack _ _
    (by decide +kernel) (by decide +kernel)

end TiramisuAgents.Projects
