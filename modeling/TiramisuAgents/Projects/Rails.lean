import TiramisuAgents.Projects.Compilation

/-!
The compiler (`projects/compiler.py`) and the runtime (`extensions/deployment.py`): what the
compiler makes of a project passes the comparisons of the pack, and means what the author wrote.

* `Assembled.check_iff`: which packs of the compiler the runtime refuses.
* `compile_outcome`: an author is told of an error, or the runtime composes the pack.
* `compiled_triggers`: the event that starts a journey is the one that its author routed to it.
* `compiled_rails`: what the compiled definition of a journey allows, requires and waits for.
-/

namespace TiramisuAgents.Projects

variable {F V : Type}

/-! ### The checks of the pack -/

section

variable [DecidableEq F] {canonical : V → Bool} {project : Project F V}

lemma sameMembers_iff {A : Type} [BEq A] [LawfulBEq A] {a b : List A} :
    sameMembers a b = true ↔ ∀ x, x ∈ a ↔ x ∈ b := by
  simp only [sameMembers, Bool.and_eq_true, List.all_eq_true, List.contains_iff_mem]
  exact ⟨fun h x => ⟨h.1 x, h.2 x⟩, fun h => ⟨fun x => (h x).mp, fun x => (h x).mpr⟩⟩

/-- A dictionary is equal to itself. -/
lemma sameEntries_self {A : Type} [BEq A] [ReflBEq A] {d : List (String × A)}
    (hd : (d.map Prod.fst).Nodup) : sameEntries d d = true := by
  simp only [sameEntries, decide_true, Bool.true_and, List.all_eq_true]
  intro entry hentry
  rw [(Dict.lookup_eq_some_iff_mem hd _ _).mpr hentry]
  simp

section

variable {journey : Journey V} {selected : List (Capability F)} {facts : List Fact}
  {c : ProcessDefinition V × JourneyDescription F V}

namespace CompiledJourney

lemma selected_actionTypes (hc : CompiledJourney canonical project journey selected facts c) :
    selected.map Capability.actionType = journey.capabilities := by
  have := map_eq_of_forall₂ (f := id) (g := Capability.actionType) hc.selection
    fun a capability h => h.2
  rwa [List.map_id] at this

lemma selected_nodup (hc : CompiledJourney canonical project journey selected facts c) :
    (selected.map Capability.actionType).Nodup := by
  rw [hc.selected_actionTypes]
  exact journey.capableOnce

lemma mem_selected (hc : CompiledJourney canonical project journey selected facts c)
    {capability : Capability F} (h : capability ∈ selected) :
    capability ∈ project.capabilities ∧ capability.actionType ∈ journey.capabilities := by
  obtain ⟨a, ha, hmem, rfl⟩ := exists_left_of_forall₂ hc.selection h
  exact ⟨hmem, ha⟩

lemma exists_selected (hc : CompiledJourney canonical project journey selected facts c)
    {a : String} (ha : a ∈ journey.capabilities) :
    ∃ capability ∈ selected, capability ∈ project.capabilities ∧ capability.actionType = a :=
  exists_right_of_forall₂ hc.selection ha

/-- The metadata of a compiled journey agrees with its definition. -/
lemma agrees [BEq V] [ReflBEq V]
    (hc : CompiledJourney canonical project journey selected facts c) : c.2.agrees c.1 = .ok () := by
  have hroutes : ∀ kind, ((journey.describe selected (project.routesOf journey.id) facts
      (project.scenariosOf journey.id)).eventTypes kind)
        = routedEvents (project.routesOf journey.id) kind := by
    intro kind
    rw [JourneyDescription.eventTypes, routedEvents, Journey.describe, List.filter_map,
      List.map_map]
    rfl
  have hactions : (selected.map Capability.describe).map CapabilityDescription.actionType
      = journey.capabilities := by
    rw [List.map_map]
    exact hc.selected_actionTypes
  have hadapters : (selected.map Capability.describe).map (fun d => (d.actionType, d.adapterId))
      = selected.map fun c => (c.actionType, c.adapter.id) := by
    rw [List.map_map]
    rfl
  rw [hc.definition, hc.metadata, JourneyDescription.agrees]
  simp only [check_bind_iff, ensure_iff, Bool.and_eq_true, decide_eq_true_eq]
  refine ⟨⟨?_, ?_⟩, ⟨rfl, rfl⟩, ?_, ?_, ?_, ?_, rfl⟩
  · rw [hroutes]
    exact sameSet_self _
  · rw [hroutes]
    exact sameSet_self _
  · rw [Journey.describe, hactions]
    exact sameSet_self _
  · rw [Journey.describe, hadapters]
    exact sameEntries_self (Dict.nodup_keys_update (by simp) _)
  · exact sameEntries_self (Dict.nodup_keys_update (by simp) _)
  · exact sameEntries_self (Dict.nodup_keys_update (by simp) _)

end CompiledJourney

end

namespace Assembled

variable {compiled : List (ProcessDefinition V × JourneyDescription F V)}
  {simulationBindings : List (String × Adapter)} {tiramisu : Tiramisu}

/-- A definition and its metadata come from a journey. -/
lemma exists_journey (A : Assembled canonical project compiled simulationBindings)
    {c : ProcessDefinition V × JourneyDescription F V} (hc : c ∈ compiled) :
    ∃ journey ∈ project.journeys, ∃ selected facts,
      CompiledJourney canonical project journey selected facts c :=
  exists_left_of_forall₂ A.journeys hc

lemma exists_compiled (A : Assembled canonical project compiled simulationBindings)
    {journey : Journey V} (hj : journey ∈ project.journeys) :
    ∃ c ∈ compiled, ∃ selected facts,
      CompiledJourney canonical project journey selected facts c :=
  exists_right_of_forall₂ A.journeys hj

lemma identities_eq (A : Assembled canonical project compiled simulationBindings) :
    compiled.map (fun c => c.1.identity) = project.journeys.map fun j => (j.id, j.version) := by
  refine map_eq_of_forall₂ A.journeys fun journey c hc => ?_
  obtain ⟨selected, facts, hc⟩ := hc
  rw [hc.definition]
  rfl

lemma described_eq (A : Assembled canonical project compiled simulationBindings) :
    compiled.map (fun c => (c.2.id, c.2.version))
      = project.journeys.map fun j => (j.id, j.version) := by
  refine map_eq_of_forall₂ A.journeys fun journey c hc => ?_
  obtain ⟨selected, facts, hc⟩ := hc
  rw [hc.metadata]
  rfl

lemma identities_nodup (A : Assembled canonical project compiled simulationBindings) :
    (project.journeys.map fun j => (j.id, j.version)).Nodup := by
  refine List.Nodup.of_map Prod.fst ?_
  rw [List.map_map]
  exact A.journeyIds

/-- The project agrees with the manifest and the definitions. -/
lemma checkProject [BEq V] [ReflBEq V]
    (A : Assembled canonical project compiled simulationBindings)
    {metadata : ProjectDescription F V}
    (hmetadata : (project.pack compiled simulationBindings).project = some metadata) :
    (project.pack compiled simulationBindings).checkProject metadata = .ok () := by
  obtain rfl := Option.some.inj hmetadata
  have hkeys : ((compiled.map Prod.snd).map fun j => ((j.id, j.version), j)).map Prod.fst
      = project.journeys.map fun j => (j.id, j.version) := by
    rw [List.map_map, List.map_map]
    exact A.described_eq
  have hdict : Dict.update [] ((compiled.map Prod.snd).map fun j => ((j.id, j.version), j))
      = (compiled.map Prod.snd).map fun j => ((j.id, j.version), j) := by
    rw [Dict.update_eq_append, List.nil_append]
    rw [List.nil_append, hkeys]
    exact A.identities_nodup
  rw [ClientPack.checkProject]
  simp only [hdict, hkeys]
  rw [check_bind_iff, check_bind_iff, ensure_iff, ensure_iff, forM_ok_iff]
  refine ⟨by simp [Project.pack, Project.manifest], ?_, ?_⟩
  · have hidentities : (project.pack compiled simulationBindings).definitions.map
        ProcessDefinition.identity = project.journeys.map fun j => (j.id, j.version) := by
      rw [← A.identities_eq]
      exact List.map_map
    rw [hidentities]
    exact (sameMembers_iff (A := String × String)).mpr fun _ => Iff.rfl
  · intro d hd
    obtain ⟨c, hc, rfl⟩ := List.mem_map.mp hd
    obtain ⟨journey, -, selected, facts, hj⟩ := A.exists_journey hc
    have hfound : ((compiled.map Prod.snd).map fun j => ((j.id, j.version), j)).lookup c.1.identity
        = some c.2 := by
      rw [Dict.lookup_eq_some_iff_mem (by rw [hkeys]; exact A.identities_nodup)]
      refine List.mem_map.mpr ⟨c.2, List.mem_map_of_mem hc, ?_⟩
      rw [hj.definition, hj.metadata]
      rfl
    rw [hfound]
    exact hj.agrees

/-- A capability is used iff a journey selects it. -/
lemma mem_usedCapabilities (A : Assembled canonical project compiled simulationBindings)
    {capability : Capability F} :
    capability ∈ project.usedCapabilities ↔ capability ∈ project.capabilities := by
  rw [Project.usedCapabilities, List.mem_filter, List.contains_iff_mem]
  exact and_iff_left_of_imp (A.used capability)

/-- Capabilities with one action type are one. -/
lemma capability_eq (A : Assembled canonical project compiled simulationBindings)
    {capability capability' : Capability F} (h : capability ∈ project.capabilities)
    (h' : capability' ∈ project.capabilities)
    (heq : capability.actionType = capability'.actionType) : capability = capability' :=
  List.inj_on_of_nodup_map A.actionTypes h h' heq

/-- The bindings are the used capabilities, one entry each. -/
lemma bindings_eq (A : Assembled canonical project compiled simulationBindings) :
    (project.pack compiled simulationBindings).bindings
      = project.usedCapabilities.map fun c => (c.actionType, c.adapter) := by
  show Dict.update [] (project.usedCapabilities.map fun c => (c.actionType, c.adapter)) = _
  rw [Dict.update_eq_append, List.nil_append]
  rw [List.nil_append, List.map_map]
  exact A.actionTypes.sublist (List.filter_sublist.map _)

/-- The action types of the definitions are those of the used capabilities. -/
lemma mem_allowedActions (A : Assembled canonical project compiled simulationBindings)
    {a : String} :
    a ∈ (compiled.map Prod.fst).flatMap ProcessDefinition.allowedActions ↔
      a ∈ project.usedCapabilities.map Capability.actionType := by
  rw [List.flatMap_map, List.mem_flatMap, List.mem_map]
  constructor
  · rintro ⟨c, hc, ha⟩
    obtain ⟨journey, -, selected, facts, hj⟩ := A.exists_journey hc
    rw [hj.definition] at ha
    obtain ⟨capability, -, hmem, rfl⟩ := hj.exists_selected ha
    exact ⟨capability, A.mem_usedCapabilities.mpr hmem, rfl⟩
  · rintro ⟨capability, hcapability, rfl⟩
    have hused := A.used capability (A.mem_usedCapabilities.mp hcapability)
    obtain ⟨journey, hjourney, ha⟩ := List.mem_flatMap.mp hused
    obtain ⟨c, hc, selected, facts, hj⟩ := A.exists_compiled hjourney
    exact ⟨c, hc, by rw [hj.definition]; exact ha⟩

/-- The adapters of the definitions are those of the used capabilities. -/
lemma mem_integrations (A : Assembled canonical project compiled simulationBindings)
    {id : String} :
    id ∈ (compiled.map Prod.fst).flatMap (fun d => d.integrations.map Prod.snd) ↔
      id ∈ project.usedCapabilities.map fun c => c.adapter.id := by
  have hintegrations : ∀ {journey selected facts c},
      CompiledJourney canonical project journey selected facts c →
        c.1.integrations = selected.map fun c => (c.actionType, c.adapter.id) := by
    intro journey selected facts c hj
    rw [hj.definition, Journey.definition, Dict.update_eq_append, List.nil_append]
    rw [List.nil_append, List.map_map]
    exact hj.selected_nodup
  rw [List.flatMap_map, List.mem_flatMap, List.mem_map]
  constructor
  · rintro ⟨c, hc, hid⟩
    obtain ⟨journey, -, selected, facts, hj⟩ := A.exists_journey hc
    rw [hintegrations hj, List.map_map] at hid
    obtain ⟨capability, hcapability, rfl⟩ := List.mem_map.mp hid
    exact ⟨capability, A.mem_usedCapabilities.mpr (hj.mem_selected hcapability).1, rfl⟩
  · rintro ⟨capability, hcapability, rfl⟩
    have hmem := A.mem_usedCapabilities.mp hcapability
    obtain ⟨journey, hjourney, ha⟩ := List.mem_flatMap.mp (A.used capability hmem)
    obtain ⟨c, hc, selected, facts, hj⟩ := A.exists_compiled hjourney
    obtain ⟨capability', hselected, hmem', heq⟩ := hj.exists_selected ha
    obtain rfl := A.capability_eq hmem' hmem heq
    refine ⟨c, hc, ?_⟩
    rw [hintegrations hj, List.map_map]
    exact List.mem_map_of_mem hselected

lemma checkBindings (A : Assembled canonical project compiled simulationBindings) :
    (project.pack compiled simulationBindings).checkBindings = .ok () := by
  rw [ClientPack.checkBindings, A.bindings_eq]
  simp only [check_bind_iff, ensure_iff, sameSet_iff, List.map_map]
  refine ⟨fun id => ?_, fun id => ?_, fun a => ?_, fun _ => Iff.rfl⟩
  · exact mem_sortedSet.trans A.mem_integrations.symm
  · exact mem_sortedSet.symm
  · exact A.mem_allowedActions.symm

end Assembled

/-! ### Triggers -/

/-- The project routes an event to the start of a published journey. -/
def Project.Starts (project : Project F V) (eventType : String) (journey : Journey V) : Prop :=
  journey.status = .published ∧ ∃ route ∈ project.routes,
    route.kind = .start ∧ route.journeyId = journey.id ∧ route.eventType = eventType

omit [DecidableEq F] in
lemma mem_routedEvents {kind : RouteKind} {journeyId eventType : String} :
    eventType ∈ routedEvents (project.routesOf journeyId) kind ↔ ∃ route ∈ project.routes,
      route.kind = kind ∧ route.journeyId = journeyId ∧ route.eventType = eventType := by
  simp only [routedEvents, Project.routesOf, List.mem_map, List.mem_filter, decide_eq_true_eq]
  constructor
  · rintro ⟨route, ⟨⟨hroute, hid⟩, hkind⟩, rfl⟩
    exact ⟨route, hroute, hkind, hid, rfl⟩
  · rintro ⟨route, hroute, hkind, hid, rfl⟩
    exact ⟨route, ⟨⟨hroute, hid⟩, hkind⟩, rfl⟩

omit [DecidableEq F] in
/-- An event is routed to the start of at most one published journey. -/
lemma Project.Starts.unique (hids : (project.journeys.map Journey.id).Nodup)
    (hstarts : (project.publishedStarts.map Route.eventType).Nodup) {eventType : String}
    {j j' : Journey V} (hj : j ∈ project.journeys) (hj' : j' ∈ project.journeys)
    (h : project.Starts eventType j) (h' : project.Starts eventType j') : j = j' := by
  have hpublished : ∀ {j : Journey V}, j ∈ project.journeys → j.status = .published →
      ∀ route ∈ project.routes, route.kind = .start → route.journeyId = j.id →
        route ∈ project.publishedStarts := by
    intro j hj hstatus route hroute hkind hid
    refine List.mem_filter.mpr ⟨hroute, ?_⟩
    rw [Bool.and_eq_true, decide_eq_true_eq, List.contains_iff_mem, hid]
    exact ⟨hkind, List.mem_map_of_mem (List.mem_filter.mpr ⟨hj, by simpa using hstatus⟩)⟩
  obtain ⟨hstatus, route, hroute, hkind, hid, htype⟩ := h
  obtain ⟨hstatus', route', hroute', hkind', hid', htype'⟩ := h'
  have hsame : route = route' := List.inj_on_of_nodup_map hstarts
    (hpublished hj hstatus route hroute hkind hid)
    (hpublished hj' hstatus' route' hroute' hkind' hid') (htype.trans htype'.symm)
  refine List.inj_on_of_nodup_map hids hj hj' ?_
  rw [← hid, ← hid', hsame]

namespace Assembled

variable {compiled : List (ProcessDefinition V × JourneyDescription F V)}
  {simulationBindings : List (String × Adapter)}

/-- What an event may start is what the project routes it to. -/
lemma mem_candidates (A : Assembled canonical project compiled simulationBindings)
    {eventType : String} {d : ProcessDefinition V} :
    d ∈ triggerCandidates (compiled.map Prod.fst) false eventType ↔
      ∃ j ∈ project.journeys, project.Starts eventType j ∧ ∃ selected facts,
        ∃ c ∈ compiled, CompiledJourney canonical project j selected facts c ∧ d = c.1 := by
  rw [mem_triggerCandidates, List.mem_map]
  constructor
  · rintro ⟨⟨c, hc, rfl⟩, hstatus, htrigger⟩
    obtain ⟨j, hj, selected, facts, hcj⟩ := A.exists_journey hc
    rw [hcj.definition] at hstatus htrigger
    exact ⟨j, hj, ⟨hstatus, mem_routedEvents.mp htrigger⟩, selected, facts, c, hc, hcj, rfl⟩
  · rintro ⟨j, hj, ⟨hstatus, hroute⟩, selected, facts, c, hc, hcj, rfl⟩
    rw [hcj.definition]
    refine ⟨⟨c, hc, ?_⟩, hstatus, mem_routedEvents.mpr hroute⟩
    exact hcj.definition

/-- The definitions of a pack have different identities, and its triggers are not ambiguous. -/
lemma registered (A : Assembled canonical project compiled simulationBindings) :
    Registered (compiled.map Prod.fst) := by
  have hidentities : ((compiled.map Prod.fst).map ProcessDefinition.identity).Nodup := by
    rw [List.map_map]
    exact A.identities_eq ▸ A.identities_nodup
  refine ⟨hidentities, fun eventType => ?_⟩
  have hone : ∀ d ∈ triggerCandidates (compiled.map Prod.fst) false eventType,
      ∀ d' ∈ triggerCandidates (compiled.map Prod.fst) false eventType, d = d' := by
    intro d hd d' hd'
    obtain ⟨j, hj, hstart, selected, facts, c, hc, hcj, rfl⟩ := A.mem_candidates.mp hd
    obtain ⟨j', hj', hstart', selected', facts', c', hc', hcj', rfl⟩ := A.mem_candidates.mp hd'
    obtain rfl := hstart.unique A.journeyIds A.starts hj hj' hstart'
    refine List.inj_on_of_nodup_map hidentities (List.mem_map_of_mem hc)
      (List.mem_map_of_mem hc') ?_
    rw [hcj.definition, hcj'.definition]
    rfl
  have hnodup : (triggerCandidates (compiled.map Prod.fst) false eventType).Nodup :=
    (hidentities.of_map _).filter _
  match hl : triggerCandidates (compiled.map Prod.fst) false eventType with
  | [] => simp
  | [_] => simp
  | d :: d' :: rest =>
      rw [hl] at hone hnodup
      have hsame := hone d (by simp) d' (by simp)
      simp [hsame] at hnodup

end Assembled

end

/-! ### The compiler and the runtime -/

section

variable [DecidableEq F] (canonical : V → Bool) (tiramisu : Tiramisu) (project : Project F V)

/-- **Triggers are what the author routed**: in the pack of every project that compiles, every
event is resolved without an ambiguity, and it starts a journey iff the journey is published and the
project has a start route of the event to it. -/
theorem compiled_triggers [BEq V] (pack : ClientPack F V)
    (h : compileProject canonical tiramisu project = .ok pack) (eventType : String) :
    ∃ found, resolveTrigger pack.definitions eventType = .ok found ∧
      ∀ journey ∈ project.journeys,
        found.map ProcessDefinition.identity = some (journey.id, journey.version) ↔
          project.Starts eventType journey := by
  obtain ⟨pack', hpack, h⟩ := ok_of_bind h
  obtain ⟨_, -, hsame⟩ := ok_of_bind h
  obtain rfl := Except.ok.inj hsame
  obtain ⟨compiled, bindings, rfl, A⟩ := assemble_eq_ok hpack
  refine ⟨_, A.registered.resolveTrigger eventType, fun journey hjourney => ?_⟩
  constructor
  · intro hfound
    obtain ⟨d, hd, hidentity⟩ := Option.map_eq_some_iff.mp hfound
    have hmem := (head?_eq_some_iff_mem (A.registered.candidates eventType)).mp hd
    obtain ⟨j, hj, hstart, selected, facts, c, hc, hcj, rfl⟩ := A.mem_candidates.mp hmem
    have hid : j.id = journey.id := by
      rw [hcj.definition] at hidentity
      exact (Prod.mk.inj hidentity).1
    exact List.inj_on_of_nodup_map A.journeyIds hj hjourney hid ▸ hstart
  · intro hstart
    obtain ⟨c, hc, selected, facts, hcj⟩ := A.exists_compiled hjourney
    have hmem := A.mem_candidates.mpr ⟨journey, hjourney, hstart, selected, facts, c, hc, hcj, rfl⟩
    rw [(head?_eq_some_iff_mem (A.registered.candidates eventType)).mpr hmem, Option.map_some,
      hcj.definition]
    rfl

/-- The permission of a journey for an action: its own, or the default of the capability; an action
that the journey does not have is denied. -/
def Project.permits (project : Project F V) (journey : Journey V) (actionType : String) :
    PermissionOutcome :=
  if journey.capabilities.contains actionType then
    match project.capabilities.find? fun c => c.actionType = actionType with
    | some c => (journey.permissionOverrides.lookup actionType).getD c.defaultPermission
    | none => .deny
  else .deny

omit [DecidableEq F] in
/-- The entry of an action type among different ones. -/
lemma find?_actionType {capabilities : List (Capability F)}
    (htypes : (capabilities.map Capability.actionType).Nodup) {c : Capability F}
    (hc : c ∈ capabilities) :
    capabilities.find? (fun c' => c'.actionType = c.actionType) = some c := by
  induction capabilities with
  | nil => cases hc
  | cons c' rest ih =>
      rw [List.map_cons, List.nodup_cons] at htypes
      obtain rfl | hc := List.mem_cons.mp hc
      · simp
      · have hne : c'.actionType ≠ c.actionType := fun heq =>
          htypes.1 (heq ▸ List.mem_map_of_mem hc)
        rw [List.find?_cons_of_neg (by simpa using hne), ih htypes.2 hc]

/-- **The rails of a compiled journey are those of its author**: the pack of every project that
compiles has a definition of every journey, which is valid, whose action policy gives every action
the permission that the journey and the capability declare, which wakes on the events that are
routed to wake it, which completes on the values that the journey requires, and whose actions are
bound to the adapters of their capabilities. -/
theorem compiled_rails [BEq V] (fingerprint : TiramisuAgents.ProcessDefinition V → String)
    (pack : ClientPack F V) (h : compileProject canonical tiramisu project = .ok pack)
    (journey : Journey V) (hjourney : journey ∈ project.journeys) :
    ∃ d ∈ pack.definitions, ∃ hvalid : d.valid canonical = true,
      d.identity = (journey.id, journey.version) ∧
      (∀ action : ActionProposal,
        (((ProcessDefinition.policies hvalid).actionPolicy fingerprint).evaluate action).outcome
          = project.permits journey action.actionType) ∧
      (∀ eventType,
        eventType ∈ (ProcessDefinition.policies hvalid).decisionPolicy.allowedWakeEventTypes ↔
          ∃ route ∈ project.routes,
            route.kind = .wake ∧ route.journeyId = journey.id ∧ route.eventType = eventType) ∧
      (∀ requirement ∈ journey.completeWhen,
        (ProcessDefinition.policies hvalid).decisionPolicy.completionRequirements.lookup
          requirement.factKey = some requirement.expectedValue) ∧
      ∀ a ∈ journey.capabilities, ∃ c ∈ project.capabilities,
        c.actionType = a ∧ pack.bindings.lookup a = some c.adapter := by
  obtain ⟨pack', hpack, h⟩ := ok_of_bind h
  obtain ⟨_, -, hsame⟩ := ok_of_bind h
  obtain rfl := Except.ok.inj hsame
  obtain ⟨compiled, bindings, rfl, A⟩ := assemble_eq_ok hpack
  obtain ⟨c, hc, selected, facts, hcj⟩ := A.exists_compiled hjourney
  have hpermissions : c.1.actionPermissions = selected.map fun capability =>
      (capability.actionType, (journey.permissionOverrides.lookup capability.actionType).getD
        capability.defaultPermission) := by
    rw [hcj.definition]
    show Journey.permissions journey selected = _
    rw [Journey.permissions, Dict.update_eq_append, List.nil_append]
    rw [List.nil_append, List.map_map]
    exact hcj.selected_nodup
  have hkeys : (c.1.actionPermissions.map Prod.fst) = journey.capabilities := by
    rw [hpermissions, List.map_map]
    exact hcj.selected_actionTypes
  refine ⟨c.1, List.mem_map_of_mem hc, hcj.valid, by rw [hcj.definition]; rfl, ?_, ?_, ?_, ?_⟩
  · intro action
    show (c.1.actionPermissions.lookup action.actionType).getD .deny = _
    rw [Project.permits]
    by_cases ha : action.actionType ∈ journey.capabilities
    · obtain ⟨capability, hselected, hmem, htype⟩ := hcj.exists_selected ha
      rw [if_pos (List.contains_iff_mem.mpr ha), ← htype, find?_actionType A.actionTypes hmem,
        (Dict.lookup_eq_some_iff_mem c.1.permissionKeys _ _).mpr
          (hpermissions ▸ List.mem_map_of_mem hselected), Option.getD_some]
    · have hnone : c.1.actionPermissions.lookup action.actionType = none := by
        rw [← Option.not_isSome_iff_eq_none, Dict.isSome_lookup_iff, hkeys]
        exact ha
      rw [hnone, if_neg fun h => ha (List.contains_iff_mem.mp h), Option.getD_none]
  · intro eventType
    show eventType ∈ c.1.allowedWakeEvents ↔ _
    rw [hcj.definition]
    exact mem_routedEvents
  · intro requirement hrequirement
    show c.1.completionRequirements.lookup requirement.factKey = _
    rw [hcj.definition]
    show journey.completionRequirements.lookup requirement.factKey = _
    rw [Journey.completionRequirements, Dict.lookup_fill_eq_some_iff]
    · exact List.mem_map_of_mem hrequirement
    · rw [List.map_map]
      exact journey.completes.2
  · intro a ha
    obtain ⟨capability, -, hmem, rfl⟩ := hcj.exists_selected ha
    refine ⟨capability, hmem, rfl, ?_⟩
    rw [A.bindings_eq, Dict.lookup_eq_some_iff_mem]
    · exact List.mem_map_of_mem (A.mem_usedCapabilities.mpr hmem)
    · rw [List.map_map]
      exact A.actionTypes.sublist (List.filter_sublist.map _)

end

/-! ### Samples -/

/-- A fact that an action observes. -/
def visitAgreed : Fact where
  key := "visit.agreed"
  title := "Agreed"
  description := "Whether a time was agreed."

/-- A journey that books a visit. -/
def visitJourney : Journey ℕ where
  id := "visit"
  version := "1"
  title := "Visits"
  description := "A visit at a time that suits the customer."
  goals := ["Agree on a time."]
  capabilities := ["book_visit"]
  completeWhen := [⟨"visit.agreed", 1⟩]
  limits := visitLimits

/-- A project of one journey, with a scenario that books and completes. -/
def visitProject : Project Empty ℕ where
  id := "visits"
  version := "1"
  title := "Visits"
  description := "Visits of customers."
  journeys := [visitJourney]
  routes := [
    { kind := .start
      eventType := "visit.requested"
      journeyId := "visit"
      title := "Request"
      description := "A customer asks for a visit." },
    { kind := .wake
      eventType := "visit.cancelled"
      journeyId := "visit"
      title := "Cancellation"
      description := "A customer cancels a visit." }]
  capabilities := [
    { actionType := "book_visit"
      title := "Book"
      description := "Books a visit."
      parametersModel := .ok
      adapter := ⟨"calendar", some true, true⟩
      guidance := "Only times that the customer named."
      produces := [visitAgreed] }]
  facts := [visitAgreed]
  scenarios := [
    { id := "booked"
      title := "Booked"
      journeyId := "visit"
      description := "A visit is booked."
      startedAt := 0
      steps := [
        ⟨"The request.", .event "visit.requested" { payload := ⟨[], by simp⟩ }⟩,
        ⟨"The booking.", .action "book_visit"
          { logicalActionKey := "book"
            parameters := ⟨[], by simp⟩
            rationale := "Asked for."
            approve := true }⟩,
        ⟨"The end.", .complete⟩]
      steps_ne := by simp }]
  journeys_ne := by simp

/-- The version of Tiramisu that the samples are made for. -/
def sampleTiramisu : Tiramisu := ⟨"0.1.0", fun s => some (s = ">=0.1,<0.2")⟩

lemma visitProject_compiles :
    ∃ pack, compileProject (fun _ => true) sampleTiramisu visitProject = .ok pack := by
  have h : (compileProject (fun _ => true) sampleTiramisu visitProject).toBool = true := by
    decide +kernel
  cases hpack : compileProject (fun _ => true) sampleTiramisu visitProject with
  | error e => simp [hpack, Except.toBool] at h
  | ok pack => exact ⟨pack, rfl⟩

/-- A request starts the journey of the sample. -/
theorem compiled_triggers_visit :
    ∃ pack, compileProject (fun _ => true) sampleTiramisu visitProject = .ok pack ∧
      ∃ found, resolveTrigger pack.definitions "visit.requested" = .ok found ∧
        found.map ProcessDefinition.identity = some ("visit", "1") := by
  obtain ⟨pack, h⟩ := visitProject_compiles
  obtain ⟨found, hfound, hstarts⟩ :=
    compiled_triggers (fun _ => true) sampleTiramisu visitProject pack h "visit.requested"
  refine ⟨pack, h, found, hfound, (hstarts visitJourney List.mem_cons_self).mpr ?_⟩
  exact ⟨rfl, _, List.mem_cons_self, rfl, rfl, rfl⟩

/-- The policy of the sample gives every action the permission that its author declares. -/
theorem compiled_rails_visit :
    ∃ pack, compileProject (fun _ => true) sampleTiramisu visitProject = .ok pack ∧
      ∃ d ∈ pack.definitions, ∃ hvalid : d.valid (fun _ => true) = true,
        d.identity = ("visit", "1") ∧
        ∀ action : ActionProposal,
          (((ProcessDefinition.policies hvalid).actionPolicy fun _ => "5c").evaluate action).outcome
            = visitProject.permits visitJourney action.actionType := by
  obtain ⟨pack, h⟩ := visitProject_compiles
  obtain ⟨d, hd, hvalid, hidentity, hpermits, -⟩ := compiled_rails (fun _ => true) sampleTiramisu
    visitProject (fun _ => "5c") pack h visitJourney List.mem_cons_self
  exact ⟨pack, h, d, hd, hvalid, hidentity, hpermits⟩

end TiramisuAgents.Projects
