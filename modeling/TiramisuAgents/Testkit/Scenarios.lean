import TiramisuAgents.Core.Definitions
import TiramisuAgents.Processes.Integrity

/-!
`testkit/scenarios.py`: the projection of one step of `KernelScenarioDriver.run`, against the one
of `apply_decision`.

Both fold the sources of the turn, project the transition and update the memory.  The driver
folds the sources in the order of the turn and sets the memory to that of the decision;
`apply_decision` folds them in the order of the decision, and keeps the summary it has when the
decision gives none.

* `scenarioStep`: the step.
* `SameObservers`, `KeepsMemory`: where the two differ.
* `scenario_agrees_iff`: the snapshots agree if and only if they do not; `summary_dropped` is a
  step that drops a summary.
-/

namespace TiramisuAgents

open Dict

section

variable {V : Type}

/-- `ProcessSnapshot`, without the identity of the process. -/
structure ProcessSnapshot (V : Type) where
  status : ProcessStatus
  facts : FactProjection V := {}
  memory : MemoryUpdate := {}
  currentWakeConditions : List WakeCondition := []
  stateVersion : ℕ := 0

/-- The snapshot of a process row. -/
def ProcessRow.snapshot (row : ProcessRow V) : ProcessSnapshot V :=
  ⟨row.status, row.facts, row.memory, row.currentWakeConditions, row.stateVersion⟩

/-- What wakes a turn of the driver; an event or an attempt comes once. -/
structure PendingSources (V : Type) where
  events : List (FactSource V) := []
  results : List (FactSource V) := []
  timers : List String := []
  events_key : (events.map FactSource.id).Nodup := by decide
  results_key : (results.map FactSource.id).Nodup := by decide

/-- The sources of the turn in its order. -/
def PendingSources.sources (pending : PendingSources V) :
    List (FactSourceType × FactSource V) :=
  pending.events.map (FactSourceType.event, ·) ++
    pending.results.map (FactSourceType.actionAttempt, ·)

/-- One step of `KernelScenarioDriver.run`: from a decision to the next snapshot. -/
def scenarioStep [BEq V] (identity : String → Parameters → String) (bytes : V → ℕ)
    (definition : ProcessDefinition V) (now : Time) (snapshot : ProcessSnapshot V)
    (pending : PendingSources V) (decision : AgentDecision) (openActions : OpenActions) :
    Except String (ProcessSnapshot V) := do
  let prospectiveAuthoritative :=
    prospectiveFacts snapshot.facts.authoritative pending.events pending.results
  let decision ← validateDecision identity decision definition.decisionPolicy now
    { eventIds := some (pending.events.map FactSource.id)
      actionAttemptIds := some (pending.results.map FactSource.id)
      timerIds := some pending.timers } [] (some prospectiveAuthoritative) true
  let facts := pending.events.foldl (fun p e => applyFactObservations e.facts .event e.id p)
    snapshot.facts
  let facts := pending.results.foldl
    (fun p r => applyFactObservations r.facts .actionAttempt r.id p) facts
  requireProcessFactProjection bytes facts
  let transition ← projectProcessTransition decision openActions (some definition.terminalStates)
    facts.authoritative definition.completionRequirements
  return { snapshot with
    status := transition.status
    facts := facts
    memory := decision.memoryUpdate
    currentWakeConditions := transition.wakeConditions
    stateVersion := snapshot.stateVersion + 1 }

/-! ### Agreement -/

/-- Two snapshots are equal, with their dictionaries as such. -/
structure ProcessSnapshot.Agrees (s s' : ProcessSnapshot V) : Prop where
  status : s.status = s'.status
  wakeConditions : s.currentWakeConditions = s'.currentWakeConditions
  authoritative : ∀ key, s.facts.authoritative.lookup key = s'.facts.authoritative.lookup key
  claims : ∀ key, s.facts.claims.lookup key = s'.facts.claims.lookup key
  provenance : ∀ key, s.facts.provenance.lookup key = s'.facts.provenance.lookup key
  memory : s.memory = s'.memory
  stateVersion : s.stateVersion = s'.stateVersion

/-- The four lists of sources of a summary. -/
def MemoryUpdate.summarySources (m : MemoryUpdate) : SourceIds :=
  ⟨m.summarySourceEventIds, m.summarySourceReviewCommandIds, m.summarySourceActionAttemptIds,
    m.summarySourceTimerIds⟩

/-- The update replaces the summary, or there is none. -/
def KeepsMemory (memory update : MemoryUpdate) : Prop :=
  update.summary ≠ none ∨
    (memory.summary = none ∧ memory.summarySources = update.summarySources)

/-- In both orders the same source is the last to observe a fact. -/
def SameObservers (sources sources' : List (FactSourceType × FactSource V)) : Prop :=
  ∀ kind key, lastObserver kind key sources = lastObserver kind key sources'

/-- The memory of the driver is that of the row. -/
lemma onto_eq_iff {memory update : MemoryUpdate} :
    update = update.onto memory ↔ KeepsMemory memory update := by
  obtain ⟨summary, events, reviews, attempts, timers, commitments⟩ := update
  obtain ⟨summary', events', reviews', attempts', timers', commitments'⟩ := memory
  cases summary with
  | none =>
      simp only [KeepsMemory, MemoryUpdate.onto, MemoryUpdate.summarySources, Option.isSome_none,
        Bool.false_eq_true, if_false, MemoryUpdate.mk.injEq, SourceIds.mk.injEq, ne_eq,
        not_true_eq_false, false_or, and_true]
      tauto
  | some text => simp [KeepsMemory, MemoryUpdate.onto]

/-- A decision that completes the process is projected on the completed status. -/
lemma nextStatus_of_completed [BEq V] {decision : AgentDecision}
    (hcompleted : decision.status = .completed) {openActions : OpenActions}
    {terminalStates : Option (List ProcessStatus)} {facts requirements : List (String × V)}
    {status : ProcessStatus}
    (h : nextStatus decision openActions terminalStates facts requirements = .ok status) :
    status = .completed := by
  by_cases hopen : openActions = []
  · rw [hopen, nextStatus, if_neg (fun h => h.2 rfl), List.any_nil, if_neg Bool.false_ne_true,
      if_neg (fun h => h rfl), if_pos hcompleted] at h
    dsimp only at h
    split_ifs at h
    exact (Except.ok.inj h).symm
  · rw [nextStatus, if_pos ⟨hcompleted, hopen⟩] at h
    cases h

/-- A transition depends on the facts only through whether a completion is accepted, and on the
open actions as a set. -/
lemma projectProcessTransition_congr [BEq V] {decision : AgentDecision}
    {openActions openActions' : OpenActions} (hopen : ∀ a, a ∈ openActions ↔ a ∈ openActions')
    {terminalStates : Option (List ProcessStatus)} {facts facts' requirements : List (String × V)}
    {tr tr' : ProjectedProcessTransition}
    (h : projectProcessTransition decision openActions terminalStates facts requirements = .ok tr)
    (h' : projectProcessTransition decision openActions' terminalStates facts' requirements
      = .ok tr') : tr = tr' := by
  obtain ⟨hstatus, hwakes⟩ := project_eq_ok h
  obtain ⟨hstatus', hwakes'⟩ := project_eq_ok h'
  have hany : ∀ p : UUID × ActionRequestStatus → Bool, openActions'.any p = openActions.any p := by
    intro p
    rw [Bool.eq_iff_iff, List.any_eq_true, List.any_eq_true]
    exact exists_congr fun a => and_congr_left' (hopen a).symm
  have hnil : (openActions' = []) = (openActions = []) := by
    rw [List.eq_nil_iff_forall_not_mem, List.eq_nil_iff_forall_not_mem]
    exact propext (forall_congr' fun a => not_congr (hopen a).symm)
  have hsame : tr.status = tr'.status := by
    by_cases hcompleted : decision.status = .completed
    · rw [nextStatus_of_completed hcompleted hstatus, nextStatus_of_completed hcompleted hstatus']
    · rw [nextStatus, if_neg (fun h => hcompleted h.1), if_neg hcompleted] at hstatus hstatus'
      simp only [hany, ne_eq, hnil] at hstatus'
      exact Except.ok.inj (hstatus.symm.trans hstatus')
  rw [ProjectedProcessTransition.mk.injEq]
  refine ⟨hsame, ?_⟩
  rw [hwakes, hwakes', hsame, effectiveWakeConditions, effectiveWakeConditions]
  simp only [hany, ne_eq, hnil]

/-! ### The folds -/

/-- The last observer as a source. -/
lemma lastObserver_eq_some {kind : FactKind} {key : String}
    {sources : List (FactSourceType × FactSource V)} {p : FactProvenance} :
    lastObserver kind key sources = some p ↔
      ∃ s, sources.reverse.find? (fun s => s.2.observes kind key) = some s ∧
        p = ⟨kind, s.1, s.2.id⟩ := by
  rw [lastObserver, Option.map_eq_some_iff]
  exact exists_congr fun s => and_congr_right' eq_comm

/-- The value of a fact after a fold: the one its last observer leaves, or what it was. -/
lemma lookup_ofKind_foldObserved (kind : FactKind) (key : String)
    (sources : List (FactSourceType × FactSource V)) (p : FactProjection V) :
    ((foldObserved p sources).ofKind kind).lookup key
      = ((sources.reverse.find? fun s => s.2.observes kind key).bind fun s =>
          (s.2.writes kind).reverse.lookup key).or ((p.ofKind kind).lookup key) := by
  rw [ofKind_foldObserved, lookup_update, lookup_reverse_flatMap]
  congr 1
  induction sources.reverse with
  | nil => rfl
  | cons s rest ih =>
      have hsome : ((s.2.writes kind).reverse.lookup key).isSome = s.2.observes kind key := by
        rw [Bool.eq_iff_iff, isSome_lookup_iff, List.map_reverse, List.mem_reverse]
        simp only [FactSource.writes, FactSource.observes, List.mem_map, List.mem_filter,
          List.any_eq_true, decide_eq_true_eq]
        constructor
        · rintro ⟨_, ⟨o, ⟨ho, hkind⟩, rfl⟩, hkey⟩
          exact ⟨o, ho, hkind, hkey⟩
        · rintro ⟨o, ho, hkind, hkey⟩
          exact ⟨_, ⟨o, ⟨ho, hkind⟩, rfl⟩, hkey⟩
      rw [List.findSome?_cons, List.find?_cons]
      cases hvalue : (s.2.writes kind).reverse.lookup key with
      | some v =>
          rw [hvalue] at hsome
          rw [← hsome]
          exact hvalue.symm
      | none =>
          rw [hvalue] at hsome
          rw [← hsome]
          exact ih

/-- The two folds of the same sources, in two orders, agree if and only if in both the same
source is the last to observe a fact. -/
lemma foldObserved_agree_iff {sources sources' : List (FactSourceType × FactSource V)}
    (hmem : ∀ s, s ∈ sources ↔ s ∈ sources')
    (hkey : ∀ s ∈ sources, ∀ s' ∈ sources', s.1 = s'.1 → s.2.id = s'.2.id → s = s')
    (p : FactProjection V) :
    ((∀ kind key, ((foldObserved p sources).ofKind kind).lookup key
        = ((foldObserved p sources').ofKind kind).lookup key) ∧
      ∀ key, (foldObserved p sources).provenance.lookup key
        = (foldObserved p sources').provenance.lookup key) ↔
      SameObservers sources sources' := by
  constructor
  · rintro ⟨-, hprovenance⟩ kind key
    have hone := hprovenance (provenanceKey kind key)
    rw [lookup_provenance_foldObserved, lookup_provenance_foldObserved] at hone
    -- a fact is observed in both orders or in none
    have hnone : lastObserver kind key sources = none ↔ lastObserver kind key sources' = none := by
      rw [lastObserver, lastObserver, Option.map_eq_none_iff, Option.map_eq_none_iff,
        List.find?_eq_none, List.find?_eq_none]
      refine forall_congr' fun s => ?_
      rw [List.mem_reverse, List.mem_reverse, hmem]
    cases hlast : lastObserver kind key sources with
    | none => rw [hnone.mp hlast]
    | some a =>
        cases hlast' : lastObserver kind key sources' with
        | none =>
            rw [hnone.mpr hlast'] at hlast
            cases hlast
        | some b => rwa [hlast, hlast', Option.some_or, Option.some_or] at hone
  · intro hsame
    refine ⟨fun kind key => ?_, fun key => ?_⟩
    · rw [lookup_ofKind_foldObserved, lookup_ofKind_foldObserved]
      have hlast := hsame kind key
      congr 2
      cases hfind : sources.reverse.find? fun s => s.2.observes kind key with
      | none =>
          rw [lastObserver, hfind, lastObserver, eq_comm, Option.map_none,
            Option.map_eq_none_iff] at hlast
          exact hlast.symm
      | some s =>
          obtain ⟨s', hfind', hp⟩ := lastObserver_eq_some.mp
            (hlast.symm.trans (lastObserver_eq_some.mpr ⟨s, hfind, rfl⟩))
          rw [hfind']
          rw [FactProvenance.mk.injEq] at hp
          have hs := List.mem_reverse.mp (List.mem_of_find?_eq_some hfind)
          have hs' := List.mem_reverse.mp (List.mem_of_find?_eq_some hfind')
          exact congrArg some (hkey s hs s' hs' hp.2.1 hp.2.2)
    · by_cases hkeys : ∃ kind k, key = provenanceKey kind k
      · obtain ⟨kind, k, rfl⟩ := hkeys
        rw [lookup_provenance_foldObserved, lookup_provenance_foldObserved, hsame]
      · -- no observation is recorded under another key
        have hother : ∀ l : List (FactSourceType × FactSource V),
            (foldObserved p l).provenance.lookup key = p.provenance.lookup key := by
          intro l
          have hnone : (l.flatMap provenanceWrites).reverse.lookup key = none := by
            rw [← Option.not_isSome_iff_eq_none, isSome_lookup_iff, List.map_reverse,
              List.mem_reverse, mem_keys_provenanceWrites]
            rintro ⟨kind, k, hk, -⟩
            exact hkeys ⟨kind, k, hk⟩
          rw [provenance_foldObserved, lookup_update, hnone, Option.none_or]
        rw [hother, hother]

/-! ### The two projections -/

/-- The turn of `apply_decision` that a step of the driver stands for. -/
def scenarioTurn (definition : ProcessDefinition V) (agentTurnId : UUID) (decision : AgentDecision)
    (eventRows attemptRows : List (FactSource V)) (openActions : OpenActions) : AppliedTurn V where
  command :=
    { agentTurnId := agentTurnId
      decision := decision
      terminalStates := some definition.terminalStates
      completionRequirements := definition.completionRequirements }
  eventRows := eventRows
  attemptRows := attemptRows
  openActions := openActions

/-- What a step of the driver computes. -/
lemma scenarioStep_eq_ok [BEq V] {identity : String → Parameters → String} {bytes : V → ℕ}
    {definition : ProcessDefinition V} {now : Time} {snapshot snapshot' : ProcessSnapshot V}
    {pending : PendingSources V} {decision : AgentDecision} {openActions : OpenActions}
    (h : scenarioStep identity bytes definition now snapshot pending decision openActions
      = .ok snapshot') :
    ∃ transition, projectProcessTransition decision openActions (some definition.terminalStates)
        (foldObserved snapshot.facts pending.sources).authoritative
        definition.completionRequirements = .ok transition ∧
      snapshot' = ⟨transition.status, foldObserved snapshot.facts pending.sources,
        decision.memoryUpdate, transition.wakeConditions, snapshot.stateVersion + 1⟩ := by
  have hfold : pending.results.foldl (fun p r => applyFactObservations r.facts .actionAttempt r.id p)
      (pending.events.foldl (fun p e => applyFactObservations e.facts .event e.id p)
        snapshot.facts) = foldObserved snapshot.facts pending.sources := by
    rw [foldObserved, PendingSources.sources, List.foldl_append, List.foldl_map, List.foldl_map]
  rw [scenarioStep] at h
  obtain ⟨decision', hdecision, hrest⟩ := ok_of_bind h
  rw [validateDecision_unchanged _ _ _ _ _ _ _ _ decision' hdecision] at hrest
  dsimp only at hrest
  rw [hfold] at hrest
  obtain ⟨_, -, hprojected⟩ := ok_of_bind hrest
  obtain ⟨transition, htransition, hsnapshot⟩ := ok_of_bind hprojected
  exact ⟨transition, htransition, (Except.ok.inj hsnapshot).symm⟩

/-- The sources of both are the same. -/
lemma mem_scenarioTurn_sources {pending : PendingSources V} {definition : ProcessDefinition V}
    {agentTurnId : UUID} {decision : AgentDecision} {eventRows attemptRows : List (FactSource V)}
    {openActions : OpenActions} (hevents : eventRows.Perm pending.events)
    (hattempts : attemptRows.Perm pending.results)
    (hload : (scenarioTurn definition agentTurnId decision eventRows attemptRows openActions).Loads)
    (s : FactSourceType × FactSource V) :
    s ∈ pending.sources ↔
      s ∈ (scenarioTurn definition agentTurnId decision eventRows attemptRows openActions).sources
    := by
  obtain ⟨⟨events, hload⟩, attempts, hload'⟩ := hload
  have hmemEvents := mem_loadSources
    ((hevents.map FactSource.id).nodup_iff.mpr pending.events_key) hload
  have hmemAttempts := mem_loadSources
    ((hattempts.map FactSource.id).nodup_iff.mpr pending.results_key) hload'
  rw [AppliedTurn.sources, PendingSources.sources, ← (loadSources_eq_ok.mp hload).2,
    ← (loadSources_eq_ok.mp hload').2]
  simp only [List.mem_append, List.mem_map, hmemEvents, hmemAttempts, hevents.mem_iff,
    hattempts.mem_iff]

/-- A source of a turn is known by its type and identity. -/
lemma PendingSources.key {pending : PendingSources V} {s s' : FactSourceType × FactSource V}
    (hs : s ∈ pending.sources) (hs' : s' ∈ pending.sources) (htype : s.1 = s'.1)
    (hid : s.2.id = s'.2.id) : s = s' := by
  rcases List.mem_append.mp hs with hs | hs <;> rcases List.mem_append.mp hs' with hs' | hs' <;>
    obtain ⟨x, hx, rfl⟩ := List.mem_map.mp hs <;> obtain ⟨x', hx', rfl⟩ := List.mem_map.mp hs'
  · exact congrArg _ (List.inj_on_of_nodup_map pending.events_key hx hx' hid)
  · cases htype
  · cases htype
  · exact congrArg _ (List.inj_on_of_nodup_map pending.results_key hx hx' hid)

/-- **The kernel simulation against the persisted state.**  For every prior process row, every
accepted decision on the sources of its turn and the same open actions, the snapshot of the
driver is that of the row `apply_decision` writes if and only if the decision gives a summary or
there was none, and each fact is observed last by the same source in the order of the turn and in
that of the decision. -/
theorem scenario_agrees_iff [BEq V] (identity : String → Parameters → String) (S : Services V)
    (definition : ProcessDefinition V) (now : Time) (row row' : ProcessRow V)
    (pending : PendingSources V) (agentTurnId : UUID) (decision : AgentDecision)
    (eventRows attemptRows : List (FactSource V)) (openActions openActions' : OpenActions)
    (snapshot : ProcessSnapshot V) (hevents : eventRows.Perm pending.events)
    (hattempts : attemptRows.Perm pending.results)
    (hopen : ∀ a, a ∈ openActions ↔ a ∈ openActions')
    (hstep : scenarioStep identity S.bytes definition now row.snapshot pending decision openActions
      = .ok snapshot)
    (happlied : (scenarioTurn definition agentTurnId decision eventRows attemptRows
      openActions').Applied S row row') :
    snapshot.Agrees row'.snapshot ↔
      KeepsMemory row.memory decision.memoryUpdate ∧
      SameObservers pending.sources
        (scenarioTurn definition agentTurnId decision eventRows attemptRows
          openActions').sources := by
  obtain ⟨transition, htransition, rfl⟩ := scenarioStep_eq_ok hstep
  obtain ⟨facts, transition', hproject, htransition', rfl⟩ := happlied
  obtain ⟨hload, -, rfl⟩ := project_eq_ok_iff.mp hproject
  obtain ⟨transition'', hprojected, htransition'⟩ := ok_of_bind htransition'
  obtain ⟨_, -, hsame⟩ := ok_of_bind htransition'
  obtain rfl := Except.ok.inj hsame
  obtain rfl := projectProcessTransition_congr hopen htransition hprojected
  have hmem := mem_scenarioTurn_sources hevents hattempts hload
  rw [← onto_eq_iff, ← foldObserved_agree_iff hmem
    (fun s hs s' hs' => PendingSources.key hs ((hmem s').mpr hs')) row.facts]
  constructor
  · intro h
    refine ⟨h.memory, fun kind key => ?_, h.provenance⟩
    cases kind with
    | authoritative => exact h.authoritative key
    | customerClaim => exact h.claims key
  · rintro ⟨hmemory, hfacts, hprovenance⟩
    exact ⟨rfl, rfl, hfacts .authoritative, hfacts .customerClaim, hprovenance, hmemory, rfl⟩

end

/-! ### A summary that is dropped -/

/-- A decision on an event that waits for the customer. -/
def quietDecision (memory : MemoryUpdate) : AgentDecision where
  decisionId := "decision"
  basedOnEventIds := ["event"]
  status := .waiting
  wakeConditions := [.event "customer.replied"]
  memoryUpdate := memory

/-- The event. -/
def openedEvent : PendingSources ℕ where
  events := [⟨"event", [⟨"order.amount", .authoritative, 7⟩]⟩]

/-- A process with a summary. -/
def rememberedRow : ProcessRow ℕ where
  status := .active
  memory := { summary := some "the customer ordered", summarySourceEventIds := ["order"] }
  stateVersion := 1
  createdAt := 0

/-- The turn of the sample in which the decision is applied. -/
def waitingTurn (memory : MemoryUpdate) : AppliedTurn ℕ :=
  scenarioTurn sampleDefinition "turn" (quietDecision memory) openedEvent.events [] []

lemma exists_scenarioStep (memory : MemoryUpdate) (row : ProcessRow ℕ)
    (h : (scenarioStep (fun _ _ => "") (sampleServices false).bytes sampleDefinition 0
      row.snapshot openedEvent (quietDecision memory) []).toOption.isSome) :
    ∃ snapshot, scenarioStep (fun _ _ => "") (sampleServices false).bytes sampleDefinition 0
      row.snapshot openedEvent (quietDecision memory) [] = .ok snapshot := by
  cases hstep : scenarioStep (fun _ _ => "") (sampleServices false).bytes sampleDefinition 0
    row.snapshot openedEvent (quietDecision memory) [] with
  | error message =>
      rw [hstep] at h
      cases h
  | ok snapshot => exact ⟨snapshot, rfl⟩

/-- A summary that is replaced is the same in both. -/
theorem scenario_agrees_replaced :
    ∃ (memory : MemoryUpdate) (row' : ProcessRow ℕ) (snapshot : ProcessSnapshot ℕ),
      scenarioStep (fun _ _ => "") (sampleServices false).bytes sampleDefinition 0
        rememberedRow.snapshot openedEvent (quietDecision memory) [] = .ok snapshot ∧
      (waitingTurn memory).Applied (sampleServices false) rememberedRow row' ∧
      snapshot.Agrees row'.snapshot := by
  let memory : MemoryUpdate :=
    { summary := some "the customer opened the order", summarySourceEventIds := ["event"] }
  obtain ⟨snapshot, hstep⟩ := exists_scenarioStep memory rememberedRow (by decide +kernel)
  have happlied : ∃ row', (waitingTurn memory).Applied (sampleServices false) rememberedRow row' :=
    exists_applied (by decide +kernel)
  obtain ⟨row', happlied⟩ := happlied
  refine ⟨memory, row', snapshot, hstep, happlied, ?_⟩
  refine (scenario_agrees_iff (fun _ _ => "") (sampleServices false) sampleDefinition 0
    rememberedRow row' openedEvent "turn" (quietDecision memory) openedEvent.events [] [] []
    snapshot (.refl _) (.refl _) (fun _ => Iff.rfl) hstep happlied).mpr
    ⟨.inl (Option.some_ne_none _), fun _ _ => rfl⟩

/-- **A summary that is dropped**: a decision gives no summary, so the process keeps the one it
has and the driver forgets it. -/
theorem summary_dropped :
    ∃ (row' : ProcessRow ℕ) (snapshot : ProcessSnapshot ℕ),
      scenarioStep (fun _ _ => "") (sampleServices false).bytes sampleDefinition 0
        rememberedRow.snapshot openedEvent (quietDecision {}) [] = .ok snapshot ∧
      (waitingTurn {}).Applied (sampleServices false) rememberedRow row' ∧
      ¬ snapshot.Agrees row'.snapshot := by
  obtain ⟨snapshot, hstep⟩ := exists_scenarioStep {} rememberedRow (by decide +kernel)
  have happlied : ∃ row', (waitingTurn {}).Applied (sampleServices false) rememberedRow row' :=
    exists_applied (by decide +kernel)
  obtain ⟨row', happlied⟩ := happlied
  refine ⟨row', snapshot, hstep, happlied, fun hagrees => ?_⟩
  obtain ⟨transition, -, rfl⟩ := scenarioStep_eq_ok hstep
  obtain ⟨facts, transition', -, -, rfl⟩ := happlied
  cases hagrees.memory

end TiramisuAgents
