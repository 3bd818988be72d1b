import TiramisuAgents.Testkit.ScenarioScript

/-!
`testkit/scenarios.py`: `KernelScenarioDriver.run`, the loop over the steps of a compiled
scenario.

A round of the loop takes the event it wakes by, if nothing is pending, then the fact assertions,
and then a decision, whose effects leave what the next round wakes by.  The trace of a run is
left out.

* `ScenarioRun`: the locals of `run`.
* `receiveWake`, `takeDecision`, `projectDecision`, `takeEffect`: the parts of a round.
* `runRounds`, `KernelScenarioDriver.run`: the loop and the run.
* `takeTurn_step`: a turn is a step on the snapshot.
-/

namespace TiramisuAgents

open Json

section

variable {F : Type}

/-- The locals of `KernelScenarioDriver.run`. -/
structure ScenarioRun (F : Type) where
  now : Time
  snapshot : ProcessSnapshot (JsonValue F)
  actionTypes : List String := []
  approvalCount : ℕ := 0
  pendingEvents : List (ScriptedEvent F) := []
  pendingResults : List (Budgets.ActionResultContext (JsonValue F)) := []
  pendingTimers : List String := []
  turnNumber : ℕ := 0
  outboundMessageTimes : List Time := []
  lastHumanReplyAt : Option Time := none
  latestAutomatedResponseAt : Option Time := none
  optedOutAt : Option Time := none

/-- `pending_events or pending_results or pending_timers`. -/
def ScenarioRun.pending (s : ScenarioRun F) : Bool :=
  !s.pendingEvents.isEmpty || !s.pendingResults.isEmpty || !s.pendingTimers.isEmpty

/-- `AgentTurnInput`. -/
def ScenarioRun.turnInput (s : ScenarioRun F) : ScenarioTurnInput F where
  events := s.pendingEvents.map ScriptedEvent.factSource
  actionResults := s.pendingResults
  timerIds := s.pendingTimers
  authoritativeFacts := s.snapshot.facts.authoritative

/-- What the type of a received event says about the communication with the customer. -/
def ScenarioRun.noteContact (policy : CommunicationPolicy) (event : ScriptedEvent F)
    (s : ScenarioRun F) : ScenarioRun F :=
  if policy.replyEventTypes.contains event.eventType then
    { s with lastHumanReplyAt := some event.receivedAt, latestAutomatedResponseAt := none }
  else if policy.automatedResponseEventTypes.contains event.eventType then
    { s with latestAutomatedResponseAt := some event.receivedAt }
  else if policy.optOutEventTypes.contains event.eventType then
    { s with optedOutAt := some event.receivedAt }
  else s

/-- Whether a wake condition is the wait for an event type. -/
def WakeCondition.isEvent (eventType : String) : WakeCondition → Bool
  | .event t => t = eventType
  | _ => false

/-- An action with what the policy makes of it. -/
structure ClassifiedAction where
  action : ActionProposal
  permission : PermissionOutcome
  deriving DecidableEq, Repr

variable [DecidableEq F] [FloatValues F] (script : CompiledScenarioScript F)

/-! ### The parts of a round -/

/-- The event a round wakes by. -/
def receiveWake (index : ℕ) (s : ScenarioRun F) (step : ScenarioStep F) :
    Except ScenarioRunError (ScenarioRun F) :=
  match step.body with
  | .event reference data => do
      let event ← script.buildEvent step reference data index s.now s.snapshot.facts
      if 0 < index ∧ !s.snapshot.currentWakeConditions.any (WakeCondition.isEvent event.eventType)
      then .error (.notWaiting step.description event.eventType)
      else
        return ScenarioRun.noteContact script.communicationPolicy event
          { s with pendingEvents := [event] }
  | _ => .error (.expectedEvent step.description)

/-- The check of a decision against its step. -/
def requireExpected (s : ScenarioRun F) (step : ScenarioStep F) (decision : AgentDecision) :
    Except ScenarioRunError Unit :=
  match step.body with
  | .action reference action => do
      let parameters ← resolve script.kernel.repr
        (prospectiveProjection s.snapshot.facts s.turnInput) step action.parameters.value
      script.requireExpectedAction step reference decision action parameters
  | .wait wait => requireExpectedWait step decision wait s.now
  | _ => .ok ()

/-- The decision of a turn, accepted by the policy and as the step expects it. -/
def takeDecision (index : ℕ) (s : ScenarioRun F) (step : ScenarioStep F) :
    Except ScenarioRunError AgentDecision := do
  match evaluateProcessLifetime script.kernel.isoformat script.scenario.startedAt
      script.communicationPolicy s.now with
  | some block => .error (.rejected step.description block.message)
  | none => pure ()
  uncaught (script.kernel.acceptsInput s.turnInput)
  let decision ← script.buildDecision step index s.snapshot.facts s.turnInput s.now
  let _ ← step.raising (validateDecision script.kernel.payloadIdentity decision
    script.definition.decisionPolicy s.now
    { eventIds := some (s.pendingEvents.map ScriptedEvent.eventId)
      actionAttemptIds := some (s.pendingResults.map fun r => r.source.id)
      timerIds := some s.pendingTimers } []
    (some (prospectiveFacts s.snapshot.facts.authoritative
      (s.pendingEvents.map ScriptedEvent.factSource)
      (s.pendingResults.map Budgets.ActionResultContext.source))) true)
  requireExpected script s step decision
  return decision

/-- The facts of a turn, folded into those of the process. -/
def ScenarioRun.observed (s : ScenarioRun F) : FactProjection (JsonValue F) :=
  (s.pendingResults.map Budgets.ActionResultContext.source).foldl
    (fun p r => applyFactObservations r.facts .actionAttempt r.id p)
    ((s.pendingEvents.map ScriptedEvent.factSource).foldl
      (fun p e => applyFactObservations e.facts .event e.id p) s.snapshot.facts)

/-- The communication check of an action, where it is outbound. -/
def requireContactAllowed (s : ScenarioRun F) (step : ScenarioStep F) (action : ActionProposal)
    (outboundMessageTimes : List Time) : Except ScenarioRunError Unit :=
  if script.communicationPolicy.outboundActionTypes.contains action.actionType then
    match (evaluateCommunicationSafety script.kernel.isoformat script.communicationPolicy
      { processCreatedAt := script.scenario.startedAt
        outboundMessageTimes := outboundMessageTimes
        lastHumanReplyAt := s.lastHumanReplyAt
        latestAutomatedResponseAt := s.latestAutomatedResponseAt
        optedOutAt := s.optedOutAt } s.now).requireAllowed with
    | some block => .error (.rejected step.description
        s!"communication safety blocked {action.actionType}: {block.message}")
    | none => .ok ()
  else .ok ()

/-- The classification of the actions of a decision, with the times of the messages they
reserve. -/
def classifyActions (s : ScenarioRun F) (step : ScenarioStep F) :
    List ActionProposal → List Time →
      Except ScenarioRunError (List ClassifiedAction × List Time)
  | [], times => .ok ([], times)
  | action :: rest, times => do
      let permission :=
        ((script.definition.actionPolicy script.kernel.fingerprint).evaluate action).outcome
      requireContactAllowed script s step action times
      let reserved :=
        initialActionRequestStatus permission ≠ .denied ∧
          script.communicationPolicy.outboundActionTypes.contains action.actionType
      let (classified, times) ←
        classifyActions s step rest (if reserved then times ++ [s.now] else times)
      return (⟨action, permission⟩ :: classified, times)

/-- `open_actions`. -/
def openOf (classified : List ClassifiedAction) : OpenActions :=
  (classified.map fun c => (c.action.actionRequestId, initialActionRequestStatus c.permission)).filter
    fun a => a.2 ≠ .denied

/-- The projection of an accepted decision onto the snapshot, with the fact assertions on it. -/
def projectDecision (s : ScenarioRun F) (assertions : List (ScenarioStep F))
    (step : ScenarioStep F) (decision : AgentDecision) :
    Except ScenarioRunError (ScenarioRun F × List ClassifiedAction) := do
  let facts := s.observed
  step.raising (requireProcessFactProjection script.kernel.bytes facts)
  let (classified, times) ←
    classifyActions script s step decision.actions s.outboundMessageTimes
  let transition ← step.raising (projectProcessTransition decision (openOf classified)
    (some script.definition.terminalStates) facts.authoritative
    script.definition.completionRequirements)
  let snapshot : ProcessSnapshot (JsonValue F) :=
    { status := transition.status
      facts := facts
      memory := decision.memoryUpdate
      currentWakeConditions := transition.wakeConditions
      stateVersion := s.snapshot.stateVersion + 1 }
  assertions.forM fun assertion =>
    match assertion.body with
    | .fact key expected => do
        let _ ← script.assertFactValue assertion key expected snapshot.facts
        return ()
    | _ => .ok ()
  return ({ s with
    snapshot := snapshot
    outboundMessageTimes := times
    pendingEvents := []
    pendingResults := []
    pendingTimers := [] }, classified)

/-- `_execute_action`. -/
def executeSimulated (s : ScenarioRun F) (action : ActionProposal) :
    Except ScenarioRunError (Budgets.ActionResultContext (JsonValue F)) :=
  if !script.kernel.simulates action.actionType then
    .error (.other
      s!"scenario action has no explicitly safe simulation adapter: {action.actionType}")
  else
    let payloadHash := script.kernel.payloadIdentity action.actionType action.parameters
    match script.kernel.execute s.actionTypes.length
      { actionType := action.actionType
        parameters := action.parameters
        idempotencyKey := script.kernel.idempotencyKey action.actionRequestId 1 payloadHash
        authoritativeFacts := s.snapshot.facts.authoritative } with
    | .error error => .error (.other s!"scenario provider rejected {action.actionType}: {error}")
    | .ok facts => .ok
        { source := ⟨script.deterministicUuid
            s!"attempt:{s.turnNumber}:{action.logicalActionKey}", facts⟩
          actionType := action.actionType
          parameters := action.parameters
          status := .succeeded }

/-- The checks of an action step on an action that was classified. -/
def requireApproved (step : ScenarioStep F) (approve : Bool) (c : ClassifiedAction) :
    Except ScenarioRunError Unit :=
  if c.permission = .requireApproval then
    if approve then .ok ()
    else .error (.rejected step.description
      s!"{c.action.actionType} requires an explicit scenario approval")
  else if approve then
    .error (.rejected step.description s!"{c.action.actionType} does not require approval")
  else if c.permission = .deny then
    .error (.rejected step.description s!"policy denied {c.action.actionType}")
  else .ok ()

/-- The loop over the actions of an action step. -/
def executeClassified (step : ScenarioStep F) (approve : Bool) :
    List ClassifiedAction → ScenarioRun F → Except ScenarioRunError (ScenarioRun F)
  | [], s => .ok s
  | c :: rest, s => do
      requireApproved step approve c
      let result ← executeSimulated script s c.action
      executeClassified step approve rest { s with
        approvalCount := s.approvalCount + (if c.permission = .requireApproval then 1 else 0)
        pendingResults := s.pendingResults ++ [result]
        actionTypes := s.actionTypes ++ [c.action.actionType] }

/-- What a step does once its decision is projected. -/
def takeEffect (step : ScenarioStep F) (classified : List ClassifiedAction) (s : ScenarioRun F) :
    Except ScenarioRunError (ScenarioRun F) :=
  match step.body with
  | .action _ action => executeClassified script step action.approve classified s
  | .wait (.timer timerId delaySeconds) =>
      .ok { s with now := secondsAfter s.now delaySeconds, pendingTimers := [timerId] }
  | _ => .ok s

/-- Whether a step is a decision: `{"action", "wait", "complete"}`. -/
def ScenarioStep.isDecision (step : ScenarioStep F) : Bool :=
  match step.body with
  | .event _ _ => false
  | .fact _ _ => false
  | _ => true

/-- The turn of a round. -/
def takeTurn (index : ℕ) (s : ScenarioRun F) (assertions : List (ScenarioStep F))
    (step : ScenarioStep F) : Except ScenarioRunError (ScenarioRun F) :=
  if !step.isDecision then .error (.expectedDecision step.description)
  else do
    let s := { s with turnNumber := s.turnNumber + 1 }
    let decision ← takeDecision script index s step
    let (s, classified) ← projectDecision script s assertions step decision
    takeEffect script step classified s

/-- The loop of `run` over the steps from an index on. -/
def runRounds (index : ℕ) (s : ScenarioRun F) (steps : List (ScenarioStep F)) :
    Except ScenarioRunError (ScenarioRun F) :=
  match steps with
  | [] => .ok s
  | first :: others => do
      let woken ← if s.pending then pure s else receiveWake script index s first
      let index := if s.pending then index else index + 1
      let left := if s.pending then first :: others else others
      match hleft : left.dropWhile ScenarioStep.isFact with
      | [] => .error .endsWithoutDecision
      | decision :: rest => do
          let assertions := left.takeWhile ScenarioStep.isFact
          let next ← takeTurn script (index + assertions.length) woken assertions decision
          runRounds (index + assertions.length + 1) next rest
termination_by steps.length
decreasing_by
  have hdrop := (List.dropWhile_suffix ScenarioStep.isFact (l := left)).length_le
  rw [hleft, List.length_cons] at hdrop
  have hlength : left.length ≤ others.length + 1 := by
    dsimp only [left]
    split
    · exact le_rfl
    · exact Nat.le_succ _
  exact Nat.lt_of_lt_of_le (Nat.lt_of_succ_le hdrop) hlength

/-! ### A run -/

/-- `ScenarioResult`, without the trace. -/
structure ScenarioResult (F : Type) where
  scenarioId : String
  title : String
  finalStatus : ProcessStatus
  authoritativeFacts : List (String × JsonValue F)
  customerClaims : List (String × JsonValue F)
  actionTypes : List String
  approvalCount : ℕ

/-- `KernelScenarioDriver.run`. -/
def KernelScenarioDriver.run : Except ScenarioRunError (ScenarioResult F) := do
  let s ← runRounds script 0 { now := script.scenario.startedAt, snapshot := { status := .active } }
    script.scenario.steps
  if s.snapshot.status ≠ .completed then
    throw (.other (s!"scenario {script.scenario.id} ended in {s.snapshot.status.value}, " ++
      "not completed"))
  return { scenarioId := script.scenario.id
           title := script.scenario.title
           finalStatus := s.snapshot.status
           authoritativeFacts := s.snapshot.facts.authoritative
           customerClaims := s.snapshot.facts.claims
           actionTypes := s.actionTypes
           approvalCount := s.approvalCount }

/-! ### A turn -/

variable {script} {index : ℕ} {s s' : ScenarioRun F} {assertions : List (ScenarioStep F)}
  {step : ScenarioStep F}

omit [DecidableEq F] [FloatValues F] in
lemma raising_eq_ok {α : Type} {x : Except String α} {a : α} (h : step.raising x = .ok a) :
    x = .ok a := by
  cases x with
  | error e => cases h
  | ok b => exact congrArg Except.ok (Except.ok.inj h)

/-- A decision that is taken is valid. -/
lemma takeDecision_valid {decision : AgentDecision}
    (h : takeDecision script index s step = .ok decision) :
    ∃ decision', validateDecision script.kernel.payloadIdentity decision
      script.definition.decisionPolicy s.now
      { eventIds := some (s.pendingEvents.map ScriptedEvent.eventId)
        actionAttemptIds := some (s.pendingResults.map fun r => r.source.id)
        timerIds := some s.pendingTimers } []
      (some (prospectiveFacts s.snapshot.facts.authoritative
        (s.pendingEvents.map ScriptedEvent.factSource)
        (s.pendingResults.map Budgets.ActionResultContext.source))) true = .ok decision' := by
  rw [takeDecision] at h
  split at h
  · cases h
  · obtain ⟨_, -, h⟩ := ok_of_bind h
    obtain ⟨decision', -, h⟩ := ok_of_bind h
    obtain ⟨validated, hvalid, h⟩ := ok_of_bind h
    obtain ⟨_, -, h⟩ := ok_of_bind h
    obtain rfl := Except.ok.inj h
    exact ⟨validated, raising_eq_ok hvalid⟩

omit [DecidableEq F] in
/-- The snapshot of a projected decision. -/
lemma projectDecision_snapshot {decision : AgentDecision}
    {projected : ScenarioRun F × List ClassifiedAction}
    (h : projectDecision script s assertions step decision = .ok projected) :
    requireProcessFactProjection script.kernel.bytes s.observed = .ok () ∧
      ∃ transition, projectProcessTransition decision (openOf projected.2)
          (some script.definition.terminalStates) s.observed.authoritative
          script.definition.completionRequirements = .ok transition ∧
        projected.1.snapshot = ⟨transition.status, s.observed, decision.memoryUpdate,
          transition.wakeConditions, s.snapshot.stateVersion + 1⟩ := by
  rw [projectDecision] at h
  obtain ⟨_, hfacts, h⟩ := ok_of_bind h
  obtain ⟨classified, -, h⟩ := ok_of_bind h
  obtain ⟨transition, htransition, h⟩ := ok_of_bind h
  obtain ⟨_, -, h⟩ := ok_of_bind h
  obtain rfl := Except.ok.inj h
  exact ⟨raising_eq_ok hfacts, transition, raising_eq_ok htransition, rfl⟩

omit [DecidableEq F] [FloatValues F] in
lemma executeClassified_snapshot {approve : Bool} (classified : List ClassifiedAction)
    (h : executeClassified script step approve classified s = .ok s') :
    s'.snapshot = s.snapshot := by
  induction classified generalizing s with
  | nil => rw [Except.ok.inj h]
  | cons c rest ih =>
      obtain ⟨_, -, h⟩ := ok_of_bind h
      obtain ⟨result, -, h⟩ := ok_of_bind h
      have hrest := ih h
      exact hrest

omit [DecidableEq F] [FloatValues F] in
/-- The effects of a step leave the snapshot as it is. -/
lemma takeEffect_snapshot {classified : List ClassifiedAction}
    (h : takeEffect script step classified s = .ok s') : s'.snapshot = s.snapshot := by
  rw [takeEffect] at h
  split at h
  · exact executeClassified_snapshot classified h
  · rw [← Except.ok.inj h]
  · rw [Except.ok.inj h]

/-- A turn of the driver is a step on its snapshot. -/
theorem takeTurn_step {pending : PendingSources (JsonValue F)}
    (hevents : pending.events = s.pendingEvents.map ScriptedEvent.factSource)
    (hresults : pending.results = s.pendingResults.map Budgets.ActionResultContext.source)
    (htimers : pending.timers = s.pendingTimers)
    (h : takeTurn script index s assertions step = .ok s') :
    ∃ decision openActions, scenarioStep script.kernel.payloadIdentity script.kernel.bytes
      script.definition s.now s.snapshot pending decision openActions = .ok s'.snapshot := by
  rw [takeTurn] at h
  split at h
  · cases h
  · obtain ⟨decision, hdecision, h⟩ := ok_of_bind h
    obtain ⟨projected, hprojected, heffect⟩ := ok_of_bind h
    obtain ⟨validated, hvalid⟩ := takeDecision_valid hdecision
    obtain ⟨hfacts, transition, htransition, hsnapshot⟩ := projectDecision_snapshot hprojected
    refine ⟨decision, openOf projected.2, ?_⟩
    rw [takeEffect_snapshot heffect, hsnapshot, scenarioStep, hevents, hresults, htimers,
      List.map_map, List.map_map]
    rw [validateDecision_unchanged _ _ _ _ _ _ _ _ validated hvalid] at hvalid
    refine (bind_of_ok hvalid).trans ?_
    refine (bind_of_ok hfacts).trans ?_
    exact (bind_of_ok htransition).trans rfl

end

end TiramisuAgents
