import TiramisuAgents.Testkit.KernelDriver

/-!
`testkit/temporal_scenarios.py`: the agent of the PostgreSQL and Temporal driver, which gives the
decisions of a compiled scenario turn by turn, and the part of the audit of a finished run that is
about fact steps.

The agent keeps a cursor into the steps and what its next turn has to wake by.  Its trace and the
decisions it repeats for a turn it has seen are left out.

* `TemporalTurn`: what a turn gives the agent.
* `consumeWake`, `assertFacts`, `scriptedDecision`: the three parts of `_next_decision`.
* `CompiledScenarioAgent.runTurns`: the turns of a run; `AgentFailure` names the part that fails.
* `auditFactSteps`: the fact steps in the final audit.
-/

namespace TiramisuAgents

open Json

section

variable {F : Type}

/-- `ActionResultContext`, with the request of its action. -/
structure TurnActionResult (F : Type) where
  result : Budgets.ActionResultContext (JsonValue F)
  actionRequestId : UUID

/-- `AgentTurnInput`, as the agent of the driver reads it. -/
structure TemporalTurn (F : Type) where
  workflowNow : Time
  process : FactProjection (JsonValue F)
  events : List (ScriptedEvent F) := []
  reviewCommandIds : List UUID := []
  actionResults : List (TurnActionResult F) := []
  timerIds : List String := []

/-- The input as the script reads it. -/
def TemporalTurn.input (turn : TemporalTurn F) : ScenarioTurnInput F where
  events := turn.events.map ScriptedEvent.factSource
  reviewCommandIds := turn.reviewCommandIds
  actionResults := turn.actionResults.map TurnActionResult.result
  timerIds := turn.timerIds
  authoritativeFacts := turn.process.authoritative

/-- `_ExpectedWake`: an event of a step, the result of the action of a step, or its timer. -/
inductive ExpectedWake (F : Type) where
  | event (step : ScenarioStep F) (reference : String)
  | actionResult (step : ScenarioStep F) (reference : String) (actionRequestId : UUID)
  | timer (step : ScenarioStep F)

/-- `_ScenarioCheckpoint`. -/
inductive ScenarioCheckpoint where
  | approval (stepIndex : ℕ) (actionRequestId : UUID)
  | event (stepIndex eventStepIndex : ℕ)
  | timer (stepIndex delaySeconds : ℕ)
  | complete (stepIndex : ℕ)
  deriving DecidableEq, Repr

/-- `_CompiledScenarioAgent`. -/
structure CompiledScenarioAgent (F : Type) where
  cursor : ℕ := 0
  expectedWake : Option (ExpectedWake F) := none
  checkpoint : Option ScenarioCheckpoint := none

/-- The part of a turn that fails. -/
inductive AgentFailure where
  | wake (error : ScenarioRunError)
  | fact (error : ScenarioRunError)
  | decision (error : ScenarioRunError)
  deriving DecidableEq, Repr

variable [DecidableEq F] [FloatValues F] (script : CompiledScenarioScript F)

omit [DecidableEq F] [FloatValues F] in
/-- `current_step`. -/
def CompiledScenarioAgent.currentStep (agent : CompiledScenarioAgent F) : ScenarioStep F :=
  script.scenario.steps.getD agent.cursor (script.scenario.steps.getLast script.scenario.steps_ne)

omit [DecidableEq F] [FloatValues F] in
/-- `complete`. -/
def CompiledScenarioAgent.complete (agent : CompiledScenarioAgent F) : Bool :=
  agent.cursor = script.scenario.steps.length

omit [DecidableEq F] [FloatValues F] in
/-- `_require_only`. -/
def TemporalTurn.requireOnly (turn : TemporalTurn F) (step : ScenarioStep F)
    (events actionResults timers : ℕ) : Except ScenarioRunError Unit :=
  step.raising (requireThat
    (turn.events.length = events ∧ turn.reviewCommandIds.length = 0 ∧
      turn.actionResults.length = actionResults ∧ turn.timerIds.length = timers)
    ("turn wake sources differ from the compiled script: " ++
      s!"received ({turn.events.length}, {turn.reviewCommandIds.length}, " ++
      s!"{turn.actionResults.length}, {turn.timerIds.length}), " ++
      s!"expected ({events}, 0, {actionResults}, {timers})"))

omit [DecidableEq F] [FloatValues F] in
/-- The event of a turn has the type of its step. -/
def TemporalTurn.requireEvent (turn : TemporalTurn F) (step : ScenarioStep F) (reference : String) :
    Except ScenarioRunError Unit :=
  match turn.events.head? with
  | none => .error (.other "IndexError: tuple index out of range")
  | some event => step.raising (requireThat (event.eventType = reference)
      s!"received event {event.eventType}; expected {reference}")

omit [DecidableEq F] [FloatValues F] in
/-- The result of a turn is that of the scripted action. -/
def TemporalTurn.requireResult (turn : TemporalTurn F) (step : ScenarioStep F) (reference : String)
    (actionRequestId : UUID) : Except ScenarioRunError Unit :=
  match turn.actionResults.head? with
  | none => .error (.other "IndexError: tuple index out of range")
  | some r => step.raising (requireThat
      (r.actionRequestId = actionRequestId ∧ r.result.actionType = reference ∧
        r.result.status = .succeeded)
      "durable action result does not match the scripted successful action")

omit [DecidableEq F] [FloatValues F] in
/-- `_consume_wake`. -/
def CompiledScenarioAgent.consumeWake (agent : CompiledScenarioAgent F) (turn : TemporalTurn F) :
    Except ScenarioRunError (CompiledScenarioAgent F) :=
  match agent.expectedWake with
  | none =>
      let step := agent.currentStep script
      match step.body with
      | .event reference _ => do
          turn.requireOnly step 1 0 0
          turn.requireEvent step reference
          return { agent with cursor := agent.cursor + 1 }
      | _ => .error (.rejected step.description "agent turn has no scripted wake source")
  | some (.event step reference) => do
      turn.requireOnly step 1 0 0
      turn.requireEvent step reference
      return { agent with cursor := agent.cursor + 1, expectedWake := none }
  | some (.actionResult step reference actionRequestId) => do
      turn.requireOnly step 0 1 0
      turn.requireResult step reference actionRequestId
      return { agent with expectedWake := none }
  | some (.timer step) => do
      turn.requireOnly step 0 0 1
      return { agent with expectedWake := none }

/-- The loop of `_next_decision` over the fact steps at the cursor, with the cursor behind them. -/
def assertFacts (snapshot : FactProjection (JsonValue F)) :
    List (ScenarioStep F) → ℕ → Except ScenarioRunError ℕ
  | [], cursor => .ok cursor
  | step :: rest, cursor =>
      match step.body with
      | .fact key expected => do
          let _ ← script.assertFactValue step key expected snapshot
          assertFacts snapshot rest (cursor + 1)
      | _ => .ok cursor

/-- What an agent expects after its decision, and the checkpoint it stops at. -/
def CompiledScenarioAgent.afterDecision (agent : CompiledScenarioAgent F) (turn : TemporalTurn F)
    (step : ScenarioStep F) (decision : AgentDecision) :
    Except ScenarioRunError (CompiledScenarioAgent F) :=
  let next := agent.cursor + 1
  match step.body with
  | .action reference action => do
      let parameters ← resolve script.kernel.repr
        (prospectiveProjection turn.process turn.input) step action.parameters.value
      script.requireExpectedAction step reference decision action parameters
      match decision.actions with
      | proposed :: _ => do
          let permission :=
            ((script.definition.actionPolicy script.kernel.fingerprint).evaluate proposed).outcome
          step.raising (requireThat (permission ≠ .deny) s!"policy denied {proposed.actionType}")
          return { cursor := next
                   expectedWake := some (.actionResult step reference proposed.actionRequestId)
                   checkpoint :=
                     if permission = .requireApproval then
                       some (.approval agent.cursor proposed.actionRequestId)
                     else agent.checkpoint }
      | [] => .error (.other "IndexError: tuple index out of range")
  | .wait wait => do
      requireExpectedWait step decision wait turn.workflowNow
      match wait with
      | .event eventType =>
          match script.scenario.steps[next]? with
          | none => .error (.rejected step.description "event wait has no following event")
          | some eventStep =>
              match eventStep.body with
              | .event reference _ => do
                  step.raising (requireThat (reference = eventType)
                    "event wait is not followed by its event")
                  return { cursor := next
                           expectedWake := some (.event eventStep reference)
                           checkpoint := some (.event agent.cursor next) }
              | _ => .error (.rejected step.description "event wait is not followed by its event")
      | .timer _ delaySeconds =>
          return { cursor := next
                   expectedWake := some (.timer step)
                   checkpoint := some (.timer agent.cursor delaySeconds) }
  | _ => .ok
      { cursor := next, expectedWake := none, checkpoint := some (.complete agent.cursor) }

/-- The decision of the step at the cursor. -/
def CompiledScenarioAgent.scriptedDecision (agent : CompiledScenarioAgent F)
    (turn : TemporalTurn F) :
    Except ScenarioRunError (AgentDecision × CompiledScenarioAgent F) := do
  let step := agent.currentStep script
  step.raising (requireThat step.isDecision "expected an action, wait, or completion decision")
  let decision ← script.buildDecision step agent.cursor turn.process turn.input turn.workflowNow
  return (decision, ← agent.afterDecision script turn step decision)

/-- `_next_decision`. -/
def CompiledScenarioAgent.nextDecision (agent : CompiledScenarioAgent F) (turn : TemporalTurn F) :
    Except AgentFailure (AgentDecision × CompiledScenarioAgent F) := do
  let woken ← (agent.consumeWake script turn).mapError .wake
  let cursor ← (assertFacts script (prospectiveProjection turn.process turn.input)
    (script.scenario.steps.drop woken.cursor) woken.cursor).mapError .fact
  (CompiledScenarioAgent.scriptedDecision script { woken with cursor := cursor } turn).mapError
    .decision

/-- The turns of a run, one after the other. -/
def CompiledScenarioAgent.runTurns (agent : CompiledScenarioAgent F) :
    List (TemporalTurn F) → Except AgentFailure (CompiledScenarioAgent F)
  | [] => .ok agent
  | turn :: turns => do
      let (_, next) ← agent.nextDecision script turn
      next.runTurns turns

/-- The fact steps in the audit of `_validate_result`, over the facts of the finished process. -/
def auditFactSteps (process : FactProjection (JsonValue F)) : Except ScenarioRunError Unit :=
  script.scenario.steps.forM fun step =>
    match step.body with
    | .fact key expected => do
        let _ ← script.assertFactValue step key expected process
        return ()
    | _ => .ok ()

end

end TiramisuAgents
