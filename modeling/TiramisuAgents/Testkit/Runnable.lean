import Mathlib.Data.List.TakeWhile
import TiramisuAgents.Testkit.KernelDriver

/-!
A scenario that the compiler has accepted fits the driver: a run on it may be refused by a policy,
a fact, an adapter or a communication check, but never for the structure of its script.

The compiler keeps two flags, the driver what is pending and what the process waits for.

* `Unstuck`: no error about the structure of the script, and a postcondition otherwise.
* `Leaves`: what the turn of a step leaves; `takeTurn_unstuck`.
* `Matches`: how the flags of the compiler and the state of the driver fit together.
* `runRounds_unstuck`: the simulation; `compiled_scenario_runnable`.
-/

namespace TiramisuAgents

open Json

/-! ### Outcomes -/

section

variable {α β : Type}

/-- The outcome satisfies a postcondition or is an error that is not about the structure of the
script. -/
def Unstuck (P : α → Prop) : Except ScenarioRunError α → Prop
  | .ok a => P a
  | .error e => ¬ e.Structural

lemma Unstuck.bind {P : α → Prop} {Q : β → Prop} {x : Except ScenarioRunError α}
    {f : α → Except ScenarioRunError β} (hx : Unstuck P x) (hf : ∀ a, P a → Unstuck Q (f a)) :
    Unstuck Q (x >>= f) := by
  cases x with
  | error e => exact hx
  | ok a => exact hf a hx

lemma Unstuck.mono {P Q : α → Prop} {x : Except ScenarioRunError α} (hx : Unstuck P x)
    (h : ∀ a, P a → Q a) : Unstuck Q x := by
  cases x with
  | error e => exact hx
  | ok a => exact h a hx

lemma unstuck_rejected {P : α → Prop} {step message : String} :
    Unstuck P (.error (.rejected step message) : Except ScenarioRunError α) := id

lemma unstuck_other {P : α → Prop} {message : String} :
    Unstuck P (.error (.other message) : Except ScenarioRunError α) := id

/-- An error of other code that is raised about a step. -/
lemma unstuck_raising {F : Type} {P : α → Prop} {step : ScenarioStep F} {x : Except String α}
    (h : ∀ a, x = .ok a → P a) : Unstuck P (step.raising x) := by
  cases x with
  | error e => exact id
  | ok a => exact h a rfl

lemma unstuck_uncaught {P : α → Prop} {x : Except String α} (h : ∀ a, x = .ok a → P a) :
    Unstuck P (uncaught x) := by
  cases x with
  | error e => exact id
  | ok a => exact h a rfl

lemma unstuck_mapM {f : α → Except ScenarioRunError β} {l : List α}
    (hf : ∀ a ∈ l, Unstuck (fun _ => True) (f a)) : Unstuck (fun _ => True) (l.mapM f) := by
  induction l with
  | nil => exact trivial
  | cons a rest ih =>
      obtain ⟨ha, hrest⟩ := List.forall_mem_cons.mp hf
      rw [List.mapM_cons]
      exact ha.bind fun _ _ => (ih hrest).bind fun _ _ => trivial

lemma unstuck_forM {f : α → Except ScenarioRunError PUnit} {l : List α}
    (hf : ∀ a ∈ l, Unstuck (fun _ => True) (f a)) : Unstuck (fun _ => True) (l.forM f) := by
  induction l with
  | nil => exact trivial
  | cons a rest ih =>
      obtain ⟨ha, hrest⟩ := List.forall_mem_cons.mp hf
      exact ha.bind fun _ _ => ih hrest

end

section

variable {F : Type} [DecidableEq F]

/-! ### The script -/

omit [DecidableEq F] in
lemma resolveReference_unstuck (repr : JsonValue F → String)
    (facts : FactProjection (JsonValue F)) (step : ScenarioStep F)
    (fields : List (PyString × JsonValue F)) :
    Unstuck (fun _ => True) (resolveReference repr facts step fields) := by
  rw [resolveReference]
  split
  · exact id
  · split
    · exact id
    · split
      · exact trivial
      · exact id

/-- Values are resolved or refused. -/
lemma resolve_unstuck (repr : JsonValue F → String) (facts : FactProjection (JsonValue F))
    (step : ScenarioStep F) (v : JsonValue F) :
    Unstuck (fun _ => True) (resolve repr facts step v) := by
  induction v using Json.Value.ind with
  | hatom a => exact trivial
  | harray items ih =>
      have hitems : Unstuck (fun _ => True) (resolveItems repr facts step items) := by
        induction items with
        | nil => exact trivial
        | cons item items ihitems =>
            obtain ⟨hitem, hrest⟩ := List.forall_mem_cons.mp ih
            exact hitem.bind fun _ _ => (ihitems hrest).bind fun _ _ => trivial
      exact hitems.bind fun _ _ => trivial
  | hobject fields ih =>
      have hfields : Unstuck (fun _ => True) (resolveFields repr facts step fields) := by
        induction fields with
        | nil => exact trivial
        | cons field fields ihfields =>
            obtain ⟨key, item⟩ := field
            obtain ⟨hitem, hrest⟩ := List.forall_mem_cons.mp ih
            exact hitem.bind fun _ _ => (ihfields hrest).bind fun _ _ => trivial
      rw [resolve]
      split
      · exact resolveReference_unstuck repr facts step fields
      · exact hfields.bind fun _ _ => trivial

variable {script : CompiledScenarioScript F} {step : ScenarioStep F}

/-- A built event has the type of its step. -/
lemma buildEvent_unstuck {reference : String} {data : ScenarioEvent F} {stepIndex : ℕ}
    {occurredAt : Time} {facts : FactProjection (JsonValue F)} :
    Unstuck (fun event => event.eventType = reference)
      (script.buildEvent step reference data stepIndex occurredAt facts) := by
  refine (unstuck_mapM fun fact _ => ?_).bind fun observations _ => ?_
  · exact (resolve_unstuck _ facts step fact.value).bind fun _ _ => trivial
  refine (resolve_unstuck _ facts step data.payload.value).bind fun payload _ => ?_
  refine (unstuck_uncaught (P := fun _ => True) fun _ _ => trivial).bind fun _ _ => ?_
  exact (rfl : reference = reference)

/-- The decision of a wait proposes nothing and waits for what the step waits for. -/
structure WaitsFor (wake : WakeCondition) (decision : AgentDecision) : Prop where
  status : decision.status = .waiting
  actions : decision.actions = []
  wakes : decision.wakeConditions = [wake]

/-- A payload is built or refused; that of a wait is the wait. -/
lemma payload_unstuck (resolution : FactProjection (JsonValue F)) (now : Time) :
    Unstuck (fun payload => ∀ wait, step.body = .wait wait →
      payload = { status := .waiting, wakeConditions := [wait.wake now] })
      (script.payload step resolution now) := by
  rw [CompiledScenarioScript.payload]
  split
  · rename_i reference action hbody
    refine (resolve_unstuck _ resolution step _).bind fun parameters _ => ?_
    intro wait hwait
    rw [hbody] at hwait
    cases hwait
  · rename_i wait hbody
    intro wait' hwait
    rw [hbody] at hwait
    obtain rfl := ScenarioStepBody.wait.inj hwait
    rfl
  · rename_i hwait
    exact fun wait hbody => absurd hbody (hwait wait)

omit [DecidableEq F] in
/-- What the output type makes of a payload keeps its status and its wake conditions, and has as
many actions. -/
lemma modelValidate_ok {t : OutputType F} {payload : ScriptedPayload F} {output : GeneratedOutput F}
    (h : t.modelValidate payload = .ok output) :
    output.status = payload.status ∧ output.wakeConditions = payload.wakeConditions ∧
      (payload.actions = [] → output.actions = []) := by
  rw [OutputType.modelValidate] at h
  obtain ⟨actions, hactions, hrest⟩ := ok_of_bind h
  obtain ⟨_, -, houtput⟩ := ok_of_bind hrest
  split at houtput
  · obtain rfl := Except.ok.inj houtput
    refine ⟨rfl, rfl, fun hnone => ?_⟩
    rw [hnone] at hactions
    exact (Except.ok.inj hactions).symm
  · cases houtput

/-- Where no transformer rewrites it, the decision of a wait is the wait. -/
lemma buildDecision_unstuck (htransformer : script.outputType.decisionTransformer = none)
    {stepIndex : ℕ} {process : FactProjection (JsonValue F)} {input : ScenarioTurnInput F}
    {now : Time} :
    Unstuck (fun decision => ∀ wait, step.body = .wait wait → WaitsFor (wait.wake now) decision)
      (script.buildDecision step stepIndex process input now) := by
  refine (payload_unstuck (prospectiveProjection process input) now).bind fun payload hpayload => ?_
  refine (unstuck_raising (P := fun output => ∀ wait, step.body = .wait wait →
    output.status = .waiting ∧ output.wakeConditions = [wait.wake now] ∧ output.actions = [])
    fun output houtput wait hwait => ?_).bind fun output houtput => ?_
  · cases hvalid : script.outputType.modelValidate payload with
    | error error =>
        rw [hvalid] at houtput
        cases houtput
    | ok output' =>
        rw [hvalid] at houtput
        obtain rfl := Except.ok.inj houtput
        obtain ⟨hstatus, hwakes, hactions⟩ := modelValidate_ok hvalid
        rw [hpayload wait hwait] at hstatus hwakes hactions
        exact ⟨hstatus, hwakes, hactions rfl⟩
  · intro wait hwait
    obtain ⟨hstatus, hwakes, hactions⟩ := houtput wait hwait
    refine ⟨?_, ?_, ?_⟩
    all_goals
      dsimp only
      rw [GeneratedOutput.toAgentDecision, htransformer]
    · exact hstatus
    · simp [hactions]
    · exact hwakes

/-! ### A turn -/

variable [FloatValues F] {s : ScenarioRun F}

/-- A decision is the one its step stands for, as far as the driver goes on by it. -/
structure Scripted (now : Time) (step : ScenarioStep F) (decision : AgentDecision) : Prop where
  wait : ∀ wait, step.body = .wait wait → WaitsFor (wait.wake now) decision
  action : ∀ reference action, step.body = .action reference action → decision.actions.length = 1

/-- An action step asks for exactly one action. -/
lemma requireExpected_unstuck {decision : AgentDecision} :
    Unstuck (fun _ => ∀ reference action, step.body = .action reference action →
      decision.actions.length = 1) (requireExpected script s step decision) := by
  rw [requireExpected]
  split
  · refine (resolve_unstuck _ _ step _).bind fun parameters _ => ?_
    rw [CompiledScenarioScript.requireExpectedAction]
    split
    · rename_i hactions
      refine unstuck_raising fun _ _ reference action _ => ?_
      rw [hactions]
      rfl
    · exact unstuck_rejected
  · rename_i wait hbody
    refine unstuck_raising fun _ _ reference action haction => ?_
    rw [hbody] at haction
    cases haction
  · rename_i hbody _
    exact fun reference action haction => absurd haction (hbody reference action)

lemma takeDecision_unstuck (htransformer : script.outputType.decisionTransformer = none)
    {index : ℕ} : Unstuck (Scripted s.now step) (takeDecision script index s step) := by
  rw [takeDecision]
  split
  · exact unstuck_rejected
  · refine (unstuck_uncaught (P := fun _ => True) fun _ _ => trivial).bind fun _ _ => ?_
    refine (buildDecision_unstuck htransformer).bind fun decision hwait => ?_
    refine (unstuck_raising (P := fun _ => True) fun _ _ => trivial).bind fun _ _ => ?_
    exact requireExpected_unstuck.bind fun _ haction => ⟨hwait, haction⟩

omit [DecidableEq F] [FloatValues F] in
/-- Every action is classified. -/
lemma classifyActions_unstuck (actions : List ActionProposal) (times : List Time) :
    Unstuck (fun classified => classified.1.length = actions.length)
      (classifyActions script s step actions times) := by
  induction actions generalizing times with
  | nil => rfl
  | cons action rest ih =>
      rw [classifyActions]
      refine Unstuck.bind (P := fun _ => True) ?_ fun _ _ => ?_
      · rw [requireContactAllowed]
        split
        · split
          · exact unstuck_rejected
          · exact trivial
        · exact trivial
      · refine (ih _).bind fun classified hlength => ?_
        exact congrArg (· + 1) hlength

/-- Where nothing is open, the process waits for what a waiting decision waits for. -/
lemma projectProcessTransition_waiting {V : Type} [BEq V] {decision : AgentDecision}
    {wake : WakeCondition} {terminalStates : Option (List ProcessStatus)}
    {authoritative requirements : List (String × V)} {transition : ProjectedProcessTransition}
    (hdecision : WaitsFor wake decision)
    (h : projectProcessTransition decision [] terminalStates authoritative requirements =
      .ok transition) : transition.wakeConditions = [wake] := by
  obtain ⟨hstatus, hwakes⟩ := project_eq_ok h
  have hopen : transition.status.terminal = false := by
    obtain ⟨habsurd, -⟩ | ⟨-, hcompleted, -⟩ | ⟨-, -, hreview⟩ | ⟨-, -, hcase⟩ :=
      nextStatus_cases hstatus
    · exact absurd rfl habsurd
    · rw [hdecision.status] at hcompleted
      cases hcompleted
    · rw [hreview]
      rfl
    · obtain ⟨-, hcase⟩ | ⟨-, hcase⟩ := hcase <;> rw [hcase] <;> rfl
  rw [hwakes, effectiveWakeConditions_nil, hopen]
  simp [hdecision.wakes]

/-- What the projection of a decision leaves. -/
structure DecisionProjected (now : Time) (decision : AgentDecision)
    (projected : ScenarioRun F × List ClassifiedAction) : Prop where
  idle : projected.1.pending = false
  now : projected.1.now = now
  length : projected.2.length = decision.actions.length
  wakes : ∀ wake, WaitsFor wake decision →
    projected.1.snapshot.currentWakeConditions = [wake]

omit [DecidableEq F] in
lemma projectDecision_unstuck {assertions : List (ScenarioStep F)} {decision : AgentDecision} :
    Unstuck (DecisionProjected s.now decision)
      (projectDecision script s assertions step decision) := by
  rw [projectDecision]
  refine (unstuck_raising (P := fun _ => True) fun _ _ => trivial).bind fun _ _ => ?_
  refine (classifyActions_unstuck decision.actions s.outboundMessageTimes).bind
    fun outcome hlength => ?_
  obtain ⟨classified, times⟩ := outcome
  refine (unstuck_raising fun transition htransition => htransition).bind
    fun transition htransition => ?_
  refine (unstuck_forM fun assertion _ => ?_).bind fun _ _ => ?_
  · split
    · rename_i key expected _
      refine Unstuck.bind (P := fun _ => True) ?_ fun _ _ => trivial
      rw [CompiledScenarioScript.assertFactValue]
      split
      · exact unstuck_rejected
      · split
        · exact trivial
        · exact unstuck_rejected
    · exact trivial
  · refine ⟨rfl, rfl, hlength, fun wake hwake => ?_⟩
    have hnone : classified = [] := by
      rw [hwake.actions] at hlength
      exact List.length_eq_zero_iff.mp hlength
    rw [hnone] at htransition
    exact projectProcessTransition_waiting hwake htransition

omit [DecidableEq F] [FloatValues F] in
lemma requireApproved_unstuck {approve : Bool} {c : ClassifiedAction} :
    Unstuck (fun _ => True) (requireApproved step approve c) := by
  rw [requireApproved]
  split_ifs
  · exact trivial
  · exact unstuck_rejected
  · exact unstuck_rejected
  · exact unstuck_rejected
  · exact trivial

omit [DecidableEq F] [FloatValues F] in
lemma executeSimulated_unstuck {action : ActionProposal} :
    Unstuck (fun _ => True) (executeSimulated script s action) := by
  rw [executeSimulated]
  split
  · exact unstuck_other
  · dsimp only
    split
    · exact unstuck_other
    · exact trivial

omit [DecidableEq F] [FloatValues F] in
/-- Every executed action leaves a result. -/
lemma executeClassified_unstuck {approve : Bool} (classified : List ClassifiedAction) :
    Unstuck (fun s' : ScenarioRun F =>
      s'.pendingResults.length = s.pendingResults.length + classified.length)
      (executeClassified script step approve classified s) := by
  induction classified generalizing s with
  | nil => rfl
  | cons c rest ih =>
      rw [executeClassified]
      refine requireApproved_unstuck.bind fun _ _ => ?_
      refine executeSimulated_unstuck.bind fun result _ => ?_
      refine ih.mono fun s' hlength => ?_
      rw [hlength, List.length_append, List.length_singleton, List.length_cons]
      omega

/-- What the turn of a step leaves the process with. -/
def Leaves (step : ScenarioStep F) (s : ScenarioRun F) : Prop :=
  match step.body with
  | .action _ _ => s.pending = true
  | .wait (.timer _ _) => s.pending = true
  | .wait (.event eventType) =>
      s.pending = false ∧ s.snapshot.currentWakeConditions = [.event eventType]
  | _ => True

omit [DecidableEq F] [FloatValues F] in
lemma pending_of_pendingResults (h : s.pendingResults ≠ []) : s.pending = true := by
  simp [ScenarioRun.pending, h]

omit [DecidableEq F] [FloatValues F] in
/-- What a step does leaves what it should. -/
lemma takeEffect_unstuck {now : Time} {decision : AgentDecision}
    {projected : ScenarioRun F × List ClassifiedAction} (hscripted : Scripted now step decision)
    (hprojected : DecisionProjected now decision projected) :
    Unstuck (Leaves step) (takeEffect script step projected.2 projected.1) := by
  rw [takeEffect]
  cases hbody : step.body with
  | action reference action =>
      refine (executeClassified_unstuck projected.2).mono fun s' hlength => ?_
      have hone := hscripted.action reference action hbody
      rw [hprojected.length, hone] at hlength
      have hne : s'.pendingResults ≠ [] := by
        intro hnil
        rw [hnil, List.length_nil] at hlength
        omega
      rw [Leaves, hbody]
      exact pending_of_pendingResults hne
  | wait wait =>
      cases wait with
      | event eventType =>
          have hwakes := hprojected.wakes _ (hscripted.wait _ hbody)
          change Leaves step projected.1
          rw [Leaves, hbody]
          exact ⟨hprojected.idle, hwakes⟩
      | timer timerId delaySeconds =>
          change Leaves step _
          rw [Leaves, hbody]
          simp [ScenarioRun.pending]
  | event reference event =>
      change Leaves step projected.1
      rw [Leaves, hbody]
      trivial
  | fact reference value =>
      change Leaves step projected.1
      rw [Leaves, hbody]
      trivial
  | complete =>
      change Leaves step projected.1
      rw [Leaves, hbody]
      trivial

/-- The turn of a decision. -/
lemma takeTurn_unstuck (htransformer : script.outputType.decisionTransformer = none)
    {index : ℕ} {assertions : List (ScenarioStep F)} (hdecision : step.isDecision = true) :
    Unstuck (Leaves step) (takeTurn script index s assertions step) := by
  rw [takeTurn, hdecision]
  refine (takeDecision_unstuck htransformer).bind fun decision hscripted => ?_
  exact projectDecision_unstuck.bind fun projected hprojected =>
    takeEffect_unstuck hscripted hprojected

omit [DecidableEq F] [FloatValues F] in
lemma noteContact_pending {policy : CommunicationPolicy} {event : ScriptedEvent F} :
    (s.noteContact policy event).pending = s.pending := by
  rw [ScenarioRun.noteContact]
  split_ifs <;> rfl

omit [FloatValues F] in
/-- A round that finds nothing pending takes an event the process waits for. -/
lemma receiveWake_unstuck {index : ℕ} {reference : String} {data : ScenarioEvent F}
    (hbody : step.body = .event reference data)
    (hwaits : index = 0 ∨ s.snapshot.currentWakeConditions = [.event reference]) :
    Unstuck (fun woken => woken.pending = true) (receiveWake script index s step) := by
  rw [receiveWake, hbody]
  refine buildEvent_unstuck.bind fun event htype => ?_
  have hawaited : ¬ (0 < index ∧
      (!s.snapshot.currentWakeConditions.any (WakeCondition.isEvent event.eventType)) = true) := by
    rintro ⟨hpos, hnone⟩
    obtain hzero | hwakes := hwaits
    · omega
    · rw [hwakes, htype] at hnone
      simp [WakeCondition.isEvent] at hnone
  rw [if_neg hawaited]
  change (ScenarioRun.noteContact _ event _).pending = true
  rw [noteContact_pending]
  rfl

/-! ### The compiler -/

/-- The flags of the compiler where a turn is ready. -/
def ScenarioScan.ready : ScenarioScan := { turnReady := true }

variable {scenarioId : String} {c : ScenarioContext F} {count index : ℕ}
  {scan scan' : ScenarioScan}

omit [FloatValues F] in
/-- Where no turn is ready, the compiler accepts an event only, and the one it expects. -/
lemma scanStep_idle (hidle : scan.turnReady = false)
    (h : scanStep scenarioId c count index scan step = .ok scan') :
    scan' = .ready ∧ ∃ reference data, step.body = .event reference data ∧
      (index = 0 ∨ scan.expectedEvent = some reference) := by
  rw [scanStep, hidle] at h
  cases hbody : step.body with
  | event reference data =>
      rw [hbody] at h
      dsimp only at h
      split at h
      · cases h
      · obtain ⟨_, hfollows, hrest⟩ := ok_of_bind h
        obtain ⟨_, -, hscan⟩ := ok_of_bind hrest
        refine ⟨(Except.ok.inj hscan).symm, reference, data, rfl, ?_⟩
        have hfollows := requireThat_eq_ok hfollows
        by_contra hnot
        obtain ⟨hindex, hother⟩ := not_or.mp hnot
        have hpos : 0 < index := by omega
        simp [hpos, hother] at hfollows
  | action reference action =>
      rw [hbody] at h
      cases h
  | wait wait =>
      rw [hbody] at h
      cases h
  | fact reference value =>
      rw [hbody] at h
      cases h
  | complete =>
      rw [hbody] at h
      cases h

omit [FloatValues F] in
/-- A fact assertion leaves the flags as they are. -/
lemma scanStep_fact (hfact : step.isFact = true)
    (h : scanStep scenarioId c count index scan step = .ok scan') : scan' = scan := by
  rw [ScenarioStep.isFact] at hfact
  split at hfact
  · rename_i reference value hbody
    rw [scanStep, hbody] at h
    obtain ⟨_, -, hrest⟩ := ok_of_bind h
    obtain ⟨_, -, hscan⟩ := ok_of_bind hrest
    exact (Except.ok.inj hscan).symm
  · cases hfact

omit [FloatValues F] in
/-- The fact assertions before a decision leave the flags as they are. -/
lemma scanSteps_facts {final : ScenarioScan} (steps : List (ScenarioStep F))
    (h : scanSteps scenarioId c count index scan steps = .ok final) :
    scanSteps scenarioId c count (index + (steps.takeWhile ScenarioStep.isFact).length) scan
      (steps.dropWhile ScenarioStep.isFact) = .ok final := by
  induction steps generalizing index with
  | nil => exact h
  | cons first others ih =>
      by_cases hfact : first.isFact = true
      · rw [scanSteps] at h
        obtain ⟨next, hnext, hrest⟩ := ok_of_bind h
        rw [scanStep_fact hfact hnext] at hrest
        rw [List.takeWhile_cons_of_pos hfact, List.dropWhile_cons_of_pos hfact, List.length_cons]
        have hdropped := ih hrest
        rwa [Nat.add_right_comm] at hdropped
      · rw [List.takeWhile_cons_of_neg hfact, List.dropWhile_cons_of_neg hfact]
        exact h

/-- How the flags of the compiler and the state of the driver fit together before the step of an
index: nothing is pending and the next event is awaited, if it is not the first; or something is
pending and a turn is ready; or no step is left. -/
inductive Matches (count index : ℕ) (scan : ScenarioScan) (s : ScenarioRun F) : Prop
  | idle (pending : s.pending = false) (turnReady : scan.turnReady = false)
      (waits : index = 0 ∨ ∃ eventType, scan.expectedEvent = some eventType ∧
        s.snapshot.currentWakeConditions = [.event eventType])
  | ready (pending : s.pending = true) (started : 0 < index) (turnReady : scan = .ready)
  | done (ended : index = count)

omit [FloatValues F] in
/-- Where a turn is ready, the compiler accepts no event, and its flags follow what the turn of a
decision leaves. -/
lemma scanStep_ready (hstarted : 0 < index) (hfact : step.isFact = false)
    (h : scanStep scenarioId c count index .ready step = .ok scan') :
    step.isDecision = true ∧
      ∀ s : ScenarioRun F, Leaves step s → Matches count (index + 1) scan' s := by
  rw [scanStep] at h
  rw [ScenarioStep.isFact] at hfact
  rw [ScenarioStep.isDecision]
  cases hbody : step.body with
  | event reference data =>
      rw [hbody] at h
      dsimp only at h
      split at h
      · cases h
      · obtain ⟨_, hfollows, hrest⟩ := ok_of_bind h
        have hfollows := requireThat_eq_ok hfollows
        simp [hstarted, ScenarioScan.ready] at hfollows
  | action reference action =>
      rw [hbody] at h
      obtain ⟨_, -, hrest⟩ := ok_of_bind h
      obtain ⟨_, -, hscan⟩ := ok_of_bind hrest
      refine ⟨rfl, fun s hleaves => ?_⟩
      rw [Leaves, hbody] at hleaves
      exact .ready hleaves (Nat.succ_pos _) (Except.ok.inj hscan).symm
  | wait wait =>
      rw [hbody] at h
      obtain ⟨_, -, hrest⟩ := ok_of_bind h
      refine ⟨rfl, fun s hleaves => ?_⟩
      rw [Leaves, hbody] at hleaves
      cases wait with
      | event eventType =>
          obtain ⟨_, -, hscan⟩ := ok_of_bind hrest
          obtain rfl := Except.ok.inj hscan
          exact .idle hleaves.1 rfl (.inr ⟨eventType, rfl, hleaves.2⟩)
      | timer timerId delaySeconds =>
          exact .ready hleaves (Nat.succ_pos _) (Except.ok.inj hrest).symm
  | fact reference value =>
      rw [hbody] at hfact
      cases hfact
  | complete =>
      rw [hbody] at h
      obtain ⟨_, -, hrest⟩ := ok_of_bind h
      obtain ⟨_, hlast, -⟩ := ok_of_bind hrest
      have hlast : index = count - 1 := of_decide_eq_true (requireThat_eq_ok hlast)
      refine ⟨rfl, fun s _ => .done ?_⟩
      omega

/-- The last step, if there is one, is a completion. -/
def EndsComplete (steps : List (ScenarioStep F)) : Prop :=
  ∀ step ∈ steps.getLast?, step.isComplete = true

omit [DecidableEq F] [FloatValues F] in
lemma EndsComplete.of_suffix {steps rest : List (ScenarioStep F)} (h : EndsComplete steps)
    (hsuffix : rest <:+ steps) : EndsComplete rest := by
  obtain ⟨before, rfl⟩ := hsuffix
  intro step hstep
  refine h step ?_
  rw [List.getLast?_append, hstep]
  rfl

omit [DecidableEq F] [FloatValues F] in
/-- A fact assertion is not the last step. -/
lemma EndsComplete.dropWhile_ne {steps : List (ScenarioStep F)} (h : EndsComplete steps)
    (hne : steps ≠ []) : steps.dropWhile ScenarioStep.isFact ≠ [] := by
  intro hnil
  have hfact := List.dropWhile_eq_nil_iff.mp hnil _ (List.getLast_mem hne)
  have hcomplete := h _ (List.getLast?_eq_some_getLast hne)
  rw [ScenarioStep.isFact] at hfact
  rw [ScenarioStep.isComplete] at hcomplete
  split at hfact
  · rename_i hbody
    rw [hbody] at hcomplete
    cases hcomplete
  · cases hfact

/-- The turn of a round, and what follows, where a turn is ready. -/
lemma turn_unstuck (htransformer : script.outputType.decisionTransformer = none)
    {final : ScenarioScan} {left rest : List (ScenarioStep F)} (hstarted : 0 < index)
    (hscan : scanSteps scenarioId c count index .ready left = .ok final)
    (hleft : left.dropWhile ScenarioStep.isFact = step :: rest)
    (hrest : ∀ (scan' : ScenarioScan) (next : ScenarioRun F),
      scanSteps scenarioId c count
        (index + (left.takeWhile ScenarioStep.isFact).length + 1) scan' rest = .ok final →
      Matches count (index + (left.takeWhile ScenarioStep.isFact).length + 1) scan' next →
      Unstuck (fun _ => True) (runRounds script
        (index + (left.takeWhile ScenarioStep.isFact).length + 1) next rest)) :
    Unstuck (fun _ => True) (do
      let next ← takeTurn script (index + (left.takeWhile ScenarioStep.isFact).length) s
        (left.takeWhile ScenarioStep.isFact) step
      runRounds script (index + (left.takeWhile ScenarioStep.isFact).length + 1) next rest) := by
  have hdropped := scanSteps_facts left hscan
  rw [hleft, scanSteps] at hdropped
  obtain ⟨scan', hstep, hscan'⟩ := ok_of_bind hdropped
  have hfact : step.isFact = false := by
    have hhead := List.head_dropWhile_not ScenarioStep.isFact (l := left) (by simp [hleft])
    simpa [hleft] using hhead
  obtain ⟨hdecision, hmatches⟩ := scanStep_ready (Nat.lt_add_right _ hstarted) hfact hstep
  exact (takeTurn_unstuck htransformer hdecision).bind fun next hleaves =>
    hrest scan' next hscan' (hmatches next hleaves)

/-- The rounds on accepted steps, from a state that fits the flags of the compiler, are not
stuck. -/
theorem runRounds_unstuck (htransformer : script.outputType.decisionTransformer = none)
    {final : ScenarioScan} (steps : List (ScenarioStep F))
    (hscan : scanSteps scenarioId c count index scan steps = .ok final)
    (hcount : index + steps.length = count) (hends : EndsComplete steps)
    (hmatches : Matches count index scan s) :
    Unstuck (fun _ => True) (runRounds script index s steps) := by
  induction hn : steps.length using Nat.strong_induction_on
    generalizing steps index scan s with
  | _ n ih =>
  cases steps with
  | nil =>
      rw [runRounds]
      exact trivial
  | cons first others =>
      -- the rest of a round whose wake source is there
      have hround : ∀ {index' : ℕ} {left rest : List (ScenarioStep F)} {step : ScenarioStep F},
          left.dropWhile ScenarioStep.isFact = step :: rest → left <:+ first :: others →
          index' + left.length = count → ∀ (scan' : ScenarioScan) (next : ScenarioRun F),
          scanSteps scenarioId c count
            (index' + (left.takeWhile ScenarioStep.isFact).length + 1) scan' rest = .ok final →
          Matches count (index' + (left.takeWhile ScenarioStep.isFact).length + 1) scan' next →
          Unstuck (fun _ => True) (runRounds script
            (index' + (left.takeWhile ScenarioStep.isFact).length + 1) next rest) := by
        intro index' left rest step hleft hsuffix hlength scan' next hscan' hmatches'
        have hparts : (left.takeWhile ScenarioStep.isFact).length + (rest.length + 1) =
            left.length := by
          have hsplit := congrArg List.length
            (List.takeWhile_append_dropWhile (p := ScenarioStep.isFact) (l := left))
          rwa [List.length_append, hleft, List.length_cons] at hsplit
        have hrest : rest <:+ first :: others :=
          ((List.suffix_cons step rest).trans (hleft ▸ List.dropWhile_suffix _)).trans hsuffix
        have hshorter := hsuffix.length_le
        exact ih rest.length (by omega) rest hscan' (by omega) (hends.of_suffix hrest) hmatches' rfl
      rw [runRounds]
      cases hmatches with
      | idle hpending hidle hwaits =>
          rw [scanSteps] at hscan
          obtain ⟨scan', hstep, hscan⟩ := ok_of_bind hscan
          obtain ⟨rfl, reference, data, hbody, hexpected⟩ := scanStep_idle hidle hstep
          have hawaited : index = 0 ∨
              s.snapshot.currentWakeConditions = [.event reference] := by
            obtain hzero | ⟨eventType, hevent, hwakes⟩ := hwaits
            · exact .inl hzero
            · refine hexpected.imp id fun hreference => ?_
              rw [hevent] at hreference
              rw [hwakes, Option.some.inj hreference]
          have hothers : others ≠ [] := by
            rintro rfl
            have hcomplete := hends first rfl
            rw [ScenarioStep.isComplete, hbody] at hcomplete
            cases hcomplete
          rw [if_neg (by simp [hpending])]
          refine (receiveWake_unstuck hbody hawaited).bind fun woken hwoken => ?_
          dsimp only
          split
          · rename_i hnil
            rw [hpending] at hnil
            exact absurd hnil
              ((hends.of_suffix (List.suffix_cons first others)).dropWhile_ne hothers)
          · rename_i decision rest hleft
            simp only [hpending, Bool.false_eq_true, if_false] at hleft ⊢
            refine turn_unstuck htransformer (Nat.succ_pos index) hscan hleft ?_
            exact hround hleft (List.suffix_cons first others) (by simp at hcount; omega)
      | ready hpending hstarted hready =>
          subst hready
          rw [if_pos hpending]
          refine Unstuck.bind (P := fun woken => woken = s) rfl fun woken _ => ?_
          dsimp only
          split
          · rename_i hnil
            rw [hpending] at hnil
            exact absurd hnil (hends.dropWhile_ne (List.cons_ne_nil first others))
          · rename_i decision rest hleft
            simp only [hpending, if_true] at hleft ⊢
            exact turn_unstuck htransformer hstarted hscan hleft
              (hround hleft List.suffix_rfl hcount)
      | done hended =>
          simp at hcount
          omega

omit [FloatValues F] in
/-- What the compiler accepts is scanned to its end, and ends with a completion. -/
lemma validateScenario_ok {scenario : Scenario F} (h : validateScenario c scenario = .ok ()) :
    EndsComplete scenario.steps ∧ ∃ final,
      scanSteps scenario.id c scenario.steps.length 0 {} scenario.steps = .ok final := by
  rw [validateScenario] at h
  obtain ⟨_, -, h⟩ := ok_of_bind h
  obtain ⟨_, hlast, h⟩ := ok_of_bind h
  obtain ⟨final, hfinal, -⟩ := ok_of_bind h
  refine ⟨fun step hstep => ?_, final, hfinal⟩
  rw [List.getLast?_eq_some_getLast scenario.steps_ne] at hstep
  rw [← Option.some.inj hstep]
  exact requireThat_eq_ok hlast

/-- **An accepted scenario is runnable**: no run of a scenario that the compiler accepts fails by
the structure of its script, unless a transformer rewrites its decisions. -/
theorem compiled_scenario_runnable (c : ScenarioContext F) (script : CompiledScenarioScript F)
    (haccepted : validateScenario c script.scenario = .ok ())
    (htransformer : script.outputType.decisionTransformer = none) :
    Unstuck (fun _ => True) (KernelScenarioDriver.run script) := by
  obtain ⟨hends, final, hscan⟩ := validateScenario_ok haccepted
  have hmatches : Matches script.scenario.steps.length 0 {}
      ({ now := script.scenario.startedAt, snapshot := { status := .active } } : ScenarioRun F) :=
    .idle rfl rfl (.inl rfl)
  have hrounds := runRounds_unstuck htransformer script.scenario.steps hscan (Nat.zero_add _)
    hends hmatches
  refine hrounds.bind fun s _ => ?_
  split
  · exact unstuck_other
  · exact trivial

end

/-! ### A scenario -/

/-- No fields. -/
def noFields : JsonObject Empty :=
  ⟨[], by simp [Json.Value.WellFormed, Json.Value.WellFormedFields]⟩

/-- A customer who orders, is written to, answers and is let be. -/
def orderScenario : Scenario Empty where
  id := "order"
  title := "An order"
  steps :=
    [⟨"the order", .event "order.placed" { payload := noFields }⟩,
      ⟨"a message", .action "send" ⟨"greeting", noFields, "say hello", false⟩⟩,
      ⟨"wait for the answer", .wait (.event "customer.replied")⟩,
      ⟨"the answer", .event "customer.replied" { payload := noFields }⟩,
      ⟨"a day of rest", .wait (.timer "rest" 86400)⟩,
      ⟨"done", .complete⟩]
  startedAt := 0
  steps_ne := List.cons_ne_nil _ _

/-- The project of the scenario. -/
def orderContext : ScenarioContext Empty where
  journey := ⟨"orders", "1", ["send"], []⟩
  routes := [⟨.start, "order.placed", []⟩, ⟨.wake, "customer.replied", []⟩]
  facts := []
  capabilities := [("send", ⟨"send", .allow, .ok⟩)]

/-- The script of the scenario, for an adapter that observes nothing. -/
def orderScript : CompiledScenarioScript Empty where
  kernel :=
    { uuid5 := id
      uuid4 := fun n => toString n
      isoformat := fun t => toString t
      repr := fun _ => "{}"
      bytes := fun _ => 2
      encode := fun _ => ⟨"{}", 0⟩
      content := fun _ => noFields
      payloadIdentity := fun t p => t ++ p.text
      idempotencyKey := fun id n h => s!"{id}:{n}:{h}"
      fingerprint := fun _ => "1"
      acceptsEvent := fun _ => .ok ()
      acceptsInput := fun _ => .ok ()
      simulates := fun t => t = "send"
      execute := fun _ _ => .ok [] }
  identity := "orders@1"
  scenario := orderScenario
  definition :=
    { terminalStates := sampleDefinition.terminalStates
      allowedActions := sampleDefinition.allowedActions
      actionPermissions := sampleDefinition.actionPermissions
      allowedWakeEvents := sampleDefinition.allowedWakeEvents
      limits := sampleDefinition.limits
      actionTypes := sampleDefinition.actionTypes
      eventTypes := sampleDefinition.eventTypes
      terminal := sampleDefinition.terminal
      permissions := sampleDefinition.permissions
      completionRequirements := []
      requirements := List.nodup_nil }
  communicationPolicy := ⟨[], [], 1, 0, [], [], fun _ => none, 50, 5, 0, 100000000000⟩
  outputType := ⟨[⟨"send", .allow, .ok⟩], ["customer.replied"], none⟩

theorem compiled_scenario_runnable_order :
    validateScenario orderContext orderScript.scenario = .ok () ∧
      Unstuck (fun _ => True) (KernelScenarioDriver.run orderScript) := by
  have haccepted : validateScenario orderContext orderScript.scenario = .ok () := by rfl
  exact ⟨haccepted, compiled_scenario_runnable orderContext orderScript haccepted rfl⟩

end TiramisuAgents
