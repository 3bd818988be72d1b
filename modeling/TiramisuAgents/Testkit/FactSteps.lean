import TiramisuAgents.Testkit.Runnable
import TiramisuAgents.Testkit.TemporalAgent

/-!
The fact steps of a scenario in its two drivers.

The kernel driver checks each fact step once, on the facts its turn leaves.  The agent of the other
driver checks it on the facts its turn is about to leave, which are the same; but the final audit
checks all fact steps again, on the facts the whole run has left.

* `KernelRounds`: the rounds of a run of the kernel driver; `kernelRounds_of_run`.
* `SameTurn`: a turn of the agent on the sources and the facts of a round.
* `Synced`: the cursor of the agent is the index of the kernel driver; `runTurns_no_fact`.
* `Stays`: what later rounds observe leaves a fact as it was asserted.
* `fact_steps_agree_iff`.
-/

namespace TiramisuAgents

open Dict

section

variable {F : Type}

/-! ### Facts -/

section

variable {V : Type}

/-- The value a fact is read as: authoritative facts hide claims. -/
def FactProjection.read (p : FactProjection V) (key : String) : Option V :=
  (p.authoritative.lookup key).or (p.claims.lookup key)

/-- The same facts, as dictionaries. -/
def SameFacts (p p' : FactProjection V) : Prop :=
  ∀ kind key, (p.ofKind kind).lookup key = (p'.ofKind kind).lookup key

lemma SameFacts.read {p p' : FactProjection V} (h : SameFacts p p') (key : String) :
    p.read key = p'.read key := by
  have hauthoritative := h .authoritative key
  have hclaims := h .customerClaim key
  rw [FactProjection.read, FactProjection.read]
  exact congrArg₂ Option.or hauthoritative hclaims

/-- What observations write of a kind, in their order. -/
def factWrites (kind : FactKind) (observations : List (FactObservation V)) : List (String × V) :=
  (observations.filter fun o => o.kind = kind).map fun o => (o.key, o.value)

/-- The last value observed of a fact. -/
def lastValue (kind : FactKind) (key : String) (observations : List (FactObservation V)) :
    Option V :=
  (factWrites kind observations).reverse.lookup key

lemma factWrites_append (kind : FactKind) (observations observations' : List (FactObservation V)) :
    factWrites kind (observations ++ observations') =
      factWrites kind observations ++ factWrites kind observations' := by
  rw [factWrites, List.filter_append, List.map_append]
  rfl

lemma flatMap_writes (kind : FactKind) (sources : List (FactSource V)) :
    sources.flatMap (FactSource.writes kind) =
      factWrites kind (sources.flatMap FactSource.facts) := by
  induction sources with
  | nil => rfl
  | cons s rest ih =>
      rw [List.flatMap_cons, List.flatMap_cons, factWrites_append, ih]
      rfl

end

/-- The facts of a kind after a fold over sources of one type. -/
lemma ofKind_foldApply {V : Type} (sourceType : FactSourceType) (kind : FactKind)
    (sources : List (FactSource V)) (p : FactProjection V) :
    (sources.foldl (fun p s => applyFactObservations s.facts sourceType s.id p) p).ofKind kind =
      Dict.update (p.ofKind kind) (sources.flatMap (FactSource.writes kind)) := by
  induction sources generalizing p with
  | nil => rfl
  | cons s rest ih => rw [List.foldl_cons, ih, ofKind_apply, List.flatMap_cons, update_append]

/-- The observations of a turn, in their order. -/
def ScenarioRun.observations (s : ScenarioRun F) : List (FactObservation (JsonValue F)) :=
  s.pendingEvents.flatMap ScriptedEvent.facts ++ s.pendingResults.flatMap fun r => r.source.facts

/-- The facts of a turn are those of the process with its observations written. -/
lemma ofKind_observed (s : ScenarioRun F) (kind : FactKind) :
    s.observed.ofKind kind = Dict.update (s.snapshot.facts.ofKind kind)
      (factWrites kind s.observations) := by
  have hevents : (s.pendingEvents.map ScriptedEvent.factSource).flatMap FactSource.facts =
      s.pendingEvents.flatMap ScriptedEvent.facts := List.flatMap_map ..
  have hresults : (s.pendingResults.map Budgets.ActionResultContext.source).flatMap
      FactSource.facts = s.pendingResults.flatMap fun r => r.source.facts := List.flatMap_map ..
  rw [ScenarioRun.observed, ScenarioRun.observations, ← hevents, ← hresults, factWrites_append,
    ← flatMap_writes, ← flatMap_writes, update_append, ← ofKind_foldApply .event,
    ← ofKind_foldApply .actionAttempt]

/-- The observations of a turn of the agent. -/
def TemporalTurn.observations (turn : TemporalTurn F) : List (FactObservation (JsonValue F)) :=
  turn.events.flatMap ScriptedEvent.facts ++
    turn.actionResults.flatMap fun r => r.result.source.facts

/-- The facts that the agent looks ahead to are those of the process with the observations of the
turn written. -/
lemma ofKind_prospective (turn : TemporalTurn F) (kind : FactKind) :
    (prospectiveProjection turn.process turn.input).ofKind kind =
      Dict.update (turn.process.ofKind kind) (factWrites kind turn.observations) := by
  have hsource : ∀ (facts : List (FactObservation (JsonValue F)))
      (p : FactProjection (JsonValue F)),
      (facts.foldl (fun p o =>
        if o.kind = .authoritative then
          { p with authoritative := Dict.setItem p.authoritative o.key o.value }
        else { p with claims := Dict.setItem p.claims o.key o.value }) p).ofKind kind =
      Dict.update (p.ofKind kind) (factWrites kind facts) := by
    intro facts p
    induction facts generalizing p with
    | nil => rfl
    | cons o rest ih =>
        rw [List.foldl_cons, ih]
        cases kind <;> cases hkind : o.kind <;>
          simp [FactProjection.ofKind, factWrites, Dict.update, hkind]
  have hsources : (turn.input.events ++
      turn.input.actionResults.map Budgets.ActionResultContext.source).flatMap FactSource.facts =
      turn.observations := by
    rw [TemporalTurn.observations, TemporalTurn.input, List.flatMap_append, List.flatMap_map,
      List.map_map, List.flatMap_map]
    rfl
  have hfold : ∀ (sources : List (FactSource (JsonValue F))) (p : FactProjection (JsonValue F)),
      (sources.foldl (fun p source => source.facts.foldl
        (fun p o =>
          if o.kind = .authoritative then
            { p with authoritative := Dict.setItem p.authoritative o.key o.value }
          else { p with claims := Dict.setItem p.claims o.key o.value }) p) p).ofKind kind =
      Dict.update (p.ofKind kind) (factWrites kind (sources.flatMap FactSource.facts)) := by
    intro sources p
    induction sources generalizing p with
    | nil => rfl
    | cons source rest ih =>
        rw [List.foldl_cons, ih, hsource, List.flatMap_cons, factWrites_append, update_append]
  rw [prospectiveProjection, hfold, hsources]

/-! ### The rounds of the kernel driver -/

/-- A round: the state that is woken, the fact assertions and the decision. -/
structure KernelRound (F : Type) where
  woken : ScenarioRun F
  assertions : List (ScenarioStep F)
  step : ScenarioStep F

/-- What the turns of the other driver wake by after a decision. -/
def ScenarioStep.leavesPending (step : ScenarioStep F) : Bool :=
  match step.body with
  | .action _ _ => true
  | .wait (.timer _ _) => true
  | _ => false

variable [DecidableEq F] [FloatValues F] (script : CompiledScenarioScript F)

/-- How a round wakes, with the index and the steps behind its event. -/
inductive Wakes (index : ℕ) (s : ScenarioRun F) :
    List (ScenarioStep F) → ScenarioRun F → ℕ → List (ScenarioStep F) → Prop
  | pending {steps : List (ScenarioStep F)} (pending : s.pending = true) :
      Wakes index s steps s index steps
  | event {first : ScenarioStep F} {others : List (ScenarioStep F)} {woken : ScenarioRun F}
      (idle : s.pending = false) (received : receiveWake script index s first = .ok woken) :
      Wakes index s (first :: others) woken (index + 1) others

/-- The rounds of a run of the kernel driver on the steps from an index on. -/
inductive KernelRounds : ℕ → ScenarioRun F → List (ScenarioStep F) →
    List (KernelRound F) → ScenarioRun F → Prop
  | done {index : ℕ} {s : ScenarioRun F} : KernelRounds index s [] [] s
  | round {index index' : ℕ} {s woken next final : ScenarioRun F} {step : ScenarioStep F}
      {steps left assertions rest : List (ScenarioStep F)} {rounds : List (KernelRound F)}
      (wakes : Wakes script index s steps woken index' left)
      (asserted : left.takeWhile ScenarioStep.isFact = assertions)
      (decided : left.dropWhile ScenarioStep.isFact = step :: rest)
      (turn : takeTurn script (index' + assertions.length) woken assertions step = .ok next)
      (later : KernelRounds (index' + assertions.length + 1) next rest rounds final) :
      KernelRounds index s steps (⟨woken, assertions, step⟩ :: rounds) final

variable {script} {index : ℕ} {s woken next final : ScenarioRun F}
  {steps left rest : List (ScenarioStep F)} {rounds : List (KernelRound F)}

/-- A round of the loop, and what follows. -/
lemma runRounds_of_wakes {index' : ℕ} {step : ScenarioStep F}
    (wakes : Wakes script index s steps woken index' left)
    (decided : left.dropWhile ScenarioStep.isFact = step :: rest) :
    runRounds script index s steps =
      (takeTurn script (index' + (left.takeWhile ScenarioStep.isFact).length) woken
        (left.takeWhile ScenarioStep.isFact) step >>= fun next =>
      runRounds script (index' + (left.takeWhile ScenarioStep.isFact).length + 1) next rest) := by
  cases wakes with
  | pending hpending =>
      cases steps with
      | nil => cases decided
      | cons first others =>
          rw [runRounds, if_pos hpending]
          dsimp only [pure, Except.pure, bind, Except.bind]
          split
          · rename_i hleft
            simp only [hpending, if_true] at hleft
            rw [hleft] at decided
            cases decided
          · rename_i step' rest' hleft
            simp only [hpending, if_true] at hleft ⊢
            obtain ⟨rfl, rfl⟩ := List.cons.inj (hleft.symm.trans decided)
            rfl
  | event hidle hreceived =>
      rw [runRounds, if_neg (by simp [hidle]), hreceived]
      dsimp only [bind, Except.bind]
      split
      · rename_i hleft
        simp only [hidle, Bool.false_eq_true, if_false] at hleft
        rw [hleft] at decided
        cases decided
      · rename_i step' rest' hleft
        simp only [hidle, Bool.false_eq_true, if_false] at hleft ⊢
        obtain ⟨rfl, rfl⟩ := List.cons.inj (hleft.symm.trans decided)
        rfl

/-- A run that goes through begins with a round, if there is a step. -/
lemma wakes_of_run (hne : steps ≠ []) (h : runRounds script index s steps = .ok final) :
    ∃ woken index' left step rest, Wakes script index s steps woken index' left ∧
      left.dropWhile ScenarioStep.isFact = step :: rest ∧ rest.length < steps.length := by
  have hshorter : ∀ {left rest : List (ScenarioStep F)} {step : ScenarioStep F},
      left.dropWhile ScenarioStep.isFact = step :: rest → rest.length < left.length := by
    intro left rest step hleft
    have hdrop := (List.dropWhile_suffix ScenarioStep.isFact (l := left)).length_le
    rw [hleft, List.length_cons] at hdrop
    omega
  cases steps with
  | nil => exact absurd rfl hne
  | cons first others =>
      rw [runRounds] at h
      split at h
      · rename_i hpending
        obtain ⟨_, -, h⟩ := ok_of_bind h
        dsimp only at h
        split at h
        · cases h
        · rename_i step rest hleft
          exact ⟨s, index, _, step, rest, .pending hpending, hleft, hshorter hleft⟩
      · rename_i hidle
        rw [Bool.not_eq_true] at hidle
        obtain ⟨woken, hwoken, h⟩ := ok_of_bind h
        dsimp only at h
        split at h
        · cases h
        · rename_i step rest hleft
          exact ⟨woken, index + 1, others, step, rest, .event hidle hwoken, hleft,
            (hshorter hleft).trans (Nat.lt_succ_self _)⟩

/-- A run of the loop goes through rounds. -/
theorem kernelRounds_of_run (h : runRounds script index s steps = .ok final) :
    ∃ rounds, KernelRounds script index s steps rounds final := by
  induction hn : steps.length using Nat.strong_induction_on generalizing steps index s with
  | _ n ih =>
  by_cases hne : steps = []
  · rw [hne, runRounds] at h
    obtain rfl := Except.ok.inj h
    exact ⟨[], hne ▸ .done⟩
  · obtain ⟨woken, index', left, step, rest, hwakes, hdecided, hshorter⟩ := wakes_of_run hne h
    rw [runRounds_of_wakes hwakes hdecided] at h
    obtain ⟨next, hturn, hlater⟩ := ok_of_bind h
    obtain ⟨rounds, hrounds⟩ := ih rest.length (hn ▸ hshorter) hlater rfl
    exact ⟨_, .round hwakes rfl hdecided hturn hrounds⟩

/-- Rounds are a run of the loop. -/
theorem KernelRounds.run (h : KernelRounds script index s steps rounds final) :
    runRounds script index s steps = .ok final := by
  induction h with
  | done => rw [runRounds]
  | round wakes asserted decided turn later ih =>
      subst asserted
      rw [runRounds_of_wakes wakes decided, turn]
      exact ih

/-! ### What a round does with the facts -/

/-- A fact step is accepted: the fact is read as the value it expects. -/
def FactAccepted (facts : FactProjection (JsonValue F)) (key : String)
    (expected : JsonValue F) : Prop :=
  ∃ v, facts.read key = some v ∧ (v == expected) = true

/-- The fact steps of a list. -/
def factSteps (steps : List (ScenarioStep F)) : List (String × JsonValue F) :=
  steps.filterMap fun step =>
    match step.body with
    | .fact key expected => some (key, expected)
    | _ => none

omit [DecidableEq F] in
lemma assertFactValue_ok_iff {step : ScenarioStep F} {key : String} {expected : JsonValue F}
    {facts : FactProjection (JsonValue F)} :
    (∃ v, script.assertFactValue step key expected facts = .ok v) ↔
      FactAccepted facts key expected := by
  rw [CompiledScenarioScript.assertFactValue, FactAccepted, FactProjection.read]
  cases (facts.authoritative.lookup key).or (facts.claims.lookup key) with
  | none => simp
  | some v =>
      dsimp only
      split_ifs with hequal <;> simp [hequal]

omit [DecidableEq F] in
/-- The loops over fact steps, in both drivers, accept each of them. -/
lemma factLoop_ok_iff {facts : FactProjection (JsonValue F)} :
    (steps.forM fun step =>
      match step.body with
      | .fact key expected => do
          let _ ← script.assertFactValue step key expected facts
          return ()
      | _ => .ok ()) = .ok () ↔ ∀ f ∈ factSteps steps, FactAccepted facts f.1 f.2 := by
  have hone : ∀ step : ScenarioStep F, ((match step.body with
      | .fact key expected => do
          let _ ← script.assertFactValue step key expected facts
          return ()
      | _ => .ok ()) : Except ScenarioRunError Unit) = .ok () ↔
      ∀ key expected, step.body = .fact key expected → FactAccepted facts key expected := by
    intro step
    cases hbody : step.body with
    | fact key expected =>
        have haccepted : (∃ v, script.assertFactValue step key expected facts = .ok v) ↔
            FactAccepted facts key expected := assertFactValue_ok_iff
        dsimp only
        constructor
        · intro h key' expected' hsame
          cases hsame
          obtain ⟨v, hv, -⟩ := ok_of_bind h
          exact haccepted.mp ⟨v, hv⟩
        · intro h
          obtain ⟨v, hv⟩ := haccepted.mpr (h key expected rfl)
          rw [hv]
          rfl
    | _ => simp
  rw [forM_ok_iff]
  simp only [hone, factSteps, List.mem_filterMap]
  constructor
  · rintro h f ⟨step, hstep, hf⟩
    split at hf
    · rename_i key expected hbody
      obtain rfl := Option.some.inj hf
      exact h step hstep key expected hbody
    · cases hf
  · intro h step hstep key expected hbody
    exact h (key, expected) ⟨step, hstep, by rw [hbody]⟩

/-- What a turn of the kernel driver leaves. -/
structure TurnDone (woken : ScenarioRun F) (assertions : List (ScenarioStep F))
    (step : ScenarioStep F) (next : ScenarioRun F) : Prop where
  facts : next.snapshot.facts = woken.observed
  accepted : ∀ f ∈ factSteps assertions, FactAccepted woken.observed f.1 f.2
  pending : next.pending = step.leavesPending

omit [DecidableEq F] in
lemma projectDecision_accepted {assertions : List (ScenarioStep F)} {step : ScenarioStep F}
    {decision : AgentDecision} {projected : ScenarioRun F × List ClassifiedAction}
    (h : projectDecision script s assertions step decision = .ok projected) :
    ∀ f ∈ factSteps assertions, FactAccepted s.observed f.1 f.2 := by
  rw [projectDecision] at h
  obtain ⟨_, -, h⟩ := ok_of_bind h
  obtain ⟨classified, -, h⟩ := ok_of_bind h
  obtain ⟨transition, -, h⟩ := ok_of_bind h
  obtain ⟨_, haccepted, -⟩ := ok_of_bind h
  exact factLoop_ok_iff.mp haccepted

/-- A decision that is taken for an action step proposes one action. -/
lemma takeDecision_action {step : ScenarioStep F} {decision : AgentDecision}
    (h : takeDecision script index s step = .ok decision) :
    ∀ reference action, step.body = .action reference action → decision.actions.length = 1 := by
  rw [takeDecision] at h
  split at h
  · cases h
  · obtain ⟨_, -, h⟩ := ok_of_bind h
    obtain ⟨decision', -, h⟩ := ok_of_bind h
    obtain ⟨_, -, h⟩ := ok_of_bind h
    obtain ⟨_, hexpected, h⟩ := ok_of_bind h
    obtain rfl := Except.ok.inj h
    have hunstuck : Unstuck (fun _ => ∀ reference action, step.body = .action reference action →
        decision'.actions.length = 1) (requireExpected script s step decision') :=
      requireExpected_unstuck
    rw [hexpected] at hunstuck
    exact hunstuck

omit [DecidableEq F] [FloatValues F] in
/-- After the effects of a step something is pending exactly where the step says so. -/
lemma takeEffect_pending {step : ScenarioStep F} {classified : List ClassifiedAction}
    (hidle : s.pending = false)
    (hone : ∀ reference action, step.body = .action reference action → classified.length = 1)
    (h : takeEffect script step classified s = .ok next) : next.pending = step.leavesPending := by
  rw [takeEffect] at h
  rw [ScenarioStep.leavesPending]
  cases hbody : step.body with
  | action reference action =>
      rw [hbody] at h
      have hlength : Unstuck (fun s' : ScenarioRun F =>
          s'.pendingResults.length = s.pendingResults.length + classified.length)
          (executeClassified script step action.approve classified s) :=
        executeClassified_unstuck classified
      dsimp only at h
      rw [h] at hlength
      have hone := hone reference action hbody
      refine pending_of_pendingResults fun hnil => ?_
      have hlength : next.pendingResults.length = s.pendingResults.length + classified.length :=
        hlength
      rw [hnil, List.length_nil] at hlength
      omega
  | wait wait =>
      rw [hbody] at h
      cases wait with
      | event eventType =>
          obtain rfl := Except.ok.inj h
          exact hidle
      | timer timerId delaySeconds =>
          obtain rfl := Except.ok.inj h
          simp [ScenarioRun.pending]
  | event reference data =>
      rw [hbody] at h
      obtain rfl := Except.ok.inj h
      exact hidle
  | fact key expected =>
      rw [hbody] at h
      obtain rfl := Except.ok.inj h
      exact hidle
  | complete =>
      rw [hbody] at h
      obtain rfl := Except.ok.inj h
      exact hidle

/-- A turn leaves the facts it observes, its fact steps are accepted on them, and something is
pending exactly where its step says so. -/
theorem takeTurn_done {assertions : List (ScenarioStep F)} {step : ScenarioStep F}
    (h : takeTurn script index s assertions step = .ok next) :
    TurnDone s assertions step next := by
  rw [takeTurn] at h
  split at h
  · cases h
  · obtain ⟨decision, hdecision, h⟩ := ok_of_bind h
    obtain ⟨projected, hprojected, heffect⟩ := ok_of_bind h
    obtain ⟨-, transition, -, hsnapshot⟩ := projectDecision_snapshot hprojected
    have haccepted := projectDecision_accepted hprojected
    have hdone : Unstuck (DecisionProjected s.now decision)
        (projectDecision script { s with turnNumber := s.turnNumber + 1 } assertions step
          decision) := projectDecision_unstuck
    rw [hprojected] at hdone
    have hdone : DecisionProjected s.now decision projected := hdone
    refine ⟨?_, haccepted, ?_⟩
    · rw [takeEffect_snapshot heffect, hsnapshot]
      rfl
    · refine takeEffect_pending hdone.idle (fun reference action hbody => ?_) heffect
      rw [hdone.length]
      exact takeDecision_action hdecision reference action hbody

omit [FloatValues F] in
/-- A received event leaves the snapshot as it is. -/
lemma receiveWake_snapshot {first : ScenarioStep F}
    (h : receiveWake script index s first = .ok woken) : woken.snapshot = s.snapshot := by
  rw [receiveWake] at h
  split at h
  · obtain ⟨event, -, h⟩ := ok_of_bind h
    split at h
    · cases h
    · obtain rfl := Except.ok.inj h
      rw [ScenarioRun.noteContact]
      split_ifs <;> rfl
  · cases h

omit [FloatValues F] in
/-- What wakes a round leaves the snapshot as it is, and is no fact step. -/
lemma Wakes.keeps {index' : ℕ} (h : Wakes script index s steps woken index' left) :
    woken.snapshot = s.snapshot ∧ factSteps steps = factSteps left := by
  cases h with
  | pending => exact ⟨rfl, rfl⟩
  | event idle received =>
      refine ⟨receiveWake_snapshot received, ?_⟩
      rw [receiveWake] at received
      split at received
      · rename_i hbody
        rw [factSteps, List.filterMap_cons, hbody]
        rfl
      · cases received

/-! ### What later rounds do with the facts -/

/-- The observations of rounds, in their order. -/
def observationsOf (rounds : List (KernelRound F)) : List (FactObservation (JsonValue F)) :=
  rounds.flatMap fun round => round.woken.observations

/-- The facts of a run are those before it with the observations of its rounds written. -/
theorem KernelRounds.ofKind (h : KernelRounds script index s steps rounds final)
    (kind : FactKind) :
    final.snapshot.facts.ofKind kind =
      Dict.update (s.snapshot.facts.ofKind kind) (factWrites kind (observationsOf rounds)) := by
  induction h with
  | done => rfl
  | round wakes asserted decided turn later ih =>
      have hfacts := (takeTurn_done turn).facts
      rw [ih, hfacts, ofKind_observed, wakes.keeps.1, observationsOf, observationsOf,
        List.flatMap_cons, factWrites_append, update_append]

/-- The fact steps of a run are those that its rounds assert. -/
theorem KernelRounds.factSteps_eq (h : KernelRounds script index s steps rounds final) :
    factSteps steps = rounds.flatMap fun round => factSteps round.assertions := by
  induction h with
  | done => rfl
  | @round _ _ _ woken _ _ step steps left assertions rest rounds wakes asserted decided turn
      later ih =>
      have hdecision : step.isDecision = true := by
        rw [takeTurn] at turn
        split at turn
        · cases turn
        · simpa using ‹¬ (!step.isDecision) = true›
      have hnone : factSteps (step :: rest) = factSteps rest := by
        rw [ScenarioStep.isDecision] at hdecision
        rw [factSteps, List.filterMap_cons]
        cases hbody : step.body with
        | fact key expected =>
            rw [hbody] at hdecision
            cases hdecision
        | _ => rfl
      have hsplit := List.takeWhile_append_dropWhile (p := ScenarioStep.isFact) (l := left)
      rw [asserted, decided] at hsplit
      rw [wakes.keeps.2, ← hsplit, List.flatMap_cons, ← ih, ← hnone]
      exact List.filterMap_append

/-- Behind a round, the run goes on from the facts that the round observed and accepted its fact
steps on. -/
theorem KernelRounds.split {before after : List (KernelRound F)} {round : KernelRound F}
    (h : KernelRounds script index s steps (before ++ round :: after) final) :
    (∀ f ∈ factSteps round.assertions, FactAccepted round.woken.observed f.1 f.2) ∧
      ∀ kind, final.snapshot.facts.ofKind kind =
        Dict.update (round.woken.observed.ofKind kind)
          (factWrites kind (observationsOf after)) := by
  induction before generalizing index s steps with
  | nil =>
      cases h with
      | round wakes asserted decided turn later =>
          have hdone := takeTurn_done turn
          refine ⟨hdone.accepted, fun kind => ?_⟩
          rw [later.ofKind kind, hdone.facts]
  | cons first before ih =>
      cases h with
      | round wakes asserted decided turn later => exact ih later

/-! ### The audit -/

/-- Later observations leave a fact as it was asserted: the last authoritative one has the value,
or there is none, and where the fact was only a claim the last claim, if any, has it. -/
def Stays (facts : FactProjection (JsonValue F)) (later : List (FactObservation (JsonValue F)))
    (key : String) (expected : JsonValue F) : Prop :=
  match lastValue .authoritative key later with
  | some v => (v == expected) = true
  | none => (facts.authoritative.lookup key).isSome = true ∨
      ∀ v, lastValue .customerClaim key later = some v → (v == expected) = true

omit [DecidableEq F] in
/-- A fact step that was accepted is accepted after later observations if and only if these leave
the fact as it was asserted. -/
lemma accepted_later_iff {facts facts' : FactProjection (JsonValue F)}
    {later : List (FactObservation (JsonValue F))} {key : String} {expected : JsonValue F}
    (hwritten : ∀ kind, (facts'.ofKind kind).lookup key =
      (Dict.update (facts.ofKind kind) (factWrites kind later)).lookup key)
    (haccepted : FactAccepted facts key expected) :
    FactAccepted facts' key expected ↔ Stays facts later key expected := by
  obtain ⟨v, hread, hequal⟩ := haccepted
  have hauthoritative := hwritten .authoritative
  have hclaims := hwritten .customerClaim
  rw [lookup_update] at hauthoritative hclaims
  change facts'.authoritative.lookup key =
    (lastValue .authoritative key later).or (facts.authoritative.lookup key) at hauthoritative
  change facts'.claims.lookup key =
    (lastValue .customerClaim key later).or (facts.claims.lookup key) at hclaims
  rw [FactProjection.read] at hread
  rw [FactAccepted, FactProjection.read, hauthoritative, hclaims, Stays]
  cases lastValue .authoritative key later with
  | some w => simp
  | none =>
      cases hold : facts.authoritative.lookup key with
      | some w =>
          rw [hold, Option.some_or] at hread
          obtain rfl := Option.some.inj hread
          simp [hequal]
      | none =>
          rw [hold, Option.none_or] at hread
          rw [hread]
          cases lastValue .customerClaim key later with
          | none => simp [hequal]
          | some w => simp

/-- The audit accepts the fact steps of a run if and only if later rounds leave each fact as it
was asserted. -/
theorem KernelRounds.audit_iff {row : FactProjection (JsonValue F)}
    (h : KernelRounds script index s script.scenario.steps rounds final)
    (hrow : SameFacts row final.snapshot.facts) :
    auditFactSteps script row = .ok () ↔
      ∀ before round after, rounds = before ++ round :: after →
        ∀ f ∈ factSteps round.assertions,
          Stays round.woken.observed (observationsOf after) f.1 f.2 := by
  have hround : ∀ before round after, rounds = before ++ round :: after →
      ∀ f ∈ factSteps round.assertions,
        (FactAccepted row f.1 f.2 ↔ Stays round.woken.observed (observationsOf after) f.1 f.2) := by
    rintro before round after rfl f hf
    obtain ⟨haccepted, hfinal⟩ := h.split
    refine accepted_later_iff (fun kind => ?_) (haccepted f hf)
    rw [hrow, hfinal kind]
  have haudit : auditFactSteps script row = .ok () ↔
      ∀ f ∈ factSteps script.scenario.steps, FactAccepted row f.1 f.2 := factLoop_ok_iff
  rw [haudit, h.factSteps_eq]
  simp only [List.mem_flatMap]
  constructor
  · intro haudit before round after hsplit f hf
    refine (hround before round after hsplit f hf).mp (haudit f ⟨round, ?_, hf⟩)
    rw [hsplit]
    exact List.mem_append_right _ List.mem_cons_self
  · rintro hstays f ⟨round, hmem, hf⟩
    obtain ⟨before, after, hsplit⟩ := List.append_of_mem hmem
    exact (hround before round after hsplit f hf).mpr (hstays before round after hsplit f hf)

/-! ### The turns of the agent -/

/-- A turn of the agent has the sources of a round, on the same facts. -/
structure SameTurn (round : KernelRound F) (turn : TemporalTurn F) : Prop where
  process : SameFacts turn.process round.woken.snapshot.facts
  observations : turn.observations = round.woken.observations

omit [DecidableEq F] [FloatValues F] in
/-- The agent looks ahead to the facts that the round observes. -/
lemma SameTurn.prospective {round : KernelRound F} {turn : TemporalTurn F}
    (h : SameTurn round turn) :
    SameFacts (prospectiveProjection turn.process turn.input) round.woken.observed := by
  intro kind key
  rw [ofKind_prospective, ofKind_observed, lookup_update, lookup_update, h.process kind key,
    h.observations]

/-- The agent waits for what is pending, not for an event. -/
def CompiledScenarioAgent.awaitsPending (agent : CompiledScenarioAgent F) : Bool :=
  match agent.expectedWake with
  | none => false
  | some (.event _ _) => false
  | some _ => true

/-- The agent stands where the kernel driver does. -/
structure Synced (script : CompiledScenarioScript F) (agent : CompiledScenarioAgent F) (index : ℕ)
    (s : ScenarioRun F) (steps : List (ScenarioStep F)) : Prop where
  cursor : agent.cursor = index
  ahead : script.scenario.steps.drop index = steps
  length : index + steps.length = script.scenario.steps.length
  awaits : agent.awaitsPending = s.pending

omit [DecidableEq F] [FloatValues F] in
/-- A wake that is consumed puts the cursor behind the event of the round, if it has one. -/
lemma consumeWake_cursor {agent woken' : CompiledScenarioAgent F} {turn : TemporalTurn F}
    (h : agent.consumeWake script turn = .ok woken') :
    woken'.cursor = if agent.awaitsPending then agent.cursor else agent.cursor + 1 := by
  rw [CompiledScenarioAgent.consumeWake] at h
  rw [CompiledScenarioAgent.awaitsPending]
  split at h
  · rename_i hwake
    rw [hwake]
    dsimp only at h
    split at h
    · obtain ⟨_, -, h⟩ := ok_of_bind h
      obtain ⟨_, -, h⟩ := ok_of_bind h
      obtain rfl := Except.ok.inj h
      rfl
    · cases h
  · rename_i step reference hwake
    rw [hwake]
    obtain ⟨_, -, h⟩ := ok_of_bind h
    obtain ⟨_, -, h⟩ := ok_of_bind h
    obtain rfl := Except.ok.inj h
    rfl
  · rename_i step reference actionRequestId hwake
    rw [hwake]
    obtain ⟨_, -, h⟩ := ok_of_bind h
    obtain ⟨_, -, h⟩ := ok_of_bind h
    obtain rfl := Except.ok.inj h
    rfl
  · rename_i step hwake
    rw [hwake]
    obtain ⟨_, -, h⟩ := ok_of_bind h
    obtain rfl := Except.ok.inj h
    rfl

omit [DecidableEq F] in
/-- Fact steps that are accepted are asserted, up to the next other step. -/
lemma assertFacts_ok {facts : FactProjection (JsonValue F)} {cursor : ℕ}
    (h : ∀ f ∈ factSteps (steps.takeWhile ScenarioStep.isFact), FactAccepted facts f.1 f.2) :
    assertFacts script facts steps cursor =
      .ok (cursor + (steps.takeWhile ScenarioStep.isFact).length) := by
  induction steps generalizing cursor with
  | nil => rfl
  | cons step rest ih =>
      rw [assertFacts]
      cases hbody : step.body with
      | fact key expected =>
          have hfact : step.isFact = true := by rw [ScenarioStep.isFact, hbody]
          rw [List.takeWhile_cons_of_pos hfact] at h ⊢
          have hsteps : factSteps (step :: rest.takeWhile ScenarioStep.isFact) =
              (key, expected) :: factSteps (rest.takeWhile ScenarioStep.isFact) := by
            rw [factSteps, List.filterMap_cons, hbody]
            rfl
          rw [hsteps, List.forall_mem_cons] at h
          obtain ⟨v, hv⟩ : ∃ v, script.assertFactValue step key expected facts = .ok v :=
            assertFactValue_ok_iff.mpr h.1
          dsimp only
          rw [hv]
          refine (ih h.2).trans ?_
          rw [List.length_cons]
          congr 1
          omega
      | _ =>
          have hother : ¬ step.isFact = true := by simp [ScenarioStep.isFact, hbody]
          rw [List.takeWhile_cons_of_neg hother]
          rfl

/-- The agent goes on behind its step, and waits for what the step leaves pending. -/
lemma afterDecision_ok {agent next' : CompiledScenarioAgent F} {turn : TemporalTurn F}
    {step : ScenarioStep F} {decision : AgentDecision}
    (h : agent.afterDecision script turn step decision = .ok next') :
    next'.cursor = agent.cursor + 1 ∧ next'.awaitsPending = step.leavesPending := by
  rw [CompiledScenarioAgent.afterDecision] at h
  rw [ScenarioStep.leavesPending]
  cases hbody : step.body with
  | action reference action =>
      rw [hbody] at h
      obtain ⟨_, -, h⟩ := ok_of_bind h
      obtain ⟨_, -, h⟩ := ok_of_bind h
      split at h
      · obtain ⟨_, -, h⟩ := ok_of_bind h
        obtain rfl := Except.ok.inj h
        exact ⟨rfl, rfl⟩
      · cases h
  | wait wait =>
      rw [hbody] at h
      obtain ⟨_, -, h⟩ := ok_of_bind h
      cases wait with
      | event eventType =>
          dsimp only at h
          split at h
          · cases h
          · split at h
            · obtain ⟨_, -, h⟩ := ok_of_bind h
              obtain rfl := Except.ok.inj h
              exact ⟨rfl, rfl⟩
            · cases h
      | timer timerId delaySeconds =>
          obtain rfl := Except.ok.inj h
          exact ⟨rfl, rfl⟩
  | event reference data =>
      rw [hbody] at h
      obtain rfl := Except.ok.inj h
      exact ⟨rfl, rfl⟩
  | fact key expected =>
      rw [hbody] at h
      obtain rfl := Except.ok.inj h
      exact ⟨rfl, rfl⟩
  | complete =>
      rw [hbody] at h
      obtain rfl := Except.ok.inj h
      exact ⟨rfl, rfl⟩

/-- The turns of the agent refuse no fact step, and where they all go through there is no step
left. -/
structure AcceptsFacts (script : CompiledScenarioScript F)
    (outcome : Except AgentFailure (CompiledScenarioAgent F)) : Prop where
  facts : ∀ error, outcome ≠ .error (.fact error)
  complete : ∀ agent, outcome = .ok agent → agent.complete script = true

/-- One turn: it refuses no fact step, and leaves the agent where the kernel driver is. -/
theorem nextDecision_synced {agent : CompiledScenarioAgent F} {turn : TemporalTurn F} {index' : ℕ}
    {step : ScenarioStep F} {assertions : List (ScenarioStep F)}
    (hsync : Synced script agent index s steps)
    (wakes : Wakes script index s steps woken index' left)
    (asserted : left.takeWhile ScenarioStep.isFact = assertions)
    (decided : left.dropWhile ScenarioStep.isFact = step :: rest)
    (hdone : TurnDone woken assertions step next)
    (hturn : SameTurn ⟨woken, assertions, step⟩ turn) :
    (∀ error, agent.nextDecision script turn ≠ .error (.fact error)) ∧
      ∀ d next', agent.nextDecision script turn = .ok (d, next') →
        Synced script next' (index' + assertions.length + 1) next rest := by
  have hleft : left = assertions ++ step :: rest := by
    rw [← asserted, ← decided, List.takeWhile_append_dropWhile]
  -- the cursor behind the event of the round, if it has one
  have hwoken : ∀ woken', agent.consumeWake script turn = .ok woken' →
      woken'.cursor = index' ∧ script.scenario.steps.drop index' = left ∧
        index' + left.length = script.scenario.steps.length := by
    intro woken' hconsumed
    have hcursor := consumeWake_cursor hconsumed
    rw [hsync.awaits, hsync.cursor] at hcursor
    cases wakes with
    | pending hpending =>
        rw [hpending, if_pos rfl] at hcursor
        exact ⟨hcursor, hsync.ahead, hsync.length⟩
    | event hidle received =>
        rw [hidle, if_neg Bool.false_ne_true] at hcursor
        have hdrop := hsync.ahead
        have hlength := hsync.length
        refine ⟨hcursor, ?_, ?_⟩
        · rw [← List.drop_drop, hdrop, List.drop_succ_cons, List.drop_zero]
        · rw [List.length_cons] at hlength
          omega
  have haccepted : ∀ f ∈ factSteps (left.takeWhile ScenarioStep.isFact),
      FactAccepted (prospectiveProjection turn.process turn.input) f.1 f.2 := by
    rw [asserted]
    intro f hf
    obtain ⟨v, hread, hequal⟩ := hdone.accepted f hf
    exact ⟨v, (hturn.prospective.read f.1).trans hread, hequal⟩
  rw [CompiledScenarioAgent.nextDecision]
  cases hconsumed : agent.consumeWake script turn with
  | error error =>
      constructor
      · intro error' h
        cases h
      · intro d next' h
        cases h
  | ok woken' =>
      obtain ⟨hcursor, hdrop, hlength⟩ := hwoken woken' hconsumed
      have hassert : assertFacts script (prospectiveProjection turn.process turn.input)
          (script.scenario.steps.drop woken'.cursor) woken'.cursor =
          .ok (index' + assertions.length) := by
        rw [hcursor, hdrop, ← asserted]
        exact assertFacts_ok haccepted
      dsimp only [bind, Except.bind, Except.mapError]
      rw [hassert]
      dsimp only
      cases hdecision : CompiledScenarioAgent.scriptedDecision script
        { woken' with cursor := index' + assertions.length } turn with
      | error error =>
          constructor
          · intro error' h
            cases h
          · intro d next' h
            cases h
      | ok outcome =>
          constructor
          · intro error' h
            cases h
          · intro d next' h
            obtain rfl := Except.ok.inj h
            have hrest : script.scenario.steps.drop (index' + assertions.length) =
                step :: rest := by
              rw [← List.drop_drop, hdrop, hleft, List.drop_left]
            have hstep : CompiledScenarioAgent.currentStep script
                { woken' with cursor := index' + assertions.length } = step := by
              have hget : (script.scenario.steps.drop (index' + assertions.length))[0]? =
                  script.scenario.steps[index' + assertions.length + 0]? := List.getElem?_drop
              rw [hrest, Nat.add_zero] at hget
              rw [CompiledScenarioAgent.currentStep, List.getD_eq_getElem?_getD, ← hget]
              rfl
            rw [CompiledScenarioAgent.scriptedDecision, hstep] at hdecision
            obtain ⟨_, -, hdecision⟩ := ok_of_bind hdecision
            obtain ⟨decision, -, hdecision⟩ := ok_of_bind hdecision
            obtain ⟨after, hafter, hdecision⟩ := ok_of_bind hdecision
            obtain ⟨-, rfl⟩ := Prod.mk.inj (Except.ok.inj hdecision)
            obtain ⟨hnext, hawaits⟩ := afterDecision_ok hafter
            refine ⟨hnext, ?_, ?_, hawaits.trans hdone.pending.symm⟩
            · rw [← List.drop_drop, hrest, List.drop_succ_cons, List.drop_zero]
            · rw [hleft, List.length_append, List.length_cons] at hlength
              omega

/-- The turns of the agent on the rounds of a run refuse no fact step. -/
theorem KernelRounds.turns_accept (h : KernelRounds script index s steps rounds final)
    {agent : CompiledScenarioAgent F} (hsync : Synced script agent index s steps)
    {turns : List (TemporalTurn F)} (hturns : List.Forall₂ SameTurn rounds turns) :
    AcceptsFacts script (agent.runTurns script turns) := by
  induction h generalizing agent turns with
  | done =>
      cases hturns
      rw [CompiledScenarioAgent.runTurns]
      refine ⟨fun error h => ?_, fun agent' h => ?_⟩
      · cases h
      obtain rfl := Except.ok.inj h
      have hlength := hsync.length
      rw [List.length_nil, Nat.add_zero] at hlength
      rw [CompiledScenarioAgent.complete, hsync.cursor, hlength]
      exact decide_eq_true rfl
  | round wakes asserted decided turn later ih =>
      cases hturns with
      | cons hturn hrest =>
          obtain ⟨hfact, hnext⟩ := nextDecision_synced hsync wakes asserted decided
            (takeTurn_done turn) hturn
          rw [CompiledScenarioAgent.runTurns]
          cases hdecision : agent.nextDecision script _ with
          | error failure =>
              refine ⟨fun error h => hfact error ?_, fun agent' h => nomatch h⟩
              have hfailure : failure = .fact error := Except.error.inj h
              rw [hdecision, hfailure]
          | ok outcome => exact ih (hnext outcome.1 outcome.2 hdecision) hrest

/-! ### The two drivers -/

omit [DecidableEq F] [FloatValues F] in
/-- The locals that a run starts with. -/
def ScenarioRun.start (scenario : Scenario F) : ScenarioRun F :=
  { now := scenario.startedAt, snapshot := { status := .active } }

/-- **The drivers agree until the audit**: where the kernel driver goes through a scenario, the
agent of the other driver refuses no fact step on the same turns, and the final audit accepts them
all if and only if later rounds leave each fact as it was asserted. -/
theorem fact_steps_agree_iff (script : CompiledScenarioScript F) (final : ScenarioRun F)
    (hrun : runRounds script 0 (ScenarioRun.start script.scenario) script.scenario.steps =
      .ok final) :
    ∃ rounds, KernelRounds script 0 (ScenarioRun.start script.scenario) script.scenario.steps
        rounds final ∧
      ∀ (turns : List (TemporalTurn F)) (row : FactProjection (JsonValue F)),
        List.Forall₂ SameTurn rounds turns → SameFacts row final.snapshot.facts →
        ((AcceptsFacts script (CompiledScenarioAgent.runTurns script {} turns) ∧
            auditFactSteps script row = .ok ()) ↔
          ∀ before round after, rounds = before ++ round :: after →
            ∀ f ∈ factSteps round.assertions,
              Stays round.woken.observed (observationsOf after) f.1 f.2) := by
  obtain ⟨rounds, hrounds⟩ := kernelRounds_of_run hrun
  refine ⟨rounds, hrounds, fun turns row hturns hrow => ?_⟩
  have hsync : Synced script {} 0 (ScenarioRun.start script.scenario) script.scenario.steps :=
    ⟨rfl, List.drop_zero, Nat.zero_add _, rfl⟩
  exact (and_iff_right (hrounds.turns_accept hsync hturns)).trans (hrounds.audit_iff hrow)

end

/-! ### A price that changes -/

/-- The price of an order, observed with an event. -/
def priceObserved (price : String) : ScenarioEvent Empty where
  facts := [⟨"order.price", .authoritative, .atom (.string (codePoints price))⟩]
  payload := noFields

/-- A customer whose order has a low price, and a high one with the answer. -/
def priceScenario : Scenario Empty where
  id := "price"
  title := "A price that changes"
  steps :=
    [⟨"the order", .event "order.placed" (priceObserved "low")⟩,
      ⟨"the price is low", .fact "order.price" (.atom (.string (codePoints "low")))⟩,
      ⟨"wait for the answer", .wait (.event "customer.replied")⟩,
      ⟨"the answer", .event "customer.replied" (priceObserved "high")⟩,
      ⟨"done", .complete⟩]
  startedAt := 0
  steps_ne := List.cons_ne_nil _ _

/-- The project of the scenario. -/
def priceContext : ScenarioContext Empty :=
  { orderContext with
    routes :=
      [⟨.start, "order.placed", [⟨"order.price", [.authoritative]⟩]⟩,
        ⟨.wake, "customer.replied", [⟨"order.price", [.authoritative]⟩]⟩]
    facts := [("order.price", ⟨"order.price", [.authoritative]⟩)] }

/-- The script of the scenario. -/
def priceScript : CompiledScenarioScript Empty :=
  { orderScript with scenario := priceScenario }

/-- A step of the scenario. -/
def priceStep (n : ℕ) : ScenarioStep Empty := priceScenario.steps.getD n ⟨"", .complete⟩

/-- The state that a part of a round leaves. -/
def reached (x : Except ScenarioRunError (ScenarioRun Empty)) : ScenarioRun Empty :=
  x.toOption.getD (.start priceScenario)

/-- The order is there. -/
def orderReceived : ScenarioRun Empty :=
  reached (receiveWake priceScript 0 (.start priceScenario) (priceStep 0))

/-- The process waits for the answer. -/
def answerAwaited : ScenarioRun Empty :=
  reached (takeTurn priceScript 2 orderReceived [priceStep 1] (priceStep 2))

/-- The answer is there. -/
def answerReceived : ScenarioRun Empty :=
  reached (receiveWake priceScript 3 answerAwaited (priceStep 3))

/-- The process is completed. -/
def orderCompleted : ScenarioRun Empty :=
  reached (takeTurn priceScript 4 answerReceived [] (priceStep 4))

/-- The two rounds of the scenario. -/
def priceRounds : List (KernelRound Empty) :=
  [⟨orderReceived, [priceStep 1], priceStep 2⟩, ⟨answerReceived, [], priceStep 4⟩]

/-- The turn of the agent on a round. -/
def turnOf (round : KernelRound Empty) : TemporalTurn Empty where
  workflowNow := round.woken.now
  process := round.woken.snapshot.facts
  events := round.woken.pendingEvents

lemma kernelRounds_price : KernelRounds priceScript 0 (.start priceScenario) priceScenario.steps
    priceRounds orderCompleted := by
  have hordered : Wakes priceScript 0 (.start priceScenario) priceScenario.steps orderReceived 1
      (priceScenario.steps.drop 1) := .event rfl rfl
  have hwaits : takeTurn priceScript 2 orderReceived [priceStep 1] (priceStep 2) =
      .ok answerAwaited := rfl
  have hanswered : Wakes priceScript 3 answerAwaited (priceScenario.steps.drop 3) answerReceived 4
      (priceScenario.steps.drop 4) := .event rfl rfl
  have hcompletes : takeTurn priceScript 4 answerReceived [] (priceStep 4) =
      .ok orderCompleted := rfl
  exact .round hordered rfl rfl hwaits (.round hanswered rfl rfl hcompletes .done)

theorem fact_steps_agree_iff_price :
    runRounds priceScript 0 (.start priceScenario) priceScenario.steps = .ok orderCompleted ∧
      ∃ rounds, KernelRounds priceScript 0 (.start priceScenario) priceScenario.steps
          rounds orderCompleted ∧
        ∀ (turns : List (TemporalTurn Empty)) (row : FactProjection (JsonValue Empty)),
          List.Forall₂ SameTurn rounds turns → SameFacts row orderCompleted.snapshot.facts →
          ((AcceptsFacts priceScript (CompiledScenarioAgent.runTurns priceScript {} turns) ∧
              auditFactSteps priceScript row = .ok ()) ↔
            ∀ before round after, rounds = before ++ round :: after →
              ∀ f ∈ factSteps round.assertions,
                Stays round.woken.observed (observationsOf after) f.1 f.2) :=
  ⟨kernelRounds_price.run,
    fact_steps_agree_iff priceScript orderCompleted kernelRounds_price.run⟩

/-- **A price that changes fails the audit**: the scenario is accepted by the compiler, by the
kernel driver and by the agent turn by turn, but the final audit refuses its fact step. -/
theorem changed_price_fails_audit :
    validateScenario priceContext priceScenario = .ok () ∧
      runRounds priceScript 0 (.start priceScenario) priceScenario.steps = .ok orderCompleted ∧
      orderCompleted.snapshot.status = .completed ∧
      List.Forall₂ SameTurn priceRounds (priceRounds.map turnOf) ∧
      (∃ agent,
        CompiledScenarioAgent.runTurns priceScript {} (priceRounds.map turnOf) = .ok agent) ∧
      auditFactSteps priceScript orderCompleted.snapshot.facts =
        .error (.rejected "the price is low" "fact order.price is {}; expected {}") := by
  refine ⟨rfl, kernelRounds_price.run, rfl, ?_, ⟨_, rfl⟩, rfl⟩
  have hsame : ∀ round : KernelRound Empty, round.woken.pendingResults = [] →
      SameTurn round (turnOf round) := by
    intro round hresults
    refine ⟨fun kind key => rfl, ?_⟩
    rw [ScenarioRun.observations, hresults]
    rfl
  exact .cons (hsame _ rfl) (.cons (hsame _ rfl) .nil)

end TiramisuAgents
