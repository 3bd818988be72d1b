import TiramisuAgents.Core.Policy

/-!
`core/action_policy.py`, and of `processes/definitions.py` the definition of a process as far as
its two policies read it: which actions and wakes it allows, and how it classifies an action.

An accepted decision is classified action by action, and its transition is projected on the
actions that are not denied.  `validate_decision` asks an active decision for an action or a wake
condition, whatever the action policy says of the action.

* `ProcessDefinition`: the definition, with its validators.
* `makesProgress_iff`: an accepted decision leaves a way forward unless it is active, names no
  wake condition and proposes denied actions only; `denied_decision_strands` is one that does not.
-/

namespace TiramisuAgents

/-! ### The action policy (`core/action_policy.py`) -/

/-- The text of a permission outcome. -/
def PermissionOutcome.value : PermissionOutcome → String
  | .allow => "allow"
  | .deny => "deny"
  | .requireApproval => "require_approval"

/-- `ActionPolicyDecision`. -/
structure ActionPolicyDecision where
  outcome : PermissionOutcome
  policyVersion : String
  reason : String
  deriving DecidableEq, Repr

/-- `ConfiguredActionPolicy`. -/
structure ConfiguredActionPolicy where
  permissions : List (String × PermissionOutcome)
  version : String

/-- `ConfiguredActionPolicy.evaluate`. -/
def ConfiguredActionPolicy.evaluate (policy : ConfiguredActionPolicy) (action : ActionProposal) :
    ActionPolicyDecision :=
  let outcome := (policy.permissions.lookup action.actionType).getD .deny
  { outcome := outcome
    policyVersion := policy.version
    reason := s!"action '{action.actionType}' is configured as {outcome.value} " ++
      s!"by policy {policy.version}" }

/-- The actions of a decision, with the status in which their requests begin. -/
def ConfiguredActionPolicy.classify (policy : ConfiguredActionPolicy)
    (actions : List ActionProposal) : OpenActions :=
  actions.map fun action =>
    (action.actionRequestId, initialActionRequestStatus (policy.evaluate action).outcome)

/-- Those that are not denied. -/
def ConfiguredActionPolicy.openActions (policy : ConfiguredActionPolicy)
    (actions : List ActionProposal) : OpenActions :=
  (policy.classify actions).filter fun a => a.2 ≠ .denied

/-! ### Process definitions (`processes/definitions.py`) -/

/-- A lowercase letter. -/
def isLowercase (c : Char) : Bool := 'a' ≤ c ∧ c ≤ 'z'

/-- `[a-z][a-z0-9_]*` on the characters of a text. -/
def isWord : List Char → Bool
  | [] => false
  | c :: rest => isLowercase c && rest.all fun c => isLowercase c || c.isDigit || c == '_'

/-- `IDENTIFIER_PATTERN`. -/
def isIdentifier (value : String) : Bool := isWord value.toList

/-- `EVENT_PATTERN`. -/
def isEventType (value : String) : Bool :=
  let words := value.toList.splitOn '.'
  decide (2 ≤ words.length) && words.all isWord

/-- `RESERVED_KERNEL_EVENT_TYPES` (`core/reserved_events.py`). -/
def reservedEventTypes : List String := ["operator.manual_wake"]

/-- `ProcessLimits`, as far as the decision policy reads it. -/
structure ProcessLimits where
  maxActionsPerTurn : ℕ := 3
  maximumTimerHorizonDays : ℕ := 30
  actions_le : maxActionsPerTurn ≤ 20 := by decide
  horizon_le : 1 ≤ maximumTimerHorizonDays ∧ maximumTimerHorizonDays ≤ 365 := by decide

/-- `ProcessDefinition`, as far as its policies read it, with the validators on these fields. -/
structure ProcessDefinition (V : Type) where
  terminalStates : List ProcessStatus
  allowedActions : List String
  actionPermissions : List (String × PermissionOutcome)
  allowedWakeEvents : List String
  limits : ProcessLimits := {}
  completionRequirements : List (String × V) := []
  /-- `validate_action_types`. -/
  actionTypes : (∀ a ∈ allowedActions, isIdentifier a) ∧ allowedActions.Nodup := by decide
  /-- `validate_event_types`. -/
  eventTypes : (∀ e ∈ allowedWakeEvents, isEventType e) ∧ allowedWakeEvents.Nodup ∧
    ∀ e ∈ allowedWakeEvents, e ∉ reservedEventTypes := by decide
  /-- `validate_terminal_states`. -/
  terminal : (∀ s ∈ terminalStates, s.terminal) ∧ .completed ∈ terminalStates := by decide
  /-- `require_explicit_action_permissions`. -/
  permissions : (actionPermissions.map Prod.fst).Nodup ∧
    sameSet (actionPermissions.map Prod.fst) allowedActions := by decide
  requirements : (completionRequirements.map Prod.fst).Nodup := by simp

namespace ProcessDefinition

variable {V : Type} (d : ProcessDefinition V)

/-- `ProcessDefinition.action_policy`; the version is the fingerprint of the definition. -/
def actionPolicy (fingerprint : ProcessDefinition V → String) : ConfiguredActionPolicy where
  permissions := d.actionPermissions
  version := fingerprint d

/-- The actions that wait for a human: `human_wake_action_types` of `decision_policy`. -/
def humanWakeActionTypes : List String :=
  (d.actionPermissions.filter fun p => p.2 = .requireApproval).map Prod.fst

lemma humanWakeActionTypes_subset : ∀ a ∈ d.humanWakeActionTypes, a ∈ d.allowedActions := by
  intro a ha
  obtain ⟨p, hp, rfl⟩ := List.mem_map.mp ha
  have hkeys := d.permissions.2
  simp only [sameSet, Bool.and_eq_true, List.all_eq_true, List.contains_iff_mem] at hkeys
  exact hkeys.1 p.1 (List.mem_map_of_mem (List.mem_filter.mp hp).1)

/-- `ProcessDefinition.decision_policy`. -/
def decisionPolicy : DecisionPolicy V where
  allowedActionTypes := d.allowedActions
  allowedWakeEventTypes := d.allowedWakeEvents
  humanWakeActionTypes := d.humanWakeActionTypes
  maxActionsPerTurn := d.limits.maxActionsPerTurn
  maxTimerHorizon := d.limits.maximumTimerHorizonDays * (24 * 3600 * 1000000)
  completionRequirements := d.completionRequirements
  horizon_pos := by
    have hdays : (1 : Time) ≤ d.limits.maximumTimerHorizonDays := by
      exact_mod_cast d.limits.horizon_le.1
    positivity
  human_subset := d.humanWakeActionTypes_subset

end ProcessDefinition

/-! ### Progress -/

section

variable {V : Type} [BEq V]

/-- The projection of a decision and its classified actions leaves a wake condition or an open
action. -/
def MakesProgress (d : ProcessDefinition V) (policy : ConfiguredActionPolicy)
    (decision : AgentDecision) (facts : List (String × V)) : Prop :=
  ∃ transition, projectProcessTransition decision (policy.openActions decision.actions)
      (some d.terminalStates) facts d.completionRequirements = .ok transition ∧
    (transition.wakeConditions ≠ [] ∨ policy.openActions decision.actions ≠ [])

omit [BEq V] in
/-- An active decision without a wake condition, of whose actions all are denied. -/
def Stranded (policy : ConfiguredActionPolicy) (decision : AgentDecision) : Prop :=
  decision.status = .active ∧ decision.wakeConditions = [] ∧ decision.actions ≠ [] ∧
    ∀ action ∈ decision.actions, (policy.evaluate action).outcome = .deny

omit [BEq V] in
lemma openActions_eq_nil_iff {policy : ConfiguredActionPolicy} {actions : List ActionProposal} :
    policy.openActions actions = [] ↔
      ∀ action ∈ actions, (policy.evaluate action).outcome = .deny := by
  rw [ConfiguredActionPolicy.openActions, ConfiguredActionPolicy.classify,
    List.filter_eq_nil_iff, List.forall_mem_map]
  refine forall₂_congr fun action _ => ?_
  cases (policy.evaluate action).outcome <;> simp [initialActionRequestStatus]

/-- A decision that does not complete has a transition, whatever is open. -/
lemma exists_projectProcessTransition {decision : AgentDecision}
    (hstatus : decision.status ≠ .completed) (openActions : OpenActions)
    (terminalStates : Option (List ProcessStatus)) (facts requirements : List (String × V)) :
    ∃ transition, projectProcessTransition decision openActions terminalStates facts requirements
      = .ok transition ∧ transition.status.terminal = false := by
  rw [projectProcessTransition, nextStatus, if_neg fun h => hstatus h.1, if_neg hstatus]
  split_ifs <;> exact ⟨_, rfl, rfl⟩

/-- **Which accepted decisions make progress**: for every definition, workflow time and turn
sources, an accepted decision that does not complete the process leaves a wake condition or an
open action, unless it is active, names no wake condition, and every action it proposes is denied
by the action policy of the definition. -/
theorem makesProgress_iff (identity : String → Parameters → String)
    (fingerprint : ProcessDefinition V → String) (d : ProcessDefinition V)
    (decision : AgentDecision) (workflowNow : Time) (expected : ExpectedSources)
    (conflicted : List String) (currentFacts : Option (List (String × V))) (enforce : Bool)
    (facts : List (String × V))
    (haccepted : validateDecision identity decision d.decisionPolicy workflowNow expected
      conflicted currentFacts enforce = .ok decision)
    (hstatus : decision.status ≠ .completed) :
    MakesProgress d (d.actionPolicy fingerprint) decision facts ↔
      ¬ Stranded (d.actionPolicy fingerprint) decision := by
  obtain ⟨transition, htransition, hlive⟩ := exists_projectProcessTransition hstatus
    ((d.actionPolicy fingerprint).openActions decision.actions) (some d.terminalStates) facts
    d.completionRequirements
  have hprogress : MakesProgress d (d.actionPolicy fingerprint) decision facts ↔
      transition.wakeConditions ≠ [] ∨
        (d.actionPolicy fingerprint).openActions decision.actions ≠ [] := by
    refine ⟨?_, fun h => ⟨transition, htransition, h⟩⟩
    rintro ⟨transition', htransition', h⟩
    rw [htransition, Except.ok.injEq] at htransition'
    rwa [htransition']
  rw [hprogress]
  by_cases hopen : (d.actionPolicy fingerprint).openActions decision.actions = []
  · have hwakes := project_wakes_iff htransition
    rw [hlive, hopen, HasProgressPath] at hwakes
    simp only [List.not_mem_nil, false_and, exists_false, false_or, true_and, hstatus, or_false,
      Bool.false_eq_true] at hwakes
    have hpath : (transition.wakeConditions ≠ [] ∨ [] ≠ ([] : OpenActions)) ↔
        decision.wakeConditions ≠ [] ∨ decision.status = .escalated := by
      rw [← hwakes]
      exact or_iff_left fun h => h rfl
    rw [hopen, hpath, Stranded, ← openActions_eq_nil_iff, hopen]
    have haccept := validateDecision_active haccepted
    have hwaiting := decision.waitingWakes
    cases hdecision : decision.status with
    | active =>
        have hgiven := haccept hdecision
        simp only [reduceCtorEq, or_false, true_and, and_true]
        refine ⟨fun hwakes h => hwakes h.1, fun h hnone => h ⟨hnone, ?_⟩⟩
        exact hgiven.resolve_right fun hwakes => hwakes hnone
    | waiting => simp [hwaiting hdecision]
    | completed => exact absurd hdecision hstatus
    | escalated => simp
  · -- work that is open is a way forward
    refine iff_of_true (.inr hopen) fun hstranded => hopen ?_
    exact openActions_eq_nil_iff.mpr hstranded.2.2.2

end

/-! ### Samples -/

/-- A definition with an action of each permission. -/
def sampleDefinition : ProcessDefinition ℕ where
  terminalStates := [.completed]
  allowedActions := ["send", "refund", "delete"]
  actionPermissions := [("send", .allow), ("refund", .requireApproval), ("delete", .deny)]
  allowedWakeEvents := ["customer.replied"]

/-- An active decision that proposes one action. -/
def proposing (actionType : String) : AgentDecision where
  decisionId := "decision"
  basedOnEventIds := ["event"]
  status := .active
  actions := [⟨"action", "key", actionType, ⟨"{}", 0⟩, "because"⟩]

/-- A decision that proposes an action to be approved makes progress. -/
theorem makesProgress_approval :
    MakesProgress sampleDefinition (sampleDefinition.actionPolicy fun _ => "1")
        (proposing "refund") [] ↔
      ¬ Stranded (sampleDefinition.actionPolicy fun _ => "1") (proposing "refund") :=
  makesProgress_iff (fun _ _ => "") (fun _ => "1") sampleDefinition (proposing "refund") 0
    { eventIds := some ["event"] } [] none true [] (by decide +kernel)
    DecisionStatus.noConfusion

/-- **A decision that strands its process**: it is accepted, its only action is denied, and
nothing is left that could wake the process. -/
theorem denied_decision_strands :
    validateDecision (fun _ _ => "") (proposing "delete") sampleDefinition.decisionPolicy 0
        { eventIds := some ["event"] } [] none true = .ok (proposing "delete") ∧
      (proposing "delete").status ≠ .completed ∧
      ¬ MakesProgress sampleDefinition (sampleDefinition.actionPolicy fun _ => "1")
        (proposing "delete") [] := by
  refine ⟨by decide +kernel, DecisionStatus.noConfusion, ?_⟩
  rintro ⟨transition, htransition, hprogress⟩
  obtain rfl : (⟨.active, []⟩ : ProjectedProcessTransition) = transition :=
    Except.ok.inj htransition
  exact hprogress.elim (fun h => h rfl) fun h => h rfl

end TiramisuAgents
