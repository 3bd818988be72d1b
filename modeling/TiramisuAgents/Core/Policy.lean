import TiramisuAgents.Core.Transitions

/-!
`core/policy.py` and the limit checks of `core/limits.py` it uses: the deterministic
validation applied after an agent proposes a decision.

`validateDecision` keeps the order of the source's checks and the text of its
rejections.  Sets are lists compared as sets (`sameSet`), and `identity` stands for
`action_payload_identity`, whose hash function is not modelled here.
-/

namespace TiramisuAgents

/-! ### Platform limits (`core/limits.py`) -/

/-- The message of `SafetyLimitExceeded`. -/
def safetyLimitExceeded (label : String) (actual limit : ℕ) (unit : String) : String :=
  s!"{label} exceeds platform limit of {limit} {unit} (received {actual})"

/-- A count or a size against its limit: `require_item_count`, `require_utf8_bytes` and
`require_json_bytes` differ in what they measure and in the unit they name. -/
def requireWithin (unit label : String) (actual limit : ℕ) : Except String Unit :=
  if actual > limit then .error (safetyLimitExceeded label actual limit unit) else .ok ()

/-- `require_item_count`. -/
def requireItemCount (label : String) (actual limit : ℕ) : Except String Unit :=
  requireWithin "items" label actual limit

/-- `require_utf8_bytes`. -/
def requireUtf8Bytes (value label : String) (limit : ℕ) : Except String Unit :=
  requireWithin "bytes" label value.utf8ByteSize limit

/-- `require_json_bytes`, on the length of the canonical encoding. -/
def requireJsonBytes (label : String) (encoded limit : ℕ) : Except String Unit :=
  requireWithin "bytes" label encoded limit

/-- The bytes `json.dumps` writes for one character of a string (`ensure_ascii=False`):
two for a short escape, six for another control character, its UTF-8 bytes otherwise. -/
def jsonCharBytes (c : Char) : ℕ :=
  if c = '"' ∨ c = '\\' ∨ c = '\n' ∨ c = '\r' ∨ c = '\t' ∨ c.toNat = 8 ∨ c.toNat = 12 then 2
  else if c.toNat < 32 then 6
  else c.utf8Size

/-- The length of the canonical encoding of a list of strings. -/
def jsonStringsBytes (values : List String) : ℕ :=
  2 + (values.length - 1) + (values.map fun v => 2 + (v.toList.map jsonCharBytes).sum).sum

/-! ### The decision policy -/

/-- `DecisionPolicy`, with the conditions its `__post_init__` enforces. -/
structure DecisionPolicy (V : Type) where
  allowedActionTypes : List String
  allowedWakeEventTypes : List String
  humanWakeActionTypes : List String := []
  maxActionsPerTurn : ℕ := 5
  maxTimerHorizon : Time := 30 * 24 * 3600 * 1000000
  maxActionParameterFields : ℕ := 100
  maxActionParametersBytes : ℕ := 32 * 1024
  maxOpenCommitments : ℕ := 50
  maxCommitmentBytes : ℕ := 2 * 1024
  maxOpenCommitmentsBytes : ℕ := 32 * 1024
  maxMemorySummaryBytes : ℕ := 16 * 1024
  completionRequirements : List (String × V) := []
  horizon_pos : 0 < maxTimerHorizon := by decide
  fields_le : 1 ≤ maxActionParameterFields ∧ maxActionParameterFields ≤ 100 := by decide
  parameters_le : 1 ≤ maxActionParametersBytes ∧ maxActionParametersBytes ≤ 32 * 1024 := by
    decide
  commitments_le : 1 ≤ maxOpenCommitments ∧ maxOpenCommitments ≤ 50 := by decide
  commitment_le : 1 ≤ maxCommitmentBytes ∧ maxCommitmentBytes ≤ 2 * 1024 := by decide
  commitmentBytes_le : 1 ≤ maxOpenCommitmentsBytes ∧ maxOpenCommitmentsBytes ≤ 32 * 1024 := by
    decide
  summary_le : 1 ≤ maxMemorySummaryBytes ∧ maxMemorySummaryBytes ≤ 16 * 1024 := by decide
  human_subset : ∀ a ∈ humanWakeActionTypes, a ∈ allowedActionTypes := by decide

/-- The sources a turn expects its decision to be based on; `none` leaves a kind
unchecked. -/
structure ExpectedSources where
  eventIds : Option (List UUID) := none
  reviewCommandIds : Option (List UUID) := none
  actionAttemptIds : Option (List UUID) := none
  timerIds : Option (List String) := none

/-- Two lists with the same elements: equality of the `frozenset`s made from them. -/
def sameSet (a b : List String) : Bool :=
  a.all (b.contains ·) && b.all (a.contains ·)

/-- Reject with a message unless a condition holds. -/
def requireThat (c : Bool) (message : String) : Except String Unit :=
  if c then .ok () else .error message

/-- One of the four source checks at the head of `validate_decision`. -/
def requireSources (expected : Option (List String)) (basedOn : List String)
    (message : String) : Except String Unit :=
  requireThat (expected.elim true (sameSet basedOn ·)) message

/-- The limit checks of `validate_decision` on memory and action parameters. -/
def requireDecisionLimits {V : Type} (decision : AgentDecision) (policy : DecisionPolicy V) :
    Except String Unit := do
  let memory := decision.memoryUpdate
  match memory.summary with
  | some summary => requireUtf8Bytes summary "memory summary" policy.maxMemorySummaryBytes
  | none => pure ()
  requireItemCount "open commitments" memory.openCommitments.length policy.maxOpenCommitments
  memory.openCommitments.forM fun commitment =>
    requireUtf8Bytes commitment "open commitment" policy.maxCommitmentBytes
  requireJsonBytes "open commitments" (jsonStringsBytes memory.openCommitments)
    policy.maxOpenCommitmentsBytes
  decision.actions.forM fun action => do
    requireItemCount s!"action parameters for {action.logicalActionKey}" action.parameters.fields
      policy.maxActionParameterFields
    requireJsonBytes s!"action parameters for {action.logicalActionKey}"
      action.parameters.text.utf8ByteSize policy.maxActionParametersBytes

/-- The loop of `validate_decision` over the proposed actions, with the logical keys seen
so far. -/
def validateActions {V : Type} (identity : String → Parameters → String)
    (policy : DecisionPolicy V) (conflicted : List String) :
    List String → List ActionProposal → Except String Unit
  | _, [] => .ok ()
  | keys, action :: rest => do
      requireThat (policy.allowedActionTypes.contains action.actionType)
        s!"action type is not allowed: {action.actionType}"
      requireThat (!keys.contains action.logicalActionKey)
        s!"duplicate logical action key: {action.logicalActionKey}"
      requireThat (!conflicted.contains (identity action.actionType action.parameters))
        "decision repeats an action payload that just returned a definitive conflict"
      validateActions identity policy conflicted (action.logicalActionKey :: keys) rest

/-- The check of `validate_decision` on one wake condition. -/
def validateWake {V : Type} (policy : DecisionPolicy V) (workflowNow : Time) :
    WakeCondition → Except String Unit
  | .event eventType =>
      requireThat (policy.allowedWakeEventTypes.contains eventType)
        s!"wake event type is not allowed: {eventType}"
  | .timer t => do
      requireThat (workflowNow < t) "timer wake condition must be in the future"
      requireThat (t - workflowNow ≤ policy.maxTimerHorizon)
        "timer wake condition exceeds the maximum horizon"
  | .human _ => .ok ()

/-- `validate_decision`: the unchanged decision if it fits the policy, the text of the
`DecisionRejected` otherwise. -/
def validateDecision {V : Type} [BEq V] (identity : String → Parameters → String)
    (decision : AgentDecision) (policy : DecisionPolicy V) (workflowNow : Time)
    (expected : ExpectedSources) (conflicted : List String)
    (currentAuthoritativeFacts : Option (List (String × V)))
    (enforceCompletionRequirements : Bool) : Except String AgentDecision := do
  requireSources expected.eventIds decision.basedOnEventIds
    "decision must be based on exactly the events in this turn"
  requireSources expected.reviewCommandIds decision.basedOnReviewCommandIds
    "decision must be based on exactly the review commands in this turn"
  requireSources expected.actionAttemptIds decision.basedOnActionAttemptIds
    "decision must be based on exactly the action results in this turn"
  requireSources expected.timerIds decision.basedOnTimerIds
    "decision must be based on exactly the timers in this turn"
  requireDecisionLimits decision policy
  let memory := decision.memoryUpdate
  requireThat (memory.summarySourceEventIds.all (decision.basedOnEventIds.contains ·))
    "memory summary cites an event outside this turn"
  requireThat
    (memory.summarySourceReviewCommandIds.all (decision.basedOnReviewCommandIds.contains ·))
    "memory summary cites a review command outside this turn"
  requireThat
    (memory.summarySourceActionAttemptIds.all (decision.basedOnActionAttemptIds.contains ·))
    "memory summary cites an action result outside this turn"
  requireThat (memory.summarySourceTimerIds.all (decision.basedOnTimerIds.contains ·))
    "memory summary cites a timer outside this turn"
  requireThat (decision.actions.length ≤ policy.maxActionsPerTurn)
    "decision exceeds the maximum actions per turn"
  requireThat (!(decision.status = .completed ∧ decision.actions ≠ []))
    "completed decision cannot propose unresolved actions"
  if enforceCompletionRequirements ∧ decision.status = .completed ∧
      policy.completionRequirements ≠ [] then
    match currentAuthoritativeFacts with
    | none => throw "authoritative facts are required to validate completion"
    | some facts =>
        let unsatisfied := unsatisfiedRequirements facts policy.completionRequirements
        requireThat unsatisfied.isEmpty
          ("completion requirements are not satisfied: " ++ ", ".intercalate unsatisfied)
  requireThat
    (!(decision.status = .active ∧ decision.actions = [] ∧ decision.wakeConditions = []))
    "active decision requires an action or wake condition"
  validateActions identity policy conflicted [] decision.actions
  requireThat
    (!(decision.wakeConditions.any (fun wake => wake matches .human _)) ||
      decision.actions.any fun action => policy.humanWakeActionTypes.contains action.actionType)
    "human wake condition requires an action that requires human approval"
  decision.wakeConditions.forM (validateWake policy workflowNow)
  return decision

/-! ### What an accepted decision satisfies -/

lemma ok_of_bind {ε α β : Type} {x : Except ε α} {f : α → Except ε β} {b : β}
    (h : x >>= f = .ok b) : ∃ a, x = .ok a ∧ f a = .ok b := by
  cases x with
  | error e => cases h
  | ok a => exact ⟨a, rfl, h⟩

lemma requireThat_eq_ok {c : Bool} {message : String} {u : Unit}
    (h : requireThat c message = .ok u) : c = true := by
  rw [requireThat] at h
  split at h
  · assumption
  · cases h

lemma requireThat_iff {c : Bool} {message : String} :
    requireThat c message = .ok () ↔ c = true := by
  refine ⟨requireThat_eq_ok, ?_⟩
  rintro rfl
  rfl

/-- A sequence of checks passes iff each of them does. -/
lemma check_bind_iff {ε α : Type} {x : Except ε Unit} {y : Except ε α} {a : α} :
    (do x; y) = .ok a ↔ x = .ok () ∧ y = .ok a := by
  cases x with
  | error e =>
      constructor
      · exact fun h => nomatch h
      · exact fun h => nomatch h.1
  | ok u => exact (and_iff_right rfl).symm

lemma forM_ok_iff {ε α : Type} {l : List α} {check : α → Except ε PUnit} :
    l.forM check = .ok () ↔ ∀ a ∈ l, check a = .ok () := by
  induction l with
  | nil => simp [List.forM, pure, Except.pure]
  | cons a rest ih =>
      rw [List.forall_mem_cons, ← ih]
      exact check_bind_iff

/-- An accepted decision names the events and the action results of its turn, and a completion
that is accepted meets the requirements of its policy. -/
lemma validateDecision_eq_ok {V : Type} [BEq V] {identity : String → Parameters → String}
    {decision d : AgentDecision} {policy : DecisionPolicy V} {workflowNow : Time}
    {expected : ExpectedSources} {conflicted : List String} {facts : List (String × V)}
    (h : validateDecision identity decision policy workflowNow expected conflicted (some facts) true
      = .ok d) :
    expected.eventIds.elim true (sameSet decision.basedOnEventIds ·) = true ∧
      expected.actionAttemptIds.elim true (sameSet decision.basedOnActionAttemptIds ·) = true ∧
      (decision.status = .completed →
        unsatisfiedRequirements facts policy.completionRequirements = []) := by
  rw [validateDecision] at h
  obtain ⟨_, hevents, h⟩ := ok_of_bind h
  obtain ⟨_, -, h⟩ := ok_of_bind h
  obtain ⟨_, hattempts, h⟩ := ok_of_bind h
  iterate 8 obtain ⟨_, -, h⟩ := ok_of_bind h
  refine ⟨requireThat_eq_ok hevents, requireThat_eq_ok hattempts, fun hstatus => ?_⟩
  by_cases hreq : policy.completionRequirements = []
  · rw [hreq]
    rfl
  · rw [if_pos ⟨rfl, hstatus, hreq⟩] at h
    obtain ⟨_, hunsatisfied, -⟩ := ok_of_bind h
    simpa using requireThat_eq_ok hunsatisfied

/-- An active decision that is accepted proposes an action or names a wake condition. -/
lemma validateDecision_active {V : Type} [BEq V] {identity : String → Parameters → String}
    {decision d : AgentDecision} {policy : DecisionPolicy V} {workflowNow : Time}
    {expected : ExpectedSources} {conflicted : List String} {facts : Option (List (String × V))}
    {enforce : Bool}
    (h : validateDecision identity decision policy workflowNow expected conflicted facts enforce
      = .ok d) (hactive : decision.status = .active) :
    decision.actions ≠ [] ∨ decision.wakeConditions ≠ [] := by
  rw [validateDecision] at h
  iterate 11 obtain ⟨_, -, h⟩ := ok_of_bind h
  dsimp only at h
  rw [if_neg (by simp [hactive])] at h
  obtain ⟨_, hprogress, -⟩ := ok_of_bind h
  by_contra hnone
  rw [not_or, not_not, not_not] at hnone
  simp [requireThat, hactive, hnone.1, hnone.2] at hprogress

/-- The computation returns nothing but a value. -/
def Returns {α : Type} (a : α) (x : Except String α) : Prop := ∀ b, x = .ok b → b = a

lemma Returns.bind {α β : Type} {a : α} {x : Except String β} {f : β → Except String α}
    (h : ∀ b, Returns a (f b)) : Returns a (x >>= f) := by
  intro c hc
  obtain ⟨b, -, hb⟩ := ok_of_bind hc
  exact h b c hb

/-- An accepted decision is unchanged. -/
lemma validateDecision_unchanged {V : Type} [BEq V] (identity : String → Parameters → String)
    (decision : AgentDecision) (policy : DecisionPolicy V) (workflowNow : Time)
    (expected : ExpectedSources) (conflicted : List String) (facts : Option (List (String × V)))
    (enforce : Bool) :
    Returns decision
      (validateDecision identity decision policy workflowNow expected conflicted facts enforce) := by
  rw [validateDecision]
  iterate 11 refine .bind fun _ => ?_
  dsimp only
  -- the check of a completion stands before the last four
  split_ifs
  · split
    · iterate 5 refine .bind fun _ => ?_
      exact fun d h => (Except.ok.inj h).symm
    · iterate 5 refine .bind fun _ => ?_
      exact fun d h => (Except.ok.inj h).symm
  · iterate 4 refine .bind fun _ => ?_
    exact fun d h => (Except.ok.inj h).symm

end TiramisuAgents
