import TiramisuAgents.Actions.Gateway
import TiramisuAgents.Budgets.Turns
import TiramisuAgents.Core.CompletionValues

/-!
Payloads that have returned a conflict: the checks of `validate_decision`, as `run_agent_turn`
calls it (`temporal/activities/agent_turn.py`), and of `persist_decision` (`actions/gateway.py`).

Both hash the parameters of the conflicted revision as they are read back from a `JSONB` column,
and compare with the hash of what the model proposes.

* `validateDecision_conflicted`, `persistActions_conflicted`: on a decision that is acceptable
  otherwise, each check is the question whether some action has a conflicted hash.
* `JsonbColumn`: what a column returns.
* `conflict_checks_iff`: the checks find the payloads as they were proposed, up to the order of
  keys, iff the column has returned every number of these payloads unchanged.
-/

namespace TiramisuAgents

open Json

/-- The error of both checks. -/
def repeatedPayload : String :=
  "decision repeats an action payload that just returned a definitive conflict"

/-- Some action has one of the hashes. -/
def Repeats (identity : String → Parameters → String) (conflicted : List String)
    (actions : List ActionProposal) : Prop :=
  ∃ action ∈ actions, identity action.actionType action.parameters ∈ conflicted

/-! ### The turn -/

section

variable {identity : String → Parameters → String} {decision : AgentDecision} {V : Type}
  {policy : DecisionPolicy V} {conflicted keys : List String} {actions : List ActionProposal}

lemma requireThat_of {c : Bool} {message : String} (h : c = true) :
    requireThat c message = .ok () := by
  rw [requireThat, if_pos h]

/-- Actions that are accepted have different keys. -/
lemma validateActions_keys (h : validateActions identity policy conflicted keys actions = .ok ()) :
    (actions.map ActionProposal.logicalActionKey).Nodup ∧
      ∀ action ∈ actions, action.logicalActionKey ∉ keys := by
  induction actions generalizing keys with
  | nil => exact ⟨List.nodup_nil, nofun⟩
  | cons action rest ih =>
      rw [validateActions] at h
      obtain ⟨_, -, h⟩ := ok_of_bind h
      obtain ⟨_, hkey, h⟩ := ok_of_bind h
      obtain ⟨_, -, h⟩ := ok_of_bind h
      obtain ⟨hnodup, hnew⟩ := ih h
      have hkey' : action.logicalActionKey ∉ keys := by simpa using requireThat_eq_ok hkey
      rw [List.map_cons, List.nodup_cons, List.forall_mem_cons]
      refine ⟨⟨fun hmem => ?_, hnodup⟩, hkey', fun a ha hmem => ?_⟩
      · obtain ⟨a, ha, heq⟩ := List.mem_map.mp hmem
        exact hnew a ha (List.mem_cons.mpr (.inl heq))
      · exact hnew a ha (List.mem_cons_of_mem _ hmem)

/-- Without conflicts there is nothing to repeat. -/
lemma validateActions_of_not_repeats (h : ¬ Repeats identity conflicted actions) :
    validateActions identity policy conflicted keys actions
      = validateActions identity policy [] keys actions := by
  induction actions generalizing keys with
  | nil => rfl
  | cons action rest ih =>
      have haction : identity action.actionType action.parameters ∉ conflicted := fun hmem =>
        h ⟨action, List.mem_cons_self, hmem⟩
      have hrest : ¬ Repeats identity conflicted rest := fun ⟨a, ha, hmem⟩ =>
        h ⟨a, List.mem_cons_of_mem _ ha, hmem⟩
      rw [validateActions, validateActions, ih hrest]
      simp [haction]

/-- Actions that are accepted otherwise are rejected for a payload that is repeated. -/
lemma validateActions_of_repeats
    (hok : validateActions identity policy [] keys actions = .ok ())
    (h : Repeats identity conflicted actions) :
    validateActions identity policy conflicted keys actions = .error repeatedPayload := by
  induction actions generalizing keys with
  | nil => obtain ⟨_, hmem, -⟩ := h; cases hmem
  | cons action rest ih =>
      rw [validateActions] at hok
      obtain ⟨_, hallowed, hok⟩ := ok_of_bind hok
      obtain ⟨_, hkey, hok⟩ := ok_of_bind hok
      obtain ⟨_, -, hok⟩ := ok_of_bind hok
      rw [validateActions, bind_of_ok hallowed, bind_of_ok hkey]
      by_cases haction : identity action.actionType action.parameters ∈ conflicted
      · simp [requireThat, haction, repeatedPayload, bind, Except.bind]
      · have hrest : Repeats identity conflicted rest := by
          obtain ⟨a, ha, hmem⟩ := h
          rcases List.mem_cons.mp ha with rfl | ha
          · exact absurd hmem haction
          · exact ⟨a, ha, hmem⟩
        rw [bind_of_ok (requireThat_of (by simp [haction])), ih hok hrest]

variable [BEq V] {workflowNow : Time} {expected : ExpectedSources} {facts : List (String × V)}

/-- The actions of a valid decision are accepted. -/
lemma validateDecision_actions {d : AgentDecision}
    (h : validateDecision identity decision policy workflowNow expected conflicted (some facts) true
      = .ok d) : validateActions identity policy conflicted [] decision.actions = .ok () := by
  rw [validateDecision] at h
  iterate 11 obtain ⟨_, -, h⟩ := ok_of_bind h
  dsimp only at h
  -- the check of a completion stands before the actions
  split_ifs at h
  · obtain ⟨_, -, h⟩ := ok_of_bind h
    obtain ⟨_, -, h⟩ := ok_of_bind h
    obtain ⟨_, hactions, -⟩ := ok_of_bind h
    exact hactions
  · obtain ⟨_, -, h⟩ := ok_of_bind h
    obtain ⟨_, hactions, -⟩ := ok_of_bind h
    exact hactions

/-- The check of the turn, on a decision that is valid otherwise. -/
lemma validateDecision_conflicted
    (hvalid : validateDecision identity decision policy workflowNow expected [] (some facts) true
      = .ok decision) :
    validateDecision identity decision policy workflowNow expected conflicted (some facts) true
        = .error repeatedPayload ↔
      Repeats identity conflicted decision.actions := by
  by_cases hrepeats : Repeats identity conflicted decision.actions
  · refine iff_of_true ?_ hrepeats
    rw [validateDecision] at hvalid ⊢
    obtain ⟨_, h₁, hvalid⟩ := ok_of_bind hvalid
    obtain ⟨_, h₂, hvalid⟩ := ok_of_bind hvalid
    obtain ⟨_, h₃, hvalid⟩ := ok_of_bind hvalid
    obtain ⟨_, h₄, hvalid⟩ := ok_of_bind hvalid
    obtain ⟨_, h₅, hvalid⟩ := ok_of_bind hvalid
    obtain ⟨_, h₆, hvalid⟩ := ok_of_bind hvalid
    obtain ⟨_, h₇, hvalid⟩ := ok_of_bind hvalid
    obtain ⟨_, h₈, hvalid⟩ := ok_of_bind hvalid
    obtain ⟨_, h₉, hvalid⟩ := ok_of_bind hvalid
    obtain ⟨_, h₁₀, hvalid⟩ := ok_of_bind hvalid
    obtain ⟨_, h₁₁, hvalid⟩ := ok_of_bind hvalid
    rw [bind_of_ok h₁, bind_of_ok h₂, bind_of_ok h₃, bind_of_ok h₄, bind_of_ok h₅, bind_of_ok h₆,
      bind_of_ok h₇, bind_of_ok h₈, bind_of_ok h₉, bind_of_ok h₁₀, bind_of_ok h₁₁]
    dsimp only at hvalid ⊢
    -- the check of a completion stands before the actions
    split_ifs at hvalid ⊢
    · obtain ⟨_, hcompletion, hvalid⟩ := ok_of_bind hvalid
      obtain ⟨_, hactive, hvalid⟩ := ok_of_bind hvalid
      obtain ⟨_, hactions, -⟩ := ok_of_bind hvalid
      rw [bind_of_ok hcompletion, bind_of_ok hactive, validateActions_of_repeats hactions hrepeats]
      rfl
    · obtain ⟨_, hactive, hvalid⟩ := ok_of_bind hvalid
      obtain ⟨_, hactions, -⟩ := ok_of_bind hvalid
      rw [bind_of_ok hactive, validateActions_of_repeats hactions hrepeats]
      rfl
  · refine iff_of_false (fun h => ?_) hrepeats
    have hsame : validateDecision identity decision policy workflowNow expected conflicted
          (some facts) true
        = validateDecision identity decision policy workflowNow expected [] (some facts) true := by
      rw [validateDecision, validateDecision, validateActions_of_not_repeats hrepeats]
    rw [hsame, hvalid] at h
    cases h

end

/-! ### The gateway -/

namespace ActionGateway

section

variable {G : Encoding} {world : Surroundings} {call : PersistCall} {tables tables' : ActionTables}
  {targets : List (UUID × String)} {conflicted : List String} {used : List UUID}
  {actions : List ActionProposal} {ps : List PersistedAction}

/-- New actions that are accepted otherwise are refused for a payload that is repeated, and
accepted without one. -/
lemma persistActions_conflicted
    (hok : persistActions G world call targets [] used actions tables = .ok (tables', ps))
    (hnew : ∀ action ∈ actions, tables.entry call.agentTurnId action.logicalActionKey = none)
    (hkeys : (actions.map ActionProposal.logicalActionKey).Nodup) :
    persistActions G world call targets conflicted used actions tables = .error repeatedPayload ↔
      Repeats G.actionPayloadIdentity conflicted actions := by
  induction actions generalizing used tables ps with
  | nil => exact iff_of_false nofun fun ⟨_, hmem, _⟩ => nomatch hmem
  | cons action rest ih =>
      rw [List.map_cons, List.nodup_cons] at hkeys
      have hnone := hnew action List.mem_cons_self
      rw [persistActions, hnone] at hok
      obtain ⟨_, hadmitted, hok⟩ := ok_of_bind hok
      obtain ⟨⟨tables₁, p⟩, hp, hok⟩ := ok_of_bind hok
      obtain ⟨⟨tables₂, others⟩, hrest, hok⟩ := ok_of_bind hok
      obtain rfl := (Prod.mk.inj (Except.ok.inj hok)).1
      obtain ⟨-, -, -, -, hentries⟩ := persistAction_ok [] hp
      have hnew' : ∀ a ∈ rest, tables₁.entry call.agentTurnId a.logicalActionKey = none := by
        intro a ha
        have hne : a.logicalActionKey ≠ action.logicalActionKey := fun heq =>
          hkeys.1 (heq ▸ List.mem_map_of_mem ha)
        rw [hentries _ hne]
        exact hnew a (List.mem_cons_of_mem _ ha)
      rw [persistActions, hnone]
      rw [requireNewAction] at hadmitted ⊢
      obtain ⟨_, -, hadmitted⟩ := ok_of_bind hadmitted
      by_cases haction : G.actionPayloadHash action ∈ conflicted
      · refine iff_of_true ?_ ⟨action, List.mem_cons_self, haction⟩
        simp [requireThat, haction, repeatedPayload, bind, Except.bind]
      · have hfree : requireThat (!conflicted.contains (G.actionPayloadHash action))
            "decision repeats an action payload that just returned a definitive conflict"
              = .ok () := requireThat_of (by simp [haction])
        have hrepeats : Repeats G.actionPayloadIdentity conflicted (action :: rest) ↔
            Repeats G.actionPayloadIdentity conflicted rest := by
          constructor
          · rintro ⟨a, ha, hmem⟩
            rcases List.mem_cons.mp ha with rfl | ha
            · exact absurd hmem haction
            · exact ⟨a, ha, hmem⟩
          · rintro ⟨a, ha, hmem⟩
            exact ⟨a, List.mem_cons_of_mem _ ha, hmem⟩
        rw [bind_of_ok hfree, bind_of_ok hadmitted, bind_of_ok hp, hrepeats,
          ← ih hrest hnew' hkeys.2]
        dsimp only
        cases persistActions G world call targets conflicted _ rest tables₁ with
        | error message => exact Iff.rfl
        | ok result => exact iff_of_false (fun h => by cases h) fun h => by cases h

end

/-! ### The conflicts of a turn -/

/-- An attempt among the given ones has returned a conflict for these parameters, as they were
proposed. -/
def ActionTables.Conflicted (tables : ActionTables) (actionAttemptIds : List UUID)
    (actionType : String) (parameters : Parameters) : Prop :=
  ∃ a ∈ tables.attempts, a.id ∈ actionAttemptIds ∧ a.status = .conflict ∧
    ∃ e, tables.request a.actionRequestId = some e ∧ e.actionType = actionType ∧
      ∃ r, e.revision = some r ∧ r.parameters = parameters

/-- A row of the query that loads the action results of a turn: the attempt, with its request and
its revision. -/
def ActionTables.actionResult (G : Encoding) (tables : ActionTables) (attemptId : UUID) :
    Option (String × Parameters × ActionAttemptStatus) := do
  let attempt ← Tables.lookup AttemptEntry.id attemptId tables.attempts
  let request ← tables.request attempt.actionRequestId
  let revision ← request.revision
  return (request.actionType, G.jsonb revision.parameters, attempt.status)

variable {G : Encoding} {tables : ActionTables} {ids : List UUID}

/-- The hashes of the gateway are those of the conflicts. -/
lemma ActionTables.mem_conflictedPayloadHashes {hash : String} :
    hash ∈ tables.conflictedPayloadHashes G ids ↔ ∃ actionType parameters,
      tables.Conflicted ids actionType parameters ∧
      G.actionPayloadIdentity actionType (G.jsonb parameters) = hash := by
  rw [conflictedPayloadHashes, List.mem_filterMap]
  constructor
  · rintro ⟨a, ha, h⟩
    obtain ⟨hmem, hcited⟩ := List.mem_filter.mp ha
    obtain ⟨hid, hstatus⟩ := of_decide_eq_true hcited
    obtain ⟨e, he, h⟩ := Option.bind_eq_some_iff.mp h
    obtain ⟨r, hr, rfl⟩ := Option.map_eq_some_iff.mp h
    exact ⟨e.actionType, r.parameters, ⟨a, hmem, hid, hstatus, e, he, rfl, r, hr, rfl⟩, rfl⟩
  · rintro ⟨_, _, ⟨a, hmem, hid, hstatus, e, he, rfl, r, hr, rfl⟩, rfl⟩
    refine ⟨a, List.mem_filter.mpr ⟨hmem, decide_eq_true ⟨hid, hstatus⟩⟩, ?_⟩
    rw [he, Option.bind_some, hr, Option.map_some]

/-- The hashes of the turn are those of the conflicts among its results. -/
lemma mem_conflicted {V β : Type} {W : Budgets.TurnWorker V β} {input : Budgets.AgentTurnInput V}
    (hresults : ∀ r ∈ input.actionResults,
      tables.actionResult G r.source.id = some (r.actionType, r.parameters, r.status))
    {hash : String} :
    hash ∈ W.conflicted input ↔ ∃ actionType parameters,
      tables.Conflicted (input.actionResults.map (·.source.id)) actionType parameters ∧
      W.identity actionType (G.jsonb parameters) = hash := by
  have hrow : ∀ r ∈ input.actionResults, ∃ a ∈ tables.attempts, a.id = r.source.id ∧
      a.status = r.status ∧ ∃ e, tables.request a.actionRequestId = some e ∧
        e.actionType = r.actionType ∧ ∃ rev, e.revision = some rev ∧
          G.jsonb rev.parameters = r.parameters := by
    intro r hr
    obtain ⟨a, ha, h⟩ := Option.bind_eq_some_iff.mp (hresults r hr)
    obtain ⟨e, he, h⟩ := Option.bind_eq_some_iff.mp h
    obtain ⟨rev, hrev, h⟩ := Option.bind_eq_some_iff.mp h
    obtain ⟨htype, h⟩ := Prod.mk.inj (Option.some.inj h)
    obtain ⟨hparameters, hstatus⟩ := Prod.mk.inj h
    obtain ⟨hmem, hid⟩ := Tables.lookup_mem ha
    exact ⟨a, hmem, hid, hstatus, e, he, htype, rev, hrev, hparameters⟩
  rw [Budgets.TurnWorker.conflicted, List.mem_map]
  constructor
  · rintro ⟨r, hr, rfl⟩
    obtain ⟨hmem, hconflict⟩ := List.mem_filter.mp hr
    obtain ⟨a, ha, hid, hstatus, e, he, htype, rev, hrev, hparameters⟩ := hrow r hmem
    refine ⟨r.actionType, rev.parameters, ⟨a, ha, ?_, ?_, e, he, htype, rev, hrev, rfl⟩, ?_⟩
    · rw [hid]
      exact List.mem_map.mpr ⟨r, hmem, rfl⟩
    · rw [hstatus]
      exact of_decide_eq_true hconflict
    · rw [hparameters]
  · rintro ⟨_, _, ⟨a, ha, hid, hstatus, e, he, rfl, rev, hrev, rfl⟩, rfl⟩
    obtain ⟨r, hmem, hr⟩ := List.mem_map.mp hid
    obtain ⟨a', ha', hid', hstatus', e', he', htype, rev', hrev', hparameters⟩ := hrow r hmem
    -- the attempt has one row
    obtain rfl : a = a' := tables.constraints.attemptIds.eq_of_mem ha ha' (hr.symm.trans hid'.symm)
    obtain rfl : e = e' := Option.some.inj (he.symm.trans he')
    obtain rfl : rev = rev' := Option.some.inj (hrev.symm.trans hrev')
    refine ⟨r, List.mem_filter.mpr ⟨hmem, decide_eq_true (hstatus'.symm.trans hstatus)⟩, ?_⟩
    rw [← htype, ← hparameters]

end ActionGateway

/-! ### Storage -/

section

variable {F : Type} [FloatValues F] [DecidableEq F]

/-- A `JSONB` column: it returns strings and structure unchanged, up to the order of keys.  A
number comes back as it is, or, without a fraction, as the integer of its value. -/
structure JsonbColumn (N : NumberTexts F) (content : Parameters → JsonObject F) where
  jsonb : Parameters → Parameters
  stored : JsonNumber F → JsonNumber F
  stored_int : ∀ z, stored (.int z) = .int z
  stored_cases : ∀ n, stored n = n ∨ ∃ z : ℤ, stored n = .int z ∧ n.value = z
  content_jsonb : ∀ p, JsonEncodable N (content p).value →
    (content (jsonb p)).value.same ((content p).value.map (JsonAtom.reread stored)) = true

omit [FloatValues F] [DecidableEq F] in
/-- The gateway's encoding over the contents of parameters. -/
def jsonEncoding (N : NumberTexts F) (sha256 : PyString → String)
    (content : Parameters → JsonObject F) (jsonb : Parameters → Parameters) :
    ActionGateway.Encoding where
  actionPayloadIdentity actionType p := actionPayloadIdentity N sha256 actionType (content p)
  requireActionParameters p :=
    (content p).requireActionParameters N "action parameters" 100 (32 * 1024)
  jsonb := jsonb

/-- Parameters that `require_action_parameters` has accepted; their text is the canonical one. -/
structure AcceptedParameters (N : NumberTexts F) (content : Parameters → JsonObject F)
    (p : Parameters) :
    Prop where
  accepted : (content p).requireActionParameters N "action parameters" 100 (32 * 1024) = .ok ()
  fields : p.fields = (content p).fields.length
  text : ∀ bytes, canonicalJsonBytes N (content p).value "action parameters" = .ok bytes →
    p.text.utf8ByteSize = bytes.length

/-- A decision that both checks accept, apart from conflicts: it is valid for the turn, and the
gateway would store its actions, which are new. -/
structure AcceptedOtherwise {V β : Type} [BEq V] (G : ActionGateway.Encoding)
    (W : Budgets.TurnWorker V β) (input : Budgets.AgentTurnInput V)
    (tables : ActionGateway.ActionTables) (policy : DecisionPolicy V) (workflowNow : Time)
    (world : ActionGateway.Surroundings) (call : ActionGateway.PersistCall)
    (targets : List (UUID × String)) : Prop where
  order : targets.Perm (tables.revisionTargets call.decision.basedOnReviewCommandIds)
  new : ∀ action ∈ call.decision.actions,
    tables.entry call.agentTurnId action.logicalActionKey = none
  valid : validateDecision W.identity call.decision policy workflowNow
    { eventIds := some (input.events.map (·.id))
      reviewCommandIds := some input.reviewCommandIds
      actionAttemptIds := some (input.actionResults.map (·.source.id))
      timerIds := some input.timerIds }
    [] (some (prospectiveFacts input.authoritativeFacts input.events
      (input.actionResults.map (·.source)))) true = .ok call.decision
  opened : ActionGateway.requireOpen world tables.process = .ok ()
  persisted : ∃ result, ActionGateway.persistActions G world call targets [] []
    call.decision.actions tables = .ok result

/-- Some action has the type of a payload with a conflict and the same JSON parameters, as that
payload was proposed. -/
def RepeatsProposal (content : Parameters → JsonObject F) (tables : ActionGateway.ActionTables)
    (actionAttemptIds : List UUID) (actions : List ActionProposal) : Prop :=
  ∃ action ∈ actions, ∃ p, tables.Conflicted actionAttemptIds action.actionType p ∧
    (content action.parameters).value.same (content p).value = true

variable {N : NumberTexts F} {sha256 : PyString → String} {content : Parameters → JsonObject F}
  {p o : Parameters}

omit [FloatValues F] [DecidableEq F] in
lemma requireWithin_le {unit label : String} {actual limit : ℕ} {u : Unit}
    (h : requireWithin unit label actual limit = .ok u) : actual ≤ limit := by
  rw [requireWithin] at h
  split_ifs at h with hlt
  exact Nat.le_of_not_gt hlt

omit [FloatValues F] [DecidableEq F] in
/-- What is accepted can be encoded, and is within the limits. -/
lemma encodable_of_accepted
    (h : (content p).requireActionParameters N "action parameters" 100 (32 * 1024) = .ok ()) :
    JsonEncodable N (content p).value ∧ (content p).fields.length ≤ 100 ∧
      ∃ bytes, canonicalJsonBytes N (content p).value "action parameters" = .ok bytes ∧
        bytes.length ≤ 32 * 1024 := by
  rw [JsonObject.requireActionParameters] at h
  obtain ⟨_, hfields, h⟩ := ok_of_bind h
  obtain ⟨bytes, hbytes, h⟩ := ok_of_bind h
  exact ⟨canonicalJsonBytes_ok_iff.mp ⟨bytes, hbytes⟩, requireWithin_le hfields, bytes, hbytes,
    requireWithin_le h⟩

namespace JsonbColumn

variable (J : JsonbColumn N content)

lemma reread_reread (a : JsonAtom F) :
    (a.reread J.stored).reread J.stored = a.reread J.stored := by
  cases a with
  | number n =>
      simp only [JsonAtom.reread]
      rcases J.stored_cases n with h | ⟨z, h, -⟩
      · rw [h, h]
      · rw [h, J.stored_int]
  | null | bool _ | string _ => rfl

/-- What is read back can be encoded. -/
lemma encodable_reread {v : JsonValue F} (h : JsonEncodable N v) :
    JsonEncodable N (v.map (JsonAtom.reread J.stored)) := by
  refine Value.All.map h fun a ha => ?_
  cases a with
  | number n =>
      rcases J.stored_cases n with hn | ⟨z, hn, -⟩
      · rw [JsonAtom.reread, hn]
        exact ha
      · rw [JsonAtom.reread, hn]
        exact N.finite_int z
  | null | bool _ | string _ => exact ha

/-- The hash of what is read back is that of a proposal iff the types are the same, and the
parameters are those that are read back. -/
lemma identity_jsonb_iff (hsha : Function.Injective sha256) {t t' : String}
    (hp : JsonEncodable N (content p).value) (ho : JsonEncodable N (content o).value) :
    (jsonEncoding N sha256 content J.jsonb).actionPayloadIdentity t' (J.jsonb o)
        = (jsonEncoding N sha256 content J.jsonb).actionPayloadIdentity t p ↔
      t' = t ∧
        (content p).value.same ((content o).value.map (JsonAtom.reread J.stored)) = true := by
  have hread : actionPayloadIdentity N sha256 t' (content (J.jsonb o))
      = actionPayloadIdentity N sha256 t' ((content o).reread J.stored) := by
    rw [actionPayloadIdentity, actionPayloadIdentity]
    congr 1
    refine Format.text_eq_of_same actionPayload_wellFormed (actionPayload_same_iff.mpr ⟨rfl, ?_⟩)
    rw [JsonObject.reread_value]
    exact J.content_jsonb o ho
  have hreread := J.encodable_reread ho
  rw [← JsonObject.reread_value] at hreread ⊢
  change actionPayloadIdentity N sha256 t' (content (J.jsonb o))
    = actionPayloadIdentity N sha256 t (content p) ↔ _
  rw [hread, eq_comm, actionPayloadIdentity_eq_iff hsha hp hreread]
  exact and_congr_left fun _ => eq_comm

end JsonbColumn

lemma active_waits : DecisionStatus.active = .waiting → ([] : List WakeCondition) ≠ [] := nofun

/-- A decision of a turn with one action. -/
def soleProposal {V : Type} (input : Budgets.AgentTurnInput V) (action : ActionProposal) :
    AgentDecision where
  decisionId := ""
  basedOnEventIds := input.events.map (·.id)
  basedOnReviewCommandIds := input.reviewCommandIds
  basedOnActionAttemptIds := input.actionResults.map (·.source.id)
  basedOnTimerIds := input.timerIds
  status := .active
  actions := [action]
  waitingWakes := active_waits

omit [FloatValues F] [DecidableEq F] in
/-- It is valid, if its type is allowed and its parameters are within the limits. -/
lemma soleProposal_valid {V : Type} [BEq V] (identity : String → Parameters → String)
    {policy : DecisionPolicy V} (input : Budgets.AgentTurnInput V) (action : ActionProposal)
    (facts : List (String × V)) (htype : action.actionType ∈ policy.allowedActionTypes)
    (hcount : 1 ≤ policy.maxActionsPerTurn)
    (hfields : action.parameters.fields ≤ policy.maxActionParameterFields)
    (htext : action.parameters.text.utf8ByteSize ≤ policy.maxActionParametersBytes)
    (hcommitments : jsonStringsBytes [] ≤ policy.maxOpenCommitmentsBytes) :
    validateDecision identity (soleProposal input action) policy 0
        { eventIds := some (input.events.map (·.id))
          reviewCommandIds := some input.reviewCommandIds
          actionAttemptIds := some (input.actionResults.map (·.source.id))
          timerIds := some input.timerIds }
        [] (some facts) true = .ok (soleProposal input action) := by
  simp [validateDecision, requireSources, sameSet_self, requireDecisionLimits, soleProposal,
    requireThat, requireItemCount, requireJsonBytes, requireWithin, validateActions, htype, hcount,
    hfields.not_gt, htext.not_gt, hcommitments.not_gt, bind, Except.bind, pure, Except.pure]

/-- Parameters that are accepted can be stored, for a type that is allowed. -/
lemma exists_persistActions {G : ActionGateway.Encoding} {tables : ActionGateway.ActionTables}
    (world : ActionGateway.Surroundings) (call : ActionGateway.PersistCall)
    (action : ActionProposal)
    (targets : List (UUID × String)) (hclosed : world.openForCapability action.actionType = none)
    (hinbound : world.outboundActionTypes = none)
    (hallow : (call.policy.evaluate action).outcome = .allow)
    (hparameters : G.requireActionParameters action.parameters = .ok ())
    (hkey : ∀ e ∈ tables.entries, e.logicalActionKey ≠ action.logicalActionKey)
    (hid : ∀ e ∈ tables.entries, e.id ≠ action.actionRequestId) :
    ∃ result, ActionGateway.persistActions G world call targets [] [] [action] tables
      = .ok result := by
  have hnone : tables.entry call.agentTurnId action.logicalActionKey = none :=
    Tables.lookup_eq_none.mpr fun e he heq => hkey e he (Prod.mk.inj heq).2
  have hput (supersedes : Option UUID) : ∃ tables', tables.put
      { ActionGateway.newRequest call supersedes action with
        revision := some (ActionGateway.newRevision G call action)
        policy := some (call.policy.evaluate action) } = .ok tables' :=
    ActionGateway.ActionTables.put_new (fun e he heq => hkey e he (Prod.mk.inj heq).2) hid rfl rfl
  obtain ⟨tables', htables'⟩ := hput (Matching.firstFree targets [] action.actionType)
  refine ⟨(tables', [{ actionRequestId := action.actionRequestId
                       revision := 1
                       payloadHash := G.actionPayloadHash action
                       outcome := .allow
                       status := .allowed
                       approvalRequestId := none
                       reviewThreadId := none }]), ?_⟩
  simp only [ActionGateway.newRequest, ActionGateway.newRevision, hallow] at htables'
  simp [ActionGateway.persistActions, hnone, ActionGateway.requireNewAction, hclosed, hinbound,
    ActionGateway.requireClosed, ActionGateway.persistAction, hparameters, requireThat,
    ActionGateway.newRequest, ActionGateway.newRevision, ActionGateway.settleReview, hallow, bind,
    Except.bind, pure, Except.pure]
  rw [htables']
  rfl

omit [FloatValues F] [DecidableEq F] in
/-- Accepted parameters can be proposed, by a decision that is accepted apart from conflicts. -/
lemma exists_acceptedOtherwise {V β : Type} [BEq V] (sha256 : PyString → String)
    (W : Budgets.TurnWorker V β) (tables : ActionGateway.ActionTables)
    (jsonb : Parameters → Parameters) (t : String) (input : Budgets.AgentTurnInput V)
    (ho : AcceptedParameters N content o)
    (hopen : ∃ status, tables.process = some status ∧ status.fenced = false) :
    ∃ policy workflowNow world call targets,
      AcceptedOtherwise (jsonEncoding N sha256 content jsonb) W input tables policy workflowNow
        world call targets ∧
      ∃ action, call.decision.actions = [action] ∧ action.actionType = t ∧
        action.parameters = o := by
  obtain ⟨key, hkey⟩ := Infinite.exists_notMem_finset
    (tables.entries.map ActionGateway.ActionEntry.logicalActionKey).toFinset
  obtain ⟨id, hid⟩ := Infinite.exists_notMem_finset
    (tables.entries.map ActionGateway.ActionEntry.id).toFinset
  simp only [List.mem_toFinset, List.mem_map, not_exists, not_and] at hkey hid
  obtain ⟨status, hprocess, hfenced⟩ := hopen
  obtain ⟨-, hfields, bytes, hbytes, hlength⟩ := encodable_of_accepted ho.accepted
  let action : ActionProposal := ⟨id, key, t, o, ""⟩
  let policy : DecisionPolicy V :=
    { allowedActionTypes := [t]
      allowedWakeEventTypes := []
      human_subset := fun _ h => absurd h List.not_mem_nil }
  let world : ActionGateway.Surroundings :=
    { newApprovalId := fun id => id, newThreadId := fun id => id }
  let call : ActionGateway.PersistCall :=
    { agentTurnId := ""
      processDefinitionVersion := ""
      decision := soleProposal input action
      policy := { permissions := [(t, .allow)], version := "" } }
  have hallow : (call.policy.evaluate action).outcome = .allow := by
    simp [ConfiguredActionPolicy.evaluate, call, action]
  refine ⟨policy, 0, world, call,
    tables.revisionTargets call.decision.basedOnReviewCommandIds, ?_, action, rfl, rfl, rfl⟩
  exact
    { order := .refl _
      new := List.forall_mem_singleton.mpr
        (Tables.lookup_eq_none.mpr fun e he heq => hkey e he (Prod.mk.inj heq).2)
      valid := soleProposal_valid W.identity input action _ List.mem_cons_self (by decide : 1 ≤ 5)
        (ho.fields.trans_le hfields) ((ho.text bytes hbytes).trans_le hlength)
        (by decide : jsonStringsBytes [] ≤ 32 * 1024)
      opened := by
        rw [hprocess, ActionGateway.requireOpen, bind_of_ok (requireThat_of (by simp [hfenced]))]
        rfl
      persisted := exists_persistActions world call action _ rfl rfl hallow ho.accepted hkey hid }

/-- Both checks ask for the conflicts of the same attempts. -/
lemma AcceptedOtherwise.checks_iff {V β : Type} [BEq V] {J : JsonbColumn N content}
    {W : Budgets.TurnWorker V β} {tables : ActionGateway.ActionTables}
    {input : Budgets.AgentTurnInput V} {policy : DecisionPolicy V} {workflowNow : Time}
    {world : ActionGateway.Surroundings} {call : ActionGateway.PersistCall}
    {targets : List (UUID × String)} (hsha : Function.Injective sha256)
    (hW : W.identity = (jsonEncoding N sha256 content J.jsonb).actionPayloadIdentity)
    (hresults : ∀ r ∈ input.actionResults,
      tables.actionResult (jsonEncoding N sha256 content J.jsonb) r.source.id
        = some (r.actionType, r.parameters, r.status))
    (hconflicted : ∀ t o, tables.Conflicted (input.actionResults.map (·.source.id)) t o →
      AcceptedParameters N content o)
    (h : AcceptedOtherwise (jsonEncoding N sha256 content J.jsonb) W input tables policy workflowNow
      world call targets) :
    (W.validate input policy workflowNow call.decision = .error repeatedPayload ↔
      ActionGateway.persistDecision (jsonEncoding N sha256 content J.jsonb) world call targets
        tables = .error repeatedPayload) ∧
    (W.validate input policy workflowNow call.decision = .error repeatedPayload ↔
      ∃ action ∈ call.decision.actions, ∃ o,
        tables.Conflicted (input.actionResults.map (·.source.id)) action.actionType o ∧
        (content action.parameters).value.same
          ((content o).value.map (JsonAtom.reread J.stored)) = true) := by
  have hids : ∀ id, id ∈ call.decision.basedOnActionAttemptIds ↔
      id ∈ input.actionResults.map (·.source.id) :=
    sameSet_iff.mp (validateDecision_eq_ok h.valid).2.1
  have hkeys := (validateActions_keys (validateDecision_actions h.valid)).1
  obtain ⟨⟨tables', ps⟩, hok⟩ := h.persisted
  have hparameters := ActionGateway.persistActions_parameters hok
  have hgateway : ActionGateway.persistDecision (jsonEncoding N sha256 content J.jsonb) world call
      targets tables = .error repeatedPayload ↔
        Repeats W.identity (W.conflicted input) call.decision.actions := by
    rw [ActionGateway.persistDecision, bind_of_ok h.opened,
      ActionGateway.persistActions_conflicted hok h.new hkeys, hW]
    refine exists_congr fun action => and_congr_right fun _ => ?_
    rw [ActionGateway.ActionTables.mem_conflictedPayloadHashes,
      ActionGateway.mem_conflicted hresults, hW]
    simp only [ActionGateway.ActionTables.Conflicted, hids]
  have hturn : W.validate input policy workflowNow call.decision = .error repeatedPayload ↔
      Repeats W.identity (W.conflicted input) call.decision.actions :=
    validateDecision_conflicted h.valid
  refine ⟨hturn.trans hgateway.symm, hturn.trans (exists_congr fun action =>
    and_congr_right fun haction => ?_)⟩
  have hencodable := (encodable_of_accepted (hparameters action haction)).1
  rw [ActionGateway.mem_conflicted hresults, hW]
  constructor
  · rintro ⟨t, o, ho, heq⟩
    obtain ⟨rfl, hsame⟩ := (J.identity_jsonb_iff hsha hencodable
      (encodable_of_accepted (hconflicted t o ho).accepted).1).mp heq
    exact ⟨o, ho, hsame⟩
  · rintro ⟨o, ho, hsame⟩
    exact ⟨action.actionType, o, ho, (J.identity_jsonb_iff hsha hencodable
      (encodable_of_accepted (hconflicted _ o ho).accepted).1).mpr ⟨rfl, hsame⟩⟩

/-- **Conflicted payloads.**  On the decisions of a turn that are accepted otherwise, both checks
reject the same, and what they reject are the decisions that propose a payload with a conflict
again, with the same JSON parameters up to the order of keys, iff the column has returned every
number of the payloads with a conflict unchanged. -/
theorem conflict_checks_iff {V β : Type} [BEq V] (N : NumberTexts F) (sha256 : PyString → String)
    (hsha : Function.Injective sha256) (content : Parameters → JsonObject F)
    (J : JsonbColumn N content) (W : Budgets.TurnWorker V β)
    (hW : W.identity = (jsonEncoding N sha256 content J.jsonb).actionPayloadIdentity)
    (tables : ActionGateway.ActionTables) (input : Budgets.AgentTurnInput V)
    (hresults : ∀ r ∈ input.actionResults,
      tables.actionResult (jsonEncoding N sha256 content J.jsonb) r.source.id
        = some (r.actionType, r.parameters, r.status))
    (hwritten : ∀ e ∈ tables.entries, ∀ r, e.revision = some r →
      AcceptedParameters N content r.parameters)
    (hopen : ∃ status, tables.process = some status ∧ status.fenced = false) :
    (∀ policy workflowNow world call targets,
      AcceptedOtherwise (jsonEncoding N sha256 content J.jsonb) W input tables policy workflowNow
        world call targets →
      (W.validate input policy workflowNow call.decision = .error repeatedPayload ↔
        ActionGateway.persistDecision (jsonEncoding N sha256 content J.jsonb) world call targets
          tables = .error repeatedPayload) ∧
      (W.validate input policy workflowNow call.decision = .error repeatedPayload ↔
        RepeatsProposal content tables (input.actionResults.map (·.source.id))
          call.decision.actions)) ↔
    ∀ actionType parameters,
      tables.Conflicted (input.actionResults.map (·.source.id)) actionType parameters →
      (content parameters).value.All (fun a => a.reread J.stored = a) fun _ => True := by
  have hconflicted : ∀ t o, tables.Conflicted (input.actionResults.map (·.source.id)) t o →
      AcceptedParameters N content o := by
    rintro t o ⟨_, -, -, -, e, he, -, r, hr, rfl⟩
    exact hwritten e (Tables.lookup_mem he).1 r hr
  constructor
  · intro hchecks t o ho
    have hencodable := (encodable_of_accepted (hconflicted t o ho).accepted).1
    obtain ⟨policy, workflowNow, world, call, targets, haccepted, action, haction, rfl, rfl⟩ :=
      exists_acceptedOtherwise sha256 W tables J.jsonb t input (hconflicted t o ho) hopen
    -- the payload is proposed as it was, and the turn finds what has been read back
    have hsame :
        (content action.parameters).value.same (content action.parameters).value = true := by
      have htext : dumps N true (content action.parameters).value
          = dumps N true (content action.parameters).value := rfl
      exact (dumps_eq_iff hencodable hencodable (content _).wellFormed
        (content _).wellFormed).mp htext
    have hrejected := (hchecks policy workflowNow world call targets haccepted).2.mpr
      ⟨action, by rw [haction]; exact List.mem_cons_self, action.parameters, ho, hsame⟩
    obtain ⟨action', haction', o, -, hread⟩ :=
      (haccepted.checks_iff hsha hW hresults hconflicted).2.mp hrejected
    rw [haction, List.mem_singleton] at haction'
    rw [haction'] at hread
    exact Value.all_of_same_map J.reread_reread hread
  · intro hunchanged policy workflowNow world call targets haccepted
    obtain ⟨hboth, hrejects⟩ := haccepted.checks_iff hsha hW hresults hconflicted
    refine ⟨hboth, hrejects.trans (exists_congr fun action => and_congr_right fun _ => ?_)⟩
    refine exists_congr fun o => and_congr_right fun ho => ?_
    rw [Value.map_eq_self (hunchanged action.actionType o ho)]

end

/-! ### A refund of 1e16 -/

/-- The float 1e16. -/
inductive LargeFloat where
  | tenToTheSixteen
  deriving DecidableEq

instance : FloatValues LargeFloat := ⟨fun _ => 10 ^ 16⟩

namespace LargeFloat

/-- Python writes it with an exponent. -/
def text : JsonNumber LargeFloat → PyString
  | .int z => decimal z
  | .float _ => codePoints "1e+16"

lemma text_numeral (n : JsonNumber LargeFloat) : ∀ c ∈ text n, IsNumeral c := by
  cases n with
  | int z =>
      intro c hc
      have hdigit := decimal_numeral hc
      rw [IsNumeral]
      omega
  | float x => exact (by decide : ∀ c ∈ codePoints "1e+16", IsNumeral c)

lemma decimal_ne (z : ℤ) : decimal z ≠ codePoints "1e+16" := by
  intro h
  have hmem : 101 ∈ decimal z := by
    rw [h]
    decide
  have hdigit := decimal_numeral hmem
  omega

lemma text_inj {m n : JsonNumber LargeFloat} (h : text m = text n) : m = n := by
  cases m with
  | int y =>
      cases n with
      | int z => rw [decimal_inj h]
      | float x => exact absurd h (decimal_ne y)
  | float x =>
      cases n with
      | int z => exact absurd h.symm (decimal_ne z)
      | float x' => rfl

/-- The texts of numbers with this float. -/
def texts : NumberTexts LargeFloat where
  text := text
  finite _ := true
  finite_int _ := rfl
  text_ne_nil
    | .int _, _ => List.append_ne_nil_of_right_ne_nil _ (decimalDigits_ne_nil _)
    | .float _, _ => List.cons_ne_nil _ _
  text_numeral n _ := text_numeral n
  text_inj _ _ _ _ := text_inj

end LargeFloat

/-- An amount, as an integer and as a float. -/
def intAmount : Parameters := ⟨"\x7b\"amount\":10000000000000000\x7d", 1⟩

def floatAmount : Parameters := ⟨"\x7b\"amount\":1e+16\x7d", 1⟩

def amountObject (n : JsonNumber LargeFloat) : JsonObject LargeFloat :=
  ⟨[(codePoints "amount", .atom (.number n))],
    Value.wellFormed_object.mpr ⟨List.nodup_singleton _, List.forall_mem_singleton.mpr trivial⟩⟩

/-- The contents of these parameters; others are taken as empty. -/
def amountContent (p : Parameters) : JsonObject LargeFloat :=
  if p = floatAmount then amountObject (.float .tenToTheSixteen)
  else if p = intAmount then amountObject (.int (10 ^ 16))
  else ⟨[], Value.wellFormed_object.mpr ⟨List.nodup_nil, nofun⟩⟩

/-- The number that is read back. -/
def storedAmount : JsonNumber LargeFloat → JsonNumber LargeFloat
  | .int z => .int z
  | .float _ => .int (10 ^ 16)

/-- The float comes back as an integer. -/
def amountJsonb (p : Parameters) : Parameters := if p = floatAmount then intAmount else p

lemma content_amountJsonb (p : Parameters) :
    (amountContent (amountJsonb p)).value.same
      ((amountContent p).value.map (JsonAtom.reread storedAmount)) = true := by
  by_cases hp : p = floatAmount
  · rw [hp]
    decide
  · rw [amountJsonb, if_neg hp, amountContent, if_neg hp]
    split_ifs <;> decide

lemma storedAmount_cases (n : JsonNumber LargeFloat) :
    storedAmount n = n ∨ ∃ z : ℤ, storedAmount n = .int z ∧ n.value = z := by
  cases n with
  | int z => exact .inl rfl
  | float x => exact .inr ⟨10 ^ 16, rfl, by norm_num [JsonNumber.value, FloatValues.value]⟩

lemma floatAmount_accepted : AcceptedParameters LargeFloat.texts amountContent floatAmount where
  accepted := by decide
  fields := by decide
  text bytes h := by
    have hlength : (canonicalJsonBytes LargeFloat.texts (amountContent floatAmount).value
        "action parameters").toOption.map List.length = some floatAmount.text.utf8ByteSize := by
      decide
    rw [h] at hlength
    exact (Option.some.inj hlength).symm

def amountColumn : JsonbColumn LargeFloat.texts amountContent :=
  ⟨amountJsonb, storedAmount, fun _ => rfl, storedAmount_cases, fun p _ => content_amountJsonb p⟩

/-- An injective hash. -/
def unaryHash (s : PyString) : String := String.ofList (List.replicate (Encodable.encode s) 'a')

lemma unaryHash_injective : Function.Injective unaryHash := by
  intro s t h
  have hlength := congrArg List.length (String.ofList_injective h)
  rw [List.length_replicate, List.length_replicate] at hlength
  exact Encodable.encode_injective hlength

/-- The gateway and the turn of this encoding. -/
def amountEncoding : ActionGateway.Encoding :=
  jsonEncoding LargeFloat.texts unaryHash amountContent amountColumn.jsonb

def amountWorker : Budgets.TurnWorker ℕ Unit where
  tenantId := "tenant"
  registry _ _ := none
  model := "model"
  modelPrices := []
  modelValidate _ := .error ""
  loads _ := .error ""
  identity := amountEncoding.actionPayloadIdentity
  isoformat _ := ""
  named := (by decide : strip "model" ≠ "")

lemma amountWorker_identity : amountWorker.identity =
    (jsonEncoding LargeFloat.texts unaryHash amountContent amountColumn.jsonb).actionPayloadIdentity :=
  rfl

/-- A refund that has returned a conflict. -/
def refundWith (p : Parameters) : ActionGateway.ActionEntry where
  id := "a"
  agentTurnId := "turn 1"
  logicalActionKey := "refund"
  actionType := "refund"
  processDefinitionVersion := "1"
  status := .conflict
  revision := some { parameters := p, payloadHash := "", rationale := "" }

lemma refundWith_constraints (p : Parameters) :
    ActionGateway.Constraints [refundWith p] [⟨"attempt", "a", .conflict⟩] [] where
  keys := List.nodup_singleton _
  ids := List.nodup_singleton _
  approvalIds := List.nodup_nil
  threadIds := List.nodup_nil
  attemptIds := List.nodup_singleton _
  messageIds := List.nodup_nil
  messageThreads := nofun

def conflictTables (p : Parameters) : ActionGateway.ActionTables :=
  ⟨some .waiting, [refundWith p], [⟨"attempt", "a", .conflict⟩], [], refundWith_constraints p⟩

/-- The turn that this conflict has woken. -/
def conflictInput (p : Parameters) : Budgets.AgentTurnInput ℕ where
  actionResults := [⟨⟨"attempt", []⟩, "refund", amountJsonb p, .conflict⟩]

lemma conflictInput_results (p : Parameters) : ∀ r ∈ (conflictInput p).actionResults,
    (conflictTables p).actionResult amountEncoding r.source.id
      = some (r.actionType, r.parameters, r.status) := by
  refine List.forall_mem_singleton.mpr ?_
  rfl

lemma conflictTables_conflicted {p : Parameters} {t : String} {o : Parameters}
    (h : (conflictTables p).Conflicted ["attempt"] t o) : o = p := by
  obtain ⟨_, -, -, -, e, he, -, r, hr, rfl⟩ := h
  have hmem : e = refundWith p := List.mem_singleton.mp (Tables.lookup_mem he).1
  rw [hmem] at hr
  rw [← Option.some.inj hr]

/-- The float 1e16 comes back as an integer with another text: neither check finds that it is
proposed again. -/
theorem conflict_of_a_float : ∃ policy workflowNow world call targets,
    AcceptedOtherwise amountEncoding amountWorker (conflictInput floatAmount)
        (conflictTables floatAmount) policy workflowNow world call targets ∧
      RepeatsProposal amountContent (conflictTables floatAmount) ["attempt"]
        call.decision.actions ∧
      amountWorker.validate (conflictInput floatAmount) policy workflowNow call.decision
        ≠ .error repeatedPayload ∧
      ActionGateway.persistDecision amountEncoding world call targets (conflictTables floatAmount)
        ≠ .error repeatedPayload := by
  obtain ⟨policy, workflowNow, world, call, targets, haccepted, action, haction, htype, hamount⟩ :=
    exists_acceptedOtherwise unaryHash amountWorker (conflictTables floatAmount)
      amountColumn.jsonb "refund" (conflictInput floatAmount) floatAmount_accepted
      ⟨.waiting, rfl, rfl⟩
  obtain ⟨hboth, hrejects⟩ := haccepted.checks_iff (J := amountColumn) unaryHash_injective
    amountWorker_identity (conflictInput_results floatAmount) fun t o ho => by
      rw [conflictTables_conflicted ho]
      exact floatAmount_accepted
  have haccepts : amountWorker.validate (conflictInput floatAmount) policy workflowNow call.decision
      ≠ .error repeatedPayload := by
    intro h
    obtain ⟨action', haction', o, ho, hsame⟩ := hrejects.mp h
    rw [haction, List.mem_singleton] at haction'
    rw [haction', hamount, conflictTables_conflicted ho] at hsame
    exact absurd hsame (by decide)
  refine ⟨policy, workflowNow, world, call, targets, haccepted, ?_, haccepts,
    fun h => haccepts (hboth.mpr h)⟩
  refine ⟨action, by rw [haction]; exact List.mem_cons_self, floatAmount, ?_, ?_⟩
  · rw [htype]
    exact ⟨_, List.mem_cons_self, List.mem_cons_self, rfl, _, rfl, rfl, _, rfl, rfl⟩
  · rw [hamount]
    decide

/-- A refund without an amount. -/
def noAmount : Parameters := ⟨"\x7b\x7d", 0⟩

lemma noAmount_accepted : AcceptedParameters LargeFloat.texts amountContent noAmount where
  accepted := by decide
  fields := by decide
  text bytes h := by
    have hlength : (canonicalJsonBytes LargeFloat.texts (amountContent noAmount).value
        "action parameters").toOption.map List.length = some noAmount.text.utf8ByteSize := by
      decide
    rw [h] at hlength
    exact (Option.some.inj hlength).symm

/-- A refund that the column returns unchanged: both checks reject the decisions that propose it
again, and no others. -/
theorem conflict_checks_iff_no_amount :
    (∀ actionType parameters,
      (conflictTables noAmount).Conflicted ["attempt"] actionType parameters →
      (amountContent parameters).value.All (fun a => a.reread storedAmount = a) fun _ => True) ∧
    ∀ (policy : DecisionPolicy ℕ) workflowNow world call targets,
      AcceptedOtherwise amountEncoding amountWorker (conflictInput noAmount)
        (conflictTables noAmount) policy workflowNow world call targets →
      (amountWorker.validate (conflictInput noAmount) policy workflowNow call.decision
          = .error repeatedPayload ↔
        ActionGateway.persistDecision amountEncoding world call targets (conflictTables noAmount)
          = .error repeatedPayload) ∧
      (amountWorker.validate (conflictInput noAmount) policy workflowNow call.decision
          = .error repeatedPayload ↔
        RepeatsProposal amountContent (conflictTables noAmount) ["attempt"]
          call.decision.actions) := by
  have hunchanged : ∀ actionType parameters,
      (conflictTables noAmount).Conflicted ["attempt"] actionType parameters →
      (amountContent parameters).value.All (fun a => a.reread storedAmount = a) fun _ => True := by
    intro t o ho
    rw [conflictTables_conflicted ho]
    decide
  refine ⟨hunchanged, (conflict_checks_iff LargeFloat.texts unaryHash unaryHash_injective
    amountContent amountColumn amountWorker amountWorker_identity (conflictTables noAmount)
    (conflictInput noAmount) (conflictInput_results noAmount) ?_ ⟨.waiting, rfl, rfl⟩).mpr
      hunchanged⟩
  intro e he r hr
  rw [List.mem_singleton.mp he] at hr
  rw [← Option.some.inj hr]
  exact noAmount_accepted

end TiramisuAgents
