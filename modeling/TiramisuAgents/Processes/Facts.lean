import TiramisuAgents.Core.Policy
import TiramisuAgents.Library.Dict

/-!
The facts of a turn, and the four places that fold them: `_require_safe_fact_projection`
(`agents/context.py`), the prospective facts of `run_agent_turn`
(`temporal/activities/agent_turn.py`), `_completion_facts`
(`temporal/activities/action_gateway.py`) and `apply_decision` (`processes/state.py`).

The rows that a query returns come in any order, so a query is answered by a permutation of
what it selects.  The tables are those of one process.

* `FactProjection`, `applyFactObservations`: `core/transitions.py`.
* `contextProjection`, `prospectiveFacts`, `completionFacts`, `decisionProjection`: the folds.
* `ProjectionsAgree`: they give the same facts, and no accepted completion is rejected later.
* `SourcesAgree`: the sources of the turn that decide a fact agree on it.
* `projectionsAgree_iff`: the first is the second.
-/

namespace TiramisuAgents

open Dict

/-! ### Observations (`core/contracts/knowledge.py`, `core/transitions.py`) -/

/-- `FactKind`. -/
inductive FactKind where
  | authoritative | customerClaim
  deriving DecidableEq, Repr

/-- The text of a fact kind. -/
def FactKind.value : FactKind → String
  | .authoritative => "authoritative"
  | .customerClaim => "customer_claim"

/-- `FactObservation`. -/
structure FactObservation (V : Type) where
  key : String
  kind : FactKind
  value : V
  deriving DecidableEq, Repr

/-- What a fact can come from. -/
inductive FactSourceType where
  | event | actionAttempt
  deriving DecidableEq, Repr

/-- The text of a source type. -/
def FactSourceType.value : FactSourceType → String
  | .event => "event"
  | .actionAttempt => "action_attempt"

/-- An entry of `fact_provenance`. -/
structure FactProvenance where
  kind : FactKind
  sourceType : FactSourceType
  sourceId : UUID
  deriving DecidableEq, Repr

/-- The three projections of a process: `authoritative_facts`, `customer_claims` and
`fact_provenance`. -/
structure FactProjection (V : Type) where
  authoritative : List (String × V) := []
  claims : List (String × V) := []
  provenance : List (String × FactProvenance) := []
  deriving DecidableEq, Repr

section

variable {V : Type}

/-- The body of the loop of `apply_fact_observations`. -/
def FactProjection.observe (sourceType : FactSourceType) (sourceId : UUID) (p : FactProjection V)
    (o : FactObservation V) : FactProjection V where
  authoritative :=
    if o.kind = .authoritative then setItem p.authoritative o.key o.value else p.authoritative
  claims := if o.kind = .authoritative then p.claims else setItem p.claims o.key o.value
  provenance :=
    setItem p.provenance s!"{o.kind.value}:{o.key}" ⟨o.kind, sourceType, sourceId⟩

/-- `apply_fact_observations`. -/
def applyFactObservations (observations : List (FactObservation V)) (sourceType : FactSourceType)
    (sourceId : UUID) (p : FactProjection V) : FactProjection V :=
  observations.foldl (FactProjection.observe sourceType sourceId) p

/-! ### The platform limit on a projection (`core/limits.py`) -/

/-- The length of the canonical encoding of an object, from the lengths of its values. -/
def jsonObjectBytes (entries : List (String × ℕ)) : ℕ :=
  2 + (entries.length - 1)
    + (entries.map fun e => 3 + (e.1.toList.map jsonCharBytes).sum + e.2).sum

/-- The length of the canonical encoding of a string. -/
def jsonStringBytes (value : String) : ℕ :=
  2 + (value.toList.map jsonCharBytes).sum

/-- The length of the canonical encoding of a provenance entry. -/
def FactProvenance.bytes (p : FactProvenance) : ℕ :=
  jsonObjectBytes [("kind", jsonStringBytes p.kind.value),
    ("source_type", jsonStringBytes p.sourceType.value),
    ("source_id", jsonStringBytes p.sourceId)]

/-- The length of the canonical encoding of the three projections; `bytes` is that of a
value. -/
def FactProjection.bytes (bytes : V → ℕ) (p : FactProjection V) : ℕ :=
  jsonObjectBytes
    [("authoritative_facts", jsonObjectBytes (p.authoritative.map fun e => (e.1, bytes e.2))),
      ("customer_claims", jsonObjectBytes (p.claims.map fun e => (e.1, bytes e.2))),
      ("fact_provenance", jsonObjectBytes (p.provenance.map fun e => (e.1, e.2.bytes)))]

/-- `require_process_fact_projection` with the default limits. -/
def requireProcessFactProjection (bytes : V → ℕ) (p : FactProjection V) : Except String Unit := do
  requireItemCount "process fact projection" (p.authoritative.length + p.claims.length) 500
  requireJsonBytes "process fact projection" (p.bytes bytes) (128 * 1024)

/-! ### Rows and queries -/

/-- `correlation_status`. -/
inductive CorrelationStatus where
  | pending | matched | rejected
  deriving DecidableEq, Repr

/-- A row of `event_inbox`, with the facts of its event. -/
structure InboxRow (V : Type) where
  id : UUID
  eventType : String
  correlationStatus : CorrelationStatus
  receivedAt : Time
  facts : List (FactObservation V) := []
  deriving DecidableEq, Repr

/-- What the folds read of an event or an attempt. -/
structure FactSource (V : Type) where
  id : UUID
  facts : List (FactObservation V)
  deriving DecidableEq, Repr

/-- The event of a row. -/
def InboxRow.source (r : InboxRow V) : FactSource V := ⟨r.id, r.facts⟩

/-- The rows of the tables of one process from which facts are read. -/
structure FactTables (V : Type) where
  inbox : List (InboxRow V)
  attempts : List (FactSource V)
  inbox_key : (inbox.map InboxRow.id).Nodup
  attempts_key : (attempts.map FactSource.id).Nodup

/-- `EventInbox.id.in_(event_ids)` and `correlation_status == "matched"`. -/
def FactTables.selectEvents (t : FactTables V) (ids : List UUID) : List (FactSource V) :=
  (t.inbox.filter fun r => ids.contains r.id ∧ r.correlationStatus = .matched).map InboxRow.source

/-- `ActionAttempt.id.in_(attempt_ids)`. -/
def FactTables.selectAttempts (t : FactTables V) (ids : List UUID) : List (FactSource V) :=
  t.attempts.filter fun r => ids.contains r.id

/-- The rows of a query by their identity, and then in the order of the identities: what the
context loader, `_load_events` and `_load_attempts` do with the rows they get. -/
def loadSources (message : String) (ids : List UUID) (rows : List (FactSource V)) :
    Except String (List (FactSource V)) :=
  let byId := Dict.update [] (rows.map fun r => (r.id, r))
  if sameSet (byId.map Prod.fst) ids then .ok (ids.filterMap fun id => byId.lookup id)
  else .error message

/-! ### The folds -/

/-- The events and action results of `AgentContextLoader.load`. -/
def loadTurnSources (eventIds actionAttemptIds : List UUID)
    (eventRows attemptRows : List (FactSource V)) :
    Except String (List (FactSource V) × List (FactSource V)) := do
  requireThat eventIds.Nodup "agent turn event IDs must be unique"
  requireThat actionAttemptIds.Nodup "agent turn action attempt IDs must be unique"
  let events ← loadSources "one or more turn events are unavailable or unmatched" eventIds eventRows
  let actionResults ←
    loadSources "one or more action attempts are unavailable" actionAttemptIds attemptRows
  return (events, actionResults)

/-- The projection that `_require_safe_fact_projection` checks. -/
def contextProjection (process : FactProjection V) (events actionResults : List (FactSource V)) :
    FactProjection V :=
  let sources :=
    events.map (FactSourceType.event, ·) ++ actionResults.map (FactSourceType.actionAttempt, ·)
  sources.foldl (fun p s => s.2.facts.foldl (FactProjection.observe s.1 s.2.id) p) process

/-- An observation on authoritative facts alone. -/
def observeAuthoritative (facts : List (String × V)) (o : FactObservation V) : List (String × V) :=
  if o.kind = .authoritative then setItem facts o.key o.value else facts

/-- `prospective_authoritative_facts` of `run_agent_turn`. -/
def prospectiveFacts (authoritative : List (String × V))
    (events actionResults : List (FactSource V)) : List (String × V) :=
  (events ++ actionResults).foldl (fun facts s => s.facts.foldl observeAuthoritative facts)
    authoritative

/-- `_completion_facts`, on the documents its two queries return. -/
def completionFacts (stored : List (String × V))
    (eventDocuments attemptDocuments : List (FactSource V)) : List (String × V) :=
  let facts := eventDocuments.foldl (fun facts s => s.facts.foldl observeAuthoritative facts) stored
  attemptDocuments.foldl (fun facts s => s.facts.foldl observeAuthoritative facts) facts

/-- The projection of `apply_decision`, in the order of the decision. -/
def decisionProjection (process : FactProjection V) (decision : AgentDecision)
    (eventRows attemptRows : List (FactSource V)) : Except String (FactProjection V) := do
  let events ← loadSources "one or more decision events are unavailable" decision.basedOnEventIds
    eventRows
  let attempts ← loadSources "one or more decision action attempts are unavailable"
    decision.basedOnActionAttemptIds attemptRows
  let p := events.foldl (fun p e => applyFactObservations e.facts .event e.id p) process
  return attempts.foldl (fun p a => applyFactObservations a.facts .actionAttempt a.id p) p

/-! ### What a fold leaves -/

/-- The authoritative observations in a list, as assignments. -/
def authoritativeWrites (observations : List (FactObservation V)) : List (String × V) :=
  observations.filterMap fun o => if o.kind = .authoritative then some (o.key, o.value) else none

/-- The value that a source leaves for a key. -/
def FactSource.lastObserved (key : String) (s : FactSource V) : Option V :=
  (authoritativeWrites s.facts).reverse.lookup key

lemma foldl_observeAuthoritative (observations : List (FactObservation V))
    (facts : List (String × V)) :
    observations.foldl observeAuthoritative facts
      = Dict.update facts (authoritativeWrites observations) := by
  induction observations generalizing facts with
  | nil => rfl
  | cons o rest ih =>
      rw [List.foldl_cons, ih, observeAuthoritative]
      by_cases h : o.kind = .authoritative
      · simp [authoritativeWrites, h, Dict.update]
      · simp [authoritativeWrites, h]

/-- The authoritative facts of a projection do not depend on the rest of it. -/
lemma authoritative_foldl_observe (sourceType : FactSourceType) (sourceId : UUID)
    (observations : List (FactObservation V)) (p : FactProjection V) :
    (observations.foldl (FactProjection.observe sourceType sourceId) p).authoritative
      = observations.foldl observeAuthoritative p.authoritative := by
  induction observations generalizing p with
  | nil => rfl
  | cons o rest ih => exact ih _

/-- The authoritative facts after sources have been folded. -/
def foldSources (facts : List (String × V)) (sources : List (FactSource V)) : List (String × V) :=
  Dict.update facts (sources.flatMap fun s => authoritativeWrites s.facts)

lemma foldSources_append (facts : List (String × V)) (sources sources' : List (FactSource V)) :
    foldSources facts (sources ++ sources') = foldSources (foldSources facts sources) sources' := by
  rw [foldSources, List.flatMap_append, update_append]
  rfl

lemma foldl_sources (facts : List (String × V)) (sources : List (FactSource V)) :
    sources.foldl (fun facts s => s.facts.foldl observeAuthoritative facts) facts
      = foldSources facts sources := by
  induction sources generalizing facts with
  | nil => rfl
  | cons s rest ih =>
      rw [List.foldl_cons, ih, foldl_observeAuthoritative, foldSources, foldSources,
        List.flatMap_cons, update_append]

lemma authoritative_foldl_apply (sourceType : FactSourceType) (sources : List (FactSource V))
    (p : FactProjection V) :
    (sources.foldl (fun p s => applyFactObservations s.facts sourceType s.id p) p).authoritative
      = foldSources p.authoritative sources := by
  induction sources generalizing p with
  | nil => rfl
  | cons s rest ih =>
      rw [List.foldl_cons, ih, applyFactObservations, authoritative_foldl_observe,
        foldl_observeAuthoritative, foldSources, foldSources, List.flatMap_cons, update_append]

/-- The value of a key after a fold is that of the last source that observes it. -/
lemma lookup_foldSources (facts : List (String × V)) (sources : List (FactSource V))
    (key : String) :
    (foldSources facts sources).lookup key
      = (sources.reverse.findSome? (FactSource.lastObserved key)).or (facts.lookup key) := by
  rw [foldSources, lookup_update, lookup_reverse_flatMap]
  rfl

lemma prospectiveFacts_eq (facts : List (String × V)) (events actionResults : List (FactSource V)) :
    prospectiveFacts facts events actionResults
      = foldSources (foldSources facts events) actionResults := by
  rw [prospectiveFacts, foldl_sources, foldSources_append]

lemma completionFacts_eq (stored : List (String × V)) (events attempts : List (FactSource V)) :
    completionFacts stored events attempts = foldSources (foldSources stored events) attempts := by
  rw [completionFacts, foldl_sources, foldl_sources]

lemma authoritative_contextProjection (process : FactProjection V)
    (events actionResults : List (FactSource V)) :
    (contextProjection process events actionResults).authoritative
      = foldSources (foldSources process.authoritative events) actionResults := by
  have hfold : ∀ (sources : List (FactSource V)) (sourceType : FactSourceType)
      (p : FactProjection V),
      ((sources.map (sourceType, ·)).foldl
        (fun p s => s.2.facts.foldl (FactProjection.observe s.1 s.2.id) p) p)
        = sources.foldl (fun p s => applyFactObservations s.facts sourceType s.id p) p := by
    intro sources sourceType p
    rw [List.foldl_map]
    rfl
  simp only [contextProjection]
  rw [List.foldl_append, hfold, hfold, authoritative_foldl_apply,
    authoritative_foldl_apply]

/-! ### What is loaded -/

lemma nodup_selectEvents (t : FactTables V) (ids : List UUID) :
    ((t.selectEvents ids).map FactSource.id).Nodup := by
  rw [FactTables.selectEvents, List.map_map]
  exact t.inbox_key.sublist (List.filter_sublist.map _)

lemma nodup_selectAttempts (t : FactTables V) (ids : List UUID) :
    ((t.selectAttempts ids).map FactSource.id).Nodup :=
  t.attempts_key.sublist (List.filter_sublist.map _)

/-- Two lists that `sameSet` compares as equal have the same elements. -/
lemma sameSet_iff {a b : List String} : sameSet a b = true ↔ ∀ x, x ∈ a ↔ x ∈ b := by
  simp only [sameSet, Bool.and_eq_true, List.all_eq_true, List.contains_iff_mem]
  exact ⟨fun h x => ⟨h.1 x, h.2 x⟩, fun h => ⟨fun x => (h x).mp, fun x => (h x).mpr⟩⟩

/-- Sources are loaded when the rows are those of the identities. -/
lemma loadSources_isOk {message : String} {ids : List UUID} {rows : List (FactSource V)} :
    (∃ sources, loadSources message ids rows = .ok sources) ↔
      ∀ id, id ∈ rows.map FactSource.id ↔ id ∈ ids := by
  have hkeys : ∀ id, id ∈ (Dict.update [] (rows.map fun r => (r.id, r))).map Prod.fst ↔
      id ∈ rows.map FactSource.id := by
    intro id
    rw [← isSome_lookup_iff, lookup_update, List.lookup_nil, Option.or_none, isSome_lookup_iff,
      List.map_reverse, List.mem_reverse, List.map_map]
    rfl
  rw [loadSources]
  simp only [← hkeys]
  rw [← sameSet_iff]
  constructor
  · rintro ⟨sources, h⟩
    by_contra hne
    rw [if_neg hne] at h
    cases h
  · intro h
    exact ⟨_, if_pos h⟩

/-- The sources that are loaded are the rows. -/
lemma mem_loadSources {message : String} {ids : List UUID} {rows sources : List (FactSource V)}
    (hrows : (rows.map FactSource.id).Nodup) (h : loadSources message ids rows = .ok sources)
    (s : FactSource V) : s ∈ sources ↔ s ∈ rows := by
  have hids := loadSources_isOk.mp ⟨sources, h⟩
  have hkey : ((rows.map fun r => (r.id, r)).map Prod.fst).Nodup := by
    rw [List.map_map]
    exact hrows
  rw [loadSources] at h
  split at h
  · obtain rfl := Except.ok.inj h
    simp only [List.mem_filterMap, lookup_fill_eq_some_iff hkey, List.mem_map, Prod.mk.injEq]
    constructor
    · rintro ⟨_, -, r, hr, -, rfl⟩
      exact hr
    · intro hs
      exact ⟨s.id, (hids s.id).mp (List.mem_map_of_mem hs), s, hs, rfl, rfl⟩
  · cases h

/-! ### Agreement -/

/-- For every decision that `validate_decision` accepts for a turn, and every order of the rows,
the four folds give the same authoritative facts, and a completion is not rejected by the two
later ones. -/
def ProjectionsAgree [BEq V] (t : FactTables V) (process : FactProjection V)
    (eventIds actionAttemptIds : List UUID) (events actionResults : List (FactSource V)) : Prop :=
  ∀ (identity : String → Parameters → String) (policy : DecisionPolicy V) (workflowNow : Time)
    (reviewCommandIds : List UUID) (timerIds conflicted : List String) (decision : AgentDecision),
    validateDecision identity decision policy workflowNow
      { eventIds := some eventIds
        reviewCommandIds := some reviewCommandIds
        actionAttemptIds := some actionAttemptIds
        timerIds := some timerIds }
      conflicted (some (prospectiveFacts process.authoritative events actionResults)) true
        = .ok decision →
    ∀ eventDocuments attemptDocuments eventRows attemptRows : List (FactSource V),
      eventDocuments.Perm (t.selectEvents eventIds) →
      attemptDocuments.Perm (t.selectAttempts actionAttemptIds) →
      eventRows.Perm (t.selectEvents decision.basedOnEventIds) →
      attemptRows.Perm (t.selectAttempts decision.basedOnActionAttemptIds) →
      ∃ applied, decisionProjection process decision eventRows attemptRows = .ok applied ∧
        (∀ key,
          (contextProjection process events actionResults).authoritative.lookup key
            = (prospectiveFacts process.authoritative events actionResults).lookup key ∧
          (completionFacts process.authoritative eventDocuments attemptDocuments).lookup key
            = (prospectiveFacts process.authoritative events actionResults).lookup key ∧
          applied.authoritative.lookup key
            = (prospectiveFacts process.authoritative events actionResults).lookup key) ∧
        (decision.status = .completed →
          unsatisfiedRequirements
              (completionFacts process.authoritative eventDocuments attemptDocuments)
              policy.completionRequirements = [] ∧
            unsatisfiedRequirements applied.authoritative policy.completionRequirements = [])

/-- The sources that decide a fact agree on it: the action results that observe a key leave the
same value, and so do the events if no action result observes it. -/
def SourcesAgree (events actionResults : List (FactSource V)) : Prop :=
  ∀ key, Agree (FactSource.lastObserved key) actionResults ∧
    ((∀ r ∈ actionResults, r.lastObserved key = none) →
      Agree (FactSource.lastObserved key) events)

lemma lookup_fold (facts : List (String × V)) (events actionResults : List (FactSource V))
    (key : String) :
    (foldSources (foldSources facts events) actionResults).lookup key
      = (actionResults.reverse.findSome? (FactSource.lastObserved key)).or
          ((events.reverse.findSome? (FactSource.lastObserved key)).or (facts.lookup key)) := by
  rw [lookup_foldSources, lookup_foldSources]

/-- Sources that agree may be folded in any order, and any number of times. -/
lemma SourcesAgree.lookup_eq {events actionResults events' actionResults' : List (FactSource V)}
    (h : SourcesAgree events actionResults) (hevents : ∀ s, s ∈ events ↔ s ∈ events')
    (hresults : ∀ s, s ∈ actionResults ↔ s ∈ actionResults') (facts : List (String × V))
    (key : String) :
    (foldSources (foldSources facts events') actionResults').lookup key
      = (foldSources (foldSources facts events) actionResults).lookup key := by
  rw [lookup_fold, lookup_fold]
  obtain ⟨hr, he⟩ := h key
  -- the folds look for the last source, so they search the reversed lists
  have hrev : ∀ {l l' : List (FactSource V)}, Agree (FactSource.lastObserved key) l →
      (∀ s, s ∈ l ↔ s ∈ l') → l.reverse.findSome? (FactSource.lastObserved key)
        = l'.reverse.findSome? (FactSource.lastObserved key) := by
    intro l l' hl hmem
    refine (hl.mono fun s => List.mem_reverse.mp).findSome?_eq fun s => ?_
    rw [List.mem_reverse, List.mem_reverse, hmem]
  rw [← hrev hr hresults]
  cases hx : actionResults.reverse.findSome? (FactSource.lastObserved key) with
  | some x => rfl
  | none =>
      have hnone : ∀ r ∈ actionResults, r.lastObserved key = none := by
        simpa [List.findSome?_eq_none_iff] using hx
      rw [← hrev (he hnone) hevents]

/-- Sources that may be folded in any order agree. -/
lemma sourcesAgree_of_perm {events actionResults : List (FactSource V)}
    (facts : List (String × V))
    (h : ∀ events' actionResults', events'.Perm events → actionResults'.Perm actionResults →
      ∀ key, (foldSources (foldSources facts events') actionResults').lookup key
        = (foldSources (foldSources facts events) actionResults).lookup key) :
    SourcesAgree events actionResults := by
  have hfold : ∀ events' actionResults' : List (FactSource V), events'.Perm events →
      actionResults'.Perm actionResults → ∀ key,
      (actionResults'.findSome? (FactSource.lastObserved key)).or
          ((events'.findSome? (FactSource.lastObserved key)).or (facts.lookup key))
        = (foldSources (foldSources facts events) actionResults).lookup key := by
    intro events' actionResults' he hr key
    have := h events'.reverse actionResults'.reverse ((List.reverse_perm _).trans he)
      ((List.reverse_perm _).trans hr) key
    rwa [lookup_fold, List.reverse_reverse, List.reverse_reverse] at this
  refine fun key => ⟨?_, fun hnone => ?_⟩
  · exact agree_of_forall_perm fun l' hl' => hfold events l' (.refl _) hl' key
  · have hskip : actionResults.findSome? (FactSource.lastObserved key) = none :=
      List.findSome?_eq_none_iff.mpr hnone
    have hevents : ∀ l' : List (FactSource V), l'.Perm events →
        (l'.findSome? (FactSource.lastObserved key)).or (facts.lookup key)
          = (foldSources (foldSources facts events) actionResults).lookup key := by
      intro l' hl'
      have := hfold l' actionResults hl' (.refl _) key
      rwa [hskip, Option.none_or] at this
    exact agree_of_forall_perm hevents

/-- Facts with the same values leave the same requirements unsatisfied. -/
lemma unsatisfiedRequirements_congr [BEq V] {facts facts' : List (String × V)}
    (h : ∀ key, facts.lookup key = facts'.lookup key) (requirements : List (String × V)) :
    unsatisfiedRequirements facts requirements = unsatisfiedRequirements facts' requirements := by
  simp only [unsatisfiedRequirements, h]

/-- The decision that completes a process without anything else. -/
def plainCompletion (decisionId : UUID) (eventIds actionAttemptIds : List UUID) :
    AgentDecision where
  decisionId := decisionId
  basedOnEventIds := eventIds
  basedOnActionAttemptIds := actionAttemptIds
  status := .completed

lemma sameSet_self (ids : List String) : sameSet ids ids = true :=
  sameSet_iff.mpr fun _ => Iff.rfl

lemma validateDecision_plainCompletion [BEq V] (decisionId : UUID)
    (eventIds actionAttemptIds : List UUID) (facts : List (String × V)) :
    validateDecision (fun _ _ => "") (plainCompletion decisionId eventIds actionAttemptIds)
      ({ allowedActionTypes := [], allowedWakeEventTypes := [] } : DecisionPolicy V) 0
      { eventIds := some eventIds
        reviewCommandIds := some []
        actionAttemptIds := some actionAttemptIds
        timerIds := some [] } [] (some facts) true
      = .ok (plainCompletion decisionId eventIds actionAttemptIds) := by
  simp [validateDecision, plainCompletion, requireSources, requireThat, sameSet_self,
    requireDecisionLimits, requireItemCount, requireJsonBytes, requireWithin, jsonStringsBytes,
    validateActions, bind, Except.bind, pure, Except.pure]

/-- Agreement depends on the sources only. -/
lemma SourcesAgree.mono {events actionResults events' actionResults' : List (FactSource V)}
    (h : SourcesAgree events actionResults) (hevents : ∀ s, s ∈ events' ↔ s ∈ events)
    (hresults : ∀ s, s ∈ actionResults' ↔ s ∈ actionResults) :
    SourcesAgree events' actionResults' := by
  intro key
  obtain ⟨hr, he⟩ := h key
  refine ⟨hr.mono fun s => (hresults s).mp, fun hnone => ?_⟩
  exact (he fun r hmem => hnone r ((hresults r).mpr hmem)).mono fun s => (hevents s).mp

lemma selectEvents_congr (t : FactTables V) {ids ids' : List UUID} (h : ∀ x, x ∈ ids ↔ x ∈ ids') :
    t.selectEvents ids = t.selectEvents ids' := by
  simp only [FactTables.selectEvents, List.contains_iff_mem, h]

lemma selectAttempts_congr (t : FactTables V) {ids ids' : List UUID}
    (h : ∀ x, x ∈ ids ↔ x ∈ ids') : t.selectAttempts ids = t.selectAttempts ids' := by
  have hcontains : ∀ x, ids.contains x = ids'.contains x := by
    intro x
    rw [Bool.eq_iff_iff, List.contains_iff_mem, List.contains_iff_mem, h]
  simp only [FactTables.selectAttempts, hcontains]

/-- The sources that the context loader hands to the turn. -/
lemma loadTurnSources_eq_ok {eventIds actionAttemptIds : List UUID}
    {eventRows attemptRows events actionResults : List (FactSource V)}
    (h : loadTurnSources eventIds actionAttemptIds eventRows attemptRows
      = .ok (events, actionResults)) :
    loadSources "one or more turn events are unavailable or unmatched" eventIds eventRows
        = .ok events ∧
      loadSources "one or more action attempts are unavailable" actionAttemptIds attemptRows
        = .ok actionResults := by
  rw [loadTurnSources] at h
  obtain ⟨_, -, h⟩ := ok_of_bind h
  obtain ⟨_, -, h⟩ := ok_of_bind h
  obtain ⟨events', hevents, h⟩ := ok_of_bind h
  obtain ⟨results', hresults, h⟩ := ok_of_bind h
  obtain ⟨rfl, rfl⟩ := Prod.mk.inj (Except.ok.inj h)
  exact ⟨hevents, hresults⟩

/-- Rows in which all the identities are found can be loaded in whatever order they come. -/
lemma exists_loadSources {message message' : String} {ids : List UUID}
    {rows rows' sources : List (FactSource V)} (h : loadSources message ids rows = .ok sources)
    {ids' : List UUID} (hids : ∀ x, x ∈ ids' ↔ x ∈ ids) (hrows : rows'.Perm rows) :
    ∃ sources', loadSources message' ids' rows' = .ok sources' := by
  rw [loadSources_isOk]
  intro id
  rw [hids, ← loadSources_isOk.mp ⟨sources, h⟩ id]
  exact (hrows.map FactSource.id).mem_iff

/-- What `apply_decision` computes, once the rows of the decision are loaded. -/
lemma decisionProjection_eq (process : FactProjection V) {decision : AgentDecision}
    {eventRows attemptRows events attempts : List (FactSource V)}
    (hevents : loadSources "one or more decision events are unavailable" decision.basedOnEventIds
      eventRows = .ok events)
    (hattempts : loadSources "one or more decision action attempts are unavailable"
      decision.basedOnActionAttemptIds attemptRows = .ok attempts) :
    ∃ applied, decisionProjection process decision eventRows attemptRows = .ok applied ∧
      applied.authoritative = foldSources (foldSources process.authoritative events) attempts := by
  rw [decisionProjection, hevents]
  simp only [bind, Except.bind]
  rw [hattempts]
  refine ⟨_, rfl, ?_⟩
  rw [authoritative_foldl_apply, authoritative_foldl_apply]

/-- **The four projections agree exactly when the sources of the turn do**: whatever decision
is accepted and in whatever order the rows come, the context loader, the agent turn, the gateway
and the state service compute the same facts if and only if the action results that observe a
fact, or the events if there are none, leave the same value for it. -/
theorem projectionsAgree_iff [BEq V] (t : FactTables V) (process : FactProjection V)
    (eventIds actionAttemptIds : List UUID) (eventRows attemptRows : List (FactSource V))
    (events actionResults : List (FactSource V))
    (hevents : eventRows.Perm (t.selectEvents eventIds))
    (hattempts : attemptRows.Perm (t.selectAttempts actionAttemptIds))
    (hload : loadTurnSources eventIds actionAttemptIds eventRows attemptRows
      = .ok (events, actionResults)) :
    ProjectionsAgree t process eventIds actionAttemptIds events actionResults ↔
      SourcesAgree events actionResults := by
  obtain ⟨hloadEvents, hloadResults⟩ := loadTurnSources_eq_ok hload
  -- the turn's sources are the rows that its identities select
  have hmemEvents : ∀ s, s ∈ events ↔ s ∈ t.selectEvents eventIds := by
    intro s
    have hnodup := ((hevents.map FactSource.id).nodup_iff).mpr (nodup_selectEvents t eventIds)
    rw [mem_loadSources hnodup hloadEvents, hevents.mem_iff]
  have hmemResults : ∀ s, s ∈ actionResults ↔ s ∈ t.selectAttempts actionAttemptIds := by
    intro s
    have hnodup := ((hattempts.map FactSource.id).nodup_iff).mpr
      (nodup_selectAttempts t actionAttemptIds)
    rw [mem_loadSources hnodup hloadResults, hattempts.mem_iff]
  constructor
  · intro hagree
    refine SourcesAgree.mono ?_ hmemEvents hmemResults
    have hrows := hagree _ _ _ _ _ _ _
      (validateDecision_plainCompletion "" eventIds actionAttemptIds _)
    have hcompletion : ∀ events' actionResults', events'.Perm (t.selectEvents eventIds) →
        actionResults'.Perm (t.selectAttempts actionAttemptIds) → ∀ key,
        (foldSources (foldSources process.authoritative events') actionResults').lookup key
          = (prospectiveFacts process.authoritative events actionResults).lookup key := by
      intro events' actionResults' he hr key
      obtain ⟨applied, -, hsame, -⟩ := hrows events' actionResults' _ _ he hr (.refl _) (.refl _)
      rw [← completionFacts_eq, (hsame key).2.1]
    refine sourcesAgree_of_perm process.authoritative fun events' actionResults' he hr key => ?_
    rw [hcompletion events' actionResults' he hr key, hcompletion _ _ (.refl _) (.refl _) key]
  · intro hagree identity policy workflowNow reviewCommandIds timerIds conflicted decision haccept
      eventDocuments attemptDocuments eventRows' attemptRows' hdocEvents hdocAttempts hrowEvents
      hrowAttempts
    obtain ⟨hsetEvents, hsetAttempts, hcomplete⟩ := validateDecision_eq_ok haccept
    have hidEvents := sameSet_iff.mp hsetEvents
    have hidAttempts := sameSet_iff.mp hsetAttempts
    rw [selectEvents_congr t hidEvents] at hrowEvents
    rw [selectAttempts_congr t hidAttempts] at hrowAttempts
    obtain ⟨es, hes⟩ := exists_loadSources hloadEvents hidEvents (hrowEvents.trans hevents.symm)
    obtain ⟨as, has⟩ := exists_loadSources hloadResults hidAttempts
      (hrowAttempts.trans hattempts.symm)
    obtain ⟨applied, happlied, hfacts⟩ := decisionProjection_eq process hes has
    have hsame : ∀ es' as' : List (FactSource V), (∀ s, s ∈ es' ↔ s ∈ t.selectEvents eventIds) →
        (∀ s, s ∈ as' ↔ s ∈ t.selectAttempts actionAttemptIds) → ∀ key,
        (foldSources (foldSources process.authoritative es') as').lookup key
          = (prospectiveFacts process.authoritative events actionResults).lookup key := by
      intro es' as' he hr key
      rw [prospectiveFacts_eq]
      exact hagree.lookup_eq (fun s => by rw [hmemEvents, he]) (fun s => by rw [hmemResults, hr])
        process.authoritative key
    have hcompletion : ∀ key,
        (completionFacts process.authoritative eventDocuments attemptDocuments).lookup key
          = (prospectiveFacts process.authoritative events actionResults).lookup key := by
      intro key
      rw [completionFacts_eq]
      exact hsame _ _ (fun s => hdocEvents.mem_iff) (fun s => hdocAttempts.mem_iff) key
    have happly : ∀ key, applied.authoritative.lookup key
        = (prospectiveFacts process.authoritative events actionResults).lookup key := by
      have hnodupEvents := ((hrowEvents.map FactSource.id).nodup_iff).mpr
        (nodup_selectEvents t eventIds)
      have hnodupAttempts := ((hrowAttempts.map FactSource.id).nodup_iff).mpr
        (nodup_selectAttempts t actionAttemptIds)
      intro key
      rw [hfacts]
      exact hsame _ _ (fun s => by rw [mem_loadSources hnodupEvents hes, hrowEvents.mem_iff])
        (fun s => by rw [mem_loadSources hnodupAttempts has, hrowAttempts.mem_iff]) key
    refine ⟨applied, happlied, fun key => ⟨?_, hcompletion key, happly key⟩, fun hstatus => ?_⟩
    · rw [authoritative_contextProjection, prospectiveFacts_eq]
    · rw [unsatisfiedRequirements_congr hcompletion, unsatisfiedRequirements_congr happly]
      exact ⟨hcomplete hstatus, hcomplete hstatus⟩

end

/-! ### Two events that observe the same fact -/

/-- An event that reports an amount paid. -/
def amountEvent (id : UUID) (amount : ℕ) : InboxRow ℕ where
  id := id
  eventType := "payment.updated"
  correlationStatus := .matched
  receivedAt := 0
  facts := [⟨"payment.amount", .authoritative, amount⟩]

/-- The tables of a process with two such events. -/
def amountTables (first second : ℕ) : FactTables ℕ where
  inbox := [amountEvent "e1" first, amountEvent "e2" second]
  attempts := []
  inbox_key := by simp [amountEvent]
  attempts_key := List.nodup_nil

/-- The four projections agree on a turn of two events that report the same amount. -/
theorem projectionsAgree_same :
    loadTurnSources ["e1", "e2"] [] [(amountEvent "e2" 7).source, (amountEvent "e1" 7).source] []
        = .ok ([(amountEvent "e1" 7).source, (amountEvent "e2" 7).source], []) ∧
      (ProjectionsAgree (amountTables 7 7) {} ["e1", "e2"] []
          [(amountEvent "e1" 7).source, (amountEvent "e2" 7).source] [] ↔
        SourcesAgree [(amountEvent "e1" 7).source, (amountEvent "e2" 7).source] []) :=
  ⟨rfl, projectionsAgree_iff (amountTables 7 7) {} ["e1", "e2"] [] _ [] _ []
    (List.Perm.swap _ _ _) (.refl _) rfl⟩

/-- **Two events that report different amounts**: the turn accepts a completion that requires the
later amount, and the gateway rejects it when the query returns the rows in the other order. -/
theorem completion_rejected_later :
    ¬ ProjectionsAgree (amountTables 3 7) {} ["e1", "e2"] []
      [(amountEvent "e1" 3).source, (amountEvent "e2" 7).source] [] := by
  intro h
  have hcompletion := h (fun _ _ => "")
    { allowedActionTypes := []
      allowedWakeEventTypes := []
      completionRequirements := [("payment.amount", 7)] }
    0 [] [] [] (plainCompletion "d" ["e1", "e2"] []) (by decide +kernel)
    [(amountEvent "e2" 7).source, (amountEvent "e1" 3).source] [] _ _
    (List.Perm.swap _ _ _) (.refl _) (.refl _) (.refl _)
  obtain ⟨applied, -, -, hsatisfied⟩ := hcompletion
  have hempty := (hsatisfied rfl).1
  have hunsatisfied : unsatisfiedRequirements
      (completionFacts [] [(amountEvent "e2" 7).source, (amountEvent "e1" 3).source] [])
      [("payment.amount", 7)] = ["payment.amount"] := by
    decide +kernel
  cases hempty.symm.trans hunsatisfied

end TiramisuAgents
