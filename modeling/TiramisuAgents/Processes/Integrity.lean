import TiramisuAgents.Processes.Revisions

/-!
Fact integrity: what the customer claims of the sources can change.

`apply_fact_observations` writes three dictionaries in one loop; the keys of the third carry the
kind of the observation.  The entries of authoritative kind are a projection of the whole on
which an observation of a claim does nothing, so that they are the fold of the authoritative
observations alone.

* `AppliedRun`: the decisions that are applied to a process; `appliedRun_runs` reads them off a
  run of the calls.
* `authoritativePart_foldl`: the projection of a fold.
* `ExactProvenance`: the provenance against the sources that were applied.
* `fact_integrity`: two runs over the same sources that differ in claims only.
-/

namespace TiramisuAgents

open Dict Transactions

section

variable {V : Type}

/-! ### The keys of the provenance -/

/-- The key of an entry of `fact_provenance`. -/
def provenanceKey (kind : FactKind) (key : String) : String := s!"{kind.value}:{key}"

/-- The key is that of an authoritative fact. -/
def isAuthoritativeKey (key : String) : Bool := "authoritative:".toList.isPrefixOf key.toList

lemma provenanceKey_toList (kind : FactKind) (key : String) :
    (provenanceKey kind key).toList = kind.value.toList ++ ':' :: key.toList := by
  simp [provenanceKey, String.toList_append, toString]

lemma provenanceKey_inj {kind kind' : FactKind} {key key' : String} :
    provenanceKey kind key = provenanceKey kind' key' ↔ kind = kind' ∧ key = key' := by
  refine ⟨fun h => ?_, fun ⟨hkind, hkey⟩ => by rw [hkind, hkey]⟩
  have hlist := congrArg String.toList h
  rw [provenanceKey_toList, provenanceKey_toList] at hlist
  cases kind <;> cases kind' <;> simp [FactKind.value, String.toList_inj] at hlist ⊢
  all_goals exact hlist

lemma isAuthoritativeKey_provenanceKey (kind : FactKind) (key : String) :
    isAuthoritativeKey (provenanceKey kind key) = decide (kind = .authoritative) := by
  rw [isAuthoritativeKey, provenanceKey_toList]
  cases kind <;> simp [FactKind.value, List.isPrefixOf]

/-! ### The authoritative part -/

/-- The authoritative facts and their provenance. -/
def FactProjection.authoritativePart (p : FactProjection V) : FactProjection V where
  authoritative := p.authoritative
  provenance := p.provenance.filter fun e => isAuthoritativeKey e.1

lemma authoritativePart_eq {p p' : FactProjection V}
    (h : p.authoritativePart = p'.authoritativePart) :
    p.authoritative = p'.authoritative ∧
      p.provenance.filter (fun e => isAuthoritativeKey e.1)
        = p'.provenance.filter fun e => isAuthoritativeKey e.1 := by
  rw [FactProjection.authoritativePart, FactProjection.authoritativePart,
    FactProjection.mk.injEq] at h
  exact ⟨h.1, h.2.2⟩

/-- An observation of a claim does not touch the authoritative part. -/
lemma authoritativePart_observe (sourceType : FactSourceType) (sourceId : UUID)
    (p : FactProjection V) (o : FactObservation V) :
    (p.observe sourceType sourceId o).authoritativePart
      = if o.kind = .authoritative then p.authoritativePart.observe sourceType sourceId o
        else p.authoritativePart := by
  have hkey : isAuthoritativeKey s!"{o.kind.value}:{o.key}" = decide (o.kind = .authoritative) :=
    isAuthoritativeKey_provenanceKey o.kind o.key
  simp only [FactProjection.authoritativePart, FactProjection.observe, filter_setItem, hkey]
  split_ifs <;> simp_all

/-- The authoritative observations of a source. -/
def FactSource.authoritativeFacts (s : FactSource V) : List (FactObservation V) :=
  s.facts.filter fun o => o.kind = .authoritative

/-- The authoritative part of a fold is the fold of the authoritative observations. -/
lemma authoritativePart_apply (sourceType : FactSourceType) (s : FactSource V)
    (p : FactProjection V) :
    (applyFactObservations s.facts sourceType s.id p).authoritativePart
      = applyFactObservations s.authoritativeFacts sourceType s.id p.authoritativePart := by
  rw [applyFactObservations, applyFactObservations, FactSource.authoritativeFacts]
  induction s.facts generalizing p with
  | nil => rfl
  | cons o rest ih =>
      rw [List.foldl_cons, ih, authoritativePart_observe]
      by_cases h : o.kind = .authoritative
      · rw [if_pos h, List.filter_cons_of_pos (by simpa using h), List.foldl_cons]
      · rw [if_neg h, List.filter_cons_of_neg (by simpa using h)]

/-- The fold over typed sources. -/
def foldObserved (p : FactProjection V) (sources : List (FactSourceType × FactSource V)) :
    FactProjection V :=
  sources.foldl (fun p s => applyFactObservations s.2.facts s.1 s.2.id p) p

lemma foldObserved_append (p : FactProjection V)
    (sources sources' : List (FactSourceType × FactSource V)) :
    foldObserved p (sources ++ sources') = foldObserved (foldObserved p sources) sources' :=
  List.foldl_append

/-- Two sources differ in their claims only. -/
structure SameButClaims (s s' : FactSource V) : Prop where
  id : s.id = s'.id
  facts : s.authoritativeFacts = s'.authoritativeFacts

/-- Sources that differ in claims keep the authoritative parts equal. -/
lemma authoritativePart_foldl {sources sources' : List (FactSourceType × FactSource V)}
    (h : List.Forall₂ (fun s s' => s.1 = s'.1 ∧ SameButClaims s.2 s'.2) sources sources')
    {p p' : FactProjection V} (hp : p.authoritativePart = p'.authoritativePart) :
    (foldObserved p sources).authoritativePart = (foldObserved p' sources').authoritativePart := by
  induction h generalizing p p' with
  | nil => exact hp
  | cons hs _ ih =>
      obtain ⟨htype, hid, hfacts⟩ := hs
      refine ih ?_
      rw [authoritativePart_apply, authoritativePart_apply, hp, htype, hid, hfacts]

/-! ### What a fold writes -/

/-- The facts of a kind. -/
def FactProjection.ofKind (p : FactProjection V) : FactKind → List (String × V)
  | .authoritative => p.authoritative
  | .customerClaim => p.claims

/-- The observations of a kind, as assignments. -/
def FactSource.writes (kind : FactKind) (s : FactSource V) : List (String × V) :=
  (s.facts.filter fun o => o.kind = kind).map fun o => (o.key, o.value)

/-- The provenance of the observations, as assignments. -/
def provenanceWrites (s : FactSourceType × FactSource V) : List (String × FactProvenance) :=
  s.2.facts.map fun o => (provenanceKey o.kind o.key, ⟨o.kind, s.1, s.2.id⟩)

lemma ofKind_apply (kind : FactKind) (sourceType : FactSourceType) (s : FactSource V)
    (p : FactProjection V) :
    (applyFactObservations s.facts sourceType s.id p).ofKind kind
      = Dict.update (p.ofKind kind) (s.writes kind) := by
  rw [applyFactObservations, FactSource.writes]
  induction s.facts generalizing p with
  | nil => rfl
  | cons o rest ih =>
      rw [List.foldl_cons, ih]
      cases kind <;> cases hkind : o.kind <;>
        simp [FactProjection.observe, FactProjection.ofKind, Dict.update, hkind]

lemma provenance_apply (s : FactSourceType × FactSource V) (p : FactProjection V) :
    (applyFactObservations s.2.facts s.1 s.2.id p).provenance
      = Dict.update p.provenance (provenanceWrites s) := by
  rw [applyFactObservations, provenanceWrites]
  induction s.2.facts generalizing p with
  | nil => rfl
  | cons o rest ih =>
      rw [List.foldl_cons, ih, List.map_cons]
      rfl

lemma ofKind_foldObserved (kind : FactKind) (sources : List (FactSourceType × FactSource V))
    (p : FactProjection V) :
    (foldObserved p sources).ofKind kind
      = Dict.update (p.ofKind kind) (sources.flatMap fun s => s.2.writes kind) := by
  induction sources generalizing p with
  | nil => rfl
  | cons s rest ih =>
      rw [foldObserved, List.foldl_cons, ← foldObserved, ih, ofKind_apply, List.flatMap_cons,
        update_append]

lemma provenance_foldObserved (sources : List (FactSourceType × FactSource V))
    (p : FactProjection V) :
    (foldObserved p sources).provenance
      = Dict.update p.provenance (sources.flatMap provenanceWrites) := by
  induction sources generalizing p with
  | nil => rfl
  | cons s rest ih =>
      rw [foldObserved, List.foldl_cons, ← foldObserved, ih, provenance_apply, List.flatMap_cons,
        update_append]

/-! ### Exact provenance -/

/-- A source observes a key with a kind. -/
def FactSource.observes (kind : FactKind) (key : String) (s : FactSource V) : Bool :=
  s.facts.any fun o => o.kind = kind ∧ o.key = key

/-- The provenance of a fact in the sources that were applied: the last of them that observed
it. -/
def lastObserver (kind : FactKind) (key : String) (sources : List (FactSourceType × FactSource V)) :
    Option FactProvenance :=
  (sources.reverse.find? fun s => s.2.observes kind key).map fun s => ⟨kind, s.1, s.2.id⟩

/-- The provenance has one entry for each fact and each claim, and no other; it names the last
source that observed the key with the kind. -/
structure ExactProvenance (p : FactProjection V) (sources : List (FactSourceType × FactSource V)) :
    Prop where
  nodup : (p.provenance.map Prod.fst).Nodup
  facts : ∀ kind key, key ∈ (p.ofKind kind).map Prod.fst ↔
    provenanceKey kind key ∈ p.provenance.map Prod.fst
  keys : ∀ k ∈ p.provenance.map Prod.fst, ∃ kind key, k = provenanceKey kind key
  last : ∀ kind key, p.provenance.lookup (provenanceKey kind key) = lastObserver kind key sources

/-- All the writes of a source to a key of the provenance say the same. -/
lemma lookup_provenanceWrites (kind : FactKind) (key : String) (s : FactSourceType × FactSource V) :
    (provenanceWrites s).reverse.lookup (provenanceKey kind key)
      = if s.2.observes kind key then some ⟨kind, s.1, s.2.id⟩ else none := by
  have hkeys : ∀ observations : List (FactObservation V),
      ((observations.map fun o => (provenanceKey o.kind o.key,
          (⟨o.kind, s.1, s.2.id⟩ : FactProvenance))).lookup (provenanceKey kind key))
        = if observations.any (fun o => decide (o.kind = kind ∧ o.key = key)) then
            some ⟨kind, s.1, s.2.id⟩ else none := by
    intro observations
    induction observations with
    | nil => rfl
    | cons o rest ih =>
        rw [List.map_cons, List.lookup_cons, ih, List.any_cons]
        by_cases h : o.kind = kind ∧ o.key = key
        · rw [h.1, h.2, beq_self_eq_true, decide_eq_true ⟨rfl, rfl⟩]
          rfl
        · have hne : (provenanceKey kind key == provenanceKey o.kind o.key) = false := by
            rw [beq_eq_false_iff_ne, ne_eq, provenanceKey_inj]
            exact fun heq => h ⟨heq.1.symm, heq.2.symm⟩
          rw [hne, decide_eq_false h]
          rfl
  rw [provenanceWrites, ← List.map_reverse, hkeys, List.any_reverse]
  rfl

/-- The provenance of a fact after a fold: the last source that observed it, or what it was. -/
lemma lookup_provenance_foldObserved (kind : FactKind) (key : String)
    (sources : List (FactSourceType × FactSource V)) (p : FactProjection V) :
    (foldObserved p sources).provenance.lookup (provenanceKey kind key)
      = (lastObserver kind key sources).or (p.provenance.lookup (provenanceKey kind key)) := by
  rw [provenance_foldObserved, lookup_update, lookup_reverse_flatMap, lastObserver]
  simp only [lookup_provenanceWrites]
  congr 1
  induction sources.reverse with
  | nil => rfl
  | cons s rest ih =>
      rw [List.findSome?_cons, List.find?_cons]
      cases s.2.observes kind key with
      | true => rfl
      | false => exact ih

/-- The keys a fold writes into the provenance. -/
lemma mem_keys_provenanceWrites (sources : List (FactSourceType × FactSource V)) (k : String) :
    k ∈ (sources.flatMap provenanceWrites).map Prod.fst ↔
      ∃ kind key, k = provenanceKey kind key ∧ ∃ s ∈ sources, s.2.observes kind key := by
  simp only [List.mem_map, List.mem_flatMap, provenanceWrites, FactSource.observes,
    List.any_eq_true, decide_eq_true_eq]
  constructor
  · rintro ⟨_, ⟨s, hs, o, ho, rfl⟩, rfl⟩
    exact ⟨o.kind, o.key, rfl, s, hs, o, ho, rfl, rfl⟩
  · rintro ⟨_, _, rfl, s, hs, o, ho, rfl, rfl⟩
    exact ⟨_, ⟨s, hs, o, ho, rfl⟩, rfl⟩

/-- A fold from an empty projection has the provenance of its sources. -/
lemma exactProvenance_foldObserved (sources : List (FactSourceType × FactSource V)) :
    ExactProvenance (foldObserved {} sources) sources := by
  constructor
  · rw [provenance_foldObserved]
    refine nodup_keys_update ?_ _
    exact List.nodup_nil
  · intro kind key
    rw [ofKind_foldObserved, provenance_foldObserved, mem_keys_update, mem_keys_update,
      mem_keys_provenanceWrites]
    have hnil : (({} : FactProjection V).ofKind kind).map Prod.fst = [] := by cases kind <;> rfl
    rw [hnil]
    simp only [List.not_mem_nil, false_or, List.map_nil, List.mem_map, List.mem_flatMap,
      FactSource.writes, FactSource.observes, List.any_eq_true, decide_eq_true_eq, List.mem_filter]
    constructor
    · rintro ⟨_, ⟨s, hs, o, ⟨ho, hkind⟩, rfl⟩, hkey⟩
      exact ⟨kind, key, rfl, s, hs, o, ho, hkind, hkey⟩
    · rintro ⟨kind', key', hsame, s, hs, o, ho, hkind, hkey⟩
      obtain ⟨rfl, rfl⟩ := provenanceKey_inj.mp hsame
      exact ⟨_, ⟨s, hs, o, ⟨ho, hkind⟩, rfl⟩, hkey⟩
  · intro k hk
    rw [provenance_foldObserved, mem_keys_update, mem_keys_provenanceWrites] at hk
    obtain ⟨kind, key, rfl, -⟩ := hk.resolve_left List.not_mem_nil
    exact ⟨kind, key, rfl⟩
  · intro kind key
    rw [lookup_provenance_foldObserved]
    exact Option.or_none

/-! ### Loaded sources -/

/-- `{item.id: item for item in stored}`. -/
def rowsById (rows : List (FactSource V)) : List (UUID × FactSource V) :=
  Dict.update [] (rows.map fun r => (r.id, r))

lemma loadSources_eq_ok {message : String} {ids : List UUID} {rows sources : List (FactSource V)} :
    loadSources message ids rows = .ok sources ↔
      (∀ id, ((rowsById rows).lookup id).isSome ↔ id ∈ ids) ∧
        sources = ids.filterMap fun id => (rowsById rows).lookup id := by
  have hset : sameSet ((rowsById rows).map Prod.fst) ids = true ↔
      ∀ id, ((rowsById rows).lookup id).isSome ↔ id ∈ ids := by
    rw [sameSet_iff]
    exact forall_congr' fun id => by rw [isSome_lookup_iff]
  rw [loadSources, ← hset, ← rowsById]
  by_cases h : sameSet ((rowsById rows).map Prod.fst) ids = true
  · rw [if_pos h, Except.ok.injEq, eq_comm]
    exact (and_iff_right h).symm
  · rw [if_neg h]
    exact iff_of_false (fun hok => by cases hok) fun hok => h hok.1

/-- Rows that differ in claims, whatever order the query returns them in. -/
def RowsSameButClaims (rows rows' : List (FactSource V)) : Prop :=
  ∀ id, Option.Rel SameButClaims ((rowsById rows).lookup id) ((rowsById rows').lookup id)

/-- They are loaded together, and differ in claims. -/
lemma RowsSameButClaims.load {message : String} {ids : List UUID}
    {rows rows' sources : List (FactSource V)} (h : RowsSameButClaims rows rows')
    (hload : loadSources message ids rows = .ok sources) :
    ∃ sources', loadSources message ids rows' = .ok sources' ∧
      List.Forall₂ SameButClaims sources sources' := by
  obtain ⟨hids, rfl⟩ := loadSources_eq_ok.mp hload
  refine ⟨_, loadSources_eq_ok.mpr ⟨fun id => ?_, rfl⟩, ?_⟩
  · rw [← hids id]
    have hone := h id
    revert hone
    cases (rowsById rows).lookup id <;> cases (rowsById rows').lookup id <;> intro hone <;>
      cases hone
    · rfl
    · rfl
  · clear hids hload
    induction ids with
    | nil => exact .nil
    | cons id rest ih =>
        have hone := h id
        rw [List.filterMap_cons, List.filterMap_cons]
        revert hone
        cases (rowsById rows).lookup id <;> cases (rowsById rows').lookup id <;>
          intro hone <;> cases hone
        · exact ih
        · exact .cons ‹_› ih

/-! ### Applied decisions -/

/-- A decision with what `apply_decision` finds when it is applied: the rows of its events and
attempts, and the open actions. -/
structure AppliedTurn (V : Type) where
  command : DecisionInput V
  eventRows : List (FactSource V)
  attemptRows : List (FactSource V)
  openActions : OpenActions

namespace AppliedTurn

/-- The sources of the turn in the order in which they are applied. -/
def sources (t : AppliedTurn V) : List (FactSourceType × FactSource V) :=
  (t.command.decision.basedOnEventIds.filterMap fun id =>
      (rowsById t.eventRows).lookup id).map (FactSourceType.event, ·) ++
    (t.command.decision.basedOnActionAttemptIds.filterMap fun id =>
      (rowsById t.attemptRows).lookup id).map (FactSourceType.actionAttempt, ·)

/-- Two turns with the same decision, next to the same open actions, whose sources differ in
claims only. -/
structure SameButClaims (t t' : AppliedTurn V) : Prop where
  command : t.command = t'.command
  events : RowsSameButClaims t.eventRows t'.eventRows
  attempts : RowsSameButClaims t.attemptRows t'.attemptRows
  openActions : t.openActions = t'.openActions

/-- The rows are those of the decision. -/
def Loads (t : AppliedTurn V) : Prop :=
  (∃ events, loadSources "one or more decision events are unavailable"
    t.command.decision.basedOnEventIds t.eventRows = .ok events) ∧
  ∃ attempts, loadSources "one or more decision action attempts are unavailable"
    t.command.decision.basedOnActionAttemptIds t.attemptRows = .ok attempts

/-- The facts of a turn that is applied. -/
lemma decisionProjection_eq_ok {t : AppliedTurn V} {p facts : FactProjection V} :
    decisionProjection p t.command.decision t.eventRows t.attemptRows = .ok facts ↔
      t.Loads ∧ facts = foldObserved p t.sources := by
  rw [decisionProjection]
  constructor
  · intro h
    obtain ⟨events, hevents, h⟩ := ok_of_bind h
    obtain ⟨attempts, hattempts, h⟩ := ok_of_bind h
    obtain rfl := Except.ok.inj h
    refine ⟨⟨⟨events, hevents⟩, attempts, hattempts⟩, ?_⟩
    rw [foldObserved, sources, List.foldl_append, List.foldl_map, List.foldl_map,
      ← (loadSources_eq_ok.mp hevents).2, ← (loadSources_eq_ok.mp hattempts).2]
  · rintro ⟨⟨⟨events, hevents⟩, attempts, hattempts⟩, rfl⟩
    rw [hevents]
    simp only [bind, Except.bind]
    rw [hattempts, foldObserved, sources, List.foldl_append, List.foldl_map, List.foldl_map,
      ← (loadSources_eq_ok.mp hevents).2, ← (loadSources_eq_ok.mp hattempts).2]
    rfl

/-- Such turns load together. -/
lemma SameButClaims.loads {t t' : AppliedTurn V} (h : t.SameButClaims t') (hload : t.Loads) :
    t'.Loads := by
  obtain ⟨⟨events, hevents⟩, attempts, hattempts⟩ := hload
  obtain ⟨events', hevents', -⟩ := h.events.load hevents
  obtain ⟨attempts', hattempts', -⟩ := h.attempts.load hattempts
  rw [h.command] at hevents' hattempts'
  exact ⟨⟨events', hevents'⟩, attempts', hattempts'⟩

/-- The sources of such turns differ in claims. -/
lemma SameButClaims.sources {t t' : AppliedTurn V} (h : t.SameButClaims t') (hload : t.Loads) :
    List.Forall₂ (fun s s' => s.1 = s'.1 ∧ TiramisuAgents.SameButClaims s.2 s'.2) t.sources
      t'.sources := by
  obtain ⟨⟨events, hevents⟩, attempts, hattempts⟩ := hload
  obtain ⟨events', hevents', hrel⟩ := h.events.load hevents
  obtain ⟨attempts', hattempts', hrel'⟩ := h.attempts.load hattempts
  rw [AppliedTurn.sources, AppliedTurn.sources, ← h.command,
    ← (loadSources_eq_ok.mp hevents).2, ← (loadSources_eq_ok.mp hattempts).2,
    ← (loadSources_eq_ok.mp hevents').2, ← (loadSources_eq_ok.mp hattempts').2]
  refine List.rel_append ?_ ?_
  · rw [List.forall₂_map_left_iff, List.forall₂_map_right_iff]
    exact hrel.imp fun _ _ hs => ⟨rfl, hs⟩
  · rw [List.forall₂_map_left_iff, List.forall₂_map_right_iff]
    exact hrel'.imp fun _ _ hs => ⟨rfl, hs⟩

/-- The facts that `validate_decision` is given for a completion. -/
def prospective (t : AppliedTurn V) (row : ProcessRow V) : List (String × V) :=
  prospectiveFacts row.facts.authoritative
    (t.command.decision.basedOnEventIds.filterMap fun id => (rowsById t.eventRows).lookup id)
    (t.command.decision.basedOnActionAttemptIds.filterMap fun id =>
      (rowsById t.attemptRows).lookup id)

/-- They are those of the fold. -/
lemma prospective_eq (t : AppliedTurn V) (row : ProcessRow V) :
    t.prospective row = (foldObserved row.facts t.sources).authoritative := by
  rw [prospective, prospectiveFacts_eq, foldObserved, sources, List.foldl_append, List.foldl_map,
    List.foldl_map, authoritative_foldl_apply, authoritative_foldl_apply]

end AppliedTurn

end

/-! ### Runs of applied decisions -/

section

variable {V : Type} [BEq V] {S : Services V}

/-- The decision is applied to a process. -/
def AppliedTurn.Applied (S : Services V) (t : AppliedTurn V) (row row' : ProcessRow V) : Prop :=
  ∃ facts transition, t.command.project S row t.eventRows t.attemptRows = .ok facts ∧
    t.command.transition facts t.openActions = .ok transition ∧
    row' = row.apply t.command.decision facts transition

/-- The decisions that were applied to a process, between other writes that keep its facts. -/
inductive AppliedRun (S : Services V) (row₀ : ProcessRow V) :
    List (AppliedTurn V) → ProcessRow V → Prop where
  | start : AppliedRun S row₀ [] row₀
  | apply {ts : List (AppliedTurn V)} {row row' : ProcessRow V} {t : AppliedTurn V} :
      AppliedRun S row₀ ts row → t.Applied S row row' → AppliedRun S row₀ (ts ++ [t]) row'
  | other {ts : List (AppliedTurn V)} {row row' : ProcessRow V} :
      AppliedRun S row₀ ts row → row'.facts = row.facts → AppliedRun S row₀ ts row'

/-- A completion is accepted. -/
def AppliedTurn.Completes (S : Services V) (t : AppliedTurn V) (row : ProcessRow V) : Prop :=
  t.command.decision.status = .completed ∧ ∃ row', t.Applied S row row'

omit [BEq V] in
/-- The facts of the turn are within the limits of the platform. -/
def AppliedTurn.WithinLimits (S : Services V) (t : AppliedTurn V) (row : ProcessRow V) : Prop :=
  requireProcessFactProjection S.bytes (foldObserved row.facts t.sources) = .ok ()

omit [BEq V] in
lemma project_eq_ok_iff {t : AppliedTurn V} {row : ProcessRow V} {facts : FactProjection V} :
    t.command.project S row t.eventRows t.attemptRows = .ok facts ↔
      t.Loads ∧ t.WithinLimits S row ∧ facts = foldObserved row.facts t.sources := by
  rw [DecisionInput.project, AppliedTurn.WithinLimits]
  constructor
  · intro h
    obtain ⟨p, hp, h⟩ := ok_of_bind h
    obtain ⟨⟨⟩, hlimits, h⟩ := ok_of_bind h
    obtain rfl := Except.ok.inj h
    obtain ⟨hload, rfl⟩ := AppliedTurn.decisionProjection_eq_ok.mp hp
    exact ⟨hload, hlimits, rfl⟩
  · rintro ⟨hload, hlimits, rfl⟩
    rw [AppliedTurn.decisionProjection_eq_ok.mpr ⟨hload, rfl⟩]
    simp only [bind, Except.bind]
    rw [hlimits]
    rfl

/-- The facts of a run are those of its sources. -/
lemma AppliedRun.facts {row₀ row : ProcessRow V} {ts : List (AppliedTurn V)}
    (h : AppliedRun S row₀ ts row) :
    row.facts = foldObserved row₀.facts (ts.flatMap AppliedTurn.sources) ∧
      ∀ t ∈ ts, t.Loads := by
  induction h with
  | start => exact ⟨rfl, fun _ ht => absurd ht List.not_mem_nil⟩
  | @apply ts row row' t _ happlied ih =>
      obtain ⟨facts, transition, hproject, -, rfl⟩ := happlied
      obtain ⟨hload, -, rfl⟩ := project_eq_ok_iff.mp hproject
      refine ⟨?_, fun t' ht' => ?_⟩
      · rw [List.flatMap_append, foldObserved_append, ← ih.1, List.flatMap_singleton]
        rfl
      · rcases List.mem_append.mp ht' with ht' | ht'
        · exact ih.2 t' ht'
        · rw [List.mem_singleton.mp ht']
          exact hload
  | other _ hsame ih => exact ⟨hsame.trans ih.1, ih.2⟩

omit [BEq V] in
/-- The sources of two runs that differ in claims. -/
lemma sources_sameButClaims {ts ts' : List (AppliedTurn V)}
    (h : List.Forall₂ AppliedTurn.SameButClaims ts ts') (hload : ∀ t ∈ ts, t.Loads) :
    List.Forall₂ (fun s s' => s.1 = s'.1 ∧ SameButClaims s.2 s'.2)
      (ts.flatMap AppliedTurn.sources) (ts'.flatMap AppliedTurn.sources) := by
  induction h with
  | nil => exact .nil
  | cons ht _ ih =>
      rw [List.flatMap_cons, List.flatMap_cons]
      exact List.rel_append (ht.sources (hload _ List.mem_cons_self))
        (ih fun t' ht' => hload t' (List.mem_cons_of_mem _ ht'))

/-- A transition sees the authoritative facts only. -/
lemma transition_congr (c : DecisionInput V) {facts facts' : FactProjection V}
    (h : facts.authoritative = facts'.authoritative) (openActions : OpenActions) :
    c.transition facts openActions = c.transition facts' openActions := by
  rw [DecisionInput.transition, DecisionInput.transition, h]

/-- A completion that is accepted is accepted whatever is claimed. -/
lemma AppliedTurn.SameButClaims.completes {t t' : AppliedTurn V} (h : t.SameButClaims t')
    {row row' : ProcessRow V} (hrow : row.facts.authoritativePart = row'.facts.authoritativePart)
    (hlimits : t'.WithinLimits S row') (hcompletes : t.Completes S row) : t'.Completes S row' := by
  obtain ⟨hstatus, -, facts, transition, hproject, htransition, -⟩ := hcompletes
  obtain ⟨hload, -, rfl⟩ := project_eq_ok_iff.mp hproject
  have hsame := authoritativePart_eq (authoritativePart_foldl (h.sources hload) hrow)
  rw [transition_congr _ hsame.1, h.command, h.openActions] at htransition
  rw [h.command] at hstatus
  exact ⟨hstatus, _, _, transition,
    project_eq_ok_iff.mpr ⟨h.loads hload, hlimits, rfl⟩, htransition, rfl⟩

omit [BEq V] in
lemma AppliedTurn.SameButClaims.symm {t t' : AppliedTurn V} (h : t.SameButClaims t') :
    t'.SameButClaims t := by
  have hrows : ∀ {rows rows' : List (FactSource V)}, RowsSameButClaims rows rows' →
      RowsSameButClaims rows' rows := by
    intro rows rows' hrows id
    have hone := hrows id
    revert hone
    cases (rowsById rows).lookup id <;> cases (rowsById rows').lookup id <;> intro hone <;>
      cases hone
    · exact .none
    · rename_i hs
      exact .some ⟨hs.id.symm, hs.facts.symm⟩
  exact ⟨h.command.symm, hrows h.events, hrows h.attempts, h.openActions.symm⟩

/-- **Fact integrity.**  Two runs of applied decisions from one state, over the same sources up to
customer claims, have the same authoritative facts with the same provenance, and next to such
sources accept the same completions as long as the limits are met; and the provenance of a run
from an empty projection is exact. -/
theorem fact_integrity {row₀ row row' : ProcessRow V} {ts ts' : List (AppliedTurn V)}
    (h : AppliedRun S row₀ ts row) (h' : AppliedRun S row₀ ts' row')
    (hts : List.Forall₂ AppliedTurn.SameButClaims ts ts') :
    row.facts.authoritative = row'.facts.authoritative ∧
    row.facts.provenance.filter (fun e => isAuthoritativeKey e.1)
      = row'.facts.provenance.filter (fun e => isAuthoritativeKey e.1) ∧
    (∀ t t' : AppliedTurn V, t.SameButClaims t' → t.WithinLimits S row → t'.WithinLimits S row' →
      (t.Completes S row ↔ t'.Completes S row') ∧
        (t.Loads → t.prospective row = t'.prospective row')) ∧
    (row₀.facts = {} → ExactProvenance row.facts (ts.flatMap AppliedTurn.sources)) := by
  obtain ⟨hfacts, hload⟩ := h.facts
  have hpart : row.facts.authoritativePart = row'.facts.authoritativePart := by
    rw [hfacts, h'.facts.1]
    exact authoritativePart_foldl (sources_sameButClaims hts hload) rfl
  refine ⟨(authoritativePart_eq hpart).1, (authoritativePart_eq hpart).2, fun t t' ht hlimits
    hlimits' => ⟨⟨ht.completes hpart hlimits', ?_⟩, fun hloads => ?_⟩, fun hempty => ?_⟩
  · exact ht.symm.completes hpart.symm hlimits
  · rw [AppliedTurn.prospective_eq, AppliedTurn.prospective_eq]
    exact (authoritativePart_eq (authoritativePart_foldl (ht.sources hloads) hpart)).1
  · rw [hfacts, hempty]
    exact exactProvenance_foldObserved _

/-! ### Runs of the calls -/

omit [BEq V] in
/-- The revisions are those of the applied decisions. -/
def RevisionsOf (ts : List (AppliedTurn V)) (revisions : List (ProcessStateRevision V)) : Prop :=
  List.Forall₂ (fun t r => r.decisionId = t.command.decision.decisionId ∧
    r.basedOnEventIds = t.command.decision.basedOnEventIds ∧
    r.basedOnActionAttemptIds = t.command.decision.basedOnActionAttemptIds) ts revisions

/-- A step applies a decision, or keeps the facts and the revisions. -/
lemma ProcessStep.appliedRun {t t' : ProcessStage V} {x : ProcessInput V}
    {w w' : ProcessDatabase V} {obs : List (ProcessEvent V)} {row₀ : ProcessRow V}
    (h : ProcessStep S t x w t' w' obs) (ht : t.Knows S w)
    (hw : ∃ ts, AppliedRun S row₀ ts w.process ∧ RevisionsOf ts w.revisions) :
    ∃ ts, AppliedRun S row₀ ts w'.process ∧ RevisionsOf ts w'.revisions := by
  obtain ⟨ts, hrun, hrevisions⟩ := hw
  cases h with
  | applyDecision c row facts openActions transition =>
      obtain ⟨rfl, -, -, ⟨events, attempts, hproject⟩, htransition⟩ := ht
      refine ⟨ts ++ [⟨c, events, attempts, openActions⟩], hrun.apply ?_, ?_⟩
      · exact ⟨facts, transition, hproject, htransition, rfl⟩
      · exact List.rel_append hrevisions (.cons ⟨rfl, rfl, rfl⟩ .nil)
  | intervene v row =>
      obtain rfl : row = w.process := ht
      exact ⟨ts, hrun.other w.process.intervene_frame.1, hrevisions⟩
  | control c reason row write eventId recordedAt hlive hwritten =>
      obtain rfl : row = w.process := ht
      exact ⟨ts, hrun.other (ProcessControlInput.write_frame hwritten).1, hrevisions⟩
  | _ => exact ⟨ts, hrun, hrevisions⟩

variable (S) in
/-- The process row is that of the decisions applied to it. -/
lemma appliedSound (row₀ : ProcessRow V) : Joint (processCalls S) (fun _ _ _ _ => True)
    (fun _ _ _ _ => True)
    (fun w _ => ∃ ts, AppliedRun S row₀ ts w.process ∧ RevisionsOf ts w.revisions)
    (fun t w _ => t.Knows S w) where
  own hnext _ hw ht := by
    have h := ProcessStep.of_advance hnext
    exact ⟨h.appliedRun ht hw, h.knows ht⟩
  other hnext _ _ hlocks _ _ hu := (ProcessStep.of_advance hnext).knows_other hlocks hu

/-- **Every run of the calls** on a new process is a run of applied decisions, those of its
revisions. -/
theorem appliedRun_runs {n : ℕ} {createdAt : Time}
    {s : Pool n (ProcessDatabase V) (ProcessStage V) (ProcessEvent V)}
    {G : Pool n (ProcessDatabase V) (ProcessStage V) (ProcessEvent V) →
      Fin n × ProcessInput V → Prop}
    {ms : List (Fin n × ProcessInput V)}
    (h : Runs (processCalls S) G (newProcess n createdAt) ms s) :
    ∃ ts, AppliedRun S { status := .active, createdAt := createdAt } ts s.store.process ∧
      RevisionsOf ts s.store.revisions :=
  ((appliedSound S { status := .active, createdAt := createdAt }).runs (fun _ _ _ _ => trivial)
    (fun _ _ _ _ _ _ => trivial) h
    (newProcess_holds S n createdAt ⟨[], .start, .nil⟩ trivial)).common

end

/-- A decision whose projections are accepted is applied. -/
lemma exists_applied {V : Type} [BEq V] {S : Services V} {t : AppliedTurn V} {row : ProcessRow V}
    (h : ((t.command.project S row t.eventRows t.attemptRows).bind fun facts =>
      t.command.transition facts t.openActions).toOption.isSome) :
    ∃ row', t.Applied S row row' := by
  cases hproject : t.command.project S row t.eventRows t.attemptRows with
  | error message =>
      rw [hproject] at h
      cases h
  | ok facts =>
      cases htransition : t.command.transition facts t.openActions with
      | error message =>
          rw [hproject, Except.bind, htransition] at h
          cases h
      | ok transition => exact ⟨_, facts, transition, hproject, htransition, rfl⟩

/-! ### A claim that changes nothing -/

/-- A turn on an event that observes a payment, and perhaps more. -/
def paidTurn (claims : List (FactObservation ℕ)) : AppliedTurn ℕ where
  command :=
    { agentTurnId := "turn"
      decision := plainCompletion "decision" ["event"] []
      completionRequirements := [("payment.amount", 7)] }
  eventRows := [⟨"event", ⟨"payment.amount", .authoritative, 7⟩ :: claims⟩]
  attemptRows := []
  openActions := []

/-- A customer who claims to have paid more. -/
def overpaid : List (FactObservation ℕ) := [⟨"payment.amount", .customerClaim, 9⟩]

/-- The process row before the turn. -/
def unpaidRow : ProcessRow ℕ := { status := .active, createdAt := 0 }

lemma paidTurn_sameButClaims : (paidTurn []).SameButClaims (paidTurn overpaid) := by
  refine ⟨rfl, fun id => ?_, fun id => .none, rfl⟩
  change Option.Rel SameButClaims (List.lookup id [(_, _)]) (List.lookup id [(_, _)])
  rw [List.lookup_cons, List.lookup_cons]
  cases id == "event" with
  | true => exact .some ⟨rfl, rfl⟩
  | false => exact .none

/-- The claim leaves the amount paid, and the completion, as they are. -/
theorem fact_integrity_overpaid :
    ∃ row row', AppliedRun (sampleServices false) unpaidRow [paidTurn []] row ∧
      AppliedRun (sampleServices false) unpaidRow [paidTurn overpaid] row' ∧
      row.facts.authoritative = row'.facts.authoritative ∧
      ExactProvenance row.facts ([paidTurn []].flatMap AppliedTurn.sources) := by
  have happlied : ∃ row, (paidTurn []).Applied (sampleServices false) unpaidRow row :=
    exists_applied (by decide +kernel)
  have happlied' : ∃ row, (paidTurn overpaid).Applied (sampleServices false) unpaidRow row :=
    exists_applied (by decide +kernel)
  obtain ⟨row, happlied⟩ := happlied
  obtain ⟨row', happlied'⟩ := happlied'
  have h : AppliedRun (sampleServices false) unpaidRow [paidTurn []] row :=
    AppliedRun.start.apply happlied
  have h' : AppliedRun (sampleServices false) unpaidRow [paidTurn overpaid] row' :=
    AppliedRun.start.apply happlied'
  obtain ⟨hsame, -, -, hexact⟩ := fact_integrity h h' (.cons paidTurn_sameButClaims .nil)
  exact ⟨row, row', h, h', hsame, hexact rfl⟩

end TiramisuAgents
