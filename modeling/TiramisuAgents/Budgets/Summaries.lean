import TiramisuAgents.Budgets.Breakers
import TiramisuAgents.Library.Dict

/-!
What the operators are shown of the circuit breakers, and what the breakers stop.

`_latest_breaker_summaries` (`api/processes.py`) reads all transitions of a tenant with one query
and keeps the first row of each breaker.  `open_for_model_calls`, `open_for_outbound` and
`open_for_capability` (`budgets/breakers.py`) ask for the newest row of one breaker after the other.

* `latestBreakerSummaries`, `firstOpen`: the functions of the source.
* `CircuitBreaker.Named`, `named_runs`: the rows of a run belong to breakers that can be asked for.
* `lookup_latest`, `mem_summaries`: the one query finds what the others find.
* `breakers_shown`: in every run a call is stopped by the breakers that are shown as tripped.
-/

namespace TiramisuAgents.Budgets

open Transactions

/-! ### What is shown -/

/-- `BreakerStateSummary`. -/
structure BreakerStateSummary where
  scope : String
  target : String
  tripped : Bool
  reason : String
  actorId : UUID
  transitionedAt : Time
  deriving DecidableEq, Repr

/-- `_summarize_breaker`. -/
def BreakerState.summary (state : BreakerState) : BreakerStateSummary where
  scope := state.scope.value
  target := state.target
  tripped := state.tripped
  reason := state.reason
  actorId := state.actorId
  transitionedAt := state.transitionedAt

/-- The summary of a row. -/
def CircuitBreaker.summary (r : CircuitBreaker) : BreakerStateSummary where
  scope := r.scope
  target := r.target
  tripped := r.tripped
  reason := r.reason
  actorId := r.actorId
  transitionedAt := r.createdAt

/-- The rows in descending order of `created_at` and `id`. -/
def newestFirst (rows : List CircuitBreaker) : List CircuitBreaker :=
  rows.insertionSort fun a b => toLex (b.createdAt, b.id) ≤ toLex (a.createdAt, a.id)

/-- The first row of each breaker. -/
def firstSummaries (rows : List CircuitBreaker) : List ((String × String) × BreakerStateSummary) :=
  Dict.fillDefaults [] (rows.map fun row => ((row.scope, row.target), row.summary))

/-- `_latest_breaker_summaries`. -/
def latestBreakerSummaries (rows : List CircuitBreaker) (tenantId : UUID) :
    List BreakerStateSummary :=
  let latest := firstSummaries (newestFirst (rows.filter fun r => r.tenantId = tenantId))
  let keys := (latest.map Prod.fst).insertionSort fun a b => toLex a ≤ toLex b
  keys.filterMap fun key => latest.lookup key

/-! ### What is stopped -/

/-- The first of some breakers that is open. -/
def firstOpen (rows : List CircuitBreaker) (tenantId : UUID) :
    List (BreakerScope × String) → Except String (Option BreakerState)
  | [] => return none
  | (scope, target) :: rest => do
      let state ← latest rows tenantId scope target
      if isTripped state then return state else firstOpen rows tenantId rest

/-- `open_for_model_calls`. -/
def openForModelCalls (rows : List CircuitBreaker) (tenantId : UUID) :
    Except String (Option BreakerState) :=
  firstOpen rows tenantId [(.all, ""), (.modelCalls, "")]

/-- `open_for_outbound`. -/
def openForOutbound (rows : List CircuitBreaker) (tenantId : UUID) :
    Except String (Option BreakerState) :=
  firstOpen rows tenantId [(.all, ""), (.outboundMessages, "")]

/-- `open_for_capability`. -/
def openForCapability (rows : List CircuitBreaker) (tenantId : UUID) (actionType : String) :
    Except String (Option BreakerState) :=
  firstOpen rows tenantId [(.all, ""), (.capability, actionType)]

/-- The tripped breaker among those that are shown. -/
def shownOpen (shown : List BreakerStateSummary) (scope : BreakerScope) (target : String) :
    Option BreakerStateSummary :=
  shown.find? fun b => b.scope = scope.value ∧ b.target = target ∧ b.tripped = true

/-! ### Rows of breakers -/

/-- A row of a breaker that can be asked for. -/
def CircuitBreaker.Named (r : CircuitBreaker) : Prop :=
  ∃ scope : BreakerScope, r.scope = scope.value ∧
    normalizeBreakerTarget scope r.target = .ok r.target

/-- A target as it is stored stays as it is. -/
lemma normalizeBreakerTarget_idem {scope : BreakerScope} {target normalized : String}
    (h : normalizeBreakerTarget scope target = .ok normalized) :
    normalizeBreakerTarget scope normalized = .ok normalized := by
  unfold normalizeBreakerTarget at h ⊢
  split_ifs at h with hscope hblank hlong hother
  · obtain rfl := Except.ok.inj h
    rw [if_pos hscope, strip_strip, if_neg hblank, if_neg hlong]
  · obtain rfl := Except.ok.inj h
    rw [if_neg hscope, if_neg (by simp)]

section

variable {κ : Type} {hash : String → κ} {t t' : Stage κ} {x : Answer}
  {rows rows' : List CircuitBreaker} {obs : List Outcome}

/-- A session adds rows of breakers that can be asked for. -/
def Stage.Names (t : Stage κ) : Prop :=
  (∀ r ∈ t.tx.rows, r.Named) ∧ match t with
    | .locked _ c _ target | .found _ c _ target _ =>
        normalizeBreakerTarget c.scope c.target = .ok target
    | _ => True

lemma Moves.names (h : Moves hash rows t x t' rows' obs) (hrows : ∀ r ∈ rows, r.Named)
    (ht : t.Names) : (∀ r ∈ rows', r.Named) ∧ t'.Names := by
  have hempty : ∀ r ∈ ([] : List CircuitBreaker), r.Named := fun _ h => absurd h List.not_mem_nil
  cases h with
  | rollback => exact ⟨hrows, hempty, trivial⟩
  | commit tx =>
      refine ⟨fun r hr => ?_, hempty, trivial⟩
      exact (List.mem_append.mp hr).elim (hrows r) (ht.1 r)
  | error => exact ⟨hrows, ht.1, trivial⟩
  | refused => exact ⟨hrows, ht⟩
  | begun tx c reason target hchecked =>
      exact ⟨hrows, ht.1, BreakerTransition.normalized hchecked⟩
  | conflict => exact ⟨hrows, ht.1, trivial⟩
  | found => exact ⟨hrows, ht⟩
  | duplicate => exact ⟨hrows, ht.1, trivial⟩
  | inserted tx c reason target =>
      refine ⟨hrows, fun r hr => ?_, trivial⟩
      obtain hr | hr := List.mem_append.mp hr
      · exact ht.1 r hr
      · rw [List.mem_singleton.mp hr]
        exact ⟨c.scope, rfl, normalizeBreakerTarget_idem ht.2⟩

variable (hash) in
/-- The rule for the rows of breakers. -/
lemma namedJoint [DecidableEq κ] : Joint (breakers hash) (fun _ _ _ _ => True)
    (fun _ _ _ _ => True) (fun rows _ => AllOrderly rows ∧ ∀ r ∈ rows, r.Named)
    (fun t rows _ => t.Inv hash rows ∧ t.Names) where
  own hnext _ hrows ht := by
    have h := moves_of_advance hnext
    obtain ⟨horderly, hinv⟩ := h.own hrows.1 ht.1
    obtain ⟨hnamed, hnames⟩ := h.names hrows.2 ht.2
    exact ⟨⟨horderly, hnamed⟩, hinv, hnames⟩
  other hnext _ _ hdisjoint _ ht hu :=
    ⟨(moves_of_advance hnext).other ht.1 hu.1 hdisjoint, hu.2⟩

/-- **Every run** keeps the histories orderly and the rows those of breakers. -/
lemma named_runs [DecidableEq κ] {n : ℕ} {ms : List (Fin n × Answer)}
    {s : Pool n (List CircuitBreaker) (Stage κ) Outcome}
    (h : Runs (breakers hash) (fun _ _ => True) ⟨[], fun _ => .between {}, []⟩ ms s) :
    AllOrderly s.store ∧ ∀ r ∈ s.store, r.Named := by
  have hstart : AllOrderly [] := fun _ _ _ => Orderly.nil
  exact ((namedJoint hash).runs (fun _ _ _ _ => trivial) (fun _ _ _ _ _ _ => trivial) h
    ⟨fun i j l hi _ => absurd hi List.not_mem_nil,
      ⟨hstart, fun _ h => absurd h List.not_mem_nil⟩,
      fun _ => ⟨.empty hstart, fun _ h => absurd h List.not_mem_nil, trivial⟩⟩).common

end

/-! ### One query -/

section

variable {rows : List CircuitBreaker} {tenantId : UUID} {b : BreakerStateSummary}

lemma newestFirst_perm (rows : List CircuitBreaker) : (newestFirst rows).Perm rows :=
  List.perm_insertionSort _ rows

lemma newestFirst_pairwise (rows : List CircuitBreaker) :
    (newestFirst rows).Pairwise fun a b => b.createdAt ≤ a.createdAt := by
  let r (a b : CircuitBreaker) : Prop := toLex (b.createdAt, b.id) ≤ toLex (a.createdAt, a.id)
  have : Std.Total r := ⟨fun a b => le_total _ _⟩
  have : IsTrans CircuitBreaker r := ⟨fun _ _ _ hab hbc => le_trans hbc hab⟩
  refine (List.pairwise_insertionSort r rows).imp fun {a b} hab => ?_
  obtain hlt | ⟨heq, -⟩ := Prod.Lex.toLex_le_toLex.mp hab
  · exact hlt.le
  · exact heq.le

/-- The rows of a breaker, newest first, are its history backwards. -/
lemma newestFirst_history (h : AllOrderly rows) (scope : BreakerScope) (target : String) :
    (newestFirst (rows.filter fun r => r.tenantId = tenantId)).filter
        (fun r => (r.scope, r.target) = (scope.value, target))
      = (history rows tenantId scope target).reverse := by
  have hincreasing := (h tenantId scope target).increasing
  have hperm : ((newestFirst (rows.filter fun r => r.tenantId = tenantId)).filter
      fun r => (r.scope, r.target) = (scope.value, target)).Perm
        (history rows tenantId scope target) := by
    refine ((newestFirst_perm _).filter _).trans (List.Perm.of_eq ?_)
    rw [List.filter_filter, history]
    refine List.filter_congr fun r _ => ?_
    rw [← Bool.decide_and, decide_eq_decide, Prod.mk.injEq]
    tauto
  -- no two rows of the breaker have the same time
  have hnodup : ((history rows tenantId scope target).map CircuitBreaker.createdAt).Nodup :=
    List.pairwise_map.mpr (hincreasing.imp fun h => h.ne)
  refine @List.Perm.eq_of_pairwise _ (fun a b : CircuitBreaker => b.createdAt ≤ a.createdAt) _ _
    (fun a c ha hc hca hac => ?_) ((newestFirst_pairwise _).filter _)
    (List.pairwise_reverse.mpr (hincreasing.imp fun h => h.le))
    (hperm.trans (List.reverse_perm _).symm)
  exact List.inj_on_of_nodup_map hnodup (hperm.mem_iff.mp ha) (List.mem_reverse.mp hc)
    (le_antisymm hac hca)

/-- The first summary of a key is that of its first row. -/
lemma lookup_firstSummaries (rows : List CircuitBreaker) (key : String × String) :
    (firstSummaries rows).lookup key =
      (rows.filter fun r => (r.scope, r.target) = key).head?.map (·.summary) := by
  rw [firstSummaries, Dict.lookup_fillDefaults, List.lookup_nil, Option.none_or]
  induction rows with
  | nil => rfl
  | cons r rows ih =>
      rw [List.map_cons, List.lookup_cons, List.filter_cons]
      by_cases hkey : (r.scope, r.target) = key
      · simp [hkey]
      · rw [if_neg (by simpa using hkey), beq_eq_false_iff_ne.mpr (Ne.symm hkey), ih]

/-- **One query** finds the newest row of each breaker. -/
lemma lookup_newestFirst (h : AllOrderly rows) (scope : BreakerScope) (target : String) :
    (firstSummaries (newestFirst (rows.filter fun r => r.tenantId = tenantId))).lookup
        (scope.value, target)
      = (newest (history rows tenantId scope target)).map (·.summary) := by
  rw [lookup_firstSummaries, newestFirst_history h, List.head?_reverse,
    newest_eq_getLast? (h tenantId scope target).increasing]

/-- A summary is stored under its own key. -/
lemma key_of_lookup {key : String × String} (h : (firstSummaries rows).lookup key = some b) :
    key = (b.scope, b.target) := by
  rw [lookup_firstSummaries] at h
  obtain ⟨r, hr, rfl⟩ := Option.map_eq_some_iff.mp h
  exact (of_decide_eq_true (List.mem_filter.mp (List.mem_of_mem_head? hr)).2).symm

lemma mem_summaries : b ∈ latestBreakerSummaries rows tenantId ↔
    (firstSummaries (newestFirst (rows.filter fun r => r.tenantId = tenantId))).lookup
      (b.scope, b.target) = some b := by
  rw [latestBreakerSummaries, List.mem_filterMap]
  constructor
  · rintro ⟨key, -, hkey⟩
    rwa [key_of_lookup hkey] at hkey
  · intro h
    refine ⟨_, ?_, h⟩
    rw [List.mem_insertionSort]
    exact List.mem_map.mpr ⟨_, Dict.mem_of_lookup h, rfl⟩

/-- The summaries stand in the order of their keys. -/
lemma summaries_pairwise (rows : List CircuitBreaker) (tenantId : UUID) :
    (latestBreakerSummaries rows tenantId).Pairwise fun a b =>
      toLex (a.scope, a.target) < toLex (b.scope, b.target) := by
  let r (a b : String × String) : Prop := toLex a ≤ toLex b
  have : Std.Total r := ⟨fun a b => le_total _ _⟩
  have : IsTrans (String × String) r := ⟨fun _ _ _ => le_trans⟩
  rw [latestBreakerSummaries, List.pairwise_filterMap]
  have hnodup := (List.perm_insertionSort r _).nodup_iff.mpr (Dict.nodup_keys_fillDefaults
    (d := []) List.nodup_nil ((newestFirst (rows.filter fun r => r.tenantId = tenantId)).map
      fun row => ((row.scope, row.target), row.summary)))
  refine ((List.pairwise_insertionSort r _).and hnodup).imp fun {k k'} hk a ha b hb => ?_
  rw [← key_of_lookup ha, ← key_of_lookup hb]
  exact lt_of_le_of_ne hk.1 fun heq => hk.2 (toLex.injective heq)

/-! ### What the queries find -/

lemma mem_of_newest (h : AllOrderly rows) {scope : BreakerScope} {target : String}
    {r : CircuitBreaker} (hr : newest (history rows tenantId scope target) = some r) :
    r.scope = scope.value ∧ r.target = target := by
  rw [newest_eq_getLast? (h tenantId scope target).increasing] at hr
  obtain ⟨-, -, hscope, htarget⟩ := mem_history.mp (List.mem_of_getLast? hr)
  exact ⟨hscope, htarget⟩

lemma state_summary {r : CircuitBreaker} {scope : BreakerScope} (h : r.scope = scope.value) :
    (r.state scope).summary = r.summary := by
  rw [CircuitBreaker.summary, h]
  rfl

/-- What is shown of a breaker is its newest row. -/
lemma mem_summaries_iff (h : AllOrderly rows) {scope : BreakerScope} {target : String} :
    (b ∈ latestBreakerSummaries rows tenantId ∧ b.scope = scope.value ∧ b.target = target) ↔
      ∃ r, newest (history rows tenantId scope target) = some r ∧ r.summary = b := by
  rw [mem_summaries]
  constructor
  · rintro ⟨hb, hscope, htarget⟩
    rw [hscope, htarget, lookup_newestFirst h] at hb
    exact Option.map_eq_some_iff.mp hb
  · rintro ⟨r, hr, rfl⟩
    obtain ⟨hscope, htarget⟩ := mem_of_newest h hr
    refine ⟨?_, hscope, htarget⟩
    change (firstSummaries _).lookup (r.scope, r.target) = _
    rw [hscope, htarget, lookup_newestFirst h, hr, Option.map_some]

/-- The open breaker that is shown is the one whose newest row is tripped. -/
lemma shownOpen_eq (h : AllOrderly rows) (scope : BreakerScope) (target : String) :
    shownOpen (latestBreakerSummaries rows tenantId) scope target =
      ((newest (history rows tenantId scope target)).filter (·.tripped)).map (·.summary) := by
  have hpred {c : BreakerStateSummary}
      (hc : shownOpen (latestBreakerSummaries rows tenantId) scope target = some c) :
      c.scope = scope.value ∧ c.target = target ∧ c.tripped = true := by
    have hc := List.find?_some hc
    exact of_decide_eq_true hc
  refine Option.ext fun b => ?_
  have hfound : shownOpen (latestBreakerSummaries rows tenantId) scope target = some b ↔
      b ∈ latestBreakerSummaries rows tenantId ∧ b.scope = scope.value ∧ b.target = target ∧
        b.tripped = true := by
    constructor
    · intro hb
      exact ⟨List.mem_of_find?_eq_some hb, hpred hb⟩
    · rintro ⟨hmem, hopen⟩
      have hsome : (shownOpen (latestBreakerSummaries rows tenantId) scope target).isSome = true :=
        List.find?_isSome.mpr ⟨b, hmem, decide_eq_true hopen⟩
      obtain ⟨c, hc⟩ := Option.isSome_iff_exists.mp hsome
      -- there is one summary of the breaker
      obtain ⟨hscope, htarget, -⟩ := hpred hc
      have hcmem := mem_summaries.mp (List.mem_of_find?_eq_some hc)
      have hbmem := mem_summaries.mp hmem
      rw [hscope, htarget] at hcmem
      rw [hopen.1, hopen.2.1] at hbmem
      rw [hc, Option.some.inj (hcmem.symm.trans hbmem)]
  rw [hfound, Option.map_eq_some_iff]
  constructor
  · rintro ⟨hmem, hscope, htarget, htripped⟩
    obtain ⟨r, hr, rfl⟩ := (mem_summaries_iff h).mp ⟨hmem, hscope, htarget⟩
    exact ⟨r, Option.filter_eq_some_iff.mpr ⟨hr, htripped⟩, rfl⟩
  · rintro ⟨r, hr, rfl⟩
    obtain ⟨hr, htripped⟩ := Option.filter_eq_some_iff.mp hr
    obtain ⟨hmem, hscope, htarget⟩ := (mem_summaries_iff h).mpr ⟨r, hr, rfl⟩
    exact ⟨hmem, hscope, htarget, htripped⟩

/-- One breaker after the other is one of those that are shown after the other. -/
lemma firstOpen_cons (h : AllOrderly rows) (tenantId : UUID) {scope : BreakerScope}
    {target normalized : String} (htarget : normalizeBreakerTarget scope target = .ok normalized)
    (rest : List (BreakerScope × String)) {o : Option BreakerStateSummary}
    (hrest : (firstOpen rows tenantId rest).map (Option.map BreakerState.summary) = .ok o) :
    (firstOpen rows tenantId ((scope, target) :: rest)).map (Option.map BreakerState.summary)
      = .ok ((shownOpen (latestBreakerSummaries rows tenantId) scope normalized).or o) := by
  have hlatest := latest_eq (h tenantId scope normalized) htarget
  rw [← newest_eq_getLast? (h tenantId scope normalized).increasing] at hlatest
  have hstep : firstOpen rows tenantId ((scope, target) :: rest) =
      if isTripped ((newest (history rows tenantId scope normalized)).map (·.state scope)) then
        .ok ((newest (history rows tenantId scope normalized)).map (·.state scope))
      else firstOpen rows tenantId rest := by
    rw [firstOpen, hlatest]
    rfl
  rw [hstep, shownOpen_eq h]
  cases hr : newest (history rows tenantId scope normalized) with
  | none => simpa [isTripped] using hrest
  | some r =>
      cases htripped : r.tripped with
      | false => simpa [isTripped, CircuitBreaker.state, htripped, Option.filter] using hrest
      | true =>
          have hsummary := state_summary (mem_of_newest h hr).1
          have hopen : isTripped (some (r.state scope)) = true := htripped
          rw [Option.map_some, if_pos hopen, Option.filter_some, htripped, if_pos rfl,
            Option.map_some, Option.some_or, ← hsummary]
          rfl

end

/-- **What is shown is what stops calls.**  After every run of the sessions, with any clock, the
breakers of a tenant are shown in the order of their scopes and targets; there is one entry for each
breaker that has been moved, with the state that `latest` gives; and a model call, an outbound
message and an action are stopped by the entry that is shown as tripped, and by no other. -/
theorem breakers_shown {κ : Type} [DecidableEq κ] (hash : String → κ) {n : ℕ}
    {ms : List (Fin n × Answer)} {s : Pool n (List CircuitBreaker) (Stage κ) Outcome}
    (h : Runs (breakers hash) (fun _ _ => True) ⟨[], fun _ => .between {}, []⟩ ms s)
    (tenantId : UUID) :
    let shown := latestBreakerSummaries s.store tenantId
    (shown.Pairwise fun a b => toLex (a.scope, a.target) < toLex (b.scope, b.target)) ∧
    (∀ b, b ∈ shown ↔ ∃ scope state, latest s.store tenantId scope b.target = .ok (some state) ∧
      state.summary = b) ∧
    (openForModelCalls s.store tenantId).map (Option.map BreakerState.summary)
      = .ok ((shownOpen shown .all "").or (shownOpen shown .modelCalls "")) ∧
    (openForOutbound s.store tenantId).map (Option.map BreakerState.summary)
      = .ok ((shownOpen shown .all "").or (shownOpen shown .outboundMessages "")) ∧
    ∀ actionType target, normalizeBreakerTarget .capability actionType = .ok target →
      (openForCapability s.store tenantId actionType).map (Option.map BreakerState.summary)
        = .ok ((shownOpen shown .all "").or (shownOpen shown .capability target)) := by
  intro shown
  obtain ⟨horderly, hnamed⟩ := named_runs h
  have two (scope : BreakerScope) (target normalized : String)
      (htarget : normalizeBreakerTarget scope target = .ok normalized) :
      (firstOpen s.store tenantId [(.all, ""), (scope, target)]).map
          (Option.map BreakerState.summary)
        = .ok ((shownOpen shown .all "").or (shownOpen shown scope normalized)) := by
    have hlast := firstOpen_cons horderly tenantId htarget [] (o := none) rfl
    rw [Option.or_none] at hlast
    exact firstOpen_cons horderly tenantId rfl _ hlast
  refine ⟨summaries_pairwise _ _, fun b => ⟨fun hb => ?_, ?_⟩, two .modelCalls "" "" rfl,
    two .outboundMessages "" "" rfl, two .capability⟩
  · -- the entry is that of a row, and its breaker can be asked for
    have hlookup := mem_summaries.mp hb
    rw [lookup_firstSummaries] at hlookup
    obtain ⟨row, hrow, -⟩ := Option.map_eq_some_iff.mp hlookup
    obtain ⟨hmem, hkey⟩ := List.mem_filter.mp (List.mem_of_mem_head? hrow)
    have hmem := (List.mem_filter.mp ((newestFirst_perm _).mem_iff.mp hmem)).1
    obtain ⟨scope, hscope, htarget⟩ := hnamed row hmem
    obtain ⟨hscope', htarget'⟩ := Prod.mk.inj (of_decide_eq_true hkey)
    rw [htarget'] at htarget
    obtain ⟨r, hr, rfl⟩ :=
      (mem_summaries_iff horderly).mp ⟨hb, hscope'.symm.trans hscope, rfl⟩
    refine ⟨scope, r.state scope, ?_, state_summary (mem_of_newest horderly hr).1⟩
    rw [latest_eq (horderly _ _ _) htarget,
      ← newest_eq_getLast? (horderly _ _ _).increasing, hr, Option.map_some]
  · rintro ⟨scope, state, hstate, rfl⟩
    cases hnormal : normalizeBreakerTarget scope state.summary.target with
    | error message =>
        rw [latest, hnormal] at hstate
        cases hstate
    | ok normalized =>
        rw [latest_eq (horderly _ _ _) hnormal, ← newest_eq_getLast? (horderly _ _ _).increasing,
          Except.ok.injEq] at hstate
        obtain ⟨r, hr, rfl⟩ := Option.map_eq_some_iff.mp hstate
        rw [state_summary (mem_of_newest horderly hr).1]
        exact ((mem_summaries_iff horderly).mpr ⟨r, hr, rfl⟩).1

/-- The sending of messages is stopped; everything is stopped as well, and started again. -/
theorem breakers_shown_reset : ∃ (ms : List (Fin 2 × Answer))
    (s : Pool 2 (List CircuitBreaker) (Stage String) Outcome),
    Runs (breakers id) (fun _ _ => True) ⟨[], fun _ => .between {}, []⟩ ms s ∧
    (latestBreakerSummaries s.store "t").map (fun b => (b.scope, b.target, b.tripped))
      = [("all", "", false), ("capability", "send", true)] ∧
    (openForCapability s.store "t" " send").map (Option.map BreakerState.summary)
      = .ok ((shownOpen (latestBreakerSummaries s.store "t") .all "").or
        (shownOpen (latestBreakerSummaries s.store "t") .capability "send")) := by
  let send : BreakerTransition := ⟨"t", .capability, " send ", "a", "loops", true⟩
  let all (tripped : Bool) : BreakerTransition := ⟨"t", .all, "", "a", "incident", tripped⟩
  let ms : List (Fin 2 × Answer) :=
    [(0, .call send), (1, .call (all true)), (1, .select), (0, .select), (0, .insert 10 "1"),
      (1, .insert 11 "2"), (1, .commit), (0, .commit), (1, .call (all false)), (1, .select),
      (1, .insert 5 "3"), (1, .commit)]
  obtain ⟨s, hruns, hp⟩ := exists_runs (C := breakers id) (s := ⟨[], fun _ => .between {}, []⟩)
    (fun _ _ => true) ms
    (fun s => (latestBreakerSummaries s.store "t").map (fun b => (b.scope, b.target, b.tripped))
      = [("all", "", false), ("capability", "send", true)]) (by decide +kernel)
  have hruns := hruns.mono (H := fun _ _ => True) fun _ _ _ => trivial
  exact ⟨ms, s, hruns, of_decide_eq_true hp,
    (breakers_shown id hruns "t").2.2.2.2 " send" "send" (by decide +kernel)⟩

end TiramisuAgents.Budgets
