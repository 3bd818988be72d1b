import TiramisuAgents.Budgets.Turns
import TiramisuAgents.Library.Fences

/-!
How far the recorded spend of model calls passes its caps.

A call is in flight from the check of the budget of its process to its row.  Meanwhile calls of
other processes of the tenant are checked and recorded.

* `TurnStage.inFlight`, `TurnStage.cleared`: the process whose budget has been checked, and whose
  tenant has been.
* `Single`: a process has one call in flight.
* `Bounded`: the invariant, with the bounds of `Library.Fences`.
* `budget_overshoot`: the bounds for the four values of a process and the two of the tenant, and
  what happens at a cap.
-/

namespace TiramisuAgents.Budgets

open Fences Tables Transactions

variable {V β : Type}

/-! ### Values and caps -/

/-- The total of a value. -/
def total (f : ModelUsageLedger → ℕ) (rows : List ModelUsageLedger) : ℕ := (rows.map f).sum

/-- The value of the last call of a process. -/
def lastCall (f : ModelUsageLedger → ℕ) (rows : List ModelUsageLedger) (id : UUID) : ℕ :=
  ((ofProcess rows id).getLast?.map f).getD 0

/-- The values that the budget of a process caps. -/
def processCounters (budget : ModelBudget) : List ((ModelUsageLedger → ℕ) × ℕ) :=
  [(fun r => r.usage.inputTokens, budget.maxInputTokensPerProcess),
    (fun r => r.usage.outputTokens, budget.maxOutputTokensPerProcess),
    (fun r => r.usage.totalTokens, budget.maxTotalTokensPerProcess),
    (fun r => r.costMicros, budget.maxCostMicrosPerProcess)]

/-- The values that the caps of a tenant cap. -/
def tenantCounters (caps : TenantSpendCaps) : List ((ModelUsageLedger → ℕ) × ℕ) :=
  [(fun r => r.usage.totalTokens, caps.maxTokens), (fun r => r.costMicros, caps.maxCostMicros)]

lemma total_append (f : ModelUsageLedger → ℕ) (rows rows' : List ModelUsageLedger) :
    total f (rows ++ rows') = total f rows + total f rows' := by
  rw [total, List.map_append, List.sum_append, total, total]

lemma ofProcess_append (rows rows' : List ModelUsageLedger) (id : UUID) :
    ofProcess (rows ++ rows') id = ofProcess rows id ++ ofProcess rows' id :=
  List.filter_append ..

/-- The total tokens of rows. -/
lemma totalTokens_totals (rows : List ModelUsageLedger) :
    (totals rows).1.totalTokens = total (fun r => r.usage.totalTokens) rows := by
  induction rows with
  | nil => rfl
  | cons r rest ih =>
      simp only [totals, ModelUsage.totalTokens, total, List.map_cons, List.sum_cons] at ih ⊢
      omega

/-- A process passes the check of its budget if its four totals are below their caps. -/
lemma evaluateModelBudget_spent {budget : ModelBudget} {rows : List ModelUsageLedger} {id : UUID} :
    evaluateModelBudget budget (spent rows id).1 (spent rows id).2 = [] ↔
      ∀ c ∈ processCounters budget, total c.1 (ofProcess rows id) < c.2 := by
  rw [evaluateModelBudget_eq_nil, spent, totalTokens_totals]
  simp [processCounters, totals, total]

/-- A tenant passes its fence if its two totals are below their caps. -/
lemma evaluateTenantSpend_tenantSpent {rows : List ModelUsageLedger} {caps : TenantSpendCaps} :
    evaluateTenantSpend (tenantSpent rows).1 (tenantSpent rows).2 caps = none ↔
      ∀ c ∈ tenantCounters caps, total c.1 rows < c.2 := by
  rw [evaluateTenantSpend_eq_none, tenantSpent, totalTokens_totals]
  simp [tenantCounters, totals, total]

/-- The rows of a process, when a row is added. -/
lemma ofProcess_concat (rows : List ModelUsageLedger) (row : ModelUsageLedger) (id : UUID) :
    ofProcess (rows ++ [row]) id
      = if row.key.processInstanceId = id then ofProcess rows id ++ [row]
        else ofProcess rows id := by
  rw [ofProcess_append]
  by_cases h : row.key.processInstanceId = id
  · simp [ofProcess, h]
  · simp [ofProcess, h]

/-- The last call of a process, when a row is added. -/
lemma lastCall_concat (f : ModelUsageLedger → ℕ) (rows : List ModelUsageLedger)
    (row : ModelUsageLedger) :
    lastCall f (rows ++ [row])
      = Function.update (lastCall f rows) row.key.processInstanceId (f row) := by
  funext id
  rw [lastCall, ofProcess_concat]
  by_cases h : row.key.processInstanceId = id
  · subst h
    rw [if_pos rfl, Function.update_self, List.getLast?_concat]
    rfl
  · rw [if_neg h, Function.update_of_ne (Ne.symm h)]
    rfl

/-! ### Flights -/

/-- The process that has a call in flight: its budget has been checked. -/
def TurnStage.inFlight : TurnStage V → Option UUID
  | .checking p (.tenant _) | .checking p (.breakers _ _) | .checking p (.release _)
  | .rendering p | .calling p | .recording p _ _ => some p.processId
  | _ => none

/-- The process that has a call in flight whose tenant has been checked. -/
def TurnStage.cleared : TurnStage V → Option UUID
  | .checking p (.breakers _ _) | .checking p (.release _)
  | .rendering p | .calling p | .recording p _ _ => some p.processId
  | _ => none

lemma inFlight_of_cleared {t : TurnStage V} {id : UUID} (h : t.cleared = some id) :
    t.inFlight = some id := by
  cases t with
  | checking p point => cases point <;> first | exact h | cases h
  | _ => exact h

/-- A process has a call in flight. -/
def Flying {n : ℕ} (calls : Fin n → TurnStage V) (id : UUID) : Prop :=
  ∃ i, (calls i).inFlight = some id

/-- A process has a call in flight whose tenant has been checked. -/
def Cleared {n : ℕ} (calls : Fin n → TurnStage V) (id : UUID) : Prop :=
  ∃ i, (calls i).cleared = some id

/-- The budget of a process is checked while it has no other call in flight. -/
def Single {n : ℕ} (s : Pool n TurnDatabase (TurnStage V) (TurnEvent β))
    (m : Fin n × TurnAnswer V β) : Prop :=
  ∀ p status, s.calls m.1 = .checking p (.budget status) →
    ∀ j, j ≠ m.1 → (s.calls j).inFlight ≠ some p.processId

/-- What a statement is to the flights. -/
inductive FlightStep (W : TurnWorker V β) (db : TurnDatabase) :
    TurnStage V → TurnStage V → TurnDatabase → Prop where
  | outside (x : TurnAnswer V β) (db' : TurnDatabase) : db.outside x = some db' →
      FlightStep W db .idle .idle db'
  | keeps (t t' : TurnStage V) :
      (t'.inFlight = none ∨ t'.inFlight = t.inFlight) →
      (t'.cleared = none ∨ t'.cleared = t.cleared) → FlightStep W db t t' db
  | departs (p : Proposal V) (status : ProcessStatus) :
      (∀ c ∈ processCounters p.definition.budget,
        total c.1 (ofProcess db.ledger p.processId) < c.2) →
      FlightStep W db (.checking p (.budget status)) (.checking p (.tenant status)) db
  | clears (p : Proposal V) (status : ProcessStatus) :
      (∀ c ∈ tenantCounters W.tenantSpendCaps, total c.1 db.ledger < c.2) →
      FlightStep W db (.checking p (.tenant status)) (.checking p (.breakers status .all)) db
  | lands (p : Proposal V) (outcome : ModelTurnOutcome) (costMicros : ℕ) (t' : TurnStage V)
      (row : ModelUsageLedger) : t'.inFlight = none → t'.cleared = none →
      row.key.processInstanceId = p.processId →
      FlightStep W db (.recording p outcome costMicros) t' { db with ledger := db.ledger ++ [row] }

/-- A write of the ledger adds a row, or leaves the tables as they are. -/
lemma record_ledger {db : TurnDatabase} {ledger : List ModelUsageLedger} {row : ModelUsageLedger}
    {id : UUID} (h : record db.ledger row = .ok (ledger, id)) :
    { db with ledger } = { db with ledger := db.ledger ++ [row] } ∨ { db with ledger } = db := by
  rcases record_eq_ok h with ⟨-, rfl⟩ | ⟨-, rfl⟩
  · exact .inl rfl
  · exact .inr rfl

lemma TurnMoves.flight [BEq V] {W : TurnWorker V β} {t t' : TurnStage V} {x : TurnAnswer V β}
    {db db' : TurnDatabase} {obs : List (TurnEvent β)} (h : TurnMoves W db t x t' db' obs) :
    FlightStep W db t t' db' := by
  cases h with
  | outside x db' houtside => exact .outside x db' houtside
  | passed p point point' hpasses =>
      cases hpasses with
      | process | breakers | lastBreaker => exact .keeps _ _ (.inr rfl) (.inr rfl)
      | budget status hallowed => exact .departs p status (evaluateModelBudget_spent.mp hallowed)
      | tenant status hallowed =>
          exact .clears p status (evaluateTenantSpend_tenantSpent.mp hallowed)
  | recorded p outcome costMicros id id' ledger o hrecord =>
      rcases record_ledger hrecord with hrow | hsame
      · rw [hrow]
        exact .lands p outcome costMicros _ _ rfl rfl rfl
      · rw [hsame]
        exact .keeps _ _ (.inl rfl) (.inl rfl)
  | corrected p outcome costMicros id id' ledger correction hrecord =>
      rcases record_ledger hrecord with hrow | hsame
      · rw [hrow]
        exact .lands p outcome costMicros _ _ rfl rfl rfl
      · rw [hsame]
        exact .keeps _ _ (.inl rfl) (.inl rfl)
  | allowed | called | priced => exact .keeps _ _ (.inr rfl) (.inr rfl)
  | _ => exact .keeps _ _ (.inl rfl) (.inl rfl)

section

variable {n : ℕ} {calls : Fin n → TurnStage V} {i : Fin n} {t' : TurnStage V} {id : UUID}

lemma flying_update (h : Flying (Function.update calls i t') id) :
    t'.inFlight = some id ∨ ∃ j, j ≠ i ∧ (calls j).inFlight = some id := by
  obtain ⟨j, hj⟩ := h
  by_cases hji : j = i
  · rw [hji, Function.update_self] at hj
    exact .inl hj
  · rw [Function.update_of_ne hji] at hj
    exact .inr ⟨j, hji, hj⟩

lemma cleared_update (h : Cleared (Function.update calls i t') id) :
    t'.cleared = some id ∨ ∃ j, j ≠ i ∧ (calls j).cleared = some id := by
  obtain ⟨j, hj⟩ := h
  by_cases hji : j = i
  · rw [hji, Function.update_self] at hj
    exact .inl hj
  · rw [Function.update_of_ne hji] at hj
    exact .inr ⟨j, hji, hj⟩

/-- A stage that is in flight as before or not at all. -/
lemma flying_of_keeps (hkeeps : t'.inFlight = none ∨ t'.inFlight = (calls i).inFlight)
    (h : Flying (Function.update calls i t') id) : Flying calls id := by
  rcases flying_update h with hself | ⟨j, -, hj⟩
  · rcases hkeeps with hnone | hsame
    · rw [hnone] at hself
      cases hself
    · exact ⟨i, hsame ▸ hself⟩
  · exact ⟨j, hj⟩

lemma cleared_of_keeps (hkeeps : t'.cleared = none ∨ t'.cleared = (calls i).cleared)
    (h : Cleared (Function.update calls i t') id) : Cleared calls id := by
  rcases cleared_update h with hself | ⟨j, -, hj⟩
  · rcases hkeeps with hnone | hsame
    · rw [hnone] at hself
      cases hself
    · exact ⟨i, hsame ▸ hself⟩
  · exact ⟨j, hj⟩

/-- No two calls of a process are in flight. -/
def Distinct (calls : Fin n → TurnStage V) : Prop :=
  ∀ i j id, (calls i).inFlight = some id → (calls j).inFlight = some id → i = j

lemma Distinct.update (h : Distinct calls)
    (hnew : ∀ id, t'.inFlight = some id → ∀ j, j ≠ i → (calls j).inFlight ≠ some id) :
    Distinct (Function.update calls i t') := by
  intro j k id hj hk
  by_cases hji : j = i
  · by_cases hki : k = i
    · rw [hji, hki]
    · rw [hji, Function.update_self] at hj
      rw [Function.update_of_ne hki] at hk
      exact absurd hk (hnew id hj k hki)
  · rw [Function.update_of_ne hji] at hj
    by_cases hki : k = i
    · rw [hki, Function.update_self] at hk
      exact absurd hj (hnew id hk j hji)
    · rw [Function.update_of_ne hki] at hk
      exact h j k id hj hk

/-- The call that lands was the only one of its process. -/
lemma Distinct.landed (h : Distinct calls) (hflight : (calls i).inFlight = some id)
    (hnone : t'.inFlight = none) : ¬ Flying (Function.update calls i t') id := by
  intro hflying
  rcases flying_update hflying with hself | ⟨j, hji, hj⟩
  · rw [hnone] at hself
    cases hself
  · exact hji (h j i id hj hflight)

end

/-! ### Definitions -/

/-- The definition of a process. -/
def definitionOf (W : TurnWorker V β) (db : TurnDatabase) (id : UUID) :
    Option (TurnDefinition V) :=
  (db.process id).bind fun row => W.registry row.processType row.definitionVersion

/-- An execution goes by the definition of its process. -/
def TurnStage.Bound (W : TurnWorker V β) (db : TurnDatabase) : TurnStage V → Prop
  | .idle => True
  | .loading e definition =>
      W.registry e.command.processDefinitionId e.command.processDefinitionVersion = some definition
  | .checking p _ | .rendering p | .calling p | .recording p _ _ =>
      definitionOf W db p.processId = some p.definition

section

variable {W : TurnWorker V β} {db db' : TurnDatabase} {id : UUID}

lemma isSome_process {definition : TurnDefinition V} (h : definitionOf W db id = some definition) :
    (db.process id).isSome = true := by
  obtain ⟨row, hrow, -⟩ := Option.bind_eq_some_iff.mp h
  rw [hrow]
  rfl

/-- Nothing from outside changes the definition of a process. -/
lemma definitionOf_outside {x : TurnAnswer V β} (h : db.outside x = some db')
    (hid : (db.process id).isSome = true) :
    definitionOf W db' id = definitionOf W db id ∧ (db'.process id).isSome = true := by
  obtain ⟨row, hrow⟩ := Option.isSome_iff_exists.mp hid
  rw [TurnDatabase.outside.eq_def] at h
  split at h
  · rename_i created
    split_ifs at h
    cases h
    have hsame : TurnDatabase.process { db with processes := db.processes ++ [created] } id
        = some row := lookup_append hrow
    rw [definitionOf, definitionOf, hsame, hrow]
    exact ⟨rfl, rfl⟩
  · rename_i processId status
    cases h
    have hmoved : lookup ProcessInstance.id id
        (modify ProcessInstance.id processId (fun r => { r with status }) db.processes)
        = (lookup ProcessInstance.id id db.processes).map fun r =>
          if r.id = processId then { r with status } else r := lookup_modify fun _ => rfl
    rw [TurnDatabase.process] at hrow
    rw [hrow] at hmoved
    rw [definitionOf, definitionOf, TurnDatabase.process, TurnDatabase.process, hmoved, hrow]
    dsimp only [Option.map_some, Option.bind_some]
    split_ifs <;> exact ⟨rfl, rfl⟩
  · cases h
    exact ⟨rfl, hid⟩
  · cases h

/-- A statement leaves the definitions of the processes as they are. -/
lemma TurnMoves.definitionOf_eq [BEq V] {t t' : TurnStage V} {x : TurnAnswer V β}
    {obs : List (TurnEvent β)} (h : TurnMoves W db t x t' db' obs)
    (hid : (db.process id).isSome = true) :
    definitionOf W db' id = definitionOf W db id ∧ (db'.process id).isSome = true := by
  cases h with
  | outside x db' houtside => exact definitionOf_outside houtside hid
  | _ => exact ⟨rfl, hid⟩

lemma TurnMoves.bound [BEq V] {t t' : TurnStage V} {x : TurnAnswer V β}
    {obs : List (TurnEvent β)} (h : TurnMoves W db t x t' db' obs) (ht : t.Bound W db) :
    t'.Bound W db' := by
  cases h with
  | started command executionId definition hregistry => exact hregistry
  | loaded e definition input tenant arguments context row hrow htype hversion =>
      show definitionOf W db e.command.processInstanceId = some definition
      rw [definitionOf, hrow, Option.bind_some, htype, hversion]
      exact ht
  | passed | allowed | called | priced | corrected => exact ht
  | _ => trivial

lemma TurnStage.Bound.other [BEq V] {t t' u : TurnStage V} {x : TurnAnswer V β}
    {obs : List (TurnEvent β)} (hu : u.Bound W db) (h : TurnMoves W db t x t' db' obs) :
    u.Bound W db' := by
  cases u with
  | idle => trivial
  | loading => exact hu
  | checking p | rendering p | calling p | recording p =>
      have hkept := h.definitionOf_eq (isSome_process hu)
      exact hkept.1.trans hu

end

/-! ### The invariant -/

/-- The bounds on the spend of the processes and of the tenant. -/
structure Bounded (W : TurnWorker V β) {n : ℕ} (db : TurnDatabase) (calls : Fin n → TurnStage V) :
    Prop where
  bound : ∀ i, (calls i).Bound W db
  known : ∀ r ∈ db.ledger, (db.process r.key.processInstanceId).isSome = true
  distinct : Distinct calls
  process : ∀ id definition, definitionOf W db id = some definition →
    (ofProcess db.ledger id ≠ [] ∨ Flying calls id) → ∀ c ∈ processCounters definition.budget,
      Fences.Within c.2 (total c.1 (ofProcess db.ledger id)) (lastCall c.1 db.ledger)
        fun q => Flying calls q ∨ q ≠ id
  tenant : (db.ledger ≠ [] ∨ ∃ id, Cleared calls id) → ∀ c ∈ tenantCounters W.tenantSpendCaps,
    Fences.Within c.2 (total c.1 db.ledger) (lastCall c.1 db.ledger) (Cleared calls)

section

variable {W : TurnWorker V β} {n : ℕ} {db : TurnDatabase} {calls : Fin n → TurnStage V} {i : Fin n}

/-- The bounds on the spend while it stays as it is. -/
lemma Bounded.keeps (h : Bounded W db calls) {db' : TurnDatabase} {t' : TurnStage V}
    (hbound : ∀ j, (Function.update calls i t' j).Bound W db')
    (hledger : db'.ledger = db.ledger)
    (hdefinition : ∀ id, (db.process id).isSome = true →
      definitionOf W db' id = definitionOf W db id ∧ (db'.process id).isSome = true)
    (hflight : t'.inFlight = none ∨ t'.inFlight = (calls i).inFlight)
    (hcleared : t'.cleared = none ∨ t'.cleared = (calls i).cleared) :
    Bounded W db' (Function.update calls i t') := by
  have hknown : ∀ id, ofProcess db.ledger id ≠ [] ∨ Flying calls id →
      (db.process id).isSome = true := by
    intro id hspent
    rcases hspent with hrows | ⟨j, hj⟩
    · obtain ⟨r, hr⟩ := List.exists_mem_of_ne_nil _ hrows
      obtain ⟨hmem, hid⟩ := List.mem_filter.mp hr
      rw [← of_decide_eq_true hid]
      exact h.known r hmem
    · have hj' := h.bound j
      generalize calls j = u at hj hj'
      cases u with
      | idle | loading => cases hj
      | checking p point =>
          cases point with
          | process | budget => cases hj
          | _ =>
              cases hj
              exact isSome_process hj'
      | rendering | calling | recording =>
          cases hj
          exact isSome_process hj'
  refine ⟨hbound, fun r hr => ?_, ?_, fun id definition hdef hspent c hc => ?_,
    fun hspent c hc => ?_⟩
  · rw [hledger] at hr
    exact (hdefinition _ (h.known r hr)).2
  · refine h.distinct.update fun id hid j hji hj => ?_
    rcases hflight with hnone | hsame
    · rw [hnone] at hid
      cases hid
    · exact hji (h.distinct j i id hj (hsame ▸ hid))
  · rw [hledger] at hspent ⊢
    have hold := hspent.imp_right (flying_of_keeps hflight)
    rw [(hdefinition id (hknown id hold)).1] at hdef
    exact (h.process id definition hdef hold c hc).mono fun q =>
      Or.imp_left (flying_of_keeps hflight)
  · rw [hledger] at hspent ⊢
    have hold := hspent.imp_right (Exists.imp fun id => cleared_of_keeps hcleared)
    exact (h.tenant hold c hc).mono fun q => cleared_of_keeps hcleared

/-- A call whose process is within its budget departs. -/
lemma Bounded.departs (h : Bounded W db calls) {p : Proposal V} {status : ProcessStatus}
    (hcall : calls i = .checking p (.budget status))
    (hallowed : ∀ c ∈ processCounters p.definition.budget,
      total c.1 (ofProcess db.ledger p.processId) < c.2)
    (hsingle : ∀ j, j ≠ i → (calls j).inFlight ≠ some p.processId) :
    Bounded W db (Function.update calls i (.checking p (.tenant status))) := by
  have hdefinition : definitionOf W db p.processId = some p.definition := by
    have hi := h.bound i
    rwa [hcall] at hi
  refine ⟨fun j => ?_, h.known, h.distinct.update fun id hid => ?_,
    fun id definition hdef hspent c hc => ?_, fun hspent c hc => ?_⟩
  · by_cases hji : j = i
    · rw [hji, Function.update_self]
      exact hdefinition
    · rw [Function.update_of_ne hji]
      exact h.bound j
  · cases hid
    exact hsingle
  · by_cases hid : id = p.processId
    · subst hid
      rw [hdefinition] at hdef
      cases hdef
      exact .of_lt (hallowed c hc)
    · have hne : ∀ q, Flying (Function.update calls i (.checking p (.tenant status))) q →
          Flying calls q ∨ q ≠ id := by
        intro q hq
        rcases flying_update hq with hself | ⟨j, -, hj⟩
        · cases hself
          exact .inr (Ne.symm hid)
        · exact .inl ⟨j, hj⟩
      have hold : ofProcess db.ledger id ≠ [] ∨ Flying calls id :=
        hspent.imp_right fun hq => (hne id hq).resolve_right fun hne => hne rfl
      exact (h.process id definition hdef hold c hc).mono fun q hq => hq.elim (hne q) .inr
  · have hkeeps : ∀ q, Cleared (Function.update calls i (.checking p (.tenant status))) q →
        Cleared calls q := fun q => cleared_of_keeps (.inl rfl)
    exact (h.tenant (hspent.imp_right (Exists.imp hkeeps)) c hc).mono hkeeps

/-- A call in flight passes the fence of its tenant. -/
lemma Bounded.clears (h : Bounded W db calls) {p : Proposal V} {status : ProcessStatus}
    (hcall : calls i = .checking p (.tenant status))
    (hallowed : ∀ c ∈ tenantCounters W.tenantSpendCaps, total c.1 db.ledger < c.2) :
    Bounded W db (Function.update calls i (.checking p (.breakers status .all))) := by
  have hflight : (TurnStage.checking p (.breakers status .all)).inFlight = (calls i).inFlight := by
    rw [hcall]
    rfl
  have hkeeps : ∀ q, Flying (Function.update calls i (.checking p (.breakers status .all))) q →
      Flying calls q := fun q => flying_of_keeps (.inr hflight)
  refine ⟨fun j => ?_, h.known, h.distinct.update fun id hid j hji hj => ?_,
    fun id definition hdef hspent c hc => ?_, fun _ c hc => .of_lt (hallowed c hc)⟩
  · by_cases hji : j = i
    · have hi := h.bound i
      rw [hcall] at hi
      rw [hji, Function.update_self]
      exact hi
    · rw [Function.update_of_ne hji]
      exact h.bound j
  · exact hji (h.distinct j i id hj (hflight ▸ hid))
  · have hold := hspent.imp_right (hkeeps id)
    exact (h.process id definition hdef hold c hc).mono fun q => Or.imp_left (hkeeps q)

/-- A call in flight is recorded. -/
lemma Bounded.lands (h : Bounded W db calls) {p : Proposal V} {outcome : ModelTurnOutcome}
    {costMicros : ℕ} {t' : TurnStage V} {row : ModelUsageLedger}
    (hcall : calls i = .recording p outcome costMicros)
    (hbound : ∀ j, (Function.update calls i t' j).Bound W db)
    (hflight : t'.inFlight = none) (hcleared : t'.cleared = none)
    (hrow : row.key.processInstanceId = p.processId) :
    Bounded W { db with ledger := db.ledger ++ [row] } (Function.update calls i t') := by
  have hflying : (calls i).inFlight = some p.processId := by rw [hcall]; rfl
  have hclear : (calls i).cleared = some p.processId := by rw [hcall]; rfl
  have hdefinition : definitionOf W db p.processId = some p.definition := by
    have hi := h.bound i
    rwa [hcall] at hi
  have hlanded := h.distinct.landed hflying hflight
  have hkeeps : ∀ q, Flying (Function.update calls i t') q → Flying calls q ∧ q ≠ p.processId := by
    intro q hq
    refine ⟨flying_of_keeps (.inl hflight) hq, ?_⟩
    rintro rfl
    exact hlanded hq
  refine ⟨hbound, fun r hr => ?_, h.distinct.update fun id hid => ?_,
    fun id definition hdef hspent c hc => ?_, fun _ c hc => ?_⟩
  · rcases List.mem_append.mp hr with hold | hnew
    · exact h.known r hold
    · rw [List.mem_singleton.mp hnew, hrow]
      exact isSome_process hdefinition
  · rw [hflight] at hid
    cases hid
  · dsimp only at hspent ⊢
    rw [lastCall_concat, ofProcess_concat, hrow]
    rw [ofProcess_concat, hrow] at hspent
    by_cases hid : p.processId = id
    · subst hid
      have hold := h.process _ definition hdef (.inr ⟨i, hflying⟩) c hc
      rw [if_pos rfl, total_append]
      have hone : total c.1 [row] = c.1 row := by simp [total]
      rw [hone]
      refine hold.charge (.inl ⟨i, hflying⟩) fun q hq => ?_
      rcases hq with hq | hne
      · exact ⟨.inl (hkeeps q hq).1, (hkeeps q hq).2⟩
      · exact ⟨.inr hne, hne⟩
    · rw [if_neg hid] at hspent ⊢
      have hold := h.process id definition hdef (hspent.imp_right fun hq => (hkeeps id hq).1) c hc
      have hmono : Fences.Within c.2 (total c.1 (ofProcess db.ledger id)) (lastCall c.1 db.ledger)
          fun q => Flying (Function.update calls i t') q ∨ q ≠ id :=
        hold.mono fun q => Or.imp_left fun hq => (hkeeps q hq).1
      refine hmono.congr fun q hq => Function.update_of_ne ?_ _ _
      rintro rfl
      exact hq (.inr hid)
  · dsimp only
    have hold := h.tenant (.inr ⟨_, i, hclear⟩) c hc
    have hone : total c.1 [row] = c.1 row := by simp [total]
    rw [lastCall_concat, total_append, hone, hrow]
    refine hold.charge ⟨i, hclear⟩ fun q hq => ?_
    refine ⟨cleared_of_keeps (.inl hcleared) hq, ?_⟩
    rintro rfl
    obtain ⟨j, hj⟩ := hq
    exact hlanded ⟨j, inFlight_of_cleared hj⟩

end

/-! ### Runs -/

/-- The bounds hold at the start. -/
lemma bounded_start (W : TurnWorker V β) {n : ℕ} (processes : List ProcessInstance)
    (breakers : List CircuitBreaker) :
    Bounded W { processes, breakers } fun _ : Fin n => (.idle : TurnStage V) := by
  have hgrounded : ∀ id, ¬ Flying (fun _ : Fin n => (.idle : TurnStage V)) id := by
    rintro id ⟨i, hi⟩
    cases hi
  refine ⟨fun _ => trivial, fun r hr => absurd hr List.not_mem_nil, fun i j id hi => ?_,
    fun id definition _ hspent => ?_, fun hspent => ?_⟩
  · cases hi
  · exact absurd (hspent.resolve_left fun hne => hne rfl) (hgrounded id)
  · obtain ⟨id, i, hi⟩ := hspent.resolve_left fun hne => hne rfl
    cases hi

/-- A step keeps the bounds. -/
lemma Bounded.step [BEq V] {W : TurnWorker V β} {n : ℕ}
    {s s' : Pool n TurnDatabase (TurnStage V) (TurnEvent β)} {m : Fin n × TurnAnswer V β}
    (h : Bounded W s.store s.calls) (hsingle : Single s m)
    (hstep : s.step (agentTurns W) m = some s') : Bounded W s'.store s'.calls := by
  obtain ⟨i, x⟩ := m
  obtain ⟨t', db', obs, hnext, -, rfl⟩ := step_eq_some hstep
  have hmoves := moves_of_advanceTurn hnext
  have hflight := hmoves.flight
  have hbound : ∀ j, (Function.update s.calls i t' j).Bound W db' := by
    intro j
    by_cases hji : j = i
    · rw [hji, Function.update_self]
      exact hmoves.bound (h.bound i)
    · rw [Function.update_of_ne hji]
      exact (h.bound j).other hmoves
  have hdefinition : ∀ id, (s.store.process id).isSome = true →
      definitionOf W db' id = definitionOf W s.store id ∧ (db'.process id).isSome = true :=
    fun id => hmoves.definitionOf_eq
  dsimp only
  generalize hcall : s.calls i = t at hflight
  cases hflight with
  | outside x db' houtside =>
      exact h.keeps hbound (outside_ledger houtside) hdefinition (.inl rfl) (.inl rfl)
  | keeps t t' hin hcleared =>
      rw [← hcall] at hin hcleared
      exact h.keeps hbound rfl hdefinition hin hcleared
  | departs p status hallowed => exact h.departs hcall hallowed (hsingle p status hcall)
  | clears p status hallowed => exact h.clears hcall hallowed
  | lands p outcome costMicros t' row hin hcleared hrow =>
      exact h.lands hcall hbound hin hcleared hrow

/-- Rows are only added to the ledger. -/
lemma ledger_step [BEq V] {W : TurnWorker V β} {n : ℕ}
    {s s' : Pool n TurnDatabase (TurnStage V) (TurnEvent β)} {m : Fin n × TurnAnswer V β}
    (h : s.step (agentTurns W) m = some s') :
    ∃ rows, s'.store.ledger = s.store.ledger ++ rows := by
  obtain ⟨t', db', obs, hnext, -, rfl⟩ := step_eq_some h
  have hflight := (moves_of_advanceTurn hnext).flight
  dsimp only
  generalize s.calls m.1 = t at hflight
  cases hflight with
  | outside x db' houtside => exact ⟨[], by rw [outside_ledger houtside, List.append_nil]⟩
  | lands p outcome costMicros t' row => exact ⟨[row], rfl⟩
  | keeps | departs | clears => exact ⟨[], (List.append_nil _).symm⟩

lemma ledger_runs [BEq V] {W : TurnWorker V β} {n : ℕ}
    {G : Pool n TurnDatabase (TurnStage V) (TurnEvent β) → Fin n × TurnAnswer V β → Prop}
    {s s' : Pool n TurnDatabase (TurnStage V) (TurnEvent β)} {ms : List (Fin n × TurnAnswer V β)}
    (h : Runs (agentTurns W) G s ms s') : ∃ rows, s'.store.ledger = s.store.ledger ++ rows := by
  refine h.invariant (I := fun s' => ∃ rows, s'.store.ledger = s.store.ledger ++ rows)
    (fun s₁ m s₂ hs₁ _ hstep => ?_) ⟨[], (List.append_nil _).symm⟩
  obtain ⟨rows, hrows⟩ := hs₁
  obtain ⟨rows', hrows'⟩ := ledger_step hstep
  exact ⟨rows ++ rows', by rw [hrows', hrows, List.append_assoc]⟩

/-- The row of the last call of a process. -/
lemma lastCall_eq {rows : List ModelUsageLedger} {id : UUID} {r : ModelUsageLedger}
    (h : (ofProcess rows id).getLast? = some r) (f : ModelUsageLedger → ℕ) :
    lastCall f rows id = f r := by
  rw [lastCall, h]
  rfl

/-- A process without rows has no last call. -/
lemma lastCall_eq_zero {rows : List ModelUsageLedger} {id : UUID}
    (h : id ∉ rows.map (·.key.processInstanceId)) (f : ModelUsageLedger → ℕ) :
    lastCall f rows id = 0 := by
  have hnil : ofProcess rows id = [] := by
    refine List.filter_eq_nil_iff.mpr fun r hr hid => h ?_
    exact List.mem_map.mpr ⟨r, hr, of_decide_eq_true hid⟩
  rw [lastCall, hnil]
  rfl

/-- A process whose budget is used up fails the check, and so does it ever after. -/
lemma checkBudget_exhausted {budget : ModelBudget} {rows : List ModelUsageLedger}
    (rows' : List ModelUsageLedger) {id : UUID} {c : (ModelUsageLedger → ℕ) × ℕ}
    (hc : c ∈ processCounters budget)
    (hreached : c.2 ≤ total c.1 (ofProcess rows id)) :
    evaluateModelBudget budget (spent (rows ++ rows') id).1 (spent (rows ++ rows') id).2 ≠ [] := by
  intro hallowed
  have hlt := evaluateModelBudget_spent.mp hallowed c hc
  rw [ofProcess_append, total_append] at hlt
  omega

/-- A tenant whose caps are reached fails the check, and so does it ever after. -/
lemma checkTenant_exhausted {caps : TenantSpendCaps} {rows : List ModelUsageLedger}
    (rows' : List ModelUsageLedger) {c : (ModelUsageLedger → ℕ) × ℕ} (hc : c ∈ tenantCounters caps)
    (hreached : c.2 ≤ total c.1 rows) :
    evaluateTenantSpend (tenantSpent (rows ++ rows')).1 (tenantSpent (rows ++ rows')).2 caps
      ≠ none := by
  intro hallowed
  have hlt := evaluateTenantSpend_tenantSpent.mp hallowed c hc
  rw [total_append] at hlt
  omega

/-- **The overshoot of the budgets**: in every run in which a process has one call in flight, with
the processes of a tenant, their turns, corrections and executions in any order,

* the four values of a process with a recorded call are below their caps plus those of one call;
* the two values of the tenant are below their caps plus the sum of one call of each process;
* a check that reads a value after it has reached its cap fails;
* a write of a call that has a row changes nothing. -/
theorem budget_overshoot [BEq V] (W : TurnWorker V β) {n : ℕ} (processes : List ProcessInstance)
    (breakers : List CircuitBreaker) {ms : List (Fin n × TurnAnswer V β)}
    {s : Pool n TurnDatabase (TurnStage V) (TurnEvent β)}
    (h : Runs (agentTurns W) Single ⟨{ processes, breakers }, fun _ => .idle, []⟩ ms s) :
    (∀ id definition, definitionOf W s.store id = some definition →
      ofProcess s.store.ledger id ≠ [] → ∃ call ∈ ofProcess s.store.ledger id,
        ∀ c ∈ processCounters definition.budget,
          total c.1 (ofProcess s.store.ledger id) < c.2 + c.1 call) ∧
    (s.store.ledger ≠ [] → ∀ c ∈ tenantCounters W.tenantSpendCaps,
      total c.1 s.store.ledger
        < c.2 + ∑ id ∈ (s.store.ledger.map (·.key.processInstanceId)).toFinset,
          lastCall c.1 s.store.ledger id) ∧
    (∀ ms' s', Runs (agentTurns W) (fun _ _ => True) s ms' s' → ∀ i p status,
      (s'.calls i = .checking p (.budget status) →
        (∃ c ∈ processCounters p.definition.budget,
          c.2 ≤ total c.1 (ofProcess s.store.ledger p.processId)) →
        ∃ message, advanceTurn W (s'.calls i) .go s'.store = some (.idle, s'.store,
          [.finished p.execution (.raised ⟨"ModelBudgetExceeded", message, true⟩)])) ∧
      (s'.calls i = .checking p (.tenant status) →
        (∃ c ∈ tenantCounters W.tenantSpendCaps, c.2 ≤ total c.1 s.store.ledger) →
        ∃ message, advanceTurn W (s'.calls i) .go s'.store = some (.idle, s'.store,
          [.finished p.execution (.raised ⟨"ModelBudgetExceeded", message, true⟩)]))) ∧
    ∀ rows row rows' id, (∃ r ∈ rows, r.key = row.key) → record rows row = .ok (rows', id) →
      rows' = rows := by
  have hs : Bounded W s.store s.calls :=
    h.invariant (I := fun s => Bounded W s.store s.calls)
      (fun s m s' hs hsingle hstep => hs.step hsingle hstep) (bounded_start W processes breakers)
  refine ⟨fun id definition hdefinition hrows => ?_, fun hrows c hc => ?_,
    fun ms' s' hruns i p status => ⟨fun hcall hreached => ?_, fun hcall hreached => ?_⟩,
    fun rows row rows' id hrow hrecord => ?_⟩
  · obtain ⟨call, hcall⟩ : ∃ call, (ofProcess s.store.ledger id).getLast? = some call :=
      ⟨_, List.getLast?_eq_some_getLast hrows⟩
    refine ⟨call, List.mem_of_getLast? hcall, fun c hc => ?_⟩
    have hwithin := hs.process id definition hdefinition (.inl hrows) c hc
    have hlt := hwithin.lt_sum (S := {id}) fun q hq _ => by
      rw [Finset.mem_singleton]
      by_contra hne
      exact hq (.inr hne)
    rwa [Finset.sum_singleton, lastCall_eq hcall] at hlt
  · refine (hs.tenant (.inl hrows) c hc).lt_sum fun q _ hne => ?_
    rw [List.mem_toFinset]
    by_contra hmem
    exact hne (lastCall_eq_zero hmem c.1)
  · obtain ⟨c, hc, hcap⟩ := hreached
    obtain ⟨rows, hledger⟩ := ledger_runs hruns
    have hblocked := checkBudget_exhausted rows hc hcap
    obtain ⟨block, rest, hblocks⟩ := List.exists_cons_of_ne_nil hblocked
    refine ⟨block.message, ?_⟩
    rw [hcall, advanceTurn, checkBudget, hledger, hblocks]
    rfl
  · obtain ⟨c, hc, hcap⟩ := hreached
    obtain ⟨rows, hledger⟩ := ledger_runs hruns
    have hblocked := checkTenant_exhausted rows hc hcap
    obtain ⟨block, hblock⟩ := Option.ne_none_iff_exists'.mp hblocked
    refine ⟨block.message, ?_⟩
    rw [hcall, advanceTurn, checkTenant, hledger, hblock]
    rfl
  · rcases record_eq_ok hrecord with ⟨hzero, -⟩ | ⟨-, hsame⟩
    · obtain ⟨r, hr, hkey⟩ := hrow
      rw [recorded, List.countP_eq_zero] at hzero
      exact absurd (by simpa using hkey) (hzero r hr)
    · exact hsame

/-- One call takes a process past its cap of input tokens. -/
theorem budget_overshoot_once : ∃ (ms : List (Fin 1 × TurnAnswer ℕ AgentDecisionOutput))
    (s : Pool 1 TurnDatabase (TurnStage ℕ) (TurnEvent AgentDecisionOutput)),
    Runs (agentTurns sampleWorker) Single
      ⟨{ processes := sampleTables.processes, breakers := [] }, fun _ => .idle, []⟩ ms s ∧
    total (fun r => r.usage.inputTokens) (ofProcess s.store.ledger "p") = 1500000 ∧
    ∃ call ∈ ofProcess s.store.ledger "p",
      total (fun r => r.usage.inputTokens) (ofProcess s.store.ledger "p")
        < 1000000 + call.usage.inputTokens := by
  obtain ⟨s, hruns, hp⟩ := exists_runs (C := agentTurns sampleWorker)
    (s := ⟨{ processes := sampleTables.processes, breakers := [] }, fun _ => .idle, []⟩)
    (fun _ _ => true) (firstCall "{}" 1500000 ++ [(0, .recorded "r")])
    (fun s => (s.store.processes = sampleTables.processes ∧ ofProcess s.store.ledger "p" ≠ []) ∧
      total (fun r => r.usage.inputTokens) (ofProcess s.store.ledger "p") = 1500000)
    (by decide +kernel)
  obtain ⟨⟨hprocesses, hrows⟩, htotal⟩ := of_decide_eq_true hp
  have hruns : Runs (agentTurns sampleWorker) Single
      ⟨{ processes := sampleTables.processes, breakers := [] }, fun _ => .idle, []⟩ _ s :=
    hruns.mono fun s m _ p status _ j hj => absurd (Subsingleton.elim j m.1) hj
  obtain ⟨hprocess, -⟩ := budget_overshoot sampleWorker sampleTables.processes [] hruns
  have hdefinition : definitionOf sampleWorker s.store "p" = sampleWorker.registry "" "" := by
    rw [definitionOf, TurnDatabase.process, hprocesses]
    rfl
  obtain ⟨call, hcall, hlt⟩ := hprocess "p" _ hdefinition hrows
  exact ⟨_, s, hruns, htotal, call, hcall, hlt _ List.mem_cons_self⟩

end TiramisuAgents.Budgets
