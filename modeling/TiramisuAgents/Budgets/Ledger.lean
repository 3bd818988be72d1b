import TiramisuAgents.Core.Contracts
import TiramisuAgents.Core.Text

/-!
The token and cost budgets of model calls: `budgets/policy.py`, `budgets/pricing.py`, the tenant
fence of `budgets/breakers.py`, and `ModelUsageService` (`budgets/ledger.py`).

The rows of the ledger are those of one tenant; there is at most one for each call, which is named
by process, turn, execution and attempt.

* `evaluateModelBudget`, `evaluateTenantSpend`: the fences of a process and of its tenant.
* `estimateCostMicros`: the price of a call.
* `record`, `spent`, `tenantSpent`: the ledger.
* `record_eq_ok`: a write adds one row, or none if the call is recorded already.
-/

namespace TiramisuAgents.Budgets

/-! ### Usage and prices -/

/-- `ModelUsage`. -/
structure ModelUsage where
  inputTokens : ℕ := 0
  outputTokens : ℕ := 0
  deriving DecidableEq, Repr

/-- `total_tokens`. -/
def ModelUsage.totalTokens (u : ModelUsage) : ℕ := u.inputTokens + u.outputTokens

/-- `ModelUsage.__post_init__`, on two integers. -/
def modelUsage (inputTokens outputTokens : ℤ) : Except String ModelUsage :=
  if inputTokens < 0 then .error "model input tokens must be a non-negative integer"
  else if outputTokens < 0 then .error "model output tokens must be a non-negative integer"
  else .ok ⟨inputTokens.toNat, outputTokens.toNat⟩

/-- `PriceEntry`. -/
structure PriceEntry where
  inputMicrosPerMillionTokens : ℕ
  outputMicrosPerMillionTokens : ℕ
  deriving DecidableEq, Repr

/-- `PRICE_TABLE_VERSION`. -/
def priceTableVersion : ℕ := 1

/-- `estimate_cost_micros` for a model that has a name; an error is an `UnknownModelPrice`. -/
def estimateCostMicros (model : String) (usage : ModelUsage) (prices : List (String × PriceEntry)) :
    Except String ℕ :=
  match prices.lookup model with
  | none => .error s!"no price entry for model '{model}'"
  | some entry =>
      .ok (usage.inputTokens * entry.inputMicrosPerMillionTokens / 1000000
        + usage.outputTokens * entry.outputMicrosPerMillionTokens / 1000000)

/-! ### Fences -/

/-- `ModelBudgetBlockCode`. -/
inductive ModelBudgetBlockCode where
  | inputTokenLimit | outputTokenLimit | totalTokenLimit | costLimit | tenantSpendLimit
  | circuitOpen
  deriving DecidableEq, Repr

/-- `ModelBudgetBlock`. -/
structure ModelBudgetBlock where
  code : ModelBudgetBlockCode
  message : String
  deriving DecidableEq, Repr

/-- `ModelBudget`. -/
structure ModelBudget where
  maxInputTokensPerProcess : ℕ := 1000000
  maxOutputTokensPerProcess : ℕ := 250000
  maxTotalTokensPerProcess : ℕ := 1000000
  maxCostMicrosPerProcess : ℕ := 20000000
  deriving DecidableEq, Repr

/-- A block for a value that has reached its cap. -/
def blockAt (value cap : ℕ) (code : ModelBudgetBlockCode) (message : String) :
    Option ModelBudgetBlock :=
  if cap ≤ value then some ⟨code, message⟩ else none

/-- The blocks of `evaluate_model_budget`. -/
def evaluateModelBudget (budget : ModelBudget) (spent : ModelUsage) (spentCostMicros : ℕ) :
    List ModelBudgetBlock :=
  [blockAt spent.inputTokens budget.maxInputTokensPerProcess .inputTokenLimit
      "process model input-token budget has been reached",
    blockAt spent.outputTokens budget.maxOutputTokensPerProcess .outputTokenLimit
      "process model output-token budget has been reached",
    blockAt spent.totalTokens budget.maxTotalTokensPerProcess .totalTokenLimit
      "process model total-token budget has been reached",
    blockAt spentCostMicros budget.maxCostMicrosPerProcess .costLimit
      "process model cost budget has been reached"].filterMap id

/-- `TenantSpendCaps`. -/
structure TenantSpendCaps where
  maxTokens : ℕ := 100000000
  maxCostMicros : ℕ := 2000000000
  deriving DecidableEq, Repr

/-- `evaluate_tenant_spend`. -/
def evaluateTenantSpend (spent : ModelUsage) (spentCostMicros : ℕ) (caps : TenantSpendCaps) :
    Option ModelBudgetBlock :=
  (blockAt spent.totalTokens caps.maxTokens .tenantSpendLimit
    "tenant model token spend has reached its platform cap").or
  (blockAt spentCostMicros caps.maxCostMicros .tenantSpendLimit
    "tenant model cost spend has reached its platform cap")

lemma blockAt_eq_none {value cap : ℕ} {code : ModelBudgetBlockCode} {message : String} :
    blockAt value cap code message = none ↔ value < cap := by
  simp [blockAt]

/-- A process may make a call if each of its four values is below its cap. -/
lemma evaluateModelBudget_eq_nil {budget : ModelBudget} {spent : ModelUsage} {cost : ℕ} :
    evaluateModelBudget budget spent cost = [] ↔
      spent.inputTokens < budget.maxInputTokensPerProcess ∧
      spent.outputTokens < budget.maxOutputTokensPerProcess ∧
      spent.totalTokens < budget.maxTotalTokensPerProcess ∧
      cost < budget.maxCostMicrosPerProcess := by
  simp [evaluateModelBudget, List.filterMap_eq_nil_iff, blockAt_eq_none]

/-- A tenant may make a call if its two values are below their caps. -/
lemma evaluateTenantSpend_eq_none {spent : ModelUsage} {cost : ℕ} {caps : TenantSpendCaps} :
    evaluateTenantSpend spent cost caps = none ↔
      spent.totalTokens < caps.maxTokens ∧ cost < caps.maxCostMicros := by
  simp [evaluateTenantSpend, blockAt_eq_none]

/-! ### The ledger -/

/-- What names a model call: the columns of `uq_model_usage_turn_attempt`. -/
structure UsageKey where
  processInstanceId : UUID
  agentTurnId : UUID
  executionId : UUID
  attemptNumber : ℕ
  deriving DecidableEq, Repr

/-- A row of `model_usage_ledger`. -/
structure ModelUsageLedger where
  id : UUID
  key : UsageKey
  model : String
  usage : ModelUsage
  costMicros : ℕ
  priceTableVersion : ℕ
  deriving DecidableEq, Repr

/-- Two rows stand for the same spend. -/
def ModelUsageLedger.agrees (r r' : ModelUsageLedger) : Bool :=
  r.model = r'.model && r.usage = r'.usage && r.costMicros = r'.costMicros &&
    r.priceTableVersion = r'.priceTableVersion

/-- `record`: the rows after it, and the identity of the row of the call. -/
def record (rows : List ModelUsageLedger) (row : ModelUsageLedger) :
    Except String (List ModelUsageLedger × UUID) :=
  if row.key.attemptNumber < 1 then .error "usage attempt number must be a positive integer"
  else if strip row.model = "" then .error "a model name is required to record usage"
  else if row.priceTableVersion < 1 then
    .error "recorded price-table version must be a positive integer"
  else
    match rows.find? fun r => r.key = row.key with
    | none => .ok (rows ++ [row], row.id)
    | some existing =>
        if existing.agrees row then .ok (rows, existing.id)
        else .error "model usage lineage changed during replay"

/-- The usage of rows, summed up, and their cost. -/
def totals (rows : List ModelUsageLedger) : ModelUsage × ℕ :=
  (⟨(rows.map (·.usage.inputTokens)).sum, (rows.map (·.usage.outputTokens)).sum⟩,
    (rows.map (·.costMicros)).sum)

/-- The rows of a process. -/
def ofProcess (rows : List ModelUsageLedger) (processInstanceId : UUID) : List ModelUsageLedger :=
  rows.filter fun r => r.key.processInstanceId = processInstanceId

/-- `spent`. -/
def spent (rows : List ModelUsageLedger) (processInstanceId : UUID) : ModelUsage × ℕ :=
  totals (ofProcess rows processInstanceId)

/-- `tenant_spent`. -/
def tenantSpent (rows : List ModelUsageLedger) : ModelUsage × ℕ := totals rows

/-- The rows of a call. -/
def recorded (rows : List ModelUsageLedger) (key : UsageKey) : ℕ :=
  rows.countP fun r => r.key = key

/-- A write of a call adds its row, or finds it. -/
lemma record_eq_ok {rows rows' : List ModelUsageLedger} {row : ModelUsageLedger} {id : UUID}
    (h : record rows row = .ok (rows', id)) :
    (recorded rows row.key = 0 ∧ rows' = rows ++ [row]) ∨
      (0 < recorded rows row.key ∧ rows' = rows) := by
  rw [record] at h
  split_ifs at h
  split at h
  · rename_i hnone
    cases h
    refine .inl ⟨?_, rfl⟩
    rw [recorded, List.countP_eq_zero]
    exact List.find?_eq_none.mp hnone
  · rename_i existing hsome
    split_ifs at h
    cases h
    refine .inr ⟨?_, rfl⟩
    rw [recorded, List.countP_pos_iff]
    have hkey := List.find?_some (p := fun r : ModelUsageLedger => r.key = row.key) hsome
    exact ⟨existing, List.mem_of_find?_eq_some hsome, hkey⟩

/-- A call that is not recorded yet is recorded. -/
lemma record_new {rows : List ModelUsageLedger} {row : ModelUsageLedger}
    (hattempt : 1 ≤ row.key.attemptNumber) (hmodel : strip row.model ≠ "")
    (hversion : 1 ≤ row.priceTableVersion) (hnew : recorded rows row.key = 0) :
    record rows row = .ok (rows ++ [row], row.id) := by
  have hnone : rows.find? (fun r => r.key = row.key) = none := by
    rw [List.find?_eq_none]
    exact List.countP_eq_zero.mp hnew
  rw [record, if_neg (by omega), if_neg hmodel, if_neg (by omega), hnone]

end TiramisuAgents.Budgets
