import TiramisuAgents.Budgets.Turns

/-!
The accounting of model calls: which results of the executor have a row of the ledger before the
next call of their turn, and before the Activity ends.

`run_turn` parses the output before it returns the usage, and the price is looked up before the
ledger is written; what fails there loses the usage.

* `Accountable`: the output becomes a decision, the reported counts are counts, the model has a
  price.
* `Steady`: the worker does not crash, the ledger does not fail, and the executions of a turn
  follow each other.
* `usage_accounted`: in a steady run a returned result has exactly one row if and only if it is
  accountable; `undecodable_unaccounted` is a run that loses one.
-/

namespace TiramisuAgents.Budgets

open Transactions

variable {V β : Type}

/-! ### Results -/

/-- The result of an executor call becomes a decision, and its usage is counted and priced. -/
structure Accountable (W : TurnWorker V β) (r : AgentsSDKResult β) : Prop where
  decided : ∃ output, W.modelValidate r.finalOutput = .ok output ∧
    (∀ a ∈ output.actions, ∃ parameters, W.loads a.parametersJson = .ok (some parameters)) ∧
    (output.status = .waiting → output.wakeConditions ≠ [])
  counted : 0 ≤ r.inputTokens ∧ 0 ≤ r.outputTokens
  priced : (W.modelPrices.lookup W.model).isSome = true

/-- The proposals of an output have decodable parameters. -/
lemma toActionProposals_isOk {loads : JsonLoads} (fresh : ℕ → UUID) (k : ℕ)
    {actions : List ActionProposalOutput} :
    (∃ proposals, toActionProposals loads fresh k actions = .ok proposals) ↔
      ∀ a ∈ actions, ∃ parameters, loads a.parametersJson = .ok (some parameters) := by
  induction actions generalizing k with
  | nil => simp [toActionProposals]
  | cons action rest ih =>
      rw [List.forall_mem_cons, ← ih (k + 1), toActionProposals]
      cases hloads : loads action.parametersJson with
      | error message => simp
      | ok decoded =>
          cases decoded with
          | none => simp
          | some parameters =>
              cases hrest : toActionProposals loads fresh (k + 1) rest with
              | error message => simp [Except.map]
              | ok proposals => simp [Except.map]

/-- An output becomes a decision whatever the turn is. -/
lemma toAgentDecision_isOk {loads : JsonLoads} (fresh : ℕ → UUID) (input : AgentTurnInput V)
    {output : AgentDecisionOutput} :
    (∃ decision, output.toAgentDecision loads fresh input = .ok decision) ↔
      (∀ a ∈ output.actions, ∃ parameters, loads a.parametersJson = .ok (some parameters)) ∧
      (output.status = .waiting → output.wakeConditions ≠ []) := by
  rw [← toActionProposals_isOk fresh 1, AgentDecisionOutput.toAgentDecision]
  cases toActionProposals loads fresh 1 output.actions with
  | error message => simp
  | ok proposals =>
      dsimp only
      by_cases hwaiting : output.status = .waiting → output.wakeConditions ≠ []
      · rw [dif_pos hwaiting]
        simpa using hwaiting
      · rw [dif_neg hwaiting]
        simp [hwaiting]

lemma modelUsage_isOk {inputTokens outputTokens : ℤ} :
    (∃ usage, modelUsage inputTokens outputTokens = .ok usage) ↔
      0 ≤ inputTokens ∧ 0 ≤ outputTokens := by
  rw [modelUsage]
  split_ifs with hinput houtput
  · simp [hinput]
  · simp [houtput]
  · simp only [not_lt] at hinput houtput
    simp [hinput, houtput]

/-- The model of an outcome is that of the worker. -/
lemma runTurn_model {W : TurnWorker V β} {fresh : ℕ → UUID} {input : AgentTurnInput V}
    {r : AgentsSDKResult β} {outcome : ModelTurnOutcome}
    (h : W.runTurn fresh input r = .ok outcome) : outcome.model = W.model := by
  rw [TurnWorker.runTurn] at h
  split at h
  · cases h
  · rename_i output _
    split at h
    · cases h
    · rename_i usage _
      cases hdecision : output.toAgentDecision W.loads fresh input with
      | error message => simp [hdecision, Except.map] at h
      | ok decision =>
          simp only [hdecision, Except.map, Except.ok.injEq] at h
          rw [← h]

/-- A result is accountable if the runner returns it and the price table knows the model. -/
lemma accountable_iff {W : TurnWorker V β} {fresh : ℕ → UUID} {input : AgentTurnInput V}
    {r : AgentsSDKResult β} :
    Accountable W r ↔ ∃ outcome costMicros, W.runTurn fresh input r = .ok outcome ∧
      estimateCostMicros outcome.model outcome.usage W.modelPrices = .ok costMicros := by
  constructor
  · rintro ⟨⟨output, hvalid, hdecided⟩, hcounted, hpriced⟩
    obtain ⟨decision, hdecision⟩ := (toAgentDecision_isOk fresh input).mpr hdecided
    obtain ⟨usage, husage⟩ := modelUsage_isOk.mpr hcounted
    obtain ⟨entry, hentry⟩ := Option.isSome_iff_exists.mp hpriced
    have hrun : W.runTurn fresh input r = .ok ⟨decision, usage, W.model⟩ := by
      rw [TurnWorker.runTurn, hvalid]
      simp only [husage, hdecision, Except.map]
    exact ⟨_, _, hrun, by rw [estimateCostMicros, hentry]⟩
  · rintro ⟨outcome, costMicros, hrun, hprice⟩
    have hmodel := runTurn_model hrun
    rw [TurnWorker.runTurn] at hrun
    split at hrun
    · cases hrun
    · rename_i output hvalid
      split at hrun
      · cases hrun
      · rename_i usage husage
        have hcounted := modelUsage_isOk.mp ⟨usage, husage⟩
        have hdecided : ∃ decision, output.toAgentDecision W.loads fresh input = .ok decision := by
          cases hdecision : output.toAgentDecision W.loads fresh input with
          | error message => simp [hdecision, Except.map] at hrun
          | ok decision => exact ⟨decision, rfl⟩
        refine ⟨⟨output, hvalid, (toAgentDecision_isOk fresh input).mp hdecided⟩, hcounted, ?_⟩
        rw [hmodel, estimateCostMicros] at hprice
        cases hentry : W.modelPrices.lookup W.model with
        | none => simp [hentry] at hprice
        | some entry => rfl

/-! ### Runs -/

/-- An execution starts with an identity of its own, and after the executions of its turn. -/
structure Fresh (db : TurnDatabase) (log : List (TurnEvent β)) (command : AgentTurnCommand)
    (executionId : UUID) : Prop where
  unstarted : ∀ e, .started e ∈ log → e.executionId ≠ executionId
  unrecorded : ∀ row ∈ db.ledger, row.key.executionId ≠ executionId
  sequential : ∀ e, .started e ∈ log → e.command.turnId = command.turnId →
    ∃ o, .finished e o ∈ log

/-- The worker does not crash, the ledger does not fail, and the executions of a turn follow each
other. -/
def Steady (db : TurnDatabase) (log : List (TurnEvent β)) : TurnAnswer V β → Prop
  | .crash | .ledgerFailure _ => False
  | .start command executionId => Fresh db log command executionId
  | _ => True

variable (W : TurnWorker V β)

/-- A result has exactly one row if and only if it is accountable. -/
def Settled (db : TurnDatabase) (key : UsageKey) (r : AgentsSDKResult β) : Prop :=
  recorded db.ledger key = 1 ↔ Accountable W r

/-- What holds of the tables and the log: the results of executions that are over are settled. -/
structure Common (db : TurnDatabase) (log : List (TurnEvent β)) : Prop where
  ended : ∀ e o, .finished e o ∈ log → .started e ∈ log
  begun : ∀ key r, .returned key r ∈ log → ∃ e, .started e ∈ log ∧
    e.executionId = key.executionId ∧ e.command.turnId = key.agentTurnId
  settled : ∀ e o, .finished e o ∈ log → ∀ key r, .returned key r ∈ log →
    key.executionId = e.executionId → Settled W db key r

/-- The execution runs, and it is the only one of its turn. -/
structure Live (log : List (TurnEvent β)) (e : Execution) : Prop where
  started : .started e ∈ log
  unfinished : ∀ e' o, .finished e' o ∈ log → e'.executionId ≠ e.executionId
  alone : ∀ e', .started e' ∈ log → e'.command.turnId = e.command.turnId →
    e'.executionId ≠ e.executionId → ∃ o, .finished e' o ∈ log

/-- The rows of an execution are those of attempts before the next one. -/
def RowsBelow (db : TurnDatabase) (e : Execution) (next : ℕ) : Prop :=
  ∀ row ∈ db.ledger, row.key.executionId = e.executionId → row.key.attemptNumber < next

/-- The results of an execution are those of attempts before the next one, and settled. -/
def SettledBelow (db : TurnDatabase) (log : List (TurnEvent β)) (e : Execution) (next : ℕ) : Prop :=
  ∀ key r, .returned key r ∈ log → key.executionId = e.executionId →
    key.attemptNumber < next ∧ Settled W db key r

/-- All but the last result of an execution are settled; the last is accountable. -/
def Pending (db : TurnDatabase) (log : List (TurnEvent β)) (p : Proposal V) : Prop :=
  ∀ key r, .returned key r ∈ log → key.executionId = p.execution.executionId →
    (key = p.key ∧ Accountable W r) ∨ (key.attemptNumber < p.attempt ∧ Settled W db key r)

/-- What holds of an execution. -/
def TurnStage.Inv (db : TurnDatabase) (log : List (TurnEvent β)) : TurnStage V → Prop
  | .idle => True
  | .loading e _ => Live log e ∧ RowsBelow db e 1 ∧ SettledBelow W db log e 1
  | .checking p _ | .rendering p | .calling p =>
      1 ≤ p.attempt ∧ Live log p.execution ∧ RowsBelow db p.execution p.attempt ∧
        SettledBelow W db log p.execution p.attempt
  | .recording p outcome _ =>
      1 ≤ p.attempt ∧ Live log p.execution ∧ RowsBelow db p.execution p.attempt ∧
        Pending W db log p ∧ outcome.model = W.model

variable {W}

/-! ### What a statement changes -/

/-- The identity of the execution of an event. -/
def TurnEvent.executionId : TurnEvent β → UUID
  | .started e | .finished e _ => e.executionId
  | .checked key _ | .called key | .returned key _ => key.executionId

/-- What is added to the ledger and the log is of one execution. -/
structure Adds (id : UUID) (db db' : TurnDatabase) (obs : List (TurnEvent β)) : Prop where
  events : ∀ o ∈ obs, o.executionId = id
  rows : ∃ rows, db'.ledger = db.ledger ++ rows ∧ ∀ row ∈ rows, row.key.executionId = id

lemma recorded_append (rows rows' : List ModelUsageLedger) (key : UsageKey) :
    recorded (rows ++ rows') key = recorded rows key + recorded rows' key :=
  List.countP_append

/-- A call without rows. -/
lemma recorded_eq_zero {rows : List ModelUsageLedger} {key : UsageKey}
    (h : ∀ row ∈ rows, row.key ≠ key) : recorded rows key = 0 := by
  rw [recorded, List.countP_eq_zero]
  simpa using h

/-- The rows of other executions do not count. -/
lemma Adds.recorded_eq {id : UUID} {db db' : TurnDatabase} {obs : List (TurnEvent β)}
    (h : Adds id db db' obs) {key : UsageKey} (hkey : key.executionId ≠ id) :
    recorded db'.ledger key = recorded db.ledger key := by
  obtain ⟨rows, hledger, hrows⟩ := h.rows
  have hzero : recorded rows key = 0 :=
    recorded_eq_zero fun row hrow heq => hkey (heq ▸ hrows row hrow)
  rw [hledger, recorded_append, hzero, Nat.add_zero]

/-- The results of other executions stay settled. -/
lemma Adds.settled {id : UUID} {db db' : TurnDatabase} {obs : List (TurnEvent β)}
    (h : Adds id db db' obs) {key : UsageKey} {r : AgentsSDKResult β}
    (hkey : key.executionId ≠ id) (hs : Settled W db key r) : Settled W db' key r := by
  rw [Settled, h.recorded_eq hkey]
  exact hs

/-- An event of another execution is an old one. -/
lemma Adds.mem {id : UUID} {db db' : TurnDatabase} {obs log : List (TurnEvent β)}
    (h : Adds id db db' obs) {o : TurnEvent β} (ho : o.executionId ≠ id)
    (hmem : o ∈ log ++ obs) : o ∈ log :=
  (List.mem_append.mp hmem).resolve_right fun hobs => ho (h.events o hobs)

/-- The identity of the execution that makes a statement. -/
def mover (t : TurnStage V) (x : TurnAnswer V β) : UUID :=
  match t.execution, x with
  | some e, _ => e.executionId
  | none, .start _ executionId => executionId
  | none, _ => ""

lemma mover_eq {t : TurnStage V} {x : TurnAnswer V β} {e : Execution}
    (h : t.execution = some e) : mover t x = e.executionId := by
  unfold mover
  rw [h]

/-- A row of the ledger is of the execution that writes it. -/
lemma record_rows {rows rows' : List ModelUsageLedger} {row : ModelUsageLedger} {id : UUID}
    (h : record rows row = .ok (rows', id)) :
    ∃ new, rows' = rows ++ new ∧ ∀ r ∈ new, r.key.executionId = row.key.executionId := by
  rcases record_eq_ok h with ⟨-, rfl⟩ | ⟨-, rfl⟩
  · refine ⟨[row], rfl, fun r hr => ?_⟩
    rw [List.mem_singleton.mp hr]
  · exact ⟨[], (List.append_nil _).symm, fun r hr => absurd hr List.not_mem_nil⟩

/-- A statement adds to its own execution. -/
lemma TurnMoves.adds [BEq V] {t t' : TurnStage V} {x : TurnAnswer V β} {db db' : TurnDatabase}
    {obs : List (TurnEvent β)} (h : TurnMoves W db t x t' db' obs) :
    Adds (mover t x) db db' obs := by
  have hkeep : ∃ rows, db.ledger = db.ledger ++ rows ∧
      ∀ row ∈ rows, row.key.executionId = mover t x :=
    ⟨[], (List.append_nil _).symm, fun row hrow => absurd hrow List.not_mem_nil⟩
  cases h with
  | outside x db' houtside =>
      refine ⟨fun o ho => absurd ho List.not_mem_nil, ?_⟩
      rw [outside_ledger houtside]
      exact hkeep
  | recorded p outcome costMicros id id' ledger o hrecord =>
      refine ⟨fun o ho => ?_, record_rows hrecord⟩
      rw [List.mem_singleton.mp ho]
      rfl
  | corrected p outcome costMicros id id' ledger correction hrecord =>
      exact ⟨fun o ho => absurd ho List.not_mem_nil, record_rows hrecord⟩
  | finished t x e o he =>
      refine ⟨fun o ho => ?_, hkeep⟩
      rw [List.mem_singleton.mp ho, mover_eq he]
      rfl
  | refused | lost =>
      refine ⟨fun o ho => ?_, hkeep⟩
      rcases List.mem_pair.mp ho with rfl | rfl <;> rfl
  | started | allowed | called | priced | ledgerFailed | recordRaised =>
      refine ⟨fun o ho => ?_, hkeep⟩
      rw [List.mem_singleton.mp ho]
      rfl
  | crash | loaded | passed => exact ⟨fun o ho => absurd ho List.not_mem_nil, hkeep⟩

/-- An execution stays alone while others add to their own. -/
lemma Live.other {log : List (TurnEvent β)} {e : Execution} (h : Live log e) {id : UUID}
    {db db' : TurnDatabase} {obs : List (TurnEvent β)} (hadds : Adds id db db' obs)
    (hid : e.executionId ≠ id)
    (hturn : ∀ e', .started e' ∈ obs → e'.command.turnId ≠ e.command.turnId) :
    Live (log ++ obs) e := by
  refine ⟨List.mem_append_left _ h.started, fun e' o hfinished => ?_,
    fun e' hstarted hsame hne => ?_⟩
  · rcases List.mem_append.mp hfinished with hold | hnew
    · exact h.unfinished e' o hold
    · have hmover : e'.executionId = id := hadds.events _ hnew
      exact fun heq => hid (heq.symm.trans hmover)
  · rcases List.mem_append.mp hstarted with hold | hnew
    · obtain ⟨o, ho⟩ := h.alone e' hold hsame hne
      exact ⟨o, List.mem_append_left _ ho⟩
    · exact absurd hsame (hturn e' hnew)

lemma RowsBelow.other {e : Execution} {next : ℕ} {id : UUID} {db db' : TurnDatabase}
    {obs : List (TurnEvent β)} (h : RowsBelow db e next) (hadds : Adds id db db' obs)
    (hid : e.executionId ≠ id) : RowsBelow db' e next := by
  intro row hrow hexecution
  obtain ⟨rows, hledger, hrows⟩ := hadds.rows
  rw [hledger] at hrow
  rcases List.mem_append.mp hrow with hold | hnew
  · exact h row hold hexecution
  · exact absurd (hexecution.symm.trans (hrows row hnew)) hid

lemma SettledBelow.other {log : List (TurnEvent β)} {e : Execution} {next : ℕ} {id : UUID}
    {db db' : TurnDatabase} {obs : List (TurnEvent β)} (h : SettledBelow W db log e next)
    (hadds : Adds id db db' obs) (hid : e.executionId ≠ id) :
    SettledBelow W db' (log ++ obs) e next := by
  intro key r hr hkey
  have hne : key.executionId ≠ id := hkey ▸ hid
  obtain ⟨hlt, hsettled⟩ := h key r (hadds.mem hne hr) hkey
  exact ⟨hlt, hadds.settled hne hsettled⟩

lemma Pending.other {log : List (TurnEvent β)} {p : Proposal V} {id : UUID}
    {db db' : TurnDatabase} {obs : List (TurnEvent β)} (h : Pending W db log p)
    (hadds : Adds id db db' obs) (hid : p.execution.executionId ≠ id) :
    Pending W db' (log ++ obs) p := by
  intro key r hr hkey
  have hne : key.executionId ≠ id := hkey ▸ hid
  rcases h key r (hadds.mem hne hr) hkey with hlast | ⟨hlt, hsettled⟩
  · exact .inl hlast
  · exact .inr ⟨hlt, hadds.settled hne hsettled⟩

/-- The executions next to a statement keep their invariant. -/
lemma TurnStage.Inv.other {u : TurnStage V} {log : List (TurnEvent β)} {id : UUID}
    {db db' : TurnDatabase} {obs : List (TurnEvent β)} (h : u.Inv W db log)
    (hadds : Adds id db db' obs) (hid : ∀ e, u.execution = some e → e.executionId ≠ id)
    (hturn : ∀ e e', u.execution = some e → .started e' ∈ obs →
      e'.command.turnId ≠ e.command.turnId) : u.Inv W db' (log ++ obs) := by
  cases u with
  | idle => trivial
  | loading e definition =>
      obtain ⟨hlive, hrows, hsettled⟩ := h
      have hne := hid e rfl
      exact ⟨hlive.other hadds hne fun e' => hturn e e' rfl, hrows.other hadds hne,
        hsettled.other hadds hne⟩
  | checking p | rendering p | calling p =>
      obtain ⟨hattempt, hlive, hrows, hsettled⟩ := h
      have hne := hid p.execution rfl
      exact ⟨hattempt, hlive.other hadds hne fun e' => hturn _ e' rfl, hrows.other hadds hne,
        hsettled.other hadds hne⟩
  | recording p outcome =>
      obtain ⟨hattempt, hlive, hrows, hpending, hmodel⟩ := h
      have hne := hid p.execution rfl
      exact ⟨hattempt, hlive.other hadds hne fun e' => hturn _ e' rfl, hrows.other hadds hne,
        hpending.other hadds hne, hmodel⟩

/-! ### What a statement keeps -/

/-- What is common is kept if the results of the execution that moves are settled when it is
over. -/
lemma Common.step {log : List (TurnEvent β)} {id : UUID} {db db' : TurnDatabase}
    {obs : List (TurnEvent β)} (h : Common W db log) (hadds : Adds id db db' obs)
    (hended : ∀ e o, .finished e o ∈ obs → .started e ∈ log ++ obs)
    (hbegun : ∀ key r, .returned key r ∈ obs → ∃ e, .started e ∈ log ∧
      e.executionId = key.executionId ∧ e.command.turnId = key.agentTurnId)
    (hover : ∀ e o, .finished e o ∈ log ++ obs → e.executionId = id →
      ∀ key r, .returned key r ∈ log ++ obs → key.executionId = id → Settled W db' key r) :
    Common W db' (log ++ obs) := by
  refine ⟨fun e o hfinished => ?_, fun key r hr => ?_, fun e o hfinished key r hr hkey => ?_⟩
  · rcases List.mem_append.mp hfinished with hold | hnew
    · exact List.mem_append_left _ (h.ended e o hold)
    · exact hended e o hnew
  · rcases List.mem_append.mp hr with hold | hnew
    · obtain ⟨e, he, hids⟩ := h.begun key r hold
      exact ⟨e, List.mem_append_left _ he, hids⟩
    · obtain ⟨e, he, hids⟩ := hbegun key r hnew
      exact ⟨e, List.mem_append_left _ he, hids⟩
  · by_cases hid : e.executionId = id
    · exact hover e o hfinished hid key r hr (hkey.trans hid)
    · have hne : key.executionId ≠ id := hkey ▸ hid
      have hold := h.settled e o (hadds.mem hid hfinished) key r (hadds.mem hne hr) hkey
      exact hadds.settled hne hold

/-- Nothing starts or ends. -/
def Steps (obs : List (TurnEvent β)) : Prop :=
  ∀ o ∈ obs, (∀ e, o ≠ .started e) ∧ ∀ e o', o ≠ .finished e o'

lemma Live.steps {log obs : List (TurnEvent β)} {e : Execution} (h : Live log e)
    (hobs : Steps obs) : Live (log ++ obs) e := by
  refine ⟨List.mem_append_left _ h.started, fun e' o hfinished => ?_,
    fun e' hstarted hsame hne => ?_⟩
  · rcases List.mem_append.mp hfinished with hold | hnew
    · exact h.unfinished e' o hold
    · exact absurd rfl ((hobs _ hnew).2 e' o)
  · rcases List.mem_append.mp hstarted with hold | hnew
    · obtain ⟨o, ho⟩ := h.alone e' hold hsame hne
      exact ⟨o, List.mem_append_left _ ho⟩
    · exact absurd rfl ((hobs _ hnew).1 e')

/-- An execution that goes on keeps what is common. -/
lemma Common.steps {log : List (TurnEvent β)} {e : Execution} {db db' : TurnDatabase}
    {obs : List (TurnEvent β)} (h : Common W db log) (hlive : Live log e)
    (hadds : Adds e.executionId db db' obs) (hobs : Steps obs)
    (hkeys : ∀ key r, .returned key r ∈ obs → e.command.turnId = key.agentTurnId) :
    Common W db' (log ++ obs) := by
  refine h.step hadds (fun e' o hnew => absurd rfl ((hobs _ hnew).2 e' o)) (fun key r hnew => ?_)
    fun e' o hfinished hid => ?_
  · exact ⟨e, hlive.started, (hadds.events _ hnew).symm, hkeys key r hnew⟩
  · exact absurd hid ((hlive.steps hobs).unfinished e' o hfinished)

/-- An execution that ends with its results settled keeps what is common. -/
lemma Common.finish {log : List (TurnEvent β)} {e : Execution} {db db' : TurnDatabase}
    {obs : List (TurnEvent β)} (h : Common W db log) (hlive : Live log e)
    (hadds : Adds e.executionId db db' obs)
    (hfinished : ∀ e' o, .finished e' o ∈ obs → e' = e)
    (hkeys : ∀ key r, .returned key r ∈ obs → e.command.turnId = key.agentTurnId)
    (hsettled : ∀ key r, .returned key r ∈ log ++ obs → key.executionId = e.executionId →
      Settled W db' key r) : Common W db' (log ++ obs) := by
  refine h.step hadds (fun e' o hnew => ?_) (fun key r hnew => ?_) fun e' o _ _ => hsettled
  · rw [hfinished e' o hnew]
    exact List.mem_append_left _ hlive.started
  · exact ⟨e, hlive.started, (hadds.events _ hnew).symm, hkeys key r hnew⟩

/-- The results that an execution has left behind, when nothing returns. -/
lemma SettledBelow.append {log obs : List (TurnEvent β)} {db : TurnDatabase} {e : Execution}
    {next : ℕ} (h : SettledBelow W db log e next) (hobs : ∀ key r, .returned key r ∉ obs) :
    SettledBelow W db (log ++ obs) e next :=
  fun key r hr => h key r ((List.mem_append.mp hr).resolve_right (hobs key r))

/-- A call that its execution is yet to make has no row. -/
lemma RowsBelow.recorded_eq_zero {db : TurnDatabase} {e : Execution} {next : ℕ}
    (h : RowsBelow db e next) {key : UsageKey} (hid : key.executionId = e.executionId)
    (hkey : next ≤ key.attemptNumber) : recorded db.ledger key = 0 := by
  refine Budgets.recorded_eq_zero fun row hrow heq => ?_
  have hlt := h row hrow (by rw [heq, hid])
  rw [heq] at hlt
  omega

/-- The row of a pending result settles it. -/
lemma Pending.record {log : List (TurnEvent β)} {db : TurnDatabase} {p : Proposal V}
    (h : Pending W db log p) (hrows : RowsBelow db p.execution p.attempt)
    {outcome : ModelTurnOutcome} {costMicros : ℕ} {id id' : UUID} {ledger : List ModelUsageLedger}
    (hrecord : Budgets.record db.ledger (p.row outcome costMicros id) = .ok (ledger, id')) :
    RowsBelow { db with ledger } p.execution (p.attempt + 1) ∧
      SettledBelow W { db with ledger } log p.execution (p.attempt + 1) := by
  have hzero : recorded db.ledger p.key = 0 := hrows.recorded_eq_zero rfl le_rfl
  obtain ⟨-, rfl⟩ | ⟨hpos, -⟩ := record_eq_ok hrecord
  · refine ⟨fun row hrow hid => ?_, fun key r hr hid => ?_⟩
    · rcases List.mem_append.mp hrow with hold | hnew
      · exact Nat.lt_succ_of_lt (hrows row hold hid)
      · rw [List.mem_singleton.mp hnew]
        exact Nat.lt_succ_self p.attempt
    · have hone : ∀ k, recorded [p.row outcome costMicros id] k = if p.key = k then 1 else 0 := by
        intro k
        simp [recorded, List.countP_cons, Proposal.row]
      rcases h key r hr hid with ⟨rfl, haccountable⟩ | ⟨hlt, hsettled⟩
      · refine ⟨Nat.lt_succ_self p.attempt, iff_of_true ?_ haccountable⟩
        dsimp only
        rw [recorded_append, hzero, hone, if_pos rfl]
      · have hne : p.key ≠ key := by
          rintro rfl
          exact absurd hlt (lt_irrefl p.attempt)
        refine ⟨Nat.lt_succ_of_lt hlt, ?_⟩
        rw [Settled]
        dsimp only
        rw [recorded_append, hone, if_neg hne, Nat.add_zero]
        exact hsettled
  · rw [Proposal.row, hzero] at hpos
    exact absurd hpos (lt_irrefl 0)

/-- An execution that has not lost or recorded its last result: it is live, and its results are
settled. -/
lemma TurnStage.Inv.settled {t : TurnStage V} {db : TurnDatabase} {log : List (TurnEvent β)}
    {e : Execution} (h : t.Inv W db log) (he : t.execution = some e)
    (hnot : ∀ p outcome costMicros, t ≠ .recording p outcome costMicros) :
    Live log e ∧ ∃ next, SettledBelow W db log e next := by
  cases t with
  | idle => cases he
  | loading e' definition =>
      cases he
      exact ⟨h.1, 1, h.2.2⟩
  | checking p | rendering p | calling p =>
      cases he
      exact ⟨h.2.1, p.attempt, h.2.2.2⟩
  | recording p outcome costMicros => exact absurd rfl (hnot p outcome costMicros)

/-- The start of an execution. -/
lemma Fresh.live {db : TurnDatabase} {log : List (TurnEvent β)} {command : AgentTurnCommand}
    {executionId : UUID} (h : Fresh db log command executionId) (hcommon : Common W db log) :
    Live (log ++ [.started ⟨command, executionId⟩]) ⟨command, executionId⟩ := by
  refine ⟨by simp, fun e' o hfinished => ?_, fun e' hstarted hsame hne => ?_⟩
  · have hold : .finished e' o ∈ log := by simpa using hfinished
    exact h.unstarted e' (hcommon.ended e' o hold)
  · have hold : .started e' ∈ log := by
      rcases List.mem_append.mp hstarted with hold | hnew
      · exact hold
      · cases List.mem_singleton.mp hnew
        exact absurd rfl hne
    obtain ⟨o, ho⟩ := h.sequential e' hold hsame
    exact ⟨o, List.mem_append_left _ ho⟩

/-- No result of an execution that starts has been returned. -/
lemma Fresh.unreturned {db : TurnDatabase} {log : List (TurnEvent β)} {command : AgentTurnCommand}
    {executionId : UUID} (h : Fresh db log command executionId) (hcommon : Common W db log)
    {key : UsageKey} {r : AgentsSDKResult β} (hr : .returned key r ∈ log) :
    key.executionId ≠ executionId := by
  obtain ⟨e, he, hid, -⟩ := hcommon.begun key r hr
  exact hid ▸ h.unstarted e he

/-- A statement keeps what is common, and the invariant of its execution. -/
lemma TurnMoves.own [BEq V] {t t' : TurnStage V} {x : TurnAnswer V β} {db db' : TurnDatabase}
    {log obs : List (TurnEvent β)} (h : TurnMoves W db t x t' db' obs) (hsteady : Steady db log x)
    (hcommon : Common W db log) (ht : t.Inv W db log) :
    Common W db' (log ++ obs) ∧ t'.Inv W db' (log ++ obs) := by
  have hadds := h.adds
  cases h with
  | crash => exact absurd hsteady not_false
  | ledgerFailed => exact absurd hsteady not_false
  | outside x db' houtside =>
      have hledger := outside_ledger houtside
      refine ⟨?_, trivial⟩
      rw [List.append_nil]
      exact ⟨hcommon.ended, hcommon.begun, fun e o ho key r hr hkey => by
        rw [Settled, hledger]
        exact hcommon.settled e o ho key r hr hkey⟩
  | refused command executionId o =>
      have hfresh : Fresh db log command executionId := hsteady
      refine ⟨hcommon.step hadds (fun e o' hnew => ?_) (fun key r hnew => ?_)
        fun e o' _ _ key r hr hid => ?_, trivial⟩
      · have he : e = ⟨command, executionId⟩ := by simp_all
        simp [he]
      · simp at hnew
      · have hold : .returned key r ∈ log := by simpa using hr
        exact absurd hid (hfresh.unreturned hcommon hold)
  | started command executionId definition hregistry =>
      have hfresh : Fresh db log command executionId := hsteady
      refine ⟨hcommon.step hadds (fun e o' hnew => ?_) (fun key r hnew => ?_)
        fun e o' _ _ key r hr hid => ?_, hfresh.live hcommon, fun row hrow hid => ?_,
        fun key r hr hid => ?_⟩
      · simp at hnew
      · simp at hnew
      · have hold : .returned key r ∈ log := by simpa using hr
        exact absurd hid (hfresh.unreturned hcommon hold)
      · exact absurd hid (hfresh.unrecorded row hrow)
      · have hold : .returned key r ∈ log := by simpa using hr
        exact absurd hid (hfresh.unreturned hcommon hold)
  | finished t x e o he hnot =>
      rw [mover_eq he] at hadds
      obtain ⟨hlive, next, hsettled⟩ := ht.settled he hnot
      refine ⟨hcommon.finish hlive hadds (fun e' o' hnew => ?_) (fun key r hnew => ?_)
        fun key r hr hid => ?_, trivial⟩
      · simp_all
      · simp at hnew
      · have hold : .returned key r ∈ log := by simpa using hr
        exact (hsettled key r hold hid).2
  | loaded e definition input tenant arguments context row =>
      rw [List.append_nil]
      exact ⟨hcommon, le_rfl, ht⟩
  | passed p point point' hpasses =>
      rw [List.append_nil]
      exact ⟨hcommon, ht⟩
  | allowed p status =>
      obtain ⟨hattempt, hlive, hrows, hsettled⟩ := ht
      have hsteps : Steps [(.checked p.key status : TurnEvent β)] := by simp [Steps]
      exact ⟨hcommon.steps hlive hadds hsteps (by simp), hattempt, hlive.steps hsteps, hrows,
        hsettled.append (by simp)⟩
  | called p =>
      obtain ⟨hattempt, hlive, hrows, hsettled⟩ := ht
      have hsteps : Steps [(.called p.key : TurnEvent β)] := by simp [Steps]
      exact ⟨hcommon.steps hlive hadds hsteps (by simp), hattempt, hlive.steps hsteps, hrows,
        hsettled.append (by simp)⟩
  | lost p r fresh o hlost =>
      obtain ⟨hattempt, hlive, hrows, hsettled⟩ := ht
      refine ⟨hcommon.finish hlive hadds (fun e' o' hnew => ?_) (fun key r' hnew => ?_)
        fun key r' hr hid => ?_, trivial⟩
      · simp_all
      · have hkey : key = p.key := by simp_all
        rw [hkey]
        rfl
      · have hr' : .returned key r' ∈ log ∨ key = p.key ∧ r' = r := by simpa using hr
        rcases hr' with hold | ⟨rfl, rfl⟩
        · exact (hsettled key r' hold hid).2
        · refine iff_of_false ?_ fun haccountable => ?_
          · rw [hrows.recorded_eq_zero rfl le_rfl]
            exact zero_ne_one
          · obtain ⟨outcome, costMicros, hrun, hprice⟩ := accountable_iff.mp haccountable
            exact hlost outcome costMicros hrun hprice
  | priced p r fresh outcome costMicros hrun hprice =>
      obtain ⟨hattempt, hlive, hrows, hsettled⟩ := ht
      have hsteps : Steps [.returned p.key r] := by simp [Steps]
      refine ⟨hcommon.steps hlive hadds hsteps fun key r' hnew => ?_, hattempt,
        hlive.steps hsteps, hrows, fun key r' hr hid => ?_, runTurn_model hrun⟩
      · have hkey : key = p.key := by simp_all
        rw [hkey]
        rfl
      · have hr' : .returned key r' ∈ log ∨ key = p.key ∧ r' = r := by simpa using hr
        rcases hr' with hold | ⟨rfl, rfl⟩
        · exact .inr (hsettled key r' hold hid)
        · exact .inl ⟨rfl, accountable_iff.mpr ⟨outcome, costMicros, hrun, hprice⟩⟩
  | recordRaised p outcome costMicros id message o herror =>
      obtain ⟨hattempt, hlive, hrows, hpending, hmodel⟩ := ht
      have hnamed : strip (p.row outcome costMicros id).model ≠ "" := by
        rw [Proposal.row, hmodel]
        exact W.named
      have hnew := record_new hattempt hnamed (le_refl 1) (hrows.recorded_eq_zero rfl le_rfl)
      rw [hnew] at herror
      cases herror
  | recorded p outcome costMicros id id' ledger o hrecord =>
      obtain ⟨hattempt, hlive, hrows, hpending, hmodel⟩ := ht
      obtain ⟨-, hsettled⟩ := hpending.record hrows hrecord
      refine ⟨hcommon.finish hlive hadds (fun e' o' hnew => ?_) (fun key r hnew => ?_)
        fun key r hr hid => ?_, trivial⟩
      · simp_all
      · simp at hnew
      · have hold : .returned key r ∈ log := by simpa using hr
        exact (hsettled key r hold hid).2
  | corrected p outcome costMicros id id' ledger correction hrecord =>
      obtain ⟨hattempt, hlive, hrows, hpending, hmodel⟩ := ht
      obtain ⟨hbelow, hsettled⟩ := hpending.record hrows hrecord
      have hsteps : Steps ([] : List (TurnEvent β)) := by simp [Steps]
      have hkept := hcommon.steps hlive hadds hsteps (by simp)
      rw [List.append_nil] at hkept ⊢
      exact ⟨hkept, Nat.le_add_left 1 p.attempt, hlive, hbelow, hsettled⟩

lemma TurnStage.Inv.live {t : TurnStage V} {db : TurnDatabase} {log : List (TurnEvent β)}
    {e : Execution} (h : t.Inv W db log) (he : t.execution = some e) : Live log e := by
  cases t with
  | idle => cases he
  | loading =>
      cases he
      exact h.1
  | checking | rendering | calling | recording =>
      cases he
      exact h.2.1

/-- The invariant of an execution reads the ledger only. -/
lemma TurnStage.Inv.of_ledger {t : TurnStage V} {db db' : TurnDatabase} {log : List (TurnEvent β)}
    (h : t.Inv W db log) (hledger : db'.ledger = db.ledger) : t.Inv W db' log := by
  have hsettled : ∀ key (r : AgentsSDKResult β), Settled W db' key r ↔ Settled W db key r := by
    intro key r
    rw [Settled, Settled, hledger]
  cases t with
  | idle => trivial
  | loading | checking | rendering | calling =>
      simp only [TurnStage.Inv, RowsBelow, SettledBelow, hledger, hsettled] at h ⊢
      exact h
  | recording =>
      simp only [TurnStage.Inv, RowsBelow, Pending, hledger, hsettled] at h ⊢
      exact h

/-- Only the start of an execution is observed as one. -/
lemma TurnMoves.start_of_mem [BEq V] {t t' : TurnStage V} {x : TurnAnswer V β}
    {db db' : TurnDatabase} {obs : List (TurnEvent β)} (h : TurnMoves W db t x t' db' obs)
    {e : Execution} (he : .started e ∈ obs) : x = .start e.command e.executionId := by
  cases h <;> simp at he
  · rw [he]
  · rw [he]

/-- A statement keeps the invariant of the executions next to it. -/
lemma TurnMoves.other [BEq V] {t t' u : TurnStage V} {x : TurnAnswer V β} {db db' : TurnDatabase}
    {log obs : List (TurnEvent β)} (h : TurnMoves W db t x t' db' obs) (hsteady : Steady db log x)
    (hdisjoint : ∀ e e', u.execution = some e → t.execution = some e' →
      e.executionId ≠ e'.executionId) (hu : u.Inv W db log) : u.Inv W db' (log ++ obs) := by
  have hadds := h.adds
  have hturn : ∀ e e', u.execution = some e → .started e' ∈ obs →
      e'.command.turnId ≠ e.command.turnId := by
    intro e e' he hstarted hsame
    have hx := h.start_of_mem hstarted
    rw [hx] at hsteady
    have hlive := hu.live he
    obtain ⟨o, hfinished⟩ := hsteady.sequential e hlive.started hsame.symm
    exact hlive.unfinished e o hfinished rfl
  cases hmover : t.execution with
  | some e' =>
      rw [mover_eq hmover] at hadds
      exact hu.other hadds (fun e he => hdisjoint e e' he hmover) hturn
  | none =>
      cases h with
      | outside x db' houtside =>
          rw [List.append_nil]
          exact hu.of_ledger (outside_ledger houtside)
      | refused | started =>
          refine hu.other hadds (fun e he => ?_) hturn
          exact hsteady.unstarted e (hu.live he).started
      | crash => exact absurd hsteady not_false
      | finished t x e o he => exact absurd (hmover.symm.trans he) (Option.some_ne_none e).symm
      | _ => cases hmover

end TiramisuAgents.Budgets
