import TiramisuAgents.Budgets.Turns

/-!
What a model call is preceded by.

`run_agent_turn` makes `_require_model_execution_allowed` before each of its calls.  The statements
of this check are steps of their own, and other transactions commit between them; what each of them
has found held when it was made.  The check reads the status of the process and does not look at it,
so a process that an operator has taken over meanwhile is called for.

* `checkpoints`, `Checkpoint.Finds`: the statements of a check, and what they find when they pass.
* `Granted`: a statement of a check has passed, and its execution has only gone on with the check.
* `checked_before_call`: what precedes a call, in every run.
* `called_while_paused`: a call for a process that is paused.
-/

namespace TiramisuAgents.Budgets

open Transactions

/-! ### The statements of a check -/

/-- The statements of a check that has read a status. -/
def checkpoints (status : ProcessStatus) : List Checkpoint :=
  [.process, .budget status, .tenant status, .breakers status .all, .breakers status .modelCalls,
    .release status]

/-- The statements before one of them. -/
def Checkpoint.before : Checkpoint → List Checkpoint
  | .process => []
  | .budget _ => [.process]
  | .tenant status => [.process, .budget status]
  | .breakers status .all => [.process, .budget status, .tenant status]
  | .breakers status _ => [.process, .budget status, .tenant status, .breakers status .all]
  | .release status => [.process, .budget status, .tenant status, .breakers status .all,
      .breakers status .modelCalls]

section

variable {V β : Type}

/-- What a statement of a check that reads a status finds in the tables when it passes. -/
def Checkpoint.Finds (W : TurnWorker V β) (p : Proposal V) (status : ProcessStatus)
    (db : TurnDatabase) : Checkpoint → Prop
  | .process => ∃ row, db.process p.processId = some row ∧ row.status = status ∧
      evaluateProcessLifetime W.isoformat row.createdAt p.definition.communicationPolicy
        p.execution.command.workflowNow = none
  | .budget _ => evaluateModelBudget p.definition.budget (spent db.ledger p.processId).1
      (spent db.ledger p.processId).2 = []
  | .tenant _ => evaluateTenantSpend (tenantSpent db.ledger).1 (tenantSpent db.ledger).2
      W.tenantSpendCaps = none ∧ W.platformModelPaused = false
  | .breakers _ scope => db.Untripped W.tenantId scope
  | .release _ => True

variable {W : TurnWorker V β} {db db' : TurnDatabase} {p : Proposal V}

/-- A statement that passes is followed by the next one of its check. -/
lemma Passes.next {point point' : Checkpoint} {status : ProcessStatus}
    (h : Passes W db p point point') (hpoint : point ∈ checkpoints status) :
    ∃ status', point' ∈ checkpoints status' ∧ point.Finds W p status' db ∧
      ∀ q ∈ point'.before, q = point ∨ q ∈ point.before ∧ status' = status := by
  cases h with
  | process row hrow hlifetime =>
      refine ⟨row.status, by simp [checkpoints], ⟨row, hrow, rfl, hlifetime⟩, fun q hq => ?_⟩
      exact .inl (List.mem_singleton.mp hq)
  | budget status' hbudget =>
      obtain rfl : status' = status := by simpa [checkpoints] using hpoint
      refine ⟨status', by simp [checkpoints], hbudget, fun q hq => ?_⟩
      rcases List.mem_pair.mp hq with rfl | rfl
      · exact .inr ⟨List.mem_singleton_self _, rfl⟩
      · exact .inl rfl
  | tenant status' hspend hpaused =>
      obtain rfl : status' = status := by simpa [checkpoints] using hpoint
      refine ⟨status', by simp [checkpoints], ⟨hspend, hpaused⟩, fun q hq => ?_⟩
      simp only [Checkpoint.before, List.mem_cons, List.not_mem_nil, or_false] at hq ⊢
      tauto
  | breakers status' hclosed =>
      obtain rfl : status' = status := by simpa [checkpoints] using hpoint
      refine ⟨status', by simp [checkpoints], hclosed, fun q hq => ?_⟩
      simp only [Checkpoint.before, List.mem_cons, List.not_mem_nil, or_false] at hq ⊢
      tauto
  | lastBreaker status' scope hscope hclosed =>
      obtain ⟨rfl, rfl⟩ : status' = status ∧ scope = .modelCalls := by
        simpa [checkpoints, hscope] using hpoint
      refine ⟨status', by simp [checkpoints], hclosed, fun q hq => ?_⟩
      simp only [Checkpoint.before, List.mem_cons, List.not_mem_nil, or_false] at hq ⊢
      tauto

/-- Every statement of a check but the last is before the last. -/
lemma mem_checkpoints {q : Checkpoint} {status : ProcessStatus} (h : q ∈ checkpoints status) :
    q ∈ (Checkpoint.release status).before ∨ q = .release status := by
  simp only [checkpoints, Checkpoint.before, List.mem_cons, List.not_mem_nil, or_false] at h ⊢
  tauto

/-! ### The log -/

/-- The model call of an event. -/
def TurnEvent.call : TurnEvent β → Option UsageKey
  | .started _ | .finished _ _ => none
  | .checked key _ | .called key | .returned key _ => some key

/-- The last event on the calls of an execution is a check that has passed. -/
def LastChecked (log : List (TurnEvent β)) (key : UsageKey) (status : ProcessStatus) : Prop :=
  ∃ pre post, log = pre ++ .checked key status :: post ∧
    ∀ o ∈ post, ∀ key', o.call = some key' → key'.executionId ≠ key.executionId

/-- The events of other executions leave the last check of an execution as it is. -/
lemma LastChecked.append {log obs : List (TurnEvent β)} {key : UsageKey} {status : ProcessStatus}
    (h : LastChecked log key status)
    (hobs : ∀ o ∈ obs, ∀ key', o.call = some key' → key'.executionId ≠ key.executionId) :
    LastChecked (log ++ obs) key status := by
  obtain ⟨pre, post, rfl, hpost⟩ := h
  refine ⟨pre, post ++ obs, by rw [List.append_assoc, List.cons_append], fun o ho => ?_⟩
  exact (List.mem_append.mp ho).elim (hpost o) (hobs o)

/-- An execution observes its own calls. -/
lemma TurnMoves.call_eq [BEq V] {t t' : TurnStage V} {x : TurnAnswer V β}
    {obs : List (TurnEvent β)} (h : TurnMoves W db t x t' db' obs) {o : TurnEvent β} (ho : o ∈ obs)
    {key : UsageKey} (hkey : o.call = some key) :
    ∃ e, t.execution = some e ∧ key.executionId = e.executionId := by
  cases h with
  | outside | crash | loaded | passed | corrected => exact absurd ho List.not_mem_nil
  | refused =>
      rcases List.mem_pair.mp ho with rfl | rfl <;> cases hkey
  | started | finished | ledgerFailed | recordRaised | recorded =>
      rw [List.mem_singleton.mp ho] at hkey
      cases hkey
  | allowed p | called p | priced p =>
      rw [List.mem_singleton.mp ho] at hkey
      cases hkey
      exact ⟨p.execution, rfl, rfl⟩
  | lost p =>
      rcases List.mem_pair.mp ho with rfl | rfl
      · cases hkey
        exact ⟨p.execution, rfl, rfl⟩
      · cases hkey

end

/-! ### What has been granted -/

section

variable {V β : Type} [BEq V] {W : TurnWorker V β} {n : ℕ}
  {start s s' : Pool n TurnDatabase (TurnStage V) (TurnEvent β)}
  {ms : List (Fin n × TurnAnswer V β)} {i : Fin n} {p : Proposal V} {status : ProcessStatus}
  {point : Checkpoint}

variable (W) in
/-- A statement of a check has passed in a state of a run, and its execution has gone on with
statements of the check only. -/
def Granted (start : Pool n TurnDatabase (TurnStage V) (TurnEvent β))
    (ms : List (Fin n × TurnAnswer V β)) (i : Fin n) (p : Proposal V) (status : ProcessStatus)
    (point : Checkpoint) : Prop :=
  ∃ ms₁ s₁ ms₂, ms = ms₁ ++ (i, point.pass) :: ms₂ ∧
    Runs (agentTurns W) (fun _ _ => True) start ms₁ s₁ ∧ s₁.calls i = .checking p point ∧
    point.Finds W p status s₁.store ∧ ∀ m ∈ ms₂, m.1 = i → ∃ q : Checkpoint, m.2 = q.pass

/-- What has been granted stays granted along the check. -/
lemma Granted.append {m : Fin n × TurnAnswer V β} (h : Granted W start ms i p status point)
    (hm : m.1 = i → ∃ q : Checkpoint, m.2 = q.pass) :
    Granted W start (ms ++ [m]) i p status point := by
  obtain ⟨ms₁, s₁, ms₂, rfl, hruns, hcall, hfinds, hrest⟩ := h
  refine ⟨ms₁, s₁, ms₂ ++ [m], by rw [List.append_assoc, List.cons_append], hruns, hcall, hfinds,
    fun m' hm' => ?_⟩
  rcases List.mem_append.mp hm' with hold | hnew
  · exact hrest m' hold
  · rw [List.mem_singleton.mp hnew]
    exact hm

/-- What holds of an execution: the statements of its check have been granted up to the one it is
at. -/
def TurnStage.CheckedSoFar (W : TurnWorker V β)
    (start : Pool n TurnDatabase (TurnStage V) (TurnEvent β)) (ms : List (Fin n × TurnAnswer V β))
    (log : List (TurnEvent β)) (i : Fin n) : TurnStage V → Prop
  | .checking p point => ∃ status, point ∈ checkpoints status ∧
      ∀ q ∈ point.before, Granted W start ms i p status q
  | .rendering p => ∃ status, LastChecked log p.key status ∧
      ∀ q ∈ checkpoints status, Granted W start ms i p status q
  | _ => True

/-- A check begins. -/
lemma checkedSoFar_process (log : List (TurnEvent β)) :
    (TurnStage.checking p .process).CheckedSoFar W start ms log i :=
  ⟨.active, List.mem_cons_self, fun _ hq => absurd hq List.not_mem_nil⟩

/-- An execution goes on with its check. -/
lemma checkedSoFar_own {x : TurnAnswer V β} {t' : TurnStage V} {store : TurnDatabase}
    {obs : List (TurnEvent β)} (hruns : Runs (agentTurns W) (fun _ _ => True) start ms s)
    (hs : (s.calls i).CheckedSoFar W start ms s.log i)
    (h : TurnMoves W s.store (s.calls i) x t' store obs) :
    t'.CheckedSoFar W start (ms ++ [(i, x)]) (s.log ++ obs) i := by
  have hgranted : ∀ {t : TurnStage V} {p : Proposal V} {point : Checkpoint} {status status'},
      s.calls i = t → t = .checking p point → x = point.pass →
      (∀ q ∈ point.before, Granted W start ms i p status q) → point.Finds W p status' s.store →
      ∀ q, q = point ∨ q ∈ point.before ∧ status' = status →
        Granted W start (ms ++ [(i, x)]) i p status' q := by
    rintro t p point status status' hcall rfl rfl hbefore hfinds q (rfl | ⟨hq, rfl⟩)
    · exact ⟨ms, s, [], rfl, hruns, hcall, hfinds, fun _ hm => absurd hm List.not_mem_nil⟩
    · exact (hbefore q hq).append fun _ => ⟨point, rfl⟩
  generalize hcall : s.calls i = t at h hs
  cases h with
  | loaded => exact checkedSoFar_process _
  | corrected => exact checkedSoFar_process _
  | passed p point point' hpasses =>
      obtain ⟨status, hpoint, hbefore⟩ := hs
      obtain ⟨status', hpoint', hfinds, hnext⟩ := hpasses.next hpoint
      exact ⟨status', hpoint', fun q hq => hgranted hcall rfl rfl hbefore hfinds q (hnext q hq)⟩
  | allowed p status =>
      obtain ⟨status', hpoint, hbefore⟩ := hs
      obtain rfl : status = status' := by simpa [checkpoints] using hpoint
      refine ⟨status, ⟨s.log, [], rfl, fun _ ho => absurd ho List.not_mem_nil⟩, fun q hq => ?_⟩
      refine hgranted hcall rfl rfl hbefore trivial q ?_
      exact (mem_checkpoints hq).elim (fun hearlier => .inr ⟨hearlier, rfl⟩) .inl
  | refused | started | outside | crash | finished | called | lost | priced | ledgerFailed
  | recordRaised | recorded => trivial

/-- The check of an execution is not disturbed by another one. -/
lemma checkedSoFar_other {j : Fin n} {x : TurnAnswer V β} {t u : TurnStage V}
    {log obs : List (TurnEvent β)} (hji : j ≠ i) (hu : u.CheckedSoFar W start ms log j)
    (hobs : ∀ o ∈ obs, ∀ key, o.call = some key →
      ∃ e, t.execution = some e ∧ key.executionId = e.executionId)
    (hlocks : ∀ l ∈ (agentTurns W).locks u, l ∉ (agentTurns W).locks t) :
    u.CheckedSoFar W start (ms ++ [(i, x)]) (log ++ obs) j := by
  have happend : ∀ {p : Proposal V} {status : ProcessStatus} {q : Checkpoint},
      Granted W start ms j p status q → Granted W start (ms ++ [(i, x)]) j p status q :=
    fun h => h.append fun hij => absurd hij.symm hji
  cases u with
  | checking p point =>
      obtain ⟨status, hpoint, hbefore⟩ := hu
      exact ⟨status, hpoint, fun q hq => happend (hbefore q hq)⟩
  | rendering p =>
      obtain ⟨status, hlast, hgranted⟩ := hu
      refine ⟨status, hlast.append fun o ho key hkey heq => ?_, fun q hq => happend (hgranted q hq)⟩
      obtain ⟨e, he, hid⟩ := hobs o ho key hkey
      have hmine : p.execution.executionId ∈ (agentTurns W).locks (.rendering p) :=
        List.mem_singleton_self _
      refine hlocks _ hmine ?_
      have htheirs : (agentTurns W).locks t = [e.executionId] := by
        change (t.execution.map (·.executionId)).toList = _
        rw [he]
        rfl
      have hsame : p.execution.executionId = e.executionId := heq.symm.trans hid
      rw [htheirs, hsame]
      exact List.mem_singleton_self _
  | idle | loading | calling | recording => trivial

/-- In every run the executions have been granted what is before them. -/
lemma checkedSoFar_runs {db : TurnDatabase}
    (h : Runs (agentTurns W) (fun _ _ => True) ⟨db, fun _ => .idle, []⟩ ms s) (i : Fin n) :
    (s.calls i).CheckedSoFar W ⟨db, fun _ => .idle, []⟩ ms s.log i := by
  have hhistory : Exclusive (agentTurns W) s ∧
      ∀ j, (s.calls j).CheckedSoFar W ⟨db, fun _ => .idle, []⟩ ms s.log j := by
    refine h.history (P := fun ms s => Exclusive (agentTurns W) s ∧
      ∀ j, (s.calls j).CheckedSoFar W ⟨db, fun _ => .idle, []⟩ ms s.log j) ?_ ?_
    · rintro ms s ⟨i, x⟩ s' hruns ⟨hexclusive, hs⟩ - hstep
      refine ⟨exclusive_step hexclusive hstep, fun j => ?_⟩
      obtain ⟨t, store, obs, hnext, -, rfl⟩ := step_eq_some hstep
      have hmoves := moves_of_advanceTurn hnext
      dsimp only
      by_cases hji : j = i
      · rw [hji, Function.update_self]
        exact checkedSoFar_own hruns (hs i) hmoves
      · rw [Function.update_of_ne hji]
        refine checkedSoFar_other hji (hs j) (fun o ho key hkey => hmoves.call_eq ho hkey) ?_
        exact fun l hj hi => hji (hexclusive j i l hj hi)
    · exact ⟨fun j k l hj => absurd hj List.not_mem_nil, fun j => trivial⟩
  exact hhistory.2 i

/-! ### Calls -/

variable (W) in
/-- **What precedes a model call**, in every run: the call is made by an execution whose last event
is a check that has passed, and each statement of this check has found in the tables what it asks
for, in a state after which the execution has only gone on with the check.  The status of the
process is among what it has read, and may be any. -/
theorem checked_before_call (db : TurnDatabase) {x : TurnAnswer V β} {key : UsageKey}
    (h : Runs (agentTurns W) (fun _ _ => True) ⟨db, fun _ => .idle, []⟩ ms s)
    (hstep : s.step (agentTurns W) (i, x) = some s')
    (hcalled : s'.log = s.log ++ [.called key]) :
    ∃ p status, s.calls i = .rendering p ∧ p.key = key ∧ LastChecked s.log key status ∧
      ∀ point ∈ checkpoints status,
        Granted W ⟨db, fun _ => .idle, []⟩ ms i p status point := by
  have hs := checkedSoFar_runs h i
  obtain ⟨t, store, obs, hnext, -, rfl⟩ := step_eq_some hstep
  obtain rfl : obs = [.called key] := List.append_cancel_left hcalled
  have hmoves := moves_of_advanceTurn hnext
  generalize hcall : s.calls i = u at hmoves hs
  cases hmoves with
  | called p =>
      obtain ⟨status, hlast, hgranted⟩ := hs
      exact ⟨p, status, rfl, rfl, hlast, hgranted⟩

end

/-! ### Two runs -/

/-- An execution up to its first call, with what happens after it has loaded its turn. -/
def upToCall (n : ℕ) (i : Fin n) (meanwhile : List (Fin n × TurnAnswer ℕ AgentDecisionOutput)) :
    List (Fin n × TurnAnswer ℕ AgentDecisionOutput) :=
  (i, .start ⟨"p", "journey", "1", "turn", 1⟩ "x") :: (i, .context none none (.ok {})) ::
    (meanwhile ++ ([.tenant none, .go, .go, .go, .go, .release none, .rendered none].map ((i, ·))))

/-- An operator takes the process over after the turn is loaded: the check that precedes the call
reads that it is paused, and the executor is called. -/
theorem called_while_paused : ∃ (ms : List (Fin 2 × TurnAnswer ℕ AgentDecisionOutput))
    (s : Pool 2 TurnDatabase (TurnStage ℕ) (TurnEvent AgentDecisionOutput)) (e : Execution)
    (key : UsageKey),
    Runs (agentTurns sampleWorker) (fun _ _ => True) ⟨sampleTables, fun _ => .idle, []⟩ ms s ∧
    s.log = [.started e, .checked key .paused, .called key] := by
  let e : Execution := ⟨⟨"p", "journey", "1", "turn", 1⟩, "x"⟩
  let key : UsageKey := ⟨"p", "turn", "x", 1⟩
  obtain ⟨s, hruns, hp⟩ := exists_runs (C := agentTurns sampleWorker)
    (s := ⟨sampleTables, fun _ => .idle, []⟩) (fun _ _ => true)
    (upToCall 2 0 [(1, .moved "p" .paused)])
    (fun s => s.log = [.started e, .checked key .paused, .called key]) (by decide +kernel)
  exact ⟨_, s, e, key, hruns.mono fun _ _ _ => trivial, of_decide_eq_true hp⟩

/-- A call for an active process, and its check. -/
theorem checked_before_call_active : ∃ (ms : List (Fin 1 × TurnAnswer ℕ AgentDecisionOutput))
    (s : Pool 1 TurnDatabase (TurnStage ℕ) (TurnEvent AgentDecisionOutput)) (p : Proposal ℕ)
    (status : ProcessStatus),
    Runs (agentTurns sampleWorker) (fun _ _ => True) ⟨sampleTables, fun _ => .idle, []⟩ ms s ∧
    s.calls 0 = .rendering p ∧ LastChecked s.log p.key status ∧
    Granted sampleWorker ⟨sampleTables, fun _ => .idle, []⟩ ms 0 p status .process := by
  let key : UsageKey := ⟨"p", "turn", "x", 1⟩
  obtain ⟨s, hruns, hp⟩ := exists_runs (C := agentTurns sampleWorker)
    (s := ⟨sampleTables, fun _ => .idle, []⟩) (fun _ _ => true) (upToCall 1 0 []).dropLast
    (fun s => (s.step (agentTurns sampleWorker) (0, .rendered none)).any fun s' =>
      s'.log = s.log ++ [.called key])
    (by decide +kernel)
  obtain ⟨s', hstep, hcalled⟩ := (Option.any_eq_true _ _).mp hp
  have hruns := hruns.mono fun _ _ _ => trivial
  obtain ⟨p, status, hcall, hkey, hlast, hgranted⟩ :=
    checked_before_call sampleWorker sampleTables hruns hstep (of_decide_eq_true hcalled)
  exact ⟨_, s, p, status, hruns, hcall, hkey ▸ hlast, hgranted .process List.mem_cons_self⟩

end TiramisuAgents.Budgets
