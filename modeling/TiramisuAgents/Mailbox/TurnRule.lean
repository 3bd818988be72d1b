import TiramisuAgents.Mailbox.Rules

/-!
The proof rule for a turn.

A turn passes through the points of `Point`.  A proof about turns names what holds at each
point (`A : Point → World Runtime Obs → Prop`) and shows, for each way from one point to the
next, that the assertion of the first gives that of the second (`TurnRule`).  The rule then
covers every turn with all the turns chained to it, every answer of its Activities and every
signal in between.

* `ActionRule`, `ActionRule.wp_executePendingAction`: the same for the execution of one action.
* `ChainRule`, `ChainRule.wp_runTurn`: the rule with assertions that may also name the turns a
  turn was chained from, for what an error does on its way out through them.
* `TurnRule.wp_runTurn`: the rule for assertions that are the same for every turn of a chain.
-/

namespace TiramisuAgents

open Coroutine

/-- The updates that no assertion about a turn looks at: records, pending actions and
counters. -/
inductive Update.Bookkeeping : Update → Prop where
  | appendTurnRecord (record : TurnRecord) : Bookkeeping (.appendTurnRecord record)
  | appendExecutionRecord (record : ExecutionRecord) : Bookkeeping (.appendExecutionRecord record)
  | addPendingAction (actionRequestId : String) : Bookkeeping (.addPendingAction actionRequestId)
  | removePendingAction (actionRequestId : String) :
      Bookkeeping (.removePendingAction actionRequestId)
  | beginTurn : Bookkeeping .beginTurn
  | endTurn : Bookkeeping .endTurn

/-- An assertion that the bookkeeping of a turn keeps. -/
structure Robust (Φ : List Obs → Prop) (I : World Runtime Obs → Prop) : Prop where
  stable : Stable Φ I
  update : ∀ {u : Update}, u.Bookkeeping → ∀ {w}, I w → I (updated u w)
  draw : ∀ {w}, I w → I (drawn w)
  record : ∀ (r : TurnRecord) {w}, I w → I (observed (.turnRecorded r) w)

/-- The records a turn leaves when nothing preempts it. -/
inductive TurnRecord.Ordinary : TurnRecord → Prop where
  | completed (command : TurnCommand) (decision : AgentDecision) (items : List PersistedItem)
      (results : List ExecutionResult) (chainLimitReached : Bool) :
      Ordinary (command.completionRecord decision items results chainLimitReached)
  | failed (command : TurnCommand) (error : ActivityError) :
      Ordinary (command.failureRecord error)

/-- An assertion that the bookkeeping of a turn keeps where it does not await anything. -/
structure Bookkept (I : World Runtime Obs → Prop) : Prop where
  update : ∀ {u : Update}, u.Bookkeeping → ∀ {w}, I w → I (updated u w)
  draw : ∀ {w}, I w → I (drawn w)
  record : ∀ {r : TurnRecord}, r.Ordinary → ∀ {w}, I w → I (observed (.turnRecorded r) w)

variable {Φ : List Obs → Prop}

lemma Robust.bookkept {I : World Runtime Obs → Prop} (h : Robust Φ I) : Bookkept I :=
  ⟨h.update, h.draw, fun {r} _ => h.record r⟩

/-- The bookkeeping adds to the log what others do and the records of turns, and nothing else. -/
lemma robust_of_log {I : List Obs → Prop}
    (hreceived : ∀ log signal, I log → I (log ++ [.received signal]))
    (hcommitted : ∀ log commit, I log → I (log ++ [.committed commit]))
    (hrecorded : ∀ log record, I log → I (log ++ [.turnRecorded record])) :
    Robust Φ fun w => I w.log where
  stable := by
    intro i w h _
    cases i with
    | signal s => exact hreceived _ s h
    | commit c => exact hcommitted _ c h
    | reply reply => simpa [Handler.step, environment] using h
    | task now suggested => simpa [Handler.step, environment] using h
  update := fun _ _ h => h
  draw := id
  record := fun r _ h => hrecorded _ r h

/-! ### Executing an action -/

/-- What a proof about `_execute_pending_action` has to show: `trying` holds where
`execute_action` is about to be tried, `acting` while it runs or the workflow sleeps until it is
tried again, `answered` once it has answered. -/
structure ActionRule (Φ : List Obs → Prop) (command : ActionCommand)
    (trying acting : World Runtime Obs → Prop)
    (answered : ExecutionResult → World Runtime Obs → Prop)
    (Q : Post Runtime Obs Await Failure (Option ExecutionResult)) : Prop where
  trying_bookkept : Bookkept trying
  acting_stable : Stable Φ acting
  answered_bookkept : ∀ r, Bookkept (answered r)
  answered_stable : ∀ r, Stable Φ (answered r)
  started : ∀ {w}, trying w → acting (observed (.started (.executeAction command)) w)
  retrying : ∀ {w}, acting w → trying w
  restarted : ∀ {w r}, answered r w → r.status = .unknown →
    answered r (observed (.started (.reconcileAction command)) w)
  suspended : ∀ {w error}, acting w → error.isType "ActionExecutionSuspended" = true →
    Φ (w.log ++ [.completed (.executeAction command) (.executed (.error error))]) →
    acting (observed (.completed (.executeAction command) (.executed (.error error))) w)
  closed : ∀ {w}, acting w → w.self.mailbox.closed = true → Q.done none w
  executed : ∀ {w r}, acting w →
    Φ (w.log ++ [.completed (.executeAction command) (.executed (.ok r))]) →
    answered r (observed (.completed (.executeAction command) (.executed (.ok r))) w)
  failed : ∀ {w error}, acting w → error.isType "ActionExecutionSuspended" = false →
    error.isType deploymentCompatibilityError = false →
    Φ (w.log ++ [.completed (.executeAction command) (.executed (.error error))]) →
    Q.done none (observed (.completed (.executeAction command) (.executed (.error error))) w)
  incompatible : ∀ {w error}, acting w → error.isType "ActionExecutionSuspended" = false →
    error.isType deploymentCompatibilityError = true →
    Φ (w.log ++ [.completed (.executeAction command) (.executed (.error error))]) →
    Q.raised (.activity error)
      (observed (.completed (.executeAction command) (.executed (.error error))) w)
  known : ∀ {w r}, answered r w → r.status ≠ .unknown → Q.done (some r) w
  reconciled : ∀ {w r r'}, answered r w → r.status = .unknown →
    Φ (w.log ++ [.completed (.reconcileAction command) (.reconciled (.ok r'))]) →
    Q.done (some r') (observed (.completed (.reconcileAction command) (.reconciled (.ok r'))) w)
  unreconciled : ∀ {w r error}, answered r w → r.status = .unknown →
    error.isType deploymentCompatibilityError = false →
    Φ (w.log ++ [.completed (.reconcileAction command) (.reconciled (.error error))]) →
    Q.done (some r)
      (observed (.completed (.reconcileAction command) (.reconciled (.error error))) w)
  irreconcilable : ∀ {w r error}, answered r w → r.status = .unknown →
    error.isType deploymentCompatibilityError = true →
    Φ (w.log ++ [.completed (.reconcileAction command) (.reconciled (.error error))]) →
    Q.raised (.activity error)
      (observed (.completed (.reconcileAction command) (.reconciled (.error error))) w)
  done_update : ∀ {u : Update}, u.Bookkeeping → ∀ {w r}, Q.done r w → Q.done r (updated u w)
  raised_update : ∀ {u : Update}, u.Bookkeeping → ∀ {w e}, Q.raised e w → Q.raised e (updated u w)
  blocked : ∀ {l w}, l ≠ .waitCondition → (trying w ∨ ∃ r, answered r w) → Q.blocked l w

namespace ActionRule

variable {command : ActionCommand} {trying acting : World Runtime Obs → Prop}
  {answered : ExecutionResult → World Runtime Obs → Prop}
  {Q : Post Runtime Obs Await Failure (Option ExecutionResult)}

/-- The `except` clauses record the error and raise it again or return. -/
lemma wp_absorbExecutionError {α : Type} {Q : Post Runtime Obs Await Failure α}
    {error : ActivityError} {value : α} {w : World Runtime Obs}
    (hdone : ∀ record, error.isType deploymentCompatibilityError = false →
      Q.done value (updated (.appendExecutionRecord record) w))
    (hraised : ∀ record, error.isType deploymentCompatibilityError = true →
      Q.raised (.activity error) (updated (.appendExecutionRecord record) w)) :
    wp Φ (absorbExecutionError command error value) Q w := by
  rw [absorbExecutionError, wp_recordExecution_bind]
  cases hc : error.isType deploymentCompatibilityError with
  | true => exact wp_raise fun _ => hraised _ hc
  | false => exact wp_pure fun _ => hdone _ hc

variable (hA : ActionRule Φ command trying acting answered Q) (hΦ : PrefixClosed Φ)
include hA hΦ

/-- The reconciliation of an executed action; only an error of compatibility leaves it. -/
lemma wp_reconcileUnknown {r : ExecutionResult} {w : World Runtime Obs} (hw : answered r w) :
    wp Φ (reconcileUnknown command r)
      ⟨fun r' => Q.done (some r'),
        fun e w => ∃ error, e = .activity error ∧
          error.isType deploymentCompatibilityError = true ∧ Q.raised (.activity error) w,
        Q.blocked⟩ w := by
  rw [reconcileUnknown]
  split
  · rename_i hunknown
    refine wp_bind hΦ (wp_attempt hΦ (wp_executeActivity hΦ (answered r)
      (hA.answered_stable r) (hA.restarted hw hunknown) ?_ ?_ ?_))
    · intro w reply r' hw hreply hφ
      cases reply with
      | reconciled answer =>
          obtain rfl := Option.some.inj hreply
          dsimp only
          rw [wp_recordExecution_bind]
          exact wp_pure fun _ => hA.done_update (.appendExecutionRecord _)
            (hA.reconciled hw hunknown hφ)
      | _ => cases hreply
    · intro w reply error hw hreply hφ
      cases reply with
      | reconciled answer =>
          obtain rfl := Option.some.inj hreply
          refine wp_absorbExecutionError (fun record hc => ?_) fun record hc => ?_
          · exact hA.done_update (.appendExecutionRecord _) (hA.unreconciled hw hunknown hc hφ)
          · exact ⟨error, rfl, hc, hA.raised_update (.appendExecutionRecord _)
              (hA.irreconcilable hw hunknown hc hφ)⟩
      | _ => cases hreply
    · exact fun w hw => hA.blocked (by simp) (.inr ⟨r, hw⟩)
  · rename_i hknown
    exact wp_pure fun _ => hA.known hw hknown

/-- The `try` body: what leaves it is an error of compatibility, or an error of
`execute_action` itself. -/
lemma wp_executeAndReconcile {w : World Runtime Obs} (hw : trying w) :
    wp Φ (executeAndReconcile command)
      ⟨Q.done,
        fun e w => ∃ error, e = .activity error ∧
          (error.isType deploymentCompatibilityError = true → Q.raised (.activity error) w) ∧
          (error.isType deploymentCompatibilityError = false → Q.done none w),
        Q.blocked⟩ w := by
  refine wp_bind hΦ (wp_retryWhileSuspended hΦ trying acting hA.acting_stable
    (fun _ h => hA.retrying h) hw ?_ ?_ ?_)
  · intro w hw
    refine wp_executeActivity hΦ acting hA.acting_stable (hA.started hw) ?_ ?_ ?_
    · intro w reply r hw hreply hφ
      cases reply with
      | executed answer =>
          obtain rfl := Option.some.inj hreply
          dsimp only
          rw [wp_recordExecution_bind]
          refine wp_bind hΦ (wp_mono (hA.wp_reconcileUnknown hΦ
            ((hA.answered_bookkept r).update (.appendExecutionRecord _) (hA.executed hw hφ)))
            ?_ ?_ fun _ _ _ _ h => h)
          · intro r' w' _ _ hr'
            dsimp only [settlePendingAction]
            split
            · exact wp_update_bind.mpr (wp_pure fun _ =>
                hA.done_update (.removePendingAction _) hr')
            · exact wp_pure fun _ => hr'
          · rintro e w' - - ⟨error, rfl, hc, he⟩
            exact ⟨error, rfl, fun _ => he, fun hc' => by rw [hc] at hc'; cases hc'⟩
      | _ => cases hreply
    · intro w reply error hw hreply hφ
      cases reply with
      | executed answer =>
          obtain rfl := Option.some.inj hreply
          dsimp only
          split
          · rename_i hs
            exact hA.suspended hw hs hφ
          · rename_i hs
            have hs' : error.isType "ActionExecutionSuspended" = false := by simpa using hs
            exact ⟨error, rfl, fun hc => hA.incompatible hw hs' hc hφ,
              fun hc => hA.failed hw hs' hc hφ⟩
      | _ => cases hreply
    · exact fun w hw => hA.blocked (by simp) (.inl (hA.retrying hw))
  · exact fun w hw hc => wp_pure fun _ => hA.closed hw hc
  · exact fun w hw => hA.blocked (by simp) (.inl hw)

/-- **The rule for executing an action.** -/
theorem wp_executePendingAction {actionRequestId : String} {revision : ℤ}
    {w : World Runtime Obs} (hcommand : w.self.actionCommand actionRequestId revision = command)
    (hw : trying w) : wp Φ (executePendingAction actionRequestId revision) Q w := by
  rw [executePendingAction, wp_gets_bind, hcommand, wp_update_bind]
  refine wp_bind hΦ (wp_attempt hΦ (wp_mono (hA.wp_executeAndReconcile hΦ
    (hA.trying_bookkept.update (.addPendingAction _) hw)) ?_ ?_ fun _ _ _ _ h => h))
  · exact fun r w' _ _ hr => wp_pure fun _ => hr
  · rintro e w' - - ⟨error, rfl, hraised, hdone⟩
    refine wp_absorbExecutionError (fun record hc => ?_) fun record hc => ?_
    · exact hA.done_update (.appendExecutionRecord _) (hdone hc)
    · exact hA.raised_update (.appendExecutionRecord _) (hraised hc)

end ActionRule

/-- What leaves the execution of an action is an `ActivityError`, and it is never found in
`wait_condition`. -/
lemma executePendingAction_raises (hΦ : PrefixClosed Φ) {actionRequestId : String} {revision : ℤ}
    {w : World Runtime Obs} :
    wp Φ (executePendingAction actionRequestId revision)
      ⟨fun _ _ => True, fun e _ => ∃ error, e = .activity error,
        fun l _ => l ≠ .waitCondition⟩ w := by
  have hrobust : Robust Φ fun _ => True :=
    ⟨fun _ _ _ _ => trivial, fun _ _ _ => trivial, fun _ => trivial, fun _ _ _ => trivial⟩
  have hrule : ActionRule Φ (w.self.actionCommand actionRequestId revision) (fun _ => True)
      (fun _ => True) (fun _ _ => True)
      ⟨fun _ _ => True, fun e _ => ∃ error, e = .activity error,
        fun l _ => l ≠ .waitCondition⟩ := {
    trying_bookkept := hrobust.bookkept
    acting_stable := hrobust.stable
    answered_bookkept := fun _ => hrobust.bookkept
    answered_stable := fun _ => hrobust.stable
    started := fun _ => trivial
    retrying := fun _ => trivial
    restarted := fun _ _ => trivial
    suspended := fun _ _ _ => trivial
    closed := fun _ _ => trivial
    executed := fun _ _ => trivial
    failed := fun _ _ _ _ => trivial
    incompatible := fun {_ error} _ _ _ _ => ⟨error, rfl⟩
    known := fun _ _ => trivial
    reconciled := fun _ _ _ => trivial
    unreconciled := fun _ _ _ _ => trivial
    irreconcilable := fun {_ _ error} _ _ _ _ => ⟨error, rfl⟩
    done_update := fun _ _ _ _ => trivial
    raised_update := fun _ _ _ h => h
    blocked := fun hl _ => hl }
  exact hrule.wp_executePendingAction hΦ rfl trivial

/-! ### Points of a turn -/

/-- The points a turn passes through. -/
inductive Point where
  /-- A turn on these sources is about to begin. -/
  | ready (sources : TurnSources)
  /-- `run_agent_turn` runs, or sleeps until it is retried. -/
  | running (command : TurnCommand)
  /-- The decision is there. -/
  | deciding (command : TurnCommand) (decision : AgentDecision)
  /-- `persist_agent_actions` runs. -/
  | saving (command : TurnCommand) (decision : AgentDecision)
  /-- The actions are persisted and `persist_process_state` runs. -/
  | persisting (command : TurnCommand) (decision : AgentDecision) (items : List PersistedItem)
  /-- The actions `rest` are still to be executed, those before gave `results`. -/
  | executing (command : TurnCommand) (decision : AgentDecision) (items : List PersistedItem)
      (outcome : Option ProcessOutcome) (rest : List PersistedItem)
      (results : List ExecutionResult)
  /-- An Activity has failed. -/
  | failing (command : TurnCommand) (progress : TurnProgress)
  /-- `record_process_intervention` runs. -/
  | reporting (command : InterventionCommand)
  /-- An error leaves the turn. -/
  | broken
  /-- The turn is over. -/
  | settled

/-- The points at which a turn may be suspended; what it executes is looked at on its own. -/
def Point.Awaits : Point → Prop
  | .running _ | .saving _ _ | .persisting _ _ _ | .reporting _ => True
  | _ => False

/-- The record a turn leaves if it is preempted at a point. -/
def Point.preemptionRecord : Point → Option TurnRecord
  | .deciding command decision => some (command.preemptionRecord (some decision) none none)
  | .persisting command decision items =>
      some (command.preemptionRecord (some decision) (some items) none)
  | .executing command decision items _ _ results =>
      some (command.preemptionRecord (some decision) (some items) (some results))
  | .failing command progress =>
      some (command.preemptionRecord progress.decision progress.actions
        (some progress.executionResults))
  | _ => none

/-- The status an outcome closes the workflow by. -/
def closes (outcome : Option ProcessOutcome) (decision : AgentDecision) : Bool :=
  outcome.elim (decide (decision.status = .completed)) ProcessOutcome.terminal

/-- The wake conditions an outcome leaves. -/
def wakesOf (outcome : Option ProcessOutcome) (decision : AgentDecision) : List WakeCondition :=
  outcome.elim decision.wakeConditions ProcessOutcome.wakeConditions

/-- What a proof about a chain of turns has to show.  `A callers p` holds at the point `p` of a
turn that was chained from the turns `callers`, the latest first.  The intervention at the chain
limit stands where the next turn of the chain would.  `B` is what may be observed meanwhile. -/
structure ChainRule (Φ : List Obs → Prop)
    (A : List TurnCommand → Point → World Runtime Obs → Prop) (B : List Obs → Prop) : Prop where
  bookkept : ∀ callers p, Bookkept (A callers p)
  stable : ∀ callers p, p.Awaits → Stable Φ (A callers p)
  found : ∀ {callers p w}, p ≠ .broken → A callers p w → B w.log
  begun : ∀ {callers c w}, A callers (.ready c.sources) w →
    A callers (.running c) (observed (.started (.runAgentTurn c)) w)
  retried : ∀ {callers c w}, A callers (.running c) w →
    A callers (.running c) (observed (.started (.runAgentTurn c)) w)
  unconfigured : ∀ {callers s w}, A callers (.ready s) w →
    w.self.turnCommand (w.self.uuids 0) s = none → A callers .settled w
  suspended : ∀ {callers c w error}, A callers (.running c) w →
    error.isType "TenantSuspended" = true →
    Φ (w.log ++ [.completed (.runAgentTurn c) (.turn (.error error))]) →
    A callers (.running c) (observed (.completed (.runAgentTurn c) (.turn (.error error))) w)
  closed : ∀ {callers c w}, A callers (.running c) w → w.self.mailbox.closed = true →
    A callers .settled w
  undecided : ∀ {callers c w error}, A callers (.running c) w →
    error.isType "TenantSuspended" = false →
    Φ (w.log ++ [.completed (.runAgentTurn c) (.turn (.error error))]) →
    A callers (.failing c {}) (observed (.completed (.runAgentTurn c) (.turn (.error error))) w)
  decided : ∀ {callers c w d}, A callers (.running c) w →
    Φ (w.log ++ [.completed (.runAgentTurn c) (.turn (.ok d))]) →
    A callers (.deciding c d) (observed (.completed (.runAgentTurn c) (.turn (.ok d))) w)
  saved : ∀ {callers c d w}, A callers (.deciding c d) w →
    w.self.mailbox.lifecyclePreemptionPending = false →
    A callers (.saving c d) (observed (.started (.persistAgentActions c d)) w)
  unpersisted : ∀ {callers c d w error}, A callers (.saving c d) w →
    Φ (w.log ++ [.completed (.persistAgentActions c d) (.actions (.error error))]) →
    A callers (.failing c ⟨some d, none, []⟩)
      (observed (.completed (.persistAgentActions c d) (.actions (.error error))) w)
  persisted : ∀ {callers c d w items}, A callers (.saving c d) w →
    Φ (w.log ++ [.completed (.persistAgentActions c d) (.actions (.ok items))]) →
    A callers (.persisting c d items)
      (observed (.completed (.persistAgentActions c d) (.actions (.ok items))) w)
  projecting : ∀ {callers c d items w}, A callers (.persisting c d items) w →
    w.self.mailbox.lifecyclePreemptionPending = false →
    A callers (.persisting c d items) (observed (.started (.persistProcessState c d)) w)
  unprojected : ∀ {callers c d items w error}, A callers (.persisting c d items) w →
    Φ (w.log ++ [.completed (.persistProcessState c d) (.processState (.error error))]) →
    A callers (.failing c ⟨some d, some items, []⟩)
      (observed (.completed (.persistProcessState c d) (.processState (.error error))) w)
  projected : ∀ {callers c d items w outcome}, A callers (.persisting c d items) w →
    Φ (w.log ++ [.completed (.persistProcessState c d) (.processState (.ok outcome))]) →
    A callers (.executing c d items outcome items [])
      (observed (.completed (.persistProcessState c d) (.processState (.ok outcome))) w)
  preempted : ∀ {callers p record w}, p.preemptionRecord = some record → A callers p w →
    w.self.mailbox.lifecyclePreemptionPending = true → Φ (w.log ++ [.turnRecorded record]) →
    A callers .settled (observed (.turnRecorded record) (updated (.appendTurnRecord record) w))
  skipped : ∀ {callers c d items o item rest results w},
    A callers (.executing c d items o (item :: rest) results) w → item.outcome ≠ .allow →
    A callers (.executing c d items o rest results) w
  executed : ∀ {callers c d items o item rest results w},
    A callers (.executing c d items o (item :: rest) results) w → item.outcome = .allow →
    w.self.mailbox.lifecyclePreemptionPending = false →
    wp Φ (executePendingAction item.actionRequestId item.revision)
      ⟨fun r => A callers (.executing c d items o rest (results ++ r.toList)),
        fun e w => ∃ error, e = .activity error ∧
          A callers (.failing c ⟨some d, some items, results⟩) w,
        fun l w => l ≠ .waitCondition ∧ B w.log⟩ w
  concluded : ∀ {callers c d items o w}, A callers (.executing c d items o [] []) w →
    w.self.mailbox.lifecyclePreemptionPending = false → closes o d = true →
    A callers .settled (updated .close w)
  planned : ∀ {callers c d items o w}, A callers (.executing c d items o [] []) w →
    w.self.mailbox.lifecyclePreemptionPending = false → closes o d = false →
    Φ (w.log ++ [.turnRecorded (c.completionRecord d items [] false)]) →
    A callers .settled (updated (.installPlan d.decisionId (wakesOf o d)) w)
  parked : ∀ {callers c d items w}, A callers (.executing c d items none [] []) w →
    w.self.mailbox.lifecyclePreemptionPending = false →
    A callers .settled (updated (.park .approval) w)
  chained : ∀ {callers c d items o results w}, A callers (.executing c d items o [] results) w →
    results ≠ [] → w.self.mailbox.lifecyclePreemptionPending = false →
    A (c :: callers) (.ready { actionAttemptIds := results.map ExecutionResult.attemptId }) w
  limited : ∀ {callers c d items o results w id}, A callers (.executing c d items o [] results) w →
    results ≠ [] →
    A (c :: callers) (.reporting (c.intervention id "action_chain_limit" "ActionChainLimitReached"
      chainLimitError { actionAttemptIds := results.map ExecutionResult.attemptId })) w
  failed : ∀ {callers c progress error w id}, A callers (.failing c progress) w →
    w.self.mailbox.lifecyclePreemptionPending = false →
    Φ (w.log ++ [.turnRecorded (c.failureRecord error)]) →
    A callers (.reporting (c.intervention id "turn_failure" error.errorType error.message
      c.sources)) w
  reporting : ∀ {callers command w}, A callers (.reporting command) w →
    A callers (.reporting command) (observed (.started (.recordProcessIntervention command)) w)
  reported : ∀ {callers command w}, A callers (.reporting command) w →
    Φ (w.log ++ [.completed (.recordProcessIntervention command) (.intervention (.ok ()))]) →
    A callers .settled (updated (.park .operator)
      (observed (.completed (.recordProcessIntervention command) (.intervention (.ok ()))) w))
  unreported : ∀ {callers command w error}, A callers (.reporting command) w →
    Φ (w.log ++ [.completed (.recordProcessIntervention command)
      (.intervention (.error error))]) →
    A callers .broken (observed (.completed (.recordProcessIntervention command)
      (.intervention (.error error))) w)
  resumed : ∀ {callers c w}, A (c :: callers) .settled w → A callers .settled w
  rescued : ∀ {callers c progress w}, A (c :: callers) .broken w → A callers (.failing c progress) w

namespace ChainRule

variable {A : List TurnCommand → Point → World Runtime Obs → Prop} {B : List Obs → Prop}
  {callers : List TurnCommand}

/-- What a turn, or a part that ends it, has to establish: `settled` if it returns, `broken` if an
error leaves it and `B` wherever it is suspended. -/
def post (settled broken : World Runtime Obs → Prop) (B : List Obs → Prop) :
    Post Runtime Obs Await Failure Unit where
  done := fun _ => settled
  raised := fun e w => ∃ error, e = .activity error ∧ broken w
  blocked := fun l w => l ≠ .waitCondition ∧ B w.log

/-- A turn, chained from `callers`, meets the specification. -/
def Meets (Φ : List Obs → Prop) (A : List TurnCommand → Point → World Runtime Obs → Prop)
    (B : List Obs → Prop) (callers : List TurnCommand) (next : TurnSources → Flow Unit) : Prop :=
  ∀ s w, A callers (.ready s) w →
    wp Φ (next s) (post (A callers .settled) (A callers .broken) B) w

/-- What the loop over the actions of a turn has to establish. -/
def executedPost (A : Point → World Runtime Obs → Prop) (c : TurnCommand) (d : AgentDecision)
    (items : List PersistedItem) (o : Option ProcessOutcome) :
    ActionsEnd → World Runtime Obs → Prop
  | .finished results _, w => A (.executing c d items o [] results) w
  | .preempted results, w => w.self.mailbox.lifecyclePreemptionPending = true ∧
      ∃ rest, A (.executing c d items o rest results) w
  | .failed results _, w => A (.failing c ⟨some d, some items, results⟩) w

variable (hA : ChainRule Φ A B) (hΦ : PrefixClosed Φ)
include hA

lemma recorded {p : Point} {r : TurnRecord} (hr : r.Ordinary) {w : World Runtime Obs}
    (hw : A callers p w) :
    A callers p (observed (.turnRecorded r) (updated (.appendTurnRecord r) w)) :=
  (hA.bookkept callers p).record hr ((hA.bookkept callers p).update (.appendTurnRecord r) hw)

lemma wp_recordPreemptedTurn {p : Point} {record : TurnRecord}
    (hp : p.preemptionRecord = some record) {w : World Runtime Obs} (hw : A callers p w)
    (hpre : w.self.mailbox.lifecyclePreemptionPending = true) :
    wp Φ (recordTurn record) (post (A callers .settled) (A callers .broken) B) w :=
  wp_recordTurn fun hφ => hA.preempted hp hw hpre hφ

include hΦ

/-- Recording an intervention and leaving the process to an operator. -/
lemma wp_report {command : InterventionCommand} {w : World Runtime Obs}
    (hw : A callers (.reporting command) w) :
    wp Φ (recordIntervention command >>= fun _ => update (.park .operator))
      (post (A callers .settled) (A callers .broken) B) w := by
  have hstable := hA.stable callers (.reporting command) trivial
  refine wp_bind hΦ (wp_executeActivity hΦ _ hstable (hA.reporting hw) ?_ ?_ ?_)
  · intro w reply _ hw hreply hφ
    cases reply with
    | intervention answer =>
        obtain rfl := Option.some.inj hreply
        exact wp_update fun _ => hA.reported hw hφ
    | _ => cases hreply
  · intro w reply error hw hreply hφ
    cases reply with
    | intervention answer =>
        obtain rfl := Option.some.inj hreply
        exact ⟨error, rfl, hA.unreported hw hφ⟩
    | _ => cases hreply
  · exact fun w hw => ⟨by simp, hA.found (by simp) hw⟩

lemma wp_turnFailed {c : TurnCommand} {progress : TurnProgress} {error : ActivityError}
    {w : World Runtime Obs} (hw : A callers (.failing c progress) w) :
    wp Φ (turnFailed c progress error) (post (A callers .settled) (A callers .broken) B) w := by
  rw [turnFailed, wp_preemptionPending_bind]
  cases hpre : w.self.mailbox.lifecyclePreemptionPending with
  | true => exact hA.wp_recordPreemptedTurn rfl hw hpre
  | false =>
      rw [if_neg (by simp), wp_recordTurn_bind, wp_uuid4_bind]
      refine wp_assume hΦ fun hφ => hA.wp_report hΦ ?_
      exact (hA.bookkept _ _).draw (hA.recorded (.failed _ _) (hA.failed hw hpre hφ))

omit hΦ in
lemma wp_applyTurnOutcome {c : TurnCommand} {d : AgentDecision} {items : List PersistedItem}
    {o : Option ProcessOutcome} {w : World Runtime Obs}
    (hw : A callers (.executing c d items o [] []) w)
    (hpre : w.self.mailbox.lifecyclePreemptionPending = false)
    (broken : World Runtime Obs → Prop) :
    wp Φ (recordTurn (c.completionRecord d items [] false) >>= fun _ => applyTurnOutcome o d)
      (post (A callers .settled) broken B) w := by
  rw [wp_recordTurn_bind]
  unfold applyTurnOutcome
  cases hc : closes o d with
  | true =>
      rw [closes] at hc
      dsimp only
      rw [if_pos hc]
      exact wp_update fun _ => hA.recorded (.completed _ _ _ _ _) (hA.concluded hw hpre hc)
  | false =>
      rw [closes] at hc
      dsimp only
      rw [if_neg (by simp [hc])]
      exact wp_update fun hφ => hA.recorded (.completed _ _ _ _ _) (hA.planned hw hpre hc hφ)

/-- The end of a turn, given that the turn it may chain meets the specification: only an error
of the latter leaves it. -/
lemma wp_settleTurn {c : TurnCommand} {chain : Option (TurnSources → Flow Unit)}
    (hchain : ∀ next ∈ chain, Meets Φ A B (c :: callers) next)
    {d : AgentDecision} {items : List PersistedItem}
    {o : Option ProcessOutcome} {results : List ExecutionResult} {requiresApproval : Bool}
    {w : World Runtime Obs} (hw : A callers (.executing c d items o [] results) w)
    (hpre : w.self.mailbox.lifecyclePreemptionPending = false) :
    wp Φ (settleTurn chain c d items o results requiresApproval)
      (post (A callers .settled) (A (c :: callers) .broken) B) w := by
  unfold settleTurn
  cases results with
  | nil =>
      have happly := hA.wp_applyTurnOutcome hw hpre (A (c :: callers) .broken)
      dsimp only
      rw [wp_recordTurn_bind] at happly ⊢
      rw [if_neg (by simp), wp_gets_bind]
      split
      · cases o with
        | some outcome => exact happly
        | none =>
            exact wp_update fun _ => hA.parked (hA.recorded (.completed _ _ _ _ _) hw) hpre
      · exact happly
  | cons r rest =>
      have hrec := hA.recorded (.completed c d items (r :: rest) chain.isNone) hw
      have hresume : ∀ {m : Flow Unit} {w},
          wp Φ m (post (A (c :: callers) .settled) (A (c :: callers) .broken) B) w →
            wp Φ m (post (A callers .settled) (A (c :: callers) .broken) B) w := fun h =>
        wp_mono h (fun _ _ _ _ h => hA.resumed h) (fun _ _ _ _ h => h) fun _ _ _ _ h => h
      dsimp only
      rw [wp_recordTurn_bind, if_pos (by simp)]
      cases chain with
      | some next => exact hresume (hchain next rfl _ _ (hA.chained hrec (by simp) hpre))
      | none =>
          dsimp only
          rw [wp_uuid4_bind]
          exact hresume (hA.wp_report hΦ
            (hA.limited ((hA.bookkept _ _).draw hrec) (by simp)))

/-- The loop over the actions of a turn. -/
lemma wp_executeActions {c : TurnCommand} {d : AgentDecision} {items : List PersistedItem}
    {o : Option ProcessOutcome} (rest : List PersistedItem) (results : List ExecutionResult)
    (requiresApproval : Bool) {w : World Runtime Obs}
    (hw : A callers (.executing c d items o rest results) w) :
    wp Φ (executeActions rest results requiresApproval)
      ⟨executedPost (A callers) c d items o, fun _ _ => False,
        fun l w => l ≠ .waitCondition ∧ B w.log⟩
      w := by
  induction rest generalizing results requiresApproval w with
  | nil => exact wp_pure fun _ => hw
  | cons item rest ih =>
      rw [executeActions, wp_preemptionPending_bind]
      cases hpre : w.self.mailbox.lifecyclePreemptionPending with
      | true => exact wp_pure fun _ => ⟨hpre, _, hw⟩
      | false =>
          rw [if_neg (by simp)]
          cases hitem : item.outcome with
          | allow =>
              refine wp_bind hΦ (wp_attempt hΦ (wp_mono (hA.executed hw hitem hpre) ?_ ?_
                fun _ _ _ _ h => h))
              · exact fun r w' _ _ hr => ih _ _ hr
              · rintro _ w' - - ⟨error, rfl, he⟩
                exact wp_pure fun _ => he
          | requireApproval =>
              dsimp only
              rw [wp_update_bind]
              refine ih _ _ ((hA.bookkept _ _).update (.addPendingAction _) (hA.skipped hw ?_))
              simp [hitem]
          | deny => exact ih _ _ (hA.skipped hw (by simp [hitem]))

lemma wp_finishTurn {c : TurnCommand} {chain : Option (TurnSources → Flow Unit)}
    (hchain : ∀ next ∈ chain, Meets Φ A B (c :: callers) next) {d : AgentDecision}
    {items : List PersistedItem}
    {o : Option ProcessOutcome} {w : World Runtime Obs}
    (hw : A callers (.executing c d items o items []) w) :
    wp Φ (finishTurn chain c d items o) (post (A callers .settled) (A callers .broken) B) w := by
  refine wp_bind hΦ (wp_mono (hA.wp_executeActions hΦ items [] false hw) ?_ ?_
    fun _ _ _ _ h => h)
  · intro ending w' _ _ h
    cases ending with
    | preempted results =>
        obtain ⟨hpre, rest, h⟩ := h
        exact hA.wp_recordPreemptedTurn rfl h hpre
    | failed results error => exact hA.wp_turnFailed hΦ h
    | finished results requiresApproval =>
        dsimp only
        rw [wp_preemptionPending_bind]
        cases hpre : w'.self.mailbox.lifecyclePreemptionPending with
        | true => exact hA.wp_recordPreemptedTurn rfl h hpre
        | false =>
            rw [if_neg (by simp)]
            refine wp_bind hΦ (wp_attempt hΦ (wp_mono (hA.wp_settleTurn hΦ hchain h hpre) ?_ ?_
              fun _ _ _ _ h => h))
            · exact fun _ w'' _ _ h => wp_pure fun _ => h
            · rintro _ w'' - - ⟨error, rfl, he⟩
              exact hA.wp_turnFailed hΦ (hA.rescued he)
  · exact fun e w' _ _ he => he.elim

lemma wp_projectTurn {c : TurnCommand} {chain : Option (TurnSources → Flow Unit)}
    (hchain : ∀ next ∈ chain, Meets Φ A B (c :: callers) next) {d : AgentDecision}
    {items : List PersistedItem} {w : World Runtime Obs}
    (hw : A callers (.persisting c d items) w) :
    wp Φ (projectTurn chain c d items) (post (A callers .settled) (A callers .broken) B) w := by
  rw [projectTurn, wp_preemptionPending_bind]
  cases hpre : w.self.mailbox.lifecyclePreemptionPending with
  | true => exact hA.wp_recordPreemptedTurn rfl hw hpre
  | false =>
      have hstable := hA.stable callers (.persisting c d items) trivial
      rw [if_neg (by simp)]
      refine wp_bind hΦ (wp_attempt hΦ (wp_executeActivity hΦ _ hstable
        (hA.projecting hw hpre) ?_ ?_ fun w hw => ⟨by simp, hA.found (by simp) hw⟩))
      · intro w reply outcome hw hreply hφ
        cases reply with
        | processState answer =>
            obtain rfl := Option.some.inj hreply
            exact hA.wp_finishTurn hΦ hchain (hA.projected hw hφ)
        | _ => cases hreply
      · intro w reply error hw hreply hφ
        cases reply with
        | processState answer =>
            obtain rfl := Option.some.inj hreply
            exact hA.wp_turnFailed hΦ (hA.unprojected hw hφ)
        | _ => cases hreply

lemma wp_persistTurn {c : TurnCommand} {chain : Option (TurnSources → Flow Unit)}
    (hchain : ∀ next ∈ chain, Meets Φ A B (c :: callers) next) {d : AgentDecision}
    {w : World Runtime Obs} (hw : A callers (.deciding c d) w) :
    wp Φ (persistTurn chain c d) (post (A callers .settled) (A callers .broken) B) w := by
  rw [persistTurn, wp_preemptionPending_bind]
  cases hpre : w.self.mailbox.lifecyclePreemptionPending with
  | true => exact hA.wp_recordPreemptedTurn rfl hw hpre
  | false =>
      rw [if_neg (by simp)]
      have hstable := hA.stable callers (.saving c d) trivial
      refine wp_bind hΦ (wp_attempt hΦ (wp_executeActivity hΦ _ hstable
        (hA.saved hw hpre) ?_ ?_ fun w hw => ⟨by simp, hA.found (by simp) hw⟩))
      · intro w reply items hw hreply hφ
        cases reply with
        | actions answer =>
            obtain rfl := Option.some.inj hreply
            exact hA.wp_projectTurn hΦ hchain (hA.persisted hw hφ)
        | _ => cases hreply
      · intro w reply error hw hreply hφ
        cases reply with
        | actions answer =>
            obtain rfl := Option.some.inj hreply
            exact hA.wp_turnFailed hΦ (hA.unpersisted hw hφ)
        | _ => cases hreply

lemma wp_turnBody {c : TurnCommand} {chain : Option (TurnSources → Flow Unit)}
    (hchain : ∀ next ∈ chain, Meets Φ A B (c :: callers) next) {w : World Runtime Obs}
    (hw : A callers (.ready c.sources) w) :
    wp Φ (turnBody chain c) (post (A callers .settled) (A callers .broken) B) w := by
  have hrunning := hA.stable callers (.running c) trivial
  refine wp_bind hΦ (wp_attempt hΦ (wp_retryWhileSuspended hΦ
    (fun w => A callers (.ready c.sources) w ∨ A callers (.running c) w)
    (A callers (.running c)) hrunning
    (fun _ h => .inr h) (.inl hw) ?_ ?_ ?_))
  · intro w hw
    -- the first try begins the turn, the later ones find it running
    have hstart : A callers (.running c) (observed (.started (.runAgentTurn c)) w) :=
      hw.elim hA.begun hA.retried
    refine wp_executeActivity hΦ _ hrunning hstart ?_ ?_
      fun w hw => ⟨by simp, hA.found (by simp) hw⟩
    · intro w reply d hw hreply hφ
      cases reply with
      | turn answer =>
          obtain rfl := Option.some.inj hreply
          exact hA.wp_persistTurn hΦ hchain (hA.decided hw hφ)
      | _ => cases hreply
    · intro w reply error hw hreply hφ
      cases reply with
      | turn answer =>
          obtain rfl := Option.some.inj hreply
          dsimp only
          split
          · rename_i hs
            exact hA.suspended hw hs hφ
          · rename_i hs
            exact hA.wp_turnFailed hΦ (hA.undecided hw (by simpa using hs) hφ)
      | _ => cases hreply
  · exact fun w hw hc => wp_pure fun _ => hA.closed hw hc
  · exact fun w hw => ⟨by simp, hw.elim (hA.found (by simp)) (hA.found (by simp))⟩

lemma wp_turn {chain : Option (TurnSources → Flow Unit)}
    (hchain : ∀ next ∈ chain, ∀ c, Meets Φ A B (c :: callers) next)
    {sources : TurnSources} {w : World Runtime Obs} (hw : A callers (.ready sources) w) :
    wp Φ (turn chain sources) (post (A callers .settled) (A callers .broken) B) w := by
  rw [turn, wp_gets_bind]
  cases hcommand : w.self.turnCommand (w.self.uuids 0) sources with
  | none => exact wp_pure fun _ => hA.unconfigured hw hcommand
  | some c =>
      have hsources : c.sources = sources := by
        unfold Runtime.turnCommand at hcommand
        split at hcommand
        · rw [← Option.some.inj hcommand]
        · cases hcommand
      dsimp only
      rw [wp_uuid4_bind, wp_update_bind]
      refine wp_onExit (wp_mono (hA.wp_turnBody hΦ (fun next h => hchain next h c) ?_) ?_ ?_
        fun _ _ _ _ h => h)
      · rw [hsources]
        exact (hA.bookkept _ _).update .beginTurn ((hA.bookkept _ _).draw hw)
      · exact fun _ w' _ _ h => (hA.bookkept _ _).update .endTurn h
      · rintro e w' - - ⟨error, rfl, h⟩
        exact ⟨error, rfl, (hA.bookkept _ _).update .endTurn h⟩

/-- **The rule for chains of turns**: a turn on sources for which `A callers` is ready, with the
turns chained to it, ends where `A callers` is settled, raises where it is broken, and is never
found in `wait_condition`. -/
theorem wp_runTurn (remaining : ℕ) (callers : List TurnCommand) :
    Meets Φ A B callers (runTurn remaining) := by
  induction remaining generalizing callers with
  | zero => exact fun s w hw => hA.wp_turn hΦ (fun _ h => by cases h) hw
  | succ remaining ih =>
      intro s w hw
      refine hA.wp_turn hΦ (fun next h c => ?_) hw
      obtain rfl := Option.some.inj h
      exact ih (c :: callers)

end ChainRule

/-- What a proof about turns has to show: the ways from one point to the next keep the
assertions `A`. -/
structure TurnRule (Φ : List Obs → Prop) (A : Point → World Runtime Obs → Prop) : Prop where
  robust : ∀ p, Robust Φ (A p)
  begun : ∀ {c w}, A (.ready c.sources) w →
    A (.running c) (observed (.started (.runAgentTurn c)) w)
  retried : ∀ {c w}, A (.running c) w → A (.running c) (observed (.started (.runAgentTurn c)) w)
  unconfigured : ∀ {s w}, A (.ready s) w → w.self.turnCommand (w.self.uuids 0) s = none →
    A .settled w
  suspended : ∀ {c w error}, A (.running c) w → error.isType "TenantSuspended" = true →
    Φ (w.log ++ [.completed (.runAgentTurn c) (.turn (.error error))]) →
    A (.running c) (observed (.completed (.runAgentTurn c) (.turn (.error error))) w)
  closed : ∀ {c w}, A (.running c) w → w.self.mailbox.closed = true → A .settled w
  undecided : ∀ {c w error}, A (.running c) w →
    Φ (w.log ++ [.completed (.runAgentTurn c) (.turn (.error error))]) →
    A (.failing c {}) (observed (.completed (.runAgentTurn c) (.turn (.error error))) w)
  decided : ∀ {c w d}, A (.running c) w →
    Φ (w.log ++ [.completed (.runAgentTurn c) (.turn (.ok d))]) →
    A (.deciding c d) (observed (.completed (.runAgentTurn c) (.turn (.ok d))) w)
  saved : ∀ {c d w}, A (.deciding c d) w → w.self.mailbox.lifecyclePreemptionPending = false →
    A (.saving c d) (observed (.started (.persistAgentActions c d)) w)
  unpersisted : ∀ {c d w error}, A (.saving c d) w →
    Φ (w.log ++ [.completed (.persistAgentActions c d) (.actions (.error error))]) →
    A (.failing c ⟨some d, none, []⟩)
      (observed (.completed (.persistAgentActions c d) (.actions (.error error))) w)
  persisted : ∀ {c d w items}, A (.saving c d) w →
    Φ (w.log ++ [.completed (.persistAgentActions c d) (.actions (.ok items))]) →
    A (.persisting c d items)
      (observed (.completed (.persistAgentActions c d) (.actions (.ok items))) w)
  projecting : ∀ {c d items w}, A (.persisting c d items) w →
    A (.persisting c d items) (observed (.started (.persistProcessState c d)) w)
  unprojected : ∀ {c d items w error}, A (.persisting c d items) w →
    Φ (w.log ++ [.completed (.persistProcessState c d) (.processState (.error error))]) →
    A (.failing c ⟨some d, some items, []⟩)
      (observed (.completed (.persistProcessState c d) (.processState (.error error))) w)
  projected : ∀ {c d items w outcome}, A (.persisting c d items) w →
    Φ (w.log ++ [.completed (.persistProcessState c d) (.processState (.ok outcome))]) →
    A (.executing c d items outcome items [])
      (observed (.completed (.persistProcessState c d) (.processState (.ok outcome))) w)
  preempted : ∀ {p record w}, p.preemptionRecord = some record → A p w →
    w.self.mailbox.lifecyclePreemptionPending = true → Φ (w.log ++ [.turnRecorded record]) →
    A .settled (observed (.turnRecorded record) (updated (.appendTurnRecord record) w))
  skipped : ∀ {c d items o item rest results w},
    A (.executing c d items o (item :: rest) results) w → item.outcome ≠ .allow →
    A (.executing c d items o rest results) w
  executed : ∀ {c d items o item rest results w},
    A (.executing c d items o (item :: rest) results) w → item.outcome = .allow →
    w.self.mailbox.lifecyclePreemptionPending = false →
    wp Φ (executePendingAction item.actionRequestId item.revision)
      ⟨fun r => A (.executing c d items o rest (results ++ r.toList)),
        fun e w => ∀ error, e = .activity error →
          A (.failing c ⟨some d, some items, results⟩) w,
        fun l _ => l ≠ .waitCondition⟩ w
  concluded : ∀ {c d items o w}, A (.executing c d items o [] []) w →
    w.self.mailbox.lifecyclePreemptionPending = false → closes o d = true →
    A .settled (updated .close w)
  planned : ∀ {c d items o w}, A (.executing c d items o [] []) w →
    w.self.mailbox.lifecyclePreemptionPending = false → closes o d = false →
    Φ (w.log ++ [.turnRecorded (c.completionRecord d items [] false)]) →
    A .settled (updated (.installPlan d.decisionId (wakesOf o d)) w)
  parked : ∀ {c d items w}, A (.executing c d items none [] []) w →
    w.self.mailbox.lifecyclePreemptionPending = false →
    A .settled (updated (.park .approval) w)
  chained : ∀ {c d items o results w}, A (.executing c d items o [] results) w → results ≠ [] →
    A (.ready { actionAttemptIds := results.map ExecutionResult.attemptId }) w
  limited : ∀ {c d items o results w command}, A (.executing c d items o [] results) w →
    results ≠ [] →
    command.sources = { actionAttemptIds := results.map ExecutionResult.attemptId } →
    A (.reporting command) w
  failed : ∀ {c progress error w command}, A (.failing c progress) w →
    w.self.mailbox.lifecyclePreemptionPending = false →
    Φ (w.log ++ [.turnRecorded (c.failureRecord error)]) → command.sources = c.sources →
    A (.reporting command) w
  reporting : ∀ {command w}, A (.reporting command) w →
    A (.reporting command) (observed (.started (.recordProcessIntervention command)) w)
  reported : ∀ {command w}, A (.reporting command) w →
    Φ (w.log ++ [.completed (.recordProcessIntervention command) (.intervention (.ok ()))]) →
    A .settled (updated (.park .operator)
      (observed (.completed (.recordProcessIntervention command) (.intervention (.ok ()))) w))
  unreported : ∀ {command w error}, A (.reporting command) w →
    Φ (w.log ++ [.completed (.recordProcessIntervention command)
      (.intervention (.error error))]) →
    A .broken (observed (.completed (.recordProcessIntervention command)
      (.intervention (.error error))) w)
  rescued : ∀ {c progress w}, A .broken w → A (.failing c progress) w

namespace TurnRule

variable {A : Point → World Runtime Obs → Prop}

/-- What a turn, or a part that ends it, has to establish. -/
def post (A : Point → World Runtime Obs → Prop) : Post Runtime Obs Await Failure Unit where
  done := fun _ => A .settled
  raised := fun e w => ∀ error, e = .activity error → A .broken w
  blocked := fun l _ => l ≠ .waitCondition

/-- Assertions that are the same for every turn of a chain. -/
lemma chainRule (hA : TurnRule Φ A) (hΦ : PrefixClosed Φ) :
    ChainRule Φ (fun _ => A) fun _ => True where
  bookkept := fun _ p => (hA.robust p).bookkept
  stable := fun _ p _ => (hA.robust p).stable
  found := fun _ _ => trivial
  begun := hA.begun
  retried := hA.retried
  unconfigured := hA.unconfigured
  suspended := hA.suspended
  closed := hA.closed
  undecided := fun h _ => hA.undecided h
  decided := hA.decided
  saved := hA.saved
  unpersisted := hA.unpersisted
  persisted := hA.persisted
  projecting := fun h _ => hA.projecting h
  unprojected := hA.unprojected
  projected := hA.projected
  preempted := hA.preempted
  skipped := hA.skipped
  executed := by
    intro callers c d items o item rest results w h hitem hpre
    refine wp_mono (wp_and (hA.executed h hitem hpre) (executePendingAction_raises hΦ))
      (fun _ _ _ _ h => h.1) ?_ fun _ _ _ _ h => ⟨h.1, trivial⟩
    rintro e w' - - ⟨h, error, rfl⟩
    exact ⟨error, rfl, h error rfl⟩
  concluded := hA.concluded
  planned := hA.planned
  parked := hA.parked
  chained := fun h hr _ => hA.chained h hr
  limited := fun h hr => hA.limited h hr rfl
  failed := fun h hpre hφ => hA.failed h hpre hφ rfl
  reporting := hA.reporting
  reported := hA.reported
  unreported := hA.unreported
  resumed := id
  rescued := hA.rescued

/-- **The rule for turns**: a turn on sources for which `A` is ready, with the turns chained to
it, ends where `A` is settled, raises where it is broken, and is never found in
`wait_condition`. -/
theorem wp_runTurn (hA : TurnRule Φ A) (hΦ : PrefixClosed Φ) (remaining : ℕ)
    {sources : TurnSources} {w : World Runtime Obs} (hw : A (.ready sources) w) :
    wp Φ (runTurn remaining sources) (post A) w := by
  refine wp_mono ((hA.chainRule hΦ).wp_runTurn hΦ remaining [] sources w hw)
    (fun _ _ _ _ h => h) ?_ fun _ _ _ _ h => h.1
  rintro e w' - - ⟨_, _, h⟩ error _
  exact h

end TurnRule

end TiramisuAgents
