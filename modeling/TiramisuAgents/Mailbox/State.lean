import TiramisuAgents.Core.Contracts
import TiramisuAgents.Library.Inbox

/-!
`temporal/workflows/mailbox.py`, the data: the messages a mailbox receives, the records
it keeps and the fields of `ProcessMailboxWorkflow`, with the pure parts of its methods.

The fields `_buffered_x` and `_seen_x_ids` of each of the four kinds of message are one
`Inbox`.  The JSON texts that Activities hand to the workflow (`decision_json`,
`actions_json`, `result_json`) are carried as the values they encode.

* `Mailbox.handle`: the six signal handlers.
* `Update`, `Update.apply`: every change the workflow code makes to the fields apart from
  taking a message out of its buffer, so that an invariant of the fields is one case
  analysis.
* `Mailbox.nextBranch`: the branch the loop of `run` takes.
-/

namespace TiramisuAgents

/-! ### Messages and records -/

/-- `MailboxEvent`. -/
structure MailboxEvent where
  eventId : String
  eventType : String
  deriving DecidableEq, Repr

/-- `MailboxReview`. -/
structure MailboxReview where
  commandId : String
  commandType : String
  reviewThreadId : String
  actionRequestId : String
  proposalRevision : ℤ
  deriving DecidableEq, Repr

/-- `MailboxActionResolution`. -/
structure MailboxActionResolution where
  commandId : String
  actionRequestId : String
  actionAttemptId : String
  status : String
  deriving DecidableEq, Repr

/-- The sources of one agent turn: the four identity lists that `_run_turn` takes. -/
structure TurnSources where
  eventIds : List String := []
  reviewCommandIds : List String := []
  actionAttemptIds : List String := []
  timerIds : List String := []
  deriving DecidableEq, Repr

/-- `MailboxControl`; the four identity lists are the sources of a retried turn. -/
structure MailboxControl where
  commandId : String
  commandType : String
  sources : TurnSources := {}
  deriving DecidableEq, Repr

/-- `WakePlan`. -/
structure WakePlan where
  eventTypes : List String := []
  timerId : Option String := none
  timerAt : Option Time := none
  humanInteractions : List String := []
  deriving DecidableEq, Repr

/-- A plan that names at least one event type, timer or human interaction. -/
def WakePlan.NamesWake (p : WakePlan) : Prop :=
  p.eventTypes ≠ [] ∨ p.timerAt ≠ none ∨ p.humanInteractions ≠ []

instance (p : WakePlan) : Decidable p.NamesWake := inferInstanceAs (Decidable (_ ∨ _))

/-- `WakeRecord`. -/
structure WakeRecord where
  reason : String
  eventId : Option String
  eventType : Option String
  timerId : Option String
  wokeAt : Time
  reviewCommandId : Option String := none
  reviewCommandType : Option String := none
  deriving DecidableEq, Repr

/-- One item of the `actions_json` that `persist_agent_actions` returns, as far as the
workflow reads it. -/
structure PersistedItem where
  actionRequestId : String
  revision : ℤ
  outcome : PermissionOutcome
  deriving DecidableEq, Repr

/-- The `result_json` of `execute_action` and `reconcile_action`, as far as the workflow
reads it. -/
structure ExecutionResult where
  attemptId : String
  status : ActionAttemptStatus
  deriving DecidableEq, Repr

/-- `TurnRecord`. -/
structure TurnRecord where
  turnId : String
  sources : TurnSources
  decision : Option AgentDecision
  actions : Option (List PersistedItem)
  executionResults : Option (List ExecutionResult)
  error : Option String
  deriving DecidableEq

/-- `ExecutionRecord`. -/
structure ExecutionRecord where
  actionRequestId : String
  revision : ℤ
  result : Option ExecutionResult
  error : Option String
  deriving DecidableEq, Repr

/-! ### The workflow object -/

/-- The fields of `ProcessMailboxWorkflow`, with the values of its `__init__`. -/
structure Mailbox where
  tenantId : String := ""
  processInstanceId : String := ""
  events : Inbox MailboxEvent String := .empty
  reviews : Inbox MailboxReview String := .empty
  actionResolutions : Inbox MailboxActionResolution String := .empty
  controls : Inbox MailboxControl String := .empty
  wakeRecords : List WakeRecord := []
  turnRecords : List TurnRecord := []
  executionRecords : List ExecutionRecord := []
  pendingActionRequestIds : List String := []
  turnInProgress : Bool := false
  processDefinitionId : Option String := none
  processDefinitionVersion : Option String := none
  wakePlan : Option WakePlan := none
  timerDueAt : Option Time := none
  planRevision : ℕ := 0
  closed : Bool := false
  started : Bool := false
  continueAsNewAfterTurns : ℤ := 100
  turnsSinceContinue : ℕ := 0
  completedTurnCount : ℕ := 0
  continuedRunCount : ℕ := 0
  deriving DecidableEq

/-- The signals of the workflow. -/
inductive Signal where
  | receiveEvent (event : MailboxEvent)
  | receiveReview (review : MailboxReview)
  | receiveActionResolution (resolution : MailboxActionResolution)
  | receiveControl (control : MailboxControl)
  | replaceWakePlan (plan : WakePlan)
  | close
  deriving DecidableEq, Repr

namespace Mailbox

/-! ### Signal handlers -/

/-- `receive_event`. -/
def receiveEvent (m : Mailbox) (event : MailboxEvent) : Mailbox :=
  { m with events := m.events.receive MailboxEvent.eventId event }

/-- `receive_review`. -/
def receiveReview (m : Mailbox) (review : MailboxReview) : Mailbox :=
  { m with reviews := m.reviews.receive MailboxReview.commandId review }

/-- `receive_action_resolution`. -/
def receiveActionResolution (m : Mailbox) (resolution : MailboxActionResolution) : Mailbox :=
  { m with actionResolutions :=
      m.actionResolutions.receive MailboxActionResolution.commandId resolution }

/-- `receive_control`. -/
def receiveControl (m : Mailbox) (control : MailboxControl) : Mailbox :=
  { m with controls := m.controls.receive MailboxControl.commandId control }

/-- `replace_wake_plan`. -/
def replaceWakePlan (m : Mailbox) (plan : WakePlan) : Mailbox :=
  { m with wakePlan := some plan, timerDueAt := plan.timerAt, planRevision := m.planRevision + 1 }

/-- `close`. -/
def close (m : Mailbox) : Mailbox := { m with closed := true }

/-- The handler of a signal. -/
def handle (m : Mailbox) : Signal → Mailbox
  | .receiveEvent event => m.receiveEvent event
  | .receiveReview review => m.receiveReview review
  | .receiveActionResolution resolution => m.receiveActionResolution resolution
  | .receiveControl control => m.receiveControl control
  | .replaceWakePlan plan => m.replaceWakePlan plan
  | .close => m.close

/-- A list of signals handled in order. -/
def handleAll (m : Mailbox) (signals : List Signal) : Mailbox := signals.foldl handle m

/-! ### Queries -/

/-- `_lifecycle_preemption_pending`. -/
def lifecyclePreemptionPending (m : Mailbox) : Bool :=
  m.closed || m.controls.buffer.any fun control => control.commandType == "takeover"

/-- `_should_continue_as_new`, given what `workflow.info()` suggests. -/
def shouldContinueAsNew (m : Mailbox) (suggested : Bool) : Bool :=
  if m.turnInProgress then false
  else decide (m.continueAsNewAfterTurns ≤ m.turnsSinceContinue) || suggested

/-- `OPERATOR_MANUAL_WAKE_EVENT_TYPE`. -/
def operatorManualWakeEventType : String := "operator.manual_wake"

/-- The first buffered event with a property, and its index. -/
def firstEvent (p : MailboxEvent → Bool) : List MailboxEvent → Option (ℕ × MailboxEvent)
  | [] => none
  | event :: rest =>
      if p event then some (0, event)
      else (firstEvent p rest).map fun found => (found.1 + 1, found.2)

/-- `_initial_event_index`. -/
def initialEvent (m : Mailbox) : Option (ℕ × MailboxEvent) :=
  firstEvent (fun event => event.eventType != operatorManualWakeEventType) m.events.buffer

/-- `_manual_wake_event_index`. -/
def manualWakeEvent (m : Mailbox) : Option (ℕ × MailboxEvent) :=
  firstEvent (fun event => event.eventType == operatorManualWakeEventType) m.events.buffer

/-- `_matching_event_index`. -/
def matchingEvent (m : Mailbox) : Option (ℕ × MailboxEvent) :=
  m.wakePlan.bind fun plan =>
    firstEvent (fun event => plan.eventTypes.contains event.eventType) m.events.buffer

/-- The predicate `run` passes to `wait_condition`, given the plan revision it awaited. -/
def wakeReady (m : Mailbox) (awaitedRevision : ℕ) : Bool :=
  m.closed
    || m.planRevision != awaitedRevision
    || !m.reviews.buffer.isEmpty
    || !m.actionResolutions.buffer.isEmpty
    || !m.controls.buffer.isEmpty
    || (!m.started && m.wakePlan.isNone && m.initialEvent.isSome)
    || m.manualWakeEvent.isSome
    || m.matchingEvent.isSome

end Mailbox

/-! ### Taking a message -/

/-- A message that the loop takes out of its buffer. -/
inductive Source where
  | event (index : ℕ) (event : MailboxEvent)
  | review (review : MailboxReview)
  | actionResolution (resolution : MailboxActionResolution)
  | control (control : MailboxControl)
  deriving DecidableEq, Repr

/-- The `pop` on the buffer of a message. -/
def Source.pop : Source → Mailbox → Mailbox
  | .event index _, m => { m with events := m.events.pop index }
  | .review _, m => { m with reviews := m.reviews.pop 0 }
  | .actionResolution _, m => { m with actionResolutions := m.actionResolutions.pop 0 }
  | .control _, m => { m with controls := m.controls.pop 0 }

/-- The branches of the loop body of `run`, in the order of the source. -/
inductive Branch where
  | initial (index : ℕ) (event : MailboxEvent)
  | review (review : MailboxReview)
  | actionResolution (resolution : MailboxActionResolution)
  | control (control : MailboxControl)
  | manualWake (index : ℕ) (event : MailboxEvent)
  | matching (index : ℕ) (event : MailboxEvent)
  | timer
  | wait
  deriving DecidableEq, Repr

/-- The branch the loop body takes: the first of the source's guards that holds. -/
def Mailbox.nextBranch (m : Mailbox) (now : Time) : Branch :=
  match (if !m.started && m.wakePlan.isNone then m.initialEvent else none) with
  | some (index, event) => .initial index event
  | none =>
  match m.reviews.buffer with
  | review :: _ => .review review
  | [] =>
  match m.actionResolutions.buffer with
  | resolution :: _ => .actionResolution resolution
  | [] =>
  match m.controls.buffer with
  | control :: _ => .control control
  | [] =>
  match m.manualWakeEvent with
  | some (index, event) => .manualWake index event
  | none =>
  match m.matchingEvent with
  | some (index, event) => .matching index event
  | none => if m.timerDueAt.elim false (fun due => decide (due ≤ now)) then .timer else .wait

/-! ### Updates -/

/-- `_apply_turn_outcome`: the least timer among the wake conditions, with its index; the
first of several. -/
def selectTimer : ℕ → List WakeCondition → Option (ℕ × Time)
  | _, [] => none
  | index, .timer at_ :: rest =>
      match selectTimer (index + 1) rest with
      | some best => if best.2 < at_ then some best else some (index, at_)
      | none => some (index, at_)
  | index, _ :: rest => selectTimer (index + 1) rest

/-- The plan `_apply_turn_outcome` installs for the wake conditions of a projection. -/
def wakePlanOf (decisionId : String) (wakes : List WakeCondition) : WakePlan where
  eventTypes := wakes.filterMap fun | .event eventType => some eventType | _ => none
  timerId := (selectTimer 0 wakes).map fun timer => s!"{decisionId}:timer:{timer.1}"
  timerAt := (selectTimer 0 wakes).map Prod.snd
  humanInteractions :=
    wakes.filterMap fun | .human interaction => some interaction.value | _ => none

/-- What the workflow code changes in the fields, apart from taking messages. -/
inductive Update where
  | start
  | appendWakeRecord (record : WakeRecord)
  | appendTurnRecord (record : TurnRecord)
  | appendExecutionRecord (record : ExecutionRecord)
  | clearWakePlan
  | park (interaction : HumanInteraction)
  | installPlan (decisionId : String) (wakes : List WakeCondition)
  | close
  | addPendingAction (actionRequestId : String)
  | removePendingAction (actionRequestId : String)
  | beginTurn
  | endTurn

/-- The effect of an update on the fields. -/
def Update.apply : Update → Mailbox → Mailbox
  | .start, m => { m with started := true }
  | .appendWakeRecord record, m => { m with wakeRecords := m.wakeRecords ++ [record] }
  | .appendTurnRecord record, m => { m with turnRecords := m.turnRecords ++ [record] }
  | .appendExecutionRecord record, m =>
      { m with executionRecords := m.executionRecords ++ [record] }
  -- `_clear_wake_plan`
  | .clearWakePlan, m =>
      { m with wakePlan := none, timerDueAt := none, planRevision := m.planRevision + 1 }
  -- `self._wake_plan = WakePlan(human_interactions=(...,))`, with the timer reset
  | .park interaction, m =>
      { m with
        wakePlan := some { humanInteractions := [interaction.value] }
        timerDueAt := none
        planRevision := m.planRevision + 1 }
  -- the end of `_apply_turn_outcome`
  | .installPlan decisionId wakes, m =>
      let plan := wakePlanOf decisionId wakes
      { m with
        wakePlan := some plan, timerDueAt := plan.timerAt, planRevision := m.planRevision + 1 }
  | .close, m => { m with closed := true }
  -- `_add_pending_action` and `_remove_pending_action`
  | .addPendingAction actionRequestId, m =>
      if actionRequestId ∈ m.pendingActionRequestIds then m
      else { m with pendingActionRequestIds := m.pendingActionRequestIds ++ [actionRequestId] }
  | .removePendingAction actionRequestId, m =>
      { m with pendingActionRequestIds := m.pendingActionRequestIds.erase actionRequestId }
  | .beginTurn, m => { m with turnInProgress := true }
  -- the `finally` clause of `_run_turn`
  | .endTurn, m =>
      { m with
        turnInProgress := false
        turnsSinceContinue := m.turnsSinceContinue + 1
        completedTurnCount := m.completedTurnCount + 1 }

namespace Update

variable (u : Update) (m : Mailbox)

/-- An update leaves the four inboxes and the identity of the process alone. -/
lemma apply_frame :
    (u.apply m).events = m.events ∧ (u.apply m).reviews = m.reviews ∧
      (u.apply m).actionResolutions = m.actionResolutions ∧ (u.apply m).controls = m.controls ∧
      (u.apply m).processDefinitionId = m.processDefinitionId ∧
      (u.apply m).processDefinitionVersion = m.processDefinitionVersion := by
  cases u with
  | addPendingAction actionRequestId =>
      rw [apply]
      split <;> exact ⟨rfl, rfl, rfl, rfl, rfl, rfl⟩
  | _ => exact ⟨rfl, rfl, rfl, rfl, rfl, rfl⟩

@[simp] lemma apply_events : (u.apply m).events = m.events := (u.apply_frame m).1

@[simp] lemma apply_reviews : (u.apply m).reviews = m.reviews := (u.apply_frame m).2.1

@[simp] lemma apply_actionResolutions : (u.apply m).actionResolutions = m.actionResolutions :=
  (u.apply_frame m).2.2.1

@[simp] lemma apply_controls : (u.apply m).controls = m.controls := (u.apply_frame m).2.2.2.1

@[simp] lemma apply_processDefinitionId :
    (u.apply m).processDefinitionId = m.processDefinitionId := (u.apply_frame m).2.2.2.2.1

@[simp] lemma apply_processDefinitionVersion :
    (u.apply m).processDefinitionVersion = m.processDefinitionVersion :=
  (u.apply_frame m).2.2.2.2.2

end Update

end TiramisuAgents
