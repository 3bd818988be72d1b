import Mathlib.Data.Finset.Sort
import Mathlib.Data.List.DropRight
import Mathlib.Data.String.Basic
import TiramisuAgents.Core.Policy
import TiramisuAgents.Mailbox.State

/-!
`temporal/workflows/mailbox.py`, the Continue-As-New boundary: the snapshot a mailbox
hands to its successor run and the restoration of the successor from it.

Snapshots hold untyped documents (`dict[str, Any]`), modelled as key-value lists that
restoration looks keys up in.  `IsoCodec` is `datetime.isoformat` with
`datetime.fromisoformat`, and carries the round trip of the two.

* `Mailbox.continuationInput`, `Mailbox.restoreContinuation`: the two methods.
* `Mailbox.resumes_continuationInput`: restoring a snapshot after some signals were buffered
  is receiving the signals in the state the snapshot was taken from; `Mailbox.resumes_supported`
  is the same for any snapshot that can be read.
-/

namespace TiramisuAgents

/-! ### Documents -/

@[simp] lemma ok_bind {ε α β : Type} (a : α) (f : α → Except ε β) :
    (Except.ok a >>= f) = f a := rfl

@[simp] lemma map_ok {ε α β : Type} (a : α) (f : α → β) :
    f <$> (Except.ok a : Except ε α) = Except.ok (f a) := rfl

/-- A value of a snapshot document.  The JSON texts of a record are carried as what they
encode. -/
inductive Value where
  | null
  | str (s : String)
  | int (n : ℤ)
  | strs (l : List String)
  | decision (d : AgentDecision)
  | items (l : List PersistedItem)
  | results (l : List ExecutionResult)
  | result (r : ExecutionResult)
  deriving DecidableEq

/-- A `dict[str, Any]`, in insertion order. -/
abbrev Document := List (String × Value)

/-- `str(value)`, on the values a document holds under a text key. -/
def Value.toStr : Value → Except String String
  | .str s => .ok s
  | .int n => .ok (toString n)
  | .null => .ok "None"
  | _ => .error "not a text"

/-- `int(value)`. -/
def Value.toInt : Value → Except String ℤ
  | .int n => .ok n
  | _ => .error "not a number"

/-- `cast(str | None, value)`. -/
def Value.toOptStr : Value → Except String (Option String)
  | .null => .ok none
  | .str s => .ok (some s)
  | _ => .error "not an optional text"

/-- `tuple(str(item) for item in value)`. -/
def Value.toStrs : Value → Except String (List String)
  | .strs l => .ok l
  | _ => .error "not a list of texts"

/-- The `decision_json` of a turn record. -/
def Value.toDecision : Value → Except String (Option AgentDecision)
  | .null => .ok none
  | .decision d => .ok (some d)
  | _ => .error "not a decision"

/-- The `actions_json` of a turn record. -/
def Value.toItems : Value → Except String (Option (List PersistedItem))
  | .null => .ok none
  | .items l => .ok (some l)
  | _ => .error "not a list of actions"

/-- The `execution_results_json` of a turn record. -/
def Value.toResults : Value → Except String (Option (List ExecutionResult))
  | .null => .ok none
  | .results l => .ok (some l)
  | _ => .error "not a list of results"

/-- The `result_json` of an execution record. -/
def Value.toResult : Value → Except String (Option ExecutionResult)
  | .null => .ok none
  | .result r => .ok (some r)
  | _ => .error "not a result"

/-- An optional text as a value. -/
def Value.ofOptStr (s : Option String) : Value := s.elim .null .str

@[simp] lemma Value.toOptStr_ofOptStr (s : Option String) :
    (Value.ofOptStr s).toOptStr = .ok s := by
  cases s <;> rfl

/-- `document[key]`. -/
def Document.get (d : Document) (key : String) : Except String Value :=
  match d.lookup key with
  | some v => .ok v
  | none => .error s!"KeyError: {key}"

/-- `document.get(key, ())`. -/
def Document.getStrs (d : Document) (key : String) : Except String (List String) :=
  match d.lookup key with
  | some v => v.toStrs
  | none => .ok []

/-- `datetime.isoformat` and `datetime.fromisoformat`, with their round trip. -/
structure IsoCodec where
  isoformat : Time → String
  fromisoformat : String → Except String Time
  fromisoformat_isoformat : ∀ t, fromisoformat (isoformat t) = .ok t

/-- A codec that writes a sign and a tally. -/
def IsoCodec.tally : IsoCodec where
  isoformat t := String.ofList ((if t < 0 then '-' else '+') :: List.replicate t.natAbs '|')
  fromisoformat s :=
    match s.toList with
    | [] => .error "empty"
    | sign :: tally => .ok (if sign = '-' then -tally.length else tally.length)
  fromisoformat_isoformat t := by
    by_cases h : t < 0
    · simp [h, abs_of_neg h]
    · simp [h, abs_of_nonneg (not_lt.mp h)]

/-- `datetime.fromisoformat(str(value)) if value is not None else None`. -/
def Value.toOptTime (iso : IsoCodec) : Value → Except String (Option Time)
  | .null => .ok none
  | v => do return some (← iso.fromisoformat (← v.toStr))

@[simp] lemma Value.toOptTime_ofOptStr (iso : IsoCodec) (t : Option Time) :
    (Value.ofOptStr (t.map iso.isoformat)).toOptTime iso = .ok t := by
  cases t with
  | none => rfl
  | some t => simp [Value.ofOptStr, Value.toOptTime, Value.toStr, iso.fromisoformat_isoformat]

/-! ### The documents of the records -/

/-- The document of a buffered event. -/
def MailboxEvent.document (event : MailboxEvent) : Document :=
  [("event_id", .str event.eventId), ("event_type", .str event.eventType)]

/-- A buffered event read back. -/
def MailboxEvent.ofDocument (d : Document) : Except String MailboxEvent := do
  return {
    eventId := ← (← d.get "event_id").toStr
    eventType := ← (← d.get "event_type").toStr }

/-- The document of a buffered review. -/
def MailboxReview.document (review : MailboxReview) : Document :=
  [("command_id", .str review.commandId),
    ("command_type", .str review.commandType),
    ("review_thread_id", .str review.reviewThreadId),
    ("action_request_id", .str review.actionRequestId),
    ("proposal_revision", .int review.proposalRevision)]

/-- A buffered review read back. -/
def MailboxReview.ofDocument (d : Document) : Except String MailboxReview := do
  return {
    commandId := ← (← d.get "command_id").toStr
    commandType := ← (← d.get "command_type").toStr
    reviewThreadId := ← (← d.get "review_thread_id").toStr
    actionRequestId := ← (← d.get "action_request_id").toStr
    proposalRevision := ← (← d.get "proposal_revision").toInt }

/-- The document of a buffered resolution. -/
def MailboxActionResolution.document (resolution : MailboxActionResolution) : Document :=
  [("command_id", .str resolution.commandId),
    ("action_request_id", .str resolution.actionRequestId),
    ("action_attempt_id", .str resolution.actionAttemptId),
    ("status", .str resolution.status)]

/-- A buffered resolution read back. -/
def MailboxActionResolution.ofDocument (d : Document) :
    Except String MailboxActionResolution := do
  return {
    commandId := ← (← d.get "command_id").toStr
    actionRequestId := ← (← d.get "action_request_id").toStr
    actionAttemptId := ← (← d.get "action_attempt_id").toStr
    status := ← (← d.get "status").toStr }

/-- The document of a buffered control. -/
def MailboxControl.document (control : MailboxControl) : Document :=
  [("command_id", .str control.commandId),
    ("command_type", .str control.commandType),
    ("event_ids", .strs control.sources.eventIds),
    ("review_command_ids", .strs control.sources.reviewCommandIds),
    ("action_attempt_ids", .strs control.sources.actionAttemptIds),
    ("timer_ids", .strs control.sources.timerIds)]

/-- A buffered control read back; absent source lists are empty. -/
def MailboxControl.ofDocument (d : Document) : Except String MailboxControl := do
  return {
    commandId := ← (← d.get "command_id").toStr
    commandType := ← (← d.get "command_type").toStr
    sources := {
      eventIds := ← d.getStrs "event_ids"
      reviewCommandIds := ← d.getStrs "review_command_ids"
      actionAttemptIds := ← d.getStrs "action_attempt_ids"
      timerIds := ← d.getStrs "timer_ids" } }

/-- The document of a wake record. -/
def WakeRecord.document (iso : IsoCodec) (record : WakeRecord) : Document :=
  [("reason", .str record.reason),
    ("event_id", .ofOptStr record.eventId),
    ("event_type", .ofOptStr record.eventType),
    ("timer_id", .ofOptStr record.timerId),
    ("woke_at", .str (iso.isoformat record.wokeAt)),
    ("review_command_id", .ofOptStr record.reviewCommandId),
    ("review_command_type", .ofOptStr record.reviewCommandType)]

/-- A wake record read back. -/
def WakeRecord.ofDocument (iso : IsoCodec) (d : Document) : Except String WakeRecord := do
  return {
    reason := ← (← d.get "reason").toStr
    eventId := ← (← d.get "event_id").toOptStr
    eventType := ← (← d.get "event_type").toOptStr
    timerId := ← (← d.get "timer_id").toOptStr
    wokeAt := ← iso.fromisoformat (← (← d.get "woke_at").toStr)
    reviewCommandId := ← (← d.get "review_command_id").toOptStr
    reviewCommandType := ← (← d.get "review_command_type").toOptStr }

/-- The document of a turn record. -/
def TurnRecord.document (record : TurnRecord) : Document :=
  [("turn_id", .str record.turnId),
    ("event_ids", .strs record.sources.eventIds),
    ("review_command_ids", .strs record.sources.reviewCommandIds),
    ("action_attempt_ids", .strs record.sources.actionAttemptIds),
    ("timer_ids", .strs record.sources.timerIds),
    ("decision_json", record.decision.elim .null .decision),
    ("actions_json", record.actions.elim .null .items),
    ("execution_results_json", record.executionResults.elim .null .results),
    ("error", .ofOptStr record.error)]

/-- A turn record read back. -/
def TurnRecord.ofDocument (d : Document) : Except String TurnRecord := do
  return {
    turnId := ← (← d.get "turn_id").toStr
    sources := {
      eventIds := ← (← d.get "event_ids").toStrs
      reviewCommandIds := ← (← d.get "review_command_ids").toStrs
      actionAttemptIds := ← (← d.get "action_attempt_ids").toStrs
      timerIds := ← (← d.get "timer_ids").toStrs }
    decision := ← (← d.get "decision_json").toDecision
    actions := ← (← d.get "actions_json").toItems
    executionResults := ← (← d.get "execution_results_json").toResults
    error := ← (← d.get "error").toOptStr }

/-- The document of an execution record. -/
def ExecutionRecord.document (record : ExecutionRecord) : Document :=
  [("action_request_id", .str record.actionRequestId),
    ("revision", .int record.revision),
    ("result_json", record.result.elim .null .result),
    ("error", .ofOptStr record.error)]

/-- An execution record read back. -/
def ExecutionRecord.ofDocument (d : Document) : Except String ExecutionRecord := do
  return {
    actionRequestId := ← (← d.get "action_request_id").toStr
    revision := ← (← d.get "revision").toInt
    result := ← (← d.get "result_json").toResult
    error := ← (← d.get "error").toOptStr }

/-- The document of a wake plan. -/
def WakePlan.document (iso : IsoCodec) (plan : WakePlan) : Document :=
  [("event_types", .strs plan.eventTypes),
    ("timer_id", .ofOptStr plan.timerId),
    ("timer_at", .ofOptStr (plan.timerAt.map iso.isoformat)),
    ("human_interactions", .strs plan.humanInteractions)]

/-- A wake plan read back. -/
def WakePlan.ofDocument (iso : IsoCodec) (d : Document) : Except String WakePlan := do
  return {
    eventTypes := ← (← d.get "event_types").toStrs
    timerId := ← (← d.get "timer_id").toOptStr
    timerAt := ← (← d.get "timer_at").toOptTime iso
    humanInteractions := ← d.getStrs "human_interactions" }

/-- An optional wake plan read back. -/
def WakePlan.ofOptDocument (iso : IsoCodec) : Option Document → Except String (Option WakePlan)
  | some d => some <$> WakePlan.ofDocument iso d
  | none => .ok none

/-! ### Documents read back what was written -/

lemma MailboxEvent.ofDocument_document (event : MailboxEvent) :
    ofDocument event.document = .ok event := by
  simp [ofDocument, document, Document.get, List.lookup_cons, Value.toStr]

lemma MailboxReview.ofDocument_document (review : MailboxReview) :
    ofDocument review.document = .ok review := by
  simp [ofDocument, document, Document.get, List.lookup_cons, Value.toStr, Value.toInt]

lemma MailboxActionResolution.ofDocument_document (resolution : MailboxActionResolution) :
    ofDocument resolution.document = .ok resolution := by
  simp [ofDocument, document, Document.get, List.lookup_cons, Value.toStr]

lemma MailboxControl.ofDocument_document (control : MailboxControl) :
    ofDocument control.document = .ok control := by
  simp [ofDocument, document, Document.get, Document.getStrs, List.lookup_cons, Value.toStr,
    Value.toStrs]

lemma WakeRecord.ofDocument_document (iso : IsoCodec) (record : WakeRecord) :
    ofDocument iso (record.document iso) = .ok record := by
  simp [ofDocument, document, Document.get, List.lookup_cons, Value.toStr,
    iso.fromisoformat_isoformat]

lemma TurnRecord.ofDocument_document (record : TurnRecord) :
    ofDocument record.document = .ok record := by
  obtain ⟨turnId, sources, decision, actions, executionResults, error⟩ := record
  cases decision <;> cases actions <;> cases executionResults <;>
    simp [ofDocument, document, Document.get, List.lookup_cons, Value.toStr, Value.toStrs,
      Value.toDecision, Value.toItems, Value.toResults]

lemma ExecutionRecord.ofDocument_document (record : ExecutionRecord) :
    ofDocument record.document = .ok record := by
  obtain ⟨actionRequestId, revision, result, error⟩ := record
  cases result <;>
    simp [ofDocument, document, Document.get, List.lookup_cons, Value.toStr, Value.toInt,
      Value.toResult]

lemma WakePlan.ofDocument_document (iso : IsoCodec) (plan : WakePlan) :
    ofDocument iso (plan.document iso) = .ok plan := by
  simp [ofDocument, document, Document.get, Document.getStrs, List.lookup_cons, Value.toStrs]

lemma WakePlan.ofOptDocument_document (iso : IsoCodec) (plan : Option WakePlan) :
    ofOptDocument iso (plan.map (WakePlan.document iso)) = .ok plan := by
  cases plan with
  | none => rfl
  | some plan => simp [ofOptDocument, WakePlan.ofDocument_document]

/-- A list of documents reads back as the list that was written. -/
lemma mapM_ofDocument {α : Type} {document : α → Document}
    {ofDocument : Document → Except String α} (h : ∀ a, ofDocument (document a) = .ok a)
    (l : List α) : (l.map document).mapM ofDocument = .ok l := by
  induction l with
  | nil => rfl
  | cons a l ih => simp [List.mapM_cons, h, ih, pure, Except.pure]

/-! ### The snapshot -/

/-- `MailboxContinuation`. -/
structure MailboxContinuation where
  schemaVersion : ℤ := 1
  started : Bool := false
  bufferedEvents : List Document := []
  seenEventIds : List String := []
  bufferedReviews : List Document := []
  seenReviewCommandIds : List String := []
  bufferedActionResolutions : List Document := []
  seenActionResolutionIds : List String := []
  bufferedControls : List Document := []
  seenControlCommandIds : List String := []
  recentWakeRecords : List Document := []
  recentTurnRecords : List Document := []
  recentExecutionRecords : List Document := []
  pendingActionRequestIds : List String := []
  wakePlan : Option Document := none
  completedTurnCount : ℕ := 0
  continuedRunCount : ℕ := 0

/-- `MailboxInput`. -/
structure MailboxInput where
  tenantId : String
  processInstanceId : String
  processDefinitionId : Option String := none
  processDefinitionVersion : Option String := none
  continueAsNewAfterTurns : ℤ := 100
  continuation : MailboxContinuation := {}

namespace Mailbox

/-- `_CONTINUATION_SCHEMA_VERSION`. -/
def continuationSchemaVersion : ℤ := 1

/-- `_RECENT_RECORD_LIMIT`. -/
def recentRecordLimit : ℕ := 50

/-- The `continuation` of `_continuation_input`. -/
def continuation (iso : IsoCodec) (m : Mailbox) : MailboxContinuation where
  schemaVersion := continuationSchemaVersion
  started := m.started
  bufferedEvents := m.events.buffer.map MailboxEvent.document
  seenEventIds := m.events.seen.sort
  bufferedReviews := m.reviews.buffer.map MailboxReview.document
  seenReviewCommandIds := m.reviews.seen.sort
  bufferedActionResolutions := m.actionResolutions.buffer.map MailboxActionResolution.document
  seenActionResolutionIds := m.actionResolutions.seen.sort
  bufferedControls := m.controls.buffer.map MailboxControl.document
  seenControlCommandIds := m.controls.seen.sort
  recentWakeRecords := (m.wakeRecords.rtake recentRecordLimit).map (WakeRecord.document iso)
  recentTurnRecords := (m.turnRecords.rtake recentRecordLimit).map TurnRecord.document
  recentExecutionRecords :=
    (m.executionRecords.rtake recentRecordLimit).map ExecutionRecord.document
  pendingActionRequestIds := m.pendingActionRequestIds
  wakePlan := m.wakePlan.map (WakePlan.document iso)
  completedTurnCount := m.completedTurnCount
  continuedRunCount := m.continuedRunCount + 1

/-- `_continuation_input`. -/
def continuationInput (iso : IsoCodec) (m : Mailbox) : MailboxInput where
  tenantId := m.tenantId
  processInstanceId := m.processInstanceId
  processDefinitionId := m.processDefinitionId
  processDefinitionVersion := m.processDefinitionVersion
  continueAsNewAfterTurns := m.continueAsNewAfterTurns
  continuation := m.continuation iso

/-- The first statements of `run`, which take over the fields of the input. -/
def assignInput (m : Mailbox) (input : MailboxInput) : Mailbox :=
  { m with
    tenantId := input.tenantId
    processInstanceId := input.processInstanceId
    processDefinitionId := input.processDefinitionId
    processDefinitionVersion := input.processDefinitionVersion
    continueAsNewAfterTurns := max 1 input.continueAsNewAfterTurns }

/-- The fields `_restore_continuation` takes from the snapshot. -/
def restoreSnapshot (iso : IsoCodec) (m : Mailbox) (continuation : MailboxContinuation) :
    Except String Mailbox := do
  let events ← continuation.bufferedEvents.mapM MailboxEvent.ofDocument
  let reviews ← continuation.bufferedReviews.mapM MailboxReview.ofDocument
  let actionResolutions ←
    continuation.bufferedActionResolutions.mapM MailboxActionResolution.ofDocument
  let controls ← continuation.bufferedControls.mapM MailboxControl.ofDocument
  let wakeRecords ← continuation.recentWakeRecords.mapM (WakeRecord.ofDocument iso)
  let turnRecords ← continuation.recentTurnRecords.mapM TurnRecord.ofDocument
  let executionRecords ← continuation.recentExecutionRecords.mapM ExecutionRecord.ofDocument
  let wakePlan ← WakePlan.ofOptDocument iso continuation.wakePlan
  return { m with
    started := continuation.started
    events := ⟨events, continuation.seenEventIds.toFinset⟩
    reviews := ⟨reviews, continuation.seenReviewCommandIds.toFinset⟩
    actionResolutions := ⟨actionResolutions, continuation.seenActionResolutionIds.toFinset⟩
    controls := ⟨controls, continuation.seenControlCommandIds.toFinset⟩
    wakeRecords := wakeRecords
    turnRecords := turnRecords
    executionRecords := executionRecords
    pendingActionRequestIds := continuation.pendingActionRequestIds
    wakePlan := wakePlan
    timerDueAt := wakePlan.bind WakePlan.timerAt
    completedTurnCount := continuation.completedTurnCount
    continuedRunCount := continuation.continuedRunCount }

/-- The end of `_restore_continuation`: what was buffered before `run` started is
received after the snapshot, and a wake plan set before then wins. -/
def mergePrestart (carried prestart : Mailbox) : Mailbox :=
  let m := prestart.events.buffer.foldl receiveEvent carried
  let m := prestart.reviews.buffer.foldl receiveReview m
  let m := prestart.actionResolutions.buffer.foldl receiveActionResolution m
  let m := prestart.controls.buffer.foldl receiveControl m
  match prestart.wakePlan with
  | some plan => { m with wakePlan := some plan, timerDueAt := plan.timerAt }
  | none => m

/-- `_restore_continuation`. -/
def restoreContinuation (iso : IsoCodec) (m : Mailbox) (continuation : MailboxContinuation) :
    Except String Mailbox :=
  if continuation.schemaVersion ≠ continuationSchemaVersion then
    .error s!"unsupported mailbox continuation schema {continuation.schemaVersion}"
  else do
    let carried ← m.restoreSnapshot iso continuation
    return carried.mergePrestart m

/-- What `run` does before its loop. -/
def beginRun (iso : IsoCodec) (m : Mailbox) (input : MailboxInput) : Except String Mailbox :=
  (m.assignInput input).restoreContinuation iso input.continuation

/-! ### Signals in bulk -/

end Mailbox

/-- The event a signal delivers. -/
def Signal.event? : Signal → Option MailboxEvent
  | .receiveEvent event => some event
  | _ => none

/-- The review a signal delivers. -/
def Signal.review? : Signal → Option MailboxReview
  | .receiveReview review => some review
  | _ => none

/-- The resolution a signal delivers. -/
def Signal.resolution? : Signal → Option MailboxActionResolution
  | .receiveActionResolution resolution => some resolution
  | _ => none

/-- The control a signal delivers. -/
def Signal.control? : Signal → Option MailboxControl
  | .receiveControl control => some control
  | _ => none

/-- The wake plan a signal delivers. -/
def Signal.plan? : Signal → Option WakePlan
  | .replaceWakePlan plan => some plan
  | _ => none

/-- The last wake plan among a list of signals. -/
def lastPlan (signals : List Signal) : Option WakePlan :=
  (signals.filterMap Signal.plan?).getLast?

namespace Mailbox

lemma handleAll_concat (m : Mailbox) (signals : List Signal) (s : Signal) :
    m.handleAll (signals ++ [s]) = (m.handleAll signals).handle s := by
  simp [handleAll, List.foldl_append]

/-- The fields after a list of signals, each in terms of the signals that touch it. -/
lemma handleAll_eq (m : Mailbox) (signals : List Signal) :
    m.handleAll signals =
      { m with
        events := m.events.receiveAll MailboxEvent.eventId (signals.filterMap Signal.event?)
        reviews := m.reviews.receiveAll MailboxReview.commandId (signals.filterMap Signal.review?)
        actionResolutions := m.actionResolutions.receiveAll MailboxActionResolution.commandId
          (signals.filterMap Signal.resolution?)
        controls := m.controls.receiveAll MailboxControl.commandId
          (signals.filterMap Signal.control?)
        wakePlan := (lastPlan signals).or m.wakePlan
        timerDueAt := (lastPlan signals).elim m.timerDueAt WakePlan.timerAt
        planRevision := m.planRevision + (signals.filterMap Signal.plan?).length
        closed := m.closed || signals.contains .close } := by
  induction signals using List.reverseRecOn with
  | nil => simp [handleAll, lastPlan]
  | append_singleton signals s ih =>
      rw [handleAll_concat, ih]
      cases s <;>
        simp [handle, receiveEvent, receiveReview, receiveActionResolution, receiveControl,
          replaceWakePlan, close, Signal.event?, Signal.review?, Signal.resolution?,
          Signal.control?, Signal.plan?, lastPlan, Inbox.receiveAll_concat, Nat.add_assoc,
          List.filterMap_cons]

/-! ### Restoration -/

/-- A snapshot restores the fields it was taken from. -/
lemma restoreSnapshot_continuation (iso : IsoCodec) (fresh m : Mailbox) :
    fresh.restoreSnapshot iso (m.continuation iso) = .ok { fresh with
      started := m.started
      events := m.events
      reviews := m.reviews
      actionResolutions := m.actionResolutions
      controls := m.controls
      wakeRecords := m.wakeRecords.rtake recentRecordLimit
      turnRecords := m.turnRecords.rtake recentRecordLimit
      executionRecords := m.executionRecords.rtake recentRecordLimit
      pendingActionRequestIds := m.pendingActionRequestIds
      wakePlan := m.wakePlan
      timerDueAt := m.wakePlan.bind WakePlan.timerAt
      completedTurnCount := m.completedTurnCount
      continuedRunCount := m.continuedRunCount + 1 } := by
  simp only [restoreSnapshot, continuation, ok_bind, WakePlan.ofOptDocument_document,
    mapM_ofDocument MailboxEvent.ofDocument_document,
    mapM_ofDocument MailboxReview.ofDocument_document,
    mapM_ofDocument MailboxActionResolution.ofDocument_document,
    mapM_ofDocument MailboxControl.ofDocument_document,
    mapM_ofDocument (WakeRecord.ofDocument_document iso),
    mapM_ofDocument TurnRecord.ofDocument_document,
    mapM_ofDocument ExecutionRecord.ofDocument_document,
    Finset.sort_toFinset]
  rfl

/-- Handling a list of messages of one kind is receiving them into their inbox. -/
lemma foldl_receive {α : Type} {key : α → String} (recv : Mailbox → α → Mailbox)
    (get : Mailbox → Inbox α String) (set : Mailbox → Inbox α String → Mailbox)
    (hrecv : ∀ m x, recv m x = set m ((get m).receive key x)) (hget : ∀ m b, get (set m b) = b)
    (hset : ∀ m b b', set (set m b) b' = set m b') (hself : ∀ m, set m (get m) = m)
    (l : List α) (m : Mailbox) : l.foldl recv m = set m ((get m).receiveAll key l) := by
  induction l generalizing m with
  | nil => exact (hself m).symm
  | cons x l ih => rw [List.foldl_cons, ih, hrecv, hget, hset]; rfl

/-- Merging is receiving the buffered messages inbox by inbox. -/
lemma mergePrestart_eq (carried prestart : Mailbox) :
    carried.mergePrestart prestart =
      { carried with
        events := carried.events.receiveAll MailboxEvent.eventId prestart.events.buffer
        reviews := carried.reviews.receiveAll MailboxReview.commandId prestart.reviews.buffer
        actionResolutions := carried.actionResolutions.receiveAll
          MailboxActionResolution.commandId prestart.actionResolutions.buffer
        controls := carried.controls.receiveAll MailboxControl.commandId
          prestart.controls.buffer
        wakePlan := prestart.wakePlan.or carried.wakePlan
        timerDueAt := prestart.wakePlan.elim carried.timerDueAt WakePlan.timerAt } := by
  have hevents := foldl_receive receiveEvent events (fun m b => { m with events := b })
    (fun _ _ => rfl) (fun _ _ => rfl) (fun _ _ _ => rfl) (fun _ => rfl)
  have hreviews := foldl_receive receiveReview reviews (fun m b => { m with reviews := b })
    (fun _ _ => rfl) (fun _ _ => rfl) (fun _ _ _ => rfl) (fun _ => rfl)
  have hresolutions := foldl_receive receiveActionResolution actionResolutions
    (fun m b => { m with actionResolutions := b })
    (fun _ _ => rfl) (fun _ _ => rfl) (fun _ _ _ => rfl) (fun _ => rfl)
  have hcontrols := foldl_receive receiveControl controls (fun m b => { m with controls := b })
    (fun _ _ => rfl) (fun _ _ => rfl) (fun _ _ _ => rfl) (fun _ => rfl)
  simp only [mergePrestart, hevents, hreviews, hresolutions, hcontrols]
  cases prestart.wakePlan <;> simp

/-- The state a run hands to its successor: records cut to the recent ones, counters moved
on, and what belongs to one run alone as `__init__` sets it. -/
def successor (m : Mailbox) : Mailbox :=
  { m with
    wakeRecords := m.wakeRecords.rtake recentRecordLimit
    turnRecords := m.turnRecords.rtake recentRecordLimit
    executionRecords := m.executionRecords.rtake recentRecordLimit
    turnInProgress := false
    planRevision := 0
    closed := false
    turnsSinceContinue := 0
    continuedRunCount := m.continuedRunCount + 1 }

/-- The two facts about the fields that a snapshot relies on: the timer deadline is the
plan's, and the turn limit is the positive number `run` made it. -/
structure Coherent (m : Mailbox) : Prop where
  timer : m.timerDueAt = m.wakePlan.bind WakePlan.timerAt
  limit : 1 ≤ m.continueAsNewAfterTurns

/-- A run on `input` resumes the state `base`: whatever signals a fresh workflow buffers
before `run` starts, it then is `base` after those signals. -/
def Resumes (iso : IsoCodec) (input : MailboxInput) (base : Mailbox) : Prop :=
  ∀ signals, (({} : Mailbox).handleAll signals).beginRun iso input = .ok (base.handleAll signals)

/-- **Restoration undoes the snapshot**: a run on the snapshot of `m` resumes the state
`m` hands over. -/
theorem resumes_continuationInput (iso : IsoCodec) {m : Mailbox} (hm : m.Coherent) :
    Resumes iso (m.continuationInput iso) m.successor := by
  intro signals
  have hsnap := restoreSnapshot_continuation iso
    ((({} : Mailbox).handleAll signals).assignInput (m.continuationInput iso)) m
  have hschema : (m.continuation iso).schemaVersion = continuationSchemaVersion := rfl
  rw [beginRun, restoreContinuation, continuationInput, if_neg (by simp [hschema])]
  rw [continuationInput] at hsnap
  simp only [hsnap, ok_bind, mergePrestart_eq, pure, Except.pure]
  rw [handleAll_eq, handleAll_eq m.successor]
  simp only [successor, assignInput, max_eq_right hm.limit, hm.timer, Inbox.receive_merge,
    Option.or_none]

/-- The first run of a process resumes the state of `__init__` with its input taken over. -/
theorem resumes_initial (iso : IsoCodec) {input : MailboxInput} (h : input.continuation = {}) :
    Resumes iso input (({} : Mailbox).assignInput input) := by
  intro signals
  rw [beginRun, restoreContinuation, h, if_neg (by simp [continuationSchemaVersion])]
  simp only [restoreSnapshot, List.mapM_nil, WakePlan.ofOptDocument, pure, Except.pure, ok_bind,
    mergePrestart_eq, List.toFinset_nil]
  rw [handleAll_eq, handleAll_eq (assignInput {} input)]
  simp only [assignInput, Option.or_none, Option.bind_none]
  congr 2 <;> exact Inbox.receive_merge Inbox.empty _

/-- What a snapshot restores does not depend on the workflow object it is restored in. -/
lemma restoreSnapshot_eq {iso : IsoCodec} {m restored : Mailbox}
    {continuation : MailboxContinuation} (h : m.restoreSnapshot iso continuation = .ok restored)
    (fresh : Mailbox) :
    fresh.restoreSnapshot iso continuation = .ok { fresh with
      started := restored.started
      events := restored.events
      reviews := restored.reviews
      actionResolutions := restored.actionResolutions
      controls := restored.controls
      wakeRecords := restored.wakeRecords
      turnRecords := restored.turnRecords
      executionRecords := restored.executionRecords
      pendingActionRequestIds := restored.pendingActionRequestIds
      wakePlan := restored.wakePlan
      timerDueAt := restored.wakePlan.bind WakePlan.timerAt
      completedTurnCount := restored.completedTurnCount
      continuedRunCount := restored.continuedRunCount } := by
  unfold restoreSnapshot at h ⊢
  obtain ⟨events, hevents, h⟩ := ok_of_bind h
  obtain ⟨reviews, hreviews, h⟩ := ok_of_bind h
  obtain ⟨resolutions, hresolutions, h⟩ := ok_of_bind h
  obtain ⟨controls, hcontrols, h⟩ := ok_of_bind h
  obtain ⟨wakeRecords, hwakes, h⟩ := ok_of_bind h
  obtain ⟨turnRecords, hturns, h⟩ := ok_of_bind h
  obtain ⟨executionRecords, hexecutions, h⟩ := ok_of_bind h
  obtain ⟨wakePlan, hplan, h⟩ := ok_of_bind h
  obtain rfl := Except.ok.inj h
  simp only [hevents, hreviews, hresolutions, hcontrols, hwakes, hturns, hexecutions,
    hplan, ok_bind]
  rfl

end Mailbox

/-- An input whose snapshot is of the supported schema and can be read. -/
def MailboxInput.Supported (iso : IsoCodec) (input : MailboxInput) : Prop :=
  input.continuation.schemaVersion = Mailbox.continuationSchemaVersion ∧
    ∃ m, ({} : Mailbox).restoreSnapshot iso input.continuation = .ok m

namespace Mailbox

/-- A run on a supported input resumes the state of its snapshot. -/
theorem resumes_supported {iso : IsoCodec} {input : MailboxInput} (h : input.Supported iso) :
    ∃ base, Resumes iso input base ∧ base.Coherent := by
  obtain ⟨hschema, m, hm⟩ := h
  obtain ⟨base, hbase⟩ : ∃ base : Mailbox, base = { ({} : Mailbox).assignInput input with
      started := m.started
      events := m.events
      reviews := m.reviews
      actionResolutions := m.actionResolutions
      controls := m.controls
      wakeRecords := m.wakeRecords
      turnRecords := m.turnRecords
      executionRecords := m.executionRecords
      pendingActionRequestIds := m.pendingActionRequestIds
      wakePlan := m.wakePlan
      timerDueAt := m.wakePlan.bind WakePlan.timerAt
      completedTurnCount := m.completedTurnCount
      continuedRunCount := m.continuedRunCount } := ⟨_, rfl⟩
  refine ⟨base, fun signals => ?_, by rw [hbase], by rw [hbase]; exact le_max_left _ _⟩
  rw [beginRun, restoreContinuation, if_neg (by simp [hschema])]
  simp only [restoreSnapshot_eq hm, ok_bind, mergePrestart_eq, pure, Except.pure]
  rw [handleAll_eq, handleAll_eq base, hbase]
  simp only [assignInput, Inbox.receive_merge, Option.or_none]

end Mailbox

end TiramisuAgents
