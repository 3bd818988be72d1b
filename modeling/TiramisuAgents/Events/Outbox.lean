import TiramisuAgents.Core.Contracts
import TiramisuAgents.Mailbox.State

/-!
The messages of the outbox (`db/models/events.py`), what the services write into them, and what
the dispatcher reads out of them (`dispatch_one`, `temporal/dispatcher.py`).

A payload is a JSON object: its fields in the order they are written.

* `OutboxMessage`: a row of `outbox_messages`.
* `eventMessage`, `manualWakeMessage`, `controlMessage`, `reviewMessage`, `resolutionMessage`: what
  `schedule_delivery`, `_enqueue_manual_wake`, `_enqueue_control`, `ReviewService.apply` and
  `resolve_unknown` write.
* `decodeSignal`: the signal of a message.
* `Production`, `Production.decoded`: each message decodes to the signal of its producer.
-/

namespace TiramisuAgents.Events

/-! ### Messages -/

/-- A JSON value of a payload. -/
inductive PayloadValue where
  | text (value : String)
  | number (value : ℤ)
  | texts (values : List String)
  deriving DecidableEq, Repr

/-- `str(value)`, of a text; the producers write no other value where it is used. -/
def PayloadValue.str : PayloadValue → Option String
  | .text value => some value
  | _ => none

/-- `int(value)`, of a number. -/
def PayloadValue.int : PayloadValue → Option ℤ
  | .number value => some value
  | _ => none

/-- `tuple(str(value) for value in ...)`, of a list of texts. -/
def PayloadValue.strs : PayloadValue → Option (List String)
  | .texts values => some values
  | _ => none

/-- A JSON object. -/
abbrev Payload := List (String × PayloadValue)

/-- `outbox_messages.status`. -/
inductive OutboxStatus where
  | pending | publishing | published | deadLetter
  deriving DecidableEq, Repr

/-- A row of `outbox_messages`. -/
structure OutboxMessage where
  id : UUID
  processInstanceId : Option UUID
  causationEventId : Option UUID := none
  messageType : String
  destination : String
  deduplicationKey : String
  payload : Payload
  status : OutboxStatus := .pending
  availableAt : Time
  attemptCount : ℕ := 0
  claimedAt : Option Time := none
  claimToken : Option UUID := none
  publishedAt : Option Time := none
  deadLetteredAt : Option Time := none
  lastError : Option String := none
  deriving DecidableEq, Repr

/-! ### Producers -/

/-- What `schedule_delivery` inserts for an event. -/
def eventMessage (id eventId : UUID) (eventType : String) (processId : UUID) (workflowId : String)
    (now : Time) : OutboxMessage where
  id := id
  processInstanceId := some processId
  causationEventId := some eventId
  messageType := "temporal.process_event"
  destination := workflowId
  deduplicationKey := s!"process-event:{eventId}"
  payload := [("event_id", .text eventId), ("event_type", .text eventType)]
  availableAt := now

/-- What `_enqueue_manual_wake` inserts for a `wake` or a `resume`. -/
def manualWakeMessage (id commandId eventId : UUID) (eventType : String) (processId : UUID)
    (workflowId : String) (now : Time) : OutboxMessage where
  id := id
  processInstanceId := some processId
  causationEventId := some eventId
  messageType := "temporal.process_event"
  destination := workflowId
  deduplicationKey := s!"process-control:{commandId}"
  payload := [("event_id", .text eventId), ("event_type", .text eventType)]
  availableAt := now

/-- What a `retry` returns: the sources of its intervention. -/
def sourcesPayload (sources : TurnSources) : Payload :=
  [("event_ids", .texts sources.eventIds), ("review_command_ids", .texts sources.reviewCommandIds),
    ("action_attempt_ids", .texts sources.actionAttemptIds),
    ("timer_ids", .texts sources.timerIds)]

/-- What `_enqueue_control` inserts for a `retry`, which has sources, or a `takeover`. -/
def controlMessage (id commandId : UUID) (commandType : String) (sources : Option TurnSources)
    (processId : UUID) (workflowId : String) (now : Time) : OutboxMessage where
  id := id
  processInstanceId := some processId
  messageType := "temporal.process_control"
  destination := workflowId
  deduplicationKey := s!"process-control:{commandId}"
  payload :=
    [("command_id", .text commandId), ("command_type", .text commandType)] ++
      (sources.map sourcesPayload).getD []
  availableAt := now

/-- What `ReviewService.apply` inserts. -/
def reviewMessage (id : UUID) (review : MailboxReview) (processId : UUID) (workflowId : String)
    (now : Time) : OutboxMessage where
  id := id
  processInstanceId := some processId
  messageType := "temporal.process_review"
  destination := workflowId
  deduplicationKey := s!"process-review:{review.commandId}"
  payload :=
    [("command_id", .text review.commandId), ("command_type", .text review.commandType),
      ("review_thread_id", .text review.reviewThreadId),
      ("action_request_id", .text review.actionRequestId),
      ("proposal_revision", .number review.proposalRevision)]
  availableAt := now

/-- What `resolve_unknown` inserts. -/
def resolutionMessage (id : UUID) (resolution : MailboxActionResolution) (processId : UUID)
    (workflowId : String) (now : Time) : OutboxMessage where
  id := id
  processInstanceId := some processId
  messageType := "temporal.action_resolution"
  destination := workflowId
  deduplicationKey := s!"action-resolution:{resolution.commandId}"
  payload :=
    [("command_id", .text resolution.commandId),
      ("action_request_id", .text resolution.actionRequestId),
      ("action_attempt_id", .text resolution.actionAttemptId),
      ("status", .text resolution.status)]
  availableAt := now

/-! ### The signal of a message -/

/-- `payload[name]`, converted; a missing field raises `KeyError`. -/
def field {α : Type} (payload : Payload) (name : String) (convert : PayloadValue → Option α) :
    Except String α :=
  match payload.lookup name with
  | none => .error s!"KeyError: '{name}'"
  | some value =>
      match convert value with
      | none => .error s!"ValueError: {name}"
      | some result => .ok result

/-- `payload.get(name, ())`, converted. -/
def fieldOr (payload : Payload) (name : String) : Except String (List String) :=
  match payload.lookup name with
  | none => .ok []
  | some _ => field payload name PayloadValue.strs

/-- The signal that `dispatch_one` sends for a message, or its error with the name of its class. -/
def decodeSignal (messageType : String) (payload : Payload) : Except String Signal :=
  if messageType = "temporal.process_event" then do
    let eventId ← field payload "event_id" PayloadValue.str
    let eventType ← field payload "event_type" PayloadValue.str
    return .receiveEvent ⟨eventId, eventType⟩
  else if messageType = "temporal.process_review" then do
    let commandId ← field payload "command_id" PayloadValue.str
    let commandType ← field payload "command_type" PayloadValue.str
    let reviewThreadId ← field payload "review_thread_id" PayloadValue.str
    let actionRequestId ← field payload "action_request_id" PayloadValue.str
    let proposalRevision ← field payload "proposal_revision" PayloadValue.int
    return .receiveReview ⟨commandId, commandType, reviewThreadId, actionRequestId,
      proposalRevision⟩
  else if messageType = "temporal.action_resolution" then do
    let commandId ← field payload "command_id" PayloadValue.str
    let actionRequestId ← field payload "action_request_id" PayloadValue.str
    let actionAttemptId ← field payload "action_attempt_id" PayloadValue.str
    let status ← field payload "status" PayloadValue.str
    return .receiveActionResolution ⟨commandId, actionRequestId, actionAttemptId, status⟩
  else if messageType = "temporal.process_control" then do
    let commandId ← field payload "command_id" PayloadValue.str
    let commandType ← field payload "command_type" PayloadValue.str
    let eventIds ← fieldOr payload "event_ids"
    let reviewCommandIds ← fieldOr payload "review_command_ids"
    let actionAttemptIds ← fieldOr payload "action_attempt_ids"
    let timerIds ← fieldOr payload "timer_ids"
    return .receiveControl ⟨commandId, commandType,
      ⟨eventIds, reviewCommandIds, actionAttemptIds, timerIds⟩⟩
  else .error s!"RuntimeError: unsupported Temporal message type: {messageType}"

/-- The signal of a message. -/
def OutboxMessage.signal (m : OutboxMessage) : Except String Signal :=
  decodeSignal m.messageType m.payload

/-! ### Each message is decoded -/

section

variable (id commandId eventId processId : UUID) (eventType commandType workflowId : String)
  (now : Time)

lemma signal_eventMessage :
    (eventMessage id eventId eventType processId workflowId now).signal
      = .ok (.receiveEvent ⟨eventId, eventType⟩) := by
  simp [OutboxMessage.signal, decodeSignal, eventMessage, field, PayloadValue.str, bind,
    Except.bind, pure, Except.pure, List.lookup_cons]

lemma signal_manualWakeMessage :
    (manualWakeMessage id commandId eventId eventType processId workflowId now).signal
      = .ok (.receiveEvent ⟨eventId, eventType⟩) := by
  simp [OutboxMessage.signal, decodeSignal, manualWakeMessage, field, PayloadValue.str, bind,
    Except.bind, pure, Except.pure, List.lookup_cons]

lemma signal_controlMessage (sources : Option TurnSources) :
    (controlMessage id commandId commandType sources processId workflowId now).signal
      = .ok (.receiveControl ⟨commandId, commandType, sources.getD {}⟩) := by
  cases sources <;>
    simp [OutboxMessage.signal, decodeSignal, controlMessage, sourcesPayload, field, fieldOr,
      PayloadValue.str, PayloadValue.strs, bind, Except.bind, pure, Except.pure, List.lookup_cons]

lemma signal_reviewMessage (review : MailboxReview) :
    (reviewMessage id review processId workflowId now).signal = .ok (.receiveReview review) := by
  simp [OutboxMessage.signal, decodeSignal, reviewMessage, field, PayloadValue.str,
    PayloadValue.int, bind, Except.bind, pure, Except.pure, List.lookup_cons]

lemma signal_resolutionMessage (resolution : MailboxActionResolution) :
    (resolutionMessage id resolution processId workflowId now).signal
      = .ok (.receiveActionResolution resolution) := by
  simp [OutboxMessage.signal, decodeSignal, resolutionMessage, field, PayloadValue.str, bind,
    Except.bind, pure, Except.pure, List.lookup_cons]

end

/-! ### The messages of the producers -/

/-- What a producer writes. -/
inductive Production where
  | event (id eventId : UUID) (eventType : String) (processId : UUID) (workflowId : String)
      (now : Time)
  | manualWake (id commandId eventId : UUID) (eventType : String) (processId : UUID)
      (workflowId : String) (now : Time)
  | control (id commandId : UUID) (commandType : String) (sources : Option TurnSources)
      (processId : UUID) (workflowId : String) (now : Time)
  | review (id : UUID) (command : MailboxReview) (processId : UUID) (workflowId : String)
      (now : Time)
  | resolution (id : UUID) (command : MailboxActionResolution) (processId : UUID)
      (workflowId : String) (now : Time)
  deriving DecidableEq, Repr

/-- The message. -/
def Production.message : Production → OutboxMessage
  | .event id eventId eventType processId workflowId now =>
      eventMessage id eventId eventType processId workflowId now
  | .manualWake id commandId eventId eventType processId workflowId now =>
      manualWakeMessage id commandId eventId eventType processId workflowId now
  | .control id commandId commandType sources processId workflowId now =>
      controlMessage id commandId commandType sources processId workflowId now
  | .review id command processId workflowId now => reviewMessage id command processId workflowId now
  | .resolution id command processId workflowId now =>
      resolutionMessage id command processId workflowId now

/-- The signal that the producer means the mailbox to get. -/
def Production.signal : Production → Signal
  | .event _ eventId eventType _ _ _ => .receiveEvent ⟨eventId, eventType⟩
  | .manualWake _ _ eventId eventType _ _ _ => .receiveEvent ⟨eventId, eventType⟩
  | .control _ commandId commandType sources _ _ _ =>
      .receiveControl ⟨commandId, commandType, sources.getD {}⟩
  | .review _ command _ _ _ => .receiveReview command
  | .resolution _ command _ _ _ => .receiveActionResolution command

/-- A new message waits to be claimed. -/
lemma Production.message_new (p : Production) :
    p.message.status = .pending ∧ p.message.claimedAt = none ∧ p.message.claimToken = none ∧
      p.message.deadLetteredAt = none ∧ p.message.attemptCount = 0 := by
  cases p <;> exact ⟨rfl, rfl, rfl, rfl, rfl⟩

/-- **Every message decodes to the signal of its producer.** -/
lemma Production.decoded (p : Production) : p.message.signal = .ok p.signal := by
  cases p with
  | event => apply signal_eventMessage
  | manualWake => apply signal_manualWakeMessage
  | control => apply signal_controlMessage
  | review => apply signal_reviewMessage
  | resolution => apply signal_resolutionMessage

end TiramisuAgents.Events
