import TiramisuAgents.Communications.Policy
import TiramisuAgents.Processes.Database

/-!
`communications/safety.py`: the facts of a communication policy, read from the action requests
and the inbox of a process, and the safety checks of the execution fence
(`actions/execution.py`) and of the gateway (`actions/gateway.py`).

The order of the action rows is left out, since the evaluation depends on the times only as a
multiset.

* `ProcessDatabase.inspect`: the snapshot for the next message, or for one that is reserved.
* `ProcessDatabase.fenceBlock`, `ProcessDatabase.gatewayBlock`: what the checks raise.
* `fenceBlock_eq_none`: a message that passes the fence is reserved, and allowed.
-/

namespace TiramisuAgents

/-- `_RESERVED_OUTBOUND_STATUSES`. -/
def ActionRequestStatus.reserved : ActionRequestStatus → Bool
  | .allowed | .pendingApproval | .approved | .executing | .succeeded | .unknown
  | .reconciling => true
  | .denied | .rejected | .superseded | .failed | .conflict => false

/-- The order by `received_at` and `id`. -/
def InboxRow.laterThan {V : Type} (r r' : InboxRow V) : Bool :=
  r'.receivedAt < r.receivedAt ∨ (r'.receivedAt = r.receivedAt ∧ r'.id < r.id)

namespace ProcessDatabase

variable {V : Type} (isoformat : Time → String) (w : ProcessDatabase V)

/-- The outbound requests that reserve a message, with their creation times. -/
def reservedOutbound (policy : CommunicationPolicy) : List (UUID × Time) :=
  w.requests.filterMap fun a =>
    (w.actions a).request.bind fun row =>
      if policy.outboundActionTypes.contains row.actionType ∧ row.status.reserved then
        some (a, w.requestCreatedAt a)
      else none

/-- The matched events of some types. -/
def matchedEvents (eventTypes : List String) : List (InboxRow V) :=
  w.inbox.filter fun r => r.correlationStatus = .matched ∧ eventTypes.contains r.eventType

/-- `_latest_event_time`. -/
def latestEventTime (eventTypes : List String) : Option Time :=
  ((w.matchedEvents eventTypes).map InboxRow.receivedAt).max?

/-- The latest of some events. -/
def latestEvent (rows : List (InboxRow V)) : Option (InboxRow V) :=
  rows.foldl (fun latest r => some (latest.elim r fun l => if r.laterThan l then r else l)) none

/-- `_active_automated_response_time`. -/
def activeAutomatedResponseTime (policy : CommunicationPolicy) : Option Time :=
  if policy.automatedResponseEventTypes = [] then none
  else
    (latestEvent (w.matchedEvents
        (policy.replyEventTypes ++ policy.automatedResponseEventTypes))).bind fun r =>
      if policy.automatedResponseEventTypes.contains r.eventType then some r.receivedAt else none

/-- The facts that `inspect` collects. -/
def communicationFacts (policy : CommunicationPolicy) (currentActionRequestId : Option UUID) :
    CommunicationSafetyFacts where
  processCreatedAt := w.process.createdAt
  outboundMessageTimes := (w.reservedOutbound policy).map Prod.snd
  priorOutboundMessageTimes :=
    some (((w.reservedOutbound policy).filter fun r => some r.1 ≠ currentActionRequestId).map
      Prod.snd)
  lastHumanReplyAt := w.latestEventTime policy.replyEventTypes
  latestAutomatedResponseAt := w.activeAutomatedResponseTime policy
  optedOutAt := w.latestEventTime policy.optOutEventTypes
  reserveNextMessage := currentActionRequestId.isNone

/-- `CommunicationSafetyService.inspect`. -/
def inspect (policy : CommunicationPolicy) (now : Time) (currentActionRequestId : Option UUID) :
    Except String CommunicationSafetySnapshot :=
  if currentActionRequestId.any fun a => !(w.reservedOutbound policy).any fun r => r.1 = a then
    .error "current outbound action is not a durable communication reservation"
  else
    .ok (evaluateCommunicationSafety isoformat policy
      (w.communicationFacts policy currentActionRequestId) now)

/-- The safety check of the execution fence: the lifetime for every action, and the inspection
for one that sends a message. -/
def fenceBlock (policy : CommunicationPolicy) (now : Time) (a : UUID) (actionType : String) :
    Except String (Option CommunicationBlock) :=
  match evaluateProcessLifetime isoformat w.process.createdAt policy now with
  | some block => .ok (some block)
  | none =>
      if policy.outboundActionTypes.contains actionType then
        (w.inspect isoformat policy now (some a)).map CommunicationSafetySnapshot.requireAllowed
      else .ok none

/-- The safety check of the gateway: the lifetime, and the inspection for a new request that
sends a message. -/
def gatewayBlock (policy : CommunicationPolicy) (now : Time) (a : UUID) (actionType : String) :
    Option CommunicationBlock :=
  match evaluateProcessLifetime isoformat w.process.createdAt policy now with
  | some block => some block
  | none =>
      if (w.actions a).request.isNone ∧ policy.outboundActionTypes.contains actionType then
        (evaluateCommunicationSafety isoformat policy (w.communicationFacts policy none)
          now).requireAllowed
      else none

/-! ### What the fence lets pass -/

variable {isoformat w} {policy : CommunicationPolicy} {now : Time} {a : UUID}

lemma mem_reservedOutbound {r : UUID × Time} :
    r ∈ w.reservedOutbound policy ↔
      r.1 ∈ w.requests ∧ r.2 = w.requestCreatedAt r.1 ∧ ∃ row, (w.actions r.1).request = some row ∧
        row.actionType ∈ policy.outboundActionTypes ∧ row.status.reserved = true := by
  rw [reservedOutbound, List.mem_filterMap]
  constructor
  · rintro ⟨b, hb, h⟩
    obtain ⟨row, hrow, h⟩ := Option.bind_eq_some_iff.mp h
    split_ifs at h with hreserved
    obtain rfl := Option.some.inj h
    exact ⟨hb, rfl, row, hrow, by simpa using hreserved⟩
  · rintro ⟨hmem, htime, row, hrow, htype, hreserved⟩
    refine ⟨r.1, hmem, ?_⟩
    rw [hrow, Option.bind_some, if_pos (by simpa using ⟨htype, hreserved⟩), ← htime]

/-- An event that is matched has a latest time. -/
lemma latestEventTime_ne_none {eventTypes : List String} {r : InboxRow V} (hr : r ∈ w.inbox)
    (hmatched : r.correlationStatus = .matched) (htype : r.eventType ∈ eventTypes) :
    w.latestEventTime eventTypes ≠ none := by
  have hmem : r ∈ w.matchedEvents eventTypes := by
    simpa [matchedEvents] using ⟨hr, hmatched, htype⟩
  rw [latestEventTime, ← Option.isSome_iff_ne_none]
  exact List.isSome_max?_of_mem (List.mem_map_of_mem hmem)

/-- A message passes the fence if it is reserved and nothing blocks it. -/
lemma fenceBlock_eq_none {actionType : String} (htype : actionType ∈ policy.outboundActionTypes)
    (h : w.fenceBlock isoformat policy now a actionType = .ok none) :
    (∃ r ∈ w.reservedOutbound policy, r.1 = a) ∧
      (evaluateCommunicationSafety isoformat policy (w.communicationFacts policy (some a))
        now).requireAllowed = none := by
  rw [fenceBlock] at h
  split at h
  · cases h
  · rw [if_pos (by simpa using htype), inspect] at h
    split at h
    · cases h
    · rename_i hreserved
      exact ⟨by simpa using hreserved, Except.ok.inj h⟩

end ProcessDatabase

end TiramisuAgents
