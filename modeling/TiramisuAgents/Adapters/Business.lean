import TiramisuAgents.Adapters.Stubs
import TiramisuAgents.Core.Text
import TiramisuAgents.Library.Dict

/-!
The business providers of `adapters/stubs/business.py`: messages, bookings, payments and calendar
events in one state, behind four adapters, with the events that reach the state from outside.

Dictionaries keep the order of insertion.  What the code uses of the standard library (the entries
of a JSON object, JSON texts, upper case, ISO dates) is `StubRuntime`.  The default slots of the
constructor, the messages of customers and the identities in the events are left out; nothing
below reads them.

* `StubBusinessState`, `applyEvent`, `confirmBooking`, `completePayment`: the state.
* `StubAdapter.perform`, `StubAdapter.execute`: the adapters.
* `businessWorld`, `businessService`: all adapters, and one of them next to the others.
-/

namespace TiramisuAgents

open Deduplication

/-! ### The state -/

/-- What the adapters use of the language. -/
structure StubRuntime where
  fields : Parameters → List (String × FactDocument)
  result : List (String × FactDocument) → String
  /-- An authoritative `FactObservation`. -/
  fact : String → FactDocument → String
  /-- An `ActionConflict` with a code, a message, details and facts. -/
  conflict : String → String → List (String × FactDocument) → List String → String
  upper : String → String
  fromisoformat : String → Except String Time
  /-- `now + timedelta(days=…)`. -/
  addDays : Time → ℤ → Except String Time

/-- `StubOutboundMessage`, under its reference. -/
structure StubOutboundMessage where
  recipient : String
  body : String
  sentAt : Time
  deriving DecidableEq, Repr

/-- `StubBooking`, under its reference. -/
structure StubBooking where
  customerId : String
  slot : String
  status : String := "proposed"
  deriving DecidableEq, Repr

/-- `StubPaymentRequest`, under its reference. -/
structure StubPaymentRequest where
  bookingReference : String
  amountMinor : ℤ
  currency : String
  status : String := "pending"
  deriving DecidableEq, Repr

/-- `StubCalendarEvent`, under its reference. -/
structure StubCalendarEvent where
  bookingReference : String
  startsAt : String
  title : String
  deriving DecidableEq, Repr

/-- `StubBusinessState`. -/
structure StubBusinessState where
  now : Time
  availableSlots : List String
  outboundMessages : List (String × StubOutboundMessage) := []
  bookings : List (String × StubBooking) := []
  paymentRequests : List (String × StubPaymentRequest) := []
  calendarEvents : List (String × StubCalendarEvent) := []
  deriving DecidableEq, Repr

namespace StubBusinessState

/-- `any(booking.slot == slot for booking in self.state.bookings.values())`. -/
def booked (state : StubBusinessState) (slot : String) : Bool :=
  state.bookings.any fun entry => entry.2.slot = slot

/-- `advance`. -/
def advance (state : StubBusinessState) (duration : Time) : Except String StubBusinessState :=
  if duration < 0 then .error "stub business clock cannot move backwards"
  else .ok { state with now := state.now + duration }

end StubBusinessState

/-- The truth value of a value. -/
def FactDocument.truthy : FactDocument → Bool
  | .atom .null => false
  | .atom (.bool b) => b
  | .atom (.int z) => z ≠ 0
  | .atom (.float text) => text ≠ "0.0" ∧ text ≠ "-0.0"
  | .atom (.string text) => text ≠ ""
  | .array items => !items.isEmpty
  | .object fields => !fields.isEmpty

/-- The value is this string. -/
def FactDocument.isString (text : String) : Option FactDocument → Bool
  | some (.atom (.string value)) => value = text
  | _ => false

/-- What `apply_event` reads of a `CanonicalEvent`: its facts by key, and its payload. -/
structure InboundEvent where
  eventType : String
  facts : List (String × FactDocument) := []
  payload : List (String × FactDocument) := []

/-- `facts.get(…) or payload.get(…)`. -/
def orElse (first second : Option FactDocument) : Option FactDocument :=
  if first.any FactDocument.truthy then first else second

namespace StubBusinessState

variable (state : StubBusinessState)

/-- The booking that a completed payment restores from the durable facts. -/
def restoreBooking (known : List (String × FactDocument)) (reference : String) : StubBusinessState :=
  match state.bookings.lookup reference, known.lookup "booking.slot" with
  | none, some (.atom (.string slot)) =>
      let customerId :=
        match known.lookup "customer.email" with
        | some (.atom (.string email)) => email
        | _ => reference
      { state with
        bookings := Dict.setItem state.bookings reference
          { customerId := customerId, slot := slot, status := "confirmed" } }
  | _, _ => state

/-- `apply_event`; `known` are the authoritative facts. -/
def applyEvent (R : StubRuntime) (event : InboundEvent) (known : List (String × FactDocument)) :
    StubBusinessState :=
  if event.eventType ≠ "payment.completed" then state
  else
    let facts := Dict.update [] event.facts
    match orElse (facts.lookup "payment.reference") (event.payload.lookup "payment_reference") with
    | some (.atom (.string reference)) =>
        match state.paymentRequests.lookup reference with
        | some payment =>
            { state with
              paymentRequests := Dict.setItem state.paymentRequests reference
                { payment with status := "completed" } }
        | none =>
            match event.payload.lookup "booking_reference", facts.lookup "payment.amount_minor",
              facts.lookup "payment.currency" with
            | some (.atom (.string bookingReference)), some (.atom (.int amountMinor)),
              some (.atom (.string currency)) =>
                { state.restoreBooking known bookingReference with
                  paymentRequests := Dict.setItem state.paymentRequests reference
                    { bookingReference := bookingReference, amountMinor := amountMinor
                      currency := R.upper currency, status := "completed" } }
            | _, _, _ => state
    | _ => state

/-- `confirm_booking`, with the event it returns. -/
def confirmBooking (reference : String) : Except String (StubBusinessState × InboundEvent) :=
  match state.bookings.lookup reference with
  | none => .error "booking not found"
  | some booking =>
      .ok ({ state with
          bookings := Dict.setItem state.bookings reference { booking with status := "confirmed" } },
        { eventType := "booking.confirmed"
          facts := [("booking.reference", .string reference),
            ("booking.status", .string "confirmed"), ("booking.slot", .string booking.slot)]
          payload := [("booking_reference", .string reference), ("slot", .string booking.slot)] })

/-- `complete_payment`, with the event it returns. -/
def completePayment (reference : String) : Except String (StubBusinessState × InboundEvent) :=
  match state.paymentRequests.lookup reference with
  | none => .error "payment request not found"
  | some payment =>
      .ok ({ state with
          paymentRequests := Dict.setItem state.paymentRequests reference
            { payment with status := "completed" } },
        { eventType := "payment.completed"
          facts := [("payment.reference", .string reference),
            ("payment.status", .string "completed"),
            ("payment.amount_minor", .atom (.int payment.amountMinor)),
            ("payment.currency", .string payment.currency)]
          payload := [("payment_reference", .string reference),
            ("booking_reference", .string payment.bookingReference),
            ("amount_minor", .atom (.int payment.amountMinor)),
            ("currency", .string payment.currency)] })

end StubBusinessState

/-! ### The adapters -/

/-- What `_perform` does. -/
abbrev Performed := Except ProviderError (ProviderActionResult × StubBusinessState)

/-- `_require_string`. -/
def requireString (parameters : List (String × FactDocument)) (name : String) :
    Except ProviderError String :=
  match parameters.lookup name with
  | some (.atom (.string value)) =>
      if strip value = "" then .error (.definitiveFailure s!"{name} must be a nonblank string")
      else .ok value
  | _ => .error (.definitiveFailure s!"{name} must be a nonblank string")

/-- `_require_positive_int`. -/
def requirePositiveInt (parameters : List (String × FactDocument)) (name : String) :
    Except ProviderError ℤ :=
  match parameters.lookup name with
  | some (.atom (.int value)) =>
      if value < 1 then .error (.definitiveFailure s!"{name} must be a positive integer")
      else .ok value
  | _ => .error (.definitiveFailure s!"{name} must be a positive integer")

/-- An error of the standard library. -/
def library {α : Type} : Except String α → Except ProviderError α
  | .ok a => .ok a
  | .error message => .error (.other message)

section

variable (R : StubRuntime) (q : ProviderRequest) (state : StubBusinessState)

/-- `StubMessagingAdapter._perform`. -/
def messagingPerform : Performed :=
  if q.actionType ≠ "send_message" then
    .error (.definitiveFailure "messaging adapter only supports send_message")
  else do
    let recipient ← requireString (R.fields q.parameters) "recipient"
    let body ← requireString (R.fields q.parameters) "body"
    let reference := s!"msg_{keyPrefix q.idempotencyKey}"
    .ok (
      { providerReference := reference
        result := R.result [("message_reference", .string reference),
          ("sent", .atom (.bool true))]
        facts := [R.fact "messaging.last_outbound_reference" (.string reference)] },
      { state with
        outboundMessages := Dict.setItem state.outboundMessages reference
          { recipient := recipient, body := body, sentAt := state.now } })

/-- The branch of `StubBookingAdapter._perform` for `find_available_slots`. -/
def findAvailableSlots : Performed := do
  let days ← requirePositiveInt (R.fields q.parameters) "days"
  let horizon ← library (R.addDays state.now days)
  let slots ← state.availableSlots.filterM fun slot => do
    let starts ← library (R.fromisoformat slot)
    pure (decide (starts ≤ horizon) && !state.booked slot)
  let listed : FactDocument := .array (slots.map FactDocument.string)
  .ok (
    { providerReference := s!"availability_{keyPrefix q.idempotencyKey}"
      result := R.result [("slots", listed)]
      facts := [R.fact "booking.available_slots" listed] },
    state)

/-- The slots of a request: the durable ones, or those of the provider. -/
def offeredSlots : List String :=
  match q.authoritativeFacts.lookup "booking.available_slots" with
  | some (.array items) => items.filterMap fun item =>
      match item with
      | .atom (.string slot) => some slot
      | _ => none
  | _ => state.availableSlots

/-- The conflict of a slot that is booked. -/
def slotConflict (slot : String) : ActionConflict :=
  let remaining := state.availableSlots.filter fun candidate =>
    candidate ≠ slot && !state.booked candidate
  let facts := [R.fact "booking.available_slots" (.array (remaining.map FactDocument.string))]
  { message := "the requested booking slot is no longer available"
    facts := facts
    document := R.conflict "resource_unavailable"
      "the requested booking slot is no longer available"
      [("resource_type", .string "appointment_slot"), ("selected_slot", .string slot)] facts }

/-- The reference of the booking of a key. -/
def bookingReference (key : String) : String := s!"booking_{keyPrefix key}"

/-- The branch of `StubBookingAdapter._perform` for `propose_booking`. -/
def proposeBooking : Performed := do
  let customerId ← requireString (R.fields q.parameters) "customer_id"
  let slot ← requireString (R.fields q.parameters) "slot"
  if slot ∉ offeredSlots q state then
    .error (.definitiveFailure "booking slot is not available")
  else if state.booked slot then .error (.definitiveConflict (slotConflict R state slot))
  else
    let reference := bookingReference q.idempotencyKey
    .ok (
      { providerReference := reference
        result := R.result [("booking_reference", .string reference),
          ("status", .string "confirmed"), ("slot", .string slot)]
        facts := [R.fact "booking.reference" (.string reference),
          R.fact "booking.status" (.string "confirmed"), R.fact "booking.slot" (.string slot)] },
      { state with
        bookings := Dict.setItem state.bookings reference
          { customerId := customerId, slot := slot, status := "confirmed" } })

/-- `StubBookingAdapter._perform`. -/
def bookingPerform : Performed :=
  if q.actionType = "find_available_slots" then findAvailableSlots R q state
  else if q.actionType ≠ "propose_booking" then
    .error (.definitiveFailure
      "booking adapter supports find_available_slots and propose_booking")
  else proposeBooking R q state

/-- `booking is not None and booking.status == "confirmed"`, or the durable facts say so. -/
def confirmedBooking (reference : String) : Bool :=
  (state.bookings.lookup reference).any (fun booking => booking.status = "confirmed") ||
    (FactDocument.isString reference (q.authoritativeFacts.lookup "booking.reference") &&
      FactDocument.isString "confirmed" (q.authoritativeFacts.lookup "booking.status"))

/-- `StubPaymentAdapter._perform`. -/
def paymentPerform : Performed :=
  if q.actionType ≠ "request_payment" then
    .error (.definitiveFailure "payment adapter only supports request_payment")
  else do
    let booking ← requireString (R.fields q.parameters) "booking_reference"
    if !confirmedBooking q state booking then
      .error (.definitiveFailure "payment requires a confirmed booking")
    else
      let amountMinor ← requirePositiveInt (R.fields q.parameters) "amount_minor"
      let currency ← requireString (R.fields q.parameters) "currency"
      let reference := s!"payment_{keyPrefix q.idempotencyKey}"
      .ok (
        { providerReference := reference
          result := R.result [("payment_reference", .string reference),
            ("status", .string "pending"), ("amount_minor", .atom (.int amountMinor)),
            ("currency", .string (R.upper currency))]
          facts := [R.fact "payment.reference" (.string reference),
            R.fact "payment.status" (.string "pending"),
            R.fact "payment.amount_minor" (.atom (.int amountMinor)),
            R.fact "payment.currency" (.string (R.upper currency))] },
        { state with
          paymentRequests := Dict.setItem state.paymentRequests reference
            { bookingReference := booking, amountMinor := amountMinor
              currency := R.upper currency } })

/-- A payment of the booking is completed, or the durable facts say so. -/
def paidBooking (reference : String) : Bool :=
  (state.paymentRequests.any fun entry =>
      entry.2.bookingReference = reference && entry.2.status = "completed") ||
    FactDocument.isString "completed" (q.authoritativeFacts.lookup "payment.status")

/-- The slot of a booking, or that of the durable facts. -/
def bookedSlot (reference : String) : Option FactDocument :=
  match state.bookings.lookup reference with
  | some booking => some (.string booking.slot)
  | none => q.authoritativeFacts.lookup "booking.slot"

/-- `StubCalendarAdapter._perform`. -/
def calendarPerform : Performed :=
  if q.actionType ≠ "create_calendar_event" then
    .error (.definitiveFailure "calendar adapter only supports create_calendar_event")
  else do
    let booking ← requireString (R.fields q.parameters) "booking_reference"
    if !confirmedBooking q state booking then
      .error (.definitiveFailure "calendar event requires a confirmed booking")
    else if !paidBooking q state booking then
      .error (.definitiveFailure "calendar event requires completed payment")
    else
      let startsAt ← requireString (R.fields q.parameters) "starts_at"
      if !FactDocument.isString startsAt (bookedSlot q state booking) then
        .error (.definitiveFailure "calendar event must use the confirmed booking slot")
      else
        let title ← requireString (R.fields q.parameters) "title"
        let reference := s!"calendar_{keyPrefix q.idempotencyKey}"
        .ok (
          { providerReference := reference
            result := R.result [("calendar_reference", .string reference),
              ("created", .atom (.bool true))]
            facts := [R.fact "calendar.reference" (.string reference),
              R.fact "calendar.status" (.string "created")] },
          { state with
            calendarEvents := Dict.setItem state.calendarEvents reference
              { bookingReference := booking, startsAt := startsAt, title := title } })

end

/-- The adapters of `stub_business_bindings`. -/
inductive StubAdapter where
  | messaging | booking | payment | calendar
  deriving DecidableEq, Repr

/-- `id`. -/
def StubAdapter.id : StubAdapter → String
  | messaging => "stub.messaging.v1"
  | booking => "stub.booking.v1"
  | payment => "stub.payment.v1"
  | calendar => "stub.calendar.v1"

/-- `stub_business_bindings`. -/
def stubBusinessBindings : List (String × StubAdapter) :=
  [("send_message", .messaging), ("find_available_slots", .booking), ("propose_booking", .booking),
    ("request_payment", .payment), ("create_calendar_event", .calendar)]

/-- `_perform`. -/
def StubAdapter.perform (R : StubRuntime) (q : ProviderRequest) (state : StubBusinessState) :
    StubAdapter → Performed
  | messaging => messagingPerform R q state
  | booking => bookingPerform R q state
  | payment => paymentPerform R q state
  | calendar => calendarPerform R q state

/-- The adapters over their state. -/
structure BusinessProvider where
  state : StubBusinessState
  kept : StubAdapter → KeptOutcomes := fun _ => {}

namespace BusinessProvider

variable (provider : BusinessProvider)

/-- What an adapter keeps after a change. -/
def keep (a : StubAdapter) (kept : KeptOutcomes) : BusinessProvider :=
  { provider with kept := Function.update provider.kept a kept }

/-- `_StatefulActionAdapter.execute`, from where the key is not known. -/
def perform (R : StubRuntime) (a : StubAdapter) (q : ProviderRequest) :
    ProviderAnswer × BusinessProvider :=
  match a.perform R q provider.state with
  | .error (.definitiveConflict conflict) =>
      (.definitiveConflict conflict,
        provider.keep a ((provider.kept a).keepConflict q.idempotencyKey conflict))
  | .error error => (error.answer, provider)
  | .ok (result, state) =>
      (.success result, { provider with state := state }.keep a
        ((provider.kept a).keepResult q.idempotencyKey result))

/-- `_StatefulActionAdapter.execute`; it looks the key up as `lookup` does. -/
def execute (R : StubRuntime) (a : StubAdapter) (q : ProviderRequest) :
    ProviderAnswer × BusinessProvider :=
  match (provider.kept a).lookup q.idempotencyKey with
  | some existing => (existing.answer, provider)
  | none => provider.perform R a q

end BusinessProvider

/-- What reaches the state of the provider from outside. -/
inductive BusinessEvent where
  | advance (duration : Time)
  | apply (event : InboundEvent) (known : List (String × FactDocument))
  | confirmBooking (reference : String)
  | completePayment (reference : String)

/-- The state after an event; one that raises leaves it as it is. -/
def BusinessEvent.run (R : StubRuntime) (state : StubBusinessState) :
    BusinessEvent → StubBusinessState
  | advance duration =>
      match state.advance duration with
      | .ok state' => state'
      | .error _ => state
  | apply event known => state.applyEvent R event known
  | confirmBooking reference =>
      match state.confirmBooking reference with
      | .ok (state', _) => state'
      | .error _ => state
  | completePayment reference =>
      match state.completePayment reference with
      | .ok (state', _) => state'
      | .error _ => state

/-- The four adapters as one service, whose keys belong to an adapter. -/
def businessWorld (R : StubRuntime) :
    Service (StubAdapter × String) (StubAdapter × ProviderRequest) ProviderAnswer
      ProviderOutcome BusinessEvent BusinessProvider where
  key r := (r.1, r.2.idempotencyKey)
  execute r provider := provider.execute R r.1 r.2
  lookup k provider := (provider.kept k.1).lookup k.2
  event e provider := { provider with state := e.run R provider.state }

/-- One adapter, next to the others and to the events. -/
def businessService (R : StubRuntime) (a : StubAdapter) :
    ActionService (Input (StubAdapter × ProviderRequest) BusinessEvent) BusinessProvider :=
  (businessWorld R).view ProviderRequest.idempotencyKey (fun q => (a, q)) fun key => (a, key)

/-! ### The contract -/

section

variable {R : StubRuntime} {provider : BusinessProvider} {a a' : StubAdapter}
  {q : ProviderRequest}

@[simp] lemma BusinessProvider.keep_self (kept : KeptOutcomes) :
    (provider.keep a kept).kept a = kept :=
  Function.update_self ..

@[simp] lemma BusinessProvider.keep_of_ne (kept : KeptOutcomes) (h : a' ≠ a) :
    (provider.keep a kept).kept a' = provider.kept a' :=
  Function.update_of_ne h ..

@[simp] lemma BusinessProvider.keep_state (kept : KeptOutcomes) :
    (provider.keep a kept).state = provider.state := rfl

/-- What an adapter does concerns the key of the request only. -/
lemma BusinessProvider.perform_other {key : String} (h : (a', key) ≠ (a, q.idempotencyKey)) :
    ((provider.perform R a q).2.kept a').lookup key = (provider.kept a').lookup key := by
  have hkeep (kept : KeptOutcomes) (hkept : ∀ k, k ≠ q.idempotencyKey →
      kept.lookup k = (provider.kept a).lookup k) (state : StubBusinessState) :
      (({ provider with state := state }.keep a kept).kept a').lookup key
        = (provider.kept a').lookup key := by
    by_cases ha : a' = a
    · subst ha
      rw [keep_self]
      exact hkept key fun hkey => h (by rw [hkey])
    · rw [keep_of_ne _ ha]
  rw [perform]
  split
  · exact hkeep _ (fun k hk => KeptOutcomes.lookup_keepConflict_of_ne _ hk) provider.state
  · rfl
  · exact hkeep _ (fun k hk => KeptOutcomes.lookup_keepResult_of_ne _ hk) _

/-- An answer that is an outcome is kept. -/
lemma BusinessProvider.perform_kept {o : ProviderOutcome}
    (hnone : (provider.kept a).lookup q.idempotencyKey = none)
    (h : (provider.perform R a q).1 = o.answer) :
    ((provider.perform R a q).2.kept a).lookup q.idempotencyKey = some o := by
  rw [perform] at h ⊢
  split at h
  · rename_i conflict _
    have ho : ProviderOutcome.conflict conflict = o := ProviderOutcome.answer_injective h
    rw [← ho, keep_self]
    exact KeptOutcomes.lookup_keepConflict_self _ (KeptOutcomes.lookup_eq_none.mp hnone).1
  · rename_i error hraised _
    cases error <;> cases o <;> simp_all [ProviderError.answer, ProviderOutcome.answer]
  · rename_i result state _
    have ho : ProviderOutcome.result result = o := ProviderOutcome.answer_injective h
    rw [← ho, keep_self]
    exact KeptOutcomes.lookup_keepResult_self _

variable (R)

/-- The adapters keep what they answer. -/
lemma businessWorld_idempotent : Idempotent (businessWorld R) ProviderOutcome.answer := by
  refine .of_guarded ProviderOutcome.answer_injective (fun e h => h) ?_ ?_ ?_
  · intro r o provider h
    exact congrArg (fun found => match found with
      | some existing => (ProviderOutcome.answer existing, provider)
      | none => provider.perform R r.1 r.2) h
  · rintro ⟨a', key⟩ ⟨a, q⟩ provider hne
    dsimp only [businessWorld, BusinessProvider.execute]
    split
    · rfl
    · exact BusinessProvider.perform_other hne
  · rintro ⟨a, q⟩ o provider hnone h
    have hperform : (businessWorld R).execute (a, q) provider = provider.perform R a q := by
      dsimp only [businessWorld, BusinessProvider.execute] at hnone ⊢
      rw [hnone]
    rw [hperform] at h ⊢
    exact BusinessProvider.perform_kept hnone h

/-- **Each adapter honours the contract**, whatever the other adapters and the events do to the
state they share. -/
theorem businessService_lawful (a : StubAdapter) : (businessService R a).Lawful where
  key _ := rfl
  idempotent := (businessWorld_idempotent R).view fun _ => rfl

end

end TiramisuAgents
