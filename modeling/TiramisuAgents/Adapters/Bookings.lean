import TiramisuAgents.Adapters.Business

/-!
The bookings of the business providers: a slot is confirmed to one request only, and a confirmed
booking stays.

A booking is written under a reference that is made of the first 16 characters of the key, so the
keys of different requests have to differ there.  A payment that is completed may put a booking
back after a restart, from durable facts and without a look at the slot: two bookings may then hold
one slot, but no slot is ever confirmed twice by the adapter.

* `bookingPerform_ok`, `perform_bookings`: what the adapters do to the bookings.
* `Confirmed`, `confirmed_run`: what holds of the confirmed proposals in a run.
* `bookings_exclusive`: the guarantee.
-/

namespace TiramisuAgents

open Deduplication

/-! ### What is done to the bookings -/

section

variable {R : StubRuntime} {q q' : ProviderRequest} {state state' : StubBusinessState}
  {r : ProviderActionResult}

/-- The slot and the customer a request asks for. -/
def requestedBooking (R : StubRuntime) (q : ProviderRequest) : Option (String × String) :=
  match requireString (R.fields q.parameters) "customer_id",
    requireString (R.fields q.parameters) "slot" with
  | .ok customerId, .ok slot => some (customerId, slot)
  | _, _ => none

/-- A proposal that is performed books a free slot. -/
lemma proposeBooking_ok (h : proposeBooking R q state = .ok (r, state')) :
    ∃ customerId slot, requestedBooking R q = some (customerId, slot) ∧ state.booked slot = false ∧
      state'.bookings = Dict.setItem state.bookings (bookingReference q.idempotencyKey)
        ⟨customerId, slot, "confirmed"⟩ := by
  rw [proposeBooking] at h
  obtain ⟨customerId, hcustomer, h⟩ := ok_of_bind h
  obtain ⟨slot, hslot, h⟩ := ok_of_bind h
  split_ifs at h with hoffered hbooked
  obtain ⟨-, rfl⟩ := Prod.mk.inj (Except.ok.inj h)
  exact ⟨customerId, slot, by rw [requestedBooking, hcustomer, hslot], by simpa using hbooked, rfl⟩

/-- What the booking adapter performs. -/
lemma bookingPerform_ok (h : bookingPerform R q state = .ok (r, state')) :
    (q.actionType ≠ "propose_booking" ∧ state'.bookings = state.bookings) ∨
    (q.actionType = "propose_booking" ∧ proposeBooking R q state = .ok (r, state')) := by
  rw [bookingPerform] at h
  split_ifs at h with hfind hpropose
  · left
    rw [findAvailableSlots] at h
    obtain ⟨days, -, h⟩ := ok_of_bind h
    obtain ⟨horizon, -, h⟩ := ok_of_bind h
    obtain ⟨slots, -, h⟩ := ok_of_bind h
    obtain ⟨-, rfl⟩ := Prod.mk.inj (Except.ok.inj h)
    exact ⟨by rw [hfind]; decide, rfl⟩
  · exact .inr ⟨not_not.mp hpropose, h⟩

/-- The other adapters leave the bookings alone. -/
lemma perform_bookings {a : StubAdapter} (ha : a ≠ .booking)
    (h : a.perform R q state = .ok (r, state')) : state'.bookings = state.bookings := by
  cases a with
  | messaging =>
      rw [StubAdapter.perform, messagingPerform] at h
      split_ifs at h
      obtain ⟨recipient, -, h⟩ := ok_of_bind h
      obtain ⟨body, -, h⟩ := ok_of_bind h
      obtain ⟨-, rfl⟩ := Prod.mk.inj (Except.ok.inj h)
      rfl
  | booking => exact absurd rfl ha
  | payment =>
      rw [StubAdapter.perform, paymentPerform] at h
      split_ifs at h
      obtain ⟨booking, -, h⟩ := ok_of_bind h
      split_ifs at h
      obtain ⟨amountMinor, -, h⟩ := ok_of_bind h
      obtain ⟨currency, -, h⟩ := ok_of_bind h
      obtain ⟨-, rfl⟩ := Prod.mk.inj (Except.ok.inj h)
      rfl
  | calendar =>
      rw [StubAdapter.perform, calendarPerform] at h
      split_ifs at h
      obtain ⟨booking, -, h⟩ := ok_of_bind h
      split_ifs at h
      obtain ⟨startsAt, -, h⟩ := ok_of_bind h
      split_ifs at h
      obtain ⟨title, -, h⟩ := ok_of_bind h
      obtain ⟨-, rfl⟩ := Prod.mk.inj (Except.ok.inj h)
      rfl

/-- A payment that is completed puts back no booking that is there. -/
lemma restoreBooking_kept {known : List (String × FactDocument)} {reference reference' : String}
    {booking : StubBooking} (h : state.bookings.lookup reference = some booking) :
    (state.restoreBooking known reference').bookings.lookup reference = some booking := by
  rw [StubBusinessState.restoreBooking]
  split
  · rename_i slot hnone _
    rw [Dict.lookup_setItem, if_neg, h]
    intro heq
    rw [← beq_iff_eq.mp heq, h] at hnone
    cases hnone
  · exact h

/-- No event changes a confirmed booking. -/
lemma event_bookings (e : BusinessEvent) {reference : String} {booking : StubBooking}
    (hconfirmed : booking.status = "confirmed")
    (h : state.bookings.lookup reference = some booking) :
    (e.run R state).bookings.lookup reference = some booking := by
  cases e with
  | advance duration =>
      rw [BusinessEvent.run, StubBusinessState.advance]
      split_ifs
      · exact h
      · exact h
  | apply event known =>
      rw [BusinessEvent.run, StubBusinessState.applyEvent]
      split
      · exact h
      · dsimp only
        split
        · split
          · exact h
          · split
            · exact restoreBooking_kept h
            · exact h
        · exact h
  | confirmBooking reference' =>
      rw [BusinessEvent.run, StubBusinessState.confirmBooking]
      cases hfound : state.bookings.lookup reference' with
      | none => exact h
      | some booking' =>
          dsimp only
          rw [Dict.lookup_setItem]
          split_ifs with heq
          · rw [beq_iff_eq.mp heq, hfound] at h
            rw [← Option.some.inj h] at hconfirmed ⊢
            rw [← hconfirmed]
          · exact h
  | completePayment reference' =>
      rw [BusinessEvent.run, StubBusinessState.completePayment]
      split <;> rename_i heq <;> split at heq <;> cases heq <;> exact h

end

/-! ### Runs -/

/-- What happens to the providers. -/
abbrev BusinessInput := Input (StubAdapter × ProviderRequest) BusinessEvent

/-- The keys of different requests differ in their first 16 characters. -/
def PrefixesApart (inputs : List BusinessInput) : Prop :=
  ∀ q q', .deliver (.booking, q) ∈ inputs → .deliver (.booking, q') ∈ inputs →
    keyPrefix q.idempotencyKey = keyPrefix q'.idempotencyKey →
    q.idempotencyKey = q'.idempotencyKey ∧ q.actionType = q'.actionType ∧
      q.parameters = q'.parameters

/-- A proposal among the deliveries whose result is kept. -/
structure Proposed (inputs : List BusinessInput) (provider : BusinessProvider)
    (q : ProviderRequest) : Prop where
  delivered : .deliver (.booking, q) ∈ inputs
  proposes : q.actionType = "propose_booking"
  kept : (provider.kept .booking).results q.idempotencyKey ≠ none

/-- The proposals that are kept hold their bookings, and no two of them hold one slot. -/
structure Confirmed (R : StubRuntime) (inputs : List BusinessInput) (provider : BusinessProvider) :
    Prop where
  holds : ∀ q, Proposed inputs provider q → ∃ customerId slot,
    requestedBooking R q = some (customerId, slot) ∧
    provider.state.bookings.lookup (bookingReference q.idempotencyKey)
      = some ⟨customerId, slot, "confirmed"⟩
  apart : ∀ q q', Proposed inputs provider q → Proposed inputs provider q' →
    (requestedBooking R q).map Prod.snd = (requestedBooking R q').map Prod.snd →
    q.idempotencyKey = q'.idempotencyKey

section

variable {R : StubRuntime} {inputs : List BusinessInput} {provider provider' : BusinessProvider}
  {a : StubAdapter} {q q' : ProviderRequest}

lemma bookingReference_inj {key key' : String} (h : bookingReference key = bookingReference key') :
    keyPrefix key = keyPrefix key' := by
  have hlist := congrArg String.toList h
  simpa [bookingReference, String.toList_append, toString, String.toList_inj] using hlist

/-- A change that keeps no new result and leaves the confirmed bookings. -/
lemma Confirmed.of_same (hs : Confirmed R inputs provider)
    (hresults : (provider'.kept .booking).results = (provider.kept .booking).results)
    (hbookings : ∀ reference booking, booking.status = "confirmed" →
      provider.state.bookings.lookup reference = some booking →
      provider'.state.bookings.lookup reference = some booking) :
    Confirmed R inputs provider' := by
  have hproposed : ∀ {q}, Proposed inputs provider' q → Proposed inputs provider q :=
    fun h => ⟨h.delivered, h.proposes, by rw [← hresults]; exact h.kept⟩
  refine ⟨fun q hq => ?_, fun q q' hq hq' => hs.apart q q' (hproposed hq) (hproposed hq')⟩
  obtain ⟨customerId, slot, hrequested, hbooking⟩ := hs.holds q (hproposed hq)
  exact ⟨customerId, slot, hrequested, hbookings _ _ rfl hbooking⟩

/-- A slot that a kept proposal holds is booked. -/
lemma Confirmed.booked (hs : Confirmed R inputs provider) (hq : Proposed inputs provider q)
    {customerId slot : String} (hrequested : requestedBooking R q = some (customerId, slot)) :
    provider.state.booked slot = true := by
  obtain ⟨customerId', slot', hrequested', hbooking⟩ := hs.holds q hq
  rw [hrequested] at hrequested'
  cases hrequested'
  exact List.any_eq_true.mpr ⟨_, Dict.mem_of_lookup hbooking, decide_eq_true rfl⟩

/-- After a result is kept, a kept proposal is an old one or has this key. -/
lemma Proposed.cases {state : StubBusinessState} {r : ProviderActionResult}
    (h : Proposed inputs ({ provider with state := state }.keep .booking
      ((provider.kept .booking).keepResult q.idempotencyKey r)) q') :
    q'.idempotencyKey = q.idempotencyKey ∨
      (q'.idempotencyKey ≠ q.idempotencyKey ∧ Proposed inputs provider q') := by
  by_cases hkey : q'.idempotencyKey = q.idempotencyKey
  · exact .inl hkey
  · refine .inr ⟨hkey, h.delivered, h.proposes, ?_⟩
    have hkept := h.kept
    rw [BusinessProvider.keep_self] at hkept
    dsimp only [KeptOutcomes.keepResult] at hkept
    rwa [Function.update_of_ne hkey] at hkept

/-- The booking of another key stays where it is. -/
lemma lookup_other (hprefixes : PrefixesApart inputs) (hq : .deliver (.booking, q) ∈ inputs)
    (hq' : .deliver (.booking, q') ∈ inputs) (hkey : q'.idempotencyKey ≠ q.idempotencyKey)
    (bookings : List (String × StubBooking)) (booking : StubBooking) :
    (Dict.setItem bookings (bookingReference q.idempotencyKey) booking).lookup
        (bookingReference q'.idempotencyKey)
      = bookings.lookup (bookingReference q'.idempotencyKey) := by
  rw [Dict.lookup_setItem, if_neg]
  intro heq
  exact hkey (hprefixes q' q hq' hq (bookingReference_inj (beq_iff_eq.mp heq))).1

/-- A delivery to the booking adapter that performs keeps the proposals confirmed. -/
lemma Confirmed.perform (hprefixes : PrefixesApart inputs) (hq : .deliver (.booking, q) ∈ inputs)
    (hs : Confirmed R inputs provider) {state : StubBusinessState} {r : ProviderActionResult}
    (h : bookingPerform R q provider.state = .ok (r, state)) :
    Confirmed R inputs ({ provider with state := state }.keep .booking
      ((provider.kept .booking).keepResult q.idempotencyKey r)) := by
  rcases bookingPerform_ok h with ⟨htype, hbookings⟩ | ⟨htype, hproposed⟩
  · -- a proposal with the key of another request would be this request
    have hold : ∀ {q'}, Proposed inputs ({ provider with state := state }.keep .booking
        ((provider.kept .booking).keepResult q.idempotencyKey r)) q' →
        Proposed inputs provider q' := by
      intro q' hq'
      rcases hq'.cases with hkey | ⟨-, hold⟩
      · refine absurd ?_ htype
        rw [← hq'.proposes]
        exact (hprefixes q q' hq hq'.delivered (by rw [hkey])).2.1
      · exact hold
    refine ⟨fun q' hq' => ?_, fun q₁ q₂ h₁ h₂ => hs.apart q₁ q₂ (hold h₁) (hold h₂)⟩
    rw [BusinessProvider.keep_state, hbookings]
    exact hs.holds q' (hold hq')
  · obtain ⟨customerId, slot, hrequested, hfree, hbookings⟩ := proposeBooking_ok hproposed
    have hsame : ∀ {q'}, .deliver (.booking, q') ∈ inputs →
        q'.idempotencyKey = q.idempotencyKey → requestedBooking R q' = some (customerId, slot) := by
      intro q' hq' hkey
      have hparameters := (hprefixes q' q hq' hq (by rw [hkey])).2.2
      rw [← hrequested, requestedBooking, requestedBooking, hparameters]
    -- a kept proposal for the slot would have booked it
    have hnone : ∀ {q'}, Proposed inputs provider q' →
        (requestedBooking R q').map Prod.snd ≠ some slot := by
      intro q' hq' hslot
      obtain ⟨⟨customerId', slot'⟩, hrequested', rfl⟩ := Option.map_eq_some_iff.mp hslot
      rw [hs.booked hq' hrequested'] at hfree
      cases hfree
    constructor
    case holds =>
      intro q' hq'
      rw [BusinessProvider.keep_state, hbookings]
      rcases hq'.cases with hkey | ⟨hkey, hold⟩
      · refine ⟨customerId, slot, hsame hq'.delivered hkey, ?_⟩
        rw [hkey, Dict.lookup_setItem, if_pos (beq_self_eq_true _)]
      · rw [lookup_other hprefixes hq hq'.delivered hkey]
        exact hs.holds q' hold
    case apart =>
      intro q₁ q₂ h₁ h₂ hslots
      rcases h₁.cases with hkey₁ | ⟨-, hold₁⟩
      · rcases h₂.cases with hkey₂ | ⟨-, hold₂⟩
        · rw [hkey₁, hkey₂]
        · rw [hsame h₁.delivered hkey₁] at hslots
          exact absurd hslots.symm (hnone hold₂)
      · rcases h₂.cases with hkey₂ | ⟨-, hold₂⟩
        · rw [hsame h₂.delivered hkey₂] at hslots
          exact absurd hslots (hnone hold₁)
        · exact hs.apart q₁ q₂ hold₁ hold₂ hslots

/-- An input keeps the proposals confirmed. -/
lemma Confirmed.step (hprefixes : PrefixesApart inputs) {x : BusinessInput} (hx : x ∈ inputs)
    (hs : Confirmed R inputs provider) :
    Confirmed R inputs ((businessWorld R).step provider x) := by
  cases x with
  | event e => exact hs.of_same rfl fun reference booking => event_bookings e
  | deliver request =>
      obtain ⟨a, q⟩ := request
      dsimp only [Service.step, businessWorld, BusinessProvider.execute]
      split
      · exact hs
      · rw [BusinessProvider.perform]
        split
        · refine hs.of_same ?_ fun _ _ _ h => h
          by_cases ha : .booking = a
          · subst ha
            rw [BusinessProvider.keep_self]
            rfl
          · rw [BusinessProvider.keep_of_ne _ ha]
        · exact hs
        · rename_i r state hperform
          by_cases ha : a = .booking
          · subst ha
            exact hs.perform hprefixes hx hperform
          · refine hs.of_same ?_ fun reference booking _ h => ?_
            · rw [BusinessProvider.keep_of_ne _ (Ne.symm ha)]
            · rw [BusinessProvider.keep_state, perform_bookings ha hperform]
              exact h

/-- A run keeps the proposals confirmed. -/
lemma confirmed_run (hprefixes : PrefixesApart inputs) {rest : List BusinessInput}
    (hrest : ∀ x ∈ rest, x ∈ inputs) (hs : Confirmed R inputs provider) :
    Confirmed R inputs ((businessWorld R).run provider rest) := by
  induction rest generalizing provider with
  | nil => exact hs
  | cons x rest ih =>
      obtain ⟨hx, hrest⟩ := List.forall_mem_cons.mp hrest
      exact ih hrest (hs.step hprefixes hx)

/-- A proposal that is answered with success is kept. -/
lemma proposed_of_trace {state : StubBusinessState} {r : ProviderActionResult}
    (h : ((.booking, q), .success r) ∈ (businessWorld R).trace { state := state } inputs)
    (hproposes : q.actionType = "propose_booking") :
    Proposed inputs ((businessWorld R).run { state := state } inputs) q := by
  refine ⟨Service.deliver_mem_of_trace h, hproposes, ?_⟩
  have hkept := (businessWorld_idempotent R).trace_kept (o := .result r) h
  have hresult : (((businessWorld R).run { state := state } inputs).kept .booking).results
      q.idempotencyKey = some r := KeptOutcomes.results_of_lookup hkept
  rw [hresult]
  exact Option.some_ne_none r

/-- **A slot is confirmed once.**  Whatever reaches the four adapters and the state they share, in
whatever order and however often: two proposals that were both answered with success have the same
key, or asked for different slots; and each of them holds its slot for its customer to the end. -/
theorem bookings_exclusive (hprefixes : PrefixesApart inputs) (state : StubBusinessState) :
    (∀ q r, ((.booking, q), .success r) ∈ (businessWorld R).trace { state := state } inputs →
      q.actionType = "propose_booking" → ∃ customerId slot,
        requestedBooking R q = some (customerId, slot) ∧
        ((businessWorld R).run { state := state } inputs).state.bookings.lookup
          (bookingReference q.idempotencyKey) = some ⟨customerId, slot, "confirmed"⟩) ∧
    ∀ q q' r r', ((.booking, q), .success r) ∈ (businessWorld R).trace { state := state } inputs →
      ((.booking, q'), .success r') ∈ (businessWorld R).trace { state := state } inputs →
      q.actionType = "propose_booking" → q'.actionType = "propose_booking" →
      (requestedBooking R q).map Prod.snd = (requestedBooking R q').map Prod.snd →
      q.idempotencyKey = q'.idempotencyKey := by
  have hconfirmed : Confirmed R inputs ((businessWorld R).run { state := state } inputs) := by
    refine confirmed_run hprefixes (fun _ h => h) ⟨fun q hq => ?_, fun q q' hq => ?_⟩
    · exact absurd rfl hq.kept
    · exact absurd rfl hq.kept
  refine ⟨fun q r h hproposes => ?_, fun q q' r r' h h' hproposes hproposes' => ?_⟩
  · exact hconfirmed.holds q (proposed_of_trace h hproposes)
  · exact hconfirmed.apart q q' (proposed_of_trace h hproposes) (proposed_of_trace h' hproposes')

end

/-! ### After a restart -/

section

variable {R : StubRuntime} {q : ProviderRequest} {state state' restarted : StubBusinessState}
  {event : InboundEvent} {known : List (String × FactDocument)} {reference : String}
  {payment : StubPaymentRequest} {booking : StubBooking}

/-- What the event of a completed payment restores. -/
lemma applyEvent_completePayment (hpayment : state.paymentRequests.lookup reference = some payment)
    (hcompleted : state.completePayment reference = .ok (state', event))
    (hreference : reference ≠ "") (hlost : restarted.paymentRequests.lookup reference = none) :
    restarted.applyEvent R event known
      = { restarted.restoreBooking known payment.bookingReference with
          paymentRequests := Dict.setItem restarted.paymentRequests reference
            { payment with currency := R.upper payment.currency, status := "completed" } } := by
  rw [StubBusinessState.completePayment, hpayment] at hcompleted
  obtain ⟨-, rfl⟩ := Prod.mk.inj (Except.ok.inj hcompleted)
  simp [StubBusinessState.applyEvent, Dict.update, Dict.setItem, orElse, FactDocument.truthy,
    List.lookup_cons, hreference, hlost]

/-- A booking that is lost is restored with the slot of the durable facts. -/
lemma restoreBooking_lost {slot : String} (hlost : restarted.bookings.lookup reference = none)
    (hslot : known.lookup "booking.slot" = some (.string slot)) :
    ∃ customerId, (restarted.restoreBooking known reference).bookings.lookup reference
      = some ⟨customerId, slot, "confirmed"⟩ := by
  rw [StubBusinessState.restoreBooking, hlost, hslot]
  dsimp only
  rw [Dict.lookup_setItem, if_pos (beq_self_eq_true _)]
  exact ⟨_, rfl⟩

/-- What the calendar adapter answers depends on the booking, its slot and its payment only. -/
lemma calendarPerform_congr {name : String}
    (hname : requireString (R.fields q.parameters) "booking_reference" = .ok name)
    (hconfirmed : confirmedBooking q state name = confirmedBooking q state' name)
    (hpaid : paidBooking q state name = paidBooking q state' name)
    (hslot : bookedSlot q state name = bookedSlot q state' name) :
    (calendarPerform R q state).map Prod.fst = (calendarPerform R q state').map Prod.fst := by
  rw [calendarPerform, calendarPerform, hname]
  split_ifs
  · rfl
  · simp only [bind, Except.bind, hconfirmed, hpaid, hslot]
    split_ifs
    · rfl
    · rfl
    · cases requireString (R.fields q.parameters) "starts_at" with
      | error e => rfl
      | ok startsAt =>
          dsimp only
          split_ifs
          · rfl
          · cases requireString (R.fields q.parameters) "title" <;> rfl

/-- A completed payment pays its booking. -/
lemma paidBooking_setItem {payments : List (String × StubPaymentRequest)}
    (paid : StubPaymentRequest) (hpayments : state.paymentRequests
      = Dict.setItem payments reference paid) (hstatus : paid.status = "completed") :
    paidBooking q state paid.bookingReference = true := by
  rw [paidBooking, hpayments, Bool.or_eq_true]
  refine .inl (List.any_eq_true.mpr ⟨(reference, paid), Dict.mem_of_lookup ?_, by simp [hstatus]⟩)
  rw [Dict.lookup_setItem, if_pos (beq_self_eq_true _)]

/-- **A restart loses no paid booking.**  A provider that has lost its state, and receives the event
of the completed payment with the slot of the booking among the durable facts, answers every request
for a calendar event of the booking as the provider that had completed the payment. -/
theorem calendar_after_restart
    (hpayment : state.paymentRequests.lookup reference = some payment)
    (hbooking : state.bookings.lookup payment.bookingReference = some booking)
    (hconfirmed : booking.status = "confirmed")
    (hcompleted : state.completePayment reference = .ok (state', event))
    (hreference : reference ≠ "") (hlost : restarted.paymentRequests.lookup reference = none)
    (hlost' : restarted.bookings.lookup payment.bookingReference = none)
    (hslot : known.lookup "booking.slot" = some (.string booking.slot))
    (hname : requireString (R.fields q.parameters) "booking_reference"
      = .ok payment.bookingReference) :
    (calendarPerform R q (restarted.applyEvent R event known)).map Prod.fst
      = (calendarPerform R q state').map Prod.fst := by
  rw [applyEvent_completePayment hpayment hcompleted hreference hlost]
  obtain ⟨customerId, hrestored⟩ := restoreBooking_lost hlost' hslot
  rw [StubBusinessState.completePayment, hpayment] at hcompleted
  obtain ⟨rfl, -⟩ := Prod.mk.inj (Except.ok.inj hcompleted)
  refine calendarPerform_congr hname ?_ ?_ ?_
  · simp [confirmedBooking, hrestored, hbooking, hconfirmed]
  · let paid : StubPaymentRequest := { payment with status := "completed" }
    let restored : StubPaymentRequest := { paid with currency := R.upper payment.currency }
    exact (paidBooking_setItem restored rfl rfl).trans (paidBooking_setItem paid rfl rfl).symm
  · simp [bookedSlot, hrestored, hbooking]

end

/-! ### Samples -/

/-- A runtime in which the text of the parameters is the slot. -/
def sampleRuntime : StubRuntime where
  fields parameters :=
    [("customer_id", .string "customer"), ("slot", .string parameters.text),
      ("booking_reference", .string (bookingReference "first")),
      ("starts_at", .string parameters.text), ("title", .string "visit")]
  result _ := ""
  fact _ _ := ""
  conflict _ _ _ _ := ""
  upper text := text
  fromisoformat _ := .ok 0
  addDays now _ := .ok now

/-- A proposal of a slot. -/
def sampleBooking (key slot : String) : ProviderRequest where
  actionType := "propose_booking"
  parameters := ⟨slot, 2⟩
  idempotencyKey := key

/-- Two proposals, one of which is delivered again. -/
def sampleProposals : List BusinessInput :=
  [.deliver (.booking, sampleBooking "first" "monday"),
    .deliver (.booking, sampleBooking "second" "tuesday"),
    .deliver (.booking, sampleBooking "first" "monday")]

/-- The state before them. -/
def sampleBusiness : StubBusinessState where
  now := 0
  availableSlots := ["monday", "tuesday"]

/-- What the adapter answers to a proposal. -/
def sampleBooked (key : String) : ProviderActionResult := ⟨bookingReference key, "", ["", "", ""]⟩

/-- Both are confirmed, and the first holds its slot after all three deliveries. -/
theorem bookings_exclusive_two :
    ((.booking, sampleBooking "first" "monday"), .success (sampleBooked "first"))
        ∈ (businessWorld sampleRuntime).trace { state := sampleBusiness } sampleProposals ∧
    ((.booking, sampleBooking "second" "tuesday"), .success (sampleBooked "second"))
        ∈ (businessWorld sampleRuntime).trace { state := sampleBusiness } sampleProposals ∧
    ((businessWorld sampleRuntime).run { state := sampleBusiness }
      sampleProposals).state.bookings.lookup (bookingReference "first")
      = some ⟨"customer", "monday", "confirmed"⟩ := by
  have hprefixes : PrefixesApart sampleProposals := by
    intro q q' hq hq' hkey
    simp only [sampleProposals, List.mem_cons, Input.deliver.injEq, Prod.mk.injEq, true_and,
      List.not_mem_nil, or_false] at hq hq'
    rcases hq with rfl | rfl | rfl <;> rcases hq' with rfl | rfl | rfl <;>
      first | exact ⟨rfl, rfl, rfl⟩ | exact absurd hkey (by decide +kernel)
  have hfirst : ((businessWorld sampleRuntime).execute
      (.booking, sampleBooking "first" "monday") { state := sampleBusiness }).1
        = .success (sampleBooked "first") := by decide +kernel
  have hsecond : ((businessWorld sampleRuntime).execute
      (.booking, sampleBooking "second" "tuesday")
      ((businessWorld sampleRuntime).execute (.booking, sampleBooking "first" "monday")
        { state := sampleBusiness }).2).1 = .success (sampleBooked "second") := by decide +kernel
  have hmem : ((.booking, sampleBooking "first" "monday"), .success (sampleBooked "first"))
      ∈ (businessWorld sampleRuntime).trace { state := sampleBusiness } sampleProposals := by
    rw [sampleProposals, Service.trace, hfirst]
    exact List.mem_cons_self
  refine ⟨hmem, ?_, ?_⟩
  · rw [sampleProposals, Service.trace, Service.trace, hsecond]
    exact List.mem_cons_of_mem _ List.mem_cons_self
  · obtain ⟨customerId, slot, hrequested, hbooking⟩ :=
      (bookings_exclusive hprefixes sampleBusiness).1 _ _ hmem rfl
    have hsame : requestedBooking sampleRuntime (sampleBooking "first" "monday")
        = some ("customer", "monday") := by decide +kernel
    rw [hsame] at hrequested
    cases hrequested
    exact hbooking

/-- A state with a confirmed booking and its payment. -/
def sampleRequested : StubBusinessState :=
  { sampleBusiness with
    bookings := [(bookingReference "first", ⟨"customer", "monday", "confirmed"⟩)]
    paymentRequests := [("payment", ⟨bookingReference "first", 100, "EUR", "pending"⟩)] }

/-- The request for the calendar event of the booking. -/
def sampleVisit : ProviderRequest where
  actionType := "create_calendar_event"
  parameters := ⟨"monday", 5⟩
  idempotencyKey := "visit"

/-- The restarted provider creates the calendar event, as the old one would have done. -/
theorem calendar_after_restart_visit : ∃ state' event,
    sampleRequested.completePayment "payment" = .ok (state', event) ∧
    (calendarPerform sampleRuntime sampleVisit state').toOption.isSome = true ∧
    (calendarPerform sampleRuntime sampleVisit
      (sampleBusiness.applyEvent sampleRuntime event [("booking.slot", .string "monday")])).map Prod.fst
      = (calendarPerform sampleRuntime sampleVisit state').map Prod.fst := by
  have hpayment : sampleRequested.paymentRequests.lookup "payment"
      = some ⟨bookingReference "first", 100, "EUR", "pending"⟩ := by decide +kernel
  have hbooking : sampleRequested.bookings.lookup (bookingReference "first")
      = some ⟨"customer", "monday", "confirmed"⟩ := by decide +kernel
  have hname : requireString (sampleRuntime.fields sampleVisit.parameters) "booking_reference"
      = .ok (bookingReference "first") := by decide +kernel
  exact ⟨_, _, rfl, by decide +kernel,
    calendar_after_restart hpayment hbooking rfl rfl (by decide) rfl rfl rfl hname⟩

end TiramisuAgents
