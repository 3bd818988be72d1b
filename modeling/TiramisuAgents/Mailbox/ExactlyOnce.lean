import TiramisuAgents.Mailbox.Runs

/-!
Exactly-once consumption of the mailbox's four kinds of message.

Every message of a run is in the log twice, as a signal received and as a source popped.
The invariant says that the log and the four inboxes agree (`Accounted`); it is a ledger
per kind, with the events classified by their type and the other kinds in one class.

* `accounted_invariant`: each input and each step of the workflow code keeps the ledgers.
* `mailbox_exactly_once`: at every point of every run, across rollovers, each received
  identity waits or was taken, once; each kind is taken in order of arrival.
-/

namespace TiramisuAgents

open Coroutine Inbox

/-! ### Messages in the log -/

/-- The signals of a log. -/
def signals (log : List Obs) : List Signal :=
  log.filterMap fun | .received signal => some signal | _ => none

/-- The messages taken in a log. -/
def sources (log : List Obs) : List Source :=
  log.filterMap fun | .popped source => some source | _ => none

/-- The event a source is. -/
def Source.event? : Source → Option MailboxEvent
  | .event _ message => some message
  | _ => none

/-- The review a source is. -/
def Source.review? : Source → Option MailboxReview
  | .review message => some message
  | _ => none

/-- The resolution a source is. -/
def Source.resolution? : Source → Option MailboxActionResolution
  | .actionResolution message => some message
  | _ => none

/-- The control a source is. -/
def Source.control? : Source → Option MailboxControl
  | .control message => some message
  | _ => none

/-- The messages of one kind received in a log. -/
def received {α : Type} (kind : Signal → Option α) (log : List Obs) : List α :=
  (signals log).filterMap kind

/-- The messages of one kind taken in a log. -/
def popped {α : Type} (kind : Source → Option α) (log : List Obs) : List α :=
  (sources log).filterMap kind

section

variable {α : Type} {kind : Signal → Option α} {skind : Source → Option α} {log : List Obs}

lemma received_concat (s : Signal) :
    received kind (log ++ [.received s]) = received kind log ++ (kind s).toList := by
  simp only [received, signals, List.filterMap_append, List.filterMap_cons, List.filterMap_nil]
  cases kind s <;> rfl

lemma popped_concat (s : Source) :
    popped skind (log ++ [.popped s]) = popped skind log ++ (skind s).toList := by
  simp only [popped, sources, List.filterMap_append, List.filterMap_cons, List.filterMap_nil]
  cases skind s <;> rfl

lemma received_concat_of_internal {o : Obs} (ho : o.Internal) :
    received kind (log ++ [o]) = received kind log := by
  cases ho <;> simp [received, signals]

lemma popped_concat_of_internal {o : Obs} (ho : o.Internal) :
    popped skind (log ++ [o]) = popped skind log := by
  cases ho <;> simp [popped, sources]

lemma received_concat_popped (s : Source) :
    received kind (log ++ [.popped s]) = received kind log := by
  simp [received, signals]

lemma popped_concat_received (s : Signal) :
    popped skind (log ++ [.received s]) = popped skind log := by
  simp [popped, sources]

lemma received_concat_committed (c : Commit) :
    received kind (log ++ [.committed c]) = received kind log := by
  simp [received, signals]

lemma popped_concat_committed (c : Commit) :
    popped skind (log ++ [.committed c]) = popped skind log := by
  simp [popped, sources]

end

/-! ### The invariant -/

/-- The log and the inboxes of a mailbox agree. -/
structure Accounted (log : List Obs) (m : Mailbox) : Prop where
  events : Ledger MailboxEvent.eventId MailboxEvent.eventType (received Signal.event? log)
    (popped Source.event? log) m.events
  reviews : Ledger MailboxReview.commandId (fun _ => ()) (received Signal.review? log)
    (popped Source.review? log) m.reviews
  actionResolutions : Ledger MailboxActionResolution.commandId (fun _ => ())
    (received Signal.resolution? log) (popped Source.resolution? log) m.actionResolutions
  controls : Ledger MailboxControl.commandId (fun _ => ()) (received Signal.control? log)
    (popped Source.control? log) m.controls

namespace Accounted

variable {log log' : List Obs} {m m' : Mailbox}

/-- The ledgers depend on the messages of the log and the inboxes only. -/
lemma congr (h : Accounted log m)
    (hreceived : ∀ {α : Type} (kind : Signal → Option α), received kind log' = received kind log)
    (hpopped : ∀ {α : Type} (kind : Source → Option α), popped kind log' = popped kind log)
    (he : m'.events = m.events) (hr : m'.reviews = m.reviews)
    (ha : m'.actionResolutions = m.actionResolutions) (hc : m'.controls = m.controls) :
    Accounted log' m' := by
  refine ⟨?_, ?_, ?_, ?_⟩
  · rw [hreceived, hpopped, he]
    exact h.events
  · rw [hreceived, hpopped, hr]
    exact h.reviews
  · rw [hreceived, hpopped, ha]
    exact h.actionResolutions
  · rw [hreceived, hpopped, hc]
    exact h.controls

/-- A signal keeps the ledgers. -/
lemma handle (h : Accounted log m) (s : Signal) :
    Accounted (log ++ [.received s]) (m.handle s) := by
  refine ⟨?_, ?_, ?_, ?_⟩ <;> rw [received_concat, popped_concat_received] <;> cases s
  all_goals simp only [Signal.event?, Signal.review?, Signal.resolution?, Signal.control?,
    Option.toList_none, Option.toList_some, List.append_nil]
  all_goals first
    | exact h.events.receive _
    | exact h.reviews.receive _
    | exact h.actionResolutions.receive _
    | exact h.controls.receive _
    | exact h.events
    | exact h.reviews
    | exact h.actionResolutions
    | exact h.controls

/-- Taking an available message keeps the ledgers. -/
lemma take (h : Accounted log m) {source : Source} (hs : source.Available m) :
    Accounted (log ++ [.popped source]) (source.pop m) := by
  have hnone : ∀ {α : Type} (kind : Source → Option α), kind source = none →
      popped kind (log ++ [.popped source]) = popped kind log := by
    intro α kind hk
    rw [popped_concat, hk, Option.toList_none, List.append_nil]
  cases source with
  | event index message =>
      refine ⟨?_, ?_, ?_, ?_⟩ <;> rw [received_concat_popped]
      · rw [popped_concat]
        exact h.events.pop hs.1 hs.2
      · rw [hnone _ rfl]
        exact h.reviews
      · rw [hnone _ rfl]
        exact h.actionResolutions
      · rw [hnone _ rfl]
        exact h.controls
  | review message =>
      refine ⟨?_, ?_, ?_, ?_⟩ <;> rw [received_concat_popped]
      · rw [hnone _ rfl]
        exact h.events
      · rw [popped_concat]
        exact h.reviews.pop hs (by simp)
      · rw [hnone _ rfl]
        exact h.actionResolutions
      · rw [hnone _ rfl]
        exact h.controls
  | actionResolution message =>
      refine ⟨?_, ?_, ?_, ?_⟩ <;> rw [received_concat_popped]
      · rw [hnone _ rfl]
        exact h.events
      · rw [hnone _ rfl]
        exact h.reviews
      · rw [popped_concat]
        exact h.actionResolutions.pop hs (by simp)
      · rw [hnone _ rfl]
        exact h.controls
  | control message =>
      refine ⟨?_, ?_, ?_, ?_⟩ <;> rw [received_concat_popped]
      · rw [hnone _ rfl]
        exact h.events
      · rw [hnone _ rfl]
        exact h.reviews
      · rw [hnone _ rfl]
        exact h.actionResolutions
      · rw [popped_concat]
        exact h.controls.pop hs (by simp)

end Accounted

/-- The fields a snapshot relies on, through an update. -/
lemma Mailbox.Coherent.update {m : Mailbox} (h : m.Coherent) (u : Update) :
    (u.apply m).Coherent := by
  cases u with
  | addPendingAction actionRequestId =>
      rw [Update.apply]
      split
      · exact h
      · exact ⟨h.timer, h.limit⟩
  | clearWakePlan => exact ⟨rfl, h.limit⟩
  | park interaction => exact ⟨rfl, h.limit⟩
  | installPlan decisionId wakes => exact ⟨rfl, h.limit⟩
  | start => exact ⟨h.timer, h.limit⟩
  | appendWakeRecord record => exact ⟨h.timer, h.limit⟩
  | appendTurnRecord record => exact ⟨h.timer, h.limit⟩
  | appendExecutionRecord record => exact ⟨h.timer, h.limit⟩
  | close => exact ⟨h.timer, h.limit⟩
  | removePendingAction actionRequestId => exact ⟨h.timer, h.limit⟩
  | beginTurn => exact ⟨h.timer, h.limit⟩
  | endTurn => exact ⟨h.timer, h.limit⟩

lemma Mailbox.Coherent.handle {m : Mailbox} (h : m.Coherent) (s : Signal) :
    (m.handle s).Coherent := by
  cases s with
  | replaceWakePlan plan => exact ⟨rfl, h.limit⟩
  | receiveEvent event => exact ⟨h.timer, h.limit⟩
  | receiveReview review => exact ⟨h.timer, h.limit⟩
  | receiveActionResolution resolution => exact ⟨h.timer, h.limit⟩
  | receiveControl control => exact ⟨h.timer, h.limit⟩
  | close => exact ⟨h.timer, h.limit⟩

/-- A mailbox whose `run` has started and whose snapshot can be restored. -/
structure Steady (w : World Runtime Obs) : Prop where
  running : w.self.running = true
  coherent : w.self.mailbox.Coherent

/-- The fields a snapshot relies on are in order at every step. -/
lemma steady_invariant : Invariant Steady where
  absorb := by
    intro i w h
    cases i with
    | signal s => exact ⟨h.running, h.coherent.handle s⟩
    | reply reply => exact ⟨h.running, h.coherent⟩
    | task now suggested => exact ⟨h.running, h.coherent⟩
    | commit c => exact ⟨h.running, h.coherent⟩
  update := fun u _ h => ⟨h.running, h.coherent.update u⟩
  draw := fun h => ⟨h.running, h.coherent⟩
  observe := fun _ _ h => ⟨h.running, h.coherent⟩
  take := by
    intro w source h _
    cases source <;> exact ⟨h.running, h.coherent.timer, h.coherent.limit⟩

/-- **The ledgers are an invariant**: signals, workflow code and what others commit keep the
log and the inboxes in agreement. -/
theorem accounted_invariant : Invariant fun w => Accounted w.log w.self.mailbox where
  absorb := by
    intro i w h
    cases i with
    | signal s => exact h.handle s
    | reply reply => simpa [Handler.step, environment] using h
    | task now suggested => simpa [Handler.step, environment] using h
    | commit c =>
        exact h.congr (fun _ => received_concat_committed c) (fun _ => popped_concat_committed c)
          rfl rfl rfl rfl
  update := fun u _ h => h.congr (fun _ => rfl) (fun _ => rfl) (u.apply_events _)
    (u.apply_reviews _) (u.apply_actionResolutions _) (u.apply_controls _)
  draw := id
  observe := fun ho _ h => h.congr (fun _ => received_concat_of_internal ho)
    (fun _ => popped_concat_of_internal ho) rfl rfl rfl rfl
  take := fun h hs => h.take (Mailbox.nextBranch_available hs)

/-! ### Exactly once -/

/-- The messages of one kind are consumed exactly once, in order of arrival within a class:
a received key waits in the buffer or has been taken, once and not both; the seen keys are
the disjoint union of those that wait and those taken; and what was taken of a class is a
first part of what arrived of it. -/
structure ExactlyOnce {α γ : Type} [DecidableEq γ] (key : α → String) (cls : α → γ)
    (received popped : List α) (b : Inbox α String) : Prop where
  once : ∀ k ∈ received.map key, (b.buffer.map key).count k + (popped.map key).count k = 1
  seen : b.seen = (b.buffer.map key).toFinset ∪ (popped.map key).toFinset
  disjoint : Disjoint (b.buffer.map key).toFinset (popped.map key).toFinset
  order : ∀ t, popped.filter (cls · = t) <+: (admitted key received).filter (cls · = t)

lemma ExactlyOnce.of_ledger {α γ : Type} [DecidableEq γ] {key : α → String} {cls : α → γ}
    {received popped : List α} {b : Inbox α String} (h : Ledger key cls received popped b) :
    ExactlyOnce key cls received popped b :=
  ⟨fun _ hk => h.count_add hk, h.seen_eq, h.disjoint, h.popped_isPrefix⟩

/-- The mailbox of a world: for a run that has not started, the state it will restore. -/
def currentMailbox (iso : IsoCodec) (rt : Runtime) : Option Mailbox :=
  if rt.running then some rt.mailbox else (rt.mailbox.beginRun iso rt.input).toOption

/-- The four kinds of a mailbox are consumed exactly once: events in order of arrival within
their type, the others in order of arrival. -/
structure ConsumesExactlyOnce (log : List Obs) (m : Mailbox) : Prop where
  events : ExactlyOnce MailboxEvent.eventId MailboxEvent.eventType
    (received Signal.event? log) (popped Source.event? log) m.events
  reviews : ExactlyOnce MailboxReview.commandId (fun _ => ())
    (received Signal.review? log) (popped Source.review? log) m.reviews
  actionResolutions : ExactlyOnce MailboxActionResolution.commandId (fun _ => ())
    (received Signal.resolution? log) (popped Source.resolution? log) m.actionResolutions
  controls : ExactlyOnce MailboxControl.commandId (fun _ => ())
    (received Signal.control? log) (popped Source.control? log) m.controls

lemma Accounted.consumesExactlyOnce {log : List Obs} {m : Mailbox} (h : Accounted log m) :
    ConsumesExactlyOnce log m :=
  ⟨.of_ledger h.events, .of_ledger h.reviews, .of_ledger h.actionResolutions,
    .of_ledger h.controls⟩

/-- A steady mailbox whose ledgers agree with the log. -/
structure Sound (w : World Runtime Obs) : Prop where
  steady : Steady w
  accounted : Accounted w.log w.self.mailbox

lemma sound_invariant : Invariant Sound where
  absorb := fun i _ h =>
    ⟨steady_invariant.absorb i h.steady, accounted_invariant.absorb i h.accounted⟩
  update := fun u _ h =>
    ⟨steady_invariant.update u h.steady, accounted_invariant.update u h.accounted⟩
  draw := fun h => ⟨steady_invariant.draw h.steady, accounted_invariant.draw h.accounted⟩
  observe := fun ho _ h =>
    ⟨steady_invariant.observe ho h.steady, accounted_invariant.observe ho h.accounted⟩
  take := fun h hs => ⟨steady_invariant.take h.steady hs, accounted_invariant.take h.accounted hs⟩

/-- Soundness of the mailbox survives every run; of a run that waits to start, of what it
will restore. -/
lemma wp_run_sound (iso : IsoCodec) {input : MailboxInput} (hinput : input.continuation = {})
    (uuids : ℕ → String) (rounds : ℕ) :
    wp (fun _ => True) (run iso input rounds)
      ⟨fun _ => Sound, fun _ => Sound, fun l w => Sound w ∨ l = .start ∧ Restarting iso Sound w⟩
      (initialWorld input uuids) := by
  refine wp_run (fun _ _ _ _ => trivial) (fun w h => h.steady.coherent) ?_
    (fun i w h _ => sound_invariant.absorb i h) ?_ (fun w h => Or.inr ⟨rfl, h⟩)
    (fun w h => Or.inl h)
    (fun w h _ => h) hinput uuids ?_ rounds
  · intro w h _
    exact ⟨⟨rfl, h.steady.coherent.timer, h.steady.coherent.limit⟩,
      h.accounted.congr (fun _ => rfl) (fun _ => rfl) rfl rfl rfl rfl⟩
  · intro w h hc
    exact wp_mono (sound_invariant.iteration.wp h) (fun _ _ _ _ h => h) (fun _ _ _ _ h => h)
      fun _ _ _ _ h => .inl h
  · exact ⟨⟨rfl, rfl, le_max_left _ _⟩, ⟨.empty, .empty, .empty, .empty⟩⟩

/-- The mailbox consumes its messages exactly once at every point of every run. -/
lemma run_consumes (iso : IsoCodec) {input : MailboxInput} (hinput : input.continuation = {})
    (uuids : ℕ → String) (rounds : ℕ) (script : List Input) :
    let w := ((run iso input rounds).run script (initialWorld input uuids)).world
    ∃ m, currentMailbox iso w.self = some m ∧ ConsumesExactlyOnce w.log m := by
  have hsound : ∀ w, Sound w →
      ∃ m, currentMailbox iso w.self = some m ∧ ConsumesExactlyOnce w.log m := by
    intro w h
    exact ⟨w.self.mailbox, if_pos h.steady.running, h.accounted.consumesExactlyOnce⟩
  have h := wp_run_sound iso hinput uuids rounds script
  revert h
  cases (run iso input rounds).run script (initialWorld input uuids) with
  | done a w rest => exact fun h => hsound w (h trivial)
  | raised e w rest => exact fun h => hsound w (h trivial)
  | blocked l w =>
      intro h
      rcases h trivial with h | ⟨-, hrun, m, hm, h⟩
      · exact hsound w h
      · refine ⟨m, ?_, h.accounted.consumesExactlyOnce⟩
        simp [Res.world, currentMailbox, hrun, hm, Except.toOption]

/-- **Exactly-once consumption**: whatever the script delivers and answers, and however
often the run continues as new, each of the four kinds of message is consumed exactly once
and in order. -/
theorem mailbox_exactly_once (iso : IsoCodec) (tenantId processInstanceId : String)
    (processDefinitionId processDefinitionVersion : Option String)
    (continueAsNewAfterTurns : ℤ) (uuids : ℕ → String) (rounds : ℕ) (script : List Input) :
    let input := MailboxInput.first tenantId processInstanceId processDefinitionId
      processDefinitionVersion continueAsNewAfterTurns
    let w := ((run iso input rounds).run script (initialWorld input uuids)).world
    ∃ m, currentMailbox iso w.self = some m ∧ ConsumesExactlyOnce w.log m := by
  intro input
  exact run_consumes iso (rfl : input.continuation = {}) uuids rounds script

end TiramisuAgents
