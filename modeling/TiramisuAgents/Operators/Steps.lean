import TiramisuAgents.Events.Steps
import TiramisuAgents.Operators.Calls

/-!
What one statement of a command, or of another service, does.

* `Step`, `Step.of_next`: the kinds of statements, with what they have checked.
* `Step.control_frame` and the lemmas after it: what a statement leaves as it is if its call does
  not hold the lock.
-/

namespace TiramisuAgents.Operators

open Json Tables

section

variable {F : Type} [FloatValues F]

/-- A step of a call. -/
inductive Step (P : Platform F) : Stage F → CallInput F → Database F → Stage F → Database F →
    List (Command F) → Prop
  | halt {t t' : Stage F} {x : CallInput F} {db : Database F} (resting : t'.resting = true) :
      Step P t x db t' db []
  | start {t : Stage F} {db : Database F} (c : Call F) (resting : t.resting = true) :
      Step P t (.call c) db c.start db []
  | lockControl {db : Database F} (c : ProcessControlInput) (checked : c.checkReason = .ok ()) :
      Step P (.controlling c .opening) (.answer .go) db (.controlling c .commanded) db []
  | freshControl {db : Database F} (c : ProcessControlInput)
      (unused : lookup ControlRow.id c.commandId db.controls = none) :
      Step P (.controlling c .commanded) (.answer .go) db (.controlling c .unused) db []
  | holdControl {db : Database F} (c : ProcessControlInput) (process : Events.ProcessRow) :
      Step P (.controlling c .unused) (.answer .go) db (.controlling c (.holding process)) db []
  | requireControl {db : Database F} (c : ProcessControlInput) (process : Events.ProcessRow)
      (intervention : Option InterventionRow) (required : c.require process db = .ok intervention) :
      Step P (.controlling c (.holding process)) (.answer .go) db
        (.controlling c (.bound process intervention)) db []
  | applyControl {db : Database F} (c : ProcessControlInput) (process : Events.ProcessRow)
      (intervention : Option InterventionRow) (eventId outboxId : UUID) (now : Time)
      (row : Events.ControlRow) (events : Events.Database) (obs : List Events.IngestionEvent)
      (unused : lookup ControlRow.id c.commandId db.controls = none)
      (step : Events.Step ⟨P.tenantId⟩
        (.controlling (c.input (intervention.map InterventionRow.sources)) (.holding process))
        (.answer (.fresh eventId outboxId now)) db.events (.ended (.controlled row)) events obs) :
      Step P (.controlling c (.bound process intervention))
        (.answer (.fresh eventId outboxId now)) db
        (.ended (.controlled (c.row (intervention.map InterventionRow.sources))))
        { db with
          events := events
          controls := db.controls ++ [c.row (intervention.map InterventionRow.sources)]
          interventions := resolveIntervention db intervention c.commandId now } [.control c]
  | lockRequeue {db : Database F} (c : Temporal.RequeueOutboxInput)
      (checked : checkReason c.reason = .ok ()) :
      Step P (.requeueing c .opening) (.answer .go) db (.requeueing c .commanded) db []
  | freshRequeue {db : Database F} (c : Temporal.RequeueOutboxInput)
      (unused : lookup Temporal.RecoveryRow.id c.commandId db.recoveries = none) :
      Step P (.requeueing c .commanded) (.answer .go) db (.requeueing c .unused) db []
  | applyRequeue {db : Database F} (c : Temporal.RequeueOutboxInput) (id id' : UUID) (now : Time)
      (m : Events.OutboxMessage) :
      Step P (.requeueing c .unused) (.answer (.fresh id id' now)) db
        (.ended (.requeued ((strippedRequeue c).row m)))
        (db.withDelivery
          { outbox := modify Events.OutboxMessage.id m.id (Temporal.requeueRow now) db.events.outbox
            recoveries := db.recoveries ++ [(strippedRequeue c).row m] }) [.requeue c]
  | moveQuarantine {db : Database F} (c c' : Events.ResolveQuarantineInput)
      (k k' : Events.Resolving) (x : Events.Answer) (events : Events.Database)
      (obs : List Events.IngestionEvent) (checked : k = .opening → checkReason c.reason = .ok ())
      (step : Events.Step ⟨P.tenantId⟩ (.resolving (strippedResolve c) k) (.answer x) db.events
        (.resolving c' k') events obs)
      (unused : k = .commanded →
        lookup Events.ResolutionRow.id c.commandId db.events.resolutions = none) :
      Step P (.quarantining c k) (.answer x) db (.quarantining c k') { db with events := events } []
  | applyQuarantine {db : Database F} (c : Events.ResolveQuarantineInput)
      (e : Events.CanonicalEvent) (row : Events.InboxRow) (process : Events.ProcessRow)
      (additions : List Events.ExternalReference) (x : Events.Answer) (late : Bool)
      (events : Events.Database)
      (resolutions : events.resolutions
        = db.events.resolutions ++ [(strippedResolve c).row row late])
      (inbox : events.inbox = modify Events.InboxRow.id row.id
        (fun r => r.resolve process.id late) db.events.inbox) :
      Step P (.quarantining c (.bound e row process additions)) (.answer x) db
        (.ended (.quarantined ((strippedResolve c).row row late))) { db with events := events }
        [.quarantine c]
  | foundDecision {db : Database F} (c : OperatorActionResolution F) (stored : DecisionRow F)
      (found : db.decision c.processInstanceId c.actionAttemptId = some stored)
      (same : requireSameDecision stored c = .ok ()) :
      Step P (.reconciling c .opening) (.answer .go) db (.reconciling c .found) db []
  | noDecision {db : Database F} (c : OperatorActionResolution F) :
      Step P (.reconciling c .opening) (.answer .go) db (.reconciling c .unresolved) db []
  | settle {db : Database F} (c : OperatorActionResolution F) (attempt : AttemptRow F)
      (found : db.attempt c.processInstanceId c.actionAttemptId = some attempt) :
      Step P (.reconciling c .unresolved) (.answer .go) db (.reconciling c (.settled attempt)) db []
  | choose {db : Database F} (c : OperatorActionResolution F) (attempt : AttemptRow F)
      (found : db.attempt c.processInstanceId c.actionAttemptId = some attempt)
      (ambiguous : attempt.status.terminal = false) :
      Step P (.reconciling c .unresolved) (.answer .go) db
        (.reconciling c (.deciding attempt)) db []
  | address {db : Database F} (c : OperatorActionResolution F) (attempt : AttemptRow F)
      (workflowId : String) :
      Step P (.reconciling c (.deciding attempt)) (.answer .go) db
        (.reconciling c (.addressed attempt workflowId)) db []
  | applyResolution {db : Database F} (c : OperatorActionResolution F) (attempt : AttemptRow F)
      (workflowId : String) (outboxId id : UUID) (now : Time)
      (unused : lookup DecisionRow.actionAttemptId attempt.id db.decisions = none) :
      Step P (.reconciling c (.addressed attempt workflowId))
        (.answer (.fresh outboxId id now)) db
        (.ended (.resolved (c.apply now attempt).executionResult))
        { db with
          decisions := db.decisions ++ [c.row P attempt]
          attempts := modify AttemptRow.id attempt.id
            (({ c with result := c.result.map P.jsonb } : OperatorActionResolution F).apply now)
            db.attempts
          requests := modify RequestRow.id attempt.actionRequestId
            (fun r => { r with status := c.resolution.status.toRequest }) db.requests
          events := { db.events with
            outbox := Events.enqueue db.events.outbox
              (c.message attempt workflowId outboxId now) } } [.resolution c]
  | event {db : Database F} (t t' : Events.Stage) (x : Events.Answer) (events : Events.Database)
      (obs : List Events.IngestionEvent) (internal : internal t = true)
      (step : Events.Step ⟨P.tenantId⟩ t (.answer x) db.events t' events obs) :
      Step P (.event t) (.answer x) db (if t'.resting then .ended .written else .event t')
        { db with events := events } []
  | delivery {db : Database F} (t t' : Temporal.Stage) (x : Temporal.Answer)
      (outbox : List Events.OutboxMessage) :
      Step P (.delivery t) (.delivered x) db (if t'.resting then .ended .written else .delivery t')
        (db.withDelivery ⟨outbox, db.recoveries⟩) []
  | lockWrite {db : Database F} (w : Write F) :
      Step P (.writing w) (.answer .go) db (.writingLocked w) db []
  | insertAttempt {db : Database F} (row : AttemptRow F) :
      Step P (.writingLocked (.attempt row)) (.answer .go) db (.ended .written)
        { db with attempts := db.attempts ++ [row] } []
  | recordOutcome {db : Database F} (row : AttemptRow F) :
      Step P (.writingLocked (.outcome row)) (.answer .go) db (.ended .written)
        { db with attempts := modify AttemptRow.id row.id row.record db.attempts } []
  | writeRequest {db : Database F} (row : RequestRow) :
      Step P (.writingLocked (.request row)) (.answer .go) db (.ended .written)
        { db with requests := (db.requests.filter fun r => r.id ≠ row.id) ++ [row] } []
  | openIntervention {db : Database F} (row : InterventionRow) :
      Step P (.writingLocked (.intervention row)) (.answer .go) db (.ended .written)
        { db with interventions := db.interventions ++ [{ row with status := .open_ }] } []

namespace Step

variable {P : Platform F} {t t' : Stage F} {x : CallInput F} {db db' : Database F}
  {obs : List (Command F)}

lemma of_stop {o : Outcome F} (h : Stage.stop o db = some (t', db', obs)) :
    Step P t x db t' db' obs := by
  cases h
  exact .halt rfl

lemma of_keep {u : Stage F} (h : u.keep db = some (t', db', obs)) (hu : Step P t x db u db []) :
    Step P t x db t' db' obs := by
  cases h
  exact hu

lemma of_controlling {c : ProcessControlInput} {k : Controlling} {y : Events.Answer}
    (h : k.statement c y db = some (t', db', obs)) :
    Step P (.controlling c k) (.answer y) db t' db' obs := by
  unfold Controlling.statement at h
  split at h
  · split at h
    · exact of_stop h
    · rename_i hchecked
      exact of_keep h (.lockControl c hchecked)
  · split at h
    · exact of_stop h
    · rename_i hunused
      exact of_keep h (.freshControl c hunused)
  · split at h
    · exact of_stop h
    · split_ifs at h
      · exact of_stop h
      · exact of_keep h (.holdControl c _)
  · split at h
    · exact of_stop h
    · rename_i intervention hrequired
      exact of_keep h (.requireControl c _ intervention hrequired)
  · rename_i process intervention eventId outboxId now
    rw [commitControl] at h
    split_ifs at h with hused
    · exact of_stop h
    · split at h
      · rename_i row events obs' hcommit
        cases h
        exact .applyControl c process intervention eventId outboxId now row events obs'
          (by simpa using hused) (Events.Step.of_controlling hcommit)
      · exact of_stop h
      · cases h
  · cases h

lemma of_requeueing {c : Temporal.RequeueOutboxInput} {k : Requeueing} {y : Events.Answer}
    (h : k.statement c y db = some (t', db', obs)) :
    Step P (.requeueing c k) (.answer y) db t' db' obs := by
  unfold Requeueing.statement at h
  split at h
  · split at h
    · exact of_stop h
    · rename_i hchecked
      exact of_keep h (.lockRequeue c hchecked)
  · split at h
    · exact of_stop h
    · rename_i hunused
      exact of_keep h (.freshRequeue c hunused)
  · rename_i id id' now
    rw [Temporal.commitRequeue] at h
    cases hm : lookup Events.OutboxMessage.id (strippedRequeue c).outboxMessageId
        db.delivery.outbox with
    | none =>
        rw [hm] at h
        exact of_stop h
    | some m =>
        rw [hm] at h
        dsimp only at h
        split_ifs at h
        · exact of_stop h
        · exact of_stop h
        · cases h
          exact .applyRequeue c id id' now m
  · cases h

/-- A resolution that goes on has found its identity unused. -/
lemma unused_of_move {c c' : Events.ResolveQuarantineInput} {k' : Events.Resolving}
    {y : Events.Answer} {events events' : Events.Database} {o : List Events.IngestionEvent}
    (h : Events.Resolving.statement c .commanded y events = some (.resolving c' k', events', o)) :
    lookup Events.ResolutionRow.id c.commandId events.resolutions = none := by
  unfold Events.Resolving.statement at h
  split at h
  any_goals contradiction
  split at h
  · rename_i row _
    rw [Events.ResolveQuarantineInput.replay] at h
    split_ifs at h <;> cases h
  · assumption

/-- The commit of a resolution. -/
lemma of_commitResolution {c : Events.ResolveQuarantineInput} {e : Events.CanonicalEvent}
    {row : Events.InboxRow} {process : Events.ProcessRow}
    {additions : List Events.ExternalReference} {id : UUID} {now : Time}
    {events events' : Events.Database} {stored : Events.ResolutionRow}
    {o : List Events.IngestionEvent}
    (h : Events.commitResolution c e row process additions id now events
      = some (.ended (.resolved stored), events', o)) :
    ∃ late, stored = c.row row late ∧ events'.resolutions = events.resolutions ++ [c.row row late] ∧
      events'.inbox = modify Events.InboxRow.id row.id (fun r => r.resolve process.id late)
        events.inbox := by
  rw [Events.commitResolution] at h
  split_ifs at h with hconflict
  · cases h
  · dsimp only at h
    split_ifs at h with hlate
    · cases h
      exact ⟨_, rfl, rfl, rfl⟩
    · split at h
      · cases h
      · cases h
        exact ⟨_, rfl, rfl, rfl⟩

/-- A resolution that ends with a stored row has found it, or commits it. -/
lemma of_resolved {c : Events.ResolveQuarantineInput} {k : Events.Resolving} {y : Events.Answer}
    {events events' : Events.Database} {stored : Events.ResolutionRow}
    {o : List Events.IngestionEvent}
    (h : k.statement c y events = some (.ended (.resolved stored), events', o)) :
    (commits k = false ∧ events' = events) ∨
      ∃ e row process additions late, k = .bound e row process additions ∧
        stored = c.row row late ∧ events'.resolutions = events.resolutions ++ [c.row row late] ∧
        events'.inbox = modify Events.InboxRow.id row.id (fun r => r.resolve process.id late)
          events.inbox := by
  cases k with
  | bound e row process additions =>
      cases y with
      | fresh id id' now =>
          obtain ⟨late, hstored, hevents⟩ := of_commitResolution h
          exact .inr ⟨e, row, process, additions, late, rfl, hstored, hevents⟩
      | go => cases h
      | check error => cases h
  | _ =>
      refine .inl ⟨rfl, ?_⟩
      cases Events.Step.of_resolving (P := ⟨""⟩) h
      rfl

lemma of_quarantining {c : Events.ResolveQuarantineInput} {k : Events.Resolving}
    {y : Events.Answer} (h : quarantineStatement c k y db = some (t', db', obs)) :
    Step P (.quarantining c k) (.answer y) db t' db' obs := by
  rw [quarantineStatement] at h
  split at h
  · exact of_stop h
  · rename_i hchecked
    have hopening : k = .opening → checkReason c.reason = .ok () := by
      intro hk
      rwa [if_pos hk] at hchecked
    split at h
    · rename_i c' k' events o hmove
      cases h
      refine .moveQuarantine c c' k k' y events o hopening (Events.Step.of_resolving hmove) ?_
      rintro rfl
      exact unused_of_move (c := strippedResolve c) hmove
    · rename_i stored events o hend
      cases h
      obtain ⟨hread, rfl⟩ | ⟨e, row, process, additions, late, rfl, rfl, hresolutions, hinbox⟩ :=
        of_resolved hend
      · rw [if_neg (by simp [hread])]
        exact .halt rfl
      · exact .applyQuarantine c e row process additions y late events hresolutions hinbox
    · exact of_stop h
    · cases h

/-- What is not a resolution leaves the resolutions and the rows of the inbox as they are. -/
lemma rows_kept {T : Events.Platform} {e e' : Events.Stage} {y : Events.CallInput}
    {events events' : Events.Database} {o : List Events.IngestionEvent}
    (h : Events.Step T e y events e' events' o) (hquiet : ∀ c k, e ≠ .resolving c k) :
    events'.resolutions = events.resolutions ∧ ∀ id row,
      lookup Events.InboxRow.id id events.inbox = some row →
        lookup Events.InboxRow.id id events'.inbox = some row := by
  cases h with
  | insert _ _ _ _ _ _ _ _ _ _ hwritten =>
      subst hwritten
      exact ⟨rfl, fun id row hrow => lookup_append hrow⟩
  | deliver _ _ _ _ _ _ _ _ _ _ _ _ _ hwritten =>
      subst hwritten
      exact ⟨rfl, fun id row hrow => lookup_append hrow⟩
  | recordResolution => exact absurd rfl (hquiet _ _)
  | deliverResolution => exact absurd rfl (hquiet _ _)
  | wake => exact ⟨rfl, fun id row hrow => lookup_append hrow⟩
  | _ => exact ⟨rfl, fun id row hrow => hrow⟩

lemma of_event {e : Events.Stage} {y : Events.Answer}
    (h : eventStatement P e y db = some (t', db', obs)) :
    Step P (.event e) (.answer y) db t' db' obs := by
  rw [eventStatement] at h
  split_ifs at h with hinternal
  split at h
  · cases h
  · rename_i e' events o hstep
    cases h
    exact .event e e' y events o (by simpa using hinternal)
      (Events.Step.of_next (x := .answer y) hstep)

/-- Dispatchers and producers leave the recovery commands as they are. -/
lemma recoveries_of_dispatching {d d' : Temporal.Stage} {y : Temporal.Answer}
    {delivery delivery' : Temporal.Database} {o : List Temporal.DeliveryEvent}
    (hdispatching : dispatching d = true)
    (h : d.statement y delivery = some (d', delivery', o)) :
    delivery'.recoveries = delivery.recoveries := by
  have hstep : Temporal.Step d (.answer y) delivery d' delivery' o := Temporal.Step.of_next h
  cases hstep with
  | requeue => cases hdispatching
  | _ => rfl

lemma of_delivery {d : Temporal.Stage} {y : Temporal.Answer}
    (h : deliveryStatement d y db = some (t', db', obs)) :
    Step P (.delivery d) (.delivered y) db t' db' obs := by
  rw [deliveryStatement] at h
  split_ifs at h with hdispatching
  split at h
  · cases h
  · rename_i d' delivery o hstep
    cases h
    have hkept : delivery.recoveries = db.recoveries :=
      recoveries_of_dispatching (by simpa using hdispatching) hstep
    obtain ⟨outbox, recoveries⟩ := delivery
    obtain rfl : recoveries = db.recoveries := hkept
    exact .delivery d d' y outbox

lemma of_write {w : Write F} (h : w.commit db = some (t', db', obs)) :
    Step P (.writingLocked w) (.answer .go) db t' db' obs := by
  cases w with
  | attempt row =>
      rw [Write.commit] at h
      split_ifs at h
      · exact of_stop h
      · cases h
        exact .insertAttempt row
  | outcome row =>
      cases h
      exact .recordOutcome row
  | request row =>
      cases h
      exact .writeRequest row
  | intervention row =>
      rw [Write.commit] at h
      split_ifs at h
      · exact of_stop h
      · cases h
        exact .openIntervention row

lemma of_reconciling {c : OperatorActionResolution F} {k : Reconciling F} {y : Events.Answer}
    (h : k.statement P c y db = some (t', db', obs)) :
    Step P (.reconciling c k) (.answer y) db t' db' obs := by
  unfold Reconciling.statement at h
  split at h
  · split at h
    · exact of_keep h (.noDecision c)
    · rename_i stored hfound
      split at h
      · exact of_stop h
      · rename_i hsame
        exact of_keep h (.foundDecision c stored hfound hsame)
  · split at h <;> exact of_stop h
  · split at h
    · exact of_stop h
    · rename_i attempt hfound
      split_ifs at h with hsettled
      · exact of_keep h (.settle c attempt hfound)
      · refine of_keep h (.choose c attempt hfound ?_)
        cases hstatus : attempt.status <;> simp_all [ActionAttemptStatus.terminal]
  · split at h
    · exact of_stop h
    · split at h <;> exact of_stop h
  · split at h
    · exact of_stop h
    · exact of_keep h (.address c _ _)
  · rename_i attempt workflowId outboxId id now
    rw [commitResolution] at h
    split_ifs at h with hused
    · exact of_stop h
    · rw [not_or] at hused
      cases h
      exact .applyResolution c attempt workflowId outboxId id now (by simpa using hused.2)
  · cases h

/-- What a step is. -/
lemma of_next (h : next P t x db = some (t', db', obs)) : Step P t x db t' db' obs := by
  cases x with
  | call c =>
      rw [next] at h
      split_ifs at h with hresting
      exact of_keep h (.start c hresting)
  | crash =>
      cases h
      exact .halt rfl
  | answer y =>
      rw [next] at h
      unfold Stage.statement at h
      split at h
      · exact of_controlling h
      · exact of_requeueing h
      · exact of_quarantining h
      · exact of_reconciling h
      · exact of_event h
      · exact of_keep h (.lockWrite _)
      · exact of_write h
      · cases h
  | delivered y =>
      cases t with
      | delivery d => exact of_delivery h
      | _ => cases h

/-! ### What a step leaves as it is -/

/-- Control commands are stored under their advisory lock. -/
lemma control_frame {id : UUID} (h : Step P t x db t' db' obs)
    (hlock : .event (.control id) ∉ t.locks) :
    lookup ControlRow.id id db'.controls = lookup ControlRow.id id db.controls := by
  cases h with
  | applyControl c process intervention =>
      refine lookup_concat_of_ne fun hid => hlock ?_
      rw [← hid]
      exact List.mem_append_left _ List.mem_cons_self
  | _ => rfl

/-- Recovery commands are stored under their advisory lock. -/
lemma requeue_frame {id : UUID} (h : Step P t x db t' db' obs) (hlock : .requeue id ∉ t.locks) :
    lookup Temporal.RecoveryRow.id id db'.recoveries
      = lookup Temporal.RecoveryRow.id id db.recoveries := by
  cases h with
  | applyRequeue c =>
      refine lookup_concat_of_ne fun hid => hlock ?_
      rw [← hid]
      exact List.mem_cons_self
  | _ => rfl

/-- A resolution goes on without a commit. -/
lemma events_of_move {T : Events.Platform} {c c' : Events.ResolveQuarantineInput}
    {k k' : Events.Resolving} {y : Events.Answer} {events events' : Events.Database}
    {o : List Events.IngestionEvent}
    (h : Events.Step T (.resolving c k) (.answer y) events (.resolving c' k') events' o) :
    events' = events := by
  cases h <;> rfl

/-- Resolutions of events are stored under their advisory lock. -/
lemma resolution_frame {id : UUID} (h : Step P t x db t' db' obs)
    (hlock : .event (.command id) ∉ t.locks) :
    lookup Events.ResolutionRow.id id db'.events.resolutions
      = lookup Events.ResolutionRow.id id db.events.resolutions := by
  cases h with
  | applyControl _ _ _ _ _ _ _ _ _ _ hstep =>
      dsimp only
      rw [(rows_kept hstep (by simp)).1]
  | moveQuarantine _ _ _ _ _ _ _ _ hstep => rw [events_of_move hstep]
  | applyQuarantine c e row process additions x late events hresolutions =>
      dsimp only
      rw [hresolutions]
      refine lookup_concat_of_ne fun hid => hlock ?_
      rw [← hid]
      simp [Stage.locks, Events.Resolving.locks, Events.ResolveQuarantineInput.row]
  | event e e' x events o hinternal hstep =>
      dsimp only
      rw [(rows_kept hstep fun c k hk => by rw [hk] at hinternal; cases hinternal).1]
  | _ => rfl

/-- The row of an event is rewritten under its lock. -/
lemma inbox_frame {id : UUID} {row : Events.InboxRow} (h : Step P t x db t' db' obs)
    (hown : ∀ c e row process additions, t = .quarantining c (.bound e row process additions) →
      row.id = c.eventId)
    (hlock : .event (.row id) ∉ t.locks)
    (hrow : lookup Events.InboxRow.id id db.events.inbox = some row) :
    lookup Events.InboxRow.id id db'.events.inbox = some row := by
  cases h with
  | applyControl _ _ _ _ _ _ _ _ _ _ hstep => exact (rows_kept hstep (by simp)).2 id row hrow
  | moveQuarantine _ _ _ _ _ _ _ _ hstep => rwa [events_of_move hstep]
  | applyQuarantine c e row' process additions x late events hresolutions hinbox =>
      have hother : id ≠ row'.id := by
        rintro rfl
        rw [hown c e row' process additions rfl] at hlock
        exact hlock (by simp [Stage.locks, Events.Resolving.locks, strippedResolve])
      dsimp only
      rw [hinbox]
      exact lookup_modify_of_ne (fun _ => rfl) hother hrow
  | event e e' x events o hinternal hstep =>
      exact (rows_kept hstep fun c k hk => by rw [hk] at hinternal; cases hinternal).2 id row hrow
  | _ => exact hrow

/-- An intervention is resolved under its lock. -/
lemma intervention_frame {id : UUID} {row : InterventionRow} (h : Step P t x db t' db' obs)
    (hlock : .intervention id ∉ t.locks)
    (hrow : lookup InterventionRow.id id db.interventions = some row) :
    lookup InterventionRow.id id db'.interventions = some row := by
  cases h with
  | applyControl c process intervention eventId outboxId now =>
      dsimp only
      cases intervention with
      | none => exact hrow
      | some resolved =>
          have hother : id ≠ resolved.id := by
            rintro rfl
            exact hlock (by simp [Stage.locks, Controlling.locks])
          exact lookup_modify_of_ne (fun _ => rfl) hother hrow
  | openIntervention row' => exact lookup_append hrow
  | _ => exact hrow

omit [FloatValues F] in
lemma record_id (row a : AttemptRow F) : (row.record a).id = a.id := by
  rw [AttemptRow.record]
  split_ifs <;> rfl

/-- An attempt is written under its lock. -/
lemma attempt_frame {id : UUID} {a : AttemptRow F} (h : Step P t x db t' db' obs)
    (hlock : .attempt id ∉ t.locks) (ha : lookup AttemptRow.id id db.attempts = some a) :
    lookup AttemptRow.id id db'.attempts = some a := by
  cases h with
  | applyResolution c attempt =>
      have hother : id ≠ attempt.id := by
        rintro rfl
        exact hlock (by simp [Stage.locks, Reconciling.locks])
      exact lookup_modify_of_ne (fun _ => rfl) hother ha
  | insertAttempt row => exact lookup_append ha
  | recordOutcome row =>
      have hother : id ≠ row.id := by
        rintro rfl
        exact hlock (by simp [Stage.locks, Write.lock])
      exact lookup_modify_of_ne (record_id row) hother ha
  | _ => exact ha

/-- Decisions stay. -/
lemma decision_kept {id : UUID} {d : DecisionRow F} (h : Step P t x db t' db' obs)
    (hd : lookup DecisionRow.actionAttemptId id db.decisions = some d) :
    lookup DecisionRow.actionAttemptId id db'.decisions = some d := by
  cases h with
  | applyResolution => exact lookup_append hd
  | _ => exact hd

end Step

end

end TiramisuAgents.Operators
