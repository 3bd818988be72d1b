import TiramisuAgents.Actions.Replays
import TiramisuAgents.Operators.Calls
import TiramisuAgents.Temporal.Delivery
import TiramisuAgents.Tenancy.Moves

/-!
What the signals of a tenant are about.

A call writes its rows and its message in one commit, the rows are only added to, and a dispatcher
sends what it has claimed, possibly again after it was published.  So what a workflow is told is
about rows of its own process, whatever call crashes, is repeated or interleaves with others.

* `Recorded`, `Recorded.kept`: a process has what a signal is about, and no statement takes it away.
* `Grounded`, `Step.message_cases`: the messages, and what a step enqueues.
* `Signalled`: the invariant.
* `signals_recorded`: no workflow receives a signal about something that its process has not.
-/

namespace TiramisuAgents.Tenancy

open Transactions Tables
open Events (OutboxMessage Payload Production decodeSignal)

variable {V : Type} {N : ℕ}

/-! ### What a signal is about -/

/-- The process has what a signal is about: an event of its inbox, the message of a review of one of
its actions, a control command with its type and its sources, or an attempt that an operator has
resolved so. -/
def Recorded (T : Tenant V) (log : List (TenantEvent V)) (p : TenantProcess V) : Signal → Prop
  | .receiveEvent e => ∃ r ∈ p.rows.inbox, r.id = e.eventId
  | .receiveReview c =>
      T.thread c.actionRequestId = c.reviewThreadId ∧
      ∃ row, (p.rows.view c.actionRequestId).messages c.commandId = some row ∧
        row.messageType.value = c.commandType ∧ (row.proposalRevision : ℤ) = c.proposalRevision
  | .receiveActionResolution r => ∃ key resolution,
      T.attempt r.actionRequestId key = r.actionAttemptId ∧
      Operators.resolutionValue resolution = r.status ∧
      .process p.id (.action r.actionRequestId (.resolved key resolution.status)) ∈ log
  | .receiveControl c => ∃ row ∈ p.rows.controls, row.id = c.commandId ∧
      Operators.controlTypeValue row.commandType = c.commandType ∧
      (row.payload.map turnSources).getD {} = c.sources
  | .replaceWakePlan _ | .close => False

/-- The content of a message is addressed to the workflow of a process that has what its signal is
about. -/
def Grounded (T : Tenant V) (db : Database V) (log : List (TenantEvent V))
    (destination messageType : String) (payload : Payload) : Prop :=
  ∃ p, db.process p.id = some p ∧ p.workflowId = destination ∧
    ∀ signal, decodeSignal messageType payload = .ok signal → Recorded T log p signal

/-- The workflow of a process. -/
def Tenant.workflowId (T : Tenant V) (processId : UUID) : String :=
  s!"tenant/{T.tenantId}/process/{processId}"

/-- Every process has its workflow, and every message and every taken signal is grounded. -/
structure Signalled (T : Tenant V) (db : Database V) (log : List (TenantEvent V)) : Prop where
  workflows : ∀ id p, db.process id = some p → p.workflowId = T.workflowId id
  messages : ∀ m ∈ db.delivery.outbox, Grounded T db log m.destination m.messageType m.payload
  taken : ∀ workflowId signal, .delivery (.taken workflowId signal) ∈ log →
    ∃ p, db.process p.id = some p ∧ p.workflowId = workflowId ∧ Recorded T log p signal

/-- What a call knows: a call on a process is one of it, and a claim is grounded. -/
def Stage.Supported (T : Tenant V) (db : Database V) (log : List (TenantEvent V)) :
    Stage V N → Prop
  | .process _ u => u.Exposed
  | .delivery (.claimed _ c) => Grounded T db log c.destination c.messageType c.payload
  | .delivery (.producing _) => False
  | _ => True

/-! ### What stays -/

section

variable [BEq V] {S : Services V} {u u' : ProcessStage V} {x : ProcessInput V}
  {w w' : ProcessDatabase V} {obs : List (ProcessEvent V)}

lemma inbox_kept (h : ProcessStep S u x w u' w' obs) {id : UUID}
    (hid : ∃ r ∈ w.inbox, r.id = id) : ∃ r ∈ w'.inbox, r.id = id := by
  obtain ⟨r, hr, rfl⟩ := hid
  cases h with
  | control c reason row write eventId recordedAt =>
      refine ⟨r, ?_, rfl⟩
      dsimp only
      split_ifs
      · exact List.mem_append_left _ hr
      · exact hr
  | ingestPending => exact ⟨r, List.mem_append_left _ hr, rfl⟩
  | ingest => exact ⟨r, List.mem_append_left _ hr, rfl⟩
  | resolveEvent eventId =>
      refine ⟨_, List.mem_map_of_mem hr, ?_⟩
      split_ifs <;> rfl
  | _ => exact ⟨r, hr, rfl⟩

lemma controls_kept (h : ProcessStep S u x w u' w' obs) {row : ProcessControlCommand}
    (hrow : row ∈ w.controls) : row ∈ w'.controls := by
  cases h with
  | control => exact List.mem_append_left _ hrow
  | _ => exact hrow

lemma reviews_kept (h : ProcessStep S u x w u' w' obs) (hu : u.Exposed) {a id : UUID}
    {row : MessageRow} (hrow : (w.view a).messages id = some row) :
    (w'.view a).messages id = some row := by
  obtain ⟨v, y, v', obs', hnext, -⟩ | ⟨-, hview, -⟩ | hview := h.action_cases hu a
  · exact (TiramisuAgents.Step.of_next hnext).messages_kept hrow
  · rw [hview]
    exact hrow
  · rw [hview]
    exact hrow

/-- What a signal is about stays. -/
lemma Recorded.kept {T : Tenant V} {log log' : List (TenantEvent V)} {p : TenantProcess V}
    {signal : Signal} (h : Recorded T log p signal) (hstep : ProcessStep S u x p.rows u' w' obs)
    (hu : u.Exposed) (hlog : ∀ e ∈ log, e ∈ log') :
    Recorded T log' { p with rows := w' } signal := by
  cases signal with
  | receiveEvent e => exact inbox_kept hstep h
  | receiveReview c =>
      obtain ⟨hthread, row, hrow, hsame⟩ := h
      exact ⟨hthread, row, reviews_kept hstep hu hrow, hsame⟩
  | receiveActionResolution r =>
      obtain ⟨key, resolution, hattempt, hvalue, hresolved⟩ := h
      exact ⟨key, resolution, hattempt, hvalue, hlog _ hresolved⟩
  | receiveControl c =>
      obtain ⟨row, hrow, hsame⟩ := h
      exact ⟨row, controls_kept hstep hrow, hsame⟩
  | replaceWakePlan => exact h
  | close => exact h

omit [BEq V] in
lemma Recorded.mono {T : Tenant V} {log log' : List (TenantEvent V)} {p : TenantProcess V}
    {signal : Signal} (h : Recorded T log p signal) (hlog : ∀ e ∈ log, e ∈ log') :
    Recorded T log' p signal := by
  cases signal with
  | receiveActionResolution r =>
      obtain ⟨key, resolution, hattempt, hvalue, hresolved⟩ := h
      exact ⟨key, resolution, hattempt, hvalue, hlog _ hresolved⟩
  | _ => exact h

end

/-! ### What is enqueued -/

section

variable [BEq V] {T : Tenant V} {log : List (TenantEvent V)} {p : TenantProcess V}
  {u u' : ProcessStage V} {rows : ProcessDatabase V} {obs : List (ProcessEvent V)}
  {outboxId : UUID} {now : Time}

/-- A control is stored with its message. -/
lemma controlled_recorded {c : ProcessControlInput} {reason : String} {row : ProcessRow V}
    {eventId : UUID} {recordedAt : Time} {command : ProcessControlCommand}
    (h : advance (T.services p.id) (.controlling c (.locked reason row))
      (.answer (.wake eventId recordedAt)) p.rows
        = some (.done (.controlled command), rows, obs)) :
    Recorded T log { p with rows := rows }
      (controlProduction p command eventId outboxId now).signal := by
  rw [advance, ProcessStage.statement, Controlling.statement] at h
  split_ifs at h
  · cases h
  split at h
  · cases h
  next write hwrite =>
    rw [ProcessControlInput.commit] at h
    split_ifs at h with hused hwakes
    · cases h
    · cases h
      have hsignal : (controlProduction p (c.row reason write.payload) eventId outboxId now).signal
          = .receiveEvent ⟨eventId, operatorManualWakeEventType⟩ := by
        rw [controlProduction, ProcessControlInput.row, if_pos hwakes]
        rfl
      rw [hsignal]
      exact ⟨_, List.mem_append_right _ (List.mem_singleton_self _), rfl⟩
    · cases h
      have hsignal : (controlProduction p (c.row reason write.payload) eventId outboxId now).signal
          = .receiveControl ⟨c.commandId, Operators.controlTypeValue c.commandType,
            (write.payload.map turnSources).getD {}⟩ := by
        rw [controlProduction, ProcessControlInput.row, if_neg hwakes]
        rfl
      rw [hsignal]
      exact ⟨_, List.mem_append_right _ (List.mem_singleton_self _), rfl, rfl, rfl⟩

/-- The commit of a review. -/
lemma reviewed_recorded {a a' : UUID} {c : ReviewCommand} {target : ReviewTarget}
    {request : RequestRow} {write : ReviewWrite} {startedAt startedAt' : Time}
    {y : TiramisuAgents.Answer}
    {thread : ReviewThreadStatus} {approval : ApprovalStatus} {status : ActionRequestStatus}
    (h : advance (T.services p.id) (.action a (.reviewing c (.flushing target request write))
      startedAt) (.answer (.action y)) p.rows
        = some (.action a' (.ended (.reviewed thread approval status)) startedAt', rows, obs)) :
    Recorded T log { p with rows := rows }
      (.receiveReview ⟨c.commandId, c.commandType.value, T.thread a, a, 1⟩) := by
  rw [advance, ProcessStage.statement, actionStatement] at h
  obtain ⟨⟨v, db, obs'⟩, hnext, hr⟩ := Option.map_eq_some_iff.mp h
  · cases hr
    cases y with
    | check error =>
        cases error with
        | some message => cases hnext
        | none =>
            rw [TiramisuAgents.next, TiramisuAgents.Stage.statement, Reviewing.statement,
              commitReview] at hnext
            split_ifs at hnext
            · cases hnext
            · cases hnext
              refine ⟨rfl, c.row, ?_, rfl, rfl⟩
              simp [ProcessDatabase.put, ProcessDatabase.view, Database.review]
    | _ => cases hnext
  all_goals simp

/-- The resolution of an open attempt is observed when it is committed. -/
lemma resolved_recorded {a a' : UUID} {c : OperatorActionResolution} {attempt : AttemptRow}
    {startedAt startedAt' : Time} {y : TiramisuAgents.Answer} {key : String} {row : AttemptRow}
    (hopen : attempt.status = .unknown ∨ attempt.status = .reconciling)
    (h : advance (T.services p.id) (.action a (.resolvingBoth c attempt) startedAt)
      (.answer (.action y)) p.rows
        = some (.action a' (.ended (.returned key row)) startedAt', rows, obs)) :
    Recorded T (log ++ obs.map (.process p.id)) { p with rows := rows }
      (.receiveActionResolution ⟨c.decisionId, a, T.attempt a c.idempotencyKey,
        Operators.resolutionValue c.resolution⟩) := by
  rw [advance, ProcessStage.statement, actionStatement] at h
  obtain ⟨⟨v, db, obs'⟩, hnext, hr⟩ := Option.map_eq_some_iff.mp h
  · cases hr
    cases y with
    | check error =>
        rw [TiramisuAgents.next, TiramisuAgents.Stage.statement] at hnext
        unfold TiramisuAgents.commitResolution at hnext
        rw [if_pos hopen] at hnext
        cases error with
        | some message => cases hnext
        | none =>
            cases hnext
            exact ⟨c.idempotencyKey, c.resolution, rfl, rfl,
              List.mem_append_right _ List.mem_cons_self⟩
    | _ => cases hnext
  all_goals simp

/-- **The message of a call is enqueued with what it is about.** -/
lemma production_recorded {y : ProcessAnswer V} {m : Production}
    (h : advance (T.services p.id) u (.answer y) p.rows = some (u', rows, obs))
    (hproduced : production T p outboxId now u y u' = some m) :
    m.message.destination = p.workflowId ∧
      Recorded T (log ++ obs.map (.process p.id)) { p with rows := rows } m.signal := by
  unfold production at hproduced
  split at hproduced
  · obtain rfl := Option.some.inj hproduced
    refine ⟨?_, controlled_recorded h⟩
    rw [controlProduction]
    split_ifs <;> rfl
  · obtain rfl := Option.some.inj hproduced
    exact ⟨rfl, reviewed_recorded h⟩
  · split_ifs at hproduced with hopen
    obtain rfl := Option.some.inj hproduced
    exact ⟨rfl, resolved_recorded hopen h⟩
  · cases hproduced

/-- An event that is received is in the inbox. -/
lemma ingested_mem {S : Services V} {e : CanonicalEvent V} {w w' : ProcessDatabase V}
    (h : advance S (.ingesting e .locked) (.answer .go) w = some (u', w', obs)) :
    ∃ r ∈ w'.inbox, r.id = e.eventId := by
  rw [advance, ProcessStage.statement, CanonicalEvent.statement, CanonicalEvent.commit] at h
  split_ifs at h with hknown
  · cases h
    obtain ⟨r, hr, hid⟩ := List.any_eq_true.mp hknown
    exact ⟨r, hr, by simpa using hid⟩
  · cases h
    exact ⟨_, List.mem_append_right _ (List.mem_singleton_self _), rfl⟩

end

/-! ### Messages -/

section

variable [BEq V] {T : Tenant V} {t t' u : Stage V N} {x : CallInput V N} {db db' : Database V}
  {log obs : List (TenantEvent V)}

omit [BEq V] in
/-- What `schedule_delivery` adds. -/
lemma schedule_messages {e : CanonicalEvent V} {p : TenantProcess V} {outboxId : UUID} {now : Time}
    (h : db.schedule e p outboxId now = .ok db') :
    db'.processes = db.processes ∧ ∀ m ∈ db'.delivery.outbox, m ∈ db.delivery.outbox ∨
      m = (Production.event outboxId e.eventId e.eventType p.id p.workflowId now).message := by
  refine ⟨(schedule_ok h).2.1, ?_⟩
  rw [Database.schedule] at h
  split at h
  · split_ifs at h
    obtain rfl := Except.ok.inj h
    exact fun m hm => .inl hm
  · obtain ⟨-, -, hsame | ⟨-, hinserted⟩⟩ := enqueue_ok h
    · exact fun m hm => .inl (hsame ▸ hm)
    · intro m hm
      rw [hinserted, List.mem_append, List.mem_singleton] at hm
      exact hm

/-- What the reception of an event adds. -/
lemma receive_messages {e : CanonicalEvent V} {id outboxId : UUID} {late : Bool} {now : Time}
    (h : db.receive T e id late outboxId now = some (.ok db')) :
    ∃ p rows, db.process id = some p ∧ db'.process id = some { p with rows := rows } ∧
      (∃ r ∈ rows.inbox, r.id = e.eventId) ∧
      ∀ m ∈ db'.delivery.outbox, m ∈ db.delivery.outbox ∨
        m = (Production.event outboxId e.eventId e.eventType p.id p.workflowId now).message := by
  rw [Database.receive] at h
  obtain ⟨p, hfound, h⟩ := Option.bind_eq_some_iff.mp h
  obtain ⟨⟨v, rows, obs'⟩, hmoved, h⟩ := Option.map_eq_some_iff.mp h
  refine ⟨p, rows, hfound, ?_, ingested_mem hmoved, ?_⟩
  · cases late with
    | true =>
        obtain rfl := Except.ok.inj h
        exact process_put_self hfound
    | false =>
        rw [Database.process, (schedule_messages h).1]
        exact process_put_self hfound
  · cases late with
    | true =>
        obtain rfl := Except.ok.inj h
        exact fun m hm => .inl hm
    | false => exact (schedule_messages h).2

omit [BEq V] in
/-- A message of an event whose process has it. -/
lemma grounded_event {e : CanonicalEvent V} {p : TenantProcess V} {rows : ProcessDatabase V}
    {id outboxId : UUID} {now : Time} (hid : p.id = id)
    (hp : db.process id = some { p with rows := rows })
    (hinbox : ∃ r ∈ rows.inbox, r.id = e.eventId) :
    let m := (Production.event outboxId e.eventId e.eventType p.id p.workflowId now).message
    Grounded T db log m.destination m.messageType m.payload := by
  subst hid
  refine ⟨{ p with rows := rows }, hp, rfl, fun signal hsignal => ?_⟩
  have hdecoded :=
    (Production.event outboxId e.eventId e.eventType p.id p.workflowId now).decoded
  obtain rfl := Except.ok.inj (hdecoded.symm.trans hsignal)
  exact hinbox

omit [BEq V] in
/-- The delivery keeps the content of the messages. -/
lemma delivery_content {v v' : Temporal.Stage} {y : Temporal.CallInput} {d d' : Temporal.Database}
    {obs' : List Temporal.DeliveryEvent} (h : Temporal.Step v y d v' d' obs')
    (hv : ∀ m, v ≠ .producing m) :
    ∀ m' ∈ d'.outbox, ∃ m ∈ d.outbox, Temporal.content m = Temporal.content m' := by
  have rewritten (id : UUID) (f : OutboxMessage → OutboxMessage)
      (hf : ∀ m, Temporal.content (f m) = Temporal.content m) :
      ∀ m' ∈ modify OutboxMessage.id id f d.outbox,
        ∃ m ∈ d.outbox, Temporal.content m = Temporal.content m' := by
    intro m' hm'
    obtain ⟨m, hm, -, rfl⟩ | ⟨hm, -⟩ := mem_modify.mp hm'
    · exact ⟨m, hm, (hf m).symm⟩
    · exact ⟨m', hm, rfl⟩
  cases h with
  | produce p => exact absurd rfl (hv p)
  | claim => exact rewritten _ _ fun _ => rfl
  | complete => exact rewritten _ _ fun _ => rfl
  | fail => exact rewritten _ _ fun _ => rfl
  | requeue => exact rewritten _ _ fun _ => rfl
  | _ => exact fun m hm => ⟨m, hm, rfl⟩

omit [BEq V] in
lemma exposed_of_inner {id : UUID} {v : ProcessStage V} (ht : t.Supported T db log)
    (hinner : t.inner = some (id, v)) : v.Exposed := by
  unfold Stage.inner at hinner
  split at hinner
  · cases hinner
    exact ht
  · cases hinner
    trivial
  · cases hinner
    trivial
  · cases hinner

/-- A process keeps its identity, its workflow and what signals are about. -/
lemma Step.process_recorded (h : Step T t x db t' db' obs) (ht : t.Supported T db log)
    {p : TenantProcess V} (hp : db.process p.id = some p) :
    ∃ rows, db'.process p.id = some { p with rows := rows } ∧
      ∀ signal, Recorded T log p signal →
        Recorded T (log ++ obs) { p with rows := rows } signal := by
  have hlog : ∀ e ∈ log, e ∈ log ++ obs := fun e he => List.mem_append_left _ he
  obtain hsame | ⟨p₀, v, v', y, rows, obs', hinner, hfound, hmoved, hwritten⟩ |
    ⟨slot, c, assigned, b, now, -, hnone, -⟩ := h.process_cases p.id
  · exact ⟨p.rows, hsame.trans hp, fun signal hr => hr.mono hlog⟩
  · obtain rfl := Option.some.inj (hfound.symm.trans hp)
    exact ⟨rows, hwritten, fun signal hr =>
      hr.kept hmoved (exposed_of_inner ht hinner) hlog⟩
  · rw [hnone] at hp
    cases hp

lemma Grounded.kept {destination messageType : String} {payload : Payload}
    (hg : Grounded T db log destination messageType payload) (h : Step T t x db t' db' obs)
    (ht : t.Supported T db log) : Grounded T db' (log ++ obs) destination messageType payload := by
  obtain ⟨p, hp, hworkflow, hrecorded⟩ := hg
  obtain ⟨rows, hwritten, hkept⟩ := h.process_recorded ht hp
  exact ⟨{ p with rows := rows }, hwritten, hworkflow,
    fun signal hs => hkept signal (hrecorded signal hs)⟩

/-- **A message is enqueued with what it is about**: each message has the content of one that was
there, or is grounded. -/
lemma Step.message_cases (h : Step T t x db t' db' obs) (ht : t.Supported T db log) :
    ∀ m ∈ db'.delivery.outbox,
      (∃ m₀ ∈ db.delivery.outbox, Temporal.content m₀ = Temporal.content m) ∨
        Grounded T db' (log ++ obs) m.destination m.messageType m.payload := by
  intro m hm
  cases h with
  | process id outboxId now p v v' y rows obs found moved written =>
      obtain ⟨-, rfl⟩ | ⟨production, hproduced, henqueued⟩ := written
      · exact .inl ⟨m, hm, rfl⟩
      obtain ⟨-, hprocesses, hsame | ⟨-, hinserted⟩⟩ := enqueue_ok henqueued
      · exact .inl ⟨m, hsame ▸ hm, rfl⟩
      rw [hinserted, List.mem_append, List.mem_singleton] at hm
      obtain hm | rfl := hm
      · exact .inl ⟨m, hm, rfl⟩
      · have hid : p.id = id := (lookup_mem found).2
        subst hid
        obtain ⟨hdestination, hrecorded⟩ : production.message.destination = p.workflowId ∧
            Recorded T (log ++ obs.map (.process p.id)) { p with rows := rows } production.signal :=
          production_recorded moved hproduced
        refine .inr ⟨{ p with rows := rows }, ?_, hdestination.symm, fun signal hsignal => ?_⟩
        · rw [Database.process, hprocesses]
          exact process_put_self found
        · obtain rfl := Except.ok.inj (production.decoded.symm.trans hsignal)
          exact hrecorded
  | delivery v v' y delivery obs moved =>
      refine .inl (delivery_content moved (fun m => ?_) m hm)
      rintro rfl
      exact ht
  | ingest slot c assigned id outboxId late now o received =>
      obtain ⟨p, rows, hp, hwritten, hinbox, hmessages⟩ := receive_messages received
      obtain hm | rfl := hmessages m hm
      · exact .inl ⟨m, hm, rfl⟩
      · exact .inr (grounded_event (lookup_mem hp).2 hwritten hinbox)
  | resolve slot c reason assigned q outboxId late now o hdeployment hprocesses hdelivery
      received =>
      obtain ⟨p, rows, hp, hwritten, hinbox, hmessages⟩ := receive_messages received
      obtain hm | rfl := hmessages m hm
      · exact .inl ⟨m, hdelivery ▸ hm, rfl⟩
      · exact .inr (grounded_event (lookup_mem hp).2 hwritten hinbox)
  | create slot c assigned id outboxId b now o new scheduled =>
      obtain ⟨hprocesses, hmessages⟩ := schedule_messages scheduled
      obtain hm | rfl := hmessages m hm
      · exact .inl ⟨m, hm, rfl⟩
      · let p := b.process T id c.event now
        have hcreated : db'.process id = some { p with rows := p.rows } := by
          rw [Database.process, hprocesses]
          exact lookup_concat_self new rfl
        exact .inr (grounded_event (p := p) rfl hcreated
          ⟨c.event.row .matched, List.mem_singleton_self _, rfl⟩)
  | _ => exact .inl ⟨m, hm, rfl⟩

/-- A signal is taken from a claimed message. -/
lemma Step.taken_cases (h : Step T t x db t' db' obs) {workflowId : String} {signal : Signal}
    (htaken : .delivery (.taken workflowId signal) ∈ obs) :
    ∃ d c, t = .delivery (.claimed d c) ∧ c.destination = workflowId ∧
      decodeSignal c.messageType c.payload = .ok signal := by
  cases h with
  | process =>
      obtain ⟨e, -, he⟩ := List.mem_map.mp htaken
      cases he
  | delivery v v' y delivery obs moved =>
      obtain ⟨e, he, heq⟩ := List.mem_map.mp htaken
      cases heq
      cases moved with
      | deliver d c signal' decoded =>
          obtain he | he := List.mem_cons.mp he
          · cases he
            exact ⟨d, c, rfl, rfl, decoded⟩
          · cases List.mem_singleton.mp he
      | miss d c x error obs taken =>
          obtain rfl | ⟨signal', decoded, rfl⟩ := taken
          · cases he
          · cases List.mem_singleton.mp he
            exact ⟨d, c, rfl, rfl, decoded⟩
      | produce => cases List.mem_singleton.mp he
      | claim => cases List.mem_singleton.mp he
      | requeue => cases List.mem_singleton.mp he
      | _ => cases he
  | create => cases List.mem_singleton.mp htaken
  | assign => cases List.mem_singleton.mp htaken
  | _ => cases htaken

/-- **A step keeps the messages grounded**, and the signals that were taken. -/
lemma Signalled.step (h : Step T t x db t' db' obs) (hok : Signalled T db log)
    (ht : t.Supported T db log) : Signalled T db' (log ++ obs) where
  workflows id p' hp' := by
    obtain hsame | ⟨p, v, v', y, rows, obs', hinner, hfound, hmoved, hwritten⟩ |
      ⟨slot, c, assigned, b, now, -, hnone, hcreated⟩ := h.process_cases id
    · exact hok.workflows id p' (hsame.symm.trans hp')
    · obtain rfl := Option.some.inj (hwritten.symm.trans hp')
      exact hok.workflows id p hfound
    · obtain rfl := Option.some.inj (hcreated.symm.trans hp')
      rfl
  messages m hm := by
    obtain ⟨m₀, hm₀, hcontent⟩ | hgrounded := h.message_cases ht m hm
    · obtain ⟨-, htype, hdestination, hpayload⟩ : m₀.id = m.id ∧ m₀.messageType = m.messageType ∧
          m₀.destination = m.destination ∧ m₀.payload = m.payload := by
        simpa [Temporal.content] using hcontent
      rw [← htype, ← hdestination, ← hpayload]
      exact (hok.messages m₀ hm₀).kept h ht
    · exact hgrounded
  taken workflowId signal htaken := by
    obtain hlogged | hnew := List.mem_append.mp htaken
    · obtain ⟨p, hp, hworkflow, hrecorded⟩ := hok.taken workflowId signal hlogged
      obtain ⟨rows, hwritten, hkept⟩ := h.process_recorded ht hp
      exact ⟨{ p with rows := rows }, hwritten, hworkflow, hkept signal hrecorded⟩
    · obtain ⟨d, c, rfl, rfl, hdecoded⟩ := h.taken_cases hnew
      obtain ⟨p, hp, hworkflow, hrecorded⟩ := Grounded.kept ht h ht
      exact ⟨p, hp, hworkflow, hrecorded signal hdecoded⟩

/-- What a call claims is grounded. -/
lemma Step.supported (h : Step T t x db t' db' obs) (hok : Signalled T db log)
    (ht : t.Supported T db log) : t'.Supported T db' (log ++ obs) := by
  cases h with
  | halt ended => obtain rfl | ⟨o, rfl⟩ := ended <;> trivial
  | start c started =>
      cases c with
      | process id c now =>
          rw [Call.start] at started
          split_ifs at started with hservice
          obtain rfl := Option.some.inj started
          have hexposed : c.exposed = true := by
            cases c <;> first | exact hservice.1 | rfl
          obtain ⟨p, -⟩ := Option.isSome_iff_exists.mp hservice.2
          have hstep : ProcessStep (T.services id) .idle (.call c now) p.rows (c.start now)
              p.rows [] := .start c now hexposed
          exact hstep.exposed trivial
      | _ =>
          obtain rfl := Option.some.inj started
          trivial
  | process id outboxId now p v v' y rows obs found moved written =>
      exact (ProcessStep.of_advance moved).exposed ht
  | delivery v v' y delivery obs moved =>
      have hstep : Step (N := N) T (.delivery v) (.answer (.delivery y)) db (.delivery v')
          { db with delivery := delivery } (obs.map .delivery) :=
        .delivery v v' y delivery obs moved
      cases moved with
      | claim d now locked token processId m found owned =>
          exact (hok.messages m (Temporal.claimable_mem found).1).kept hstep ht
      | halt resting =>
          cases v' with
          | idle => trivial
          | ended => trivial
          | _ => cases resting
      | _ => trivial
  | _ => trivial

/-- A claim stays grounded. -/
lemma Step.supported_other (h : Step T t x db t' db' obs) (ht : t.Supported T db log)
    (hu : u.Supported T db log) : u.Supported T db' (log ++ obs) := by
  cases u with
  | process id v => exact hu
  | delivery v =>
      cases v with
      | claimed d c => exact Grounded.kept hu h ht
      | producing => exact hu
      | _ => trivial
  | _ => trivial

end

/-! ### Runs -/

section

variable [BEq V] {T : Tenant V}

/-- The rule for every run. -/
lemma signalsJoint : Joint (tenantCalls T N) (fun _ _ _ _ => True) (fun _ _ _ _ => True)
    (Signalled T) (fun t db log => t.Supported T db log) where
  own hnext _ hok ht := by
    have h := Step.of_next hnext
    exact ⟨hok.step h ht, h.supported hok ht⟩
  other hnext _ _ _ _ ht hu := (Step.of_next hnext).supported_other ht hu

lemma newTenant_signalled (n : ℕ) (deploymentId : String) :
    Joint.Holds (tenantCalls T N) (Signalled T) (fun t db log => t.Supported T db log)
      (newTenant n deploymentId) := by
  refine ⟨?_, ⟨?_, ?_, ?_⟩, fun i => ?_⟩
  · intro i j l hi
    cases hi
  · intro id p hp
    cases hp
  · intro m hm
    cases hm
  · intro workflowId signal htaken
    cases htaken
  · trivial

/-- **Signals are recorded.**  In every run, whatever calls crash, are repeated or interleave: a
signal that a workflow has received is about something that the one process of this workflow has,
an event of its inbox, a message of its reviews, a control of it or a resolution of its attempt. -/
theorem signals_recorded (T : Tenant V) {n : ℕ}
    {s : Pool n (Database V) (Stage V N) (TenantEvent V)} {ms : List (Fin n × CallInput V N)}
    {deploymentId : String}
    (h : Runs (tenantCalls T N) (fun _ _ => True) (newTenant n deploymentId) ms s)
    {workflowId : String} {signal : Signal}
    (htaken : .delivery (.taken workflowId signal) ∈ s.log) :
    ∃ p ∈ s.store.processes, p.workflowId = workflowId ∧ workflowId = T.workflowId p.id ∧
      Recorded T s.log p signal := by
  have hok : Signalled T s.store s.log :=
    (signalsJoint.runs (fun _ _ _ _ => trivial) (fun _ _ _ _ _ _ => trivial) h
      (newTenant_signalled n deploymentId)).common
  obtain ⟨p, hp, rfl, hrecorded⟩ := hok.taken workflowId signal htaken
  exact ⟨p, (lookup_mem hp).1, rfl, hok.workflows p.id p hp, hrecorded⟩

end

/-- A workflow takes a review. -/
def TenantEvent.takesReview {V : Type} : TenantEvent V → Bool
  | .delivery (.taken _ (.receiveReview _)) => true
  | _ => false

/-- The workflow of a process receives its event from a dispatcher that stops before it marks the
message, and then the approval of one of its actions. -/
theorem signals_recorded_review :
    ∃ (ms : List (Fin 2 × CallInput ℕ 1)) (s : Pool 2 (Database ℕ) (Stage ℕ 1) (TenantEvent ℕ))
      (workflowId : String) (c : MailboxReview),
    Runs (tenantCalls sampleTenant 1) (fun _ _ => True) (newTenant 2 "a") ms s ∧
    .delivery (.taken workflowId (.receiveReview c)) ∈ s.log ∧
    ∃ p ∈ s.store.processes, p.workflowId = workflowId ∧
      workflowId = sampleTenant.workflowId p.id ∧
      Recorded sampleTenant s.log p (.receiveReview c) := by
  let ms : List (Fin 2 × CallInput ℕ 1) := List.flatten
    [triggered 0 0 "process" "a", [(0, .call (.dispatchOne { processes := ["process"] })),
        (0, .answer (.delivery (.claim 0 [] "token"))), (0, .answer (.delivery .started)),
        (0, .crash)],
      onProcess 1 "process" "none" (.action "action" (.persist (sampleProposal .requireApproval)))
        [.action .go, .inspection 0, .action (.check none)],
      onProcess 1 "process" "m1" (.action "action" (.review (sampleReview "c1" .approve)))
        [.action .go, .action .go, .action (.check none), .action .go, .action (.time 0),
          .action (.check none)],
      delivers 0 "process"]
  obtain ⟨s, hruns, hp⟩ := exists_runs (C := tenantCalls sampleTenant 1)
    (s := newTenant 2 "a") (fun _ _ => true) ms
    (fun s => s.log.any TenantEvent.takesReview)
    (by decide +kernel)
  have h := hruns.mono (H := fun _ _ => True) fun _ _ _ => trivial
  obtain ⟨e, he, htakes⟩ := List.any_eq_true.mp hp
  rw [TenantEvent.takesReview.eq_def] at htakes
  split at htakes
  · exact ⟨ms, s, _, _, h, he, signals_recorded sampleTenant h he⟩
  · cases htakes

end TiramisuAgents.Tenancy
