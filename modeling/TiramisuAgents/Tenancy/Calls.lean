import TiramisuAgents.Operators.Calls
import TiramisuAgents.Processes.Calls

/-!
The calls on the rows of one tenant, statement by statement: the calls on its processes, the
dispatcher and `requeue`, and over them `EventIngestionService.ingest` (`events/ingestion.py`),
`QuarantineResolutionService.resolve` (`events/quarantine.py`) and
`TenantDeploymentService.assign` (`security/deployment_assignment.py`).

A call on a process is one of `Processes.Calls` on its rows, and the delivery is that of
`Temporal.Dispatcher` on the outbox.  Here are the tables they share: a commit that enqueues a
message does so in the same step.  Which process an event correlates to is an answer, and so is
what the checks of its references find; `Events.Calls` has them in full.

The shared lock on the deployment of a tenant (`security/deployment_lock.py`) is one lock of `N`,
that of the slot of the call, and the exclusive one is all of them.

* `TenantProcess`, `QuarantinedEvent`, `Database`: the rows.
* `Call`, `Stage`, `Answer`, `TenantEvent`: the calls, where they stand, what they are told, and
  what is observed.
* `processStatement`, `Ingesting.statement`, `Resolving.statement`, `Assigning.statement`.
* `tenantCalls`: the code, with the locks of each stage.
-/

namespace TiramisuAgents.Tenancy

open Events (ExternalReference OutboxMessage Production)
open Tables

/-! ### Rows -/

/-- A row of `process_instances`, with the rows that belong to it. -/
structure TenantProcess (V : Type) where
  id : UUID
  deploymentId : String
  workflowId : String
  lateEventPolicy : String
  rows : ProcessDatabase V

/-- A row of `event_inbox` that belongs to no process. -/
structure QuarantinedEvent (V : Type) where
  event : CanonicalEvent V
  correlationStatus : Events.CorrelationStatus
  correlationReason : String

/-- The identity of its event. -/
def QuarantinedEvent.id {V : Type} (q : QuarantinedEvent V) : UUID := q.event.eventId

/-- A row of `tenant_deployment_events`. -/
structure TenantDeploymentEvent where
  actorId : UUID
  previousDeploymentId : String
  newDeploymentId : String
  reason : String
  deriving DecidableEq, Repr

/-- The rows of a tenant; `deploymentId` is a column of its row in `tenants`. -/
structure Database (V : Type) where
  deploymentId : String
  deploymentEvents : List TenantDeploymentEvent := []
  processes : List (TenantProcess V) := []
  quarantine : List (QuarantinedEvent V) := []
  resolutions : List Events.ResolutionRow := []
  delivery : Temporal.Database := {}

/-- What is fixed for a tenant: the services of its processes, the review thread of an action and
the identity of an attempt. -/
structure Tenant (V : Type) where
  tenantId : UUID
  services : UUID → Services V
  thread : UUID → UUID
  attempt : UUID → String → UUID

/-- `tenants.status`. -/
inductive TenantStatus where
  | active | suspended
  deriving DecidableEq, Repr

/-! ### Requests -/

/-- What `ingest` uses of a `ProcessBootstrap`. -/
structure ProcessBootstrap where
  deploymentId : String
  lateEventPolicy : String := "record_only"
  deriving DecidableEq, Repr

/-- The arguments of `ingest`. -/
structure IngestInput (V : Type) where
  event : CanonicalEvent V
  externalReferences : List ExternalReference := []
  bootstrap : Option ProcessBootstrap := none
  deploymentId : Option String := none

/-- The arguments of `resolve`. -/
structure ResolveInput where
  command : Events.ResolveQuarantineInput
  deploymentId : Option String := none
  deriving DecidableEq, Repr

/-- The arguments of `assign`. -/
structure AssignInput where
  deploymentId : String
  actorId : UUID
  reason : String
  deriving DecidableEq, Repr

/-- `str.lower` of a character; the Kelvin sign is the one letter outside ASCII that becomes one of
ASCII. -/
def lowerChar (c : Char) : Char := if c.toNat = 0x212a then 'k' else c.toLower

/-- `_DEPLOYMENT_ID_PATTERN`. -/
def isDeploymentId (value : String) : Bool :=
  match value.toList with
  | [] => false
  | c :: rest =>
      c.isLower && rest.all (fun c => c.isLower || c.isDigit || c = '-') && rest.length ≤ 62

/-- `normalize_deployment_id`. -/
def normalizeDeploymentId (value : String) : Except String String :=
  let normalized := String.ofList ((strip value).toList.map lowerChar)
  if isDeploymentId normalized then .ok normalized
  else .error ("deployment ID must contain 1 to 63 lowercase letters, digits, or hyphens, " ++
    "starting with a letter")

/-- `unassigned`. -/
def unassigned : String := "unassigned"

/-- The checks of `assign` on its arguments, with the deployment and the reason it stores. -/
def AssignInput.check (c : AssignInput) : Except String (String × String) := do
  let target ← normalizeDeploymentId c.deploymentId
  requireThat (target ≠ unassigned) "unassigned is reserved for legacy or unconfigured tenants"
  requireThat (strip c.reason ≠ "") "a tenant deployment assignment requires a reason"
  requireThat ((strip c.reason).length ≤ 10000) "tenant deployment assignment reason is too long"
  return (target, strip c.reason)

/-! ### Queries -/

namespace Database

variable {V : Type} (db : Database V)

/-- The process of an identity. -/
def process (id : UUID) : Option (TenantProcess V) := lookup TenantProcess.id id db.processes

/-- The event of a process. -/
def matched (eventId : UUID) : Option (InboxRow V) :=
  db.processes.findSome? fun p => p.rows.inbox.find? fun r => r.id = eventId

/-- The type of an event that has a row. -/
def eventType (eventId : UUID) : Option String :=
  ((lookup QuarantinedEvent.id eventId db.quarantine).map fun q => q.event.eventType).or
    ((db.matched eventId).map InboxRow.eventType)

/-- Write the rows of a process. -/
def put (id : UUID) (rows : ProcessDatabase V) : Database V :=
  { db with
    processes := modify TenantProcess.id id (fun p => { p with rows := rows }) db.processes }

/-- Insert a message, with `on_conflict_do_nothing` on the deduplication key. -/
def enqueue (m : OutboxMessage) : Except String (Database V) :=
  if (lookup OutboxMessage.deduplicationKey m.deduplicationKey db.delivery.outbox).isSome then
    .ok db
  else if (lookup OutboxMessage.id m.id db.delivery.outbox).isSome then .error "IntegrityError"
  else .ok { db with delivery := { db.delivery with outbox := db.delivery.outbox ++ [m] } }

/-- The processes that are not over. -/
def nonterminal : List (TenantProcess V) :=
  db.processes.filter fun p => !p.rows.process.status.terminal

/-- The messages of the processes of a deployment that are not published. -/
def outstanding (deploymentId : String) : List OutboxMessage :=
  db.delivery.outbox.filter fun m =>
    m.status ≠ .published &&
      db.processes.any fun p => m.processInstanceId = some p.id && p.deploymentId = deploymentId

end Database

/-- An event for a process that is over is only recorded. -/
def TenantProcess.late {V : Type} (p : TenantProcess V) : Except String Bool :=
  if p.rows.process.status.terminal then
    if p.lateEventPolicy ≠ "record_only" then
      .error s!"unsupported terminal late-event policy: {p.lateEventPolicy}"
    else .ok true
  else .ok false

/-! ### Calls -/

/-- The calls; `slot` is the shared lock on the deployment that a call takes. -/
inductive Call (V : Type) (N : ℕ) where
  | process (processId : UUID) (call : ProcessCall V) (now : Time)
  | dispatchOne (dispatcher : Temporal.Dispatcher)
  | requeue (command : Temporal.RequeueOutboxInput)
  | ingest (slot : Fin N) (input : IngestInput V)
  | resolve (slot : Fin N) (input : ResolveInput)
  | assign (input : AssignInput)

/-- How a call ends that is neither on a process nor on the outbox. -/
inductive Outcome where
  | received (eventId : UUID)
  | resolved (row : Events.ResolutionRow)
  | assigned (previousDeploymentId deploymentId : String) (changed : Bool)
  | raised (message : String)
  deriving DecidableEq

/-- Where an ingestion stands; from `admitted` on it knows the deployment of the tenant. -/
inductive Ingesting where
  | opening
  | locked
  | admitted (assigned : String)
  | keyed (assigned : String)
  | found (assigned : String) (processId : UUID)
  | holding (assigned : String) (processId : UUID) (late : Bool)
  | creating (assigned : String) (bootstrap : ProcessBootstrap) (processId : UUID)
  deriving DecidableEq, Repr

/-- Where a resolution stands. -/
inductive Resolving (V : Type) where
  | opening
  | locked (reason : String)
  | admitted (reason assigned : String)
  | commanded (reason assigned : String)
  | loading (reason assigned : String)
  | loaded (reason assigned : String)
  | held (reason assigned : String) (event : QuarantinedEvent V)
  | holding (reason assigned : String) (event : QuarantinedEvent V) (late : Bool)

/-- Where an assignment stands. -/
inductive Assigning where
  | opening
  | locked (target reason : String)
  | held (target reason previous : String)
  | counted (target reason previous : String)
  | cleared (target reason previous : String)
  deriving DecidableEq, Repr

/-- Where a call stands. -/
inductive Stage (V : Type) (N : ℕ) where
  | idle
  | ended (outcome : Outcome)
  | process (processId : UUID) (stage : ProcessStage V)
  | delivery (stage : Temporal.Stage)
  | ingesting (slot : Fin N) (input : IngestInput V) (i : Ingesting)
  | resolving (slot : Fin N) (input : ResolveInput) (r : Resolving V)
  | assigning (input : AssignInput) (a : Assigning)

/-- What a correlation has found: a process; none, with the status of the event; or none for a
trigger, with the identity of the process that is created. -/
inductive Correlated where
  | process (processId : UUID)
  | unmatched (status : Events.CorrelationStatus) (reason : String)
  | trigger (processId : UUID)
  deriving DecidableEq, Repr

/-- What a statement is told; a commit takes the identity of the message it enqueues. -/
inductive Answer (V : Type) where
  | go
  | check (error : Option String)
  | tenant (status : Option TenantStatus)
  | correlated (found : Correlated)
  | commit (error : Option String) (outboxId : UUID) (now : Time)
  | process (answer : ProcessAnswer V) (outboxId : UUID) (now : Time)
  | delivery (answer : Temporal.Answer)

/-- What happens to a call. -/
inductive CallInput (V : Type) (N : ℕ) where
  | call (call : Call V N)
  | crash
  | answer (answer : Answer V)

/-- What is observed: what is observed of a process and of the delivery, a process that is created,
with the deployment of the tenant, and a move of the tenant. -/
inductive TenantEvent (V : Type) where
  | process (processId : UUID) (event : ProcessEvent V)
  | delivery (event : Temporal.DeliveryEvent)
  | created (processId : UUID) (assigned : String)
  | moved (previousDeploymentId deploymentId : String)

section

variable {V : Type} {N : ℕ}

/-- The calls on a process that are made here; events are correlated by `ingest` and `resolve`. -/
def isService : ProcessCall V → Bool
  | .ingest _ | .resolveQuarantine _ => false
  | c => c.exposed

/-- The call is over, or there is none. -/
def Stage.resting : Stage V N → Bool
  | .idle | .ended _ => true
  | .process _ stage => stage.resting
  | .delivery stage => stage.resting
  | _ => false

/-- The stage after a statement, the committed database and what is observed. -/
abbrev Effect (V : Type) (N : ℕ) := Option (Stage V N × Database V × List (TenantEvent V))

/-- A statement that commits nothing. -/
def Stage.keep (t : Stage V N) (db : Database V) : Effect V N := some (t, db, [])

/-- A call ends. -/
def Stage.stop (o : Outcome) (db : Database V) : Effect V N := (Stage.ended o).keep db

/-! ### Processes -/

/-- The sources of a retry, as its message has them. -/
def turnSources (s : SourceIds) : TurnSources where
  eventIds := s.eventIds
  reviewCommandIds := s.reviewCommandIds
  actionAttemptIds := s.actionAttemptIds
  timerIds := s.timerIds

/-- The message of a control: `_enqueue_manual_wake` or `_enqueue_control`. -/
def controlProduction (p : TenantProcess V) (row : ProcessControlCommand) (eventId outboxId : UUID)
    (now : Time) : Production :=
  if row.commandType = .wake ∨ row.commandType = .resume then
    .manualWake outboxId row.id eventId operatorManualWakeEventType p.id p.workflowId now
  else
    .control outboxId row.id (Operators.controlTypeValue row.commandType)
      (row.payload.map turnSources) p.id p.workflowId now

/-- The message that the statement of a call on a process enqueues, which leads to the second
stage: a control, a review and the resolution of an attempt do so when they commit. -/
def production (T : Tenant V) (p : TenantProcess V) (outboxId : UUID) (now : Time) :
    ProcessStage V → ProcessAnswer V → ProcessStage V → Option Production
  | .controlling _ (.locked _ _), .wake eventId _, .done (.controlled row) =>
      some (controlProduction p row eventId outboxId now)
  | .action a (.reviewing c (.flushing _ _ _)) _, .action _,
      .action _ (.ended (.reviewed _ _ _)) _ =>
      some (.review outboxId ⟨c.commandId, c.commandType.value, T.thread a, a, 1⟩ p.id
        p.workflowId now)
  | .action a (.resolvingBoth c attempt) _, .action _, .action _ (.ended (.returned _ _)) _ =>
      if attempt.status = .unknown ∨ attempt.status = .reconciling then
        some (.resolution outboxId
          ⟨c.decisionId, a, T.attempt a c.idempotencyKey, Operators.resolutionValue c.resolution⟩
          p.id p.workflowId now)
      else none
  | _, _, _ => none

/-- A statement of a call on a process. -/
def processStatement [BEq V] (T : Tenant V) (processId : UUID) (stage : ProcessStage V)
    (x : ProcessAnswer V) (outboxId : UUID) (now : Time) (db : Database V) : Effect V N :=
  match db.process processId with
  | none => none
  | some p =>
      match advance (T.services processId) stage (.answer x) p.rows with
      | none => none
      | some (stage', rows, obs) =>
          match production T p outboxId now stage x stage' with
          | none =>
              some (.process processId stage', db.put processId rows, obs.map (.process processId))
          | some m =>
              match (db.put processId rows).enqueue m.message with
              | .error message => Stage.stop (.raised message) db
              | .ok db' => some (.process processId stage', db', obs.map (.process processId))

/-- A statement of a dispatcher or of `requeue`. -/
def deliveryStatement (stage : Temporal.Stage) (x : Temporal.Answer) (db : Database V) :
    Effect V N :=
  (Temporal.next stage (.answer x) db.delivery).map fun r =>
    (.delivery r.1, { db with delivery := r.2.1 }, r.2.2.map .delivery)

/-! ### Events -/

/-- `require_ingress_tenant`, with the deployment that is assigned. -/
def requireIngressTenant (T : Tenant V) (deploymentId : Option String)
    (status : Option TenantStatus) (db : Database V) : Except String String :=
  match status with
  | none => .error T.tenantId
  | some status =>
      if deploymentId.any fun d => db.deploymentId ≠ d then .error T.tenantId
      else if status ≠ .active then .error T.tenantId
      else .ok db.deploymentId

/-- `schedule_delivery`. -/
def Database.schedule (db : Database V) (e : CanonicalEvent V) (p : TenantProcess V)
    (outboxId : UUID) (now : Time) : Except String (Database V) :=
  let m := (Production.event outboxId e.eventId e.eventType p.id p.workflowId now).message
  match lookup OutboxMessage.deduplicationKey m.deduplicationKey db.delivery.outbox with
  | some existing =>
      if existing.processInstanceId ≠ some p.id then
        .error "event delivery identity conflicts with its destination"
      else .ok db
  | none => db.enqueue m

/-- The event becomes one of the process, and is scheduled unless the process is over. -/
def Database.receive [BEq V] (T : Tenant V) (db : Database V) (e : CanonicalEvent V)
    (processId : UUID) (late : Bool) (outboxId : UUID) (now : Time) :
    Option (Except String (Database V)) :=
  (db.process processId).bind fun p =>
    (advance (T.services processId) (.ingesting e .locked) (.answer .go) p.rows).map fun r =>
      if late then .ok (db.put processId r.2.1)
      else (db.put processId r.2.1).schedule e p outboxId now

/-- The process that `_create_process` adds, with the event that has triggered it. -/
def ProcessBootstrap.process (b : ProcessBootstrap) (T : Tenant V) (processId : UUID)
    (e : CanonicalEvent V) (now : Time) : TenantProcess V where
  id := processId
  deploymentId := b.deploymentId
  workflowId := s!"tenant/{T.tenantId}/process/{processId}"
  lateEventPolicy := b.lateEventPolicy
  rows := { process := { status := .active, createdAt := now }, inbox := [e.row .matched] }

/-- The commit of a trigger. -/
def commitCreation (T : Tenant V) (e : CanonicalEvent V) (b : ProcessBootstrap) (processId : UUID)
    (outboxId : UUID) (now : Time) (db : Database V) : Effect V N :=
  let p := b.process T processId e now
  if (db.process processId).isSome then Stage.stop (.raised "IntegrityError") db
  else
    match Database.schedule { db with processes := db.processes ++ [p] } e p outboxId now with
    | .error message => Stage.stop (.raised message) db
    | .ok db' =>
        some (.ended (.received e.eventId), db', [.created processId db.deploymentId])

/-- `ingest`. -/
def Ingesting.statement [BEq V] (T : Tenant V) (slot : Fin N) (c : IngestInput V) :
    Ingesting → Answer V → Database V → Effect V N
  | .opening, .go, db =>
      if reservedKernelEventTypes.contains c.event.eventType then
        Stage.stop (.raised s!"event type is reserved for kernel use: {c.event.eventType}") db
      else (Stage.ingesting slot c .locked).keep db
  | .locked, .tenant status, db =>
      match requireIngressTenant T c.deploymentId status db with
      | .error message => Stage.stop (.raised message) db
      | .ok assigned => (Stage.ingesting slot c (.admitted assigned)).keep db
  | .admitted assigned, .go, db => (Stage.ingesting slot c (.keyed assigned)).keep db
  | .keyed assigned, .correlated candidate, db =>
      if (db.eventType c.event.eventId).isSome then Stage.stop (.received c.event.eventId) db
      else if c.bootstrap.isSome ∧ c.externalReferences = [] then
        Stage.stop (.raised "a process-triggering event requires an external reference") db
      else
        match candidate, c.bootstrap with
        | .process processId, _ => (Stage.ingesting slot c (.found assigned processId)).keep db
        | .unmatched status reason, bootstrap =>
            if reason = "no_process_match" ∧ bootstrap.isSome then none
            else
              some (.ended (.received c.event.eventId),
                { db with quarantine := db.quarantine ++ [⟨c.event, status, reason⟩] }, [])
        | .trigger processId, some b =>
            (Stage.ingesting slot c (.creating assigned b processId)).keep db
        | .trigger _, none => none
  | .found assigned processId, .go, db =>
      match db.process processId with
      | none => Stage.stop (.raised "matched process instance is unavailable") db
      | some p =>
          match p.late with
          | .error message => Stage.stop (.raised message) db
          | .ok late => (Stage.ingesting slot c (.holding assigned processId late)).keep db
  | .holding _ _ _, .commit (some error) _ _, db => Stage.stop (.raised error) db
  | .holding _ processId late, .commit none outboxId now, db =>
      match db.receive T c.event processId late outboxId now with
      | none => none
      | some (.error message) => Stage.stop (.raised message) db
      | some (.ok db') => some (.ended (.received c.event.eventId), db', [])
  | .creating _ _ _, .commit (some error) _ _, db => Stage.stop (.raised error) db
  | .creating _ b processId, .commit none outboxId now, db =>
      commitCreation T c.event b processId outboxId now db
  | _, _, _ => none

/-! ### Quarantine -/

/-- A command that is stored already. -/
def ResolveInput.replay (c : ResolveInput) (reason : String) (row : Events.ResolutionRow) :
    Outcome :=
  if row.eventId ≠ c.command.eventId ∨ row.processInstanceId ≠ c.command.processInstanceId ∨
      row.actorId ≠ c.command.actorId ∨ row.reason ≠ reason ∨
      row.boundReferences ≠ c.command.bindReferences.toFinset then
    .raised "resolution command ID was reused with different content"
  else .resolved row

/-- What `resolve` stores. -/
def ResolveInput.row (c : ResolveInput) (reason : String) (q : QuarantinedEvent V) (late : Bool) :
    Events.ResolutionRow where
  id := c.command.commandId
  eventId := c.command.eventId
  processInstanceId := c.command.processInstanceId
  actorId := c.command.actorId
  reason := reason
  boundReferences := c.command.bindReferences.toFinset
  previousStatus := q.correlationStatus
  previousReason := some q.correlationReason
  deliveryScheduled := !late

/-- The commit of `resolve`. -/
def commitResolution [BEq V] (T : Tenant V) (c : ResolveInput) (reason : String)
    (q : QuarantinedEvent V) (late : Bool) (outboxId : UUID) (now : Time) (db : Database V) :
    Effect V N :=
  let stored := c.row reason q late
  if (lookup Events.ResolutionRow.id stored.id db.resolutions).isSome then
    Stage.stop (.raised "IntegrityError") db
  else
    let written := { db with
      quarantine := db.quarantine.filter fun q' => q'.id ≠ q.id
      resolutions := db.resolutions ++ [stored] }
    match written.receive T q.event c.command.processInstanceId late outboxId now with
    | none => none
    | some (.error message) => Stage.stop (.raised message) db
    | some (.ok db') => some (.ended (.resolved stored), db', [])

/-- `resolve`. -/
def Resolving.statement [BEq V] (T : Tenant V) (slot : Fin N) (c : ResolveInput) :
    Resolving V → Answer V → Database V → Effect V N
  | .opening, .go, db =>
      let reason := strip c.command.reason
      if reason = "" ∨ reason.length > 10000 then
        Stage.stop (.raised "reason must contain 1 to 10000 characters") db
      else (Stage.resolving slot c (.locked reason)).keep db
  | .locked reason, .tenant status, db =>
      match requireIngressTenant T c.deploymentId status db with
      | .error message => Stage.stop (.raised message) db
      | .ok assigned => (Stage.resolving slot c (.admitted reason assigned)).keep db
  | .admitted reason assigned, .go, db =>
      (Stage.resolving slot c (.commanded reason assigned)).keep db
  | .commanded reason assigned, .go, db =>
      match lookup Events.ResolutionRow.id c.command.commandId db.resolutions with
      | some row => Stage.stop (c.replay reason row) db
      | none => (Stage.resolving slot c (.loading reason assigned)).keep db
  | .loading reason assigned, .check error, db =>
      match db.eventType c.command.eventId with
      | none => Stage.stop (.raised "quarantined event not found") db
      | some eventType =>
          if reservedKernelEventTypes.contains eventType then
            Stage.stop (.raised "kernel events cannot be replayed through quarantine") db
          else
            match error with
            | some message => Stage.stop (.raised message) db
            | none => (Stage.resolving slot c (.loaded reason assigned)).keep db
  | .loaded reason assigned, .go, db =>
      match lookup QuarantinedEvent.id c.command.eventId db.quarantine with
      | none =>
          Stage.stop (.raised "event is already correlated; use delivery recovery if needed") db
      | some q => (Stage.resolving slot c (.held reason assigned q)).keep db
  | .held reason assigned q, .go, db =>
      match db.process c.command.processInstanceId with
      | none => Stage.stop (.raised "destination process not found") db
      | some p =>
          if p.deploymentId ≠ assigned then
            Stage.stop (.raised "destination process belongs to another deployment") db
          else
            match p.late with
            | .error _ => Stage.stop (.raised "unsupported terminal late-event policy") db
            | .ok late => (Stage.resolving slot c (.holding reason assigned q late)).keep db
  | .holding _ _ _ _, .commit (some error) _ _, db => Stage.stop (.raised error) db
  | .holding reason _ q late, .commit none outboxId now, db =>
      commitResolution T c reason q late outboxId now db
  | _, _, _ => none

/-! ### Assignments -/

/-- `assign`: it counts the processes and the messages one after the other. -/
def Assigning.statement (T : Tenant V) (c : AssignInput) :
    Assigning → Answer V → Database V → Effect V N
  | .opening, .go, db =>
      match c.check with
      | .error message => Stage.stop (.raised message) db
      | .ok (target, reason) => (Stage.assigning c (.locked target reason)).keep db
  | .locked _ _, .tenant none, db => Stage.stop (.raised T.tenantId) db
  | .locked target reason, .tenant (some _), db =>
      if db.deploymentId = target then
        Stage.stop (.assigned db.deploymentId target false) db
      else (Stage.assigning c (.held target reason db.deploymentId)).keep db
  | .held target reason previous, .go, db =>
      if previous = unassigned then (Stage.assigning c (.cleared target reason previous)).keep db
      else if db.nonterminal.isEmpty then
        (Stage.assigning c (.counted target reason previous)).keep db
      else
        Stage.stop (.raised ("tenant has active processes; move requires an audited " ++
          "active-instance migration or terminal completion")) db
  | .counted target reason previous, .go, db =>
      if (db.outstanding previous).isEmpty then
        (Stage.assigning c (.cleared target reason previous)).keep db
      else
        Stage.stop (.raised ("tenant has outstanding deliveries for its current deployment; " ++
          "publish or explicitly resolve them before moving the tenant")) db
  | .cleared target reason previous, .go, db =>
      some (.ended (.assigned previous target true),
        { db with
          deploymentId := target
          deploymentEvents := db.deploymentEvents ++ [⟨c.actorId, previous, target, reason⟩] },
        [.moved previous target])
  | _, _, _ => none

/-! ### One statement -/

/-- The first stage of a call; a call on a process is made for one that exists. -/
def Call.start (db : Database V) : Call V N → Option (Stage V N)
  | .process processId c now =>
      if isService c ∧ (db.process processId).isSome then
        some (.process processId (c.start now))
      else none
  | .dispatchOne d => some (.delivery (Temporal.Call.start (.dispatchOne d)))
  | .requeue command => some (.delivery (Temporal.Call.start (.requeue command)))
  | .ingest slot input => some (.ingesting slot input .opening)
  | .resolve slot input => some (.resolving slot input .opening)
  | .assign input => some (.assigning input .opening)

/-- The next statement of a call. -/
def Stage.statement [BEq V] (T : Tenant V) : Stage V N → Answer V → Database V → Effect V N
  | .process processId stage, .process x outboxId now, db =>
      processStatement T processId stage x outboxId now db
  | .delivery stage, .delivery x, db => deliveryStatement stage x db
  | .ingesting slot c i, x, db => i.statement T slot c x db
  | .resolving slot c r, x, db => r.statement T slot c x db
  | .assigning c a, x, db => a.statement T c x db
  | _, _, _ => none

/-- One step of a call. -/
def next [BEq V] (T : Tenant V) (t : Stage V N) : CallInput V N → Database V → Effect V N
  | .call c, db => if t.resting then (c.start db).bind fun t' => t'.keep db else none
  | .crash, db => Stage.idle.keep db
  | .answer x, db => t.statement T x db

/-! ### Locks -/

/-- The locks on the deployment, on the row of the tenant, on the rows of a process, on an event,
on a resolution and on a requeue. -/
inductive TenantLock (N : ℕ) where
  | deployment (slot : Fin N)
  | tenant
  | process (processId : UUID) (lock : ProcessLock)
  | event (eventId : UUID)
  | resolution (commandId : UUID)
  | requeue (commandId : UUID)
  deriving DecidableEq

/-- The locks of `ingest`. -/
def Ingesting.locks (slot : Fin N) (eventId : UUID) : Ingesting → List (TenantLock N)
  | .opening => []
  | .locked | .admitted _ => [.deployment slot]
  | .keyed _ | .found _ _ | .creating _ _ _ => [.deployment slot, .event eventId]
  | .holding _ processId _ => [.deployment slot, .event eventId, .process processId .process]

/-- The locks of `resolve`. -/
def Resolving.locks (slot : Fin N) (c : ResolveInput) : Resolving V → List (TenantLock N)
  | .opening => []
  | .locked _ | .admitted _ _ => [.deployment slot]
  | .commanded _ _ | .loading _ _ | .loaded _ _ =>
      [.deployment slot, .resolution c.command.commandId]
  | .held _ _ _ =>
      [.deployment slot, .resolution c.command.commandId, .event c.command.eventId]
  | .holding _ _ _ _ =>
      [.deployment slot, .resolution c.command.commandId, .event c.command.eventId,
        .process c.command.processInstanceId .process]

/-- All locks on the deployment. -/
def allSlots (N : ℕ) : List (TenantLock N) := (List.finRange N).map .deployment

/-- The locks of `assign`. -/
def Assigning.locks (N : ℕ) : Assigning → List (TenantLock N)
  | .opening => []
  | .locked _ _ => allSlots N
  | _ => .tenant :: allSlots N

/-- The locks of a stage. -/
def Stage.locks : Stage V N → List (TenantLock N)
  | .idle | .ended _ => []
  | .process processId stage => stage.locks.map (.process processId)
  | .delivery stage => stage.locks.map .requeue
  | .ingesting slot c i => i.locks slot c.event.eventId
  | .resolving slot c r => r.locks slot c
  | .assigning _ a => a.locks N

/-- The code of the calls of a tenant. -/
def tenantCalls [BEq V] (T : Tenant V) (N : ℕ) :
    Transactions.Code (Database V) (Stage V N) (CallInput V N) (TenantEvent V) (TenantLock N) where
  next := next T
  locks := Stage.locks

end

end TiramisuAgents.Tenancy
