import TiramisuAgents.Events.Database
import TiramisuAgents.Library.Transactions

/-!
The calls that read and write the events of a tenant, statement by statement:
`EventIngestionService.ingest` (`events/ingestion.py`), `QuarantineResolutionService.resolve`
(`events/quarantine.py`), `ProcessControlService.apply_control` with `_enqueue_manual_wake`
(`processes/control.py`), and the services that write `process.status`.

Transactions run at READ COMMITTED: a statement reads what is committed, and what its transaction
has written.  What a call has written but not committed is part of its stage; a commit checks the
unique constraints against what has been committed by then, as an insert does that waits for the
transaction with the same key.  The advisory locks of `pg_advisory_xact_lock` and the row locks
are held until the end.  The reference locks of a call are taken one by one in a fixed order;
nothing is read meanwhile, so they are taken together here.

* `Call`, `Stage`, `Answer`: the calls, where they stand, what they are told.
* `Ingesting.statement`, `Resolving.statement`, `Controlling.statement`: their statements.
* `calls`: the code, with the locks of each stage.
-/

namespace TiramisuAgents.Events

open Tables

/-! ### Calls -/

/-- What apply_control uses of a `ProcessControlInput`; a retry names the sources it returns. -/
structure ControlInput where
  commandId : UUID
  processInstanceId : UUID
  commandType : String
  sources : Option TurnSources := none
  deriving DecidableEq, Repr

/-- The calls.  The services that write `process.status` lock the process row first, and are
taken as one call that may write any status. -/
inductive Call where
  | ingest (event : CanonicalEvent) (bootstrap : Option ProcessBootstrap)
  | resolve (command : ResolveQuarantineInput)
  | control (command : ControlInput)
  | setStatus (processId : UUID) (status : ProcessStatus)
  deriving DecidableEq, Repr

/-- What a statement is told: nothing, the outcome of a check outside these rows, or new identities
and the time. -/
inductive Answer where
  | go
  | check (error : Option String)
  | fresh (id id' : UUID) (now : Time)
  deriving DecidableEq, Repr

/-- How a call ends. -/
inductive Outcome where
  | ingested (result : IngestionResult)
  | resolved (row : ResolutionRow)
  | controlled (row : ControlRow)
  | written
  | raised (message : String)
  deriving DecidableEq

/-- What an ingestion has found, and has written so far. -/
structure Correlation where
  processId : Option UUID
  status : CorrelationStatus
  reason : String
  created : Option ProcessRow := none
  delivers : Bool := true
  additions : List ExternalReference := []
  deriving DecidableEq, Repr

/-- Where an ingestion stands. -/
inductive Ingesting where
  | opening
  | admitted
  | keyed
  | unseen
  | referenced
  | candidates (explicit : Option UUID)
  | resolved (c : Correlation)
  | holding (c : Correlation) (processId : UUID) (process : ProcessRow)
  | bound (c : Correlation)
  deriving DecidableEq, Repr

/-- Where a resolution stands. -/
inductive Resolving where
  | opening
  | admitted
  | commanded
  | loading
  | loaded (event : CanonicalEvent)
  | keyed (event : CanonicalEvent)
  | referenced (event : CanonicalEvent)
  | held (event : CanonicalEvent) (row : InboxRow)
  | holding (event : CanonicalEvent) (row : InboxRow) (process : ProcessRow)
  | bound (event : CanonicalEvent) (row : InboxRow) (process : ProcessRow)
      (additions : List ExternalReference)
  deriving DecidableEq, Repr

/-- Where a control stands. -/
inductive Controlling where
  | opening
  | commanded
  | unused
  | holding (process : ProcessRow)
  deriving DecidableEq, Repr

/-- Where a call stands. -/
inductive Stage where
  | idle
  | ended (outcome : Outcome)
  | ingesting (event : CanonicalEvent) (bootstrap : Option ProcessBootstrap) (i : Ingesting)
  | resolving (command : ResolveQuarantineInput) (r : Resolving)
  | controlling (command : ControlInput) (c : Controlling)
  | settingStatus (processId : UUID) (status : ProcessStatus)
  | settingStatusLocked (processId : UUID) (status : ProcessStatus)
  deriving DecidableEq

/-- The first stage of a call. -/
def Call.start : Call → Stage
  | .ingest event bootstrap => .ingesting event bootstrap .opening
  | .resolve command => .resolving command .opening
  | .control command => .controlling command .opening
  | .setStatus processId status => .settingStatus processId status

/-- The call is over, or there is none. -/
def Stage.resting : Stage → Bool
  | .idle | .ended _ => true
  | _ => false

/-- What is observed: a process that is created for an event. -/
inductive IngestionEvent where
  | created (processId : UUID) (event : CanonicalEvent)
  deriving DecidableEq, Repr

/-- The stage after a statement, the committed database and what is observed. -/
abbrev Effect := Option (Stage × Database × List IngestionEvent)

/-- A statement that commits nothing. -/
def Stage.keep (t : Stage) (db : Database) : Effect := some (t, db, [])

/-- A call ends. -/
def Stage.stop (o : Outcome) (db : Database) : Effect := (Stage.ended o).keep db

/-! ### Ingestion -/

/-- `RESERVED_KERNEL_EVENT_TYPES`. -/
def reservedKernelEventTypes : List String := ["operator.manual_wake"]

/-- The identities of the deployment. -/
structure Platform where
  tenantId : UUID

/-- `_resolve_process`, with the explicit process it has found. -/
def Database.resolveProcess (db : Database) (event : CanonicalEvent) (explicit : Option UUID) :
    Correlation :=
  match (explicit.toList ++ db.owners event.externalReferences).dedup with
  | [processId] => { processId := some processId, status := .matched
                     reason := "single_process_match" }
  | [] => { processId := none, status := .pending, reason := "no_process_match" }
  | _ => { processId := none, status := .pending, reason := "ambiguous_external_references" }

/-- The row that `ingest` inserts. -/
def CanonicalEvent.row (event : CanonicalEvent) (c : Correlation) : InboxRow where
  id := event.eventId
  processInstanceId := c.processId
  source := event.source
  sourceEventId := event.sourceEventId
  eventType := event.eventType
  eventData := event
  correlationStatus := c.status
  correlationReason := some c.reason

/-- The check of the late-event policy of a process that is over. -/
def ProcessRow.late (process : ProcessRow) : Except String Bool :=
  if process.status.terminal then
    if process.lateEventPolicy ≠ "record_only" then
      .error s!"unsupported terminal late-event policy: {process.lateEventPolicy}"
    else .ok true
  else .ok false

/-- The process and the references that the transaction of an ingestion has written. -/
def Database.correlate (db : Database) (processId : Option UUID) (created : Option ProcessRow)
    (additions : List ExternalReference) : Database :=
  { db with
    processes := db.processes ++ created.toList
    correlations := db.correlations ++
      processId.toList.flatMap fun p => additions.map fun r => ⟨r, p⟩ }

/-- A unique constraint forbids the rows of a transaction. -/
def Database.conflicts (db : Database) (created : Option ProcessRow)
    (additions : List ExternalReference) : Bool :=
  created.any (fun process => (db.process process.id).isSome) ||
    additions.any fun r => (db.owner r).isSome

/-- The end of `ingest`, from its insert to the commit. -/
def commitIngest (event : CanonicalEvent) (c : Correlation) (outboxId : UUID) (now : Time)
    (db : Database) : Effect :=
  if db.conflicts c.created c.additions then Stage.stop (.raised "IntegrityError") db
  else
    let written := db.correlate c.processId c.created c.additions
    let created := c.created.toList.map fun process => IngestionEvent.created process.id event
    match db.event event.key with
    | some row =>
        -- `on_conflict_do_nothing`: what the transaction has written besides is committed
        match written.storedResult row with
        | .error message => Stage.stop (.raised message) db
        | .ok result => some (.ended (.ingested result), written, created)
    | none =>
        if (lookup InboxRow.id event.eventId db.inbox).isSome then
          Stage.stop (.raised "IntegrityError") db
        else
          let row := event.row c
          let inserted := { written with inbox := written.inbox ++ [row] }
          let result (outboxId : Option UUID) : IngestionResult :=
            ⟨row.id, true, c.status, some c.reason, c.processId, outboxId⟩
          match if c.status = .matched ∧ c.delivers then c.processId else none with
          | none => some (.ended (.ingested (result none)), inserted, created)
          | some processId =>
              match inserted.scheduleDelivery event processId outboxId now with
              | .error message => Stage.stop (.raised message) db
              | .ok (outbox, id) =>
                  some (.ended (.ingested (result (some id))),
                    { inserted with outbox := outbox }, created)

/-- `EventIngestionService.ingest`. -/
def Ingesting.statement (P : Platform) (event : CanonicalEvent)
    (bootstrap : Option ProcessBootstrap) : Ingesting → Answer → Database → Effect
  | .opening, .check error, db =>
      if event.eventType ∈ reservedKernelEventTypes then
        Stage.stop (.raised s!"event type is reserved for kernel use: {event.eventType}") db
      else
        match error with
        | some message => Stage.stop (.raised message) db
        | none => (Stage.ingesting event bootstrap .admitted).keep db
  | .admitted, .go, db => (Stage.ingesting event bootstrap .keyed).keep db
  | .keyed, .go, db =>
      match db.event event.key with
      | some row =>
          match db.storedResult row with
          | .error message => Stage.stop (.raised message) db
          | .ok result => Stage.stop (.ingested result) db
      | none =>
          if bootstrap.isSome ∧ event.externalReferences = [] then
            Stage.stop (.raised "a process-triggering event requires an external reference") db
          else (Stage.ingesting event bootstrap .unseen).keep db
  | .unseen, .go, db => (Stage.ingesting event bootstrap .referenced).keep db
  | .referenced, .go, db =>
      match event.processInstanceId with
      | none => (Stage.ingesting event bootstrap (.candidates none)).keep db
      | some processId =>
          match db.process processId with
          | none => (Stage.ingesting event bootstrap (.resolved
              { processId := none, status := .rejected
                reason := "explicit_process_not_found" })).keep db
          | some _ => (Stage.ingesting event bootstrap (.candidates (some processId))).keep db
  | .candidates explicit, .go, db =>
      (Stage.ingesting event bootstrap (.resolved (db.resolveProcess event explicit))).keep db
  | .resolved c, .fresh processId _ _, db =>
      -- `_create_process`, if the event is a trigger without a process
      match bootstrap with
      | none => none
      | some b =>
          if c.processId = none ∧ c.reason = "no_process_match" ∧ c.created = none then
            if (db.process processId).isSome then Stage.stop (.raised "IntegrityError") db
            else
              (Stage.ingesting event bootstrap (.resolved
                { processId := some processId, status := .matched
                  reason := "process_created_from_trigger"
                  created := some (b.process P.tenantId processId) })).keep db
          else none
  | .resolved c, .go, db =>
      if bootstrap.isSome ∧ c.processId = none ∧ c.reason = "no_process_match" then none
      else
        match if c.status = .matched then c.processId else none with
        | none => (Stage.ingesting event bootstrap (.bound c)).keep db
        | some processId =>
            match c.created.or (db.process processId) with
            | none => Stage.stop (.raised "matched process instance is unavailable") db
            | some process =>
                (Stage.ingesting event bootstrap (.holding c processId process)).keep db
  | .holding c processId process, .go, db =>
      match process.late with
      | .error message => Stage.stop (.raised message) db
      | .ok late =>
          match db.persistReferences processId event.externalReferences with
          | .error message => Stage.stop (.raised message) db
          | .ok additions =>
              (Stage.ingesting event bootstrap (.bound
                { c with
                  reason := if late then terminalRecordOnly else c.reason
                  delivers := !late
                  additions := additions })).keep db
  | .bound c, .fresh outboxId _ now, db => commitIngest event c outboxId now db
  | _, _, _ => none

/-! ### Resolutions -/

/-- A command that is stored already. -/
def ResolveQuarantineInput.replay (c : ResolveQuarantineInput) (row : ResolutionRow) : Outcome :=
  if row.eventId ≠ c.eventId ∨ row.processInstanceId ≠ c.processInstanceId ∨
      row.actorId ≠ c.actorId ∨ row.reason ≠ c.reason ∨
      row.boundReferences ≠ c.bindReferences.toFinset then
    .raised "resolution command ID was reused with different content"
  else .resolved row

/-- What `resolve` stores. -/
def ResolveQuarantineInput.row (c : ResolveQuarantineInput) (row : InboxRow) (late : Bool) :
    ResolutionRow where
  id := c.commandId
  eventId := c.eventId
  processInstanceId := c.processInstanceId
  actorId := c.actorId
  reason := c.reason
  boundReferences := c.bindReferences.toFinset
  previousStatus := row.correlationStatus
  previousReason := row.correlationReason
  deliveryScheduled := !late

/-- The row of an event that an operator has matched. -/
def InboxRow.resolve (row : InboxRow) (processId : UUID) (late : Bool) : InboxRow :=
  { row with
    processInstanceId := some processId
    correlationStatus := .matched
    correlationReason :=
      some (if late then terminalRecordOnly else "operator_quarantine_resolution") }

/-- The end of `resolve`, to its commit. -/
def commitResolution (c : ResolveQuarantineInput) (event : CanonicalEvent) (row : InboxRow)
    (process : ProcessRow) (additions : List ExternalReference) (outboxId : UUID) (now : Time)
    (db : Database) : Effect :=
  if db.conflicts none additions ∨ (lookup ResolutionRow.id c.commandId db.resolutions).isSome then
    Stage.stop (.raised "IntegrityError") db
  else
    let late := process.status.terminal
    let stored := c.row row late
    let written := db.correlate (some process.id) none additions
    let resolved := { written with
      inbox := modify InboxRow.id row.id (fun row => row.resolve process.id late) written.inbox
      resolutions := written.resolutions ++ [stored] }
    if late then some (.ended (.resolved stored), resolved, [])
    else
      match resolved.scheduleDelivery event process.id outboxId now with
      | .error message => Stage.stop (.raised message) db
      | .ok (outbox, _) => some (.ended (.resolved stored), { resolved with outbox := outbox }, [])

/-- `QuarantineResolutionService.resolve`.  The reason, the tenant and the deployment of the process
are checked outside these rows. -/
def Resolving.statement (c : ResolveQuarantineInput) : Resolving → Answer → Database → Effect
  | .opening, .check (some error), db => Stage.stop (.raised error) db
  | .opening, .check none, db => (Stage.resolving c .admitted).keep db
  | .admitted, .go, db => (Stage.resolving c .commanded).keep db
  | .commanded, .go, db =>
      match lookup ResolutionRow.id c.commandId db.resolutions with
      | some row => Stage.stop (c.replay row) db
      | none => (Stage.resolving c .loading).keep db
  | .loading, .go, db =>
      match lookup InboxRow.id c.eventId db.inbox with
      | none => Stage.stop (.raised "quarantined event not found") db
      | some row =>
          if row.eventData.eventType ∈ reservedKernelEventTypes then
            Stage.stop (.raised "kernel events cannot be replayed through quarantine") db
          else if ¬ c.bindReferences ⊆ row.eventData.externalReferences then
            Stage.stop (.raised "only references from the original event can be bound") db
          else (Stage.resolving c (.loaded row.eventData)).keep db
  | .loaded event, .go, db => (Stage.resolving c (.keyed event)).keep db
  | .keyed event, .go, db => (Stage.resolving c (.referenced event)).keep db
  | .referenced event, .go, db =>
      match lookup InboxRow.id c.eventId db.inbox with
      | none => Stage.stop (.raised "quarantined event not found") db
      | some row =>
          if row.correlationStatus = .matched ∨ row.processInstanceId.isSome then
            Stage.stop
              (.raised "event is already correlated; use delivery recovery if needed") db
          else (Stage.resolving c (.held event row)).keep db
  | .held event row, .check error, db =>
      match db.process c.processInstanceId with
      | none => Stage.stop (.raised "destination process not found") db
      | some process =>
          match error with
          | some message => Stage.stop (.raised message) db
          | none => (Stage.resolving c (.holding event row process)).keep db
  | .holding event row process, .go, db =>
      match process.late with
      | .error _ => Stage.stop (.raised "unsupported terminal late-event policy") db
      | .ok _ =>
          match db.persistReferences process.id c.bindReferences with
          | .error _ => Stage.stop
              (.raised
                "a selected reference belongs to another process; its ownership cannot change") db
          | .ok additions => (Stage.resolving c (.bound event row process additions)).keep db
  | .bound event row process additions, .fresh outboxId _ now, db =>
      commitResolution c event row process additions outboxId now db
  | _, _, _ => none

/-! ### Controls -/

/-- The commands that `apply_control` turns into a manual wake. -/
def ControlInput.wakes (c : ControlInput) : Bool :=
  c.commandType = "wake" || c.commandType = "resume"

/-- The status that a control writes. -/
def ControlInput.status (c : ControlInput) (status : ProcessStatus) : ProcessStatus :=
  if c.commandType = "takeover" then .paused
  else if c.commandType = "wake" then status
  else .active

/-- What `apply_control` stores. -/
def ControlInput.row (c : ControlInput) : ControlRow where
  id := c.commandId
  processInstanceId := c.processInstanceId
  commandType := c.commandType

/-- The event of a manual wake. -/
def ControlInput.event (c : ControlInput) (eventId : UUID) : CanonicalEvent where
  eventId := eventId
  processInstanceId := some c.processInstanceId
  eventType := "operator.manual_wake"
  source := "operator"
  sourceEventId := c.commandId

/-- The row that `_enqueue_manual_wake` adds. -/
def ControlInput.inboxRow (c : ControlInput) (eventId : UUID) : InboxRow :=
  (c.event eventId).row
    { processId := some c.processInstanceId, status := .matched, reason := "operator_manual_wake" }

/-- `on_conflict_do_nothing` on the deduplication key. -/
def enqueue (outbox : List OutboxMessage) (m : OutboxMessage) : List OutboxMessage :=
  if (lookup OutboxMessage.deduplicationKey m.deduplicationKey outbox).isSome then outbox
  else outbox ++ [m]

/-- The end of `apply_control`, to its commit. -/
def commitControl (c : ControlInput) (process : ProcessRow) (eventId outboxId : UUID) (now : Time)
    (db : Database) : Effect :=
  let written := { db with
    processes := modify ProcessRow.id process.id
      (fun row => { row with status := c.status row.status }) db.processes
    controls := db.controls ++ [c.row] }
  if (lookup ControlRow.id c.commandId db.controls).isSome then
    Stage.stop (.raised "IntegrityError") db
  else if c.wakes then
    let row := c.inboxRow eventId
    if (db.event row.key).isSome ∨ (lookup InboxRow.id eventId db.inbox).isSome then
      Stage.stop (.raised "IntegrityError") db
    else
      some (.ended (.controlled c.row), { written with
        inbox := written.inbox ++ [row]
        outbox := enqueue written.outbox (manualWakeMessage outboxId c.commandId eventId
          row.eventType process.id process.workflowId now) }, [])
  else
    some (.ended (.controlled c.row), { written with
      outbox := enqueue written.outbox (controlMessage outboxId c.commandId c.commandType c.sources
        process.id process.workflowId now) }, [])

/-- `ProcessControlService.apply_control`.  Its reason, its intervention and what the type of the
command asks of a process that is not over are checked outside these rows. -/
def Controlling.statement (c : ControlInput) : Controlling → Answer → Database → Effect
  | .opening, .check (some error), db => Stage.stop (.raised error) db
  | .opening, .check none, db => (Stage.controlling c .commanded).keep db
  | .commanded, .go, db =>
      match lookup ControlRow.id c.commandId db.controls with
      | some row =>
          if row ≠ c.row then Stage.stop (.raised "control command ID was reused") db
          else Stage.stop (.controlled row) db
      | none => (Stage.controlling c .unused).keep db
  | .unused, .check error, db =>
      match db.process c.processInstanceId with
      | none => Stage.stop (.raised "process instance not found") db
      | some process =>
          if process.status.terminal then
            Stage.stop (.raised "terminal processes cannot be controlled") db
          else
            match error with
            | some message => Stage.stop (.raised message) db
            | none => (Stage.controlling c (.holding process)).keep db
  | .holding process, .fresh eventId outboxId now, db =>
      commitControl c process eventId outboxId now db
  | _, _, _ => none

/-! ### One step -/

/-- The next statement of a call. -/
def Stage.statement (P : Platform) : Stage → Answer → Database → Effect
  | .ingesting event bootstrap i, x, db => i.statement P event bootstrap x db
  | .resolving command r, x, db => r.statement command x db
  | .controlling command c, x, db => c.statement command x db
  | .settingStatus processId status, .go, db =>
      (Stage.settingStatusLocked processId status).keep db
  | .settingStatusLocked processId status, .go, db =>
      some (.ended .written, { db with
        processes := modify ProcessRow.id processId
          (fun row => { row with status := status }) db.processes }, [])
  | _, _, _ => none

/-- What happens to a call: it is made, it stops, or its next statement is answered. -/
inductive CallInput where
  | call (call : Call)
  | crash
  | answer (answer : Answer)
  deriving DecidableEq, Repr

/-- One step of a call. -/
def next (P : Platform) (t : Stage) : CallInput → Database → Effect
  | .call c, db => if t.resting then c.start.keep db else none
  | .crash, db => Stage.idle.keep db
  | .answer x, db => t.statement P x db

/-! ### Locks -/

/-- The advisory locks, and the rows that are locked with `FOR UPDATE`. -/
inductive EventLock where
  | event (key : SourceKey)
  | reference (reference : ExternalReference)
  | command (commandId : UUID)
  | control (commandId : UUID)
  | row (eventId : UUID)
  | process (processId : UUID)
  deriving DecidableEq, Repr

/-- The locks on an event and its references. -/
def CanonicalEvent.locks (e : CanonicalEvent) : List EventLock :=
  .event e.key :: e.externalReferences.map .reference

/-- The locks of an ingestion. -/
def Ingesting.locks (e : CanonicalEvent) : Ingesting → List EventLock
  | .opening | .admitted => []
  | .keyed | .unseen => [.event e.key]
  | .referenced | .candidates _ | .resolved _ => e.locks
  | .holding _ processId _ => .process processId :: e.locks
  | .bound c => c.processId.toList.map .process ++ e.locks

/-- The locks of a resolution. -/
def Resolving.locks (c : ResolveQuarantineInput) : Resolving → List EventLock
  | .opening | .admitted => []
  | .commanded | .loading | .loaded _ => [.command c.commandId]
  | .keyed event => [.command c.commandId, .event event.key]
  | .referenced event => .command c.commandId :: event.locks
  | .held event _ => .row c.eventId :: .command c.commandId :: event.locks
  | .holding event _ process | .bound event _ process _ =>
      .process process.id :: .row c.eventId :: .command c.commandId :: event.locks

/-- The locks of a control. -/
def Controlling.locks (c : ControlInput) : Controlling → List EventLock
  | .opening => []
  | .commanded | .unused => [.control c.commandId]
  | .holding process => [.control c.commandId, .process process.id]

/-- The locks of a stage. -/
def Stage.locks : Stage → List EventLock
  | .ingesting event _ i => i.locks event
  | .resolving command r => r.locks command
  | .controlling command c => c.locks command
  | .settingStatusLocked processId _ => [.process processId]
  | _ => []

/-- The code of the calls. -/
def calls (P : Platform) : Transactions.Code Database Stage CallInput IngestionEvent EventLock where
  next := next P
  locks := Stage.locks

end TiramisuAgents.Events
