import TiramisuAgents.Events.Outbox
import TiramisuAgents.Library.Tables

/-!
The rows of a tenant that the ingestion of events reads and writes (`db/models/events.py`,
`db/models/processes.py`).

Row-level security confines a session to the rows of its tenant, so the tables are those of one
tenant.  Of a process there is what ingestion uses; what the bootstrap copies besides is left out.

* `CanonicalEvent`, `InboxRow`, `CorrelationRow`, `ProcessRow`, `ResolutionRow`: the rows.
* `Database.existingResult`: `_existing_result`.
* `Database.scheduleDelivery`: `schedule_delivery`.
* `Database.persistReferences`: what `persist_references` adds.
-/

namespace TiramisuAgents.Events

open Tables

/-! ### Rows -/

/-- `ExternalReference`. -/
structure ExternalReference where
  provider : String
  resourceType : String
  externalId : String
  deriving DecidableEq, Repr

/-- What the services use of a `CanonicalEvent`. -/
structure CanonicalEvent where
  eventId : UUID
  processInstanceId : Option UUID := none
  eventType : String
  source : String
  sourceEventId : String
  externalReferences : List ExternalReference := []
  deriving DecidableEq, Repr

/-- The identity of an event at its source. -/
abbrev SourceKey := String × String

/-- `source` and `source_event_id`. -/
def CanonicalEvent.key (e : CanonicalEvent) : SourceKey := (e.source, e.sourceEventId)

/-- `event_inbox.correlation_status`. -/
inductive CorrelationStatus where
  | pending | matched | rejected
  deriving DecidableEq, Repr

/-- A row of `event_inbox`. -/
structure InboxRow where
  id : UUID
  processInstanceId : Option UUID
  source : String
  sourceEventId : String
  eventType : String
  eventData : CanonicalEvent
  correlationStatus : CorrelationStatus
  correlationReason : Option String
  deriving DecidableEq, Repr

/-- The columns of `uq_event_inbox_source_event`. -/
def InboxRow.key (row : InboxRow) : SourceKey := (row.source, row.sourceEventId)

/-- A row of `external_correlations`. -/
structure CorrelationRow where
  reference : ExternalReference
  processInstanceId : UUID
  deriving DecidableEq, Repr

/-- What ingestion uses of a row of `process_instances`. -/
structure ProcessRow where
  id : UUID
  status : ProcessStatus
  workflowId : String
  lateEventPolicy : String
  deriving DecidableEq, Repr

/-- What ingestion uses of a `ProcessBootstrap`. -/
structure ProcessBootstrap where
  lateEventPolicy : String := "record_only"
  deriving DecidableEq, Repr

/-- The process that `_create_process` adds. -/
def ProcessBootstrap.process (b : ProcessBootstrap) (tenantId processId : UUID) : ProcessRow where
  id := processId
  status := .active
  workflowId := s!"tenant/{tenantId}/process/{processId}"
  lateEventPolicy := b.lateEventPolicy

/-- `ResolveQuarantineInput`. -/
structure ResolveQuarantineInput where
  commandId : UUID
  eventId : UUID
  processInstanceId : UUID
  actorId : UUID
  reason : String
  bindReferences : List ExternalReference := []
  deriving DecidableEq, Repr

/-- A row of `event_resolution_commands`; its references, sorted there, are a set. -/
structure ResolutionRow where
  id : UUID
  eventId : UUID
  processInstanceId : UUID
  actorId : UUID
  reason : String
  boundReferences : Finset ExternalReference
  previousStatus : CorrelationStatus
  previousReason : Option String
  deliveryScheduled : Bool
  deriving DecidableEq

/-- What ingestion uses of a row of `process_control_commands`. -/
structure ControlRow where
  id : UUID
  processInstanceId : UUID
  commandType : String
  deriving DecidableEq, Repr

/-- The rows of a tenant. -/
structure Database where
  processes : List ProcessRow := []
  correlations : List CorrelationRow := []
  inbox : List InboxRow := []
  outbox : List OutboxMessage := []
  resolutions : List ResolutionRow := []
  controls : List ControlRow := []

/-! ### Queries -/

/-- `IngestionResult`. -/
structure IngestionResult where
  eventId : UUID
  created : Bool
  correlationStatus : CorrelationStatus
  correlationReason : Option String
  processInstanceId : Option UUID
  outboxMessageId : Option UUID
  deriving DecidableEq, Repr

/-- The reason of a row that is recorded for a process that is over. -/
def terminalRecordOnly : String := "terminal_process_record_only"

/-- The messages that an event has caused: the join of `_existing_result`. -/
def Database.caused (db : Database) (eventId : UUID) : List OutboxMessage :=
  db.outbox.filter fun m => m.causationEventId = some eventId

/-- What `_existing_result` makes of a row. -/
def Database.storedResult (db : Database) (row : InboxRow) : Except String IngestionResult :=
  match db.caused row.id with
  | [] => .ok ⟨row.id, false, row.correlationStatus, row.correlationReason,
      row.processInstanceId, none⟩
  | [m] => .ok ⟨row.id, false, row.correlationStatus, row.correlationReason,
      row.processInstanceId, some m.id⟩
  | _ => .error "MultipleResultsFound"

/-- The row of a source key. -/
def Database.event (db : Database) (key : SourceKey) : Option InboxRow :=
  lookup InboxRow.key key db.inbox

/-- The process of an identity. -/
def Database.process (db : Database) (id : UUID) : Option ProcessRow :=
  lookup ProcessRow.id id db.processes

/-- The owner of a reference. -/
def Database.owner (db : Database) (reference : ExternalReference) : Option UUID :=
  (lookup CorrelationRow.reference reference db.correlations).map CorrelationRow.processInstanceId

/-- The owners of the references of an event, each once. -/
def Database.owners (db : Database) (references : List ExternalReference) : List UUID :=
  (references.filterMap db.owner).dedup

/-- The correlations that `persist_references` adds, or the reference that another process owns. -/
def Database.persistReferences (db : Database) (processId : UUID)
    (references : List ExternalReference) : Except String (List ExternalReference) :=
  if references.any fun r => (db.owner r).any (· ≠ processId) then
    .error "external reference changed ownership during correlation"
  else .ok (references.dedup.filter fun r => (db.owner r).isNone)

/-- `schedule_delivery`: the outbox after it, and the identity of the message. -/
def Database.scheduleDelivery (db : Database) (event : CanonicalEvent) (processId outboxId : UUID)
    (now : Time) : Except String (List OutboxMessage × UUID) :=
  match db.process processId with
  | none => .error "matched process has no workflow identity"
  | some process =>
      let m := eventMessage outboxId event.eventId event.eventType processId process.workflowId now
      match lookup OutboxMessage.deduplicationKey m.deduplicationKey db.outbox with
      | none => .ok (db.outbox ++ [m], outboxId)
      | some stored =>
          if stored.processInstanceId ≠ some processId then
            .error "event delivery identity conflicts with its destination"
          else .ok (db.outbox, stored.id)

end TiramisuAgents.Events
