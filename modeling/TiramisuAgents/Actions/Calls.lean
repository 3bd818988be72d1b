import TiramisuAgents.Actions.Database
import TiramisuAgents.Core.Policy
import TiramisuAgents.Library.Transactions

/-!
The calls that read and write the rows of one action, statement by statement:
`ActionExecutor.execute` and `reconcile` (`actions/execution.py`),
`ActionReconciliationService.resolve_unknown` (`actions/reconciliation.py`),
`submit_review_command` with `ReviewService.apply` (`api/processes.py`, `reviews/service.py`),
`ActionGateway.persist_decision` (`actions/gateway.py`) and the services that write
`process.status`.

A stage keeps what the call has read, the rows of its session included.  A row that a session
has loaded is not read again by a later `select` of the same session, which is why a review
goes on with the approval and the process it has loaded without a lock.  Transactions are
atomic: what they write appears in the database with their commit, and a call may stop at any
stage.  What the calls learn from outside these rows (the tenant, the compatibility of the
process, the safety gates, the provider, the time) is the answer they are given.

* `Call`, `Stage`, `Answer`, `ActionEvent`: the calls, where they stand, what they are told,
  and what can be observed of them.
* `Stage.statement`, `next`: one statement.
* `calls`: the code, with the row locks of each stage.
-/

namespace TiramisuAgents

/-! ### The platform -/

/-- The rows that are locked with `FOR UPDATE` or by an `UPDATE`. -/
inductive RowLock where
  | process
  | request
  | attempt (key : String)
  deriving DecidableEq, Repr

/-- What the executor uses of an `ActionAdapter`. -/
structure ActionAdapter where
  id : String
  guaranteesIdempotency : Bool
  deriving DecidableEq, Repr

/-- The identities of the action, the hash functions and the adapter registry.  The
compatibility checks pin the deployment and the pack of a process, so the registry is one. -/
structure Platform where
  tenantId : UUID
  processInstanceId : UUID
  actionRequestId : UUID
  sha256 : String → String
  actionPayloadIdentity : String → Parameters → String
  adapters : String → Option ActionAdapter
  /-- What a value comes back as from a `JSONB` column. -/
  jsonb : String → String := id

/-- `execution_idempotency_key`. -/
def Platform.executionIdempotencyKey (P : Platform) (revision : ℕ) (payloadHash : String) :
    String :=
  P.sha256 s!"{P.tenantId}:{P.processInstanceId}:{P.actionRequestId}:{revision}:{payloadHash}"

/-! ### Answers -/

/-- What the tenant table says about the tenant and the deployment of a worker. -/
inductive TenantStanding where
  | active | suspended | unavailable | unassigned
  deriving DecidableEq, Repr

/-- What stops an execution at its fence. -/
inductive GateBlock where
  | communication (message : String)
  | breaker (message : String)
  deriving DecidableEq, Repr

/-- The error recorded for a blocked execution. -/
def GateBlock.error : GateBlock → String
  | .communication message => s!"communication safety blocked execution: {message}"
  | .breaker message => s!"circuit breaker open: {message}"

/-- The answer of `adapter.lookup`; an error carries its type and text. -/
inductive LookupAnswer where
  | failed (error : String)
  | absent
  | conflict (conflict : ActionConflict)
  | found (result : ProviderActionResult)
  deriving DecidableEq, Repr

/-- The answer of `adapter.execute`; an `error` of another type carries its type and text. -/
inductive ProviderAnswer where
  | success (result : ProviderActionResult)
  | definitiveConflict (conflict : ActionConflict)
  | definitiveFailure (message : String)
  | ambiguous (message : String)
  | error (message : String)
  deriving DecidableEq, Repr

namespace ProviderAnswer

/-- What the executor records for an answer. -/
def outcome : ProviderAnswer → RecordedOutcome
  | success result => .success result
  | definitiveConflict conflict => .conflicting conflict
  | definitiveFailure message => .failure message
  | ambiguous message => .ambiguous message
  | error message => .ambiguous message

/-- The provider raised `DefinitiveActionFailure`, of which `DefinitiveActionConflict` is a
subclass. -/
def definitive : ProviderAnswer → Bool
  | definitiveConflict _ | definitiveFailure _ => true
  | success _ | ambiguous _ | error _ => false

end ProviderAnswer

/-- What a statement is told: that the database has answered, or an answer from outside.  A
`check` is the verdict of a check on data outside these rows, with its error. -/
inductive Answer where
  | go
  | tenant (standing : TenantStanding)
  | time (now : Time)
  | check (error : Option String)
  | lookup (answer : LookupAnswer)
  | gate (block : Option GateBlock)
  | provider (answer : ProviderAnswer)
  deriving DecidableEq, Repr

/-! ### Calls -/

/-- The body of a review command; the operator's identity adds the actor. -/
structure ReviewCommand where
  commandId : UUID
  commandType : ReviewCommandType
  actorId : UUID
  message : Option String := none
  expectedPayloadHash : Option String := none
  deriving DecidableEq, Repr

/-- The arguments of `_persist_action`, with the outcome of its policy. -/
structure Proposal where
  action : ActionProposal
  outcome : PermissionOutcome
  supersedesActionRequestId : Option UUID := none
  deriving DecidableEq, Repr

/-- The calls.  The services that write `process.status` lock the process row first, and are
taken as one call that may write any status.  The identities of the review messages are unique
in all threads, so a review of another action may take one. -/
inductive Call where
  | persist (proposal : Proposal)
  | review (command : ReviewCommand)
  | execute (revision : ℕ)
  | reconcile (revision : ℕ)
  | resolve (command : OperatorActionResolution)
  | setProcessStatus (status : ProcessStatus)
  | reviewElsewhere (commandId thread : UUID) (row : MessageRow)
  deriving DecidableEq, Repr

/-- How a call ends. -/
inductive Outcome where
  | returned (key : String) (attempt : AttemptRow)
  | reviewed (thread : ReviewThreadStatus) (approval : ApprovalStatus)
      (request : ActionRequestStatus)
  | persisted (outcome : PermissionOutcome) (status : ActionRequestStatus)
  | written
  | suspended (message : String)
  | rejected (message : String)
  | raised (message : String)
  deriving DecidableEq, Repr

/-! ### Stages -/

/-- The row that `_load_authorized_action` selects. -/
structure Loaded where
  request : RequestRow
  revision : RevisionRow
  policy : PermissionOutcome
  process : ProcessStatus
  deriving DecidableEq, Repr

/-- Which transaction loads the action: the first of `execute`, the one of `reconcile`, or the
second of `execute`, which holds the key, and knows whether the first inserted the attempt. -/
inductive Phase where
  | claim
  | reconcile
  | fence (key : String) (adapter : ActionAdapter) (isNewAttempt : Bool)
  deriving DecidableEq, Repr

/-- Where a transaction stands until the action is authorised. -/
inductive Authorising where
  | admitting
  | selecting
  | loaded (row : Loaded)
  | approving (row : Loaded)
  | deciding (row : Loaded)
  | authorised (row : Loaded)
  deriving DecidableEq, Repr

/-- Who looks an execution up. -/
inductive Lookup where
  | execute (revision : ℕ) (adapter : ActionAdapter)
  | reconcile
  deriving DecidableEq, Repr

/-- What a review writes besides its message; a column that does not change is not written. -/
structure ReviewWrite where
  approval : Option ApprovalStatus := none
  thread : Option ReviewThreadStatus := none
  request : Option ActionRequestStatus := none
  decision : Option DecisionRow := none
  deriving DecidableEq, Repr

/-- The thread and the approval that `submit_review_command` loads with one `select`. -/
structure ReviewTarget where
  thread : ReviewThreadStatus
  approval : ApprovalRow
  deriving DecidableEq, Repr

/-- Where a review stands.  `target` and `process` are the rows its session has loaded before it
locks the process. -/
inductive Reviewing where
  | opening
  | threadRead (target : ReviewTarget)
  | processRead (target : ReviewTarget) (process : ProcessStatus)
  | messageRead (target : ReviewTarget) (process : ProcessStatus) (existing : Option MessageRow)
  | locked (target : ReviewTarget) (existing : Option MessageRow)
  | flushing (target : ReviewTarget) (request : RequestRow) (write : ReviewWrite)
  deriving DecidableEq, Repr

/-- Where a call stands. -/
inductive Stage where
  | idle
  | ended (outcome : Outcome)
  | authorising (phase : Phase) (revision : ℕ) (authorising : Authorising)
  | claimed (revision : ℕ) (key : String) (adapter : ActionAdapter) (existing : Option AttemptRow)
  | marking (key : String) (attempt : AttemptRow)
  | marked (key : String) (attempt : AttemptRow)
  | looking (lookup : Lookup) (key : String)
  | gating (revision : ℕ) (key : String) (row : Loaded)
  | invoking (key : String)
  | recording (key : String) (outcome : RecordedOutcome)
  | recordingAttempt (key : String) (outcome : RecordedOutcome) (attempt : AttemptRow)
  | recordingBoth (key : String) (outcome : RecordedOutcome) (attempt : AttemptRow)
  | resolving (command : OperatorActionResolution)
  | resolvingFresh (command : OperatorActionResolution)
  | resolvingBoth (command : OperatorActionResolution) (attempt : AttemptRow)
  | reviewing (command : ReviewCommand) (reviewing : Reviewing)
  | persisting (proposal : Proposal)
  | persistingLocked (proposal : Proposal)
  | settingStatus (status : ProcessStatus)
  | settingStatusLocked (status : ProcessStatus)
  | reviewingElsewhere (commandId thread : UUID) (row : MessageRow)
  deriving DecidableEq, Repr

/-- The first stage of a call. -/
def Call.start : Call → Stage
  | .persist proposal => .persisting proposal
  | .review command => .reviewing command .opening
  | .execute revision => .authorising .claim revision .admitting
  | .reconcile revision => .authorising .reconcile revision .admitting
  | .resolve command => .resolving command
  | .setProcessStatus status => .settingStatus status
  | .reviewElsewhere commandId thread row => .reviewingElsewhere commandId thread row

/-- The call is over, or there is none. -/
def Stage.resting : Stage → Bool
  | .idle | .ended _ => true
  | _ => false

/-! ### What is observed -/

/-- An invocation of `adapter.execute`: what it is sent, and the database at that moment. -/
structure Invocation where
  idempotencyKey : String
  revision : ℕ
  actionType : String
  parameters : Parameters
  database : Database

/-- What is observed: a request status that is committed, an invocation of the provider and
its answer, an outcome committed by the executor, and one committed by an operator. -/
inductive ActionEvent where
  | requestStatus (status : ActionRequestStatus)
  | invoked (invocation : Invocation)
  | answered (key : String) (answer : ProviderAnswer)
  | recorded (key : String) (status : ActionAttemptStatus)
  | resolved (key : String) (status : ActionAttemptStatus)

/-- The stage after a statement, the committed database and what is observed. -/
abbrev Effect := Option (Stage × Database × List ActionEvent)

/-- A statement that commits nothing. -/
def Stage.keep (t : Stage) (db : Database) : Effect := some (t, db, [])

/-- A call ends. -/
def Stage.stop (o : Outcome) (db : Database) : Effect := (Stage.ended o).keep db

/-! ### Authorisation -/

/-- `_require_execution_enabled` and, for a reconciliation, `_require_reconciliation_enabled`,
which does not look at the tenant's status. -/
def Phase.refusal : Phase → TenantStanding → Option Outcome
  | .reconcile, .active | .reconcile, .suspended => none
  | .reconcile, .unavailable => some (.rejected "reconciliation tenant is unavailable")
  | .reconcile, .unassigned =>
      some (.rejected "tenant is not assigned to this reconciliation deployment")
  | _, .active => none
  | _, .suspended => some (.suspended "tenant safety control blocks action execution")
  | _, .unavailable => some (.rejected "action execution tenant is unavailable")
  | _, .unassigned =>
      some (.rejected "tenant is not assigned to this action-execution deployment")

/-- The join of `_load_authorized_action`; the tables hold revision 1 only. -/
def Database.row (db : Database) (revision : ℕ) : Option Loaded :=
  if revision = 1 then
    db.request.bind fun request =>
      db.revision.bind fun row =>
        db.policy.map fun policy => ⟨request, row, policy, db.process⟩
  else none

/-- The checks of `_load_authorized_action` on the row it has selected.  An outcome that
requires approval is checked further. -/
def Loaded.refusal (row : Loaded) (revision : ℕ) : Option String :=
  if row.process.fenced then
    some s!"process state does not permit action execution: {row.process.value}"
  else if row.request.currentRevision ≠ revision then
    some "action revision is no longer current"
  else
    match row.policy with
    | .allow =>
        if row.request.status = .allowed ∨ row.request.status.retryable then none
        else some "action is not currently allowed to execute"
    | .requireApproval => none
    | .deny => some "policy denied action execution"

/-- `approval.expires_at is not None and approval.expires_at <= now`. -/
def ApprovalRow.expired (approval : ApprovalRow) (now : Time) : Bool :=
  approval.expiresAt.any fun t => t ≤ now

/-- The approval of the exact payload: it is approved and has not expired. -/
def Loaded.approvalRefusal (row : Loaded) (approval : Option ApprovalRow) (now : Time) :
    Option String :=
  match approval with
  | some a =>
      if a.payloadHash ≠ row.revision.payloadHash ∨ a.status ≠ .approved then
        some "exact action payload has not been approved"
      else if a.expired now then some "exact action approval has expired"
      else none
  | none => some "exact action payload has not been approved"

/-- The decision behind the approval, and the status of the request. -/
def Loaded.decisionRefusal (row : Loaded) (decision : Option DecisionRow) : Option String :=
  if decision ≠ some ⟨.approved, row.revision.payloadHash⟩ then
    some "immutable approval decision is missing"
  else if row.request.status = .approved ∨ row.request.status.retryable then none
  else some "approved action is no longer executable"

/-- The first transaction of `execute` reserves the attempt of the key. -/
def claimAttempt (P : Platform) (revision : ℕ) (row : Loaded) (db : Database) : Effect :=
  match P.adapters row.request.actionType with
  | none =>
      Stage.stop (.raised s!"no action adapter registered for: {row.request.actionType}") db
  | some adapter =>
      let key := P.executionIdempotencyKey revision row.revision.payloadHash
      (Stage.claimed revision key adapter (db.attempts key)).keep db

/-- The transaction of `reconcile` reads the attempt of the key. -/
def findAttempt (P : Platform) (revision : ℕ) (row : Loaded) (db : Database) : Effect :=
  match P.adapters row.request.actionType with
  | none =>
      Stage.stop (.raised s!"no action adapter registered for: {row.request.actionType}") db
  | some _ =>
      let key := P.executionIdempotencyKey revision row.revision.payloadHash
      match db.attempts key with
      | none => Stage.stop (.rejected "action has no execution attempt to reconcile") db
      | some attempt =>
          if attempt.status.terminal then Stage.stop (.returned key attempt) db
          else (Stage.marking key attempt).keep db

/-- What the transactions do with an authorised action, once its process is compatible. -/
def Phase.proceed (P : Platform) (phase : Phase) (revision : ℕ) (row : Loaded) (db : Database) :
    Effect :=
  match phase with
  | .claim => claimAttempt P revision row db
  | .reconcile => findAttempt P revision row db
  | .fence key _ _ => (Stage.gating revision key row).keep db

/-- `_require_…_enabled`, `_load_authorized_action` and `_require_compatible_process`. -/
def Authorising.statement (P : Platform) (phase : Phase) (revision : ℕ) :
    Authorising → Answer → Database → Effect
  | .admitting, .tenant standing, db =>
      match phase.refusal standing with
      | some outcome => Stage.stop outcome db
      | none => (Stage.authorising phase revision .selecting).keep db
  | .selecting, .go, db =>
      match db.row revision with
      | none => Stage.stop (.rejected "action revision not found") db
      | some row => (Stage.authorising phase revision (.loaded row)).keep db
  | .loaded row, .go, db =>
      match row.refusal revision with
      | some message => Stage.stop (.rejected message) db
      | none =>
          if row.policy = .requireApproval then
            (Stage.authorising phase revision (.approving row)).keep db
          else (Stage.authorising phase revision (.authorised row)).keep db
  | .approving row, .time now, db =>
      match row.approvalRefusal db.approval now with
      | some message => Stage.stop (.rejected message) db
      | none => (Stage.authorising phase revision (.deciding row)).keep db
  | .deciding row, .go, db =>
      match row.decisionRefusal db.decision with
      | some message => Stage.stop (.rejected message) db
      | none => (Stage.authorising phase revision (.authorised row)).keep db
  | .authorised _, .check (some error), db => Stage.stop (.raised error) db
  | .authorised row, .check none, db => phase.proceed P revision row db
  | _, _, _ => none

/-! ### Execution and reconciliation -/

/-- The first commit of `execute`. -/
def commitClaim (revision : ℕ) (key : String) (adapter : ActionAdapter) (db : Database) :
    Option AttemptRow → Effect
  | none =>
      some (.authorising (.fence key adapter true) revision .admitting,
        (db.setRequestStatus .executing).setAttempt key
          { adapterId := adapter.id, status := .executing },
        [.requestStatus .executing])
  | some attempt =>
      if attempt.adapterId ≠ adapter.id then
        Stage.stop (.rejected "action adapter binding changed for this attempt") db
      else if attempt.status.terminal then Stage.stop (.returned key attempt) db
      else
        some (.looking (.execute revision adapter) key, db.setRequestStatus .executing,
          [.requestStatus .executing])

/-- The commit of the transaction of `reconcile`. -/
def commitMark (key : String) (db : Database) : Effect :=
  some (.looking .reconcile key, db, [.requestStatus .reconciling])

/-- What a lookup leads to. -/
def Lookup.proceed (key : String) : Lookup → LookupAnswer → Stage
  | .execute _ _, .failed error => .recording key (.ambiguous s!"lookup failed: {error}")
  | .reconcile, .failed error =>
      .recording key (.ambiguous s!"reconciliation lookup failed: {error}")
  | _, .conflict conflict => .recording key (.conflicting conflict)
  | _, .found result => .recording key (.success result)
  | .execute revision adapter, .absent =>
      if adapter.guaranteesIdempotency then
        .authorising (.fence key adapter false) revision .admitting
      else
        .recording key (.ambiguous "provider cannot safely retry an unresolved execution")
  | .reconcile, .absent =>
      .recording key (.ambiguous "provider lookup could not establish the execution outcome")

/-- The fence: a blocked execution is recorded as failed, and otherwise the provider is
invoked while the transaction holds its locks. -/
def passGate (revision : ℕ) (key : String) (row : Loaded) (db : Database) :
    Option GateBlock → Effect
  | some block => (Stage.recording key (.failure block.error)).keep db
  | none =>
      some (.invoking key, db,
        [.invoked
          { idempotencyKey := key
            revision := revision
            actionType := row.request.actionType
            parameters := row.revision.parameters
            database := db }])

/-- The commit of `_record_terminal`. -/
def commitOutcome (key : String) (outcome : RecordedOutcome) (attempt : AttemptRow)
    (db : Database) : Effect :=
  if attempt.status.terminal then Stage.stop (.returned key attempt) db
  else
    some (.ended (.returned key (outcome.apply attempt)),
      (db.setRequestStatus outcome.status.toRequest).setAttempt key (outcome.apply attempt),
      [.recorded key outcome.status, .requestStatus outcome.status.toRequest])

/-! ### Operators -/

/-- A stored decision has to be the same. -/
def resolvedBefore (stored command : OperatorActionResolution) (attempt : AttemptRow) : Outcome :=
  if stored = command then .returned command.idempotencyKey attempt
  else .rejected "action attempt already has a different reconciliation decision"

/-- The first reads of `resolve_unknown`. -/
def findResolution (command : OperatorActionResolution) (db : Database) : Effect :=
  match db.resolutions command.idempotencyKey, db.attempts command.idempotencyKey with
  | none, _ => (Stage.resolvingFresh command).keep db
  | some stored, some attempt => Stage.stop (resolvedBefore stored command attempt) db
  | some _, none => Stage.stop (.rejected "resolved action attempt is unavailable") db

/-- The commit of `resolve_unknown`, which needs the workflow of the process. -/
def commitResolution (P : Platform) (command : OperatorActionResolution) (attempt : AttemptRow)
    (error : Option String) (db : Database) : Effect :=
  if attempt.status = .unknown ∨ attempt.status = .reconciling then
    match error with
    | some message => Stage.stop (.rejected message) db
    | none =>
        some (.ended (.returned command.idempotencyKey (command.apply attempt)),
          { (db.setRequestStatus command.resolution.status.toRequest).setAttempt
              command.idempotencyKey ((command.kept P.jsonb).apply attempt) with
            resolutions := Function.update db.resolutions command.idempotencyKey
              (some (command.kept P.jsonb)) },
          [.resolved command.idempotencyKey command.resolution.status,
            .requestStatus command.resolution.status.toRequest])
  else
    match db.resolutions command.idempotencyKey with
    | some stored => Stage.stop (resolvedBefore stored command attempt) db
    | none => Stage.stop (.rejected "only an unknown action outcome can be resolved") db

/-! ### Reviews -/

/-- The message row of a review command. -/
def ReviewCommand.row (c : ReviewCommand) : MessageRow where
  messageType := c.commandType
  actorId := c.actorId
  content := c.message
  proposalRevision := 1

/-- The outbox message of a review command. -/
def ReviewCommand.notice (c : ReviewCommand) : ReviewNotice where
  deduplicationKey := s!"process-review:{c.commandId}"
  commandId := c.commandId
  commandType := c.commandType
  proposalRevision := 1

/-- A command whose message is stored already. -/
def ReviewCommand.replay (c : ReviewCommand) (target : ReviewTarget) (request : RequestRow)
    (existing : MessageRow) : Outcome :=
  if existing ≠ c.row
      ∨ (c.commandType = .approve ∧ c.expectedPayloadHash ≠ some target.approval.payloadHash) then
    .rejected "review command ID was reused with different content"
  else .reviewed target.thread target.approval.status request.status

/-- The decision of `ReviewService.apply` on the rows of its session. -/
def ReviewCommand.write (c : ReviewCommand) (approval : ApprovalRow) (request : RequestRow) :
    Except String ReviewWrite :=
  let status (s : ActionRequestStatus) := if request.status = s then none else some s
  match c.commandType with
  | .approve =>
      if c.expectedPayloadHash ≠ some approval.payloadHash then
        .error "approval payload hash does not match the current proposal"
      else
        .ok { approval := some .approved, thread := some .approved, request := status .approved
              decision := some ⟨.approved, approval.payloadHash⟩ }
  | .reject =>
      .ok { approval := some .rejected, thread := some .rejected, request := status .rejected
            decision := some ⟨.rejected, approval.payloadHash⟩ }
  | .requestRevision =>
      .ok { approval := some .superseded, thread := some .revisionRequested
            request := status .superseded }
  | .comment => .ok {}
  | other => .error s!"unsupported review command: {other.value}"

/-- The checks of `ReviewService.apply` once it holds the process. -/
def ReviewCommand.decide (c : ReviewCommand) (target : ReviewTarget)
    (existing : Option MessageRow) (now : Time) (db : Database) : Effect :=
  match db.request with
  | none => Stage.stop (.rejected "review target not found") db
  | some request =>
      if request.currentRevision ≠ 1 then
        Stage.stop (.rejected "review command targets a stale proposal revision") db
      else
        match existing with
        | some message => Stage.stop (c.replay target request message) db
        | none =>
            if target.approval.status ≠ .pending ∨ target.thread ≠ .open_ then
              Stage.stop (.rejected "review is no longer pending") db
            else if target.approval.expired now then
              Stage.stop (.rejected "approval has expired") db
            else
              match c.write target.approval request with
              | .error message => Stage.stop (.rejected message) db
              | .ok write =>
                  (Stage.reviewing c (.flushing target request write)).keep db

/-- `on_conflict_do_nothing` on the deduplication key. -/
def enqueueNotice (outbox : List ReviewNotice) (notice : ReviewNotice) : List ReviewNotice :=
  if outbox.any fun m => m.deduplicationKey = notice.deduplicationKey then outbox
  else outbox ++ [notice]

/-- What a review commits. -/
def Database.review (db : Database) (c : ReviewCommand) (w : ReviewWrite) : Database :=
  { db with
    approval := db.approval.map fun row => { row with status := w.approval.getD row.status }
    thread := db.thread.map fun status => w.thread.getD status
    request := db.request.map fun row => { row with status := w.request.getD row.status }
    decision := w.decision.or db.decision
    messages := Function.update db.messages c.commandId (some c.row)
    outbox := enqueueNotice db.outbox c.notice }

/-- The commit of `ReviewService.apply`; an approval has one decision, and a command one
message. -/
def commitReview (c : ReviewCommand) (target : ReviewTarget) (request : RequestRow)
    (w : ReviewWrite) (db : Database) : Effect :=
  if (w.decision.isSome ∧ db.decision.isSome) ∨ (db.messages c.commandId).isSome then
    Stage.stop (.raised "IntegrityError") db
  else
    some (.ended (.reviewed (w.thread.getD target.thread)
        (w.approval.getD target.approval.status) (w.request.getD request.status)),
      db.review c w, w.request.toList.map .requestStatus)

/-- The commit of a review of another action. -/
def commitElsewhere (commandId thread : UUID) (row : MessageRow) (db : Database) : Effect :=
  if (db.messages commandId).isSome then Stage.stop (.raised "IntegrityError") db
  else
    some (.ended .written, { db with
      messages := Function.update db.messages commandId
        (some { row with otherThread := some thread }) }, [])

/-- The join of `submit_review_command`. -/
def Database.target (db : Database) : Option ReviewTarget :=
  db.thread.bind fun thread => db.approval.map fun approval => ⟨thread, approval⟩

/-- `submit_review_command` and `ReviewService.apply`.  The second `select` of the thread, of the
approval and of the process finds them in the session, and leaves them as they were loaded. -/
def Reviewing.statement (c : ReviewCommand) : Reviewing → Answer → Database → Effect
  | .opening, .go, db =>
      match db.target with
      | none => Stage.stop (.rejected "review thread not found") db
      | some target => (Stage.reviewing c (.threadRead target)).keep db
  | .threadRead target, .go, db =>
      (Stage.reviewing c (.processRead target db.process)).keep db
  | .processRead _ _, .check (some error), db => Stage.stop (.rejected error) db
  | .processRead target process, .check none, db =>
      (Stage.reviewing c (.messageRead target process (db.messages c.commandId))).keep db
  | .messageRead target process existing, .go, db =>
      if process.fenced then
        Stage.stop (.rejected
          s!"process state does not permit a review decision: {process.value}") db
      else (Stage.reviewing c (.locked target existing)).keep db
  | .locked target existing, .time now, db => c.decide target existing now db
  | .flushing _ _ _, .check (some error), db => Stage.stop (.rejected error) db
  | .flushing target request write, .check none, db => commitReview c target request write db
  | _, _, _ => none

/-! ### The gateway -/

/-- `require_action_parameters` with the default limits. -/
def requireActionParameters (parameters : Parameters) : Except String Unit := do
  requireItemCount "action parameters fields" parameters.fields 100
  requireJsonBytes "action parameters" parameters.text.utf8ByteSize (32 * 1024)

/-- The request row `_persist_action` inserts. -/
def Proposal.request (p : Proposal) : RequestRow where
  actionType := p.action.actionType
  currentRevision := 1
  status := initialActionRequestStatus p.outcome
  supersedesActionRequestId := p.supersedesActionRequestId

/-- The inserts of `_persist_action`, each of which leaves a row that is there. -/
def Database.persist (db : Database) (p : Proposal) (payloadHash : String) : Database :=
  { db with
    request := some (db.request.getD p.request)
    revision := some (db.revision.getD ⟨p.action.parameters, payloadHash⟩)
    policy := some (db.policy.getD p.outcome)
    approval :=
      if db.policy.getD p.outcome = .requireApproval then
        some (db.approval.getD { status := .pending, payloadHash := payloadHash })
      else db.approval
    thread :=
      if db.policy.getD p.outcome = .requireApproval then some (db.thread.getD .open_)
      else db.thread }

/-- The checks of `_persist_action` on the rows it has inserted or found. -/
def Proposal.refusal (p : Proposal) (payloadHash : String) (db : Database) : Option String :=
  if db.request.any fun row => row.actionType ≠ p.action.actionType then
    some "logical action key was reused for another action type"
  else if db.request.any fun row =>
      row.supersedesActionRequestId ≠ p.supersedesActionRequestId then
    some "action revision lineage changed during replay"
  else if db.revision.any fun row => row.payloadHash ≠ payloadHash then
    some "action revision identity was reused for another payload"
  else if db.policy = some .requireApproval
      ∧ db.approval.any fun row => row.payloadHash ≠ payloadHash then
    some "approval is not bound to the current payload"
  else none

/-- The transaction of `persist_decision` for one action, once it holds the process and the
checks on other data have passed. -/
def commitProposal (P : Platform) (p : Proposal) (db : Database) : Effect :=
  match requireActionParameters p.action.parameters with
  | .error message => Stage.stop (.rejected message) db
  | .ok _ =>
      let payloadHash := P.actionPayloadIdentity p.action.actionType p.action.parameters
      match p.refusal payloadHash (db.persist p payloadHash) with
      | some message => Stage.stop (.rejected message) db
      | none =>
          some (.ended (.persisted (db.policy.getD p.outcome) (db.request.getD p.request).status),
            db.persist p payloadHash,
            if db.request.isNone then [.requestStatus p.request.status] else [])

/-! ### One statement -/

/-- The next statement of a call. -/
def Stage.statement (P : Platform) : Stage → Answer → Database → Effect
  | .authorising phase revision a, x, db => a.statement P phase revision x db
  | .claimed revision key adapter existing, .go, db => commitClaim revision key adapter db existing
  | .marking key attempt, .go, db =>
      -- the attempt is not updated when its status stays the same
      if attempt.status = .reconciling then commitMark key (db.setRequestStatus .reconciling)
      else (Stage.marked key attempt).keep db
  | .marked key attempt, .go, db =>
      commitMark key ((db.setRequestStatus .reconciling).setAttempt key
        { attempt with status := .reconciling })
  | .looking lookup key, .lookup answer, db => (lookup.proceed key answer).keep db
  | .gating revision key row, .gate block, db => passGate revision key row db block
  | .invoking key, .provider answer, db =>
      some (.recording key answer.outcome, db, [.answered key answer])
  | .recording key outcome, .go, db =>
      match db.attempts key with
      | none => Stage.stop (.raised "action execution state disappeared") db
      | some attempt => (Stage.recordingAttempt key outcome attempt).keep db
  | .recordingAttempt key outcome attempt, .go, db =>
      match db.request with
      | none => Stage.stop (.raised "action execution state disappeared") db
      | some _ => (Stage.recordingBoth key outcome attempt).keep db
  | .recordingBoth key outcome attempt, .go, db => commitOutcome key outcome attempt db
  | .resolving command, .go, db => findResolution command db
  | .resolvingFresh command, .go, db =>
      match db.attempts command.idempotencyKey with
      | none => Stage.stop (.rejected "action attempt not found") db
      | some attempt => (Stage.resolvingBoth command attempt).keep db
  | .resolvingBoth command attempt, .check error, db => commitResolution P command attempt error db
  | .reviewing command r, x, db => r.statement command x db
  | .persisting proposal, .go, db =>
      if db.process.fenced then
        Stage.stop (.rejected
          s!"process state does not permit new actions: {db.process.value}") db
      else (Stage.persistingLocked proposal).keep db
  | .persistingLocked _, .check (some error), db => Stage.stop (.rejected error) db
  | .persistingLocked proposal, .check none, db => commitProposal P proposal db
  | .settingStatus status, .go, db => (Stage.settingStatusLocked status).keep db
  | .settingStatusLocked status, .go, db =>
      some (.ended .written, { db with process := status }, [])
  | .reviewingElsewhere commandId thread row, .go, db => commitElsewhere commandId thread row db
  | _, _, _ => none

/-- What happens to a call: it is made, it stops, or its next statement is answered. -/
inductive CallInput where
  | call (call : Call)
  | crash
  | answer (answer : Answer)
  deriving DecidableEq, Repr

/-- One step of a call. -/
def next (P : Platform) (t : Stage) : CallInput → Database → Effect
  | .call c, db => if t.resting then c.start.keep db else none
  | .crash, db => Stage.idle.keep db
  | .answer x, db => t.statement P x db

/-- The locks of an authorisation, from its `FOR UPDATE` on. -/
def Authorising.locks : Authorising → List RowLock
  | .admitting | .selecting => []
  | .loaded _ | .approving _ | .deciding _ | .authorised _ => [.process, .request]

/-- The locks of a review; its last `UPDATE` locks the request if it writes it. -/
def Reviewing.locks : Reviewing → List RowLock
  | .locked _ _ => [.process]
  | .flushing _ _ write => if write.request.isSome then [.process, .request] else [.process]
  | _ => []

/-- The row locks of a stage. -/
def Stage.locks : Stage → List RowLock
  | .authorising _ _ a => a.locks
  | .claimed _ _ _ _ | .marking _ _ | .gating _ _ _ | .invoking _ => [.process, .request]
  | .marked key _ => [.process, .request, .attempt key]
  | .recordingAttempt key _ _ => [.attempt key]
  | .recordingBoth key _ _ => [.attempt key, .request]
  | .resolvingBoth command _ => [.attempt command.idempotencyKey, .request]
  | .reviewing _ r => r.locks
  | .persistingLocked _ | .settingStatusLocked _ => [.process]
  | _ => []

/-- The code of the calls. -/
def calls (P : Platform) : Transactions.Code Database Stage CallInput ActionEvent RowLock where
  next := next P
  locks := Stage.locks

end TiramisuAgents
