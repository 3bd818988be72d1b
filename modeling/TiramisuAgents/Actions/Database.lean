import TiramisuAgents.Core.Contracts

/-!
`db/models/actions.py` and `db/models/reviews.py`, the rows of one action: its request, the
revision that the gateway writes for it, the policy outcome, the approval with its decision,
and the attempts by idempotency key.

The gateway writes revision 1 and nothing writes another, so the tables that are keyed by the
revision have one row each.  The unique constraint on the idempotency key is the fact that
`attempts` is a function.  Of the outbox there are the messages of the reviews; their payloads
name the process, the thread and the action besides, which are those of these rows.

* `Database`: the rows.
* `RecordedOutcome` and the functions after it: what the transactions write.
-/

namespace TiramisuAgents

/-- The text of a process status. -/
def ProcessStatus.value : ProcessStatus → String
  | .active => "active"
  | .waiting => "waiting"
  | .review => "review"
  | .paused => "paused"
  | .completed => "completed"
  | .cancelled => "cancelled"
  | .failed => "failed"

/-- The request statuses in which an authorised action may be executed again. -/
def ActionRequestStatus.retryable : ActionRequestStatus → Bool
  | .executing | .unknown | .reconciling | .succeeded | .failed | .conflict => true
  | _ => false

/-- A row of `action_requests`. -/
structure RequestRow where
  actionType : String
  currentRevision : ℕ
  status : ActionRequestStatus
  supersedesActionRequestId : Option UUID := none
  deriving DecidableEq, Repr

/-- A row of `action_revisions`. -/
structure RevisionRow where
  parameters : Parameters
  payloadHash : String
  deriving DecidableEq, Repr

/-- A row of `approval_requests`. -/
structure ApprovalRow where
  status : ApprovalStatus
  payloadHash : String
  expiresAt : Option Time := none
  deriving DecidableEq, Repr

/-- What an `approval_decisions` row decides. -/
inductive ApprovalVerdict where
  | approved | rejected
  deriving DecidableEq, Repr

/-- A row of `approval_decisions`; the table has one for each approval. -/
structure DecisionRow where
  decision : ApprovalVerdict
  payloadHash : String
  deriving DecidableEq, Repr

/-- The status of a row of `review_threads`; each approval has one thread. -/
inductive ReviewThreadStatus where
  | open_ | approved | rejected | revisionRequested | cancelled
  deriving DecidableEq, Repr

/-- `ReviewCommandType`. -/
inductive ReviewCommandType where
  | approve | reject | requestRevision | comment | correctFact | cancel
  deriving DecidableEq, Repr

/-- The text of a review command type. -/
def ReviewCommandType.value : ReviewCommandType → String
  | .approve => "approve"
  | .reject => "reject"
  | .requestRevision => "request_revision"
  | .comment => "comment"
  | .correctFact => "correct_fact"
  | .cancel => "cancel"

/-- A row of `review_messages`.  Its `review_thread_id` is that of the one review thread, unless it
is `otherThread`, the thread of another action. -/
structure MessageRow where
  messageType : ReviewCommandType
  actorId : UUID
  content : Option String
  proposalRevision : ℕ
  otherThread : Option UUID := none
  deriving DecidableEq, Repr

/-- A row of `outbox_messages` of type `temporal.process_review`. -/
structure ReviewNotice where
  deduplicationKey : String
  commandId : UUID
  commandType : ReviewCommandType
  proposalRevision : ℕ
  deriving DecidableEq, Repr

/-- A row of `action_attempts`. -/
structure AttemptRow where
  adapterId : String
  status : ActionAttemptStatus
  providerReference : Option String := none
  result : Option String := none
  facts : List String := []
  conflict : Option String := none
  error : Option String := none
  deriving DecidableEq, Repr

/-- `OperatorActionResolution`, which is also what a row of `action_reconciliation_decisions`
keeps of it.  The attempt is named by its idempotency key. -/
structure OperatorActionResolution where
  decisionId : UUID
  idempotencyKey : String
  actorId : UUID
  resolution : ActionResolution
  evidence : String
  providerReference : Option String := none
  result : Option String := none
  deriving DecidableEq, Repr

/-- The rows of one action and the status of its process. -/
structure Database where
  process : ProcessStatus
  request : Option RequestRow := none
  revision : Option RevisionRow := none
  policy : Option PermissionOutcome := none
  approval : Option ApprovalRow := none
  decision : Option DecisionRow := none
  thread : Option ReviewThreadStatus := none
  messages : UUID → Option MessageRow := fun _ => none
  outbox : List ReviewNotice := []
  attempts : String → Option AttemptRow := fun _ => none
  resolutions : String → Option OperatorActionResolution := fun _ => none

/-! ### What an attempt records -/

/-- `ProviderActionResult`, with its JSON as text. -/
structure ProviderActionResult where
  providerReference : String
  result : String
  facts : List String := []
  deriving DecidableEq, Repr

/-- `ActionConflict`, with its JSON as text. -/
structure ActionConflict where
  message : String
  facts : List String
  document : String
  deriving DecidableEq, Repr

/-- The arguments of `_record_terminal`. -/
structure RecordedOutcome where
  status : ActionAttemptStatus
  providerReference : Option String := none
  result : Option String := none
  facts : List String := []
  conflict : Option String := none
  error : Option String := none
  deriving DecidableEq, Repr

namespace RecordedOutcome

/-- `_record_success`. -/
def success (r : ProviderActionResult) : RecordedOutcome where
  status := .succeeded
  providerReference := some r.providerReference
  result := some r.result
  facts := r.facts

/-- `_record_failure`. -/
def failure (error : String) : RecordedOutcome where
  status := .failed
  error := some error

/-- `_record_conflict`. -/
def conflicting (c : ActionConflict) : RecordedOutcome where
  status := .conflict
  facts := c.facts
  conflict := some c.document
  error := some c.message

/-- `_record_unknown`. -/
def ambiguous (error : String) : RecordedOutcome where
  status := .unknown
  error := some error

@[simp] lemma success_status (r : ProviderActionResult) : (success r).status = .succeeded := rfl

@[simp] lemma failure_status (error : String) : (failure error).status = .failed := rfl

@[simp] lemma conflicting_status (c : ActionConflict) : (conflicting c).status = .conflict := rfl

@[simp] lemma ambiguous_status (error : String) : (ambiguous error).status = .unknown := rfl

/-- `error[:2000] if error else None`. -/
def errorText (error : Option String) : Option String :=
  error.bind fun text => if text = "" then none else some (.ofList (text.toList.take 2000))

/-- The fields `_record_terminal` writes. -/
def apply (o : RecordedOutcome) (a : AttemptRow) : AttemptRow where
  adapterId := a.adapterId
  status := o.status
  providerReference := o.providerReference
  result := o.result
  facts := o.facts
  conflict := o.conflict
  error := errorText o.error

@[simp] lemma apply_status (o : RecordedOutcome) (a : AttemptRow) : (o.apply a).status = o.status :=
  rfl

end RecordedOutcome

/-- The status a resolution gives an attempt. -/
def ActionResolution.status : ActionResolution → ActionAttemptStatus
  | .succeeded => .succeeded
  | .failed => .failed

/-- The fields `resolve_unknown` writes. -/
def OperatorActionResolution.apply (c : OperatorActionResolution) (a : AttemptRow) : AttemptRow :=
  { a with
    status := c.resolution.status
    providerReference := c.providerReference.or a.providerReference
    result := c.result.or a.result }

/-- A command as the table keeps it: its result is read back from a `JSONB` column. -/
def OperatorActionResolution.kept (jsonb : String → String) (c : OperatorActionResolution) :
    OperatorActionResolution :=
  { c with result := c.result.map jsonb }

@[simp] lemma OperatorActionResolution.apply_status (c : OperatorActionResolution)
    (a : AttemptRow) : (c.apply a).status = c.resolution.status := rfl

/-! ### Writes -/

namespace Database

variable (db : Database)

/-- `request.status = …`. -/
def setRequestStatus (status : ActionRequestStatus) : Database :=
  { db with request := db.request.map fun row => { row with status := status } }

/-- Write the attempt of a key. -/
def setAttempt (key : String) (row : AttemptRow) : Database :=
  { db with attempts := Function.update db.attempts key (some row) }

@[simp] lemma setRequestStatus_process (status : ActionRequestStatus) :
    (db.setRequestStatus status).process = db.process := rfl

@[simp] lemma setRequestStatus_revision (status : ActionRequestStatus) :
    (db.setRequestStatus status).revision = db.revision := rfl

@[simp] lemma setRequestStatus_policy (status : ActionRequestStatus) :
    (db.setRequestStatus status).policy = db.policy := rfl

@[simp] lemma setRequestStatus_approval (status : ActionRequestStatus) :
    (db.setRequestStatus status).approval = db.approval := rfl

@[simp] lemma setRequestStatus_decision (status : ActionRequestStatus) :
    (db.setRequestStatus status).decision = db.decision := rfl

@[simp] lemma setRequestStatus_attempts (status : ActionRequestStatus) :
    (db.setRequestStatus status).attempts = db.attempts := rfl

@[simp] lemma setRequestStatus_request (status : ActionRequestStatus) :
    (db.setRequestStatus status).request =
      db.request.map fun row => { row with status := status } := rfl

@[simp] lemma setAttempt_process (key : String) (row : AttemptRow) :
    (db.setAttempt key row).process = db.process := rfl

@[simp] lemma setAttempt_request (key : String) (row : AttemptRow) :
    (db.setAttempt key row).request = db.request := rfl

@[simp] lemma setAttempt_revision (key : String) (row : AttemptRow) :
    (db.setAttempt key row).revision = db.revision := rfl

@[simp] lemma setAttempt_policy (key : String) (row : AttemptRow) :
    (db.setAttempt key row).policy = db.policy := rfl

@[simp] lemma setAttempt_approval (key : String) (row : AttemptRow) :
    (db.setAttempt key row).approval = db.approval := rfl

@[simp] lemma setAttempt_decision (key : String) (row : AttemptRow) :
    (db.setAttempt key row).decision = db.decision := rfl

@[simp] lemma setAttempt_attempts (key : String) (row : AttemptRow) :
    (db.setAttempt key row).attempts = Function.update db.attempts key (some row) := rfl

end Database

end TiramisuAgents
