import Mathlib.Data.List.Basic
import Mathlib.Tactic

/-!
The contracts of `core/contracts`: the statuses of actions, attempts, approvals and
processes, and the typed decision an agent turn produces.

Identities (`UUID`) are carried as their canonical text, times as microseconds on one
clock.  A JSON object that no modelled function looks into is carried as `Parameters`,
its canonical text together with the number of its fields, which is what the platform
limits measure.
-/

namespace TiramisuAgents

/-- A `uuid.UUID` as its canonical text. -/
abbrev UUID := String

/-- A timezone-aware `datetime`, in microseconds. -/
abbrev Time := ℤ

/-! ### Actions (`core/contracts/actions.py`) -/

/-- `PermissionOutcome`. -/
inductive PermissionOutcome where
  | allow | deny | requireApproval
  deriving DecidableEq, Repr

/-- `ActionRequestStatus`. -/
inductive ActionRequestStatus where
  | allowed | denied | pendingApproval | approved | rejected | superseded
  | executing | succeeded | failed | conflict | unknown | reconciling
  deriving DecidableEq, Repr

/-- `ActionAttemptStatus`. -/
inductive ActionAttemptStatus where
  | executing | succeeded | failed | conflict | unknown | reconciling
  deriving DecidableEq, Repr

/-- The attempt statuses the executor and the mailbox treat as a recorded outcome:
succeeded, failed or conflict. -/
def ActionAttemptStatus.terminal : ActionAttemptStatus → Bool
  | .succeeded | .failed | .conflict => true
  | .executing | .unknown | .reconciling => false

/-- An attempt status and a request status share their text (`request.status =
status.value`). -/
def ActionAttemptStatus.toRequest : ActionAttemptStatus → ActionRequestStatus
  | .executing => .executing
  | .succeeded => .succeeded
  | .failed => .failed
  | .conflict => .conflict
  | .unknown => .unknown
  | .reconciling => .reconciling

/-- `ActionResolution`. -/
inductive ActionResolution where
  | succeeded | failed
  deriving DecidableEq, Repr

/-- `ApprovalStatus`. -/
inductive ApprovalStatus where
  | pending | approved | rejected | expired | cancelled | superseded
  deriving DecidableEq, Repr

/-- `initial_action_request_status`: the durable state a policy outcome starts in. -/
def initialActionRequestStatus : PermissionOutcome → ActionRequestStatus
  | .allow => .allowed
  | .deny => .denied
  | .requireApproval => .pendingApproval

/-! ### Decisions (`core/contracts/decisions.py`) -/

/-- `DecisionStatus`. -/
inductive DecisionStatus where
  | active | waiting | completed | escalated
  deriving DecidableEq, Repr

/-- The interactions a `HumanWakeCondition` may name. -/
inductive HumanInteraction where
  | approval | review | operator
  deriving DecidableEq, Repr

/-- The text of an interaction in a wake plan. -/
def HumanInteraction.value : HumanInteraction → String
  | .approval => "approval"
  | .review => "review"
  | .operator => "operator"

/-- `WakeCondition`. -/
inductive WakeCondition where
  | event (eventType : String)
  | timer (at_ : Time)
  | human (interaction : HumanInteraction)
  deriving DecidableEq, Repr

/-- A JSON object as the platform limits see it: its canonical text and the number of
its fields. -/
structure Parameters where
  text : String
  fields : ℕ
  deriving DecidableEq, Repr

/-- `ActionProposal`. -/
structure ActionProposal where
  actionRequestId : UUID
  logicalActionKey : String
  actionType : String
  parameters : Parameters
  rationale : String
  deriving DecidableEq, Repr

/-- `MemoryUpdate`. -/
structure MemoryUpdate where
  summary : Option String := none
  summarySourceEventIds : List UUID := []
  summarySourceReviewCommandIds : List UUID := []
  summarySourceActionAttemptIds : List UUID := []
  summarySourceTimerIds : List String := []
  openCommitments : List String := []
  deriving DecidableEq, Repr

/-- `AgentDecision`. -/
structure AgentDecision where
  decisionId : UUID
  basedOnEventIds : List UUID
  basedOnReviewCommandIds : List UUID := []
  basedOnActionAttemptIds : List UUID := []
  basedOnTimerIds : List String := []
  status : DecisionStatus
  actions : List ActionProposal := []
  wakeConditions : List WakeCondition := []
  memoryUpdate : MemoryUpdate := {}
  /-- `waiting_requires_a_wake_condition`. -/
  waitingWakes : status = .waiting → wakeConditions ≠ [] := by decide
  deriving DecidableEq

/-! ### Processes (`core/contracts/processes.py`) -/

/-- `ProcessStatus`. -/
inductive ProcessStatus where
  | active | waiting | review | paused | completed | cancelled | failed
  deriving DecidableEq, Repr

/-- The process states nothing leaves: completed, cancelled and failed. -/
def ProcessStatus.terminal : ProcessStatus → Bool
  | .completed | .cancelled | .failed => true
  | .active | .waiting | .review | .paused => false

/-- The process states in which no action may be created, reviewed or executed. -/
def ProcessStatus.fenced : ProcessStatus → Bool
  | .paused | .completed | .cancelled | .failed => true
  | .active | .waiting | .review => false

end TiramisuAgents
