import TiramisuAgents.Actions.Calls
import TiramisuAgents.Core.Transitions
import TiramisuAgents.Processes.Facts

/-!
`db/models/processes.py`, the rows of one process: the process itself, its state revisions,
interventions and control commands, the rows of its actions, and the event inbox.

An action is a `Database` of its own; its copy of the process status is not used, it is read
and written through `view` and `put`.  Of the inbox, a row that is not matched belongs to no
process yet.  The outbox, the identities of the deployment and the times of interventions are
left out.

* `ProcessDatabase`: the rows.
* `ProcessDatabase.view`, `ProcessDatabase.put`: the rows of one action.
-/

namespace TiramisuAgents

/-- The columns of `process_instances` that the services read and write. -/
structure ProcessRow (V : Type) where
  status : ProcessStatus
  facts : FactProjection V := {}
  memory : MemoryUpdate := {}
  currentWakeConditions : List WakeCondition := []
  stateVersion : ℕ := 0
  createdAt : Time

/-- A row of `process_state_revisions`. -/
structure ProcessStateRevision (V : Type) where
  agentTurnId : UUID
  decisionId : UUID
  version : ℕ
  decisionStatus : DecisionStatus
  processStatus : ProcessStatus
  facts : FactProjection V
  memory : MemoryUpdate
  wakeConditions : List WakeCondition
  basedOnEventIds : List UUID
  basedOnReviewCommandIds : List UUID
  basedOnActionAttemptIds : List UUID
  basedOnTimerIds : List String

/-- The sources of a turn, as an intervention keeps them and a retry hands them back. -/
structure SourceIds where
  eventIds : List UUID := []
  reviewCommandIds : List UUID := []
  actionAttemptIds : List UUID := []
  timerIds : List String := []
  deriving DecidableEq, Repr

/-- The status of an intervention. -/
inductive InterventionStatus where
  | open_ | resolved
  deriving DecidableEq, Repr

/-- A row of `process_interventions`. -/
structure ProcessIntervention where
  id : UUID
  agentTurnId : UUID
  kind : String
  status : InterventionStatus
  errorType : String
  error : String
  sources : SourceIds
  resolvedByCommandId : Option UUID := none
  deriving DecidableEq, Repr

/-- `ProcessControlType`. -/
inductive ProcessControlType where
  | retry | wake | takeover | resume
  deriving DecidableEq, Repr

/-- A row of `process_control_commands`; a retry has the sources of its intervention as its
payload. -/
structure ProcessControlCommand where
  id : UUID
  actorId : UUID
  interventionId : Option UUID
  commandType : ProcessControlType
  reason : String
  payload : Option SourceIds
  deriving DecidableEq, Repr

/-- The rows of one process. -/
structure ProcessDatabase (V : Type) where
  process : ProcessRow V
  actions : UUID → Database := fun _ => { process := .active }
  requests : List UUID := []
  requestCreatedAt : UUID → Time := fun _ => 0
  inbox : List (InboxRow V) := []
  revisions : List (ProcessStateRevision V) := []
  interventions : List ProcessIntervention := []
  controls : List ProcessControlCommand := []

/-- The request statuses `_load_open_actions` selects. -/
def ActionRequestStatus.isOpen : ActionRequestStatus → Bool
  | .allowed | .pendingApproval | .approved | .executing | .unknown | .reconciling => true
  | .denied | .rejected | .superseded | .succeeded | .failed | .conflict => false

namespace ProcessDatabase

variable {V : Type} (w : ProcessDatabase V)

/-- The rows of an action, with the status of the process. -/
def view (a : UUID) : Database := { w.actions a with process := w.process.status }

/-- Write the rows of an action; `now` is the creation time of a request that is new. -/
def put (a : UUID) (db : Database) (now : Time) : ProcessDatabase V :=
  { w with
    actions := Function.update w.actions a db
    requests :=
      if (w.actions a).request.isNone ∧ db.request.isSome then w.requests ++ [a] else w.requests
    requestCreatedAt :=
      if (w.actions a).request.isNone ∧ db.request.isSome then
        Function.update w.requestCreatedAt a now
      else w.requestCreatedAt }

/-- Write the process row. -/
def setProcess (row : ProcessRow V) : ProcessDatabase V := { w with process := row }

/-- `_load_open_actions`. -/
def openActions : OpenActions :=
  w.requests.filterMap fun a =>
    (w.actions a).request.bind fun row => if row.status.isOpen then some (a, row.status) else none

/-- The revision of a turn. -/
def revisionOf (agentTurnId : UUID) : Option (ProcessStateRevision V) :=
  w.revisions.find? fun r => r.agentTurnId = agentTurnId

/-! ### Writes -/

section

variable {w} {a b : UUID} {db : Database} {now : Time}

@[simp] lemma view_process : (w.view a).process = w.process.status := rfl

@[simp] lemma view_request : (w.view a).request = (w.actions a).request := rfl

@[simp] lemma put_process : (w.put a db now).process = w.process := rfl

@[simp] lemma put_inbox : (w.put a db now).inbox = w.inbox := rfl

@[simp] lemma put_revisions : (w.put a db now).revisions = w.revisions := rfl

@[simp] lemma put_interventions : (w.put a db now).interventions = w.interventions := rfl

@[simp] lemma put_controls : (w.put a db now).controls = w.controls := rfl

@[simp] lemma put_actions_self : (w.put a db now).actions a = db := Function.update_self ..

lemma put_actions_of_ne (h : b ≠ a) : (w.put a db now).actions b = w.actions b :=
  Function.update_of_ne h _ _

/-- The written rows are read back, if they do not change the status of the process. -/
lemma view_put_self (h : db.process = w.process.status) : (w.put a db now).view a = db := by
  rw [view, put_actions_self, put_process, ← h]

lemma view_put_of_ne (h : b ≠ a) : (w.put a db now).view b = w.view b := by
  rw [view, put_actions_of_ne h, put_process, view]

/-- The requests of the process are listed. -/
def Listed (w : ProcessDatabase V) : Prop :=
  ∀ a, (w.actions a).request ≠ none → a ∈ w.requests

lemma Listed.put (hw : w.Listed) : (w.put a db now).Listed := by
  intro b hb
  by_cases hab : b = a
  · subst hab
    rw [put_actions_self] at hb
    simp only [ProcessDatabase.put]
    split_ifs with h
    · exact List.mem_append_right _ (List.mem_singleton_self b)
    · refine hw b fun hnone => h ⟨by simp [hnone], ?_⟩
      exact Option.isSome_iff_ne_none.mpr hb
  · rw [put_actions_of_ne hab] at hb
    simp only [ProcessDatabase.put]
    split_ifs
    · exact List.mem_append_left _ (hw b hb)
    · exact hw b hb

/-- No action is open if and only if no listed request is. -/
lemma openActions_eq_nil : w.openActions = [] ↔
    ∀ a ∈ w.requests, ∀ row, (w.actions a).request = some row → row.status.isOpen = false := by
  rw [openActions, List.filterMap_eq_nil_iff]
  refine forall₂_congr fun a _ => ?_
  cases (w.actions a).request <;> simp

end

end ProcessDatabase

end TiramisuAgents
