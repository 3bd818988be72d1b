import TiramisuAgents.Actions.Database
import TiramisuAgents.Core.Definitions
import TiramisuAgents.Library.Matching
import TiramisuAgents.Library.Tables

/-!
`ActionGateway.persist_decision` (`actions/gateway.py`): the actions of a decision, one after
the other, on the rows of all actions of a process.

The rows that the gateway writes for an action (its request, the revision, the policy outcome,
the approval and the review thread) make up one `ActionEntry`.  The database checks its unique
constraints when it stores an entry.  A `raise` rolls the transaction back, so that a call
which raises leaves nothing.

* `ActionTables`: the rows, with the constraints of the database.
* `persistAction`, `persistActions`, `persistDecision`: the code.
* `Shows`: the rows that an action has left.
* `Later`: the rows afterwards.  An action that is there stays, whatever happens to its
  statuses.
-/

namespace TiramisuAgents.ActionGateway

/-! ### The tables -/

/-- A row of `action_revisions`, revision 1.  `parameters` is what has been written to the
column. -/
structure RevisionEntry where
  parameters : Parameters
  payloadHash : String
  rationale : String
  basedOnEventIds : List UUID := []
  basedOnReviewCommandIds : List UUID := []
  basedOnActionAttemptIds : List UUID := []
  basedOnTimerIds : List String := []
  deriving DecidableEq, Repr

/-- A row of `approval_requests`. -/
structure ApprovalEntry where
  id : UUID
  payloadHash : String
  status : ApprovalStatus := .pending
  deriving DecidableEq, Repr

/-- A row of `review_threads`. -/
structure ThreadEntry where
  id : UUID
  status : ReviewThreadStatus := .open_
  deriving DecidableEq, Repr

/-- A row of `action_requests`, with the rows that belong to its revision 1. -/
structure ActionEntry where
  id : UUID
  agentTurnId : UUID
  logicalActionKey : String
  actionType : String
  processDefinitionVersion : String
  supersedesActionRequestId : Option UUID := none
  currentRevision : ℕ := 1
  status : ActionRequestStatus
  revision : Option RevisionEntry := none
  policy : Option ActionPolicyDecision := none
  approval : Option ApprovalEntry := none
  thread : Option ThreadEntry := none
  deriving DecidableEq, Repr

namespace ActionEntry

/-- `uq_action_request_turn_logical_key`. -/
def key (e : ActionEntry) : UUID × String := (e.agentTurnId, e.logicalActionKey)

def approvalId (e : ActionEntry) : Option UUID := e.approval.map ApprovalEntry.id

def threadId (e : ActionEntry) : Option UUID := e.thread.map ThreadEntry.id

end ActionEntry

/-- A row of `action_attempts`; its revision is 1. -/
structure AttemptEntry where
  id : UUID
  actionRequestId : UUID
  status : ActionAttemptStatus
  deriving DecidableEq, Repr

/-- A row of `review_messages`. -/
structure MessageEntry where
  id : UUID
  reviewThreadId : UUID
  messageType : ReviewCommandType
  deriving DecidableEq, Repr

/-- The primary keys, the unique constraints, and the thread of each message. -/
structure Constraints (entries : List ActionEntry) (attempts : List AttemptEntry)
    (messages : List MessageEntry) : Prop where
  keys : Tables.Keyed ActionEntry.key entries
  ids : Tables.Keyed ActionEntry.id entries
  approvalIds : (entries.filterMap ActionEntry.approvalId).Nodup
  threadIds : (entries.filterMap ActionEntry.threadId).Nodup
  attemptIds : Tables.Keyed AttemptEntry.id attempts
  messageIds : Tables.Keyed MessageEntry.id messages
  messageThreads : ∀ m ∈ messages, ∃ e ∈ entries, e.threadId = some m.reviewThreadId

instance (entries : List ActionEntry) (attempts : List AttemptEntry)
    (messages : List MessageEntry) : Decidable (Constraints entries attempts messages) :=
  decidable_of_iff
    ((entries.map ActionEntry.key).Nodup ∧ (entries.map ActionEntry.id).Nodup ∧
      (entries.filterMap ActionEntry.approvalId).Nodup ∧
      (entries.filterMap ActionEntry.threadId).Nodup ∧ (attempts.map AttemptEntry.id).Nodup ∧
      (messages.map MessageEntry.id).Nodup ∧
      ∀ m ∈ messages, ∃ e ∈ entries, e.threadId = some m.reviewThreadId)
    ⟨fun ⟨h₁, h₂, h₃, h₄, h₅, h₆, h₇⟩ => ⟨h₁, h₂, h₃, h₄, h₅, h₆, h₇⟩,
      fun ⟨h₁, h₂, h₃, h₄, h₅, h₆, h₇⟩ => ⟨h₁, h₂, h₃, h₄, h₅, h₆, h₇⟩⟩

/-- The rows of one process. -/
structure ActionTables where
  process : Option ProcessStatus
  entries : List ActionEntry
  attempts : List AttemptEntry
  messages : List MessageEntry
  constraints : Constraints entries attempts messages

namespace ActionTables

/-- The request of a logical key of a turn. -/
def entry (tables : ActionTables) (turn : UUID) (logicalActionKey : String) :
    Option ActionEntry :=
  Tables.lookup ActionEntry.key (turn, logicalActionKey) tables.entries

/-- The request with an identity. -/
def request (tables : ActionTables) (id : UUID) : Option ActionEntry :=
  Tables.lookup ActionEntry.id id tables.entries

/-- The request whose approval has a review thread. -/
def reviewed (tables : ActionTables) (thread : UUID) : Option ActionEntry :=
  tables.entries.find? fun e => e.threadId = some thread

/-- The rows of an action are inserted, or written anew. -/
def put (tables : ActionTables) (e : ActionEntry) : Except String ActionTables :=
  let entries :=
    if (tables.entry e.agentTurnId e.logicalActionKey).isSome then
      Tables.modify ActionEntry.key e.key (fun _ => e) tables.entries
    else tables.entries ++ [e]
  if h : Constraints entries tables.attempts tables.messages then
    .ok ⟨tables.process, entries, tables.attempts, tables.messages, h⟩
  else .error "duplicate key value violates unique constraint"

/-- `_revision_targets`: a row for each review command among the given ones that asks for a
revision. -/
def revisionTargets (tables : ActionTables) (reviewCommandIds : List UUID) :
    List (UUID × String) :=
  (tables.messages.filter fun m =>
    m.id ∈ reviewCommandIds ∧ m.messageType = .requestRevision).filterMap fun m =>
      (tables.reviewed m.reviewThreadId).map fun e => (e.id, e.actionType)

end ActionTables

/-! ### The gateway -/

/-- `action_payload_identity`, `require_action_parameters`, and what parameters come back as
from a `JSONB` column. -/
structure Encoding where
  actionPayloadIdentity : String → Parameters → String
  requireActionParameters : Parameters → Except String Unit
  jsonb : Parameters → Parameters

/-- `action_payload_hash`. -/
def Encoding.actionPayloadHash (G : Encoding) (action : ActionProposal) : String :=
  G.actionPayloadIdentity action.actionType action.parameters

/-- `_conflicted_payload_hashes`: the attempts among the given ones that have a conflict. -/
def ActionTables.conflictedPayloadHashes (G : Encoding) (tables : ActionTables)
    (actionAttemptIds : List UUID) : List String :=
  (tables.attempts.filter fun a => a.id ∈ actionAttemptIds ∧ a.status = .conflict).filterMap
    fun a => (tables.request a.actionRequestId).bind fun e =>
      e.revision.map fun r => G.actionPayloadIdentity e.actionType (G.jsonb r.parameters)

/-- The arguments of `persist_decision`. -/
structure PersistCall where
  agentTurnId : UUID
  processDefinitionVersion : String
  decision : AgentDecision
  policy : ConfiguredActionPolicy

/-- What a call learns from outside these rows.  A breaker is open with its scope and its
reason; the communication policy is there or not, with the error of its check. -/
structure Surroundings where
  lifetimeBlock : Option String := none
  halted : Option String := none
  openForCapability : String → Option (String × String) := fun _ => none
  outboundActionTypes : Option (List String) := none
  communication : ActionTables → ActionProposal → Except String Unit := fun _ _ => .ok ()
  platformOutboundPaused : Bool := false
  openForOutbound : Option (String × String) := none
  /-- The new identities, `uuid4` for each action request. -/
  newApprovalId : UUID → UUID
  newThreadId : UUID → UUID

/-- `PersistedAction`. -/
structure PersistedAction where
  actionRequestId : UUID
  revision : ℕ
  payloadHash : String
  outcome : PermissionOutcome
  status : ActionRequestStatus
  approvalRequestId : Option UUID
  reviewThreadId : Option UUID
  deriving DecidableEq, Repr

/-- `_enforce_capability_breakers` and the last check of `_enforce_outbound_breakers`. -/
def requireClosed : Option (String × String) → Except String Unit
  | none => .ok ()
  | some (scope, reason) => .error s!"circuit breaker open ({scope}): {reason}"

/-- The checks of `persist_decision` on an action, which are for those that do not exist. -/
def requireNewAction (G : Encoding) (world : Surroundings) (conflicted : List String)
    (tables : ActionTables) (action : ActionProposal) : Option ActionEntry → Except String Unit
  | some _ => .ok ()
  | none => do
      requireThat (!conflicted.contains (G.actionPayloadHash action))
        "decision repeats an action payload that just returned a definitive conflict"
      requireClosed (world.openForCapability action.actionType)
      if (world.outboundActionTypes.getD []).contains action.actionType then
        world.communication tables action
        requireThat (!world.platformOutboundPaused) "platform outbound messaging is paused"
        requireClosed world.openForOutbound

/-- The request that `_persist_action` inserts, unless there is one. -/
def newRequest (call : PersistCall) (supersedes : Option UUID) (action : ActionProposal) :
    ActionEntry where
  id := action.actionRequestId
  agentTurnId := call.agentTurnId
  logicalActionKey := action.logicalActionKey
  actionType := action.actionType
  processDefinitionVersion := call.processDefinitionVersion
  supersedesActionRequestId := supersedes
  status := initialActionRequestStatus (call.policy.evaluate action).outcome

/-- The revision that `_persist_action` inserts, unless there is one. -/
def newRevision (G : Encoding) (call : PersistCall) (action : ActionProposal) :
    RevisionEntry where
  parameters := action.parameters
  payloadHash := G.actionPayloadHash action
  rationale := action.rationale
  basedOnEventIds := call.decision.basedOnEventIds
  basedOnReviewCommandIds := call.decision.basedOnReviewCommandIds
  basedOnActionAttemptIds := call.decision.basedOnActionAttemptIds
  basedOnTimerIds := call.decision.basedOnTimerIds

/-- The approval and the review thread of an action that needs one, with their identities. -/
def settleReview (world : Surroundings) (payloadHash : String) (request : ActionEntry) :
    PermissionOutcome → Except String (ActionEntry × Option UUID × Option UUID)
  | .requireApproval => do
      let approval := request.approval.getD
        { id := world.newApprovalId request.id, payloadHash := payloadHash }
      requireThat (approval.payloadHash = payloadHash)
        "approval is not bound to the current payload"
      let thread := request.thread.getD { id := world.newThreadId request.id }
      return ({ request with approval := some approval, thread := some thread },
        some approval.id, some thread.id)
  | .allow | .deny => .ok (request, none, none)

/-- `_persist_action`.  An insert leaves a row that is there, and the row is read again after
it. -/
def persistAction (G : Encoding) (world : Surroundings) (call : PersistCall)
    (supersedes : Option UUID) (action : ActionProposal) (tables : ActionTables) :
    Except String (ActionTables × PersistedAction) := do
  G.requireActionParameters action.parameters
  let found := tables.entry call.agentTurnId action.logicalActionKey
  let request := found.getD (newRequest call supersedes action)
  requireThat (request.actionType = action.actionType)
    "logical action key was reused for another action type"
  requireThat (request.supersedesActionRequestId = supersedes)
    "action revision lineage changed during replay"
  let payloadHash := G.actionPayloadHash action
  let revision := request.revision.getD (newRevision G call action)
  requireThat (revision.payloadHash = payloadHash)
    "action revision identity was reused for another payload"
  let policy := request.policy.getD (call.policy.evaluate action)
  let settled := { request with revision := some revision, policy := some policy }
  let (settled, approvalId, reviewThreadId) ←
    settleReview world payloadHash settled policy.outcome
  let tables ← tables.put settled
  requireThat (found.isSome ||
      settled.status = initialActionRequestStatus (call.policy.evaluate action).outcome)
    "new action request has an unexpected status"
  return (tables,
    { actionRequestId := settled.id
      revision := 1
      payloadHash := payloadHash
      outcome := policy.outcome
      status := settled.status
      approvalRequestId := approvalId
      reviewThreadId := reviewThreadId })

/-- The loop of `persist_decision`, with the targets that are used. -/
def persistActions (G : Encoding) (world : Surroundings) (call : PersistCall)
    (revisionTargets : List (UUID × String)) (conflicted : List String) :
    List UUID → List ActionProposal → ActionTables →
      Except String (ActionTables × List PersistedAction)
  | _, [], tables => .ok (tables, [])
  | used, action :: rest, tables => do
      requireNewAction G world conflicted tables action
        (tables.entry call.agentTurnId action.logicalActionKey)
      let supersedes := Matching.firstFree revisionTargets used action.actionType
      let (tables, persisted) ← persistAction G world call supersedes action tables
      let (tables, others) ←
        persistActions G world call revisionTargets conflicted (supersedes.toList ++ used) rest
          tables
      return (tables, persisted :: others)

/-- The checks of `persist_decision` on the process and the tenant. -/
def requireOpen (world : Surroundings) : Option ProcessStatus → Except String Unit
  | none => .error "process instance not found"
  | some status => do
      requireThat (!status.fenced) s!"process state does not permit new actions: {status.value}"
      world.lifetimeBlock.forM fun message => .error message
      world.halted.forM fun reason => .error s!"circuit breaker open (all): {reason}"

/-- `persist_decision`.  `revisionTargets` are the rows of `_revision_targets` in the order in
which the database returns them. -/
def persistDecision (G : Encoding) (world : Surroundings) (call : PersistCall)
    (revisionTargets : List (UUID × String)) (tables : ActionTables) :
    Except String (ActionTables × List PersistedAction) := do
  requireOpen world tables.process
  persistActions G world call revisionTargets
    (tables.conflictedPayloadHashes G call.decision.basedOnActionAttemptIds) []
    call.decision.actions tables

/-! ### What the rows show -/

/-- The rows of an action are there still: only statuses have changed, and rows have been
added. -/
structure Kept (e e' : ActionEntry) : Prop where
  id : e'.id = e.id
  key : e'.key = e.key
  actionType : e'.actionType = e.actionType
  supersedes : e'.supersedesActionRequestId = e.supersedesActionRequestId
  revision : ∀ r, e.revision = some r → e'.revision = some r
  policy : ∀ d, e.policy = some d → e'.policy = some d
  approval : ∀ a, e.approval = some a →
    ∃ a', e'.approval = some a' ∧ a'.id = a.id ∧ a'.payloadHash = a.payloadHash
  thread : ∀ t, e.thread = some t → ∃ t', e'.thread = some t' ∧ t'.id = t.id

/-- The tables of a process at a later time, when the review commands that a decision cites are
the same. -/
structure Later (reviewCommandIds : List UUID) (tables tables' : ActionTables) : Prop where
  entries : ∀ e ∈ tables.entries, ∃ e' ∈ tables'.entries, Kept e e'
  messages : ∀ m, m.id ∈ reviewCommandIds → (m ∈ tables.messages ↔ m ∈ tables'.messages)

/-- The rows show the action of a turn, as a call has returned it. -/
structure Shows (G : Encoding) (turn : UUID) (action : ActionProposal) (supersedes : Option UUID)
    (e : ActionEntry) (persisted : PersistedAction) : Prop where
  key : e.key = (turn, action.logicalActionKey)
  actionType : e.actionType = action.actionType
  supersedes : e.supersedesActionRequestId = supersedes
  revision : ∃ r, e.revision = some r ∧ r.payloadHash = G.actionPayloadHash action
  policy : ∃ d, e.policy = some d ∧ d.outcome = persisted.outcome
  review : persisted.outcome = .requireApproval → ∃ a t, e.approval = some a ∧
    a.payloadHash = G.actionPayloadHash action ∧ e.thread = some t ∧
    persisted.approvalRequestId = some a.id ∧ persisted.reviewThreadId = some t.id
  noReview : persisted.outcome ≠ .requireApproval →
    persisted.approvalRequestId = none ∧ persisted.reviewThreadId = none
  actionRequestId : persisted.actionRequestId = e.id
  revisionNumber : persisted.revision = 1
  payloadHash : persisted.payloadHash = G.actionPayloadHash action

namespace Kept

variable {e e' e'' : ActionEntry}

lemma refl (e : ActionEntry) : Kept e e where
  id := rfl
  key := rfl
  actionType := rfl
  supersedes := rfl
  revision _ h := h
  policy _ h := h
  approval a h := ⟨a, h, rfl, rfl⟩
  thread t h := ⟨t, h, rfl⟩

lemma trans (h : Kept e e') (h' : Kept e' e'') : Kept e e'' where
  id := h'.id.trans h.id
  key := h'.key.trans h.key
  actionType := h'.actionType.trans h.actionType
  supersedes := h'.supersedes.trans h.supersedes
  revision r hr := h'.revision r (h.revision r hr)
  policy d hd := h'.policy d (h.policy d hd)
  approval a ha := by
    obtain ⟨a', ha', hid, hhash⟩ := h.approval a ha
    obtain ⟨a'', ha'', hid', hhash'⟩ := h'.approval a' ha'
    exact ⟨a'', ha'', hid'.trans hid, hhash'.trans hhash⟩
  thread t ht := by
    obtain ⟨t', ht', hid⟩ := h.thread t ht
    obtain ⟨t'', ht'', hid'⟩ := h'.thread t' ht'
    exact ⟨t'', ht'', hid'.trans hid⟩

lemma threadId (h : Kept e e') {thread : UUID} (ht : e.threadId = some thread) :
    e'.threadId = some thread := by
  obtain ⟨t, hthread, rfl⟩ := Option.map_eq_some_iff.mp ht
  obtain ⟨t', ht', hid⟩ := h.thread t hthread
  rw [ActionEntry.threadId, ht', Option.map_some, hid]

/-- What the rows of an action show, they show for good. -/
lemma shows_ (h : Kept e e') {G : Encoding} {turn : UUID} {action : ActionProposal}
    {supersedes : Option UUID} {p : PersistedAction} (hs : Shows G turn action supersedes e p) :
    Shows G turn action supersedes e' p where
  key := h.key.trans hs.key
  actionType := h.actionType.trans hs.actionType
  supersedes := h.supersedes.trans hs.supersedes
  revision := by
    obtain ⟨r, hr, hhash⟩ := hs.revision
    exact ⟨r, h.revision r hr, hhash⟩
  policy := by
    obtain ⟨d, hd, hout⟩ := hs.policy
    exact ⟨d, h.policy d hd, hout⟩
  review hout := by
    obtain ⟨a, t, ha, hhash, ht, hpa, hpt⟩ := hs.review hout
    obtain ⟨a', ha', hid, hhash'⟩ := h.approval a ha
    obtain ⟨t', ht', hid'⟩ := h.thread t ht
    exact ⟨a', t', ha', hhash'.trans hhash, ht', by rw [hpa, hid], by rw [hpt, hid']⟩
  noReview := hs.noReview
  actionRequestId := hs.actionRequestId.trans h.id.symm
  revisionNumber := hs.revisionNumber
  payloadHash := hs.payloadHash

end Kept

namespace Later

variable {cited : List UUID} {tables tables' tables'' : ActionTables}

lemma refl (tables : ActionTables) : Later cited tables tables where
  entries e he := ⟨e, he, .refl e⟩
  messages _ _ := Iff.rfl

lemma trans (h : Later cited tables tables') (h' : Later cited tables' tables'') :
    Later cited tables tables'' where
  entries e he := by
    obtain ⟨e', he', hkept⟩ := h.entries e he
    obtain ⟨e'', he'', hkept'⟩ := h'.entries e' he'
    exact ⟨e'', he'', hkept.trans hkept'⟩
  messages m hm := (h.messages m hm).trans (h'.messages m hm)

end Later

/-! ### The tables -/

namespace ActionTables

variable {tables tables' : ActionTables} {e : ActionEntry} {cited : List UUID}

lemma entry_eq_some {turn : UUID} {key : String} :
    tables.entry turn key = some e ↔ e ∈ tables.entries ∧ e.key = (turn, key) :=
  tables.constraints.keys.lookup_eq_some

/-- A thread belongs to one action. -/
lemma reviewed_eq_some {thread : UUID} :
    tables.reviewed thread = some e ↔ e ∈ tables.entries ∧ e.threadId = some thread := by
  constructor
  · intro h
    have hthread : e.threadId = some thread := by simpa using List.find?_some h
    exact ⟨List.mem_of_find?_eq_some h, hthread⟩
  · rintro ⟨he, hthread⟩
    cases hfound : tables.reviewed thread with
    | none =>
        rw [reviewed, List.find?_eq_none] at hfound
        exact absurd (decide_eq_true hthread) (hfound e he)
    | some e' =>
        have hthread' : e'.threadId = some thread := by simpa using List.find?_some hfound
        have he' := List.mem_of_find?_eq_some hfound
        rw [Tables.eq_of_nodup_filterMap tables.constraints.threadIds he' he hthread' hthread]

/-- The rows of an action are stored, and those of the others stay. -/
lemma put_ok (h : tables.put e = .ok tables') :
    tables'.process = tables.process ∧ tables'.messages = tables.messages ∧
      e ∈ tables'.entries ∧
      ∀ e₀, e₀.key ≠ e.key → (e₀ ∈ tables.entries ↔ e₀ ∈ tables'.entries) := by
  rw [put] at h
  split_ifs at h with hfound hconstraints hconstraints
  · obtain rfl := Except.ok.inj h
    obtain ⟨e₁, he₁⟩ := Option.isSome_iff_exists.mp hfound
    obtain ⟨hmem, hkey⟩ := entry_eq_some.mp he₁
    refine ⟨rfl, rfl, Tables.mem_modify.mpr (.inl ⟨e₁, hmem, hkey, rfl⟩), fun e₀ hne => ?_⟩
    rw [Tables.mem_modify]
    refine ⟨fun he₀ => .inr ⟨he₀, hne⟩, ?_⟩
    rintro (⟨_, _, _, rfl⟩ | ⟨he₀, -⟩)
    · exact absurd rfl hne
    · exact he₀
  · obtain rfl := Except.ok.inj h
    refine ⟨rfl, rfl, List.mem_append_right _ List.mem_cons_self, fun e₀ hne => ?_⟩
    rw [List.mem_append, List.mem_singleton]
    refine (or_iff_left fun heq => ?_).symm
    exact hne (by rw [heq])

/-- Rows that are there already are not changed. -/
lemma put_of_mem (he : e ∈ tables.entries) : tables.put e = .ok tables := by
  have hfound : tables.entry e.agentTurnId e.logicalActionKey = some e :=
    entry_eq_some.mpr ⟨he, rfl⟩
  have hsame : Tables.modify ActionEntry.key e.key (fun _ => e) tables.entries
      = tables.entries := by
    rw [Tables.modify]
    refine (List.map_congr_left fun e₀ he₀ => ?_).trans (List.map_id _)
    split_ifs with hkey
    · exact tables.constraints.keys.eq_of_mem he he₀ hkey.symm
    · rfl
  rw [put, hfound]
  simp only [Option.isSome_some, if_true, hsame]
  rw [dif_pos tables.constraints]

/-- A new action that needs no approval can be stored. -/
lemma put_new {e : ActionEntry} (hkey : ∀ e₀ ∈ tables.entries, e₀.key ≠ e.key)
    (hid : ∀ e₀ ∈ tables.entries, e₀.id ≠ e.id) (happroval : e.approval = none)
    (hthread : e.thread = none) : ∃ tables', tables.put e = .ok tables' := by
  have hnone : tables.entry e.agentTurnId e.logicalActionKey = none :=
    Tables.lookup_eq_none.mpr hkey
  have hconstraints : Constraints (tables.entries ++ [e]) tables.attempts tables.messages :=
    { keys := tables.constraints.keys.concat (Tables.lookup_eq_none.mpr hkey)
      ids := tables.constraints.ids.concat (Tables.lookup_eq_none.mpr hid)
      approvalIds := by
        simpa [ActionEntry.approvalId, happroval] using tables.constraints.approvalIds
      threadIds := by
        simpa [ActionEntry.threadId, hthread] using tables.constraints.threadIds
      attemptIds := tables.constraints.attemptIds
      messageIds := tables.constraints.messageIds
      messageThreads := fun m hm => by
        obtain ⟨e₀, he₀, h⟩ := tables.constraints.messageThreads m hm
        exact ⟨e₀, List.mem_append_left _ he₀, h⟩ }
  rw [put, hnone]
  simp only [Option.isSome_none, Bool.false_eq_true, if_false]
  exact ⟨_, dif_pos hconstraints⟩

/-- A target has one action type. -/
lemma revisionTargets_eq {x : UUID} {k k' : String}
    (h : (x, k) ∈ tables.revisionTargets cited) (h' : (x, k') ∈ tables.revisionTargets cited) :
    k = k' := by
  have htarget {k : String} (h : (x, k) ∈ tables.revisionTargets cited) :
      ∃ e ∈ tables.entries, e.id = x ∧ e.actionType = k := by
    obtain ⟨m, -, hm⟩ := List.mem_filterMap.mp h
    obtain ⟨e, he, heq⟩ := Option.map_eq_some_iff.mp hm
    obtain ⟨hid, htype⟩ := Prod.mk.inj heq
    exact ⟨e, (reviewed_eq_some.mp he).1, hid, htype⟩
  obtain ⟨e, he, hid, rfl⟩ := htarget h
  obtain ⟨e', he', hid', rfl⟩ := htarget h'
  rw [tables.constraints.ids.eq_of_mem he he' (hid.trans hid'.symm)]

end ActionTables

/-- The review commands that a decision cites ask for the revision of the same actions at any
later time. -/
lemma Later.revisionTargets_perm {cited : List UUID} {tables tables' : ActionTables}
    (h : Later cited tables tables') :
    (tables'.revisionTargets cited).Perm (tables.revisionTargets cited) := by
  have hperm : (tables'.messages.filter fun m =>
        decide (m.id ∈ cited ∧ m.messageType = .requestRevision)).Perm
      (tables.messages.filter fun m =>
        decide (m.id ∈ cited ∧ m.messageType = .requestRevision)) := by
    refine (List.perm_ext_iff_of_nodup (tables'.constraints.messageIds.of_map.filter _)
      (tables.constraints.messageIds.of_map.filter _)).mpr fun m => ?_
    simp only [List.mem_filter, decide_eq_true_eq]
    exact and_congr_left fun hm => (h.messages m hm.1).symm
  refine (hperm.filterMap _).trans (List.Perm.of_eq (List.filterMap_congr fun m hm => ?_))
  -- the thread of a message belongs to the same action
  obtain ⟨e, he, hthread⟩ := tables.constraints.messageThreads m (List.mem_filter.mp hm).1
  obtain ⟨e', he', hkept⟩ := h.entries e he
  rw [ActionTables.reviewed_eq_some.mpr ⟨he, hthread⟩,
    ActionTables.reviewed_eq_some.mpr ⟨he', hkept.threadId hthread⟩, Option.map_some,
    Option.map_some, hkept.id, hkept.actionType]

/-! ### One action -/

section

variable {G : Encoding} {world : Surroundings} {call : PersistCall} {supersedes : Option UUID}
  {action : ActionProposal} {tables tables' : ActionTables} {p : PersistedAction}

/-- The approval and the thread of an action that needs a review. -/
lemma settleReview_ok {payloadHash : String} {request e : ActionEntry}
    {outcome : PermissionOutcome} {approvalId threadId : Option UUID}
    (h : settleReview world payloadHash request outcome = .ok (e, approvalId, threadId)) :
    Kept request e ∧
      (outcome = .requireApproval → ∃ a t, e.approval = some a ∧ a.payloadHash = payloadHash ∧
        e.thread = some t ∧ approvalId = some a.id ∧ threadId = some t.id) ∧
      (outcome ≠ .requireApproval → approvalId = none ∧ threadId = none) := by
  cases outcome with
  | requireApproval =>
      obtain ⟨_, hhash, h⟩ := ok_of_bind h
      obtain ⟨rfl, hids⟩ := Prod.mk.inj (Except.ok.inj h)
      obtain ⟨rfl, rfl⟩ := Prod.mk.inj hids
      refine ⟨?_, fun _ => ⟨_, _, rfl, of_decide_eq_true (requireThat_eq_ok hhash), rfl, rfl, rfl⟩,
        fun hne => absurd rfl hne⟩
      exact
        { Kept.refl request with
          approval := fun a ha => ⟨a, by simp [ha], rfl, rfl⟩
          thread := fun t ht => ⟨t, by simp [ht], rfl⟩ }
  | allow | deny =>
      obtain ⟨rfl, hids⟩ := Prod.mk.inj (Except.ok.inj h)
      obtain ⟨rfl, rfl⟩ := Prod.mk.inj hids
      exact ⟨.refl _, nofun, fun _ => ⟨rfl, rfl⟩⟩

/-- An action that is persisted has left its rows, and those of other actions are kept. -/
lemma persistAction_ok (cited : List UUID)
    (h : persistAction G world call supersedes action tables = .ok (tables', p)) :
    G.requireActionParameters action.parameters = .ok () ∧
      (∃ e ∈ tables'.entries, Shows G call.agentTurnId action supersedes e p) ∧
      Later cited tables tables' ∧ tables'.process = tables.process ∧
      ∀ key, key ≠ action.logicalActionKey →
        tables'.entry call.agentTurnId key = tables.entry call.agentTurnId key := by
  rw [persistAction] at h
  obtain ⟨_, hparameters, h⟩ := ok_of_bind h
  obtain ⟨_, htype, h⟩ := ok_of_bind h
  obtain ⟨_, hsupersedes, h⟩ := ok_of_bind h
  obtain ⟨_, hhash, h⟩ := ok_of_bind h
  obtain ⟨⟨settled, approvalId, threadId⟩, hsettled, h⟩ := ok_of_bind h
  obtain ⟨tables₁, hput, h⟩ := ok_of_bind h
  obtain ⟨_, -, h⟩ := ok_of_bind h
  obtain ⟨rfl, rfl⟩ := Prod.mk.inj (Except.ok.inj h)
  obtain ⟨hkept, hreview, hnoReview⟩ := settleReview_ok hsettled
  obtain ⟨hprocess, hmessages, hmem, hothers⟩ := ActionTables.put_ok hput
  have hkey : settled.key = (call.agentTurnId, action.logicalActionKey) := by
    rw [hkept.key]
    cases hfound : tables.entry call.agentTurnId action.logicalActionKey with
    | none => rfl
    | some e₀ => exact (ActionTables.entry_eq_some.mp hfound).2
  refine ⟨hparameters, ⟨settled, hmem, ?_⟩, ⟨fun e₀ he₀ => ?_, ?_⟩, hprocess, fun key hne => ?_⟩
  · exact
      { key := hkey
        actionType := hkept.actionType.trans (of_decide_eq_true (requireThat_eq_ok htype))
        supersedes := hkept.supersedes.trans (of_decide_eq_true (requireThat_eq_ok hsupersedes))
        revision := ⟨_, hkept.revision _ rfl, of_decide_eq_true (requireThat_eq_ok hhash)⟩
        policy := ⟨_, hkept.policy _ rfl, rfl⟩
        review := hreview
        noReview := hnoReview
        actionRequestId := rfl
        revisionNumber := rfl
        payloadHash := rfl }
  · by_cases heq : e₀.key = settled.key
    · -- the entry has been found, and written anew
      have hfound : tables.entry call.agentTurnId action.logicalActionKey = some e₀ :=
        ActionTables.entry_eq_some.mpr ⟨he₀, heq.trans hkey⟩
      rw [hfound, Option.getD_some] at hkept
      refine ⟨settled, hmem, Kept.trans ?_ hkept⟩
      exact
        { Kept.refl e₀ with
          revision := fun r hr => by simp [hr]
          policy := fun d hd => by simp [hd] }
    · exact ⟨e₀, (hothers e₀ heq).mp he₀, .refl e₀⟩
  · intro m _
    rw [hmessages]
  · refine Option.ext fun e₀ => ?_
    rw [ActionTables.entry_eq_some, ActionTables.entry_eq_some]
    refine and_congr_left fun hkey₀ => (hothers e₀ fun heq => hne ?_).symm
    exact (Prod.mk.inj (hkey₀.symm.trans (heq.trans hkey))).2

/-- The review of an action that has its approval and its thread is not changed. -/
lemma settleReview_of_shows {turn : UUID} {e : ActionEntry}
    (hs : Shows G turn action supersedes e p) :
    settleReview world (G.actionPayloadHash action) e p.outcome
      = .ok (e, p.approvalRequestId, p.reviewThreadId) := by
  cases hout : p.outcome with
  | requireApproval =>
      obtain ⟨a, t, ha, hhash, ht, hpa, hpt⟩ := hs.review hout
      have hsame : ({ e with approval := some a, thread := some t } : ActionEntry) = e := by
        rw [← ha, ← ht]
      simp [settleReview, ha, ht, hhash, hpa, hpt, hsame, requireThat, bind, Except.bind, pure,
        Except.pure]
  | allow | deny =>
      obtain ⟨hpa, hpt⟩ := hs.noReview (by rw [hout]; decide)
      rw [hpa, hpt]
      rfl

/-- An action whose rows are there is returned, and no row is added. -/
lemma persistAction_of_shows {e : ActionEntry}
    (hparameters : G.requireActionParameters action.parameters = .ok ())
    (he : e ∈ tables.entries) (hs : Shows G call.agentTurnId action supersedes e p) :
    persistAction G world call supersedes action tables
      = .ok (tables, { p with status := e.status }) := by
  have hfound : tables.entry call.agentTurnId action.logicalActionKey = some e :=
    ActionTables.entry_eq_some.mpr ⟨he, hs.key⟩
  obtain ⟨r, hr, hhash⟩ := hs.revision
  obtain ⟨d, hd, hout⟩ := hs.policy
  have hsame : ({ e with revision := some r, policy := some d } : ActionEntry) = e := by
    rw [← hr, ← hd]
  have hshown : ({ p with status := e.status } : PersistedAction) =
      { actionRequestId := e.id
        revision := 1
        payloadHash := G.actionPayloadHash action
        outcome := p.outcome
        status := e.status
        approvalRequestId := p.approvalRequestId
        reviewThreadId := p.reviewThreadId } := by
    rw [← hs.actionRequestId, ← hs.revisionNumber, ← hs.payloadHash]
  rw [persistAction, hparameters, hfound, hshown]
  simp only [Option.getD_some, hr, hd, hsame, hout]
  simp [hs.actionType, hs.supersedes, hhash, settleReview_of_shows hs,
    ActionTables.put_of_mem he, requireThat, bind, Except.bind, pure, Except.pure]

end

/-! ### The loop -/

/-- The part of a `PersistedAction` that does not change any more: everything but the status. -/
def PersistedAction.identity (p : PersistedAction) :
    UUID × ℕ × String × PermissionOutcome × Option UUID × Option UUID :=
  (p.actionRequestId, p.revision, p.payloadHash, p.outcome, p.approvalRequestId, p.reviewThreadId)

/-- The rows show the actions of a call, with what each supersedes. -/
def Recorded (G : Encoding) (turn : UUID) (tables : ActionTables)
    (actions : List (ActionProposal × Option UUID)) (persisted : List PersistedAction) : Prop :=
  List.Forall₂ (fun action p => G.requireActionParameters action.1.parameters = .ok () ∧
    ∃ e ∈ tables.entries, Shows G turn action.1 action.2 e p) actions persisted

/-- The actions of a call, with what each supersedes. -/
def lineage (revisionTargets : List (UUID × String)) (used : List UUID)
    (actions : List ActionProposal) : List (ActionProposal × Option UUID) :=
  actions.zip (Matching.assign revisionTargets used (actions.map ActionProposal.actionType))

section

variable {G : Encoding} {world : Surroundings} {call : PersistCall} {tables tables' : ActionTables}
  {targets : List (UUID × String)} {conflicted : List String} {used : List UUID}
  {actions : List ActionProposal} {ps : List PersistedAction}

lemma Recorded.later {cited turn} {xs : List (ActionProposal × Option UUID)}
    (h : Recorded G turn tables xs ps) (hlater : Later cited tables tables') :
    Recorded G turn tables' xs ps := by
  refine List.Forall₂.imp (fun x p hx => ?_) h
  obtain ⟨hparameters, e, he, hs⟩ := hx
  obtain ⟨e', he', hkept⟩ := hlater.entries e he
  exact ⟨hparameters, e', he', hkept.shows_ hs⟩

/-- A call records its actions, and keeps what is there. -/
lemma persistActions_ok (cited : List UUID)
    (h : persistActions G world call targets conflicted used actions tables = .ok (tables', ps)) :
    Recorded G call.agentTurnId tables' (lineage targets used actions) ps ∧
      Later cited tables tables' ∧ tables'.process = tables.process := by
  induction actions generalizing used tables ps with
  | nil =>
      obtain ⟨rfl, rfl⟩ := Prod.mk.inj (Except.ok.inj h)
      exact ⟨.nil, .refl _, rfl⟩
  | cons action rest ih =>
      rw [persistActions] at h
      obtain ⟨_, -, h⟩ := ok_of_bind h
      obtain ⟨⟨tables₁, p⟩, hp, h⟩ := ok_of_bind h
      obtain ⟨⟨tables₂, others⟩, hrest, h⟩ := ok_of_bind h
      obtain ⟨rfl, rfl⟩ := Prod.mk.inj (Except.ok.inj h)
      obtain ⟨hparameters, hshows, hlater, hprocess, -⟩ := persistAction_ok cited hp
      obtain ⟨hrecorded, hlater', hprocess'⟩ := ih hrest
      obtain ⟨e, he, hs⟩ := hshows
      obtain ⟨e', he', hkept⟩ := hlater'.entries e he
      refine ⟨?_, hlater.trans hlater', hprocess'.trans hprocess⟩
      exact List.Forall₂.cons ⟨hparameters, e', he', hkept.shows_ hs⟩ hrecorded

/-- The parameters of the actions of a call are accepted. -/
lemma persistActions_parameters
    (h : persistActions G world call targets conflicted used actions tables = .ok (tables', ps)) :
    ∀ action ∈ actions, G.requireActionParameters action.parameters = .ok () := by
  induction actions generalizing used tables ps with
  | nil => exact nofun
  | cons action rest ih =>
      rw [persistActions] at h
      obtain ⟨_, -, h⟩ := ok_of_bind h
      obtain ⟨⟨tables₁, p⟩, hp, h⟩ := ok_of_bind h
      obtain ⟨⟨tables₂, others⟩, hrest, h⟩ := ok_of_bind h
      obtain ⟨rfl, rfl⟩ := Prod.mk.inj (Except.ok.inj h)
      exact List.forall_mem_cons.mpr ⟨(persistAction_ok [] hp).1, ih hrest⟩

/-- A call whose actions are recorded, with the same lineage, adds no row and returns the same
identities. -/
lemma persistActions_of_recorded (world : Surroundings) (conflicted : List String)
    (h : Recorded G call.agentTurnId tables (lineage targets used actions) ps) :
    ∃ ps', persistActions G world call targets conflicted used actions tables = .ok (tables, ps') ∧
      ps'.map PersistedAction.identity = ps.map PersistedAction.identity := by
  induction actions generalizing used ps with
  | nil =>
      cases h
      exact ⟨[], rfl, rfl⟩
  | cons action rest ih =>
      rw [lineage, List.map_cons, Matching.assign, List.zip_cons_cons] at h
      cases h with
      | @cons _ p _ others hfirst hrest =>
          obtain ⟨hparameters, e, he, hs⟩ := hfirst
          obtain ⟨ps', hps', hid⟩ := ih hrest
          have hfound : tables.entry call.agentTurnId action.logicalActionKey = some e :=
            ActionTables.entry_eq_some.mpr ⟨he, hs.key⟩
          refine ⟨{ p with status := e.status } :: ps', ?_, ?_⟩
          · rw [persistActions, hfound]
            simp [requireNewAction, persistAction_of_shows hparameters he hs, hps', bind,
              Except.bind, pure, Except.pure]
          · rw [List.map_cons, List.map_cons, hid]
            rfl

/-- Rows show one lineage. -/
lemma Recorded.lineage_eq {targets' : List (UUID × String)} {ps' : List PersistedAction}
    {turn : UUID} {used' : List UUID}
    (h : Recorded G turn tables (lineage targets used actions) ps)
    (h' : Recorded G turn tables (lineage targets' used' actions) ps') :
    lineage targets used actions = lineage targets' used' actions := by
  induction actions generalizing used used' ps ps' with
  | nil => rfl
  | cons action rest ih =>
      rw [lineage, List.map_cons, Matching.assign, List.zip_cons_cons] at h h' ⊢
      cases h with
      | cons hfirst hrest =>
          cases h' with
          | cons hfirst' hrest' =>
              obtain ⟨-, e, he, hs⟩ := hfirst
              obtain ⟨-, e', he', hs'⟩ := hfirst'
              have heq : e = e' :=
                tables.constraints.keys.eq_of_mem he he' (hs.key.trans hs'.key.symm)
              have hsame : Matching.firstFree targets used action.actionType
                  = Matching.firstFree targets' used' action.actionType := by
                refine hs.supersedes.symm.trans ?_
                rw [heq]
                exact hs'.supersedes
              have htail := ih hrest hrest'
              rw [lineage, lineage] at htail
              rw [lineage, List.map_cons, Matching.assign, List.zip_cons_cons, htail, hsame]

end

end TiramisuAgents.ActionGateway
