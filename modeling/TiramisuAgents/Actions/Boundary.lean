import TiramisuAgents.Actions.Outcomes
import TiramisuAgents.Adapters.Stubs

/-!
The calls of an action next to the provider of its adapter.

The executor sends a request to the provider while its transaction holds the locks, and learns the
outcome from the answer or, later, from a lookup.  A request that was sent is delivered once, again
or never, also when the call that has sent it is gone; an answer may be lost, and a lookup may fail
or be answered late.  The provider has events of its own, among them the requests of other actions.

* `Boundary`, `Caller`, `boundary`: the rows with the provider, and the calls.
* `BoundaryStep`, `BoundaryStep.of_next`: the transitions.
* `boundaryPool`, `boundaryPool_runs`: without the provider they are the calls of the action.
* `Mirrors`, `mirrors_runs`: what the rows and the calls say of the provider.
* `recorded_outcome_kept`, `performed_once`: what is recorded is what the provider did, and it did
  it once.
-/

namespace TiramisuAgents

open Deduplication Transactions

variable {ε π : Type}

/-! ### The calls -/

/-- The committed rows, the provider, and the requests that were sent to it. -/
structure Boundary (π : Type) where
  database : Database
  provider : π
  sent : List ProviderRequest := []

/-- A call, with the request whose answer it waits for. -/
structure Caller where
  stage : Stage := .idle
  request : Option ProviderRequest := none

/-- What happens at the boundary: a statement of a call, an open gate, an answer of the provider,
a lookup, a delivery, or an event of the provider.  An answer that is `unsettled` says nothing of
an outcome: the connection is lost, or it is about an earlier delivery. -/
inductive BoundaryInput (ε : Type) where
  | call (input : CallInput)
  | cross (authoritativeFacts : List (String × FactDocument))
  | reply
  | unsettled (answer : ProviderAnswer)
  | look
  | lookUnsettled (answer : LookupAnswer)
  | deliver (index : ℕ)
  | event (event : ε)

/-- What is observed: an event of the calls, or that a delivery has settled an outcome. -/
inductive BoundaryEvent where
  | action (event : ActionEvent)
  | settled (request : ProviderRequest) (outcome : ProviderOutcome)

/-- The event of a call. -/
def BoundaryEvent.action? : BoundaryEvent → Option ActionEvent
  | action e => some e
  | settled _ _ => none

/-- The event is a settlement. -/
def BoundaryEvent.isSettled : BoundaryEvent → Bool
  | action _ => false
  | settled _ _ => true

/-- The answer is an outcome. -/
def ProviderAnswer.outcome? : ProviderAnswer → Option ProviderOutcome
  | success r => some (.result r)
  | definitiveConflict c => some (.conflict c)
  | definitiveFailure _ | ambiguous _ | error _ => none

/-- The answer is no outcome. -/
def LookupAnswer.unsettled : LookupAnswer → Bool
  | failed _ | absent => true
  | conflict _ | found _ => false

/-- The inputs that need no provider. -/
def CallInput.inward : CallInput → Bool
  | .answer (.provider _) | .answer (.lookup _) | .answer (.gate none) => false
  | _ => true

/-- A statement of the call, after which it waits for `request`. -/
def Caller.move (P : Platform) (c : Caller) (x : CallInput) (request : Option ProviderRequest)
    (b : Boundary π) : Option (Caller × Boundary π × List BoundaryEvent) :=
  (next P c.stage x b.database).map fun r =>
    (⟨r.1, request⟩, { b with database := r.2.1 }, r.2.2.map .action)

/-- The request that passes the gate. -/
def Loaded.providerRequest (row : Loaded) (P : Platform) (key : String)
    (authoritativeFacts : List (String × FactDocument)) : ProviderRequest where
  actionType := row.request.actionType
  parameters := row.revision.parameters
  idempotencyKey := key
  tenantId := some P.tenantId
  processInstanceId := some P.processInstanceId
  authoritativeFacts := authoritativeFacts

/-- The provider executes a request. -/
def Boundary.deliver (A : ActionService ε π) (b : Boundary π) (q : ProviderRequest) :
    Boundary π :=
  { b with provider := (A.execute q b.provider).2 }

/-- What a delivery settles. -/
def Boundary.settlement (A : ActionService ε π) (b : Boundary π) (q : ProviderRequest) :
    List BoundaryEvent :=
  (A.settled b.provider q).toList.map (.settled q)

/-- A call that has sent its request is told an answer. -/
def Caller.told (P : Platform) (c : Caller) (answer : ProviderAnswer) (b : Boundary π) :
    Option (Caller × Boundary π × List BoundaryEvent) :=
  match c.stage with
  | .invoking _ => c.move P (.answer (.provider answer)) none b
  | _ => none

/-- A call that looks its key up is told an answer. -/
def Caller.lookedUp (P : Platform) (c : Caller) (answer : String → LookupAnswer) (b : Boundary π) :
    Option (Caller × Boundary π × List BoundaryEvent) :=
  match c.stage with
  | .looking _ key => c.move P (.answer (.lookup (answer key))) none b
  | _ => none

/-- One step at the boundary. -/
def Caller.next (P : Platform) (A : ActionService ε π) (c : Caller) :
    BoundaryInput ε → Boundary π → Option (Caller × Boundary π × List BoundaryEvent)
  | .call x, b => if x.inward then c.move P x none b else none
  | .cross facts, b =>
      match c.stage with
      | .gating _ key row =>
          let request := row.providerRequest P key facts
          c.move P (.answer (.gate none)) (some request) { b with sent := b.sent ++ [request] }
      | _ => none
  | .reply, b =>
      c.request.bind fun request =>
        (c.told P (A.execute request b.provider).1 (b.deliver A request)).map fun r =>
          (r.1, r.2.1, r.2.2 ++ b.settlement A request)
  | .unsettled answer, b => if answer.outcome?.isNone then c.told P answer b else none
  | .look, b => c.lookedUp P (fun key => ProviderOutcome.found (A.lookup key b.provider)) b
  | .lookUnsettled answer, b => if answer.unsettled then c.lookedUp P (fun _ => answer) b else none
  | .deliver index, b =>
      b.sent[index]?.map fun request => (c, b.deliver A request, b.settlement A request)
  | .event e, b => some (c, { b with provider := A.event e b.provider }, [])

/-- The code at the boundary. -/
def boundary (P : Platform) (A : ActionService ε π) :
    Code (Boundary π) Caller (BoundaryInput ε) BoundaryEvent RowLock where
  next := Caller.next P A
  locks c := c.stage.locks

/-- A process without the action, no calls, and a provider. -/
def freshBoundary (n : ℕ) (process : ProcessStatus) (provider : π) :
    Pool n (Boundary π) Caller BoundaryEvent where
  store := { database := { process := process }, provider := provider }
  calls := fun _ => {}
  log := []

/-! ### Transitions -/

/-- The transitions at the boundary. -/
inductive BoundaryStep (P : Platform) (A : ActionService ε π) :
    Caller → BoundaryInput ε → Boundary π → Caller → Boundary π → List BoundaryEvent → Prop
  | statement {c : Caller} {b : Boundary π} {x : CallInput} {t : Stage} {db : Database}
      {obs : List ActionEvent} (inward : x.inward = true)
      (next : next P c.stage x b.database = some (t, db, obs)) :
      BoundaryStep P A c (.call x) b ⟨t, none⟩ { b with database := db } (obs.map .action)
  | cross {b : Boundary π} {revision : ℕ} {key : String} {row : Loaded}
      {request : Option ProviderRequest} (facts : List (String × FactDocument)) :
      BoundaryStep P A ⟨.gating revision key row, request⟩ (.cross facts) b
        ⟨.invoking key, some (row.providerRequest P key facts)⟩
        { b with sent := b.sent ++ [row.providerRequest P key facts] }
        [.action (.invoked
          ⟨key, revision, row.request.actionType, row.revision.parameters, b.database⟩)]
  | reply {b : Boundary π} {key : String} {q : ProviderRequest} {answer : ProviderAnswer}
      (executed : (A.execute q b.provider).1 = answer) :
      BoundaryStep P A ⟨.invoking key, some q⟩ .reply b ⟨.recording key answer.outcome, none⟩
        (b.deliver A q) (.action (.answered key answer) :: b.settlement A q)
  | unsettled {b : Boundary π} {key : String} {request : Option ProviderRequest}
      {answer : ProviderAnswer} (unsettled : answer.outcome? = none) :
      BoundaryStep P A ⟨.invoking key, request⟩ (.unsettled answer) b
        ⟨.recording key answer.outcome, none⟩ b [.action (.answered key answer)]
  | looked {b : Boundary π} {x : BoundaryInput ε} {lookup : Lookup} {key : String}
      {request : Option ProviderRequest} {answer : LookupAnswer}
      (told : answer.unsettled = true ∨
        answer = ProviderOutcome.found (A.lookup key b.provider)) :
      BoundaryStep P A ⟨.looking lookup key, request⟩ x b ⟨lookup.proceed key answer, none⟩ b []
  | deliver {c : Caller} {b : Boundary π} {index : ℕ} {q : ProviderRequest}
      (sent : q ∈ b.sent) :
      BoundaryStep P A c (.deliver index) b c (b.deliver A q) (b.settlement A q)
  | event {c : Caller} {b : Boundary π} (e : ε) :
      BoundaryStep P A c (.event e) b c { b with provider := A.event e b.provider } []

variable {P : Platform} {A : ActionService ε π} {c c' : Caller} {b b' : Boundary π}
  {obs : List BoundaryEvent}

/-- **The inversion rule** at the boundary. -/
lemma BoundaryStep.of_next {x : BoundaryInput ε} (h : c.next P A x b = some (c', b', obs)) :
    BoundaryStep P A c x b c' b' obs := by
  obtain ⟨t, request⟩ := c
  cases x with
  | call x =>
      rw [Caller.next] at h
      split_ifs at h with hinward
      obtain ⟨⟨t', db, events⟩, hnext, h⟩ := Option.map_eq_some_iff.mp h
      cases h
      exact .statement hinward hnext
  | cross facts =>
      cases t with
      | gating revision key row =>
          cases h
          exact .cross facts
      | _ => cases h
  | reply =>
      obtain ⟨q, hq, h⟩ := Option.bind_eq_some_iff.mp h
      dsimp only at hq
      subst hq
      cases t with
      | invoking key =>
          cases h
          exact .reply rfl
      | _ => cases h
  | unsettled answer =>
      rw [Caller.next] at h
      split_ifs at h with hnone
      cases t with
      | invoking key =>
          cases h
          exact .unsettled (Option.isNone_iff_eq_none.mp hnone)
      | _ => cases h
  | look =>
      cases t with
      | looking lookup key =>
          cases h
          exact .looked (.inr rfl)
      | _ => cases h
  | lookUnsettled answer =>
      rw [Caller.next] at h
      split_ifs at h with hunsettled
      cases t with
      | looking lookup key =>
          cases h
          exact .looked (.inl hunsettled)
      | _ => cases h
  | deliver index =>
      obtain ⟨q, hq, h⟩ := Option.map_eq_some_iff.mp h
      cases h
      exact .deliver (List.mem_of_getElem? hq)
  | event e =>
      cases h
      exact .event e

/-! ### The calls without the provider -/

/-- The events of the calls. -/
def actionEvents (log : List BoundaryEvent) : List ActionEvent :=
  log.filterMap BoundaryEvent.action?

@[simp] lemma actionEvents_append (log log' : List BoundaryEvent) :
    actionEvents (log ++ log') = actionEvents log ++ actionEvents log' :=
  List.filterMap_append

@[simp] lemma actionEvents_map (events : List ActionEvent) :
    actionEvents (events.map .action) = events := by
  rw [actionEvents, List.filterMap_map]
  exact List.filterMap_some

@[simp] lemma actionEvents_settlement (b : Boundary π) (q : ProviderRequest) :
    actionEvents (b.settlement A q) = [] := by
  rw [actionEvents, Boundary.settlement, List.filterMap_map]
  exact List.filterMap_eq_nil_iff.mpr fun _ _ => rfl

/-- A step of the boundary is a statement of the call, or leaves the call and the rows alone. -/
lemma BoundaryStep.calls {x : BoundaryInput ε} (h : BoundaryStep P A c x b c' b' obs) :
    (c'.stage = c.stage ∧ b'.database = b.database ∧ actionEvents obs = []) ∨
    ∃ y, next P c.stage y b.database = some (c'.stage, b'.database, actionEvents obs) := by
  cases h with
  | statement hinward hnext => exact .inr ⟨_, by rw [hnext, actionEvents_map]⟩
  | cross facts => exact .inr ⟨.answer (.gate none), rfl⟩
  | @reply _ key q answer hexecuted =>
      refine .inr ⟨.answer (.provider answer), ?_⟩
      rw [show actionEvents (.action (.answered key answer) :: b.settlement A q)
        = [.answered key answer] from congrArg _ (actionEvents_settlement b q)]
      rfl
  | unsettled => exact .inr ⟨.answer (.provider _), rfl⟩
  | looked => exact .inr ⟨.answer (.lookup _), rfl⟩
  | deliver hsent => exact .inl ⟨rfl, rfl, actionEvents_settlement b _⟩
  | event e => exact .inl ⟨rfl, rfl, rfl⟩

variable {n : ℕ}

/-- The calls and the rows of a state. -/
def boundaryPool (s : Pool n (Boundary π) Caller BoundaryEvent) :
    Pool n Database Stage ActionEvent where
  store := s.store.database
  calls := fun i => (s.calls i).stage
  log := actionEvents s.log

/-- What a step at the boundary is. -/
lemma boundary_step_cases {s s' : Pool n (Boundary π) Caller BoundaryEvent} {i : Fin n}
    {x : BoundaryInput ε} (h : s.step (boundary P A) (i, x) = some s') :
    ∃ c' b' obs, BoundaryStep P A (s.calls i) x s.store c' b' obs ∧
      s' = ⟨b', Function.update s.calls i c', s.log ++ obs⟩ := by
  obtain ⟨c', b', obs, hnext, -, rfl⟩ := step_eq_some h
  exact ⟨c', b', obs, .of_next hnext, rfl⟩

/-- A step at the boundary is a step of the calls, or none. -/
lemma boundaryPool_step {s s' : Pool n (Boundary π) Caller BoundaryEvent} {i : Fin n}
    {x : BoundaryInput ε} (h : s.step (boundary P A) (i, x) = some s') :
    boundaryPool s' = boundaryPool s ∨
      ∃ y, (boundaryPool s).step (calls P) (i, y) = some (boundaryPool s') := by
  obtain ⟨c', b', obs, hnext, hfree, rfl⟩ := step_eq_some h
  have hstages : (fun j => (Function.update s.calls i c' j).stage)
      = Function.update (fun j => (s.calls j).stage) i c'.stage := by
    funext j
    by_cases hj : j = i
    · rw [hj, Function.update_self, Function.update_self]
    · rw [Function.update_of_ne hj, Function.update_of_ne hj]
  rcases (BoundaryStep.of_next hnext).calls with ⟨hstage, hdb, hobs⟩ | ⟨y, hy⟩
  · left
    rw [boundaryPool, boundaryPool, Pool.mk.injEq]
    refine ⟨hdb, ?_, by rw [actionEvents_append, hobs, List.append_nil]⟩
    rw [hstages, hstage]
    exact Function.update_eq_self i _
  · right
    refine ⟨y, ?_⟩
    rw [step_eq (s := boundaryPool s) hy hfree, Option.some.injEq, boundaryPool, Pool.mk.injEq]
    exact ⟨rfl, hstages.symm, (actionEvents_append _ _).symm⟩

/-- **Refinement**: the runs at the boundary are runs of the calls. -/
lemma boundaryPool_runs {G : Pool n (Boundary π) Caller BoundaryEvent → Fin n × BoundaryInput ε → Prop}
    {s s' : Pool n (Boundary π) Caller BoundaryEvent} {ms : List (Fin n × BoundaryInput ε)}
    (h : Runs (boundary P A) G s ms s') :
    ∃ ms', Runs (calls P) (fun _ _ => True) (boundaryPool s) ms' (boundaryPool s') := by
  induction h with
  | nil s => exact ⟨[], .nil _⟩
  | @cons s s₁ s₂ m ms _ hstep _ ih =>
      obtain ⟨ms', hruns⟩ := ih
      rcases boundaryPool_step hstep with hsame | ⟨y, hy⟩
      · exact ⟨ms', hsame ▸ hruns⟩
      · exact ⟨(m.1, y) :: ms', .cons trivial hy hruns⟩

/-! ### What is said of the provider -/

/-- A recorded success or conflict is the outcome that the provider keeps. -/
def RecordedOutcome.Backed (o : RecordedOutcome) (found : Option ProviderOutcome) : Prop :=
  o.status = .succeeded ∨ o.status = .conflict → ∃ q, found = some q ∧ o = q.recorded

/-- The outcome that a call is about to record. -/
def Stage.carried : Stage → Option (String × RecordedOutcome)
  | .recording key o | .recordingAttempt key o _ | .recordingBoth key o _ => some (key, o)
  | _ => none

/-- The request is that of the committed action, and its attempt is committed. -/
structure ProviderRequest.Committed (q : ProviderRequest) (db : Database) : Prop where
  attempt : db.attempts q.idempotencyKey ≠ none
  request : ∃ row, db.request = some row ∧ row.actionType = q.actionType
  revision : ∃ row, db.revision = some row ∧ row.parameters = q.parameters

lemma ProviderRequest.Committed.grows {q : ProviderRequest} {db db' : Database}
    (h : q.Committed db) (hgrows : db.Grows db') : q.Committed db' := by
  obtain ⟨request, hrequest, htype⟩ := h.request
  obtain ⟨request', hrequest', htype'⟩ := hgrows.request request hrequest
  obtain ⟨revision, hrevision, hparameters⟩ := h.revision
  exact ⟨hgrows.attempts _ h.attempt, ⟨request', hrequest', htype'.trans htype⟩,
    ⟨revision, hgrows.revision revision hrevision, hparameters⟩⟩

/-- An answer that is no outcome is recorded as a failure or as unknown. -/
lemma ProviderAnswer.backed {answer : ProviderAnswer} {found : Option ProviderOutcome}
    (h : ∀ o, answer = o.answer → found = some o) : answer.outcome.Backed found := by
  intro hstatus
  cases answer with
  | success r => exact ⟨.result r, h _ rfl, rfl⟩
  | definitiveConflict c => exact ⟨.conflict c, h _ rfl, rfl⟩
  | definitiveFailure message => simp [ProviderAnswer.outcome] at hstatus
  | ambiguous message => simp [ProviderAnswer.outcome] at hstatus
  | error message => simp [ProviderAnswer.outcome] at hstatus

/-- What a lookup leads to is what the provider keeps. -/
lemma Lookup.backed {lookup : Lookup} {key key' : String} {answer : LookupAnswer}
    {found : Option ProviderOutcome} {o : RecordedOutcome}
    (h : answer.unsettled = true ∨ answer = ProviderOutcome.found found)
    (hcarried : (lookup.proceed key answer).carried = some (key', o)) :
    key' = key ∧ o.Backed found := by
  have unknown {error : String} : (RecordedOutcome.ambiguous error).Backed found := by
    rintro (h | h) <;> cases h
  cases answer with
  | failed error => cases lookup <;> cases hcarried <;> exact ⟨rfl, unknown⟩
  | absent =>
      cases lookup with
      | execute revision adapter =>
          rw [Lookup.proceed] at hcarried
          split_ifs at hcarried
          · cases hcarried
          · cases hcarried
            exact ⟨rfl, unknown⟩
      | reconcile =>
          cases hcarried
          exact ⟨rfl, unknown⟩
  | conflict c =>
      have hfound : found = some (.conflict c) := by
        rcases h with h | h
        · cases h
        · cases found with
          | none => cases h
          | some q => cases q <;> cases h; rfl
      cases lookup <;> cases hcarried <;> exact ⟨rfl, fun _ => ⟨.conflict c, hfound, rfl⟩⟩
  | found r =>
      have hfound : found = some (.result r) := by
        rcases h with h | h
        · cases h
        · cases found with
          | none => cases h
          | some q => cases q <;> cases h; rfl
      cases lookup <;> cases hcarried <;> exact ⟨rfl, fun _ => ⟨.result r, hfound, rfl⟩⟩

section

variable {t t' : Stage} {x : CallInput} {db db' : Database} {events : List ActionEvent}

/-- Without the provider a call learns of no outcome but a failure. -/
lemma Step.carried (h : Step P t x db t' db' events) (hx : x.inward = true) {key : String}
    {o : RecordedOutcome} (hcarried : t'.carried = some (key, o)) :
    t.carried = some (key, o) ∨ o.status = .failed := by
  cases h with
  | halt hresting =>
      cases t' with
      | idle => cases hcarried
      | ended outcome => cases hcarried
      | _ => cases hresting
  | start c => cases c <;> cases hcarried
  | looked => cases hx
  | answered => cases hx
  | block revision key' row block =>
      cases hcarried
      exact .inr rfl
  | recordAttempt => exact .inl hcarried
  | recordBoth => exact .inl hcarried
  | _ => cases hcarried

/-- An attempt is inserted, marked, recorded or resolved, or stays. -/
lemma Step.attempts_cases (h : Step P t x db t' db' events) (key : String) :
    db'.attempts key = db.attempts key ∨
    (∃ row, db'.attempts key = some row ∧ row.status.terminal = false) ∨
    (∃ o a, t.carried = some (key, o) ∧ db'.attempts key = some (o.apply a)) ∨
    ∃ status, .resolved key status ∈ events := by
  have other {key' : String} {row : AttemptRow} (hne : key ≠ key') :
      Function.update db.attempts key' (some row) key = db.attempts key :=
    Function.update_of_ne hne _ _
  cases h with
  | insert revision key' adapter =>
      by_cases hkey : key = key'
      · subst hkey
        exact .inr (.inl ⟨_, Function.update_self .., rfl⟩)
      · exact .inl (other hkey)
  | mark key' attempt =>
      by_cases hkey : key = key'
      · subst hkey
        exact .inr (.inl ⟨_, Function.update_self .., rfl⟩)
      · exact .inl (other hkey)
  | record key' outcome attempt =>
      by_cases hkey : key = key'
      · subst hkey
        exact .inr (.inr (.inl ⟨outcome, attempt, rfl, Function.update_self ..⟩))
      · exact .inl (other hkey)
  | resolve c attempt =>
      by_cases hkey : key = c.idempotencyKey
      · subst hkey
        exact .inr (.inr (.inr ⟨_, List.mem_cons_self⟩))
      · exact .inl (other hkey)
  | _ => exact .inl rfl

end

/-- What the rows, the calls and the log say of the provider. -/
structure Mirrors (A : ActionService ε π) (s : Pool n (Boundary π) Caller BoundaryEvent) :
    Prop where
  rows : ∀ key row, s.store.database.attempts key = some row →
    row.status = .succeeded ∨ row.status = .conflict →
    (∀ status, .resolved key status ∉ actionEvents s.log) →
    ∃ o, A.lookup key s.store.provider = some o ∧ row = o.recorded.apply row
  carried : ∀ i key o, (s.calls i).stage.carried = some (key, o) →
    o.Backed (A.lookup key s.store.provider)
  sent : ∀ q ∈ s.store.sent, q.Committed s.store.database
  requests : ∀ i q, (s.calls i).request = some q →
    q ∈ s.store.sent ∧ (s.calls i).stage = .invoking q.idempotencyKey
  settled : ∀ q o, .settled q o ∈ s.log →
    q ∈ s.store.sent ∧ A.lookup q.idempotencyKey s.store.provider = some o
  once : s.log.countP BoundaryEvent.isSettled ≤ 1

/-- A step keeps the outcomes of the provider. -/
lemma BoundaryStep.lookup_kept (hA : A.Lawful) {x : BoundaryInput ε}
    (h : BoundaryStep P A c x b c' b' obs) {key : String} {o : ProviderOutcome}
    (hlookup : A.lookup key b.provider = some o) : A.lookup key b'.provider = some o := by
  cases h with
  | reply => exact hA.idempotent.kept_execute _ hlookup
  | deliver => exact hA.idempotent.kept_execute _ hlookup
  | event e => exact hA.idempotent.kept_event e hlookup
  | _ => exact hlookup

lemma RecordedOutcome.Backed.kept {o : RecordedOutcome} {found found' : Option ProviderOutcome}
    (h : o.Backed found) (hkept : ∀ q, found = some q → found' = some q) : o.Backed found' := by
  intro hstatus
  obtain ⟨q, hq, ho⟩ := h hstatus
  exact ⟨q, hkept q hq, ho⟩

/-- What a call carries after a step is what the provider keeps. -/
lemma BoundaryStep.carried (hA : A.Lawful) {x : BoundaryInput ε}
    (h : BoundaryStep P A c x b c' b' obs)
    (hrequest : ∀ q, c.request = some q → c.stage = .invoking q.idempotencyKey)
    (hbefore : ∀ key o, c.stage.carried = some (key, o) → o.Backed (A.lookup key b.provider))
    {key : String} {o : RecordedOutcome} (hcarried : c'.stage.carried = some (key, o)) :
    o.Backed (A.lookup key b'.provider) := by
  have hkept : ∀ key o, A.lookup key b.provider = some o → A.lookup key b'.provider = some o :=
    fun _ _ => h.lookup_kept hA
  cases h with
  | statement hinward hnext =>
      rcases (Step.of_next hnext).carried hinward hcarried with hsame | hfailed
      · exact hbefore key o hsame
      · rintro (hstatus | hstatus) <;> rw [hfailed] at hstatus <;> cases hstatus
  | cross facts => cases hcarried
  | @reply _ _ q answer hexecuted =>
      cases hcarried
      have hkey : key = q.idempotencyKey := Stage.invoking.inj (hrequest q rfl)
      refine ProviderAnswer.backed fun outcome houtcome => ?_
      rw [hkey, ← hA.key]
      exact hA.idempotent.settles (hexecuted.trans houtcome)
  | unsettled hnone =>
      cases hcarried
      refine ProviderAnswer.backed fun outcome houtcome => ?_
      rw [houtcome] at hnone
      cases outcome <;> cases hnone
  | looked htold =>
      obtain ⟨rfl, hbacked⟩ := Lookup.backed htold hcarried
      exact hbacked
  | deliver hsent => exact (hbefore key o hcarried).kept (hkept key)
  | event e => exact (hbefore key o hcarried).kept (hkept key)

/-- What a delivery has settled is kept. -/
lemma mem_settlement {q q' : ProviderRequest} {o : ProviderOutcome}
    (h : BoundaryEvent.settled q' o ∈ b.settlement A q) :
    q' = q ∧ A.lookup (A.key q) b.provider = none ∧
      A.lookup (A.key q) (b.deliver A q).provider = some o := by
  obtain ⟨o', ho', heq⟩ := List.mem_map.mp h
  cases heq
  exact ⟨rfl, Service.settled_eq_some.mp (Option.mem_toList.mp ho')⟩

/-- A delivery settles at most one outcome. -/
lemma settlement_count_le (b : Boundary π) (q : ProviderRequest) :
    (b.settlement A q).countP BoundaryEvent.isSettled ≤ 1 := by
  refine List.countP_le_length.trans ?_
  rw [Boundary.settlement, List.length_map]
  cases A.settled b.provider q <;> simp

/-- The request of a settlement was sent, and its outcome is kept. -/
lemma BoundaryStep.settled_mem (hA : A.Lawful) {x : BoundaryInput ε}
    (h : BoundaryStep P A c x b c' b' obs) (hrequest : ∀ q, c.request = some q → q ∈ b.sent)
    {q : ProviderRequest} {o : ProviderOutcome} (hsettled : .settled q o ∈ obs) :
    q ∈ b.sent ∧ A.lookup q.idempotencyKey b.provider = none ∧
      A.lookup q.idempotencyKey b'.provider = some o := by
  cases h with
  | statement =>
      obtain ⟨e, -, he⟩ := List.mem_map.mp hsettled
      cases he
  | cross => cases List.mem_singleton.mp hsettled
  | reply =>
      rcases List.mem_cons.mp hsettled with hsettled | hsettled
      · cases hsettled
      · obtain ⟨rfl, hkept⟩ := mem_settlement hsettled
        rw [hA.key] at hkept
        exact ⟨hrequest q rfl, hkept⟩
  | unsettled => cases List.mem_singleton.mp hsettled
  | looked => cases hsettled
  | deliver hsent =>
      obtain ⟨rfl, hkept⟩ := mem_settlement hsettled
      rw [hA.key] at hkept
      exact ⟨hsent, hkept⟩
  | event => cases hsettled

/-- A step settles at most one outcome. -/
lemma BoundaryStep.settled_count_le {x : BoundaryInput ε} (h : BoundaryStep P A c x b c' b' obs) :
    obs.countP BoundaryEvent.isSettled ≤ 1 := by
  cases h with
  | @statement _ _ _ _ _ events =>
      rw [List.countP_map, List.countP_eq_zero.mpr fun _ _ => by simp [BoundaryEvent.isSettled]]
      exact Nat.zero_le 1
  | cross => exact Nat.zero_le 1
  | reply =>
      rw [List.countP_cons_of_neg (by simp [BoundaryEvent.isSettled])]
      exact settlement_count_le _ _
  | unsettled => exact Nat.zero_le 1
  | looked => exact Nat.zero_le 1
  | deliver => exact settlement_count_le _ _
  | event => exact Nat.zero_le 1

/-- What is sent is the committed action: it passes the gate. -/
lemma BoundaryStep.sent {x : BoundaryInput ε} (h : BoundaryStep P A c x b c' b' obs)
    (hc : c.stage.Knows P b.database) (hbefore : ∀ q ∈ b.sent, q.Committed b.database) :
    ∀ q ∈ b'.sent, q.Committed b'.database := by
  cases h with
  | statement hinward hnext =>
      exact fun q hq => (hbefore q hq).grows (Step.of_next hnext).grows
  | @cross _ revision key row _ facts =>
      obtain ⟨hattempt, -, hcurrent, -⟩ := hc
      intro q hq
      rcases List.mem_append.mp hq with hq | hq
      · exact hbefore q hq
      · rw [List.mem_singleton.mp hq]
        exact ⟨hattempt, ⟨row.request, hcurrent.request, rfl⟩, ⟨row.revision, hcurrent.revision, rfl⟩⟩
  | _ => exact hbefore

/-- The request of a call is the one it has just sent. -/
lemma BoundaryStep.requests {x : BoundaryInput ε} (h : BoundaryStep P A c x b c' b' obs)
    (hbefore : ∀ q, c.request = some q → q ∈ b.sent ∧ c.stage = .invoking q.idempotencyKey)
    {q : ProviderRequest} (hq : c'.request = some q) :
    q ∈ b'.sent ∧ c'.stage = .invoking q.idempotencyKey := by
  cases h with
  | cross facts =>
      cases hq
      exact ⟨List.mem_append_right _ (List.mem_singleton.mpr rfl), rfl⟩
  | deliver => exact hbefore q hq
  | event => exact hbefore q hq
  | _ => cases hq

/-- Nothing that was sent is forgotten. -/
lemma BoundaryStep.sent_subset {x : BoundaryInput ε} (h : BoundaryStep P A c x b c' b' obs)
    {q : ProviderRequest} (hq : q ∈ b.sent) : q ∈ b'.sent := by
  cases h with
  | cross facts => exact List.mem_append_left _ hq
  | _ => exact hq

/-- A recorded row is backed. -/
lemma BoundaryStep.rows {x : BoundaryInput ε}
    (h : BoundaryStep P A c x b c' b' obs)
    (hcarried : ∀ key o, c.stage.carried = some (key, o) → o.Backed (A.lookup key b.provider))
    {key : String} {row : AttemptRow} (hrow : b'.database.attempts key = some row)
    (hstatus : row.status = .succeeded ∨ row.status = .conflict)
    (hresolved : ∀ status, .resolved key status ∉ actionEvents obs) :
    b.database.attempts key = some row ∨
      ∃ o, A.lookup key b.provider = some o ∧ row = o.recorded.apply row := by
  rcases h.calls with ⟨-, hdb, -⟩ | ⟨y, hy⟩
  · rw [hdb] at hrow
    exact .inl hrow
  · rcases (Step.of_next hy).attempts_cases key with
      hsame | ⟨row', hrow', hpending⟩ | ⟨o, a, ho, hrow'⟩ | ⟨status, hmem⟩
    · exact .inl (hsame.symm.trans hrow)
    · obtain rfl := Option.some.inj (hrow.symm.trans hrow')
      rcases hstatus with hstatus | hstatus <;> rw [hstatus] at hpending <;> cases hpending
    · obtain rfl := Option.some.inj (hrow.symm.trans hrow')
      obtain ⟨q, hq, rfl⟩ := hcarried key o ho hstatus
      exact .inr ⟨q, hq, rfl⟩
    · exact absurd hmem (hresolved status)

/-- No commit takes back what only grows. -/
lemma BoundaryStep.grows {x : BoundaryInput ε} (h : BoundaryStep P A c x b c' b' obs) :
    b.database.Grows b'.database := by
  rcases h.calls with ⟨-, hdb, -⟩ | ⟨y, hy⟩
  · rw [hdb]
    exact .refl
  · exact (Step.of_next hy).grows

/-- The rows are consistent, and what the calls know is true. -/
def BoundarySound (P : Platform) (s : Pool n (Boundary π) Caller BoundaryEvent) : Prop :=
  Joint.Holds (calls P) (fun db _ => db.Consistent P) (fun t db _ => t.Knows P db) (boundaryPool s)

variable {s s' : Pool n (Boundary π) Caller BoundaryEvent}

lemma BoundarySound.step {i : Fin n} {x : BoundaryInput ε} (hs : BoundarySound P s)
    (h : s.step (boundary P A) (i, x) = some s') : BoundarySound P s' := by
  rcases boundaryPool_step h with hsame | ⟨y, hy⟩
  · rw [BoundarySound, hsame]
    exact hs
  · exact (sound P).step hs trivial (fun _ _ => trivial) hy

/-- There is one request key, so that an outcome settles it for all requests. -/
lemma Mirrors.key_unique (hs : Mirrors A s) (hsound : BoundarySound P s)
    {q q' : ProviderRequest} (hq : q ∈ s.store.sent) (hq' : q' ∈ s.store.sent) :
    q.idempotencyKey = q'.idempotencyKey :=
  (hsound.common.keyed _ (hs.sent q hq).attempt).unique
    (hsound.common.keyed _ (hs.sent q' hq').attempt)

/-- **The step rule**: a step keeps what is said of the provider true. -/
lemma Mirrors.step (hA : A.Lawful) {i : Fin n} {x : BoundaryInput ε} (hs : Mirrors A s)
    (hsound : BoundarySound P s) (h : s.step (boundary P A) (i, x) = some s') :
    Mirrors A s' := by
  obtain ⟨c', b', obs, hstep, rfl⟩ := boundary_step_cases h
  have hkept : ∀ {key o}, A.lookup key s.store.provider = some o → A.lookup key b'.provider = some o :=
    fun h => hstep.lookup_kept hA h
  have hsettled : ∀ {q o}, .settled q o ∈ obs → q ∈ s.store.sent ∧
      A.lookup q.idempotencyKey s.store.provider = none ∧
      A.lookup q.idempotencyKey b'.provider = some o :=
    fun h => hstep.settled_mem hA (fun q hq => (hs.requests i q hq).1) h
  constructor
  case rows =>
    intro key row hrow hstatus hresolved
    dsimp only at hrow hresolved ⊢
    rw [actionEvents_append] at hresolved
    rcases hstep.rows (fun key o => hs.carried i key o) hrow hstatus
      (fun status hmem => hresolved status (List.mem_append_right _ hmem)) with hold | ⟨o, ho, hnew⟩
    · obtain ⟨o, ho, hbacked⟩ := hs.rows key row hold hstatus
        fun status hmem => hresolved status (List.mem_append_left _ hmem)
      exact ⟨o, hkept ho, hbacked⟩
    · exact ⟨o, hkept ho, hnew⟩
  case carried =>
    intro j key o hcarried
    dsimp only at hcarried ⊢
    by_cases hj : j = i
    · subst hj
      rw [Function.update_self] at hcarried
      exact hstep.carried hA (fun q hq => (hs.requests j q hq).2) (hs.carried j) hcarried
    · rw [Function.update_of_ne hj] at hcarried
      exact (hs.carried j key o hcarried).kept fun q hq => hkept hq
  case sent => exact hstep.sent (hsound.calls i) hs.sent
  case requests =>
    intro j q hq
    dsimp only at hq ⊢
    by_cases hj : j = i
    · subst hj
      rw [Function.update_self] at hq ⊢
      exact hstep.requests (hs.requests j) hq
    · rw [Function.update_of_ne hj] at hq ⊢
      obtain ⟨hmem, hstage⟩ := hs.requests j q hq
      exact ⟨hstep.sent_subset hmem, hstage⟩
  case settled =>
    intro q o hmem
    rcases List.mem_append.mp hmem with hold | hnew
    · obtain ⟨hsent, hlookup⟩ := hs.settled q o hold
      exact ⟨hstep.sent_subset hsent, hkept hlookup⟩
    · obtain ⟨hsent, -, hlookup⟩ := hsettled hnew
      exact ⟨hstep.sent_subset hsent, hlookup⟩
  case once =>
    dsimp only
    rw [List.countP_append]
    by_cases hnew : obs.countP BoundaryEvent.isSettled = 0
    · rw [hnew, Nat.add_zero]
      exact hs.once
    · -- what is settled now was not settled before
      have hnone : s.log.countP BoundaryEvent.isSettled = 0 := by
        by_contra hold
        obtain ⟨e, he, hise⟩ := List.countP_pos_iff.mp (Nat.pos_of_ne_zero hold)
        obtain ⟨e', he', hise'⟩ := List.countP_pos_iff.mp (Nat.pos_of_ne_zero hnew)
        cases e with
        | action e => cases hise
        | settled q o =>
            cases e' with
            | action e' => cases hise'
            | settled q' o' =>
                obtain ⟨hsent, hlookup⟩ := hs.settled q o he
                obtain ⟨hsent', hlookup', -⟩ := hsettled he'
                rw [hs.key_unique hsound hsent hsent', hlookup'] at hlookup
                cases hlookup
      rw [hnone, Nat.zero_add]
      exact hstep.settled_count_le

/-- **Every run** keeps what is said of the provider true. -/
lemma mirrors_runs (hA : A.Lawful) {process : ProcessStatus} {provider : π}
    {ms : List (Fin n × BoundaryInput ε)}
    (h : Runs (boundary P A) (fun _ _ => True) (freshBoundary n process provider) ms s) :
    BoundarySound P s ∧ Mirrors A s := by
  refine h.invariant (I := fun s => BoundarySound P s ∧ Mirrors A s) ?_ ⟨?_, ?_⟩
  · rintro s ⟨i, x⟩ s' ⟨hsound, hmirrors⟩ - hstep
    exact ⟨hsound.step hstep, hmirrors.step hA hsound hstep⟩
  · exact fresh_holds P n process (consistent_fresh P process) trivial
  · exact
      { rows := fun _ _ hrow => by cases hrow
        carried := fun _ _ _ hcarried => by cases hcarried
        sent := fun _ hq => by cases hq
        requests := fun _ _ hq => by cases hq
        settled := fun _ _ hmem => by cases hmem
        once := Nat.zero_le 1 }

/-! ### The guarantees -/

/-- **What is recorded is what the provider keeps.**  However the calls interleave and stop, and
whatever becomes of requests and answers: an attempt that no operator has resolved and that is
recorded as succeeded, or as a conflict, is the outcome that the provider keeps under its key, and
both stay so in every run that goes on. -/
theorem recorded_outcome_kept (hA : A.Lawful) {process : ProcessStatus} {provider : π}
    {ms : List (Fin n × BoundaryInput ε)}
    (h : Runs (boundary P A) (fun _ _ => True) (freshBoundary n process provider) ms s)
    {key : String} {row : AttemptRow} (hrow : s.store.database.attempts key = some row)
    (hstatus : row.status = .succeeded ∨ row.status = .conflict)
    (hresolved : ∀ status, .action (.resolved key status) ∉ s.log) :
    ∃ o, row = o.recorded.apply row ∧
      ∀ ms' s', Runs (boundary P A) (fun _ _ => True) s ms' s' →
        A.lookup key s'.store.provider = some o ∧ s'.store.database.attempts key = some row := by
  obtain ⟨hsound, hmirrors⟩ := mirrors_runs hA h
  have hevents : ∀ status, .resolved key status ∉ actionEvents s.log := by
    intro status hmem
    obtain ⟨e, he, heq⟩ := List.mem_filterMap.mp hmem
    cases e <;> cases heq
    exact hresolved status he
  obtain ⟨o, ho, hbacked⟩ := hmirrors.rows key row hrow hstatus hevents
  refine ⟨o, hbacked, fun ms' s' h' => ⟨?_, ?_⟩⟩
  · refine h'.invariant (I := fun s => A.lookup key s.store.provider = some o) ?_ ho
    rintro s ⟨i, x⟩ s' hlookup - hstep
    obtain ⟨c', b', obs, hmoved, rfl⟩ := boundary_step_cases hstep
    exact hmoved.lookup_kept hA hlookup
  · obtain ⟨ms'', hruns⟩ := boundaryPool_runs h'
    refine terminal_runs hsound hruns hrow ?_
    rcases hstatus with hstatus | hstatus <;> rw [hstatus] <;> rfl

/-- The answer to an execution is lost, its request is delivered again, and a reconciliation finds
the outcome. -/
def lostAnswer {n : ℕ} (i j : Fin n) : List (Fin n × BoundaryInput Empty) :=
  let calls (ms : List (Fin n × CallInput)) : List (Fin n × BoundaryInput Empty) :=
    ms.map fun m => (m.1, .call m.2)
  List.flatten
    [calls (persisted i .allow ++ moves i (.execute 1) (allowed (.go :: allowed []))),
      [(i, .cross []), (i, .reply), (j, .deliver 0)], calls (answers i [.go, .go, .go]),
      calls (moves j (.reconcile 1) (allowed [.go, .go])), [(j, .look)],
      calls (answers j [.go, .go, .go])]

/-- The provider accepts the action before the connection fails. -/
def acceptedStub : StubActionAdapter where
  outcomes := [.ambiguousSuccess ⟨"ref", "done", []⟩]

theorem recorded_outcome_kept_after_loss : ∃ (s : Pool 2 (Boundary StubActionAdapter) Caller
    BoundaryEvent) (row : AttemptRow),
    Runs (boundary (samplePlatform true) (stubActionService id)) (fun _ _ => True)
      (freshBoundary 2 .active acceptedStub) (lostAnswer 0 1) s ∧
    s.store.database.attempts sampleKey = some row ∧ row.status = .succeeded ∧
    ∃ o : ProviderOutcome, row = o.recorded.apply row ∧
      ∀ ms' s', Runs (boundary (samplePlatform true) (stubActionService id)) (fun _ _ => True) s
          ms' s' →
        (stubActionService id).lookup sampleKey s'.store.provider = some o ∧
          s'.store.database.attempts sampleKey = some row := by
  obtain ⟨s, hruns, hp⟩ := exists_runs (C := boundary (samplePlatform true) (stubActionService id))
    (s := freshBoundary 2 .active acceptedStub) (fun _ _ => true) (lostAnswer 0 1)
    (fun s => (s.store.database.attempts sampleKey).any (fun row => row.status = .succeeded) &&
      (actionEvents s.log).all fun e => match e with
        | .resolved _ _ => false
        | _ => true)
    (by decide +kernel)
  have hruns : Runs (boundary (samplePlatform true) (stubActionService id)) (fun _ _ => True)
      (freshBoundary 2 .active acceptedStub) (lostAnswer 0 1) s := hruns.mono fun _ _ _ => trivial
  rw [Bool.and_eq_true] at hp
  obtain ⟨row, hrow, hstatus⟩ := (Option.any_eq_true _ _).mp hp.1
  have hstatus : row.status = .succeeded := of_decide_eq_true hstatus
  refine ⟨s, row, hruns, hrow, hstatus, recorded_outcome_kept (stubActionService_lawful id) hruns hrow
    (.inl hstatus) fun status hmem => ?_⟩
  have hnone := List.all_eq_true.mp hp.2 _ (List.mem_filterMap.mpr ⟨_, hmem, rfl⟩)
  cases hnone

/-- **The action is performed once, and not without its attempt.**  However often its request is
sent and delivered, in every run the provider settles at most one outcome for the requests of the
action; when it does, the attempt of the request is committed, the request is that of the committed
rows, and the outcome is the one the provider keeps. -/
theorem performed_once (hA : A.Lawful) {process : ProcessStatus} {provider : π}
    {ms : List (Fin n × BoundaryInput ε)}
    (h : Runs (boundary P A) (fun _ _ => True) (freshBoundary n process provider) ms s) :
    s.log.countP BoundaryEvent.isSettled ≤ 1 ∧
    ∀ q o, .settled q o ∈ s.log → q.Committed s.store.database ∧
      A.lookup q.idempotencyKey s.store.provider = some o := by
  obtain ⟨-, hmirrors⟩ := mirrors_runs hA h
  refine ⟨hmirrors.once, fun q o hmem => ?_⟩
  obtain ⟨hsent, hlookup⟩ := hmirrors.settled q o hmem
  exact ⟨hmirrors.sent q hsent, hlookup⟩

/-- After the second delivery the action was performed once. -/
theorem performed_once_after_loss : ∃ s : Pool 2 (Boundary StubActionAdapter) Caller BoundaryEvent,
    Runs (boundary (samplePlatform true) (stubActionService id)) (fun _ _ => True)
      (freshBoundary 2 .active acceptedStub) (lostAnswer 0 1) s ∧
    0 < s.log.countP BoundaryEvent.isSettled ∧ s.log.countP BoundaryEvent.isSettled ≤ 1 ∧
    ∀ q o, .settled q o ∈ s.log → q.Committed s.store.database ∧
      (stubActionService id).lookup q.idempotencyKey s.store.provider = some o := by
  obtain ⟨s, hruns, hp⟩ := exists_runs (C := boundary (samplePlatform true) (stubActionService id))
    (s := freshBoundary 2 .active acceptedStub) (fun _ _ => true) (lostAnswer 0 1)
    (fun s => decide (0 < s.log.countP BoundaryEvent.isSettled)) (by decide +kernel)
  have hruns : Runs (boundary (samplePlatform true) (stubActionService id)) (fun _ _ => True)
      (freshBoundary 2 .active acceptedStub) (lostAnswer 0 1) s := hruns.mono fun _ _ _ => trivial
  obtain ⟨hle, hsettled⟩ := performed_once (stubActionService_lawful id) hruns
  exact ⟨s, hruns, of_decide_eq_true hp, hle, hsettled⟩

end TiramisuAgents
