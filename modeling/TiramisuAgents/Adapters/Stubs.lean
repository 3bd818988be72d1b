import TiramisuAgents.Actions.Calls
import TiramisuAgents.Library.Deduplication
import TiramisuAgents.Library.Json

/-!
Action adapters: the port of `core/ports/actions.py` and the adapter of
`adapters/stubs/actions.py`.

An adapter is a service that keeps outcomes under the idempotency keys of its requests.  What an
exception of an adapter tells the executor is a `ProviderAnswer`; the requests that the adapters
record for tests are left out, since nothing reads them.

* `ProviderRequest`, `ProviderOutcome`, `ActionService`, `ActionService.Lawful`: the port and
  its contract.
* `KeptOutcomes`: what the adapters keep.
* `StubActionAdapter`, `stubActionService_lawful`.
-/

namespace TiramisuAgents

open Deduplication

variable {ε π : Type}

/-! ### The port -/

/-- An atom of a JSON document. -/
inductive DocumentAtom where
  | null
  | bool (b : Bool)
  | int (z : ℤ)
  | float (text : String)
  | string (text : String)
  deriving DecidableEq, Repr

/-- A value of a JSON document. -/
abbrev FactDocument := Json.Value String DocumentAtom

/-- A string of a document. -/
abbrev FactDocument.string (text : String) : FactDocument := .atom (.string text)

/-- `ProviderActionRequest`. -/
structure ProviderRequest where
  actionType : String
  parameters : Parameters
  idempotencyKey : String
  tenantId : Option UUID := none
  processInstanceId : Option UUID := none
  authoritativeFacts : List (String × FactDocument) := []

/-- `ProviderActionOutcome`. -/
inductive ProviderOutcome where
  | result (result : ProviderActionResult)
  | conflict (conflict : ActionConflict)
  deriving DecidableEq, Repr

namespace ProviderOutcome

/-- The answer of `execute` for an outcome; a conflict is raised. -/
def answer : ProviderOutcome → ProviderAnswer
  | result r => .success r
  | conflict c => .definitiveConflict c

/-- The answer of `lookup`. -/
def found : Option ProviderOutcome → LookupAnswer
  | some (result r) => .found r
  | some (conflict c) => .conflict c
  | none => .absent

/-- What the executor records for an outcome. -/
def recorded (o : ProviderOutcome) : RecordedOutcome := o.answer.outcome

lemma answer_injective : Function.Injective answer := by
  rintro (r | c) (r' | c') h <;> simp_all [answer]

end ProviderOutcome

/-- An `ActionAdapter` with its provider, which has state `π` and events `ε`. -/
abbrev ActionService (ε π : Type) :=
  Service String ProviderRequest ProviderAnswer ProviderOutcome ε π

/-- The contract of an adapter that guarantees idempotency. -/
structure ActionService.Lawful (A : ActionService ε π) : Prop where
  key : ∀ q, A.key q = q.idempotencyKey
  idempotent : Idempotent A ProviderOutcome.answer

/-- What an adapter raises. -/
inductive ProviderError where
  | definitiveConflict (conflict : ActionConflict)
  | definitiveFailure (message : String)
  | ambiguous (message : String)
  | other (message : String)
  deriving DecidableEq, Repr

/-- What an exception tells the executor. -/
def ProviderError.answer : ProviderError → ProviderAnswer
  | definitiveConflict conflict => .definitiveConflict conflict
  | definitiveFailure message => .definitiveFailure message
  | ambiguous message => .ambiguous message
  | other message => .error message

/-! ### The outcomes an adapter keeps -/

/-- `_results` and `_conflicts`. -/
structure KeptOutcomes where
  results : String → Option ProviderActionResult := fun _ => none
  conflicts : String → Option ActionConflict := fun _ => none

namespace KeptOutcomes

/-- `lookup`. -/
def lookup (kept : KeptOutcomes) (key : String) : Option ProviderOutcome :=
  ((kept.results key).map .result).or ((kept.conflicts key).map .conflict)

/-- Keep a result. -/
def keepResult (kept : KeptOutcomes) (key : String) (r : ProviderActionResult) : KeptOutcomes :=
  { kept with results := Function.update kept.results key (some r) }

/-- Keep a conflict. -/
def keepConflict (kept : KeptOutcomes) (key : String) (c : ActionConflict) : KeptOutcomes :=
  { kept with conflicts := Function.update kept.conflicts key (some c) }

variable {kept : KeptOutcomes} {key key' : String}

lemma lookup_eq_none :
    kept.lookup key = none ↔ kept.results key = none ∧ kept.conflicts key = none := by
  simp [lookup]

lemma lookup_eq_result {r : ProviderActionResult} (h : kept.results key = some r) :
    kept.lookup key = some (.result r) := by
  simp [lookup, h]

lemma lookup_eq_conflict {c : ActionConflict} (h : kept.results key = none)
    (h' : kept.conflicts key = some c) : kept.lookup key = some (.conflict c) := by
  simp [lookup, h, h']

lemma results_of_lookup {r : ProviderActionResult} (h : kept.lookup key = some (.result r)) :
    kept.results key = some r := by
  cases hresult : kept.results key with
  | some r' =>
      rw [lookup_eq_result hresult] at h
      cases h
      rfl
  | none =>
      rw [lookup, hresult] at h
      cases hconflict : kept.conflicts key <;> rw [hconflict] at h <;> cases h

@[simp] lemma lookup_keepResult_self (r : ProviderActionResult) :
    (kept.keepResult key r).lookup key = some (.result r) :=
  lookup_eq_result (Function.update_self ..)

@[simp] lemma lookup_keepResult_of_ne (r : ProviderActionResult) (h : key' ≠ key) :
    (kept.keepResult key r).lookup key' = kept.lookup key' := by
  simp only [lookup, keepResult, Function.update_of_ne h]

@[simp] lemma lookup_keepConflict_of_ne (c : ActionConflict) (h : key' ≠ key) :
    (kept.keepConflict key c).lookup key' = kept.lookup key' := by
  simp only [lookup, keepConflict, Function.update_of_ne h]

lemma lookup_keepConflict_self (c : ActionConflict) (h : kept.results key = none) :
    (kept.keepConflict key c).lookup key = some (.conflict c) :=
  lookup_eq_conflict h (Function.update_self ..)

end KeptOutcomes

/-! ### `adapters/stubs/actions.py` -/

/-- What a stub is told to do with a request. -/
inductive StubOutcome where
  | result (result : ProviderActionResult)
  | ambiguousSuccess (result : ProviderActionResult)
  | raised (error : ProviderError)
  deriving DecidableEq, Repr

/-- The state of a `StubActionAdapter`. -/
structure StubActionAdapter where
  outcomes : List StubOutcome := []
  kept : KeptOutcomes := {}

/-- The first 16 characters of a key. -/
def keyPrefix (key : String) : String := .ofList (key.toList.take 16)

/-- The result of a stub that is told nothing; `text` writes the result of an accepted action. -/
def defaultResult (text : String → String) (request : ProviderRequest) :
    ProviderActionResult where
  providerReference := s!"stub:{keyPrefix request.idempotencyKey}"
  result := text request.actionType

/-- What a stub does with a request whose key it does not know. -/
def StubActionAdapter.perform (text : String → String) (request : ProviderRequest)
    (stub : StubActionAdapter) : ProviderAnswer × StubActionAdapter :=
  let key := request.idempotencyKey
  let outcome := stub.outcomes.head?.getD (.result (defaultResult text request))
  let stub := { stub with outcomes := stub.outcomes.tail }
  match outcome with
  | .raised (.definitiveConflict conflict) =>
      (.definitiveConflict conflict, { stub with kept := stub.kept.keepConflict key conflict })
  | .raised error => (error.answer, stub)
  | .ambiguousSuccess result =>
      (.ambiguous "stub accepted the action before the connection failed",
        { stub with kept := stub.kept.keepResult key result })
  | .result result => (.success result, { stub with kept := stub.kept.keepResult key result })

/-- `StubActionAdapter.execute`; it looks the key up as `lookup` does. -/
def StubActionAdapter.execute (text : String → String) (request : ProviderRequest)
    (stub : StubActionAdapter) : ProviderAnswer × StubActionAdapter :=
  match stub.kept.lookup request.idempotencyKey with
  | some existing => (existing.answer, stub)
  | none => stub.perform text request

/-- The stub as a service; it has no events. -/
def stubActionService (text : String → String) : ActionService Empty StubActionAdapter where
  key := ProviderRequest.idempotencyKey
  execute := StubActionAdapter.execute text
  lookup key stub := stub.kept.lookup key
  event e _ := e.elim

/-- What a stub performs concerns the key of the request only. -/
lemma StubActionAdapter.perform_other {text : String → String} {q : ProviderRequest}
    {stub : StubActionAdapter} {key : String} (h : key ≠ q.idempotencyKey) :
    (stub.perform text q).2.kept.lookup key = stub.kept.lookup key := by
  rw [perform]
  dsimp only
  split <;> simp [h]

/-- An answer that is an outcome is kept. -/
lemma StubActionAdapter.perform_kept {text : String → String} {q : ProviderRequest}
    {stub : StubActionAdapter} {o : ProviderOutcome}
    (hnone : stub.kept.lookup q.idempotencyKey = none) (h : (stub.perform text q).1 = o.answer) :
    (stub.perform text q).2.kept.lookup q.idempotencyKey = some o := by
  rw [perform] at h ⊢
  dsimp only at h ⊢
  split at h
  · rename_i conflict _
    have ho : ProviderOutcome.conflict conflict = o := ProviderOutcome.answer_injective h
    rw [← ho]
    exact KeptOutcomes.lookup_keepConflict_self _ (KeptOutcomes.lookup_eq_none.mp hnone).1
  · rename_i error hraised _
    cases error <;> cases o <;> simp_all [ProviderError.answer, ProviderOutcome.answer]
  · cases o <;> cases h
  · cases o <;> simp_all [ProviderOutcome.answer]

/-- The stub keeps what it answers, whatever it is told to do. -/
lemma stubActionService_lawful (text : String → String) : (stubActionService text).Lawful := by
  refine ⟨fun _ => rfl, .of_guarded ProviderOutcome.answer_injective (fun e => e.elim) ?_ ?_ ?_⟩
  · intro q o stub h
    exact congrArg (fun found => match found with
      | some existing => (ProviderOutcome.answer existing, stub)
      | none => stub.perform text q) h
  · intro key q stub hne
    dsimp only [stubActionService, StubActionAdapter.execute]
    split
    · rfl
    · exact StubActionAdapter.perform_other hne
  · intro q o stub hnone h
    have hperform : (stubActionService text).execute q stub = stub.perform text q := by
      dsimp only [stubActionService, StubActionAdapter.execute] at hnone ⊢
      rw [hnone]
    rw [hperform] at h ⊢
    exact StubActionAdapter.perform_kept hnone h

end TiramisuAgents
