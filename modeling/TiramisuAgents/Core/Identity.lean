import TiramisuAgents.Library.JsonStrings
import TiramisuAgents.Library.JsonTexts
import TiramisuAgents.Core.Policy

/-!
`core/action_identity.py` and the encoding of `core/limits.py`: the canonical texts of JSON values,
and the hashes of action payloads and executions.

The strings of JSON values are lists of code points, so that they may hold surrogates, and numbers
may be floats that are not finite: `canonical_json_bytes` rejects both.  An action type is an
identifier, so it holds no surrogates.  The texts of numbers and the hash function are parameters.

* `NumberTexts`: the texts of numbers; those of finite ones are injective.
* `dumps`, `canonicalJsonBytes`, `canonicalJsonBytes_ok_iff`: what is accepted.
* `actionPayloadIdentity`, `executionIdempotencyKey`.
* `identities_injective`: both are injective, the first up to the order of keys.
-/

namespace TiramisuAgents

open Json

/-! ### Values -/

/-- A Python string: its code points. -/
abbrev PyString := List ℕ

/-- The code points of a text. -/
def codePoints (s : String) : PyString := s.toList.map Char.toNat

/-- A number, over a type of floats. -/
inductive JsonNumber (F : Type) where
  | int (z : ℤ)
  | float (x : F)
  deriving DecidableEq

/-- A value that is no list and no dictionary. -/
inductive JsonAtom (F : Type) where
  | null
  | bool (b : Bool)
  | number (n : JsonNumber F)
  | string (s : PyString)
  deriving DecidableEq

/-- A JSON value. -/
abbrev JsonValue (F : Type) := Value PyString (JsonAtom F)

/-- A dictionary of JSON values; like those in it, it holds each key once. -/
structure JsonObject (F : Type) where
  fields : List (PyString × JsonValue F)
  wellFormed : (Value.object fields).WellFormed

/-- The dictionary as a value. -/
def JsonObject.value {F : Type} (o : JsonObject F) : JsonValue F := .object o.fields

/-- The characters of the texts of finite numbers: digits, signs, the point and the `e`. -/
def IsNumeral (c : ℕ) : Prop := (48 ≤ c ∧ c ≤ 57) ∨ c = 43 ∨ c = 45 ∨ c = 46 ∨ c = 101

instance : DecidablePred IsNumeral := fun _ => inferInstanceAs (Decidable (_ ∨ _))

lemma IsNumeral.scalar {c : ℕ} (h : IsNumeral c) : Scalar c := by
  rw [IsNumeral] at h
  rw [Scalar]
  omega

/-- The texts of numbers (`int.__repr__`, `float.__repr__`), and which floats are finite. -/
structure NumberTexts (F : Type) where
  text : JsonNumber F → PyString
  finite : JsonNumber F → Bool
  finite_int : ∀ z, finite (.int z) = true
  text_ne_nil : ∀ n, finite n = true → text n ≠ []
  text_numeral : ∀ n, finite n = true → ∀ c ∈ text n, IsNumeral c
  text_inj : ∀ m n, finite m = true → finite n = true → text m = text n → m = n

section

variable {F : Type} (N : NumberTexts F)

/-- The text of an atom. -/
def JsonAtom.text (ensureAscii : Bool) : JsonAtom F → PyString
  | .null => codePoints "null"
  | .bool true => codePoints "true"
  | .bool false => codePoints "false"
  | .number n => N.text n
  | .string s => quoted ensureAscii s

/-- The format of `json.dumps` with sorted keys and without spaces. -/
def jsonFormat (ensureAscii : Bool) : Format PyString (JsonAtom F) ℕ :=
  { atom := JsonAtom.text N ensureAscii
    key := quoted ensureAscii
    comma := 44
    colon := 58
    openArray := 91
    closeArray := 93
    openObject := 123
    closeObject := 125 }

/-- `json.dumps(value, sort_keys=True, separators=(",", ":"))`. -/
def dumps (ensureAscii : Bool) (value : JsonValue F) : PyString :=
  (jsonFormat N ensureAscii).text value

/-- An atom that is no number, or a finite one. -/
def JsonAtom.finite : JsonAtom F → Bool
  | .number n => N.finite n
  | _ => true

/-- `canonical_json_bytes`: the encoding does not allow floats that are not finite, nor surrogates. -/
def canonicalJsonBytes (value : JsonValue F) (label : String) : Except String (List ℕ) :=
  if value.All (fun a => a.finite N = true) (fun _ => True) then
    match encodeUtf8 (dumps N false value) with
    | some bytes => .ok bytes
    | none => .error s!"{label} must contain JSON-compatible values"
  else .error s!"{label} must contain JSON-compatible values"

/-- `require_action_parameters`, with the limits on the number of fields and on the bytes. -/
def JsonObject.requireActionParameters (parameters : JsonObject F) (label : String)
    (maxFields maxBytes : ℕ) : Except String Unit := do
  requireItemCount s!"{label} fields" parameters.fields.length maxFields
  requireJsonBytes label (← canonicalJsonBytes N parameters.value label).length maxBytes

/-! ### Identities -/

/-- The keys of the object that `action_payload_identity` hashes. -/
def payloadKeys : PyString × PyString := (codePoints "action_type", codePoints "parameters")

/-- The object that `action_payload_identity` hashes. -/
def actionPayload (actionType : String) (parameters : JsonObject F) : JsonValue F :=
  .object [(payloadKeys.1, .atom (.string (codePoints actionType))),
    (payloadKeys.2, parameters.value)]

/-- `action_payload_identity`. -/
def actionPayloadIdentity {H : Type} (sha256 : PyString → H) (actionType : String)
    (parameters : JsonObject F) : H :=
  sha256 (dumps N true (actionPayload actionType parameters))

/-- A `UUID`. -/
@[ext]
structure Uuid where
  val : ℕ
  val_lt : val < 16 ^ 32
  deriving DecidableEq

/-- `str` of a `UUID`: its digits in five groups. -/
def Uuid.text (id : Uuid) : PyString :=
  let hex := hexDigits 32 id.val
  hex.take 8 ++ 45 :: ((hex.drop 8).take 4 ++ 45 :: ((hex.drop 12).take 4 ++ 45 ::
    ((hex.drop 16).take 4 ++ 45 :: hex.drop 20)))

/-- `execution_idempotency_key`. -/
def executionIdempotencyKey {H : Type} (sha256 : PyString → H)
    (tenantId processInstanceId actionRequestId : Uuid) (revision : ℤ)
    (payloadHash : PyString) : H :=
  sha256 (tenantId.text ++ 58 :: (processInstanceId.text ++ 58 :: (actionRequestId.text ++ 58 ::
    (N.text (.int revision) ++ 58 :: payloadHash))))

variable {N}

/-! ### What is accepted -/

/-- An atom that can be encoded. -/
def JsonAtom.Encodable (N : NumberTexts F) : JsonAtom F → Prop
  | .number n => N.finite n = true
  | .string s => ∀ c ∈ s, Scalar c
  | _ => True

instance (N : NumberTexts F) : DecidablePred (JsonAtom.Encodable N)
  | .number n => inferInstanceAs (Decidable (N.finite n = true))
  | .string s => inferInstanceAs (Decidable (∀ c ∈ s, Scalar c))
  | .null => .isTrue trivial
  | .bool _ => .isTrue trivial

/-- A value that can be encoded: its numbers are finite, and its strings hold no surrogates. -/
def JsonEncodable (N : NumberTexts F) (value : JsonValue F) : Prop :=
  value.All (JsonAtom.Encodable N) fun k => ∀ c ∈ k, Scalar c

instance (N : NumberTexts F) : DecidablePred (JsonEncodable N) :=
  fun value => inferInstanceAs (Decidable (value.All _ _))

lemma punctuation_scalar (ensureAscii : Bool) : (jsonFormat N ensureAscii).Punctuation Scalar where
  comma := (by decide : Scalar 44)
  colon := (by decide : Scalar 58)
  openArray := (by decide : Scalar 91)
  closeArray := (by decide : Scalar 93)
  openObject := (by decide : Scalar 123)
  closeObject := (by decide : Scalar 125)

/-- The canonical encoding accepts the values that can be encoded. -/
lemma canonicalJsonBytes_ok_iff {value : JsonValue F} {label : String} :
    (∃ bytes, canonicalJsonBytes N value label = .ok bytes) ↔ JsonEncodable N value := by
  have hscalar : (encodeUtf8 (dumps N false value)).isSome ↔
      value.All (fun a => ∀ c ∈ JsonAtom.text N false a, Scalar c) fun k => ∀ c ∈ k, Scalar c := by
    rw [encodeUtf8_isSome_iff, dumps, Format.forall_mem_text (punctuation_scalar false)]
    have hkey : ∀ k : PyString, (∀ c ∈ quoted false k, Scalar c) ↔ ∀ c ∈ k, Scalar c :=
      fun k => forall_mem_quoted
    exact ⟨fun h => h.mono (fun _ => id) fun k => (hkey k).mp,
      fun h => h.mono (fun _ => id) fun k => (hkey k).mpr⟩
  constructor
  · rintro ⟨bytes, h⟩
    rw [canonicalJsonBytes] at h
    split_ifs at h with hfinite
    cases hbytes : encodeUtf8 (dumps N false value) with
    | none => rw [hbytes] at h; cases h
    | some bytes' =>
        have hchars := hscalar.mp (by rw [hbytes, Option.isSome_some])
        refine (hfinite.and hchars).mono (fun a ha => ?_) fun k hk => hk.2
        cases a with
        | number n => exact ha.1
        | string s => exact forall_mem_quoted.mp ha.2
        | null => trivial
        | bool b => trivial
  · intro h
    have hfinite : value.All (fun a => a.finite N = true) fun _ => True := by
      refine h.mono (fun a ha => ?_) fun _ _ => trivial
      cases a with
      | number n => exact ha
      | string s => rfl
      | null => rfl
      | bool b => rfl
    have hsome : (encodeUtf8 (dumps N false value)).isSome := by
      refine hscalar.mpr (h.mono (fun a ha => ?_) fun _ => id)
      cases a with
      | number n => exact fun c hc => (N.text_numeral n ha c hc).scalar
      | string s => exact forall_mem_quoted.mpr ha
      | null => exact (by decide : ∀ c ∈ codePoints "null", Scalar c)
      | bool b =>
          cases b with
          | false => exact (by decide : ∀ c ∈ codePoints "false", Scalar c)
          | true => exact (by decide : ∀ c ∈ codePoints "true", Scalar c)
    obtain ⟨bytes, hbytes⟩ := Option.isSome_iff_exists.mp hsome
    exact ⟨bytes, by rw [canonicalJsonBytes, if_pos hfinite, hbytes]⟩

/-! ### Unique readability -/

/-- The first code point of an atom tells what it is. -/
def JsonAtom.StartsWith (c : ℕ) : JsonAtom F → Prop
  | .null => c = 110
  | .bool true => c = 116
  | .bool false => c = 102
  | .number _ => IsNumeral c
  | .string _ => c = 34

/-- Atoms that start with the same code point are numbers, or strings, or the same. -/
lemma JsonAtom.StartsWith.kinds {c : ℕ} {a b : JsonAtom F} (ha : a.StartsWith c)
    (hb : b.StartsWith c) :
    a = b ∨ (∃ m n, a = .number m ∧ b = .number n) ∨ ∃ s t, a = .string s ∧ b = .string t := by
  rcases a with _ | (_ | _) | m | s <;> rcases b with _ | (_ | _) | n | t
  all_goals
    simp only [StartsWith, IsNumeral] at ha hb
    first
    | exact .inl rfl
    | exact .inr (.inl ⟨_, _, rfl, rfl⟩)
    | exact .inr (.inr ⟨_, _, rfl, rfl⟩)
    | omega

lemma JsonAtom.StartsWith.ne {c : ℕ} {a : JsonAtom F} (ha : a.StartsWith c) :
    c ≠ 91 ∧ c ≠ 123 ∧ c ≠ 93 := by
  rcases a with _ | (_ | _) | m | s
  all_goals
    simp only [StartsWith, IsNumeral] at ha
    omega

lemma JsonAtom.exists_head {ensureAscii : Bool} {a : JsonAtom F} (ha : a.Encodable N) :
    ∃ c rest, a.text N ensureAscii = c :: rest ∧ a.StartsWith c := by
  cases a with
  | null => exact ⟨_, _, rfl, rfl⟩
  | bool b => cases b <;> exact ⟨_, _, rfl, rfl⟩
  | number n =>
      obtain ⟨c, rest, hn⟩ := List.exists_cons_of_ne_nil (N.text_ne_nil n ha)
      exact ⟨c, rest, hn, N.text_numeral n ha c (by rw [hn]; exact List.mem_cons_self)⟩
  | string s => exact ⟨_, _, rfl, rfl⟩

/-- Numbers can be told apart from the ends that follow them. -/
lemma number_append_inj {m n : JsonNumber F} {u u' : PyString} (hm : N.finite m = true)
    (hn : N.finite n = true) (hu : ∀ c ∈ u.head?, ¬ IsNumeral c)
    (hu' : ∀ c ∈ u'.head?, ¬ IsNumeral c)
    (h : N.text m ++ u = N.text n ++ u') : m = n := by
  have htake : ∀ x v : PyString, (∀ c ∈ x, IsNumeral c) → (∀ c ∈ v.head?, ¬ IsNumeral c) →
      (x ++ v).takeWhile (fun c => IsNumeral c) = x := by
    intro x v hx hv
    rw [List.takeWhile_append_of_pos fun c hc => decide_eq_true (hx c hc)]
    cases v with
    | nil => rw [List.takeWhile_nil, List.append_nil]
    | cons c v => rw [List.takeWhile_cons_of_neg (by simpa using hv c rfl), List.append_nil]
  refine N.text_inj m n hm hn ?_
  rw [← htake _ _ (N.text_numeral m hm) hu, h, htake _ _ (N.text_numeral n hn) hu']

/-- Encodable atoms can be told apart from the ends that follow them. -/
lemma JsonAtom.append_inj {ensureAscii : Bool} {a b : JsonAtom F} {u u' : PyString}
    (ha : a.Encodable N) (hb : b.Encodable N) (hu : ∀ c ∈ u.head?, ¬ IsNumeral c)
    (hu' : ∀ c ∈ u'.head?, ¬ IsNumeral c)
    (h : a.text N ensureAscii ++ u = b.text N ensureAscii ++ u') : a = b := by
  obtain ⟨c, rest, hc, hstart⟩ :
      ∃ c rest, a.text N ensureAscii = c :: rest ∧ a.StartsWith c := exists_head ha
  obtain ⟨c', rest', hc', hstart'⟩ :
      ∃ c rest, b.text N ensureAscii = c :: rest ∧ b.StartsWith c := exists_head hb
  have hhead : c = c' := by
    rw [hc, hc'] at h
    exact (List.cons.inj h).1
  subst hhead
  rcases hstart.kinds hstart' with hsame | ⟨m, n, rfl, rfl⟩ | ⟨s, t, rfl, rfl⟩
  · exact hsame
  · rw [number_append_inj ha hb hu hu' h]
  · rw [quoted_append_inj ha hb h]

/-- **The format is readable** for what can be encoded. -/
lemma jsonFormat_readable (ensureAscii : Bool) :
    (jsonFormat N ensureAscii).Readable (JsonAtom.Encodable N) fun k => ∀ c ∈ k, Scalar c where
  comma_closeArray := (by decide : 44 ≠ 93)
  comma_closeObject := (by decide : 44 ≠ 125)
  openArray_openObject := (by decide : 91 ≠ 123)
  openArray_closeArray := (by decide : 91 ≠ 93)
  openObject_closeArray := (by decide : 123 ≠ 93)
  atom_head := by
    intro a ha
    obtain ⟨c, rest, hc, hstart⟩ :
        ∃ c rest, a.text N ensureAscii = c :: rest ∧ a.StartsWith c := JsonAtom.exists_head ha
    exact ⟨c, rest, hc, hstart.ne⟩
  atom_inj := by
    intro a b u u' ha hb hu hu' h
    have hends : ∀ v, (jsonFormat N ensureAscii).Ends v → ∀ c ∈ v.head?, ¬ IsNumeral c := by
      intro v hv c hc
      rcases hv c hc with rfl | rfl | rfl
      · exact (by decide : ¬ IsNumeral 44)
      · exact (by decide : ¬ IsNumeral 93)
      · exact (by decide : ¬ IsNumeral 125)
    exact JsonAtom.append_inj ha hb (hends u hu) (hends u' hu') h
  key_head := fun k _ => ⟨_, _, rfl, (by decide : 34 ≠ 125)⟩
  key_inj := fun k l u u' hk hl h => quoted_append_inj hk hl h

/-! ### The payload of an action -/

/-- A text has no surrogates. -/
lemma scalar_codePoints (s : String) : ∀ c ∈ codePoints s, Scalar c := by
  intro c hc
  obtain ⟨char, -, rfl⟩ := List.mem_map.mp hc
  exact char.valid

lemma codePoints_inj {s t : String} (h : codePoints s = codePoints t) : s = t :=
  String.toList_injective (List.map_injective_iff.mpr (fun _ _ => Char.toNat_inj.mp) h)

lemma actionPayload_encodable {t : String} {p : JsonObject F}
    (hp : JsonEncodable N p.value) : JsonEncodable N (actionPayload t p) := by
  refine Value.all_object.mpr ?_
  rw [List.forall_mem_cons, List.forall_mem_singleton]
  exact ⟨⟨(by decide : ∀ c ∈ payloadKeys.1, Scalar c), Value.all_atom.mpr (scalar_codePoints t)⟩,
    (by decide : ∀ c ∈ payloadKeys.2, Scalar c), hp⟩

lemma actionPayload_wellFormed {t : String} {p : JsonObject F} :
    (actionPayload t p).WellFormed := by
  refine Value.wellFormed_object.mpr ⟨(by decide : [payloadKeys.1, payloadKeys.2].Nodup), ?_⟩
  rw [List.forall_mem_cons, List.forall_mem_singleton]
  exact ⟨trivial, p.wellFormed⟩

section

variable [DecidableEq F]

/-- Encodable values have the same text iff they are the same up to the order of keys. -/
lemma dumps_eq_iff {ensureAscii : Bool} {v w : JsonValue F} (hv : JsonEncodable N v)
    (hw : JsonEncodable N w) (hvwell : v.WellFormed) (hwell : w.WellFormed) :
    dumps N ensureAscii v = dumps N ensureAscii w ↔ v.same w = true :=
  (jsonFormat_readable ensureAscii).text_eq_iff hv hw hvwell hwell

/-- Payloads are the same iff the types and the parameters are. -/
lemma actionPayload_same_iff {t t' : String} {p p' : JsonObject F} :
    (actionPayload t p).same (actionPayload t' p') = true ↔
      t = t' ∧ p.value.same p'.value = true := by
  have hkeys : payloadKeys.1 ≠ payloadKeys.2 := by decide
  have htype : (Value.atom (.string (codePoints t)) : JsonValue F).agree
      (fun a b => decide (a = b)) (.atom (.string (codePoints t'))) = true ↔ t = t' := by
    rw [Value.agree, decide_eq_true_eq, JsonAtom.string.injEq]
    exact ⟨codePoints_inj, congrArg codePoints⟩
  rw [Value.same, actionPayload, actionPayload, Value.agree_pair hkeys, htype, Value.same]

/-- **Payload identities are injective.** -/
lemma actionPayloadIdentity_eq_iff {H : Type} {sha256 : PyString → H}
    (hsha : Function.Injective sha256) {t t' : String} {p p' : JsonObject F}
    (hp : JsonEncodable N p.value) (hp' : JsonEncodable N p'.value) :
    actionPayloadIdentity N sha256 t p = actionPayloadIdentity N sha256 t' p' ↔
      t = t' ∧ p.value.same p'.value = true := by
  rw [actionPayloadIdentity, actionPayloadIdentity, hsha.eq_iff,
    dumps_eq_iff (actionPayload_encodable hp) (actionPayload_encodable hp')
      actionPayload_wellFormed actionPayload_wellFormed, actionPayload_same_iff]

end

/-! ### The key of an execution -/

/-- The digits of a `UUID` are what its text has without the dashes. -/
lemma Uuid.text_filter (id : Uuid) : id.text.filter (· ≠ 45) = hexDigits 32 id.val := by
  have hdigits : ∀ c ∈ hexDigits 32 id.val, decide (c ≠ 45) = true := by
    intro c hc
    have hdigit := mem_hexDigits hc
    exact decide_eq_true (by omega)
  rw [Uuid.text]
  generalize hexDigits 32 id.val = hex at hdigits
  have hkept : ∀ l : List ℕ, l ⊆ hex → l.filter (· ≠ 45) = l := fun l hl =>
    List.filter_eq_self.mpr fun c hc => hdigits c (hl hc)
  have hgroup : ∀ m, (hex.drop m).take 4 ++ hex.drop (m + 4) = hex.drop m := by
    intro m
    rw [← List.drop_drop, List.take_append_drop]
  have hdashes : ∀ l l' : List ℕ, (l ++ 45 :: l').filter (· ≠ 45) =
      l.filter (· ≠ 45) ++ l'.filter (· ≠ 45) := by
    intro l l'
    rw [List.filter_append, List.filter_cons_of_neg (by decide)]
  have hmiddle : ∀ m, ((hex.drop m).take 4).filter (· ≠ 45) = (hex.drop m).take 4 := fun m =>
    hkept _ fun c hc => List.drop_subset _ _ (List.take_subset _ _ hc)
  calc _ = hex.take 8 ++ ((hex.drop 8).take 4 ++ ((hex.drop 12).take 4 ++
        ((hex.drop 16).take 4 ++ hex.drop 20))) := by
        rw [hdashes, hdashes, hdashes, hdashes, hkept _ (List.take_subset _ _),
          hkept _ (List.drop_subset _ _), hmiddle, hmiddle, hmiddle]
    _ = hex := by rw [hgroup 16, hgroup 12, hgroup 8, List.take_append_drop]

lemma Uuid.text_inj {id id' : Uuid} (h : id.text = id'.text) : id = id' := by
  have hdigits : hexDigits 32 id.val = hexDigits 32 id'.val := by
    rw [← id.text_filter, ← id'.text_filter, h]
  exact Uuid.ext (hexDigits_inj id.val_lt id'.val_lt hdigits)

lemma Uuid.colon_notMem (id : Uuid) : 58 ∉ id.text := by
  intro h
  have hmem : 58 ∈ id.text.filter (· ≠ 45) := List.mem_filter.mpr ⟨h, by decide⟩
  rw [id.text_filter] at hmem
  have hdigit := mem_hexDigits hmem
  omega

lemma colon_notMem_int (z : ℤ) : 58 ∉ N.text (.int z) := by
  intro h
  exact absurd (N.text_numeral _ (N.finite_int z) _ h) (by decide)

/-- Texts without colons can be told apart from what follows a colon. -/
lemma append_colon_inj {x x' u u' : PyString} (hx : 58 ∉ x) (hx' : 58 ∉ x')
    (h : x ++ 58 :: u = x' ++ 58 :: u') : x = x' ∧ u = u' := by
  induction x generalizing x' with
  | nil =>
      cases x' with
      | nil => exact ⟨rfl, (List.cons.inj h).2⟩
      | cons c x' => exact absurd (List.mem_cons.mpr (.inl (List.cons.inj h).1)) hx'
  | cons c x ih =>
      cases x' with
      | nil => exact absurd (List.mem_cons.mpr (.inl (List.cons.inj h).1.symm)) hx
      | cons c' x' =>
          obtain ⟨rfl, hrest⟩ := List.cons.inj h
          obtain ⟨rfl, hu⟩ := ih (fun hmem => hx (List.mem_cons_of_mem _ hmem))
            (fun hmem => hx' (List.mem_cons_of_mem _ hmem)) hrest
          exact ⟨rfl, hu⟩

/-- **Execution keys are injective.** -/
lemma executionIdempotencyKey_inj {H : Type} {sha256 : PyString → H}
    (hsha : Function.Injective sha256) {t t' p p' a a' : Uuid} {revision revision' : ℤ}
    {payloadHash payloadHash' : PyString}
    (h : executionIdempotencyKey N sha256 t p a revision payloadHash =
      executionIdempotencyKey N sha256 t' p' a' revision' payloadHash') :
    t = t' ∧ p = p' ∧ a = a' ∧ revision = revision' ∧ payloadHash = payloadHash' := by
  have htext := hsha h
  obtain ⟨ht, htext⟩ := append_colon_inj t.colon_notMem t'.colon_notMem htext
  obtain ⟨hp, htext⟩ := append_colon_inj p.colon_notMem p'.colon_notMem htext
  obtain ⟨ha, htext⟩ := append_colon_inj a.colon_notMem a'.colon_notMem htext
  obtain ⟨hrevision, hhash⟩ := append_colon_inj (colon_notMem_int _) (colon_notMem_int _) htext
  have hint := N.text_inj _ _ (N.finite_int revision) (N.finite_int revision') hrevision
  exact ⟨Uuid.text_inj ht, Uuid.text_inj hp, Uuid.text_inj ha, JsonNumber.int.inj hint, hhash⟩

end

/-- The identities are injective, if the hash function is.  For parameters that the canonical
encoding accepts, two payloads have one identity iff their types are the same, and their parameters
are the same JSON value up to the order of keys; and an execution key determines the five
components it was made from. -/
theorem identities_injective {F H : Type} [DecidableEq F] (N : NumberTexts F)
    (sha256 : PyString → H) (hsha : Function.Injective sha256) :
    (∀ (t t' : String) (p p' : JsonObject F) (label : String),
      (∃ bytes, canonicalJsonBytes N p.value label = .ok bytes) →
      (∃ bytes, canonicalJsonBytes N p'.value label = .ok bytes) →
      (actionPayloadIdentity N sha256 t p = actionPayloadIdentity N sha256 t' p' ↔
        t = t' ∧ p.value.same p'.value = true)) ∧
    ∀ (tenantId tenantId' processInstanceId processInstanceId' actionRequestId
        actionRequestId' : Uuid) (revision revision' : ℤ) (payloadHash payloadHash' : PyString),
      executionIdempotencyKey N sha256 tenantId processInstanceId actionRequestId revision
          payloadHash =
        executionIdempotencyKey N sha256 tenantId' processInstanceId' actionRequestId' revision'
          payloadHash' →
      tenantId = tenantId' ∧ processInstanceId = processInstanceId' ∧
        actionRequestId = actionRequestId' ∧ revision = revision' ∧ payloadHash = payloadHash' := by
  refine ⟨fun t t' p p' label hp hp' => ?_, fun _ _ _ _ _ _ _ _ _ _ => ?_⟩
  · rw [canonicalJsonBytes_ok_iff] at hp hp'
    exact actionPayloadIdentity_eq_iff hsha hp hp'
  · exact executionIdempotencyKey_inj hsha

/-! ### Numbers without floats -/

/-- The decimal digits of a natural number. -/
def decimalDigits (n : ℕ) : PyString :=
  if n = 0 then [48] else (Nat.digits 10 n).reverse.map (48 + ·)

/-- The decimal text of an integer. -/
def decimal (z : ℤ) : PyString := (if z < 0 then [45] else []) ++ decimalDigits z.natAbs

lemma mem_decimalDigits {n c : ℕ} (h : c ∈ decimalDigits n) : 48 ≤ c ∧ c ≤ 57 := by
  rw [decimalDigits] at h
  split_ifs at h
  · rw [List.mem_singleton.mp h]
    omega
  · obtain ⟨d, hd, rfl⟩ := List.mem_map.mp h
    have hlt := Nat.digits_lt_base (by omega : 1 < 10) (List.mem_reverse.mp hd)
    omega

lemma decimalDigits_ne_nil (n : ℕ) : decimalDigits n ≠ [] := by
  rw [decimalDigits]
  split_ifs with hn
  · exact List.cons_ne_nil _ _
  · simp [Nat.digits_ne_nil_iff_ne_zero, hn]

/-- The digits give the number back. -/
lemma ofDigits_decimalDigits (n : ℕ) :
    Nat.ofDigits 10 ((decimalDigits n).reverse.map (· - 48)) = n := by
  rw [decimalDigits]
  split_ifs with hn
  · rw [hn]
    rfl
  · rw [← List.map_reverse, List.reverse_reverse, List.map_map]
    have hid : (fun c => c - 48) ∘ (48 + ·) = id := by
      funext d
      exact Nat.add_sub_cancel_left 48 d
    rw [hid, List.map_id, Nat.ofDigits_digits]

lemma decimal_numeral {z : ℤ} {c : ℕ} (h : c ∈ decimal z) : c = 45 ∨ (48 ≤ c ∧ c ≤ 57) := by
  rw [decimal, List.mem_append] at h
  rcases h with h | h
  · split_ifs at h
    · exact .inl (List.mem_singleton.mp h)
    · cases h
  · exact .inr (mem_decimalDigits h)

lemma decimal_inj {y z : ℤ} (h : decimal y = decimal z) : y = z := by
  have hsign : ∀ x : ℤ, 45 ∈ decimal x ↔ x < 0 := by
    intro x
    rw [decimal, List.mem_append]
    constructor
    · rintro (hmem | hmem)
      · split_ifs at hmem with hx
        · exact hx
        · cases hmem
      · have hdigit := mem_decimalDigits hmem
        omega
    · intro hx
      rw [if_pos hx]
      exact .inl List.mem_cons_self
  have hneg : y < 0 ↔ z < 0 := by rw [← hsign, ← hsign, h]
  have hdigits : decimalDigits y.natAbs = decimalDigits z.natAbs := by
    rw [decimal, decimal] at h
    by_cases hy : y < 0
    · rw [if_pos hy, if_pos (hneg.mp hy)] at h
      exact List.append_cancel_left h
    · rw [if_neg hy, if_neg (fun hz => hy (hneg.mpr hz))] at h
      exact h
  have habs : y.natAbs = z.natAbs := by
    rw [← ofDigits_decimalDigits y.natAbs, hdigits, ofDigits_decimalDigits]
  omega

/-- Integers, without any float. -/
def NumberTexts.ints : NumberTexts Empty where
  text
    | .int z => decimal z
  finite _ := true
  finite_int _ := rfl
  text_ne_nil
    | .int z, _ => List.append_ne_nil_of_right_ne_nil _ (decimalDigits_ne_nil _)
  text_numeral
    | .int z, _, c, hc => by
        have hdigit := decimal_numeral hc
        rw [IsNumeral]
        omega
  text_inj
    | .int y, .int z, _, _, h => by rw [decimal_inj h]

/-- The same two parameters in either order, and one execution. -/
theorem identities_injective_letter :
    let p : JsonObject Empty :=
      { fields := [(codePoints "to", .atom (.string (codePoints "Zoë"))),
          (codePoints "copies", .atom (.number (.int 2)))]
        wellFormed := by decide }
    let p' : JsonObject Empty :=
      { fields := [(codePoints "copies", .atom (.number (.int 2))),
          (codePoints "to", .atom (.string (codePoints "Zoë")))]
        wellFormed := by decide }
    actionPayloadIdentity .ints id "send_letter" p =
      actionPayloadIdentity .ints id "send_letter" p' := by
  intro p p'
  have hp : ∃ bytes, canonicalJsonBytes .ints p.value "action parameters" = .ok bytes :=
    canonicalJsonBytes_ok_iff.mpr (by decide)
  have hp' : ∃ bytes, canonicalJsonBytes .ints p'.value "action parameters" = .ok bytes :=
    canonicalJsonBytes_ok_iff.mpr (by decide)
  exact ((identities_injective .ints id Function.injective_id).1 _ _ p p' _ hp hp').mpr
    ⟨rfl, by decide⟩

end TiramisuAgents
