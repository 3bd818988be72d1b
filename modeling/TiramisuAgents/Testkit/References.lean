import TiramisuAgents.Testkit.ScenarioScript

/-!
References to facts in the values of a scenario: what the compiler sees of them before a value is
dumped (`_validate_scenario_value_references`), and what the interpreter replaces in the dump
(`CompiledScenarioScript.resolve`).

* `ScenarioData`, `dump`: a value with model objects in it, and its dump.
* `validateReferences`: the check of the compiler; `validateReferences_dump`.
* `references`: the references of a dump, in the order of the text; `validateValueReferences_ok`,
  `resolve_outcome` and `resolve_replaced` tell both recursions by them.
* `scenario_references_iff`: when the two agree.
-/

namespace TiramisuAgents

open Json

section

variable {F : Type}

/-! ### Values before they are dumped (`projects/contracts.py`) -/

/-- A part of the path of a `ScenarioValue`. -/
inductive PathPart where
  | name (s : PyString)
  | index (z : ℤ)
  deriving DecidableEq, Repr

/-- `ScenarioValue`. -/
structure ScenarioValue where
  factKey : String
  path : List PathPart := []
  /-- The pattern of `fact_key`. -/
  dotted : isEventType factKey = true

/-- What a value holds that is no dictionary, no list and no tuple: an atom of JSON, a
`ScenarioValue`, or another model, with the fields it is dumped to. -/
inductive ScenarioAtom (F : Type) where
  | json (a : JsonAtom F)
  | value (v : ScenarioValue)
  | model (fields : List (PyString × JsonValue F))

/-- A value of a scenario; an array is a list or a tuple. -/
abbrev ScenarioData (F : Type) := Json.Value PyString (ScenarioAtom F)

/-- The dump of a part of a path. -/
def PathPart.dump : PathPart → JsonValue F
  | .name s => .atom (.string s)
  | .index z => .atom (.number (.int z))

/-- The fields of the dump of a `ScenarioValue`. -/
def ScenarioValue.fields (v : ScenarioValue) : List (PyString × JsonValue F) :=
  [(codePoints "type", .atom (.string (codePoints "fact"))),
    (codePoints "fact_key", .atom (.string (codePoints v.factKey))),
    (codePoints "path", .array (v.path.map PathPart.dump))]

/-- `model_dump(mode="json")` of what is no dictionary and no list. -/
def ScenarioAtom.dump : ScenarioAtom F → JsonValue F
  | .json a => .atom a
  | .value v => .object v.fields
  | .model fields => .object fields

/-- `model_dump(mode="json")`, as `_scenario_description` applies it to the value of a step. -/
def dump (v : ScenarioData F) : JsonValue F := v.bind ScenarioAtom.dump

/-! ### The check of the compiler (`projects/compiler.py`) -/

section

variable [DecidableEq F]

/-- A dictionary that stands for the value of a fact. -/
def isReferenceDict (fields : List (PyString × ScenarioData F)) : Bool :=
  (match fields.lookup (codePoints "type") with
    | some (.atom (.json (.string s))) => decide (s = codePoints "fact")
    | _ => false) &&
  fields.all fun f =>
    [codePoints "type", codePoints "fact_key", codePoints "path"].contains f.1

omit [DecidableEq F] in
/-- The `fact_key` of such a dictionary; one that is no string is the key of no fact. -/
def dictKey (fields : List (PyString × ScenarioData F)) : Option String :=
  match fields.lookup (codePoints "fact_key") with
  | some (.atom (.json (.string s))) => some (textOf s)
  | _ => none

variable (scenarioId : String) (facts : List (String × Fact))

/-- The check of one key. -/
def validateKey (key : Option String) : Except String Bool :=
  if key.any fun key => (facts.lookup key).isSome then .ok true
  else .error (s!"scenario {scenarioId} reads an unknown fact: " ++ key.getD "None")

mutual

/-- `_validate_scenario_value_references`, on a value before it is dumped. -/
def validateReferences : ScenarioData F → Except String Bool
  | .atom (.json _) => .ok false
  | .atom (.value v) => validateKey scenarioId facts (some v.factKey)
  | .atom (.model fields) => validateValueReferences scenarioId facts (.object fields)
  | .array items => validateReferencesOfItems items
  | .object fields =>
      if isReferenceDict fields then validateKey scenarioId facts (dictKey fields)
      else validateReferencesOfFields fields

/-- The loop over a list or a tuple. -/
def validateReferencesOfItems : List (ScenarioData F) → Except String Bool
  | [] => .ok false
  | item :: items => do
      let found ← validateReferences item
      return found || (← validateReferencesOfItems items)

/-- The loop over the values of a dictionary. -/
def validateReferencesOfFields : List (PyString × ScenarioData F) → Except String Bool
  | [] => .ok false
  | (_, item) :: fields => do
      let found ← validateReferences item
      return found || (← validateReferencesOfFields fields)

end

end

/-! ### The references of a dump -/

section

variable [DecidableEq F]

mutual

/-- The references of a value, in the order of the text; a reference has no others in it. -/
def references : JsonValue F → List (List (PyString × JsonValue F))
  | .atom _ => []
  | .array items => referencesOfItems items
  | .object fields => if isFactReference fields then [fields] else referencesOfFields fields

/-- The references of the items. -/
def referencesOfItems : List (JsonValue F) → List (List (PyString × JsonValue F))
  | [] => []
  | item :: items => references item ++ referencesOfItems items

/-- The references of the values of the fields. -/
def referencesOfFields : List (PyString × JsonValue F) → List (List (PyString × JsonValue F))
  | [] => []
  | (_, item) :: fields => references item ++ referencesOfFields fields

end

mutual

/-- The value with its references replaced. -/
def replaceReferences (f : List (PyString × JsonValue F) → JsonValue F) : JsonValue F → JsonValue F
  | .atom a => .atom a
  | .array items => .array (replaceItems f items)
  | .object fields => if isFactReference fields then f fields else .object (replaceFields f fields)

/-- The items with their references replaced. -/
def replaceItems (f : List (PyString × JsonValue F) → JsonValue F) :
    List (JsonValue F) → List (JsonValue F)
  | [] => []
  | item :: items => replaceReferences f item :: replaceItems f items

/-- The fields with the references of their values replaced. -/
def replaceFields (f : List (PyString × JsonValue F) → JsonValue F) :
    List (PyString × JsonValue F) → List (PyString × JsonValue F)
  | [] => []
  | (key, item) :: fields => (key, replaceReferences f item) :: replaceFields f fields

end

/-- The key of a reference is that of a fact of the catalog. -/
def Declared (facts : List (String × Fact)) (reference : List (PyString × JsonValue F)) : Prop :=
  ∃ key fact, referencedKey reference = some key ∧ facts.lookup key = some fact

omit [DecidableEq F] in
lemma declared_iff {facts : List (String × Fact)} {reference : List (PyString × JsonValue F)} :
    Declared facts reference ↔
      ((referencedKey reference).any fun key => (facts.lookup key).isSome) = true := by
  rw [Declared]
  cases hkey : referencedKey reference with
  | none => simp
  | some key => simp [Option.isSome_iff_exists]

lemma references_array {items : List (JsonValue F)} :
    references (.array items) = items.flatMap references := by
  rw [references]
  induction items with
  | nil => rfl
  | cons item items ih => rw [referencesOfItems, ih, List.flatMap_cons]

lemma references_reference {fields : List (PyString × JsonValue F)}
    (h : isFactReference fields = true) : references (.object fields) = [fields] := by
  rw [references, if_pos h]

lemma referencesOfFields_eq (fields : List (PyString × JsonValue F)) :
    referencesOfFields fields = fields.flatMap fun f => references f.2 := by
  induction fields with
  | nil => rfl
  | cons f fields ih =>
      obtain ⟨key, item⟩ := f
      rw [referencesOfFields, ih, List.flatMap_cons]

lemma references_object {fields : List (PyString × JsonValue F)}
    (h : ¬ isFactReference fields = true) :
    references (.object fields) = fields.flatMap fun f => references f.2 := by
  rw [references, if_neg h, referencesOfFields_eq]

/-! ### Before and after the dump -/

omit [DecidableEq F] in
lemma textOf_codePoints (s : String) : textOf (codePoints s) = s := by
  rw [textOf, codePoints, List.map_map]
  have hid : Char.ofNat ∘ Char.toNat = id := by
    funext c
    exact Char.ofNat_toNat c
  rw [hid, List.map_id, String.ofList_toList]

/-- The dump of a `ScenarioValue` is a reference to its fact. -/
lemma isFactReference_value (v : ScenarioValue) : isFactReference (v.fields (F := F)) = true := by
  simp [isFactReference, ScenarioValue.fields]

omit [DecidableEq F] in
lemma referencedKey_value (v : ScenarioValue) :
    referencedKey (v.fields (F := F)) = some v.factKey := by
  have hlookup : (v.fields (F := F)).lookup (codePoints "fact_key") =
      some (.atom (.string (codePoints v.factKey))) := by
    rw [ScenarioValue.fields, List.lookup_cons, List.lookup_cons_self]
    rfl
  rw [referencedKey, hlookup]
  exact congrArg some (textOf_codePoints v.factKey)

/-- The fields of a dictionary, dumped. -/
def dumpFields (fields : List (PyString × ScenarioData F)) : List (PyString × JsonValue F) :=
  fields.map fun f => (f.1, dump f.2)

/-- A dictionary and its dump are references together. -/
lemma isFactReference_dumpFields (fields : List (PyString × ScenarioData F)) :
    isFactReference (dumpFields fields) = isReferenceDict fields := by
  have hkeys : (dumpFields fields).all (fun f =>
      [codePoints "type", codePoints "fact_key", codePoints "path"].contains f.1) =
      fields.all fun f =>
        [codePoints "type", codePoints "fact_key", codePoints "path"].contains f.1 := by
    rw [dumpFields, List.all_map]
    rfl
  rw [isFactReference, isReferenceDict, hkeys, dumpFields, Dict.lookup_mapValues]
  congr 1
  cases fields.lookup (codePoints "type") with
  | none => rfl
  | some v =>
      cases v with
      | atom a =>
          cases a with
          | json a => cases a <;> rfl
          | value v => rfl
          | model fields => rfl
      | array items => rfl
      | object fields => rfl

omit [DecidableEq F] in
lemma referencedKey_dumpFields (fields : List (PyString × ScenarioData F)) :
    referencedKey (dumpFields fields) = dictKey fields := by
  rw [referencedKey, dictKey, dumpFields, Dict.lookup_mapValues]
  cases fields.lookup (codePoints "fact_key") with
  | none => rfl
  | some v =>
      cases v with
      | atom a =>
          cases a with
          | json a => cases a <;> rfl
          | value v => rfl
          | model fields => rfl
      | array items => rfl
      | object fields => rfl

omit [DecidableEq F] in
lemma dump_object (fields : List (PyString × ScenarioData F)) :
    dump (.object fields) = .object (dumpFields fields) := Json.Value.bind_object

section

variable (scenarioId : String) (facts : List (String × Fact))

/-- A reference is refused for its key only. -/
lemma validateValueReferences_reference {fields : List (PyString × JsonValue F)}
    (h : isFactReference fields = true) :
    validateValueReferences scenarioId facts (.object fields) =
      validateKey scenarioId facts (referencedKey fields) := by
  rw [validateValueReferences, if_pos h, validateKey]

/-- The check of the compiler before the dump is its check on the dump. -/
lemma validateReferences_dump (v : ScenarioData F) :
    validateReferences scenarioId facts v = validateValueReferences scenarioId facts (dump v) := by
  induction v using Json.Value.ind with
  | hatom a =>
      cases a with
      | json a => rfl
      | value v =>
          rw [validateReferences, ← referencedKey_value (F := F) v,
            ← validateValueReferences_reference scenarioId facts (isFactReference_value v)]
          rfl
      | model fields => rfl
  | harray items ih =>
      have hitems : validateReferencesOfItems scenarioId facts items =
          validateItemReferences scenarioId facts (items.map dump) := by
        induction items with
        | nil => rfl
        | cons item items ihitems =>
            obtain ⟨hitem, hrest⟩ := List.forall_mem_cons.mp ih
            rw [validateReferencesOfItems, List.map_cons, validateItemReferences, hitem,
              ihitems hrest]
      rw [validateReferences, hitems, dump, Json.Value.bind_array, validateValueReferences]
      rfl
  | hobject fields ih =>
      have hfields : validateReferencesOfFields scenarioId facts fields =
          validateFieldReferences scenarioId facts (dumpFields fields) := by
        induction fields with
        | nil => rfl
        | cons f fields ihfields =>
            obtain ⟨key, item⟩ := f
            obtain ⟨hitem, hrest⟩ := List.forall_mem_cons.mp ih
            rw [validateReferencesOfFields, dumpFields, List.map_cons, validateFieldReferences,
              hitem, ihfields hrest, dumpFields]
      rw [dump_object, validateReferences, ← isFactReference_dumpFields]
      split_ifs with hreference
      · rw [validateValueReferences_reference scenarioId facts hreference, referencedKey_dumpFields]
      · rw [validateValueReferences, if_neg hreference, hfields]

omit [DecidableEq F] in
/-- A loop that looks for what one of two checks finds. -/
lemma or_bind_ok_iff {x y : Except String Bool} {found : Bool} :
    (do let a ← x; return a || (← y)) = .ok found ↔
      ∃ a b, x = .ok a ∧ y = .ok b ∧ found = (a || b) := by
  cases x with
  | error e =>
      constructor
      · exact fun h => nomatch h
      · rintro ⟨_, _, h, -⟩
        cases h
  | ok a =>
      cases y with
      | error e =>
          constructor
          · exact fun h => nomatch h
          · rintro ⟨_, _, -, h, -⟩
            cases h
      | ok b =>
          constructor
          · exact fun h => ⟨a, b, rfl, rfl, (Except.ok.inj h).symm⟩
          · rintro ⟨a', b', ha, hb, rfl⟩
            rw [Except.ok.inj ha, Except.ok.inj hb]
            rfl

/-- What the check of the compiler says of a value. -/
def SaysReferences (v : JsonValue F) : Prop :=
  ∀ found, validateValueReferences scenarioId facts v = .ok found ↔
    (∀ r ∈ references v, Declared facts r) ∧ found = !(references v).isEmpty

lemma validateItemReferences_ok {items : List (JsonValue F)}
    (h : ∀ v ∈ items, SaysReferences scenarioId facts v) (found : Bool) :
    validateItemReferences scenarioId facts items = .ok found ↔
      (∀ r ∈ items.flatMap references, Declared facts r) ∧
        found = !(items.flatMap references).isEmpty := by
  induction items generalizing found with
  | nil => simp [validateItemReferences, eq_comm]
  | cons item items ih =>
      obtain ⟨hitem, hrest⟩ := List.forall_mem_cons.mp h
      have hempty : (!(references item ++ items.flatMap references).isEmpty) =
          (!(references item).isEmpty || !(items.flatMap references).isEmpty) := by
        cases references item <;> rfl
      rw [validateItemReferences, or_bind_ok_iff, List.flatMap_cons, List.forall_mem_append, hempty]
      constructor
      · rintro ⟨a, b, ha, hb, rfl⟩
        obtain ⟨hdeclared, rfl⟩ := (hitem a).mp ha
        obtain ⟨hdeclared', rfl⟩ := (ih hrest b).mp hb
        exact ⟨⟨hdeclared, hdeclared'⟩, rfl⟩
      · rintro ⟨⟨hdeclared, hdeclared'⟩, rfl⟩
        exact ⟨_, _, (hitem _).mpr ⟨hdeclared, rfl⟩, (ih hrest _).mpr ⟨hdeclared', rfl⟩,
          rfl⟩

lemma validateFieldReferences_eq (fields : List (PyString × JsonValue F)) :
    validateFieldReferences scenarioId facts fields =
      validateItemReferences scenarioId facts (fields.map Prod.snd) := by
  induction fields with
  | nil => rfl
  | cons f fields ih =>
      obtain ⟨key, item⟩ := f
      rw [validateFieldReferences, List.map_cons, validateItemReferences, ih]

/-- **The check of the compiler**: it accepts a value iff the keys of all its references are
declared, and then says whether there are any. -/
lemma validateValueReferences_ok (v : JsonValue F) : SaysReferences scenarioId facts v := by
  induction v using Json.Value.ind with
  | hatom a =>
      intro found
      simp [validateValueReferences, references, eq_comm]
  | harray items ih =>
      intro found
      rw [validateValueReferences, references_array, validateItemReferences_ok scenarioId facts ih]
  | hobject fields ih =>
      intro found
      by_cases hreference : isFactReference fields = true
      · rw [validateValueReferences_reference scenarioId facts hreference,
          references_reference hreference, List.forall_mem_singleton, declared_iff, validateKey]
        split_ifs with hdeclared <;> simp [hdeclared, eq_comm]
      · have hitems : ∀ v ∈ fields.map Prod.snd, SaysReferences scenarioId facts v := by
          intro v hv
          obtain ⟨f, hf, rfl⟩ := List.mem_map.mp hv
          exact ih f hf
        have hflat : (fields.map Prod.snd).flatMap references =
            fields.flatMap fun f => references f.2 := List.flatMap_map ..
        rw [validateValueReferences, if_neg hreference, references_object hreference,
          validateFieldReferences_eq, validateItemReferences_ok scenarioId facts hitems, hflat]

end

/-! ### The replacement of the interpreter (`testkit/scenario_script.py`) -/

section

variable (repr : JsonValue F → String) (snapshot : FactProjection (JsonValue F))
  (step : ScenarioStep F)

omit [DecidableEq F] in
/-- The fact a reference reads: authoritative facts hide claims. -/
def factOf (r : List (PyString × JsonValue F)) : Option (JsonValue F) :=
  let key := (referencedKey r).getD "None"
  (snapshot.authoritative.lookup key).or (snapshot.claims.lookup key)

omit [DecidableEq F] in
/-- The `path` of a reference, if there is something to go through in it: a list, a string, a
dictionary, or no path at all. -/
def pathOf (r : List (PyString × JsonValue F)) : Option (List (JsonValue F)) :=
  pathParts (r.lookup (codePoints "path"))

omit [DecidableEq F] in
/-- The value a reference reads. -/
def readReference (r : List (PyString × JsonValue F)) : Option (JsonValue F) := do
  followPath (← factOf snapshot r) (← pathOf r)

/-- The errors of a reference whose fact or path is not there yet. -/
inductive NotAvailable (repr : JsonValue F → String) (step : ScenarioStep F) :
    ScenarioRunError → Prop
  | fact (key : String) :
      NotAvailable repr step (.rejected step.description s!"fact is not available yet: {key}")
  | path (key : String) (parts : List (JsonValue F)) :
      NotAvailable repr step (.rejected step.description
        (s!"fact path is unavailable: {key} " ++ repr (.array parts)))

omit [DecidableEq F] in
lemma resolveReference_eq (r : List (PyString × JsonValue F)) :
    resolveReference repr snapshot step r =
      let key := (referencedKey r).getD "None"
      match factOf snapshot r with
      | none => .error (.rejected step.description s!"fact is not available yet: {key}")
      | some value =>
          match pathOf r with
          | none => .error (.other "TypeError: object is not iterable")
          | some parts =>
              match followPath value parts with
              | some resolved => .ok resolved
              | none => .error (.rejected step.description
                  (s!"fact path is unavailable: {key} " ++
                    repr (.array parts))) := rfl

omit [DecidableEq F] in
/-- A reference is read, or its fact or path is not there, or its path cannot be gone through. -/
lemma resolveReference_cases (r : List (PyString × JsonValue F)) :
    (∃ value, readReference snapshot r = some value ∧
        resolveReference repr snapshot step r = .ok value) ∨
      (readReference snapshot r = none ∧ (factOf snapshot r = none ∨ (pathOf r).isSome) ∧
        ∃ e, resolveReference repr snapshot step r = .error e ∧ NotAvailable repr step e) ∨
      (readReference snapshot r = none ∧ (factOf snapshot r).isSome ∧ pathOf r = none ∧
        resolveReference repr snapshot step r = .error (.other "TypeError: object is not iterable"))
    := by
  rw [resolveReference_eq, readReference]
  cases hfact : factOf snapshot r with
  | none => exact .inr (.inl ⟨rfl, .inl rfl, _, rfl, .fact _⟩)
  | some value =>
      cases hpath : pathOf r with
      | none => exact .inr (.inr ⟨rfl, rfl, rfl, rfl⟩)
      | some parts =>
          cases hfollow : followPath value parts with
          | some resolved => exact .inl ⟨resolved, hfollow, by simp [hfollow]⟩
          | none => exact .inr (.inl ⟨hfollow, .inr rfl, _, by simp only [hfollow],
              .path ((referencedKey r).getD "None") parts⟩)

/-- The outcome of a computation, without its result. -/
def outcome {ε α : Type} (x : Except ε α) : Except ε Unit := x.map fun _ => ()

lemma outcome_seq {ε α β γ : Type} {x : Except ε α} {y : Except ε β} {f : α → β → γ} :
    outcome (do let a ← x; let b ← y; return f a b) = (do outcome x; outcome y) := by
  cases x with
  | error e => rfl
  | ok a => cases y <;> rfl

lemma forM_append {ε α : Type} (check : α → Except ε PUnit) (l l' : List α) :
    (l ++ l').forM check = (do l.forM check; l'.forM check) := by
  induction l with
  | nil => rfl
  | cons a l ih =>
      have hcons : ∀ rest : List α, (a :: rest).forM check = (do check a; rest.forM check) :=
        fun _ => rfl
      rw [List.cons_append, hcons, hcons, ih]
      cases check a <;> rfl

/-- What the interpreter makes of a value, as far as errors go: it reads the references one after
the other. -/
def ReadsReferences (v : JsonValue F) : Prop :=
  outcome (resolve repr snapshot step v) =
    (references v).forM fun r => outcome (resolveReference repr snapshot step r)

lemma resolveItems_outcome {items : List (JsonValue F)}
    (h : ∀ v ∈ items, ReadsReferences repr snapshot step v) :
    outcome (resolveItems repr snapshot step items) =
      (items.flatMap references).forM fun r => outcome (resolveReference repr snapshot step r) := by
  induction items with
  | nil => rfl
  | cons item items ih =>
      obtain ⟨hitem, hrest⟩ := List.forall_mem_cons.mp h
      rw [resolveItems, outcome_seq, List.flatMap_cons, forM_append, hitem, ih hrest]

lemma resolveFields_outcome (fields : List (PyString × JsonValue F)) :
    outcome (resolveFields repr snapshot step fields) =
      outcome (resolveItems repr snapshot step (fields.map Prod.snd)) := by
  induction fields with
  | nil => rfl
  | cons f fields ih =>
      obtain ⟨key, item⟩ := f
      rw [resolveFields, List.map_cons, resolveItems, outcome_seq, outcome_seq, ih]

/-- **The interpreter** fails where the first reference that cannot be read does. -/
lemma resolve_outcome (v : JsonValue F) : ReadsReferences repr snapshot step v := by
  have hmap : ∀ {α β : Type} (x : Except ScenarioRunError α) (f : α → β),
      outcome (do return f (← x)) = outcome x := by
    intro α β x f
    cases x <;> rfl
  rw [ReadsReferences]
  induction v using Json.Value.ind with
  | hatom a => rfl
  | harray items ih =>
      rw [resolve, hmap, references_array, resolveItems_outcome repr snapshot step ih]
  | hobject fields ih =>
      by_cases hreference : isFactReference fields = true
      · rw [resolve, if_pos hreference, references_reference hreference]
        have hone : ∀ x : Except ScenarioRunError Unit, (do x; pure ()) = x := by
          intro x
          cases x <;> rfl
        exact (hone _).symm
      · have hitems : ∀ v ∈ fields.map Prod.snd, ReadsReferences repr snapshot step v := by
          intro v hv
          obtain ⟨f, hf, rfl⟩ := List.mem_map.mp hv
          exact ih f hf
        rw [resolve, if_neg hreference, hmap, references_object hreference,
          resolveFields_outcome, resolveItems_outcome repr snapshot step hitems, List.flatMap_map]

lemma replaceItems_eq (f : List (PyString × JsonValue F) → JsonValue F)
    (items : List (JsonValue F)) : replaceItems f items = items.map (replaceReferences f) := by
  induction items with
  | nil => rfl
  | cons item items ih => rw [replaceItems, ih, List.map_cons]

lemma replaceFields_eq (f : List (PyString × JsonValue F) → JsonValue F)
    (fields : List (PyString × JsonValue F)) :
    replaceFields f fields = fields.map fun g => (g.1, replaceReferences f g.2) := by
  induction fields with
  | nil => rfl
  | cons g fields ih =>
      obtain ⟨key, item⟩ := g
      rw [replaceFields, ih, List.map_cons]

/-- Where there are no references nothing is replaced. -/
lemma replaceReferences_none (f : List (PyString × JsonValue F) → JsonValue F) {v : JsonValue F}
    (h : references v = []) : replaceReferences f v = v := by
  induction v using Json.Value.ind with
  | hatom a => rfl
  | harray items ih =>
      rw [references_array, List.flatMap_eq_nil_iff] at h
      have hitems : items.map (replaceReferences f) = items.map id :=
        List.map_congr_left fun v hv => ih v hv (h v hv)
      rw [replaceReferences, replaceItems_eq, hitems, List.map_id]
  | hobject fields ih =>
      by_cases hreference : isFactReference fields = true
      · rw [references_reference hreference] at h
        cases h
      · rw [references_object hreference, List.flatMap_eq_nil_iff] at h
        have hfields : fields.map (fun g => (g.1, replaceReferences f g.2)) = fields.map id := by
          refine List.map_congr_left fun g hg => ?_
          rw [ih g hg (h g hg)]
          rfl
        rw [replaceReferences, if_neg hreference, replaceFields_eq, hfields, List.map_id]

/-- The value a reference reads, or nothing. -/
def readOrNull (r : List (PyString × JsonValue F)) : JsonValue F :=
  (readReference snapshot r).getD (.atom .null)

lemma resolveItems_replaced {items out : List (JsonValue F)}
    (h : ∀ v ∈ items, ∀ w, resolve repr snapshot step v = .ok w →
      w = replaceReferences (readOrNull snapshot) v)
    (hout : resolveItems repr snapshot step items = .ok out) :
    out = replaceItems (readOrNull snapshot) items := by
  induction items generalizing out with
  | nil => exact (Except.ok.inj hout).symm
  | cons item items ih =>
      obtain ⟨hitem, hrest⟩ := List.forall_mem_cons.mp h
      rw [resolveItems] at hout
      obtain ⟨w, hw, hout⟩ := ok_of_bind hout
      obtain ⟨ws, hws, hout⟩ := ok_of_bind hout
      rw [← Except.ok.inj hout, replaceItems, hitem w hw, ih hrest hws]

lemma resolveFields_replaced {fields out : List (PyString × JsonValue F)}
    (h : ∀ f ∈ fields, ∀ w, resolve repr snapshot step f.2 = .ok w →
      w = replaceReferences (readOrNull snapshot) f.2)
    (hout : resolveFields repr snapshot step fields = .ok out) :
    out = replaceFields (readOrNull snapshot) fields := by
  induction fields generalizing out with
  | nil => exact (Except.ok.inj hout).symm
  | cons f fields ih =>
      obtain ⟨key, item⟩ := f
      obtain ⟨hitem, hrest⟩ := List.forall_mem_cons.mp h
      rw [resolveFields] at hout
      obtain ⟨w, hw, hout⟩ := ok_of_bind hout
      obtain ⟨ws, hws, hout⟩ := ok_of_bind hout
      rw [← Except.ok.inj hout, replaceFields, hitem w hw, ih hrest hws]

/-- What the interpreter returns is the value with each reference replaced by what it reads. -/
lemma resolve_replaced (v : JsonValue F) :
    ∀ w, resolve repr snapshot step v = .ok w →
      w = replaceReferences (readOrNull snapshot) v := by
  induction v using Json.Value.ind with
  | hatom a => exact fun w hw => (Except.ok.inj hw).symm
  | harray items ih =>
      intro w hw
      rw [resolve] at hw
      obtain ⟨ws, hws, hw⟩ := ok_of_bind hw
      rw [← Except.ok.inj hw, replaceReferences, resolveItems_replaced repr snapshot step ih hws]
  | hobject fields ih =>
      intro w hw
      rw [resolve] at hw
      rw [replaceReferences]
      split_ifs at hw ⊢ with hreference
      · obtain ⟨value, hread, hvalue⟩ | ⟨-, -, e, he, -⟩ | ⟨-, -, -, he⟩ :=
          resolveReference_cases repr snapshot step fields
        · rw [readOrNull, hread]
          exact Except.ok.inj (hw.symm.trans hvalue)
        · rw [he] at hw
          cases hw
        · rw [he] at hw
          cases hw
      · obtain ⟨ws, hws, hw⟩ := ok_of_bind hw
        rw [← Except.ok.inj hw, resolveFields_replaced repr snapshot step ih hws]

/-- Without references a value is returned unchanged. -/
lemma resolve_none {v : JsonValue F} (h : references v = []) :
    resolve repr snapshot step v = .ok v := by
  have houtcome := resolve_outcome repr snapshot step v
  rw [ReadsReferences, h] at houtcome
  cases hw : resolve repr snapshot step v with
  | error e =>
      rw [hw] at houtcome
      cases houtcome
  | ok w => rw [resolve_replaced repr snapshot step v w hw, replaceReferences_none _ h]

end

end

/-! ### The two together -/

/-- A sequence of checks fails where the first that fails does. -/
lemma forM_error_iff {ε α : Type} {l : List α} {check : α → Except ε PUnit} {e : ε} :
    l.forM check = .error e ↔ ∃ before a after, l = before ++ a :: after ∧
      (∀ b ∈ before, check b = .ok ()) ∧ check a = .error e := by
  induction l with
  | nil =>
      constructor
      · exact fun h => nomatch h
      · rintro ⟨before, a, after, h, -⟩
        simp at h
  | cons first l ih =>
      have hcons : (first :: l).forM check = (do check first; l.forM check) := rfl
      rw [hcons]
      cases hfirst : check first with
      | error e' =>
          constructor
          · rintro ⟨⟩
            exact ⟨[], first, l, rfl, fun _ hb => absurd hb List.not_mem_nil, hfirst⟩
          · rintro ⟨before, a, after, h, hbefore, ha⟩
            cases before with
            | nil =>
                obtain ⟨rfl, rfl⟩ := List.cons.inj h
                exact hfirst.symm.trans ha
            | cons b before =>
                obtain ⟨rfl, -⟩ := List.cons.inj h
                have hok := hbefore first List.mem_cons_self
                rw [hfirst] at hok
                cases hok
      | ok u =>
          refine ih.trans ⟨?_, ?_⟩
          · rintro ⟨before, a, after, rfl, hbefore, ha⟩
            exact ⟨first :: before, a, after, rfl,
              List.forall_mem_cons.mpr ⟨hfirst, hbefore⟩, ha⟩
          · rintro ⟨before, a, after, h, hbefore, ha⟩
            cases before with
            | nil =>
                obtain ⟨rfl, rfl⟩ := List.cons.inj h
                rw [hfirst] at ha
                cases ha
            | cons b before =>
                obtain ⟨rfl, rfl⟩ := List.cons.inj h
                exact ⟨before, a, after, rfl, (List.forall_mem_cons.mp hbefore).2, ha⟩

lemma outcome_error_iff {ε α : Type} {x : Except ε α} {e : ε} :
    outcome x = .error e ↔ x = .error e := by
  cases x with
  | error e' => simp [outcome, Except.map]
  | ok a => simp [outcome, Except.map]

section

variable [DecidableEq F]

/-- Every reference that the interpreter comes to, and whose fact is there, has a path that can be
gone through. -/
def ReachesPaths (snapshot : FactProjection (JsonValue F)) (v : JsonValue F) : Prop :=
  ∀ before r after, references v = before ++ r :: after →
    (∀ r' ∈ before, (readReference snapshot r').isSome) → (factOf snapshot r).isSome →
    (pathOf r).isSome

variable (repr : JsonValue F → String) (snapshot : FactProjection (JsonValue F))
  (step : ScenarioStep F)

omit [DecidableEq F] in
lemma outcome_resolveReference_ok_iff {r : List (PyString × JsonValue F)} :
    outcome (resolveReference repr snapshot step r) = .ok () ↔
      (readReference snapshot r).isSome := by
  obtain ⟨value, hread, hvalue⟩ | ⟨hread, -, e, he, -⟩ | ⟨hread, -, -, he⟩ :=
    resolveReference_cases repr snapshot step r
  · simp [hread, hvalue, outcome, Except.map]
  · simp [hread, he, outcome, Except.map]
  · simp [hread, he, outcome, Except.map]

/-- The interpreter fails only for what is not there yet, iff the paths it comes to can be gone
through. -/
lemma resolve_error_iff (v : JsonValue F) :
    (∀ e, resolve repr snapshot step v = .error e → NotAvailable repr step e) ↔
      ReachesPaths snapshot v := by
  have herror : ∀ e, resolve repr snapshot step v = .error e ↔
      ∃ before r after, references v = before ++ r :: after ∧
        (∀ r' ∈ before, (readReference snapshot r').isSome) ∧
        resolveReference repr snapshot step r = .error e := by
    intro e
    rw [← outcome_error_iff, resolve_outcome repr snapshot step v, forM_error_iff]
    simp only [outcome_resolveReference_ok_iff, outcome_error_iff]
  constructor
  · intro h before r after hsplit hbefore hfact
    obtain ⟨value, hread, -⟩ | ⟨-, hpath, -⟩ | ⟨-, -, -, he⟩ :=
      resolveReference_cases repr snapshot step r
    · rw [readReference] at hread
      obtain ⟨_, -, hread⟩ := Option.bind_eq_some_iff.mp hread
      obtain ⟨parts, hparts, -⟩ := Option.bind_eq_some_iff.mp hread
      rw [hparts]
      rfl
    · refine hpath.resolve_left fun hnone => ?_
      rw [hnone] at hfact
      cases hfact
    · have hother := h _ ((herror _).mpr ⟨before, r, after, hsplit, hbefore, he⟩)
      cases hother
  · intro h e he
    obtain ⟨before, r, after, hsplit, hbefore, he⟩ := (herror e).mp he
    obtain ⟨value, -, hvalue⟩ | ⟨-, -, e', he', havailable⟩ | ⟨-, hfact, hpath, -⟩ :=
      resolveReference_cases repr snapshot step r
    · rw [hvalue] at he
      cases he
    · obtain rfl := Except.error.inj (he'.symm.trans he)
      exact havailable
    · have hsome := h before r after hsplit hbefore hfact
      rw [hpath] at hsome
      cases hsome

end

/-- **References in the compiler and in the interpreter.**  For every value of a scenario: if the
compiler finds no references in it, the interpreter returns its dump unchanged, from every snapshot;
and if it finds some, all that the interpreter replaces are references to declared facts, and it
fails only because a fact or a path is not there yet.  This holds exactly of the values that the
compiler refuses for a reference to an unknown fact, and of those where each reference that the
interpreter comes to, its fact being there, has a path that is no number, boolean or null. -/
theorem scenario_references_iff [DecidableEq F] (scenarioId : String)
    (facts : List (String × Fact)) (v : ScenarioData F) :
    ((validateReferences scenarioId facts v = .ok false →
        ∀ (repr : JsonValue F → String) (snapshot : FactProjection (JsonValue F))
          (step : ScenarioStep F), resolve repr snapshot step (dump v) = .ok (dump v)) ∧
      (validateReferences scenarioId facts v = .ok true →
        (∀ r ∈ references (dump v), Declared facts r) ∧
        ∀ (repr : JsonValue F → String) (snapshot : FactProjection (JsonValue F))
          (step : ScenarioStep F),
          (∀ w, resolve repr snapshot step (dump v) = .ok w →
            w = replaceReferences (readOrNull snapshot) (dump v)) ∧
          ∀ e, resolve repr snapshot step (dump v) = .error e → NotAvailable repr step e)) ↔
      ((∃ r ∈ references (dump v), ¬ Declared facts r) ∨
        ∀ snapshot, ReachesPaths snapshot (dump v)) := by
  rw [validateReferences_dump]
  have hstates := validateValueReferences_ok scenarioId facts (dump v)
  constructor
  · rintro ⟨-, htrue⟩
    by_cases hdeclared : ∀ r ∈ references (dump v), Declared facts r
    · right
      intro snapshot before r after hsplit
      have hfound : validateValueReferences scenarioId facts (dump v) = .ok true :=
        (hstates true).mpr ⟨hdeclared, by rw [hsplit]; simp⟩
      -- any step and any texts of values will do
      let step : ScenarioStep F := ⟨"", .complete⟩
      have herrors := ((htrue hfound).2 (fun _ => "") snapshot step).2
      exact (resolve_error_iff (fun _ => "") snapshot step (dump v)).mp herrors before r after hsplit
    · left
      simpa using hdeclared
  · intro hcondition
    refine ⟨fun hfalse repr snapshot step => ?_, fun htrue => ?_⟩
    · have hnone := ((hstates false).mp hfalse).2
      refine resolve_none repr snapshot step ?_
      simpa using hnone
    · have hdeclared := ((hstates true).mp htrue).1
      refine ⟨hdeclared, fun repr snapshot step => ⟨resolve_replaced repr snapshot step _, ?_⟩⟩
      obtain ⟨r, hr, hundeclared⟩ | hpaths := hcondition
      · exact absurd (hdeclared r hr) hundeclared
      · exact (resolve_error_iff repr snapshot step _).mpr (hpaths snapshot)

end

/-! ### A path that is a number -/

/-- A reference to the address of a customer, with a number for its path. -/
def numberedReference : ScenarioData Empty :=
  .object [(codePoints "type", .atom (.json (.string (codePoints "fact")))),
    (codePoints "fact_key", .atom (.json (.string (codePoints "customer.email")))),
    (codePoints "path", .atom (.json (.number (.int 0))))]

/-- The catalog of facts. -/
def emailCatalog : List (String × Fact) :=
  [("customer.email", ⟨"customer.email", [.authoritative]⟩)]

/-- The snapshot in which the address is known. -/
def knownEmail : FactProjection (JsonValue Empty) where
  authoritative := [("customer.email", .atom (.string (codePoints "a@b.c")))]

/-- **A path that is a number** passes the compiler, and the interpreter fails with an error of
Python. -/
theorem numbered_path_fails :
    validateReferences "order" emailCatalog numberedReference = .ok true ∧
      resolve (fun _ => "") knownEmail ⟨"a message", .complete⟩ (dump numberedReference) =
        .error (.other "TypeError: object is not iterable") ∧
      ¬ NotAvailable (F := Empty) (fun _ => "") ⟨"a message", .complete⟩
        (.other "TypeError: object is not iterable") := by
  refine ⟨by rfl, by rfl, fun h => ?_⟩
  cases h

end TiramisuAgents
