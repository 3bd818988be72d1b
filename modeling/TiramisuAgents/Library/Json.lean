import TiramisuAgents.Library.Dict

/-!
JSON values over any atoms and keys, and their agreement up to the order of keys.

* `Value`, `Value.ind`: a value is an atom, an array, or an object that lists its fields.
* `Value.WellFormed`: no object repeats a key.
* `Value.map`, `Value.bind`: atoms replaced by atoms, or by values.
* `Value.agree`: the same structure, with atoms that are related; `agree_map`, `agree_and`.
* `Value.same`: the same value up to the order of keys; `all_of_same_map` is about atoms that
  are replaced for good.
-/

namespace Json

/-! ### Values -/

/-- A value over keys `K` and atoms `A`. -/
inductive Value (K A : Type) where
  | atom (a : A)
  | array (items : List (Value K A))
  | object (fields : List (K × Value K A))

namespace Value

variable {K A B : Type}

/-- Induction on a value: what holds of the items of an array, and of the values of the fields of an
object, has to pass to the array and the object. -/
@[elab_as_elim]
theorem ind {P : Value K A → Prop} (hatom : ∀ a, P (.atom a))
    (harray : ∀ items, (∀ v ∈ items, P v) → P (.array items))
    (hobject : ∀ fields, (∀ f ∈ fields, P f.2) → P (.object fields)) (v : Value K A) : P v :=
  @Value.rec K A P (fun items => ∀ v ∈ items, P v) (fun fields => ∀ f ∈ fields, P f.2)
    (fun f => P f.2) hatom harray hobject
    (fun _ h => absurd h List.not_mem_nil)
    (fun _ _ hv hitems => List.forall_mem_cons.mpr ⟨hv, hitems⟩)
    (fun _ h => absurd h List.not_mem_nil)
    (fun _ _ hf hfields => List.forall_mem_cons.mpr ⟨hf, hfields⟩)
    (fun _ _ hv => hv) v

mutual

/-- No object repeats a key. -/
def WellFormed : Value K A → Prop
  | .atom _ => True
  | .array items => WellFormedItems items
  | .object fields => (fields.map Prod.fst).Nodup ∧ WellFormedFields fields

/-- No item has an object that repeats a key. -/
def WellFormedItems : List (Value K A) → Prop
  | [] => True
  | v :: items => WellFormed v ∧ WellFormedItems items

/-- No field has an object that repeats a key. -/
def WellFormedFields : List (K × Value K A) → Prop
  | [] => True
  | (_, v) :: fields => WellFormed v ∧ WellFormedFields fields

end

@[simp] lemma wellFormed_array {items : List (Value K A)} :
    (array items).WellFormed ↔ ∀ v ∈ items, v.WellFormed := by
  rw [WellFormed]
  induction items with
  | nil => simp [WellFormedItems]
  | cons v items ih => rw [WellFormedItems, ih, List.forall_mem_cons]

@[simp] lemma wellFormed_object {fields : List (K × Value K A)} :
    (object fields).WellFormed ↔ (fields.map Prod.fst).Nodup ∧ ∀ f ∈ fields, f.2.WellFormed := by
  rw [WellFormed]
  refine and_congr Iff.rfl ?_
  induction fields with
  | nil => simp [WellFormedFields]
  | cons f fields ih =>
      obtain ⟨k, v⟩ := f
      rw [WellFormedFields, ih, List.forall_mem_cons]

section

variable [DecidableEq K]

mutual

/-- Whether keys are repeated can be decided. -/
def decideWellFormed : (v : Value K A) → Decidable v.WellFormed
  | .atom _ => .isTrue trivial
  | .array items => decideWellFormedItems items
  | .object fields =>
      @instDecidableAnd _ _ (inferInstanceAs (Decidable (fields.map Prod.fst).Nodup))
        (decideWellFormedFields fields)

/-- In the items. -/
def decideWellFormedItems : (items : List (Value K A)) → Decidable (WellFormedItems items)
  | [] => .isTrue trivial
  | v :: items => @instDecidableAnd _ _ (decideWellFormed v) (decideWellFormedItems items)

/-- In the fields. -/
def decideWellFormedFields : (fields : List (K × Value K A)) → Decidable (WellFormedFields fields)
  | [] => .isTrue trivial
  | (_, v) :: fields => @instDecidableAnd _ _ (decideWellFormed v) (decideWellFormedFields fields)

end

instance (v : Value K A) : Decidable v.WellFormed := decideWellFormed v

end

mutual

/-- A property of all atoms and a property of all keys. -/
def All (p : A → Prop) (q : K → Prop) : Value K A → Prop
  | .atom a => p a
  | .array items => AllItems p q items
  | .object fields => AllFields p q fields

/-- The properties of the items. -/
def AllItems (p : A → Prop) (q : K → Prop) : List (Value K A) → Prop
  | [] => True
  | v :: items => All p q v ∧ AllItems p q items

/-- The properties of the fields. -/
def AllFields (p : A → Prop) (q : K → Prop) : List (K × Value K A) → Prop
  | [] => True
  | (k, v) :: fields => (q k ∧ All p q v) ∧ AllFields p q fields

end

section

variable {p : A → Prop} {q : K → Prop}

@[simp] lemma all_atom {a : A} : (atom a : Value K A).All p q ↔ p a := by
  rw [All]

@[simp] lemma all_array {items : List (Value K A)} :
    (array items).All p q ↔ ∀ v ∈ items, v.All p q := by
  rw [All]
  induction items with
  | nil => simp [AllItems]
  | cons v items ih => rw [AllItems, ih, List.forall_mem_cons]

@[simp] lemma all_object {fields : List (K × Value K A)} :
    (object fields).All p q ↔ ∀ f ∈ fields, q f.1 ∧ f.2.All p q := by
  rw [All]
  induction fields with
  | nil => simp [AllFields]
  | cons f fields ih =>
      obtain ⟨k, v⟩ := f
      rw [AllFields, ih, List.forall_mem_cons]

end

section

variable {p p' : A → Prop} {q q' : K → Prop}

lemma All.mono {v : Value K A} (hv : v.All p q) (hp : ∀ a, p a → p' a) (hq : ∀ k, q k → q' k) :
    v.All p' q' := by
  induction v using ind with
  | hatom a => exact all_atom.mpr (hp a (all_atom.mp hv))
  | harray items ih =>
      exact all_array.mpr fun v hmem => ih v hmem (all_array.mp hv v hmem)
  | hobject fields ih =>
      refine all_object.mpr fun f hmem => ?_
      have hf := all_object.mp hv f hmem
      exact ⟨hq _ hf.1, ih f hmem hf.2⟩

lemma All.and {v : Value K A} (hv : v.All p q) (hv' : v.All p' q') :
    v.All (fun a => p a ∧ p' a) fun k => q k ∧ q' k := by
  induction v using ind with
  | hatom a => exact all_atom.mpr ⟨all_atom.mp hv, all_atom.mp hv'⟩
  | harray items ih =>
      exact all_array.mpr fun v hmem => ih v hmem (all_array.mp hv v hmem) (all_array.mp hv' v hmem)
  | hobject fields ih =>
      refine all_object.mpr fun f hmem => ?_
      have hf := all_object.mp hv f hmem
      have hf' := all_object.mp hv' f hmem
      exact ⟨⟨hf.1, hf'.1⟩, ih f hmem hf.2 hf'.2⟩

variable [DecidablePred p] [DecidablePred q]

mutual

/-- A property of all atoms and keys can be decided. -/
def decideAll : (v : Value K A) → Decidable (v.All p q)
  | .atom a => inferInstanceAs (Decidable (p a))
  | .array items => decideAllItems items
  | .object fields => decideAllFields fields

/-- Over the items. -/
def decideAllItems : (items : List (Value K A)) → Decidable (AllItems p q items)
  | [] => .isTrue trivial
  | v :: items => @instDecidableAnd _ _ (decideAll v) (decideAllItems items)

/-- Over the fields. -/
def decideAllFields : (fields : List (K × Value K A)) → Decidable (AllFields p q fields)
  | [] => .isTrue trivial
  | (_, v) :: fields =>
      @instDecidableAnd _ _ (@instDecidableAnd _ _ inferInstance (decideAll v))
        (decideAllFields fields)

end

instance (v : Value K A) : Decidable (v.All p q) := decideAll v

end

mutual

/-- The value with its atoms replaced. -/
def map (f : A → B) : Value K A → Value K B
  | .atom a => .atom (f a)
  | .array items => .array (mapItems f items)
  | .object fields => .object (mapFields f fields)

/-- The items with their atoms replaced. -/
def mapItems (f : A → B) : List (Value K A) → List (Value K B)
  | [] => []
  | v :: items => map f v :: mapItems f items

/-- The fields with their atoms replaced. -/
def mapFields (f : A → B) : List (K × Value K A) → List (K × Value K B)
  | [] => []
  | (k, v) :: fields => (k, map f v) :: mapFields f fields

end

lemma map_array {f : A → B} {items : List (Value K A)} :
    (array items).map f = array (items.map fun v => v.map f) := by
  rw [map]
  congr 1
  induction items with
  | nil => rfl
  | cons v items ih => rw [mapItems, ih, List.map_cons]

lemma map_object {f : A → B} {fields : List (K × Value K A)} :
    (object fields).map f = object (fields.map fun g => (g.1, g.2.map f)) := by
  rw [map]
  congr 1
  induction fields with
  | nil => rfl
  | cons g fields ih =>
      obtain ⟨k, v⟩ := g
      rw [mapFields, ih, List.map_cons]

/-- Atoms that are replaced by themselves. -/
lemma map_eq_self {f : A → A} {v : Value K A} (h : v.All (fun a => f a = a) fun _ => True) :
    v.map f = v := by
  induction v using ind with
  | hatom a =>
      rw [all_atom] at h
      rw [map, h]
  | harray items ih =>
      have hitems : items.map (fun v => v.map f) = items.map id :=
        List.map_congr_left fun v hv => ih v hv (all_array.mp h v hv)
      rw [map_array, hitems, List.map_id]
  | hobject fields ih =>
      have hfields : fields.map (fun g => (g.1, g.2.map f)) = fields.map id := by
        refine List.map_congr_left fun g hg => ?_
        rw [ih g hg (all_object.mp h g hg).2]
        rfl
      rw [map_object, hfields, List.map_id]

mutual

/-- The value with its atoms replaced by values. -/
def bind (f : A → Value K B) : Value K A → Value K B
  | .atom a => f a
  | .array items => .array (bindItems f items)
  | .object fields => .object (bindFields f fields)

/-- The items with their atoms replaced by values. -/
def bindItems (f : A → Value K B) : List (Value K A) → List (Value K B)
  | [] => []
  | v :: items => bind f v :: bindItems f items

/-- The fields with their atoms replaced by values. -/
def bindFields (f : A → Value K B) : List (K × Value K A) → List (K × Value K B)
  | [] => []
  | (k, v) :: fields => (k, bind f v) :: bindFields f fields

end

lemma bind_array {f : A → Value K B} {items : List (Value K A)} :
    (array items).bind f = array (items.map fun v => v.bind f) := by
  rw [bind]
  congr 1
  induction items with
  | nil => rfl
  | cons v items ih => rw [bindItems, ih, List.map_cons]

lemma bind_object {f : A → Value K B} {fields : List (K × Value K A)} :
    (object fields).bind f = object (fields.map fun g => (g.1, g.2.bind f)) := by
  rw [bind]
  congr 1
  induction fields with
  | nil => rfl
  | cons g fields ih =>
      obtain ⟨k, v⟩ := g
      rw [bindFields, ih, List.map_cons]

lemma WellFormed.map {f : A → B} {v : Value K A} (h : v.WellFormed) : (v.map f).WellFormed := by
  induction v using ind with
  | hatom a => trivial
  | harray items ih =>
      rw [map_array, wellFormed_array, List.forall_mem_map]
      exact fun v hv => ih v hv (wellFormed_array.mp h v hv)
  | hobject fields ih =>
      rw [map_object, wellFormed_object, List.forall_mem_map, List.map_map]
      exact ⟨(wellFormed_object.mp h).1, fun g hg => ih g hg ((wellFormed_object.mp h).2 g hg)⟩

lemma All.map {f : A → B} {p : A → Prop} {p' : B → Prop} {q : K → Prop} {v : Value K A}
    (h : v.All p q) (hf : ∀ a, p a → p' (f a)) : (v.map f).All p' q := by
  induction v using ind with
  | hatom a => exact all_atom.mpr (hf a (all_atom.mp h))
  | harray items ih =>
      rw [map_array, all_array, List.forall_mem_map]
      exact fun v hv => ih v hv (all_array.mp h v hv)
  | hobject fields ih =>
      rw [map_object, all_object, List.forall_mem_map]
      exact fun g hg => ⟨(all_object.mp h g hg).1, ih g hg (all_object.mp h g hg).2⟩

/-! ### Agreement up to the order of keys -/

section

variable [BEq K]

mutual

/-- The same structure with related atoms: arrays item by item, objects with the same keys field
by field. -/
def agree (r : A → B → Bool) : Value K A → Value K B → Bool
  | .atom a, .atom b => r a b
  | .array items, .array items' => agreeItems r items items'
  | .object fields, .object fields' =>
      fields.length == fields'.length && agreeFields r fields fields'
  | _, _ => false

/-- The items agree one by one. -/
def agreeItems (r : A → B → Bool) : List (Value K A) → List (Value K B) → Bool
  | [], [] => true
  | v :: items, w :: items' => agree r v w && agreeItems r items items'
  | _, _ => false

/-- Each field agrees with the other object's field of its key. -/
def agreeFields (r : A → B → Bool) : List (K × Value K A) → List (K × Value K B) → Bool
  | [], _ => true
  | (k, v) :: fields, fields' =>
      (match fields'.lookup k with
        | some w => agree r v w
        | none => false) && agreeFields r fields fields'

end

variable {r : A → B → Bool}

lemma agree_array {items : List (Value K A)} {items' : List (Value K B)} :
    (array items).agree r (array items') = true ↔
      items.length = items'.length ∧ ∀ p ∈ items.zip items', p.1.agree r p.2 = true := by
  rw [agree]
  induction items generalizing items' with
  | nil =>
      cases items' with
      | nil => simp [agreeItems]
      | cons w items' => simp [agreeItems]
  | cons v items ih =>
      cases items' with
      | nil => simp [agreeItems]
      | cons w items' =>
          rw [agreeItems, Bool.and_eq_true, ih, List.zip_cons_cons, List.forall_mem_cons,
            List.length_cons, List.length_cons, Nat.add_right_cancel_iff]
          exact and_left_comm

lemma agree_object {fields : List (K × Value K A)} {fields' : List (K × Value K B)} :
    (object fields).agree r (object fields') = true ↔
      fields.length = fields'.length ∧
        ∀ f ∈ fields, ∃ w, fields'.lookup f.1 = some w ∧ f.2.agree r w = true := by
  rw [agree, Bool.and_eq_true, beq_iff_eq]
  refine and_congr Iff.rfl ?_
  induction fields with
  | nil => simp [agreeFields]
  | cons f fields ih =>
      obtain ⟨k, v⟩ := f
      rw [agreeFields, Bool.and_eq_true, ih, List.forall_mem_cons]
      refine and_congr_left fun _ => ?_
      cases fields'.lookup k <;> simp

/-- Objects with the same two keys agree field by field. -/
lemma agree_pair [LawfulBEq K] {k l : K} (hkl : k ≠ l) {v w : Value K A} {v' w' : Value K B} :
    (object [(k, v), (l, w)]).agree r (object [(k, v'), (l, w')]) = true ↔
      v.agree r v' = true ∧ w.agree r w' = true := by
  have hlookup : [(k, v'), (l, w')].lookup l = some w' := by
    rw [List.lookup_cons, beq_eq_false_iff_ne.mpr hkl.symm, List.lookup_cons_self]
  rw [agree_object, List.forall_mem_cons, List.forall_mem_singleton, List.lookup_cons_self,
    hlookup]
  simp

/-- The same value up to the order of keys. -/
def same [DecidableEq A] (v w : Value K A) : Bool := v.agree (fun a b => decide (a = b)) w

/-- A value that is another with its atoms replaced for good has such atoms. -/
lemma all_of_same_map [DecidableEq A] {f : A → A} (hf : ∀ a, f (f a) = f a) {v w : Value K A}
    (h : v.same (w.map f) = true) : v.All (fun a => f a = a) fun _ => True := by
  rw [same] at h
  induction v using ind generalizing w with
  | hatom a =>
      cases w with
      | atom b =>
          rw [map, agree, decide_eq_true_eq] at h
          rw [all_atom, h, hf]
      | array items' => rw [map_array] at h; cases h
      | object fields' => rw [map_object] at h; cases h
  | harray items ih =>
      cases w with
      | atom b => rw [map] at h; cases h
      | array items' =>
          rw [map_array, agree_array] at h
          obtain ⟨hlength, hitems⟩ := h
          refine all_array.mpr fun v hv => ?_
          obtain ⟨i, hi, rfl⟩ := List.getElem_of_mem hv
          have hi' : i < items'.length := by simpa [hlength] using hi
          refine ih _ hv (w := items'[i]) (hitems (items[i], (items'[i]).map f) ?_)
          refine List.mem_iff_getElem.mpr ⟨i, by simpa using ⟨hi, hi'⟩, ?_⟩
          simp
      | object fields' => rw [map_object] at h; cases h
  | hobject fields ih =>
      cases w with
      | atom b => rw [map] at h; cases h
      | array items' => rw [map_array] at h; cases h
      | object fields' =>
          rw [map_object, agree_object] at h
          refine all_object.mpr fun g hg => ⟨trivial, ?_⟩
          obtain ⟨w, hw, hagree⟩ := h.2 g hg
          rw [Dict.lookup_mapValues] at hw
          obtain ⟨w', -, rfl⟩ := Option.map_eq_some_iff.mp hw
          exact ih g hg hagree

end

end Value

end Json
