import Mathlib.Data.List.Sort
import TiramisuAgents.Library.Json

/-!
Canonical texts of JSON values: the fields of each object sorted by key.

* `Format`, `Format.text`: the texts of atoms and keys and the punctuation, and the text of a value.
* `Format.Readable`: atoms and keys can be told apart in a text.
* `intercalate_inj`: so can the entries of an array or object.
* `Readable.text_eq_iff`: two values have the same text iff they are the same up to the order of
  keys.
* `forall_mem_text`: what holds of every letter of a text.
-/

namespace Json

/-- The texts of atoms and keys, and the punctuation. -/
structure Format (K A C : Type) where
  atom : A → List C
  key : K → List C
  comma : C
  colon : C
  openArray : C
  closeArray : C
  openObject : C
  closeObject : C

namespace Format

variable {K A C : Type} [LinearOrder K] (F : Format K A C)

/-- Fields in the order of their keys. -/
def sortFields (fields : List (K × List C)) : List (K × List C) :=
  fields.insertionSort fun f g => f.1 ≤ g.1

omit [LinearOrder K] in
/-- The text of a field. -/
def entry (f : K × List C) : List C := F.key f.1 ++ F.colon :: f.2

mutual

/-- The canonical text of a value. -/
def text : Value K A → List C
  | .atom a => F.atom a
  | .array items =>
      F.openArray :: (List.intercalate [F.comma] (itemTexts items) ++ [F.closeArray])
  | .object fields =>
      F.openObject ::
        (List.intercalate [F.comma] ((sortFields (fieldTexts fields)).map F.entry)
          ++ [F.closeObject])

/-- The texts of the items. -/
def itemTexts : List (Value K A) → List (List C)
  | [] => []
  | v :: items => text v :: itemTexts items

/-- The keys of the fields, with the texts of their values. -/
def fieldTexts : List (K × Value K A) → List (K × List C)
  | [] => []
  | (k, v) :: fields => (k, text v) :: fieldTexts fields

end

lemma itemTexts_eq (items : List (Value K A)) : F.itemTexts items = items.map F.text := by
  induction items with
  | nil => rfl
  | cons v items ih => rw [itemTexts, ih, List.map_cons]

lemma fieldTexts_eq (fields : List (K × Value K A)) :
    F.fieldTexts fields = fields.map fun f => (f.1, F.text f.2) := by
  induction fields with
  | nil => rfl
  | cons f fields ih =>
      obtain ⟨k, v⟩ := f
      rw [fieldTexts, ih, List.map_cons]

lemma mem_sortFields {fields : List (K × List C)} {f : K × List C} :
    f ∈ sortFields fields ↔ f ∈ fields :=
  (List.perm_insertionSort _ fields).mem_iff

/-! ### Telling entries apart -/

omit [LinearOrder K] in
/-- The letters that may follow the text of a value. -/
def Ends (u : List C) : Prop :=
  ∀ c ∈ u.head?, c = F.comma ∨ c = F.closeArray ∨ c = F.closeObject

/-- The texts of atoms and keys with a property can be told apart in a text: an atom from what
follows it, a key from anything, and both from the ends of arrays and objects. -/
structure Readable (p : A → Prop) (q : K → Prop) : Prop where
  comma_closeArray : F.comma ≠ F.closeArray
  comma_closeObject : F.comma ≠ F.closeObject
  openArray_openObject : F.openArray ≠ F.openObject
  openArray_closeArray : F.openArray ≠ F.closeArray
  openObject_closeArray : F.openObject ≠ F.closeArray
  atom_head : ∀ a, p a → ∃ c rest, F.atom a = c :: rest ∧
    c ≠ F.openArray ∧ c ≠ F.openObject ∧ c ≠ F.closeArray
  atom_inj : ∀ a b u u', p a → p b → F.Ends u → F.Ends u' → F.atom a ++ u = F.atom b ++ u' → a = b
  key_head : ∀ k, q k → ∃ c rest, F.key k = c :: rest ∧ c ≠ F.closeObject
  key_inj : ∀ k l u u', q k → q l → F.key k ++ u = F.key l ++ u' → k = l

variable {F} {p : A → Prop} {q : K → Prop}

omit [LinearOrder K] in
/-- The first entry of a sequence is followed by an end. -/
lemma exists_tail {close : C} (hclose : ∀ u, F.Ends (close :: u)) (x : List C) (X : List (List C))
    (u : List C) :
    ∃ v, F.Ends v ∧ List.intercalate [F.comma] (x :: X) ++ close :: u = x ++ v := by
  cases X with
  | nil => exact ⟨close :: u, hclose u, by rw [List.intercalate_singleton]⟩
  | cons y Y =>
      refine ⟨F.comma :: (List.intercalate [F.comma] (y :: Y) ++ close :: u), ?_, ?_⟩
      · exact fun c hc => .inl (Option.some_inj.mp hc).symm
      · rw [List.intercalate_cons_cons, List.append_assoc, List.append_assoc]
        rfl

omit [LinearOrder K] in
/-- Entries that differ from the end and can be told apart one by one, can be told apart in a
sequence. -/
lemma intercalate_inj {close : C} {X Y : List (List C)} {u u' : List C}
    (hcomma : F.comma ≠ close) (hclose : ∀ u, F.Ends (close :: u))
    (hX : ∀ x ∈ X, ∃ c rest, x = c :: rest ∧ c ≠ close)
    (hY : ∀ y ∈ Y, ∃ c rest, y = c :: rest ∧ c ≠ close)
    (hinj : ∀ x ∈ X, ∀ y ∈ Y, ∀ v v', F.Ends v → F.Ends v' → x ++ v = y ++ v' → x = y)
    (h : List.intercalate [F.comma] X ++ close :: u = List.intercalate [F.comma] Y ++ close :: u') :
    X = Y ∧ u = u' := by
  induction X generalizing Y with
  | nil =>
      cases Y with
      | nil => exact ⟨rfl, by simpa using h⟩
      | cons y Y =>
          obtain ⟨c, rest, rfl, hc⟩ := hY _ List.mem_cons_self
          obtain ⟨v, -, hv⟩ := exists_tail (F := F) hclose (c :: rest) Y u'
          rw [hv] at h
          exact absurd (List.cons.inj h).1.symm hc
  | cons x X ih =>
      cases Y with
      | nil =>
          obtain ⟨c, rest, rfl, hc⟩ := hX _ List.mem_cons_self
          obtain ⟨v, -, hv⟩ := exists_tail (F := F) hclose (c :: rest) X u
          rw [hv] at h
          exact absurd (List.cons.inj h).1 hc
      | cons y Y =>
          have hxy : x = y := by
            obtain ⟨v, hends, hv⟩ := exists_tail (F := F) hclose x X u
            obtain ⟨v', hends', hv'⟩ := exists_tail (F := F) hclose y Y u'
            rw [hv, hv'] at h
            exact hinj x List.mem_cons_self y List.mem_cons_self v v' hends hends' h
          subst hxy
          cases X with
          | nil =>
              cases Y with
              | nil => exact ⟨rfl, by simpa using h⟩
              | cons y Y =>
                  rw [List.intercalate_singleton, List.intercalate_cons_cons, List.append_assoc,
                    List.append_assoc, List.append_cancel_left_eq] at h
                  exact absurd (List.cons.inj h).1.symm hcomma
          | cons x' X =>
              cases Y with
              | nil =>
                  rw [List.intercalate_singleton, List.intercalate_cons_cons, List.append_assoc,
                    List.append_assoc, List.append_cancel_left_eq] at h
                  exact absurd (List.cons.inj h).1 hcomma
              | cons y Y =>
                  rw [List.intercalate_cons_cons, List.intercalate_cons_cons] at h
                  simp only [List.append_assoc, List.append_cancel_left_eq] at h
                  obtain ⟨hrest, hu⟩ := ih (fun z hz => hX z (List.mem_cons_of_mem _ hz))
                    (fun z hz => hY z (List.mem_cons_of_mem _ hz))
                    (fun z hz w hw => hinj z (List.mem_cons_of_mem _ hz) w
                      (List.mem_cons_of_mem _ hw)) h
                  exact ⟨by rw [hrest], hu⟩

/-! ### Telling values apart -/

lemma text_array (items : List (Value K A)) :
    F.text (.array items) =
      F.openArray :: (List.intercalate [F.comma] (items.map F.text) ++ [F.closeArray]) := by
  rw [text, itemTexts_eq]

/-- The entries of an object in its text. -/
def entries (F : Format K A C) (fields : List (K × Value K A)) : List (List C) :=
  (sortFields (fields.map fun f => (f.1, F.text f.2))).map F.entry

lemma text_object (fields : List (K × Value K A)) :
    F.text (.object fields) =
      F.openObject :: (List.intercalate [F.comma] (F.entries fields) ++ [F.closeObject]) := by
  rw [text, fieldTexts_eq, entries]

lemma mem_entries {fields : List (K × Value K A)} {x : List C} :
    x ∈ F.entries fields ↔ ∃ f ∈ fields, F.key f.1 ++ F.colon :: F.text f.2 = x := by
  rw [entries, List.mem_map]
  simp only [mem_sortFields, List.mem_map, entry]
  constructor
  · rintro ⟨_, ⟨f, hf, rfl⟩, rfl⟩
    exact ⟨f, hf, rfl⟩
  · rintro ⟨f, hf, rfl⟩
    exact ⟨_, ⟨f, hf, rfl⟩, rfl⟩

lemma length_entries (fields : List (K × Value K A)) :
    (F.entries fields).length = fields.length := by
  rw [entries, List.length_map, sortFields, List.length_insertionSort, List.length_map]

omit [LinearOrder K] in
lemma ends_closeArray (u : List C) : F.Ends (F.closeArray :: u) :=
  fun _ hc => .inr (.inl (Option.some_inj.mp hc).symm)

omit [LinearOrder K] in
lemma ends_closeObject (u : List C) : F.Ends (F.closeObject :: u) :=
  fun _ hc => .inr (.inr (Option.some_inj.mp hc).symm)

namespace Readable

variable (hF : F.Readable p q)
include hF

/-- A text does not begin with the end of an array. -/
lemma text_head {v : Value K A} (hv : v.All p q) :
    ∃ c rest, F.text v = c :: rest ∧ c ≠ F.closeArray := by
  cases v with
  | atom a =>
      obtain ⟨c, rest, hc, -, -, hclose⟩ := hF.atom_head a (Value.all_atom.mp hv)
      exact ⟨c, rest, by rw [text, hc], hclose⟩
  | array items => exact ⟨_, _, text_array items, hF.openArray_closeArray⟩
  | object fields => exact ⟨_, _, text_object fields, hF.openObject_closeArray⟩

/-- Nor does an entry begin with the end of an object. -/
lemma entry_head {fields : List (K × Value K A)} (hfields : (Value.object fields).All p q)
    {x : List C} (hx : x ∈ F.entries fields) : ∃ c rest, x = c :: rest ∧ c ≠ F.closeObject := by
  obtain ⟨f, hf, rfl⟩ := mem_entries.mp hx
  obtain ⟨c, rest, hc, hclose⟩ := hF.key_head f.1 (Value.all_object.mp hfields f hf).1
  exact ⟨c, rest ++ F.colon :: F.text f.2, by rw [hc]; rfl, hclose⟩

/-- Entries with the same text up to what follows have the same key. -/
lemma entry_key {f g : K × Value K A} {u u' : List C} (hf : q f.1) (hg : q g.1)
    (h : F.key f.1 ++ F.colon :: F.text f.2 ++ u = F.key g.1 ++ F.colon :: F.text g.2 ++ u') :
    f.1 = g.1 ∧ F.text f.2 ++ u = F.text g.2 ++ u' := by
  rw [List.append_assoc, List.append_assoc] at h
  have hkey := hF.key_inj _ _ _ _ hf hg h
  rw [hkey, List.append_cancel_left_eq] at h
  exact ⟨hkey, (List.cons.inj h).2⟩

/-- The items of two arrays whose texts are the same up to what follows have the same texts. -/
lemma items_inj {items items' : List (Value K A)} (hitems : (Value.array items).All p q)
    (hitems' : (Value.array items').All p q)
    (hinj : ∀ v ∈ items, ∀ w ∈ items', ∀ u u', F.Ends u → F.Ends u' →
      F.text v ++ u = F.text w ++ u' → F.text v = F.text w) {u u' : List C}
    (h : F.text (.array items) ++ u = F.text (.array items') ++ u') :
    items.map F.text = items'.map F.text := by
  rw [text_array, text_array, List.cons_append, List.cons_append, List.append_assoc,
    List.append_assoc] at h
  rw [Value.all_array] at hitems hitems'
  refine (intercalate_inj hF.comma_closeArray ends_closeArray ?_ ?_ ?_ (List.cons.inj h).2).1
  · intro x hx
    obtain ⟨v, hv, rfl⟩ := List.mem_map.mp hx
    exact hF.text_head (hitems v hv)
  · intro y hy
    obtain ⟨w, hw, rfl⟩ := List.mem_map.mp hy
    exact hF.text_head (hitems' w hw)
  · intro x hx y hy
    obtain ⟨v, hv, rfl⟩ := List.mem_map.mp hx
    obtain ⟨w, hw, rfl⟩ := List.mem_map.mp hy
    exact hinj v hv w hw

/-- The same of the entries of two objects. -/
lemma entries_inj {fields fields' : List (K × Value K A)} (hfields : (Value.object fields).All p q)
    (hfields' : (Value.object fields').All p q)
    (hinj : ∀ f ∈ fields, ∀ g ∈ fields', ∀ u u', F.Ends u → F.Ends u' →
      F.text f.2 ++ u = F.text g.2 ++ u' → F.text f.2 = F.text g.2) {u u' : List C}
    (h : F.text (.object fields) ++ u = F.text (.object fields') ++ u') :
    F.entries fields = F.entries fields' := by
  rw [text_object, text_object, List.cons_append, List.cons_append, List.append_assoc,
    List.append_assoc] at h
  refine (intercalate_inj hF.comma_closeObject ends_closeObject
    (fun x => hF.entry_head hfields) (fun y => hF.entry_head hfields') ?_ (List.cons.inj h).2).1
  intro x hx y hy v v' hv hv' hxy
  obtain ⟨f, hf, rfl⟩ := mem_entries.mp hx
  obtain ⟨g, hg, rfl⟩ := mem_entries.mp hy
  obtain ⟨hkey, htext⟩ := hF.entry_key (Value.all_object.mp hfields f hf).1
    (Value.all_object.mp hfields' g hg).1 hxy
  rw [hkey, hinj f hf g hg v v' hv hv' htext]

/-- **Unique reading.**  Texts that are the same up to what follows them are the same. -/
theorem text_append_inj {v w : Value K A} (hv : v.All p q) (hw : w.All p q) {u u' : List C}
    (hu : F.Ends u) (hu' : F.Ends u') (h : F.text v ++ u = F.text w ++ u') :
    F.text v = F.text w := by
  induction v using Value.ind generalizing w u u' with
  | hatom a =>
      have ha := Value.all_atom.mp hv
      obtain ⟨c, rest, hc, harray, hobject, -⟩ := hF.atom_head a ha
      cases w with
      | atom b =>
          rw [text, text] at h
          rw [hF.atom_inj a b u u' ha (Value.all_atom.mp hw) hu hu' h]
      | array items' =>
          rw [text, hc, text_array] at h
          exact absurd (List.cons.inj h).1 harray
      | object fields' =>
          rw [text, hc, text_object] at h
          exact absurd (List.cons.inj h).1 hobject
  | harray items ih =>
      cases w with
      | atom b =>
          obtain ⟨c, rest, hc, harray, -⟩ := hF.atom_head b (Value.all_atom.mp hw)
          rw [text_array, text, hc] at h
          exact absurd (List.cons.inj h).1.symm harray
      | array items' =>
          have htexts := hF.items_inj hv hw (fun v hv' w hw' u u' => ih v hv'
            (Value.all_array.mp hv v hv') (Value.all_array.mp hw w hw')) h
          rw [text_array, text_array, htexts]
      | object fields' =>
          rw [text_array, text_object] at h
          exact absurd (List.cons.inj h).1 hF.openArray_openObject
  | hobject fields ih =>
      cases w with
      | atom b =>
          obtain ⟨c, rest, hc, -, hobject, -⟩ := hF.atom_head b (Value.all_atom.mp hw)
          rw [text_object, text, hc] at h
          exact absurd (List.cons.inj h).1.symm hobject
      | array items' =>
          rw [text_object, text_array] at h
          exact absurd (List.cons.inj h).1.symm hF.openArray_openObject
      | object fields' =>
          have hentries := hF.entries_inj hv hw (fun f hf g hg u u' => ih f hf
            (Value.all_object.mp hv f hf).2 (Value.all_object.mp hw g hg).2) h
          rw [text_object, text_object, hentries]

/-- Values with the same text are the same. -/
lemma same_of_text_eq [BEq K] [LawfulBEq K] [DecidableEq A] {v w : Value K A}
    (hv : v.All p q) (hw : w.All p q)
    (hwell : w.WellFormed) (h : F.text v = F.text w) : v.same w = true := by
  have hnil : F.Ends [] := fun _ hc => nomatch hc
  have hnext : ∀ v w : Value K A, v.All p q → w.All p q → ∀ u u', F.Ends u → F.Ends u' →
      F.text v ++ u = F.text w ++ u' → F.text v = F.text w :=
    fun v w hv hw u u' hu hu' => hF.text_append_inj hv hw hu hu'
  induction v using Value.ind generalizing w with
  | hatom a =>
      have ha := Value.all_atom.mp hv
      obtain ⟨c, rest, hc, harray, hobject, -⟩ := hF.atom_head a ha
      cases w with
      | atom b =>
          rw [text, text] at h
          have hab := hF.atom_inj a b [] [] ha (Value.all_atom.mp hw) hnil hnil (by rw [h])
          exact decide_eq_true hab
      | array items' =>
          rw [text, hc, text_array] at h
          exact absurd (List.cons.inj h).1 harray
      | object fields' =>
          rw [text, hc, text_object] at h
          exact absurd (List.cons.inj h).1 hobject
  | harray items ih =>
      cases w with
      | atom b =>
          obtain ⟨c, rest, hc, harray, -⟩ := hF.atom_head b (Value.all_atom.mp hw)
          rw [text_array, text, hc] at h
          exact absurd (List.cons.inj h).1.symm harray
      | array items' =>
          have hitems := Value.all_array.mp hv
          have hitems' := Value.all_array.mp hw
          have htexts := hF.items_inj hv hw
            (fun v hv' w hw' => hnext v w (hitems v hv') (hitems' w hw')) (congrArg (· ++ []) h)
          rw [← List.forall₂_eq_eq_eq, List.forall₂_map_left_iff, List.forall₂_map_right_iff,
            List.forall₂_iff_zip] at htexts
          refine Value.agree_array.mpr ⟨htexts.1, fun r hr => ?_⟩
          obtain ⟨hleft, hright⟩ := List.of_mem_zip hr
          exact ih r.1 hleft (hitems _ hleft) (hitems' _ hright)
            (Value.wellFormed_array.mp hwell _ hright) (htexts.2 hr)
      | object fields' =>
          rw [text_array, text_object] at h
          exact absurd (List.cons.inj h).1 hF.openArray_openObject
  | hobject fields ih =>
      cases w with
      | atom b =>
          obtain ⟨c, rest, hc, -, hobject, -⟩ := hF.atom_head b (Value.all_atom.mp hw)
          rw [text_object, text, hc] at h
          exact absurd (List.cons.inj h).1.symm hobject
      | array items' =>
          rw [text_object, text_array] at h
          exact absurd (List.cons.inj h).1.symm hF.openArray_openObject
      | object fields' =>
          have hfields := Value.all_object.mp hv
          have hfields' := Value.all_object.mp hw
          obtain ⟨hnodup, hwells⟩ := Value.wellFormed_object.mp hwell
          have hentries := hF.entries_inj hv hw
            (fun f hf g hg => hnext _ _ (hfields f hf).2 (hfields' g hg).2)
            (congrArg (· ++ []) h)
          refine Value.agree_object.mpr ⟨?_, fun f hf => ?_⟩
          · rw [← length_entries (F := F) fields, hentries, length_entries]
          · -- the entry of the field is that of a field of the other object
            have hentry : F.key f.1 ++ F.colon :: F.text f.2 ∈ F.entries fields :=
              mem_entries.mpr ⟨f, hf, rfl⟩
            rw [hentries] at hentry
            obtain ⟨g, hg, hgf⟩ := mem_entries.mp hentry
            obtain ⟨hkey, htext⟩ := hF.entry_key (hfields' g hg).1 (hfields f hf).1
              (congrArg (· ++ []) hgf)
            rw [List.append_nil, List.append_nil] at htext
            refine ⟨g.2, ?_, ih f hf (hfields f hf).2 (hfields' g hg).2 (hwells g hg) htext.symm⟩
            exact (Dict.lookup_eq_some_iff_mem hnodup _ _).mpr (by rw [← hkey]; exact hg)

end Readable

/-- Fields with different keys have one order. -/
lemma sortFields_perm {fields fields' : List (K × List C)} (hnodup : (fields.map Prod.fst).Nodup)
    (hperm : fields.Perm fields') : sortFields fields = sortFields fields' := by
  have : Std.Total fun f g : K × List C => f.1 ≤ g.1 := ⟨fun f g => le_total f.1 g.1⟩
  have : IsTrans (K × List C) fun f g => f.1 ≤ g.1 := ⟨fun _ _ _ => le_trans⟩
  refine @List.Perm.eq_of_pairwise _ (fun f g : K × List C => f.1 ≤ g.1) _ _ ?_
    (List.pairwise_insertionSort _ _) (List.pairwise_insertionSort _ _) ?_
  · intro f g hf hg hfg hgf
    rw [mem_sortFields] at hf hg
    exact List.inj_on_of_nodup_map hnodup hf (hperm.mem_iff.mpr hg) (le_antisymm hfg hgf)
  · exact (List.perm_insertionSort _ _).trans (hperm.trans (List.perm_insertionSort _ _).symm)

/-- Values that are the same have the same text. -/
lemma text_eq_of_same [BEq K] [LawfulBEq K] [DecidableEq A] {v w : Value K A} (hv : v.WellFormed)
    (h : v.same w = true) : F.text v = F.text w := by
  induction v using Value.ind generalizing w with
  | hatom a =>
      cases w with
      | atom b => rw [of_decide_eq_true h]
      | array items' => cases h
      | object fields' => cases h
  | harray items ih =>
      cases w with
      | atom b => cases h
      | array items' =>
          obtain ⟨hlength, hitems⟩ := Value.agree_array.mp h
          have htexts : items.map F.text = items'.map F.text := by
            rw [← List.forall₂_eq_eq_eq, List.forall₂_map_left_iff, List.forall₂_map_right_iff,
              List.forall₂_iff_zip]
            refine ⟨hlength, fun {v w} hvw => ?_⟩
            have hleft := (List.of_mem_zip hvw).1
            exact ih v hleft (Value.wellFormed_array.mp hv v hleft) (hitems _ hvw)
          rw [text_array, text_array, htexts]
      | object fields' => cases h
  | hobject fields ih =>
      cases w with
      | atom b => cases h
      | array items' => cases h
      | object fields' =>
          obtain ⟨hnodup, hwells⟩ := Value.wellFormed_object.mp hv
          obtain ⟨hlength, hfields⟩ := Value.agree_object.mp h
          have hkeys : ((fields.map fun f => (f.1, F.text f.2)).map Prod.fst).Nodup := by
            rwa [List.map_map]
          have hperm : (fields.map fun f => (f.1, F.text f.2)).Perm
              (fields'.map fun f => (f.1, F.text f.2)) := by
            refine List.Subperm.perm_of_length_le (hkeys.of_map.subperm ?_) ?_
            · intro x hx
              obtain ⟨f, hf, rfl⟩ := List.mem_map.mp hx
              obtain ⟨w, hw, hsame⟩ := hfields f hf
              rw [ih f hf (hwells f hf) hsame]
              exact List.mem_map.mpr ⟨(f.1, w), Dict.mem_of_lookup hw, rfl⟩
            · rw [List.length_map, List.length_map, hlength]
          rw [text_object, text_object, entries, entries, sortFields_perm hkeys hperm]

/-- **Injectivity up to the order of keys.** -/
theorem Readable.text_eq_iff [BEq K] [LawfulBEq K] [DecidableEq A] (hF : F.Readable p q)
    {v w : Value K A} (hv : v.All p q) (hw : w.All p q) (hvwell : v.WellFormed)
    (hwell : w.WellFormed) :
    F.text v = F.text w ↔ v.same w = true :=
  ⟨hF.same_of_text_eq hv hw hwell, text_eq_of_same hvwell⟩

/-! ### The letters of a text -/

/-- What holds of the punctuation. -/
structure Punctuation (F : Format K A C) (P : C → Prop) : Prop where
  comma : P F.comma
  colon : P F.colon
  openArray : P F.openArray
  closeArray : P F.closeArray
  openObject : P F.openObject
  closeObject : P F.closeObject

omit [LinearOrder K] in
lemma forall_mem_intercalate {P : C → Prop} {s : C} (hs : P s) (X : List (List C)) :
    (∀ c ∈ List.intercalate [s] X, P c) ↔ ∀ x ∈ X, ∀ c ∈ x, P c := by
  induction X with
  | nil => simp
  | cons x X ih =>
      cases X with
      | nil => simp
      | cons y X =>
          rw [List.intercalate_cons_cons, List.forall_mem_append, List.forall_mem_append, ih,
            List.forall_mem_cons (l := y :: X)]
          simp [hs]

/-- A property holds of every letter of a text iff it holds of the texts of its atoms and keys. -/
lemma forall_mem_text {P : C → Prop} (hP : F.Punctuation P) (v : Value K A) :
    (∀ c ∈ F.text v, P c) ↔ v.All (fun a => ∀ c ∈ F.atom a, P c) fun k => ∀ c ∈ F.key k, P c := by
  induction v using Value.ind with
  | hatom a => rw [text, Value.all_atom]
  | harray items ih =>
      rw [text_array, Value.all_array, List.forall_mem_cons, List.forall_mem_append,
        forall_mem_intercalate hP.comma, List.forall_mem_singleton, List.forall_mem_map]
      constructor
      · rintro ⟨-, hitems, -⟩ v hv
        exact (ih v hv).mp (hitems v hv)
      · intro hitems
        exact ⟨hP.openArray, fun v hv => (ih v hv).mpr (hitems v hv), hP.closeArray⟩
  | hobject fields ih =>
      have hentry : ∀ f : K × Value K A, (∀ c ∈ F.key f.1 ++ F.colon :: F.text f.2, P c) ↔
          (∀ c ∈ F.key f.1, P c) ∧ ∀ c ∈ F.text f.2, P c := by
        intro f
        rw [List.forall_mem_append, List.forall_mem_cons, and_iff_right hP.colon]
      rw [text_object, Value.all_object, List.forall_mem_cons, List.forall_mem_append,
        forall_mem_intercalate hP.comma, List.forall_mem_singleton]
      constructor
      · rintro ⟨-, hentries, -⟩ f hf
        have hf' := (hentry f).mp (hentries _ (mem_entries.mpr ⟨f, hf, rfl⟩))
        exact ⟨hf'.1, (ih f hf).mp hf'.2⟩
      · intro hfields
        refine ⟨hP.openObject, fun x hx => ?_, hP.closeObject⟩
        obtain ⟨f, hf, rfl⟩ := mem_entries.mp hx
        exact (hentry f).mpr ⟨(hfields f hf).1, (ih f hf).mpr (hfields f hf).2⟩

end Format

end Json
