import Mathlib.Data.List.Basic
import Mathlib.Data.List.Nodup
import Mathlib.Tactic

/-!
Dictionaries as lists of entries in insertion order, and the last writer of a key.

* `setItem`, `update`: an assignment, and assignments one after the other.
* `setDefault`, `fillDefaults`: those of which the first of a key stays.
* `lookup_update`: the value of a key is its last write.
* `nodup_keys_update`, `filter_setItem`: the keys stay different, and a selection of keys is
  written on its own.
* `fillOnce`: entries of which none may write a key again, or an error that names the key.
* `Agree`: the writers of a key leave the same value.  `Agree.findSome?_eq` says that the
  order and the repetition of such writers do not matter, and `agree_of_forall_perm` that no
  other writers have this property.
-/

namespace Dict

variable {K V α β : Type}

/-! ### Assignments -/

section

variable [BEq K]

/-- `d[k] = v`: the entry keeps its place. -/
def setItem : List (K × V) → K → V → List (K × V)
  | [], k, v => [(k, v)]
  | (k', w) :: d, k, v => if k' == k then (k', v) :: d else (k', w) :: setItem d k v

/-- Assignments, one after the other. -/
def update (d : List (K × V)) (ws : List (K × V)) : List (K × V) :=
  ws.foldl (fun d w => setItem d w.1 w.2) d

lemma update_append (d ws ws' : List (K × V)) :
    update d (ws ++ ws') = update (update d ws) ws' :=
  List.foldl_append

variable [LawfulBEq K]

lemma lookup_setItem (d : List (K × V)) (k k' : K) (v : V) :
    (setItem d k v).lookup k' = if k' == k then some v else d.lookup k' := by
  induction d with
  | nil =>
      rw [setItem, List.lookup_cons, List.lookup_nil]
      cases k' == k <;> rfl
  | cons e d ih =>
      obtain ⟨k₁, w⟩ := e
      rw [setItem]
      by_cases h₁ : k₁ = k
      · rw [if_pos (beq_iff_eq.mpr h₁), List.lookup_cons, List.lookup_cons, h₁]
        cases k' == k <;> rfl
      · rw [if_neg (by simpa using h₁), List.lookup_cons, List.lookup_cons, ih]
        by_cases h' : k' = k₁
        · simp [h', h₁]
        · simp [beq_eq_false_iff_ne.mpr h']

/-- The value of a key is its last write, or the value it had. -/
lemma lookup_update (d ws : List (K × V)) (k : K) :
    (update d ws).lookup k = (ws.reverse.lookup k).or (d.lookup k) := by
  induction ws generalizing d with
  | nil => rfl
  | cons w ws ih =>
      have h := ih (setItem d w.1 w.2)
      rw [update, List.foldl_cons, ← update, h, lookup_setItem, List.reverse_cons,
        List.lookup_append, Option.or_assoc, List.lookup_cons]
      cases k == w.1 <;> simp

omit [LawfulBEq K] in
/-- The last write of a list of writers is that of the last writer of the key. -/
lemma lookup_reverse_flatMap (writes : α → List (K × V)) (l : List α) (k : K) :
    (l.flatMap writes).reverse.lookup k
      = l.reverse.findSome? fun a => (writes a).reverse.lookup k := by
  induction l with
  | nil => rfl
  | cons a l ih =>
      rw [List.flatMap_cons, List.reverse_append, List.lookup_append, ih, List.reverse_cons,
        List.findSome?_append, List.findSome?_singleton]

lemma isSome_lookup_iff (d : List (K × V)) (k : K) :
    (d.lookup k).isSome ↔ k ∈ d.map Prod.fst := by
  induction d with
  | nil => simp
  | cons e d ih =>
      rw [List.lookup_cons, List.map_cons, List.mem_cons]
      by_cases h : k = e.1
      · simp [h]
      · simp [h, ih, beq_eq_false_iff_ne.mpr h]

omit [LawfulBEq K] in
lemma lookup_mapValues (f : V → α) (d : List (K × V)) (k : K) :
    (d.map fun e => (e.1, f e.2)).lookup k = (d.lookup k).map f := by
  induction d with
  | nil => rfl
  | cons e d ih =>
      rw [List.map_cons, List.lookup_cons, List.lookup_cons, ih]
      cases k == e.1 <;> rfl

lemma mem_of_lookup {d : List (K × V)} {k : K} {v : V} (h : d.lookup k = some v) : (k, v) ∈ d := by
  obtain ⟨before, after, rfl, -⟩ := List.lookup_eq_some_iff.mp h
  exact List.mem_append_right _ List.mem_cons_self

lemma lookup_eq_some_iff_mem {d : List (K × V)} (hd : (d.map Prod.fst).Nodup) (k : K) (v : V) :
    d.lookup k = some v ↔ (k, v) ∈ d := by
  induction d with
  | nil => simp
  | cons e d ih =>
      rw [List.map_cons, List.nodup_cons] at hd
      rw [List.lookup_cons, List.mem_cons]
      by_cases h : k = e.1
      · have hnone : (e.1, v) ∉ d := fun hmem =>
          hd.1 (List.mem_map.mpr ⟨_, hmem, rfl⟩)
        simp [h, Prod.ext_iff, hnone, eq_comm]
      · simp [h, Prod.ext_iff, ih hd.2, beq_eq_false_iff_ne.mpr h]

/-- A dictionary that is filled from entries with different keys holds these entries. -/
lemma lookup_fill_eq_some_iff {ws : List (K × V)} (hws : (ws.map Prod.fst).Nodup) (k : K) (v : V) :
    (update [] ws).lookup k = some v ↔ (k, v) ∈ ws := by
  have hrev : (ws.reverse.map Prod.fst).Nodup := by
    rw [List.map_reverse, List.nodup_reverse]
    exact hws
  rw [lookup_update, List.lookup_nil, Option.or_none, lookup_eq_some_iff_mem hrev,
    List.mem_reverse]

/-- The keys after assignments. -/
lemma mem_keys_update (d ws : List (K × V)) (k : K) :
    k ∈ (update d ws).map Prod.fst ↔ k ∈ d.map Prod.fst ∨ k ∈ ws.map Prod.fst := by
  rw [← isSome_lookup_iff, lookup_update, Option.isSome_or, Bool.or_eq_true, isSome_lookup_iff,
    isSome_lookup_iff, List.map_reverse, List.mem_reverse, or_comm]

/-- An assignment keeps the keys different. -/
lemma nodup_keys_setItem {d : List (K × V)} (hd : (d.map Prod.fst).Nodup) (k : K) (v : V) :
    ((setItem d k v).map Prod.fst).Nodup := by
  induction d with
  | nil => exact List.nodup_singleton k
  | cons e d ih =>
      obtain ⟨k₁, w⟩ := e
      rw [List.map_cons, List.nodup_cons] at hd
      rw [setItem]
      by_cases h : k₁ = k
      · rw [if_pos (beq_iff_eq.mpr h)]
        exact List.nodup_cons.mpr hd
      · rw [if_neg (by simpa using h)]
        refine List.nodup_cons.mpr ⟨fun hmem => ?_, ih hd.2⟩
        rcases (mem_keys_update d [(k, v)] k₁).mp hmem with hold | hnew
        · exact hd.1 hold
        · exact h (List.mem_singleton.mp hnew)

lemma nodup_keys_update {d : List (K × V)} (hd : (d.map Prod.fst).Nodup) (ws : List (K × V)) :
    ((update d ws).map Prod.fst).Nodup := by
  induction ws generalizing d with
  | nil => exact hd
  | cons w ws ih => exact ih (nodup_keys_setItem hd w.1 w.2)

/-- Entries with new and different keys are written as they are. -/
lemma update_eq_append {d ws : List (K × V)} (h : ((d ++ ws).map Prod.fst).Nodup) :
    update d ws = d ++ ws := by
  induction ws generalizing d with
  | nil => exact (List.append_nil d).symm
  | cons e ws ih =>
      have hnew : setItem d e.1 e.2 = d ++ [e] := by
        clear ih
        induction d with
        | nil => rfl
        | cons e' d ihd =>
            rw [List.cons_append, List.map_cons, List.nodup_cons, List.map_append,
              List.map_cons] at h
            have hne : e'.1 ≠ e.1 := fun heq =>
              h.1 (List.mem_append_right _ (heq ▸ List.mem_cons_self))
            rw [setItem, if_neg (by simpa using hne), ihd, List.cons_append]
            rw [List.map_append, List.map_cons]
            exact h.2
      rw [List.append_cons] at h
      rw [update, List.foldl_cons, ← update, hnew, ih h, List.append_assoc, List.singleton_append]

/-- The entries with some of the keys, after an assignment. -/
lemma filter_setItem (p : K → Bool) (d : List (K × V)) (k : K) (v : V) :
    (setItem d k v).filter (fun e => p e.1)
      = if p k then setItem (d.filter fun e => p e.1) k v else d.filter fun e => p e.1 := by
  induction d with
  | nil =>
      rw [setItem, List.filter_nil, List.filter_cons, List.filter_nil]
      rfl
  | cons e d ih =>
      obtain ⟨k₁, w⟩ := e
      rw [setItem]
      by_cases h : k₁ = k
      · rw [if_pos (beq_iff_eq.mpr h), List.filter_cons, List.filter_cons, h]
        cases p k with
        | true => simp [setItem]
        | false => simp
      · rw [if_neg (by simpa using h), List.filter_cons, List.filter_cons, ih]
        cases p k₁ with
        | true => cases p k <;> simp [setItem, h]
        | false => simp

/-! ### First writes -/

/-- `d.setdefault(k, v)`: the entry is written if its key is new. -/
def setDefault (d : List (K × V)) (k : K) (v : V) : List (K × V) :=
  if (d.lookup k).isSome then d else setItem d k v

/-- Assignments of which the first of a key stays. -/
def fillDefaults (d : List (K × V)) (ws : List (K × V)) : List (K × V) :=
  ws.foldl (fun d w => setDefault d w.1 w.2) d

/-- The value of a key is the value it had, or its first write. -/
lemma lookup_fillDefaults (d ws : List (K × V)) (k : K) :
    (fillDefaults d ws).lookup k = (d.lookup k).or (ws.lookup k) := by
  induction ws generalizing d with
  | nil => exact (Option.or_none).symm
  | cons w ws ih =>
      have h := ih (setDefault d w.1 w.2)
      rw [fillDefaults, List.foldl_cons, ← fillDefaults, h, setDefault, List.lookup_cons]
      by_cases hold : (d.lookup w.1).isSome = true
      · rw [if_pos hold]
        by_cases hk : k = w.1
        · obtain ⟨v, hv⟩ := Option.isSome_iff_exists.mp hold
          rw [hk, hv, Option.some_or, Option.some_or]
        · rw [beq_eq_false_iff_ne.mpr hk]
      · rw [if_neg hold, lookup_setItem]
        by_cases hk : k = w.1
        · rw [← hk] at hold ⊢
          simp [Option.not_isSome_iff_eq_none.mp hold]
        · rw [beq_eq_false_iff_ne.mpr hk]
          rfl

lemma nodup_keys_fillDefaults {d : List (K × V)} (hd : (d.map Prod.fst).Nodup)
    (ws : List (K × V)) : ((fillDefaults d ws).map Prod.fst).Nodup := by
  induction ws generalizing d with
  | nil => exact hd
  | cons w ws ih =>
      rw [fillDefaults, List.foldl_cons, ← fillDefaults]
      refine ih ?_
      rw [setDefault]
      split_ifs
      · exact hd
      · exact nodup_keys_setItem hd w.1 w.2

end

/-! ### Keys that are written once -/

section

variable [BEq K] {E : Type} (duplicate : K → E)

/-- New entries, one after the other, unless a key is there already. -/
def fillOnce : List (K × V) → List (K × V) → Except E (List (K × V))
  | d, [] => .ok d
  | d, e :: rest => if (d.lookup e.1).isSome then .error (duplicate e.1) else fillOnce (d ++ [e]) rest

variable [LawfulBEq K] {duplicate}

/-- The entries are written iff their keys are new and different. -/
lemma fillOnce_eq_ok_iff {d ws d' : List (K × V)} (hd : (d.map Prod.fst).Nodup) :
    fillOnce duplicate d ws = .ok d' ↔ d' = d ++ ws ∧ ((d ++ ws).map Prod.fst).Nodup := by
  induction ws generalizing d with
  | nil => simp [fillOnce, hd, eq_comm]
  | cons e ws ih =>
      rw [fillOnce]
      by_cases he : e.1 ∈ d.map Prod.fst
      · rw [if_pos ((isSome_lookup_iff d e.1).mpr he)]
        refine iff_of_false (fun h => by cases h) fun h => ?_
        rw [List.map_append, List.nodup_append] at h
        exact h.2.2.2 e.1 he e.1 (List.mem_map_of_mem List.mem_cons_self) rfl
      · have hkeys : ((d ++ [e]).map Prod.fst).Nodup := by
          rw [List.map_append, List.nodup_append]
          refine ⟨hd, List.nodup_singleton e.1, ?_⟩
          rintro k hk k' hk' rfl
          exact he (List.mem_singleton.mp hk' ▸ hk)
        rw [if_neg fun h => he ((isSome_lookup_iff d e.1).mp h), ih hkeys, List.append_assoc,
          List.singleton_append]

omit [LawfulBEq K] in
/-- An error names a key. -/
lemma fillOnce_eq_error {d ws : List (K × V)} {error : E}
    (h : fillOnce duplicate d ws = .error error) : ∃ k, error = duplicate k := by
  induction ws generalizing d with
  | nil => cases h
  | cons e ws ih =>
      rw [fillOnce] at h
      split at h
      · exact ⟨e.1, (Except.error.inj h).symm⟩
      · exact ih h

end

section

variable [DecidableEq β] {f : α → List β} {l : List α}

/-- Writers that write no key twice write a key as often as there are writers of it. -/
lemma count_flatMap_eq (hf : ∀ a ∈ l, (f a).Nodup) (b : β) :
    (l.flatMap f).count b = (l.filter fun a => (f a).contains b).length := by
  induction l with
  | nil => rfl
  | cons a l ih =>
      rw [List.forall_mem_cons] at hf
      rw [List.flatMap_cons, List.count_append, ih hf.2, List.filter_cons]
      by_cases hb : b ∈ f a
      · rw [List.count_eq_one_of_mem hf.1 hb, if_pos (List.contains_iff_mem.mpr hb),
          List.length_cons, Nat.add_comm]
      · rw [List.count_eq_zero_of_not_mem hb, if_neg fun h => hb (List.contains_iff_mem.mp h),
          Nat.zero_add]

/-- Several writers write no key twice iff each key has at most one writer. -/
lemma nodup_flatMap_iff (hf : ∀ a ∈ l, (f a).Nodup) :
    (l.flatMap f).Nodup ↔ ∀ b, (l.filter fun a => (f a).contains b).length ≤ 1 := by
  rw [List.nodup_iff_count_le_one]
  exact forall_congr' fun b => by rw [count_flatMap_eq hf]

end

/-! ### Writers that agree -/

/-- The writers in a list leave the same value. -/
def Agree (f : α → Option β) (l : List α) : Prop :=
  ∀ a ∈ l, ∀ b ∈ l, ∀ x y, f a = some x → f b = some y → x = y

lemma Agree.mono {f : α → Option β} {l l' : List α} (h : Agree f l) (hl : ∀ a ∈ l', a ∈ l) :
    Agree f l' :=
  fun a ha b hb => h a (hl a ha) b (hl b hb)

/-- The order of writers that agree does not matter. -/
lemma Agree.findSome?_eq {f : α → Option β} {l l' : List α} (h : Agree f l)
    (hl : ∀ a, a ∈ l ↔ a ∈ l') : l.findSome? f = l'.findSome? f := by
  cases hx : l.findSome? f with
  | none =>
      rw [List.findSome?_eq_none_iff] at hx
      exact (List.findSome?_eq_none_iff.mpr fun a ha => hx a ((hl a).mpr ha)).symm
  | some x =>
      obtain ⟨a, ha, hax⟩ := List.exists_of_findSome?_eq_some hx
      cases hy : l'.findSome? f with
      | none =>
          rw [List.findSome?_eq_none_iff] at hy
          rw [hy a ((hl a).mp ha)] at hax
          cases hax
      | some y =>
          obtain ⟨b, hb, hby⟩ := List.exists_of_findSome?_eq_some hy
          rw [h a ha b ((hl b).mpr hb) x y hax hby]

/-- Writers whose order does not matter agree. -/
lemma agree_of_forall_perm {f : α → Option β} {l : List α} {rest c : Option β}
    (h : ∀ l' : List α, l'.Perm l → (l'.findSome? f).or rest = c) : Agree f l := by
  have hfirst : ∀ a ∈ l, ∀ x, f a = some x → c = some x := by
    intro a ha x hx
    obtain ⟨s, t, rfl⟩ := List.append_of_mem ha
    rw [← h (a :: (s ++ t)) List.perm_middle.symm, List.findSome?_cons, hx, Option.some_or]
  intro a ha b hb x y hx hy
  exact Option.some.inj ((hfirst a ha x hx).symm.trans (hfirst b hb y hy))

end Dict
