import Mathlib.Data.List.Nodup
import Mathlib.Data.List.Basic
import Mathlib.Tactic

/-!
Tables with a unique key: lists of rows no two of which have the same key.

* `Keyed`: the key is unique.
* `lookup`, `Keyed.lookup_eq_some`: the row of a key.
* `modify`, `Keyed.sum_modify`: the row of a key is rewritten.
* `eq_of_nodup_filterMap`: a key that some rows have.
-/

namespace Tables

variable {α κ : Type} [DecidableEq κ]

/-- No two rows have the same key. -/
def Keyed (key : α → κ) (rows : List α) : Prop := (rows.map key).Nodup

/-- The row of a key. -/
def lookup (key : α → κ) (k : κ) (rows : List α) : Option α := rows.find? fun r => key r = k

/-- The row of a key is rewritten. -/
def modify (key : α → κ) (k : κ) (f : α → α) (rows : List α) : List α :=
  rows.map fun r => if key r = k then f r else r

variable {key : α → κ} {k : κ} {rows : List α} {r r' : α}

omit [DecidableEq κ] in
@[simp] lemma keyed_nil : Keyed key [] := List.nodup_nil

lemma lookup_eq_none : lookup key k rows = none ↔ ∀ r ∈ rows, key r ≠ k := by
  simp [lookup, List.find?_eq_none]

lemma lookup_mem (h : lookup key k rows = some r) : r ∈ rows ∧ key r = k := by
  have hkey : key r = k := by simpa using List.find?_some h
  exact ⟨List.mem_of_find?_eq_some h, hkey⟩

omit [DecidableEq κ] in
/-- Two rows with the same key are one. -/
lemma Keyed.eq_of_mem (h : Keyed key rows) (hr : r ∈ rows) (hr' : r' ∈ rows)
    (heq : key r = key r') : r = r' :=
  List.inj_on_of_nodup_map h hr hr' heq

lemma Keyed.lookup_eq_some (h : Keyed key rows) :
    lookup key k rows = some r ↔ r ∈ rows ∧ key r = k := by
  refine ⟨lookup_mem, fun ⟨hr, hk⟩ => ?_⟩
  cases hfound : lookup key k rows with
  | none => exact absurd hk (lookup_eq_none.mp hfound r hr)
  | some r' =>
      obtain ⟨hr', hk'⟩ := lookup_mem hfound
      rw [h.eq_of_mem hr' hr (hk'.trans hk.symm)]

omit [DecidableEq κ] in
/-- Rows with keys of their own are added. -/
lemma Keyed.append {rows' : List α} (h : Keyed key rows) (h' : Keyed key rows')
    (hnew : ∀ r ∈ rows, ∀ r' ∈ rows', key r ≠ key r') : Keyed key (rows ++ rows') := by
  rw [Keyed, List.map_append]
  refine List.Nodup.append h h' fun k hk hk' => ?_
  obtain ⟨r, hr, rfl⟩ := List.mem_map.mp hk
  obtain ⟨r', hr', heq⟩ := List.mem_map.mp hk'
  exact hnew r hr r' hr' heq.symm

/-- A row with a new key is added. -/
lemma Keyed.concat (h : Keyed key rows) (hnew : lookup key (key r) rows = none) :
    Keyed key (rows ++ [r]) := by
  refine h.append (List.nodup_singleton _) fun r₁ hr₁ r₂ hr₂ => ?_
  rw [List.mem_singleton.mp hr₂]
  exact lookup_eq_none.mp hnew r₁ hr₁

lemma lookup_append {rows' : List α} (h : lookup key k rows = some r) :
    lookup key k (rows ++ rows') = some r := by
  rw [lookup, List.find?_append]
  rw [lookup] at h
  rw [h, Option.some_or]

/-- A new row is found. -/
lemma lookup_concat_self (h : lookup key k rows = none) (hk : key r = k) :
    lookup key k (rows ++ [r]) = some r := by
  rw [lookup] at h
  rw [lookup, List.find?_append, h]
  simp [hk]

lemma lookup_concat_of_ne (h : key r ≠ k) : lookup key k (rows ++ [r]) = lookup key k rows := by
  rw [lookup, lookup, List.find?_append]
  simp [h]

/-- Different rows have different keys. -/
lemma ne_of_lookup {k' : κ} (h : lookup key k rows = some r) (h' : lookup key k' rows = some r')
    (hne : r ≠ r') : k ≠ k' := by
  rintro rfl
  exact hne (Option.some.inj (h.symm.trans h'))

/-- The row of a key, among rows that keep their keys. -/
lemma lookup_modify {k' : κ} {f : α → α} (hf : ∀ r, key (f r) = key r) :
    lookup key k (modify key k' f rows)
      = (lookup key k rows).map fun r => if key r = k' then f r else r := by
  have hkey (r : α) : key (if key r = k' then f r else r) = key r := by
    split_ifs
    · exact hf r
    · rfl
  induction rows with
  | nil => rfl
  | cons r rest ih =>
      simp only [lookup, modify, List.map_cons, List.find?_cons, hkey] at ih ⊢
      split
      · rfl
      · exact ih

/-- A rewritten row is found. -/
lemma lookup_modify_self {f : α → α} (hf : ∀ r, key (f r) = key r)
    (h : lookup key k rows = some r) : lookup key k (modify key (key r) f rows) = some (f r) := by
  rw [lookup_modify hf, h, Option.map_some, if_pos rfl]

lemma lookup_modify_of_ne {k' : κ} {f : α → α} (hf : ∀ r, key (f r) = key r) (hne : k ≠ k')
    (h : lookup key k rows = some r) : lookup key k (modify key k' f rows) = some r := by
  rw [lookup_modify hf, h, Option.map_some, if_neg]
  rw [(lookup_mem h).2]
  exact hne

lemma map_modify {β : Type} {g : α → β} {f : α → α} (h : ∀ r, g (f r) = g r) :
    (modify key k f rows).map g = rows.map g := by
  rw [modify, List.map_map]
  refine List.map_congr_left fun r _ => ?_
  by_cases hk : key r = k
  · simp [hk, h]
  · simp [hk]

/-- A rewritten row keeps its key. -/
lemma Keyed.modify {β : Type} {g : α → β} {f : α → α} (h : Keyed g rows)
    (hf : ∀ r, g (f r) = g r) : Keyed g (modify key k f rows) := by
  rw [Keyed, map_modify hf]
  exact h

lemma mem_modify {f : α → α} : r ∈ Tables.modify key k f rows ↔
    (∃ r' ∈ rows, key r' = k ∧ f r' = r) ∨ (r ∈ rows ∧ key r ≠ k) := by
  rw [Tables.modify, List.mem_map]
  constructor
  · rintro ⟨r', hr', rfl⟩
    by_cases hk : key r' = k
    · exact .inl ⟨r', hr', hk, by simp [hk]⟩
    · rw [if_neg hk]
      exact .inr ⟨hr', hk⟩
  · rintro (⟨r', hr', hk, rfl⟩ | ⟨hr, hk⟩)
    · exact ⟨r', hr', by simp [hk]⟩
    · exact ⟨r, hr, by simp [hk]⟩

/-- No row has the key. -/
lemma modify_eq_self {f : α → α} (h : ∀ r ∈ rows, key r ≠ k) : modify key k f rows = rows := by
  rw [modify]
  conv_rhs => rw [← List.map_id rows]
  exact List.map_congr_left fun r hr => if_neg (h r hr)

/-- A sum over the rows changes by what one row changes. -/
lemma Keyed.sum_modify {f : α → α} (w : α → ℕ) (h : Keyed key rows) (hr : r ∈ rows)
    (hk : key r = k) :
    ((Tables.modify key k f rows).map w).sum + w r = (rows.map w).sum + w (f r) := by
  induction rows with
  | nil => cases hr
  | cons r₀ rows ih =>
      rw [Keyed, List.map_cons, List.nodup_cons] at h
      obtain ⟨hnew, hrest⟩ := h
      have hcons : Tables.modify key k f (r₀ :: rows)
          = (if key r₀ = k then f r₀ else r₀) :: Tables.modify key k f rows := rfl
      rw [hcons, List.map_cons, List.sum_cons, List.map_cons, List.sum_cons]
      rcases List.mem_cons.mp hr with rfl | hmem
      · have hsame : Tables.modify key k f rows = rows := by
          refine modify_eq_self fun r' hr' heq => hnew ?_
          rw [hk, ← heq]
          exact List.mem_map_of_mem hr'
        rw [hsame, if_pos hk]
        omega
      · have hne : key r₀ ≠ k := by
          intro heq
          refine hnew ?_
          rw [heq, ← hk]
          exact List.mem_map_of_mem hmem
        have hsum := ih hrest hmem
        rw [if_neg hne]
        omega

omit [DecidableEq κ] in
/-- Two rows with the same key, where some rows have none. -/
lemma eq_of_nodup_filterMap {f : α → Option κ} (h : (rows.filterMap f).Nodup) (hr : r ∈ rows)
    (hr' : r' ∈ rows) (hk : f r = some k) (hk' : f r' = some k) : r = r' := by
  induction rows with
  | nil => cases hr
  | cons r₀ rows ih =>
      have hmem {r₁ : α} (hr₁ : r₁ ∈ rows) (hk₁ : f r₁ = some k) : k ∈ rows.filterMap f :=
        List.mem_filterMap.mpr ⟨r₁, hr₁, hk₁⟩
      rcases List.mem_cons.mp hr with rfl | hrest
      · rw [List.filterMap_cons_some hk, List.nodup_cons] at h
        exact ((List.mem_cons.mp hr').resolve_right fun hr₁ => h.1 (hmem hr₁ hk')).symm
      · rcases List.mem_cons.mp hr' with rfl | hrest'
        · rw [List.filterMap_cons_some hk', List.nodup_cons] at h
          exact absurd (hmem hrest hk) h.1
        · exact ih (h.sublist ((List.sublist_cons_self _ _).filterMap f)) hrest hrest'

end Tables
