import Mathlib.Data.List.Basic
import Mathlib.Data.List.Nodup
import Mathlib.Data.List.ReduceOption
import Mathlib.Tactic

/-!
Candidates that are handed out to requests of their kind, each request taking the first
candidate that is left.

* `firstFree`, `assign`: the first candidate left, and what each request gets.
* `assign_mem`, `assign_nodup`: a request gets a candidate of its kind, and no two requests
  the same.
* `assign_eq_of_single`, `single_of_assign_eq`: the order of the candidates does not matter
  if and only if there is at most one of each kind that is asked for.
-/

namespace Matching

variable {ι κ : Type} [DecidableEq ι] [DecidableEq κ]

/-- The first candidate of a kind that is not used. -/
def firstFree (rows : List (ι × κ)) (used : List ι) (k : κ) : Option ι :=
  ((rows.filter fun r => r.2 = k ∧ r.1 ∉ used).map Prod.fst).head?

/-- What the requests for candidates of some kinds get, one after the other. -/
def assign (rows : List (ι × κ)) : List ι → List κ → List (Option ι)
  | _, [] => []
  | used, k :: ks =>
      firstFree rows used k :: assign rows ((firstFree rows used k).toList ++ used) ks

/-- There is at most one candidate of a kind. -/
def Single (rows : List (ι × κ)) (k : κ) : Prop :=
  ∀ x y, (x, k) ∈ rows → (y, k) ∈ rows → x = y

variable {rows rows' : List (ι × κ)} {used used' : List ι} {k : κ} {ks : List κ} {x y : ι}

lemma length_assign (rows : List (ι × κ)) (used : List ι) (ks : List κ) :
    (assign rows used ks).length = ks.length := by
  induction ks generalizing used with
  | nil => rfl
  | cons k ks ih => simp [assign, ih]

/-! ### The first candidate -/

lemma firstFree_mem (h : firstFree rows used k = some x) : (x, k) ∈ rows ∧ x ∉ used := by
  obtain ⟨r, hr, rfl⟩ := List.mem_map.mp (List.mem_of_mem_head? h)
  obtain ⟨hmem, hprop⟩ := List.mem_filter.mp hr
  obtain ⟨rfl, hfree⟩ := of_decide_eq_true hprop
  exact ⟨hmem, hfree⟩

lemma firstFree_eq_none_iff :
    firstFree rows used k = none ↔ ∀ x, (x, k) ∈ rows → x ∈ used := by
  rw [firstFree, List.head?_eq_none_iff, List.map_eq_nil_iff, List.filter_eq_nil_iff]
  constructor
  · intro h x hx
    by_contra hfree
    exact h (x, k) hx (decide_eq_true ⟨rfl, hfree⟩)
  · rintro h ⟨x, k'⟩ hr hprop
    obtain ⟨rfl, hfree⟩ := of_decide_eq_true hprop
    exact hfree (h x hr)

/-- A candidate that stands first, and is free, is taken. -/
lemma firstFree_cons (h : x ∉ used) : firstFree ((x, k) :: rows) used k = some x := by
  simp [firstFree, h]

/-- Only the candidates of a kind decide about it. -/
lemma firstFree_congr (h : ∀ x, (x, k) ∈ rows → (x ∈ used ↔ x ∈ used')) :
    firstFree rows used k = firstFree rows used' k := by
  unfold firstFree
  congr 2
  refine List.filter_congr fun r hr => decide_eq_decide.mpr ?_
  refine and_congr_right fun hk => not_congr (h r.1 ?_)
  rw [← hk]
  exact hr

/-- One candidate of a kind, at most: its place does not matter. -/
lemma firstFree_eq_of_single (hsingle : Single rows k) (hmem : ∀ r, r ∈ rows ↔ r ∈ rows') :
    firstFree rows used k = firstFree rows' used k := by
  cases hx : firstFree rows used k with
  | none =>
      rw [firstFree_eq_none_iff] at hx
      exact (firstFree_eq_none_iff.mpr fun y hy => hx y ((hmem _).mpr hy)).symm
  | some x =>
      obtain ⟨hxmem, hxfree⟩ := firstFree_mem hx
      cases hy : firstFree rows' used k with
      | none => exact absurd (firstFree_eq_none_iff.mp hy x ((hmem _).mp hxmem)) hxfree
      | some y =>
          obtain ⟨hymem, -⟩ := firstFree_mem hy
          rw [hsingle x y hxmem ((hmem _).mpr hymem)]

/-! ### What the requests get -/

/-- A request gets a candidate of its kind. -/
lemma assign_mem (h : (k, some x) ∈ ks.zip (assign rows used ks)) : (x, k) ∈ rows := by
  induction ks generalizing used with
  | nil => simp at h
  | cons k' ks ih =>
      rw [assign, List.zip_cons_cons, List.mem_cons] at h
      rcases h with heq | hrest
      · obtain ⟨rfl, hx⟩ := Prod.mk.inj heq
        exact (firstFree_mem hx.symm).1
      · exact ih hrest

/-- What the requests get is free. -/
lemma assign_free (h : some x ∈ assign rows used ks) : x ∉ used := by
  induction ks generalizing used with
  | nil => simp [assign] at h
  | cons k ks ih =>
      rw [assign, List.mem_cons] at h
      rcases h with heq | hrest
      · exact (firstFree_mem heq.symm).2
      · exact fun hused => ih hrest (List.mem_append_right _ hused)

/-- No two requests get the same candidate. -/
lemma assign_nodup : ((assign rows used ks).reduceOption).Nodup := by
  induction ks generalizing used with
  | nil => simp [assign]
  | cons k ks ih =>
      rw [assign]
      cases hx : firstFree rows used k with
      | none => simpa using ih
      | some x =>
          rw [List.reduceOption_cons_of_some, List.nodup_cons, List.reduceOption_mem_iff]
          exact ⟨fun hmem => assign_free hmem (by simp), ih⟩

/-- The order of the candidates does not matter, if there is at most one of each kind. -/
lemma assign_eq_of_single (hsingle : ∀ k ∈ ks, Single rows k)
    (hmem : ∀ r, r ∈ rows ↔ r ∈ rows') : assign rows used ks = assign rows' used ks := by
  induction ks generalizing used with
  | nil => rfl
  | cons k ks ih =>
      rw [assign, assign, ← firstFree_eq_of_single (hsingle k List.mem_cons_self) hmem,
        ih fun k' hk' => hsingle k' (List.mem_cons_of_mem _ hk')]

/-- The first request for a kind finds all candidates of the kind. -/
lemma assign_first (hfun : ∀ x k k', (x, k) ∈ rows → (x, k') ∈ rows → k = k') (hk : k ∈ ks)
    (hfree : ∀ x, (x, k) ∈ rows → x ∉ used) :
    (assign rows used ks)[ks.idxOf k]? = some (firstFree rows [] k) := by
  induction ks generalizing used with
  | nil => cases hk
  | cons k' ks ih =>
      rw [assign]
      by_cases heq : k' = k
      · have hnone : firstFree rows used k = firstFree rows [] k :=
          firstFree_congr fun x hx => by simp [hfree x hx]
        rw [heq, List.idxOf_cons_self, List.getElem?_cons_zero, hnone]
      · have hk' : k ∈ ks := (List.mem_cons.mp hk).resolve_left (Ne.symm heq)
        rw [List.idxOf_cons_ne _ heq, List.getElem?_cons_succ]
        refine ih hk' fun x hx hused => ?_
        rcases List.mem_append.mp hused with hnew | hold
        · have htaken := (firstFree_mem (Option.mem_toList.mp hnew)).1
          exact heq (hfun x k' k htaken hx)
        · exact hfree x hx hold

/-- If the order of the candidates does not matter, there is at most one of each kind. -/
lemma single_of_assign_eq (hfun : ∀ x k k', (x, k) ∈ rows → (x, k') ∈ rows → k = k')
    {got : List (Option ι)} (h : ∀ rows' : List (ι × κ), rows'.Perm rows → assign rows' [] ks = got)
    (hk : k ∈ ks) : Single rows k := by
  have hfirst : ∀ x, (x, k) ∈ rows → got[ks.idxOf k]? = some (some x) := by
    intro x hx
    have hperm : ((x, k) :: rows.erase (x, k)).Perm rows := (List.perm_cons_erase hx).symm
    have hfun' : ∀ y k₁ k₂, (y, k₁) ∈ (x, k) :: rows.erase (x, k) →
        (y, k₂) ∈ (x, k) :: rows.erase (x, k) → k₁ = k₂ := fun y k₁ k₂ h₁ h₂ =>
      hfun y k₁ k₂ (hperm.subset h₁) (hperm.subset h₂)
    rw [← h _ hperm, assign_first hfun' hk fun y _ => by simp, firstFree_cons (by simp)]
  intro x y hx hy
  exact Option.some.inj (Option.some.inj ((hfirst x hx).symm.trans (hfirst y hy)))

end Matching
