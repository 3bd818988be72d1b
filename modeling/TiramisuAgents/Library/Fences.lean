import Mathlib.Algebra.BigOperators.Group.Finset.Basic
import Mathlib.Algebra.Order.BigOperators.Group.Finset
import Mathlib.Tactic

/-!
A total that many parties charge, each after it has seen the total below a cap.

A party that has seen the total below the cap is in flight until it charges or gives up; meanwhile
others charge.  The total passes the cap by no more than the last charges of parties that are out
of flight.

* `Within`: the bound.
* `Within.of_lt`, `Within.charge`, `Within.mono`: a party looks, charges, gives up.
* `Within.lt_sum`: the bound by the last charges of all parties.
-/

namespace Fences

variable {P : Type}

/-- The total exceeds the cap by less than the last charges of some parties out of flight. -/
def Within (cap total : ℕ) (last : P → ℕ) (flying : P → Prop) : Prop :=
  ∃ R : Finset P, (∀ p ∈ R, ¬ flying p) ∧ total < cap + ∑ p ∈ R, last p

variable {cap total : ℕ} {last last' : P → ℕ} {flying flying' : P → Prop}

/-- The total is below the cap. -/
lemma Within.of_lt (h : total < cap) : Within cap total last flying :=
  ⟨∅, by simp, by simpa using h⟩

/-- Fewer parties are in flight. -/
lemma Within.mono (h : Within cap total last flying) (hflying : ∀ p, flying' p → flying p) :
    Within cap total last flying' := by
  obtain ⟨R, hR, hlt⟩ := h
  exact ⟨R, fun p hp hp' => hR p hp (hflying p hp'), hlt⟩

/-- Only the charges of parties out of flight matter. -/
lemma Within.congr (h : Within cap total last flying) (hlast : ∀ p, ¬ flying p → last' p = last p) :
    Within cap total last' flying := by
  obtain ⟨R, hR, hlt⟩ := h
  refine ⟨R, hR, ?_⟩
  rwa [Finset.sum_congr rfl fun p hp => hlast p (hR p hp)]

/-- A party in flight charges, and is in flight no more. -/
lemma Within.charge [DecidableEq P] {p : P} {charge : ℕ} (h : Within cap total last flying)
    (hp : flying p) (hflying : ∀ q, flying' q → flying q ∧ q ≠ p) :
    Within cap (total + charge) (Function.update last p charge) flying' := by
  obtain ⟨R, hR, hlt⟩ := h
  have hnot : p ∉ R := fun hmem => hR p hmem hp
  have hsum : ∑ q ∈ R, Function.update last p charge q = ∑ q ∈ R, last q := by
    refine Finset.sum_congr rfl fun q hq => Function.update_of_ne ?_ _ _
    rintro rfl
    exact hnot hq
  refine ⟨insert p R, fun q hq hq' => ?_, ?_⟩
  · obtain ⟨hold, hne⟩ := hflying q hq'
    exact hR q ((Finset.mem_insert.mp hq).resolve_left hne) hold
  · rw [Finset.sum_insert hnot, Function.update_self, hsum]
    omega

/-- The bound by the last charges of parties that include all that have charged. -/
lemma Within.lt_sum (h : Within cap total last flying) {S : Finset P}
    (hS : ∀ p, ¬ flying p → last p ≠ 0 → p ∈ S) : total < cap + ∑ p ∈ S, last p := by
  obtain ⟨R, hR, hlt⟩ := h
  have hle : ∑ p ∈ R, last p ≤ ∑ p ∈ S, last p :=
    Finset.sum_le_sum_of_ne_zero fun p hp hne => hS p (hR p hp) hne
  omega

end Fences
