import Mathlib.Algebra.Order.Group.Defs
import Mathlib.Data.List.Basic
import Mathlib.Data.List.Count
import Mathlib.Tactic

/-!
Events with a key and a time, in the order in which they happen.

* `count`: how many of them lie in the window that ends at an instant.
* `Apart`: two events of one window have different keys.
* `count_append_le`: the bound on every window, when a new event keeps it in the window that ends
  with it.
* `count_lt_of_charged`: the events of a window, charged to different items of a list.
-/

namespace Windows

variable {κ α : Type} [AddCommGroup α] [LinearOrder α] [IsOrderedAddMonoid α]
  {width now : α} {key : κ} {events : List (κ × α)}

/-- The instant lies in the window of a width that ends at `t`. -/
def Within (width t value : α) : Prop := t - width < value ∧ value ≤ t

instance (width t value : α) : Decidable (Within width t value) :=
  inferInstanceAs (Decidable (_ ∧ _))

/-- The number of events in the window that ends at `t`. -/
def count (events : List (κ × α)) (width t : α) : ℕ :=
  events.countP fun e => Within width t e.2

/-- Two events of one window have different keys. -/
def Apart (width : α) (events : List (κ × α)) : Prop :=
  events.Pairwise fun e e' => e'.2 - width < e.2 → e.1 ≠ e'.1

omit [IsOrderedAddMonoid α] in
lemma Apart.append (h : Apart width events)
    (hnew : ∀ e ∈ events, now - width < e.2 → e.1 ≠ key) :
    Apart width (events ++ [(key, now)]) := by
  refine List.pairwise_append.mpr ⟨h, List.pairwise_singleton _ _, fun e he e' he' => ?_⟩
  rw [List.mem_singleton.mp he']
  exact hnew e he

/-- A new event that keeps the bound on its own window keeps it on all of them. -/
lemma count_append_le {bound : ℕ} (hold : ∀ e ∈ events, e.2 ≤ now)
    (hbound : ∀ t, count events width t ≤ bound) (hnew : count events width now + 1 ≤ bound)
    (t : α) : count (events ++ [(key, now)]) width t ≤ bound := by
  rw [count, List.countP_append, List.countP_singleton]
  split_ifs with hin
  · -- the events of the window that ends at `t` are in the one that ends now
    obtain ⟨hafter, hle⟩ := of_decide_eq_true hin
    have hmono : count events width t ≤ count events width now := by
      refine List.countP_mono_left fun e he hcounted => decide_eq_true ?_
      obtain ⟨hlow, -⟩ := of_decide_eq_true hcounted
      exact ⟨(sub_le_sub_right hle width).trans_lt hlow, hold e he⟩
    exact (Nat.add_le_add_right hmono 1).trans hnew
  · exact hbound t

/-- The events of a window that are charged to different items, with one item left over. -/
lemma count_lt_of_charged {charges : List (κ × α)} (hapart : Apart width events)
    (hold : ∀ e ∈ events, e.2 ≤ now) (hkey : ∃ c ∈ charges, c.1 = key)
    (hcharged : ∀ e ∈ events, now - width < e.2 → e.1 ≠ key ∧ ∃ c ∈ charges, c.1 = e.1) :
    count events width now + 1 ≤ charges.length := by
  let inWindow := events.filter fun e => Within width now e.2
  have hmem {e : κ × α} (he : e ∈ inWindow) : e ∈ events ∧ now - width < e.2 := by
    obtain ⟨he, hin⟩ := List.mem_filter.mp he
    exact ⟨he, (of_decide_eq_true hin).1⟩
  have hdistinct : (inWindow.map Prod.fst).Nodup := by
    refine List.pairwise_map.mpr ?_
    refine (hapart.filter _).imp_of_mem fun {e e'} he he' hne => hne ?_
    have hlow := (hmem he).2
    have hhigh := hold e' (hmem he').1
    exact (sub_le_sub_right hhigh width).trans_lt hlow
  have hnodup : (key :: inWindow.map Prod.fst).Nodup := by
    refine List.nodup_cons.mpr ⟨fun hk => ?_, hdistinct⟩
    obtain ⟨e, he, heq⟩ := List.mem_map.mp hk
    exact (hcharged e (hmem he).1 (hmem he).2).1 heq
  have hsubset : key :: inWindow.map Prod.fst ⊆ charges.map Prod.fst := by
    intro k hk
    obtain rfl | hk := List.mem_cons.mp hk
    · obtain ⟨c, hc, rfl⟩ := hkey
      exact List.mem_map_of_mem hc
    · obtain ⟨e, he, rfl⟩ := List.mem_map.mp hk
      obtain ⟨-, c, hc, hce⟩ := hcharged e (hmem he).1 (hmem he).2
      rw [← hce]
      exact List.mem_map_of_mem hc
  have hlength := (List.subperm_of_subset hnodup hsubset).length_le
  rwa [List.length_cons, List.length_map, List.length_map,
    ← List.countP_eq_length_filter] at hlength

end Windows
