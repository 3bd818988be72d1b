import Mathlib.Data.List.Basic
import Mathlib.Order.Lattice
import Mathlib.Tactic

/-!
Time zones: offsets from UTC that change at transitions, and wall-clock times with a fold.

A wall-clock time that an offset change repeats has two instants, the earlier with fold 0; one
that a change skips is read with the offset before the change for fold 0, and with the offset
after it for fold 1 (PEP 495).  Both say that fold 0 keeps the old offset until the later of the
two walls at the change, and fold 1 until the earlier.

* `Zone`, `Zone.wall`, `Zone.utc`: a zone, the wall-clock time of an instant, and the instant of
  a wall-clock time with its fold.
* `Zone.Constant`: the offset never changes; `Constant.wall`, `Constant.utc`.
* `Zone.Steady`: there is at most one change near an instant; then a wall-clock time that is not
  later has an instant that is not later (`Steady.exists_utc_le`), and a later one has a later
  instant (`Steady.exists_lt_utc`).
-/

namespace TimeZones

/-! ### Zones -/

/-- The offset at an instant: `o` until the first change. -/
def instantOffset : ℤ → List (ℤ × ℤ) → ℤ → ℤ
  | o, [], _ => o
  | o, (change, o') :: rest, t => if t < change then o else instantOffset o' rest t

/-- The offset of a wall-clock time with its fold. -/
def wallOffset (fold : Bool) : ℤ → List (ℤ × ℤ) → ℤ → ℤ
  | o, [], _ => o
  | o, (change, o') :: rest, w =>
      if w < change + (if fold then min o o' else max o o') then o
      else wallOffset fold o' rest w

/-- A zone: its first offset, and the instants of its changes with the offset from then on.
Offsets are less than `bound` in size. -/
structure Zone (bound : ℤ) where
  initial : ℤ
  changes : List (ℤ × ℤ)
  ordered : changes.Pairwise fun p q => p.1 < q.1
  bounded : ∀ o ∈ initial :: changes.map Prod.snd, -bound < o ∧ o < bound

namespace Zone

variable {bound : ℤ} (z : Zone bound)

/-- The wall-clock time of an instant. -/
def wall (t : ℤ) : ℤ := t + instantOffset z.initial z.changes t

/-- The instant of a wall-clock time. -/
def utc (fold : Bool) (w : ℤ) : ℤ := w - wallOffset fold z.initial z.changes w

/-! ### A constant offset -/

/-- The offset never changes. -/
def Constant : Prop := ∀ p ∈ z.changes, p.2 = z.initial

instance : Decidable z.Constant := inferInstanceAs (Decidable (∀ p ∈ z.changes, p.2 = z.initial))

lemma instantOffset_constant {o : ℤ} {changes : List (ℤ × ℤ)} (h : ∀ p ∈ changes, p.2 = o) (t : ℤ) :
    instantOffset o changes t = o := by
  induction changes with
  | nil => rfl
  | cons p rest ih =>
      obtain ⟨change, o'⟩ := p
      obtain rfl : o' = o := h _ List.mem_cons_self
      rw [instantOffset, ih fun q hq => h q (List.mem_cons_of_mem _ hq), ite_self]

lemma wallOffset_constant {fold : Bool} {o : ℤ} {changes : List (ℤ × ℤ)}
    (h : ∀ p ∈ changes, p.2 = o) (w : ℤ) : wallOffset fold o changes w = o := by
  induction changes with
  | nil => rfl
  | cons p rest ih =>
      obtain ⟨change, o'⟩ := p
      obtain rfl : o' = o := h _ List.mem_cons_self
      rw [wallOffset, ih fun q hq => h q (List.mem_cons_of_mem _ hq), ite_self]

variable {z}

lemma Constant.wall (h : z.Constant) (t : ℤ) : z.wall t = t + z.initial := by
  rw [Zone.wall, instantOffset_constant h]

lemma Constant.utc (h : z.Constant) (fold : Bool) (w : ℤ) : z.utc fold w = w - z.initial := by
  rw [Zone.utc, wallOffset_constant h]

/-! ### At most one change nearby -/

variable (z) in
/-- There is at most one change within `radius` of an instant. -/
def Steady (radius t : ℤ) : Prop := (z.changes.filter fun p => |p.1 - t| ≤ radius).length ≤ 1

instance (radius t : ℤ) : Decidable (z.Steady radius t) := inferInstanceAs (Decidable (_ ≤ 1))

section

variable {t o radius : ℤ} {changes : List (ℤ × ℤ)}

/-- Changes that are far ahead are not seen at an instant. -/
lemma instantOffset_ahead (hahead : ∀ p ∈ changes, t < p.1) : instantOffset o changes t = o := by
  cases changes with
  | nil => rfl
  | cons p rest =>
      obtain ⟨change, o'⟩ := p
      have hp : t < change := hahead _ List.mem_cons_self
      rw [instantOffset, if_pos hp]

/-- Nor are they seen on the wall. -/
lemma wallOffset_ahead {fold : Bool} {w : ℤ}
    (hbound : ∀ r ∈ o :: changes.map Prod.snd, -bound < r ∧ r < bound)
    (hahead : ∀ p ∈ changes, w + bound ≤ p.1) : wallOffset fold o changes w = o := by
  cases changes with
  | nil => rfl
  | cons p rest =>
      obtain ⟨change, o'⟩ := p
      have hp : w + bound ≤ change := hahead _ List.mem_cons_self
      have ho := hbound o List.mem_cons_self
      have ho' := hbound o' (by simp)
      rw [wallOffset, if_pos]
      split_ifs <;> omega

/-- The changes after one that is within the radius are beyond it. -/
lemma ahead_of_near {p : ℤ × ℤ} {rest : List (ℤ × ℤ)}
    (hordered : (p :: rest).Pairwise fun p q => p.1 < q.1)
    (hsteady : ((p :: rest).filter fun p => |p.1 - t| ≤ radius).length ≤ 1)
    (hnear : |p.1 - t| ≤ radius) : ∀ q ∈ rest, t + radius < q.1 := by
  intro q hq
  rw [List.filter_cons, if_pos (by simpa using hnear), List.length_cons] at hsteady
  have hnone : rest.filter (fun p => |p.1 - t| ≤ radius) = [] := by
    rw [← List.length_eq_zero_iff]
    omega
  have hfar := List.filter_eq_nil_iff.mp hnone q hq
  have hlt : p.1 < q.1 := (List.pairwise_cons.mp hordered).1 q hq
  simp only [decide_eq_true_eq, abs_le, not_and_or, not_le] at hfar hnear
  omega

/-- Near a steady instant the offsets are those of one change. -/
lemma exists_single (hradius : 0 ≤ radius) (hordered : changes.Pairwise fun p q => p.1 < q.1)
    (hbound : ∀ r ∈ o :: changes.map Prod.snd, -bound < r ∧ r < bound)
    (hsteady : (changes.filter fun p => |p.1 - t| ≤ radius).length ≤ 1) :
    ∃ before change after, (-bound < before ∧ before < bound) ∧ (-bound < after ∧ after < bound) ∧
      (∀ s, |s - t| ≤ radius →
        instantOffset o changes s = instantOffset before [(change, after)] s) ∧
      ∀ fold w, |w - t| ≤ radius - bound →
        wallOffset fold o changes w = wallOffset fold before [(change, after)] w := by
  induction changes generalizing o with
  | nil =>
      have ho := hbound o List.mem_cons_self
      exact ⟨o, 0, o, ho, ho, fun s _ => by simp [instantOffset],
        fun fold w _ => by simp [wallOffset]⟩
  | cons p rest ih =>
      obtain ⟨change, o'⟩ := p
      have ho := hbound o List.mem_cons_self
      have ho' := hbound o' (by simp)
      have hrest : ∀ r ∈ o' :: rest.map Prod.snd, -bound < r ∧ r < bound :=
        fun r hr => hbound r (List.mem_cons_of_mem _ hr)
      have hlater := List.pairwise_cons.mp hordered
      by_cases hnear : |change - t| ≤ radius
      · -- the one change of the zone that is near
        have hahead := ahead_of_near hordered hsteady hnear
        refine ⟨o, change, o', ho, ho', fun s hs => ?_, fun fold w hw => ?_⟩
        · have hlast : instantOffset o' rest s = o' := instantOffset_ahead fun q hq => by
            have := hahead q hq
            rw [abs_le] at hs
            omega
          rw [instantOffset, hlast, instantOffset, instantOffset]
        · have hlast : wallOffset fold o' rest w = o' := wallOffset_ahead hrest fun q hq => by
            have := hahead q hq
            rw [abs_le] at hw
            omega
          rw [wallOffset, hlast, wallOffset, wallOffset]
      rcases lt_or_ge change t with hpast | hfuture
      · -- a change of long ago: the other changes decide
        rw [List.filter_cons, if_neg (by simpa using hnear)] at hsteady
        obtain ⟨before, c, after, hb, ha, hinstant, hwall⟩ := ih hlater.2 hrest hsteady
        rw [abs_le] at hnear
        refine ⟨before, c, after, hb, ha, fun s hs => ?_, fun fold w hw => ?_⟩
        · rw [← hinstant s hs, instantOffset, if_neg]
          rw [abs_le] at hs
          omega
        · rw [← hwall fold w hw, wallOffset, if_neg]
          rw [abs_le] at hw
          split_ifs <;> omega
      · -- nothing changes until far ahead
        have hahead : ∀ q ∈ (change, o') :: rest, t + radius < q.1 := by
          rw [abs_le] at hnear
          intro q hq
          rcases List.mem_cons.mp hq with rfl | hq
          · dsimp only
            omega
          · have := hlater.1 q hq
            omega
        refine ⟨o, 0, o, ho, ho, fun s hs => ?_, fun fold w hw => ?_⟩
        · rw [instantOffset_ahead fun q hq => ?_]
          · simp [instantOffset]
          · have := hahead q hq
            rw [abs_le] at hs
            omega
        · rw [wallOffset_ahead hbound fun q hq => ?_]
          · simp [wallOffset]
          · have := hahead q hq
            rw [abs_le] at hw
            omega

end

section

variable {reach radius t w : ℤ} (hradius : reach + 2 * bound ≤ radius) (h : z.Steady radius t)
  (hclose : |w - z.wall t| ≤ reach)
include hradius h hclose

/-- Near a steady instant the wall is that of one change. -/
lemma Steady.exists_single :
    ∃ before change after, z.wall t = t + instantOffset before [(change, after)] t ∧
      ∀ fold, z.utc fold w = w - wallOffset fold before [(change, after)] w := by
  have hinitial := z.bounded z.initial List.mem_cons_self
  have hreach : 0 ≤ reach := (abs_nonneg _).trans hclose
  obtain ⟨before, change, after, hb, ha, hinstant, hwall⟩ :=
    Zone.exists_single (by omega) z.ordered z.bounded h
  have ht := hinstant t (by rw [sub_self, abs_zero]; omega)
  refine ⟨before, change, after, by rw [wall, ht], fun fold => ?_⟩
  rw [utc, hwall fold w]
  rw [wall, ht, instantOffset, instantOffset, abs_le] at hclose
  rw [abs_le]
  split_ifs at hclose <;> omega

/-- A wall-clock time that is not later has an instant that is not later. -/
theorem Steady.exists_utc_le (hw : w ≤ z.wall t) : ∃ fold, z.utc fold w ≤ t := by
  obtain ⟨before, change, after, hwall, hutc⟩ := h.exists_single hradius hclose
  rw [hwall, instantOffset, instantOffset] at hw
  by_cases hbefore : t < change
  · refine ⟨false, ?_⟩
    rw [if_pos hbefore] at hw
    rw [hutc, wallOffset, if_neg Bool.false_ne_true, if_pos] <;> omega
  · refine ⟨true, ?_⟩
    rw [if_neg hbefore] at hw
    rw [hutc, wallOffset, if_pos rfl, wallOffset]
    split_ifs <;> omega

/-- A later wall-clock time has a later instant. -/
theorem Steady.exists_lt_utc (hw : z.wall t < w) : ∃ fold, t < z.utc fold w := by
  obtain ⟨before, change, after, hwall, hutc⟩ := h.exists_single hradius hclose
  rw [hwall, instantOffset, instantOffset] at hw
  by_cases hbefore : t < change
  · refine ⟨false, ?_⟩
    rw [if_pos hbefore] at hw
    rw [hutc, wallOffset, if_neg Bool.false_ne_true, wallOffset]
    split_ifs <;> omega
  · refine ⟨true, ?_⟩
    rw [if_neg hbefore] at hw
    rw [hutc, wallOffset, if_pos rfl, if_neg, wallOffset] <;> omega

end

end Zone

end TimeZones
