import TiramisuAgents.Library.Transactions
import Mathlib.Logic.Relation

/-!
Transactions that take their locks one by one, and deadlocks.

A statement asks for locks in an order, and is made when its transaction holds them.  What a
transaction holds it keeps until it ends.  Locks have names; the lock of a name is what calls
contend for, so that two names may have one lock.

* `Script`, `Holding`, `Script.code`: the statements with what they ask for, a transaction with
  what it holds, and the code in which each lock is taken by a step of its own.
* `Script.Moves`, `Script.moves`: what a step of a transaction is.
* `Wants`, `WaitsFor`: the wait-for relation of a state.
* `not_transGen_self`: a relation along which a measure rises has no cycle.
* `Script.not_waits`: no cycle, if whoever holds what is asked for waits for something higher.
* `Script.Ranked`, `Ranked.not_waits`: the rule for locks that are taken in the order of ranks.
-/

namespace Transactions

variable {σ τ ι ο ν κ α : Type} {n : ℕ}

/-! ### The wait-for relation -/

section

variable (C : Code σ τ ι ο κ)

/-- The next statement of a call takes a lock that the call does not hold. -/
def Wants (s : Pool n σ τ ο) (i : Fin n) (l : κ) : Prop :=
  ∃ x t store obs, C.next (s.calls i) x s.store = some (t, store, obs) ∧ l ∈ C.locks t ∧
    l ∉ C.locks (s.calls i)

/-- A call wants a lock that another call holds. -/
def WaitsFor (s : Pool n σ τ ο) (i j : Fin n) : Prop :=
  i ≠ j ∧ ∃ l, Wants C s i l ∧ l ∈ C.locks (s.calls j)

end

/-- A relation along which a measure rises has no cycle.  The last element of a path need not be
related to anything, so the measure rises only where the path goes on. -/
lemma not_transGen_self [Preorder α] {β : Type} {r : β → β → Prop} (m : β → α)
    (h : ∀ a b c, r a b → r b c → m a < m b) (a : β) : ¬ Relation.TransGen r a a := by
  have hrise : ∀ b, Relation.TransGen r a b → ∀ c, r b c → m a < m b := by
    intro b hb
    induction hb with
    | single hab => exact fun c hbc => h _ _ c hab hbc
    | tail _ hbc ih => exact fun d hcd => (ih _ hbc).trans (h _ _ d hbc hcd)
  intro hcycle
  obtain ⟨b, hab, -⟩ := Relation.TransGen.head'_iff.mp hcycle
  exact lt_irrefl _ (hrise a hcycle b hab)

/-! ### Locks taken one by one -/

/-- The statements of a transaction, with the locks that the next one asks for, whether the rows
it locks are there, where a transaction stands that is aborted, and where none is open. -/
structure Script (σ τ ι ο ν : Type) where
  next : τ → ι → σ → Option (τ × σ × List ο)
  asks : τ → List ν
  ready : τ → σ → Bool
  abort : τ → τ
  opens : τ → Bool

/-- Where a transaction stands, and the names of the locks it holds. -/
structure Holding (τ ν : Type) where
  stage : τ
  held : List ν
  deriving DecidableEq

section

variable [DecidableEq ν] (S : Script σ τ ι ο ν)

/-- The lock that a transaction takes next, before its next statement. -/
def Script.request (t : Holding τ ν) (s : σ) : Option ν :=
  if S.ready t.stage s then (S.asks t.stage).find? (· ∉ t.held) else none

/-- A step of a transaction: it is aborted, takes a lock, or makes its statement. -/
def Script.step (t : Holding τ ν) (x : Option ι) (s : σ) :
    Option (Holding τ ν × σ × List ο) :=
  match x with
  | none => some (⟨S.abort t.stage, []⟩, s, [])
  | some y =>
      match S.request t s with
      | some l => some ({ t with held := t.held ++ [l] }, s, [])
      | none => (S.next t.stage y s).map fun r =>
          (⟨r.1, if S.opens r.1 then [] else t.held⟩, r.2)

/-- The code of the transactions. -/
def Script.code (lock : ν → κ) : Code σ (Holding τ ν) (Option ι) ο κ where
  next := S.step
  locks t := t.held.map lock

/-- What a step of a transaction is. -/
inductive Script.Moves : Holding τ ν → Option ι → σ → Holding τ ν → σ → List ο → Prop
  | abort (t : Holding τ ν) (s : σ) : Script.Moves t none s ⟨S.abort t.stage, []⟩ s []
  | take {t : Holding τ ν} {y : ι} {s : σ} (l : ν) (asked : S.request t s = some l) :
      Script.Moves t (some y) s { t with held := t.held ++ [l] } s []
  | statement {t : Holding τ ν} {y : ι} {s s' : σ} {obs : List ο} (u : τ)
      (ready : S.request t s = none) (next : S.next t.stage y s = some (u, s', obs)) :
      Script.Moves t (some y) s ⟨u, if S.opens u then [] else t.held⟩ s' obs

variable {S} {lock : ν → κ} {t t' : Holding τ ν} {x : Option ι} {s s' : σ} {obs : List ο}

lemma Script.moves (h : S.step t x s = some (t', s', obs)) : S.Moves t x s t' s' obs := by
  unfold Script.step at h
  split at h
  · cases h
    exact .abort t s
  · split at h
    · cases h
      exact .take _ ‹_›
    · rw [Option.map_eq_some_iff] at h
      obtain ⟨⟨u, s₁, obs₁⟩, hnext, h⟩ := h
      cases h
      exact .statement _ ‹_› hnext

lemma Script.mem_asks {l : ν} (h : S.request t s = some l) : l ∈ S.asks t.stage ∧ l ∉ t.held := by
  unfold Script.request at h
  split at h
  · exact ⟨List.mem_of_find?_eq_some h, by simpa using List.find?_some h⟩
  · cases h

lemma Script.ready_of_request {l : ν} (h : S.request t s = some l) :
    S.ready t.stage s = true := by
  unfold Script.request at h
  split at h
  · assumption
  · cases h

/-- What is asked for before the lock that is taken is held. -/
lemma Script.before {l l' : ν} (h : S.request t s = some l) (hl' : l' ∈ S.asks t.stage)
    (hnot : l' ∉ t.held) : l' = l ∨ ∃ as bs, S.asks t.stage = as ++ l :: bs ∧ l' ∈ bs := by
  unfold Script.request at h
  split at h
  · obtain ⟨-, as, bs, hasks, hheld⟩ := List.find?_eq_some_iff_append.mp h
    rw [hasks, List.mem_append, List.mem_cons] at hl'
    rcases hl' with hfirst | hlater
    · have hin : l' ∈ t.held := by simpa using hheld l' hfirst
      exact absurd hin hnot
    · exact hlater.imp_right fun hmem => ⟨as, bs, hasks, hmem⟩
  · cases h

/-- What is asked for in the order of ranks is above the lock that is taken, until it is held. -/
lemma Script.rank_lt [PartialOrder α] {rank : ν → α} {l l' : ν}
    (hsorted : (S.asks t.stage).Pairwise fun l l' => rank l ≤ rank l')
    (hdistinct : ∀ l ∈ S.asks t.stage, ∀ l' ∈ S.asks t.stage, rank l = rank l' → l = l')
    (h : S.request t s = some l) (hl' : l' ∈ S.asks t.stage) (hnot : l' ∉ t.held) (hne : l' ≠ l) :
    rank l < rank l' := by
  obtain heq | ⟨as, bs, hasks, hlater⟩ := Script.before h hl' hnot
  · exact absurd heq hne
  · have hle : rank l ≤ rank l' := by
      rw [hasks] at hsorted
      exact List.rel_of_pairwise_cons (List.pairwise_append.mp hsorted).2.1 hlater
    refine lt_of_le_of_ne hle fun heq => hne ?_
    exact (hdistinct _ (Script.mem_asks h).1 _ hl' heq).symm

variable {p : Pool n σ (Holding τ ν) ο} {i : Fin n}

/-- What a transaction wants is the lock it takes next. -/
lemma Script.request_of_wants {l : κ} (h : Wants (S.code lock) p i l) :
    ∃ l', S.request (p.calls i) p.store = some l' ∧ lock l' = l := by
  obtain ⟨x, t, store, obs, hnext, hin, hnot⟩ := h
  change l ∈ t.held.map lock at hin
  change l ∉ (p.calls i).held.map lock at hnot
  have hmoves := Script.moves hnext
  generalize p.calls i = u at hmoves hnot
  cases hmoves with
  | abort => cases hin
  | take l asked =>
      rw [List.map_append, List.mem_append] at hin
      rcases hin with hold | hnew
      · exact absurd hold hnot
      · exact ⟨_, asked, (List.mem_singleton.mp hnew).symm⟩
  | statement u ready next =>
      split at hin
      · cases hin
      · exact absurd hin hnot

/-- A lock that is asked for and that the transaction does not hold is wanted. -/
lemma Script.wants_of_request {l : ν} (y : ι) (h : S.request (p.calls i) p.store = some l)
    (hnot : lock l ∉ (p.calls i).held.map lock) : Wants (S.code lock) p i (lock l) := by
  refine ⟨some y, { p.calls i with held := (p.calls i).held ++ [l] }, p.store, [], ?_, ?_, hnot⟩
  · change S.step (p.calls i) (some y) p.store = _
    rw [Script.step, h]
  · change lock l ∈ ((p.calls i).held ++ [l]).map lock
    simp

/-- A call waits for the holder of the lock it takes next. -/
lemma Script.waitsFor {j : Fin n} {l : ν} (y : ι) (hij : i ≠ j)
    (h : S.request (p.calls i) p.store = some l ∧ lock l ∉ (p.calls i).held.map lock ∧
      lock l ∈ (p.calls j).held.map lock) : WaitsFor (S.code lock) p i j :=
  ⟨hij, _, Script.wants_of_request y h.1 h.2.1, h.2.2⟩

/-- No cycle, if whoever holds what is asked for, and waits itself, waits for something higher. -/
theorem Script.not_waits [Preorder α] (rank : ν → α)
    (h : ∀ i j k l l', i ≠ j → j ≠ k → S.request (p.calls i) p.store = some l →
      lock l ∈ (p.calls j).held.map lock → S.request (p.calls j) p.store = some l' →
      lock l' ∈ (p.calls k).held.map lock → rank l < rank l') (i : Fin n) :
    ¬ Relation.TransGen (WaitsFor (S.code lock) p) i i := by
  let m : Fin n → WithBot α := fun i => (S.request (p.calls i) p.store).map rank
  refine not_transGen_self m (fun i j k hij hjk => ?_) i
  obtain ⟨hne, l, hwants, hheld⟩ := hij
  obtain ⟨hne', l', hwants', hheld'⟩ := hjk
  obtain ⟨a, ha, rfl⟩ := Script.request_of_wants hwants
  obtain ⟨b, hb, rfl⟩ := Script.request_of_wants hwants'
  have hlt : rank a < rank b := h i j k a b hne hne' ha hheld hb hheld'
  have hi : m i = (rank a : WithBot α) := by simp only [m, ha]; rfl
  have hj : m j = (rank b : WithBot α) := by simp only [m, hb]; rfl
  rw [hi, hj]
  exact WithBot.coe_lt_coe.mpr hlt

end

/-! ### Locks taken in the order of ranks -/

section

variable [DecidableEq ν] [PartialOrder α]

/-- What a statement asks for is sorted by rank and above a floor, and the floor rises over what
has been asked for. -/
structure Script.Ranked (S : Script σ τ ι ο ν) (rank : ν → α) (floor : τ → α) : Prop where
  sorted : ∀ t, (S.asks t).Pairwise fun l l' => rank l ≤ rank l'
  distinct : ∀ t, ∀ l ∈ S.asks t, ∀ l' ∈ S.asks t, rank l = rank l' → l = l'
  above : ∀ t, ∀ l ∈ S.asks t, floor t ≤ rank l
  rises : ∀ {t y s u s' obs}, S.next t y s = some (u, s', obs) → S.opens u = false →
    floor t ≤ floor u ∧ ∀ l ∈ S.asks t, rank l < floor u

/-- What a transaction holds is under its floor or has just been asked for, and is under what it
has still to take. -/
structure Holding.Ordered (S : Script σ τ ι ο ν) (rank : ν → α) (floor : τ → α)
    (t : Holding τ ν) : Prop where
  under : ∀ h ∈ t.held, h ∈ S.asks t.stage ∨ rank h < floor t.stage
  below : ∀ h ∈ t.held, ∀ l ∈ S.asks t.stage, l ∉ t.held → rank h < rank l

variable {S : Script σ τ ι ο ν} {rank : ν → α} {floor : τ → α} {t t' : Holding τ ν}
  {x : Option ι} {s s' : σ} {obs : List ο}

omit [DecidableEq ν] in
lemma Holding.Ordered.empty (t : τ) : (⟨t, []⟩ : Holding τ ν).Ordered S rank floor :=
  ⟨fun _ h => absurd h List.not_mem_nil, fun _ h => absurd h List.not_mem_nil⟩

namespace Script.Ranked

/-- The step lemma: a transaction keeps its locks in order. -/
lemma ordered_step (hS : S.Ranked rank floor) (h : S.Moves t x s t' s' obs)
    (ht : t.Ordered S rank floor) : t'.Ordered S rank floor := by
  cases h with
  | abort => exact .empty _
  | take l asked =>
      obtain ⟨hasked, -⟩ := Script.mem_asks asked
      refine ⟨fun h hh => ?_, fun h hh l' hl' hnot => ?_⟩
      · rcases List.mem_append.mp hh with hold | hnew
        · exact ht.under h hold
        · exact .inl (List.mem_singleton.mp hnew ▸ hasked)
      · rw [List.mem_append, List.mem_singleton, not_or] at hnot
        rcases List.mem_append.mp hh with hold | hnew
        · exact ht.below h hold l' hl' hnot.1
        obtain rfl := List.mem_singleton.mp hnew
        exact Script.rank_lt (hS.sorted _) (hS.distinct _) asked hl' hnot.1 hnot.2
  | statement u ready next =>
      cases hopens : S.opens u with
      | true => exact .empty u
      | false =>
          rw [if_neg Bool.false_ne_true]
          obtain ⟨hfloor, hasks⟩ := hS.rises next hopens
          have hunder : ∀ h ∈ t.held, rank h < floor u := fun h hh =>
            (ht.under h hh).elim (hasks h) fun hlt => hlt.trans_le hfloor
          refine ⟨fun h hh => .inr (hunder h hh), fun h hh l hl _ => ?_⟩
          exact (hunder h hh).trans_le (hS.above u l hl)

variable [DecidableEq κ] {lock : ν → κ} {p p' : Pool n σ (Holding τ ν) ο}
  {G : Pool n σ (Holding τ ν) ο → Fin n × Option ι → Prop} {ms : List (Fin n × Option ι)}

/-- The run lemma. -/
lemma ordered_runs (hS : S.Ranked rank floor) (h : Runs (S.code lock) G p ms p')
    (hp : ∀ i, (p.calls i).Ordered S rank floor) : ∀ i, (p'.calls i).Ordered S rank floor := by
  refine h.invariant (I := fun p => ∀ i, (p.calls i).Ordered S rank floor)
    (fun p m p₁ hp _ hstep => ?_) hp
  obtain ⟨j, x⟩ := m
  obtain ⟨t, store, obs, hnext, -, rfl⟩ := step_eq_some hstep
  intro i
  by_cases hij : i = j
  · subst hij
    change (Function.update p.calls i t i).Ordered S rank floor
    rw [Function.update_self]
    exact hS.ordered_step (Script.moves hnext) (hp i)
  · change (Function.update p.calls j t i).Ordered S rank floor
    rw [Function.update_of_ne hij]
    exact hp i

/-- Transactions that take their locks in the order of ranks never wait in a cycle, if the names
that have one lock have one rank. -/
theorem not_waits (hS : S.Ranked rank floor) (h : Runs (S.code lock) G p ms p')
    (hp : ∀ i, (p.calls i).Ordered S rank floor)
    (hlock : ∀ i j l h, S.request (p'.calls i) p'.store = some l → h ∈ (p'.calls j).held →
      lock h = lock l → rank h = rank l) (i : Fin n) :
    ¬ Relation.TransGen (WaitsFor (S.code lock) p') i i := by
  refine Script.not_waits rank (fun i j _ l l' _ _ hl hheld hl' _ => ?_) i
  obtain ⟨h, hh, heq⟩ := List.mem_map.mp hheld
  obtain ⟨hasked, hnot⟩ := Script.mem_asks hl'
  calc rank l = rank h := (hlock i j l h hl hh heq).symm
    _ < rank l' := (hS.ordered_runs ‹_› hp j).below h hh l' hasked hnot

end Script.Ranked

end

end Transactions
