import Mathlib.Data.List.Basic
import Mathlib.Algebra.BigOperators.Group.Finset.Basic
import Mathlib.Data.Fintype.BigOperators
import Mathlib.Logic.Function.Basic
import Mathlib.Tactic

/-!
Concurrent calls over a shared store with exclusive locks.

A call is a state machine: `next` gives, for its stage and an answer from outside, the stage
after its next statement, the committed store and what is observed.  What a call has written
but not committed is part of its stage, so a call that stops leaves the store as it is.  A
stage holds locks; a call moves on to a stage only if no other call holds a lock of it.

* `Pool.step`, `Runs`: one step of one call, and runs whose steps satisfy a condition.
* `Exclusive`, `exclusive_step`: a lock has one holder.
* `Runs.history`, `Runs.appended`, `Runs.refine`, `Runs.first_exit`: what holds of a state and the
  moves before it, what a run adds to the log, what its steps do, and the first step of a run that
  leaves a set of states.
* `Solo`, `Solo.runs`: the statements of one call, next to calls that hold no locks.
* `Pool.run`, `exists_runs`: runs that are computed.
* `tally_step`: the rule for a cost that is paid from the weights of the calls.
* `Joint`, `Joint.runs`: the rule for invariants that consist of a part about the store and
  the log, and a part about each call.  A step has to keep the part of the call that makes it,
  and that of a bystander which holds none of its locks.
-/

namespace Transactions

variable {σ τ ι ο κ : Type} {n : ℕ}

/-- The code of the calls, and the locks their stages hold. -/
structure Code (σ τ ι ο κ : Type) where
  next : τ → ι → σ → Option (τ × σ × List ο)
  locks : τ → List κ

/-- The committed store, the stages of `n` calls and the log. -/
structure Pool (n : ℕ) (σ τ ο : Type) where
  store : σ
  calls : Fin n → τ
  log : List ο

variable [DecidableEq κ] (C : Code σ τ ι ο κ)

/-- No other call holds a lock of the stage. -/
def Free (s : Pool n σ τ ο) (i : Fin n) (t : τ) : Prop :=
  ∀ j, j ≠ i → ∀ l ∈ C.locks t, l ∉ C.locks (s.calls j)

instance (s : Pool n σ τ ο) (i : Fin n) (t : τ) : Decidable (Free C s i t) :=
  inferInstanceAs (Decidable (∀ j, j ≠ i → ∀ l ∈ C.locks t, l ∉ C.locks (s.calls j)))

/-- A call makes its next statement, given the answer from outside. -/
def Pool.step (s : Pool n σ τ ο) (m : Fin n × ι) : Option (Pool n σ τ ο) :=
  (C.next (s.calls m.1) m.2 s.store).bind fun r =>
    if Free C s m.1 r.1 then some ⟨r.2.1, Function.update s.calls m.1 r.1, s.log ++ r.2.2⟩
    else none

/-- The runs all of whose steps satisfy a condition on the state before them. -/
inductive Runs (G : Pool n σ τ ο → Fin n × ι → Prop) :
    Pool n σ τ ο → List (Fin n × ι) → Pool n σ τ ο → Prop where
  | nil (s : Pool n σ τ ο) : Runs G s [] s
  | cons {s s' s'' : Pool n σ τ ο} {m : Fin n × ι} {ms : List (Fin n × ι)} :
      G s m → s.step C m = some s' → Runs G s' ms s'' → Runs G s (m :: ms) s''

variable {C} {s s' : Pool n σ τ ο} {i : Fin n} {x : ι}

/-- What a step is. -/
lemma step_eq_some (h : s.step C (i, x) = some s') :
    ∃ t store obs, C.next (s.calls i) x s.store = some (t, store, obs) ∧ Free C s i t ∧
      s' = ⟨store, Function.update s.calls i t, s.log ++ obs⟩ := by
  rw [Pool.step, Option.bind_eq_some_iff] at h
  obtain ⟨⟨t, store, obs⟩, hnext, h⟩ := h
  split at h
  · exact ⟨t, store, obs, hnext, ‹_›, (Option.some.inj h).symm⟩
  · cases h

/-- A statement that is possible, and whose locks are free, is a step. -/
lemma step_eq {t : τ} {store : σ} {obs : List ο}
    (hnext : C.next (s.calls i) x s.store = some (t, store, obs)) (hfree : Free C s i t) :
    s.step C (i, x) = some ⟨store, Function.update s.calls i t, s.log ++ obs⟩ := by
  rw [Pool.step, hnext, Option.bind_some, if_pos hfree]

lemma Runs.mono {G H : Pool n σ τ ο → Fin n × ι → Prop} {ms : List (Fin n × ι)}
    (h : Runs C G s ms s') (hG : ∀ s m, G s m → H s m) : Runs C H s ms s' := by
  induction h with
  | nil s => exact .nil s
  | cons hm hstep _ ih => exact .cons (hG _ _ hm) hstep ih

lemma Runs.trans {G : Pool n σ τ ο → Fin n × ι → Prop} {ms ms' : List (Fin n × ι)}
    {s'' : Pool n σ τ ο} (h : Runs C G s ms s') (h' : Runs C G s' ms' s'') :
    Runs C G s (ms ++ ms') s'' := by
  induction h with
  | nil s => exact h'
  | cons hm hstep _ ih => exact .cons hm hstep (ih h')

/-- The induction rule for runs. -/
lemma Runs.invariant {G : Pool n σ τ ο → Fin n × ι → Prop} {I : Pool n σ τ ο → Prop}
    {ms : List (Fin n × ι)} (h : Runs C G s ms s')
    (hstep : ∀ s m s', I s → G s m → s.step C m = some s' → I s') (hs : I s) : I s' := by
  induction h with
  | nil s => exact hs
  | cons hm hone _ ih => exact ih (hstep _ _ _ hs hm hone)

/-- The induction rule for runs and the moves that have led to a state. -/
lemma Runs.history {G : Pool n σ τ ο → Fin n × ι → Prop}
    {P : List (Fin n × ι) → Pool n σ τ ο → Prop} {ms : List (Fin n × ι)} (h : Runs C G s ms s')
    (hstep : ∀ ms s₁ m s₂, Runs C G s ms s₁ → P ms s₁ → G s₁ m → s₁.step C m = some s₂ →
      P (ms ++ [m]) s₂) (hs : P [] s) : P ms s' := by
  suffices hfrom : ∀ s₁ ms₁ s', Runs C G s₁ ms₁ s' → ∀ ms₀, Runs C G s ms₀ s₁ → P ms₀ s₁ →
      P (ms₀ ++ ms₁) s' from hfrom s ms s' h [] (.nil s) hs
  intro s₁ ms₁ s' hrest
  induction hrest with
  | nil s₁ =>
      intro ms₀ _ hp
      rwa [List.append_nil]
  | @cons s₁ s₂ s₃ m ms₁ hm hone _ ih =>
      intro ms₀ hbefore hp
      have hlonger : Runs C G s (ms₀ ++ [m]) s₂ := hbefore.trans (.cons hm hone (.nil s₂))
      have hnext := ih (ms₀ ++ [m]) hlonger (hstep ms₀ s₁ m s₂ hbefore hp hm hone)
      rwa [List.append_assoc, List.singleton_append] at hnext

/-- What a run that keeps an invariant adds to the log. -/
lemma Runs.appended {G : Pool n σ τ ο → Fin n × ι → Prop} {I : Pool n σ τ ο → Prop}
    (Q : ο → Prop) {ms : List (Fin n × ι)} (h : Runs C G s ms s')
    (hstep : ∀ s m s', I s → G s m → s.step C m = some s' →
      I s' ∧ ∃ obs, s'.log = s.log ++ obs ∧ ∀ o ∈ obs, Q o) (hs : I s) :
    ∃ obs, s'.log = s.log ++ obs ∧ ∀ o ∈ obs, Q o := by
  induction h with
  | nil s => exact ⟨[], (List.append_nil _).symm, fun _ h => absurd h List.not_mem_nil⟩
  | cons hm hone _ ih =>
      obtain ⟨hI, obs, hlog, hobs⟩ := hstep _ _ _ hs hm hone
      obtain ⟨obs', hlog', hobs'⟩ := ih hI
      refine ⟨obs ++ obs', by rw [hlog', hlog, List.append_assoc], fun o ho => ?_⟩
      exact (List.mem_append.mp ho).elim (hobs o) (hobs' o)

/-- What the steps of a run do, with the rest of the run at hand. -/
lemma Runs.refine {G G' : Pool n σ τ ο → Fin n × ι → Prop} {I : Pool n σ τ ο → Prop}
    {ms : List (Fin n × ι)} (h : Runs C G s ms s')
    (hstep : ∀ s₁ m s₂ ms₂, I s₁ → G s₁ m → s₁.step C m = some s₂ → Runs C G s₂ ms₂ s' →
      G' s₁ m ∧ I s₂) (hs : I s) : Runs C G' s ms s' ∧ I s' := by
  induction h with
  | nil s => exact ⟨.nil s, hs⟩
  | cons hm hone hrest ih =>
      obtain ⟨hG', hI⟩ := hstep _ _ _ _ hs hm hone hrest
      obtain ⟨hruns, hend⟩ := ih hstep hI
      exact ⟨.cons hG' hone hruns, hend⟩

/-- A run that leaves a set of states has a first step that leaves it. -/
lemma Runs.first_exit {G : Pool n σ τ ο → Fin n × ι → Prop} (I : Pool n σ τ ο → Prop)
    {ms : List (Fin n × ι)} (h : Runs C G s ms s') (hs : I s) (hs' : ¬ I s') :
    ∃ ms₁ m ms₂ s₁ s₂, ms = ms₁ ++ m :: ms₂ ∧ Runs C (fun s m => G s m ∧ I s) s ms₁ s₁ ∧ I s₁ ∧
      G s₁ m ∧ s₁.step C m = some s₂ ∧ ¬ I s₂ ∧ Runs C G s₂ ms₂ s' := by
  induction h with
  | nil s => exact absurd hs hs'
  | @cons s₁ s₂ s₃ m ms hm hstep hrest ih =>
      by_cases hone : I s₂
      · obtain ⟨ms₁, m', ms₂, t₁, t₂, rfl, hruns, hexit⟩ := ih hone hs'
        exact ⟨m :: ms₁, m', ms₂, t₁, t₂, rfl, .cons ⟨hm, hs⟩ hstep hruns, hexit⟩
      · exact ⟨[], m, ms, s₁, s₂, rfl, .nil s₁, hs, hm, hstep, hone, hrest⟩

/-! ### One call -/

variable (C) in
/-- The statements that a call makes one after the other. -/
inductive Solo : List ι → τ → σ → τ → σ → Prop where
  | nil (t : τ) (store : σ) : Solo [] t store t store
  | cons {x : ι} {xs : List ι} {t t₁ t' : τ} {store store₁ store' : σ} {obs : List ο} :
      C.next t x store = some (t₁, store₁, obs) → Solo xs t₁ store₁ t' store' →
      Solo (x :: xs) t store t' store'

omit [DecidableEq κ] in
lemma Solo.single {t t' : τ} {store store' : σ} {obs : List ο}
    (h : C.next t x store = some (t', store', obs)) : Solo C [x] t store t' store' :=
  .cons h (.nil t' store')

omit [DecidableEq κ] in
lemma Solo.trans {xs ys : List ι} {t t₁ t' : τ} {store store₁ store' : σ}
    (h : Solo C xs t store t₁ store₁) (h' : Solo C ys t₁ store₁ t' store') :
    Solo C (xs ++ ys) t store t' store' := by
  induction h with
  | nil => exact h'
  | cons hnext _ ih => exact .cons hnext (ih h')

/-- The statements of a call are a run, if the other calls hold no locks. -/
lemma Solo.runs {G : Pool n σ τ ο → Fin n × ι → Prop} {xs : List ι} {t' : τ} {store' : σ}
    (h : Solo C xs (s.calls i) s.store t' store')
    (hquiet : ∀ j, j ≠ i → C.locks (s.calls j) = []) (hG : ∀ s x, x ∈ xs → G s (i, x)) :
    ∃ s', Runs C G s (xs.map fun x => (i, x)) s' ∧ s'.store = store' ∧ s'.calls i = t' := by
  generalize ht : s.calls i = t at h
  generalize hstore : s.store = store at h
  induction h generalizing s with
  | nil => exact ⟨s, .nil s, hstore, ht⟩
  | @cons x xs t t₁ t' store store₁ store' obs hnext _ ih =>
      subst ht hstore
      have hfree : Free C s i t₁ := by
        intro j hj l _ hl
        rw [hquiet j hj] at hl
        cases hl
      have hquiet₁ : ∀ j, j ≠ i → C.locks (Function.update s.calls i t₁ j) = [] := by
        intro j hj
        rw [Function.update_of_ne hj]
        exact hquiet j hj
      obtain ⟨s', hruns, hend⟩ :=
        ih (s := ⟨store₁, Function.update s.calls i t₁, s.log ++ obs⟩) hquiet₁
          (fun s y hy => hG s y (List.mem_cons_of_mem _ hy)) (Function.update_self ..) rfl
      exact ⟨s', .cons (hG s x List.mem_cons_self) (step_eq hnext hfree) hruns, hend⟩

/-! ### Computed runs -/

variable (C) in
/-- The state after a list of moves, if each of them is possible and passes the check. -/
def Pool.run (g : Pool n σ τ ο → Fin n × ι → Bool) (s : Pool n σ τ ο) :
    List (Fin n × ι) → Option (Pool n σ τ ο)
  | [] => some s
  | m :: ms => if g s m then (s.step C m).bind fun s' => s'.run g ms else none

lemma runs_of_run {g : Pool n σ τ ο → Fin n × ι → Bool} {ms : List (Fin n × ι)}
    (h : s.run C g ms = some s') : Runs C (fun s m => g s m = true) s ms s' := by
  induction ms generalizing s with
  | nil =>
      rw [Pool.run, Option.some.injEq] at h
      rw [h]
      exact .nil s'
  | cons m ms ih =>
      rw [Pool.run] at h
      split_ifs at h with hm
      obtain ⟨s₁, hstep, hrun⟩ := Option.bind_eq_some_iff.mp h
      exact .cons hm hstep (ih hrun)

/-- A run that ends in a state with a decidable property. -/
lemma exists_runs (g : Pool n σ τ ο → Fin n × ι → Bool) (ms : List (Fin n × ι))
    (p : Pool n σ τ ο → Bool) (h : (s.run C g ms).any p = true) :
    ∃ s', Runs C (fun s m => g s m = true) s ms s' ∧ p s' = true := by
  obtain ⟨s', hrun, hp⟩ := Option.any_eq_true _ _ |>.mp h
  exact ⟨s', runs_of_run hrun, hp⟩

/-! ### Tallies -/

/-- The weights of the calls after one of them has moved. -/
lemma sum_weight_update (w : τ → ℕ) (f : Fin n → τ) (i : Fin n) (t : τ) :
    ∑ j, w (Function.update f i t j) + w (f i) = ∑ j, w (f j) + w t := by
  have hcomp : (fun j => w (Function.update f i t j)) = Function.update (w ∘ f) i (w t) := by
    funext j
    by_cases hj : j = i
    · rw [hj, Function.update_self, Function.update_self]
    · rw [Function.update_of_ne hj, Function.update_of_ne hj, Function.comp]
  rw [hcomp, Finset.sum_update_of_mem (Finset.mem_univ i),
    Finset.sum_eq_add_sum_sdiff_singleton_of_mem (Finset.mem_univ i) fun j => w (f j)]
  simp only [Function.comp]
  omega

/-- A cost that each statement pays for out of the weight of its call, or out of the bound,
stays within the bound. -/
lemma tally_step (cost : σ → List ο → ℕ) (w : τ → ℕ) (bound : σ → ℕ)
    (h : s.step C (i, x) = some s')
    (hpaid : ∀ t store obs, C.next (s.calls i) x s.store = some (t, store, obs) →
      cost store (s.log ++ obs) + w t + bound s.store
        ≤ cost s.store s.log + w (s.calls i) + bound store)
    (hs : cost s.store s.log + ∑ j, w (s.calls j) ≤ bound s.store) :
    cost s'.store s'.log + ∑ j, w (s'.calls j) ≤ bound s'.store := by
  obtain ⟨t, store, obs, hnext, -, rfl⟩ := step_eq_some h
  have hone := hpaid t store obs hnext
  have hsum := sum_weight_update w s.calls i t
  dsimp only
  omega

/-! ### Locks -/

variable (C) in
/-- A lock has at most one holder. -/
def Exclusive (s : Pool n σ τ ο) : Prop :=
  ∀ i j l, l ∈ C.locks (s.calls i) → l ∈ C.locks (s.calls j) → i = j

/-- Steps keep the locks exclusive. -/
lemma exclusive_step (hs : Exclusive C s) (h : s.step C (i, x) = some s') : Exclusive C s' := by
  obtain ⟨t, store, obs, -, hfree, rfl⟩ := step_eq_some h
  intro j k l hj hk
  dsimp only at hj hk
  by_cases hji : j = i
  · by_cases hki : k = i
    · rw [hji, hki]
    · rw [hji, Function.update_self] at hj
      rw [Function.update_of_ne hki] at hk
      exact absurd hk (hfree k hki l hj)
  · rw [Function.update_of_ne hji] at hj
    by_cases hki : k = i
    · rw [hki, Function.update_self] at hk
      exact absurd hj (hfree j hji l hk)
    · rw [Function.update_of_ne hki] at hk
      exact hs j k l hj hk

/-! ### Invariants -/

/-- What has to be shown of one statement for an invariant that has a part `I` about the store
and the log and a part `K` about each call.  `B` is assumed of a statement, and `A` of a
statement next to a bystander. -/
structure Joint (C : Code σ τ ι ο κ) (B : τ → ι → σ → List ο → Prop) (A : τ → τ → ι → σ → Prop)
    (I : σ → List ο → Prop) (K : τ → σ → List ο → Prop) : Prop where
  own : ∀ {t x store log t' store' obs}, C.next t x store = some (t', store', obs) →
    B t x store log → I store log → K t store log → I store' (log ++ obs) ∧ K t' store' (log ++ obs)
  other : ∀ {t u x store log t' store' obs}, C.next t x store = some (t', store', obs) →
    B t x store log → A u t x store → (∀ l ∈ C.locks u, l ∉ C.locks t) →
    I store log → K t store log → K u store log → K u store' (log ++ obs)

namespace Joint

variable {B : τ → ι → σ → List ο → Prop} {A : τ → τ → ι → σ → Prop} {I : σ → List ο → Prop}
  {K : τ → σ → List ο → Prop}

/-- The invariant of a pool. -/
structure Holds (C : Code σ τ ι ο κ) (I : σ → List ο → Prop) (K : τ → σ → List ο → Prop)
    (s : Pool n σ τ ο) : Prop where
  exclusive : Exclusive C s
  common : I s.store s.log
  calls : ∀ i, K (s.calls i) s.store s.log

/-- A step keeps the invariant. -/
lemma step (hJ : Joint C B A I K) (hs : Holds C I K s)
    (hB : B (s.calls i) x s.store s.log)
    (hA : ∀ j, j ≠ i → A (s.calls j) (s.calls i) x s.store)
    (h : s.step C (i, x) = some s') : Holds C I K s' := by
  have hexclusive := exclusive_step hs.exclusive h
  obtain ⟨t, store, obs, hnext, hfree, rfl⟩ := step_eq_some h
  obtain ⟨hcommon, hown⟩ := hJ.own hnext hB hs.common (hs.calls i)
  refine ⟨hexclusive, hcommon, fun j => ?_⟩
  dsimp only
  by_cases hji : j = i
  · rw [hji, Function.update_self]
    exact hown
  · rw [Function.update_of_ne hji]
    refine hJ.other hnext hB (hA j hji) ?_ hs.common (hs.calls i) (hs.calls j)
    exact fun l hj hi => hji (hs.exclusive j i l hj hi)

/-- **The rule for runs**: what holds at the start holds at the end of every run whose steps
satisfy the assumptions. -/
theorem runs (hJ : Joint C B A I K) {G : Pool n σ τ ο → Fin n × ι → Prop}
    (hB : ∀ s i x, G s (i, x) → B (s.calls i) x s.store s.log)
    (hA : ∀ s i x, G s (i, x) → ∀ j, j ≠ i → A (s.calls j) (s.calls i) x s.store)
    {ms : List (Fin n × ι)} (h : Runs C G s ms s') (hs : Holds C I K s) : Holds C I K s' :=
  h.invariant (fun s m _ hs hG hstep => hJ.step hs (hB s m.1 m.2 hG) (hA s m.1 m.2 hG) hstep) hs

end Joint

end Transactions
