import TiramisuAgents.Actions.Knowledge

/-!
At most one side effect: an adapter that does not guarantee idempotency is invoked at most once
for a key, whatever the calls and wherever they stop, and a reconciliation invokes nothing.

The commit that inserts the attempt of a key gives out the one permit to invoke the provider;
the permit is passed on along the second transaction of the same call, and an invocation uses
it.  A call that finds an attempt has no permit.

* `permits`, `permits_le`: invocations and permits are at most one for each key.
* `at_most_once`: the guarantee.
-/

namespace TiramisuAgents

open Transactions

/-! ### Permits -/

/-- The event is an invocation for the key. -/
def ActionEvent.invokes (key : String) : ActionEvent → Bool
  | .invoked invocation => invocation.idempotencyKey = key
  | _ => false

/-- How often the provider was invoked for a key. -/
def invocations (key : String) (log : List ActionEvent) : ℕ :=
  log.countP (ActionEvent.invokes key)

/-- The permits of a transaction: the second one of a call that has inserted the attempt. -/
def Phase.permits (key : String) : Phase → ℕ
  | .fence key' _ true => if key' = key then 1 else 0
  | _ => 0

/-- The permits to invoke the provider for a key that a call holds. -/
def permits (key : String) : Stage → ℕ
  | .authorising phase _ _ => phase.permits key
  | .gating _ key' _ => if key' = key then 1 else 0
  | _ => 0

/-- The adapter of the action does not guarantee idempotency. -/
def Unsafe (P : Platform) (db : Database) : Prop :=
  ∀ adapter, db.adapter P = some adapter → adapter.guaranteesIdempotency = false

section

variable {P : Platform} {t t' : Stage} {x : CallInput} {db db' : Database} {obs : List ActionEvent}

lemma Unsafe.of_grows (h : Unsafe P db') (hgrows : db.Grows db') : Unsafe P db :=
  fun a ha => h a (hgrows.adapter_eq ha)

/-- The call that starts has no permit, and neither has one that rests. -/
lemma permits_start (key : String) (c : Call) : permits key c.start = 0 := by
  cases c <;> rfl

lemma permits_of_resting (key : String) (h : t.resting = true) : permits key t = 0 := by
  cases t with
  | idle => rfl
  | ended outcome => rfl
  | _ => cases h

/-- A statement that observes nothing and gives out no permit. -/
lemma paid_of_le {key : String} (hgrows : db.Grows db') (hpermits : permits key t' ≤ permits key t)
    (hobs : invocations key obs = 0) :
    invocations key obs + permits key t' + (if db.attempts key = none then 0 else 1)
      ≤ permits key t + (if db'.attempts key = none then 0 else 1) := by
  have hpresent : (if db.attempts key = none then 0 else 1)
      ≤ (if db'.attempts key = none then 0 else 1) := by
    by_cases hnone : db.attempts key = none
    · simp [hnone]
    · simp [hnone, hgrows.attempts key hnone]
  omega

/-- An invocation uses a permit, and a permit comes with the insert of the attempt. -/
lemma Step.permits_paid (h : Step P t x db t' db' obs) (ht : t.Knows P db) (hdb : Unsafe P db)
    (key : String) :
    invocations key obs + permits key t' + (if db.attempts key = none then 0 else 1)
      ≤ permits key t + (if db'.attempts key = none then 0 else 1) := by
  have hgrows := h.grows
  cases h with
  | halt hresting => exact paid_of_le hgrows (by simp [permits_of_resting key hresting]) rfl
  | start c => exact paid_of_le hgrows (by simp [permits_start]) rfl
  | fence key' adapter isNew revision row =>
      -- a retry passes the fence only with an idempotent adapter
      cases isNew with
      | true => exact paid_of_le hgrows le_rfl rfl
      | false =>
          obtain ⟨⟨-, hadapter, hretry⟩, -⟩ := ht
          have hidempotent := hretry rfl
          rw [hdb adapter hadapter] at hidempotent
          cases hidempotent
  | insert revision key' adapter =>
      by_cases heq : key' = key
      · obtain ⟨-, -, hnone⟩ := ht
        subst heq
        simp [invocations, permits, Phase.permits, ActionEvent.invokes, hnone]
      · exact paid_of_le hgrows (by simp [permits, Phase.permits, heq]) rfl
  | invoke revision key' row =>
      by_cases heq : key' = key
      · simp [invocations, permits, ActionEvent.invokes, heq]
      · simp [invocations, permits, ActionEvent.invokes, heq]
  | review c approval request write =>
      refine paid_of_le hgrows le_rfl ?_
      cases write.request <;> rfl
  | persist p =>
      refine paid_of_le hgrows le_rfl ?_
      cases db.request <;> rfl
  | _ => exact paid_of_le hgrows (by simp [permits, Phase.permits]) rfl

/-- Invocations and permits are at most one for each key. -/
lemma permits_le {n : ℕ} {process : ProcessStatus} {s : Pool n Database Stage ActionEvent}
    {ms : List (Fin n × CallInput)} (h : Runs (calls P) (fun _ _ => True) (fresh n process) ms s)
    (hs : Unsafe P s.store) (key : String) :
    invocations key s.log + ∑ i, permits key (s.calls i)
      ≤ if s.store.attempts key = none then 0 else 1 := by
  let I (s : Pool n Database Stage ActionEvent) : Prop :=
    Joint.Holds (calls P) (fun db _ => db.Consistent P) (fun t db _ => t.Knows P db) s ∧
      (Unsafe P s.store → invocations key s.log + ∑ i, permits key (s.calls i)
        ≤ if s.store.attempts key = none then 0 else 1)
  have hI : I s := by
    refine h.invariant ?_ ⟨sound_runs (Runs.nil (fresh n process) (G := fun _ _ => True)),
      fun _ => ?_⟩
    · rintro s ⟨i, x⟩ s' ⟨hholds, htally⟩ - hstep
      refine ⟨(sound P).step hholds trivial (fun _ _ => trivial) hstep, fun hs' => ?_⟩
      have hunsafe : Unsafe P s.store := by
        obtain ⟨t, db, obs, hmoved, rfl⟩ := step_cases hstep
        exact hs'.of_grows hmoved.grows
      refine tally_step (fun _ log => invocations key log) (permits key)
        (fun db => if db.attempts key = none then 0 else 1) hstep ?_ (htally hunsafe)
      intro t db obs hnext
      have hpaid := (Step.of_next hnext).permits_paid (hholds.calls i) hunsafe key
      rw [invocations, invocations, List.countP_append]
      rw [invocations] at hpaid
      omega
    · simp [fresh, invocations, permits]
  exact hI.2 hs

/-! ### Reconciliations -/

/-- The stages of a call that may still invoke the provider. -/
def Stage.executes : Stage → Bool
  | .authorising .reconcile _ _ => false
  | .authorising _ _ _ | .claimed _ _ _ _ | .looking (.execute _ _) _ | .gating _ _ _ => true
  | _ => false

/-- A call that does not execute goes on so. -/
lemma Step.executes_eq_false (h : Step P t x db t' db' obs) (ht : t.executes = false)
    (hx : ∀ revision, x ≠ .call (.execute revision)) : t'.executes = false := by
  have hauthorising {phase : Phase} {revision revision' : ℕ} {a b : Authorising}
      (h : (Stage.authorising phase revision a).executes = false) :
      (Stage.authorising phase revision' b).executes = false := by
    cases phase with
    | reconcile => rfl
    | _ => cases h
  cases h with
  | halt hresting =>
      cases t' with
      | idle => rfl
      | ended outcome => rfl
      | _ => cases hresting
  | start c =>
      cases c with
      | execute revision => exact absurd rfl (hx revision)
      | _ => rfl
  | admitTenant => exact hauthorising ht
  | select => exact hauthorising ht
  | needApproval => exact hauthorising ht
  | allow => exact hauthorising ht
  | approved => exact hauthorising ht
  | decided => exact hauthorising ht
  | claim => cases ht
  | fence => cases ht
  | insert => cases ht
  | reclaim => cases ht
  | retry => cases ht
  | _ => rfl

/-- A call that does not execute invokes nothing. -/
lemma Step.invocations_eq_zero (h : Step P t x db t' db' obs) (ht : t.executes = false)
    (key : String) : invocations key obs = 0 := by
  rw [invocations, List.countP_eq_zero]
  intro e he hinvokes
  cases e with
  | invoked inv =>
      obtain ⟨revision, key', row, rfl, -⟩ := h.invoked he
      cases ht
  | _ => cases hinvokes

/-- The last call of each place, after a move. -/
def record {n : ℕ} (made : Fin n → Option Call) : Fin n × CallInput → Fin n → Option Call
  | (i, .call c) => Function.update made i (some c)
  | _ => made

/-- The last call of each place, after a list of moves. -/
def lastCalls {n : ℕ} (ms : List (Fin n × CallInput)) : Fin n → Option Call :=
  ms.foldl record fun _ => none

/-- Only a place whose last call is `execute` executes. -/
def Attributed {n : ℕ} (made : Fin n → Option Call) (s : Pool n Database Stage ActionEvent) :
    Prop :=
  ∀ i, (s.calls i).executes = true → ∃ revision, made i = some (.execute revision)

lemma attributed_step {n : ℕ} {made : Fin n → Option Call} {m : Fin n × CallInput}
    {s s' : Pool n Database Stage ActionEvent} (h : s.step (calls P) m = some s')
    (hs : Attributed made s) : Attributed (record made m) s' := by
  obtain ⟨i, x⟩ := m
  obtain ⟨t, db, obs, hnext, -, rfl⟩ := step_eq_some h
  intro j hj
  dsimp only at hj
  by_cases hji : j = i
  · rw [hji, Function.update_self] at hj
    subst hji
    cases x with
    | call c =>
        rw [record, Function.update_self]
        cases c with
        | execute revision => exact ⟨revision, rfl⟩
        | _ =>
            simp only [calls, next, Stage.keep] at hnext
            split_ifs at hnext
            obtain ⟨rfl, -, -⟩ := Prod.mk.inj (Option.some.inj hnext)
            cases hj
    | crash =>
        obtain ⟨rfl, -, -⟩ := Prod.mk.inj (Option.some.inj hnext)
        cases hj
    | answer y =>
        refine hs j ?_
        by_contra hnot
        have hmoved : Step P (s.calls j) (.answer y) s.store t db obs := Step.of_next hnext
        rw [hmoved.executes_eq_false (by simpa using hnot) (by simp)] at hj
        cases hj
  · rw [Function.update_of_ne hji] at hj
    obtain ⟨revision, hmade⟩ := hs j hj
    refine ⟨revision, ?_⟩
    cases x with
    | call c => rw [record, Function.update_of_ne hji, hmade]
    | _ => exact hmade

lemma attributed_runs {n : ℕ} {made : Fin n → Option Call}
    {s s' : Pool n Database Stage ActionEvent}
    {G : Pool n Database Stage ActionEvent → Fin n × CallInput → Prop}
    {ms : List (Fin n × CallInput)}
    (h : Runs (calls P) G s ms s') (hs : Attributed made s) :
    Attributed (ms.foldl record made) s' := by
  induction h generalizing made with
  | nil s => exact hs
  | cons _ hstep _ ih => exact ih (attributed_step hstep hs)

/-! ### The guarantee -/

/-- **At most one side effect.**  In every interleaving of calls, wherever they stop: if the
adapter of the action does not guarantee idempotency, the provider is invoked at most once for
a key; and a step of a call of `reconcile` invokes nothing, whatever the adapter. -/
theorem at_most_once {n : ℕ} {process : ProcessStatus} {s : Pool n Database Stage ActionEvent}
    {ms : List (Fin n × CallInput)} (h : Runs (calls P) (fun _ _ => True) (fresh n process) ms s) :
    (Unsafe P s.store → ∀ key, invocations key s.log ≤ 1) ∧
    ∀ i revision x s', lastCalls ms i = some (.reconcile revision) →
      s.step (calls P) (i, x) = some s' →
      ∀ key, invocations key s'.log = invocations key s.log := by
  refine ⟨fun hunsafe key => ?_, fun i revision x s' hlast hstep key => ?_⟩
  · have hle := permits_le h hunsafe key
    split_ifs at hle <;> omega
  · have hexecutes : (s.calls i).executes = false := by
      by_contra hnot
      have hattributed : Attributed (lastCalls ms) s :=
        attributed_runs h fun j hj => by cases hj
      obtain ⟨revision', hmade⟩ := hattributed i (by simpa using hnot)
      rw [hlast] at hmade
      cases hmade
    obtain ⟨t, db, obs, hmoved, rfl⟩ := step_cases hstep
    have hobs := hmoved.invocations_eq_zero hexecutes key
    rw [invocations] at hobs ⊢
    rw [List.countP_append, hobs, Nat.add_zero, invocations]

end

/-- An execution stops while the provider works, and a reconciliation and a second execution
follow it: the provider was invoked once. -/
theorem at_most_once_retried : ∃ (ms : List (Fin 2 × CallInput))
    (s : Pool 2 Database Stage ActionEvent),
    Runs (calls (samplePlatform false)) (fun _ _ => True) (fresh 2 .active) ms s ∧
    lastCalls ms 1 = some (.reconcile 1) ∧ invocations sampleKey s.log = 1 ∧
    (∀ key, invocations key s.log ≤ 1) ∧
    ∀ x s', s.step (calls (samplePlatform false)) (1, x) = some s' →
      ∀ key, invocations key s'.log = invocations key s.log := by
  let ms : List (Fin 2 × CallInput) := List.flatten
    [persisted 0 .allow, moves 0 (.execute 1) (allowed (.go :: allowed [.gate none])),
      [(0, .crash)], moves 1 (.reconcile 1) (allowed [.go, .go, .lookup .absent]),
      moves 0 (.execute 1) (allowed [.go, .lookup .absent])]
  obtain ⟨s, hruns, honce⟩ := exists_runs (C := calls (samplePlatform false))
    (s := fresh 2 .active) (fun _ _ => true) ms
    (fun s => decide (invocations sampleKey s.log = 1)) (by decide +kernel)
  have hruns : Runs (calls (samplePlatform false)) (fun _ _ => True) (fresh 2 .active) ms s :=
    hruns.mono fun _ _ _ => trivial
  have hunsafe : Unsafe (samplePlatform false) s.store := by
    intro adapter hadapter
    obtain ⟨row, -, hrow⟩ := Option.bind_eq_some_iff.mp hadapter
    rw [← Option.some.inj hrow]
  exact ⟨ms, s, hruns, rfl, of_decide_eq_true honce, (at_most_once hruns).1 hunsafe,
    fun x s' => (at_most_once hruns).2 1 1 x s' rfl⟩

end TiramisuAgents
