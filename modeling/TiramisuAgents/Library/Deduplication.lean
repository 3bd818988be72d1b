import Mathlib.Data.List.Basic
import Mathlib.Tactic

/-!
Services that keep the outcome of a request under its key, so that a request may be delivered more
than once.

A service executes requests, can be asked for the outcome of a key, and has events of its own.
`Idempotent` is its contract: an outcome that is kept stays as it is, a request whose key has an
outcome is answered with it and changes nothing, and an answer that is an outcome is kept.

* `Service`, `Idempotent`: services and the contract.
* `Idempotent.of_guarded`: the contract of a service that looks the key up before it performs.
* `Service.run`, `Service.trace`, `Idempotent.kept_run`, `Idempotent.trace_kept`: deliveries in any
  number and order.
* `Service.settled`: the delivery that settles an outcome.
* `Service.view`, `Idempotent.view`: some of the requests of a service, next to the others.
-/

namespace Deduplication

variable {κ ρ α ω ε π : Type}

/-- A service with state `π`: it executes requests, and knows the outcomes of keys. -/
structure Service (κ ρ α ω ε π : Type) where
  key : ρ → κ
  execute : ρ → π → α × π
  lookup : κ → π → Option ω
  event : ε → π → π

/-- The contract of a service that answers a request with its outcome by `answer`. -/
structure Idempotent (S : Service κ ρ α ω ε π) (answer : ω → α) : Prop where
  kept_execute : ∀ {k o p} (q : ρ), S.lookup k p = some o → S.lookup k (S.execute q p).2 = some o
  kept_event : ∀ {k o p} (e : ε), S.lookup k p = some o → S.lookup k (S.event e p) = some o
  repeats : ∀ {q o p}, S.lookup (S.key q) p = some o → S.execute q p = (answer o, p)
  settles : ∀ {q o p}, (S.execute q p).1 = answer o →
    S.lookup (S.key q) (S.execute q p).2 = some o

/-- What happens to a service. -/
inductive Input (ρ ε : Type) where
  | deliver (request : ρ)
  | event (event : ε)

namespace Service

variable (S : Service κ ρ α ω ε π)

/-- The state after an input. -/
def step (p : π) : Input ρ ε → π
  | .deliver q => (S.execute q p).2
  | .event e => S.event e p

/-- The state after inputs, one after the other. -/
def run (p : π) : List (Input ρ ε) → π
  | [] => p
  | x :: inputs => run (S.step p x) inputs

/-- The requests of a run, with their answers. -/
def trace (p : π) : List (Input ρ ε) → List (ρ × α)
  | [] => []
  | .deliver q :: inputs => (q, (S.execute q p).1) :: trace (S.execute q p).2 inputs
  | .event e :: inputs => trace (S.event e p) inputs

/-- The outcome that the delivery of a request settles: there was none before. -/
def settled (p : π) (q : ρ) : Option ω :=
  if (S.lookup (S.key q) p).isSome then none else S.lookup (S.key q) (S.execute q p).2

variable {S}

lemma settled_eq_some {p : π} {q : ρ} {o : ω} :
    S.settled p q = some o ↔
      S.lookup (S.key q) p = none ∧ S.lookup (S.key q) (S.execute q p).2 = some o := by
  rw [settled]
  split_ifs with h
  · simp [Option.isSome_iff_ne_none.mp h]
  · simp [Option.not_isSome_iff_eq_none.mp h]

/-- A request that is answered was delivered. -/
lemma deliver_mem_of_trace {q : ρ} {x : α} {p : π} {inputs : List (Input ρ ε)}
    (h : (q, x) ∈ S.trace p inputs) : .deliver q ∈ inputs := by
  induction inputs generalizing p with
  | nil => cases h
  | cons y inputs ih =>
      cases y with
      | event e => exact List.mem_cons_of_mem _ (ih h)
      | deliver q' =>
          rcases List.mem_cons.mp h with h | h
          · rw [(Prod.mk.inj h).1]
            exact List.mem_cons_self
          · exact List.mem_cons_of_mem _ (ih h)

end Service

namespace Idempotent

variable {S : Service κ ρ α ω ε π} {answer : ω → α}

/-- A service that answers a request from the outcome of its key, if there is one, and otherwise
keeps what its answer says. -/
lemma of_guarded (hanswer : Function.Injective answer)
    (hevent : ∀ {k o p} (e : ε), S.lookup k p = some o → S.lookup k (S.event e p) = some o)
    (hguard : ∀ {q o p}, S.lookup (S.key q) p = some o → S.execute q p = (answer o, p))
    (hother : ∀ {k q p}, k ≠ S.key q → S.lookup k (S.execute q p).2 = S.lookup k p)
    (hsettles : ∀ {q o p}, S.lookup (S.key q) p = none → (S.execute q p).1 = answer o →
      S.lookup (S.key q) (S.execute q p).2 = some o) : Idempotent S answer where
  kept_execute {k o p} q h := by
    by_cases hkey : k = S.key q
    · subst hkey
      rw [hguard h]
      exact h
    · rw [hother hkey]
      exact h
  kept_event := hevent
  repeats := hguard
  settles {q o p} h := by
    cases hlookup : S.lookup (S.key q) p with
    | none => exact hsettles hlookup h
    | some o' =>
        rw [hguard hlookup] at h ⊢
        rw [hlookup, hanswer h]

variable (hS : Idempotent S answer)
include hS

/-- An input keeps what is kept. -/
lemma kept_step {k : κ} {o : ω} {p : π} (x : Input ρ ε) (h : S.lookup k p = some o) :
    S.lookup k (S.step p x) = some o := by
  cases x with
  | deliver q => exact hS.kept_execute q h
  | event e => exact hS.kept_event e h

/-- **An outcome is final**: no run changes it. -/
lemma kept_run {k : κ} {o : ω} {p : π} (inputs : List (Input ρ ε)) (h : S.lookup k p = some o) :
    S.lookup k (S.run p inputs) = some o := by
  induction inputs generalizing p with
  | nil => exact h
  | cons x inputs ih => exact ih (hS.kept_step x h)

/-- An answer of a run that is an outcome is the outcome of its key in the end. -/
lemma trace_kept {q : ρ} {o : ω} {p : π} {inputs : List (Input ρ ε)}
    (h : (q, answer o) ∈ S.trace p inputs) : S.lookup (S.key q) (S.run p inputs) = some o := by
  induction inputs generalizing p with
  | nil => cases h
  | cons x inputs ih =>
      cases x with
      | event e => exact ih h
      | deliver q' =>
          rw [Service.trace, List.mem_cons] at h
          rcases h with h | h
          · obtain ⟨rfl, hanswer⟩ := Prod.mk.inj h
            exact hS.kept_run inputs (hS.settles hanswer.symm)
          · exact ih h

end Idempotent

/-! ### Views -/

/-- A service as some of its requests see it: what happens to the whole service is an event. -/
def Service.view {κ' ρ' : Type} (S : Service κ ρ α ω ε π) (key : ρ' → κ') (request : ρ' → ρ)
    (inner : κ' → κ) : Service κ' ρ' α ω (Input ρ ε) π where
  key := key
  execute q := S.execute (request q)
  lookup k := S.lookup (inner k)
  event x p := S.step p x

/-- A view honours the contract. -/
lemma Idempotent.view {κ' ρ' : Type} {S : Service κ ρ α ω ε π} {answer : ω → α}
    (hS : Idempotent S answer) {key : ρ' → κ'} {request : ρ' → ρ} {inner : κ' → κ}
    (hkey : ∀ q, S.key (request q) = inner (key q)) :
    Idempotent (S.view key request inner) answer where
  kept_execute q h := hS.kept_execute (request q) h
  kept_event x h := hS.kept_step x h
  repeats {q _ _} h := hS.repeats ((congrArg (S.lookup · _) (hkey q)).trans h)
  settles {q _ _} h := (congrArg (S.lookup · _) (hkey q)).symm.trans (hS.settles h)

end Deduplication
