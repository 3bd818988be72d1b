import Mathlib.Data.List.Chain
import TiramisuAgents.Core.Contracts
import TiramisuAgents.Core.Text
import TiramisuAgents.Library.Transactions

/-!
The circuit breakers of a tenant: `CircuitBreakerService` (`budgets/breakers.py`).

The transitions of all breakers are rows of one table that is only added to.  The state of a
breaker is its newest row.  A transition takes an advisory lock for its breaker, reads the newest
row and adds one; the lock is held to the end of the transaction, which may make more
transitions.

* `normalizeBreakerTarget`, `latest`, `transitionedAt`: the functions of the source.
* `Transaction`, `Stage`, `Answer`: the transaction of a session and where its call stands.
* `breakers`: the code.
* `Orderly`: a history that alternates, beginning with a trip, at increasing times.
* `breaker_history`: in every run the histories are orderly, `latest` is the last transition, and
  a call that repeats it raises.
-/

namespace TiramisuAgents.Budgets

open Transactions

/-! ### Breakers -/

/-- `BreakerScope`. -/
inductive BreakerScope where
  | modelCalls | outboundMessages | capability | all
  deriving DecidableEq, Repr

/-- The value of a scope. -/
def BreakerScope.value : BreakerScope → String
  | .modelCalls => "model_calls"
  | .outboundMessages => "outbound_messages"
  | .capability => "capability"
  | .all => "all"

/-- A row of `circuit_breakers`. -/
structure CircuitBreaker where
  id : UUID
  tenantId : UUID
  scope : String
  target : String
  tripped : Bool
  reason : String
  actorId : UUID
  createdAt : Time
  deriving DecidableEq, Repr

/-- `BreakerState`. -/
structure BreakerState where
  scope : BreakerScope
  target : String
  tripped : Bool
  reason : String
  actorId : UUID
  transitionedAt : Time
  deriving DecidableEq, Repr

/-- The state that a row stands for. -/
def CircuitBreaker.state (r : CircuitBreaker) (scope : BreakerScope) : BreakerState where
  scope := scope
  target := r.target
  tripped := r.tripped
  reason := r.reason
  actorId := r.actorId
  transitionedAt := r.createdAt

/-- `normalize_breaker_target`. -/
def normalizeBreakerTarget (scope : BreakerScope) (target : String) : Except String String :=
  if scope = .capability then
    if strip target = "" then .error "capability breakers require a non-blank action type"
    else if 200 < (strip target).length then .error "capability breaker action type is too long"
    else .ok (strip target)
  else if target ≠ "" then .error "only capability breakers accept a target"
  else .ok ""

/-- The transitions of a breaker. -/
def history (rows : List CircuitBreaker) (tenantId : UUID) (scope : BreakerScope)
    (target : String) : List CircuitBreaker :=
  rows.filter fun r => r.tenantId = tenantId ∧ r.scope = scope.value ∧ r.target = target

/-- The first row in descending order of `created_at` and `id`. -/
def newest : List CircuitBreaker → Option CircuitBreaker
  | [] => none
  | r :: rest =>
      match newest rest with
      | none => some r
      | some r' =>
          if r.createdAt < r'.createdAt ∨ r.createdAt = r'.createdAt ∧ r.id < r'.id then some r'
          else some r

/-- `latest`. -/
def latest (rows : List CircuitBreaker) (tenantId : UUID) (scope : BreakerScope)
    (target : String) : Except String (Option BreakerState) := do
  let normalized ← normalizeBreakerTarget scope target
  return (newest (history rows tenantId scope normalized)).map (·.state scope)

/-- The breaker is open: a breaker without transitions is closed. -/
def isTripped (current : Option BreakerState) : Bool := (current.map (·.tripped)).getD false

/-- The time of a transition. -/
def transitionedAt (now : Time) : Option BreakerState → Time
  | none => now
  | some current => max now (current.transitionedAt + 1)

/-! ### Calls -/

/-- The arguments of `trip` and `reset`. -/
structure BreakerTransition where
  tenantId : UUID
  scope : BreakerScope
  target : String
  actorId : UUID
  reason : String
  tripped : Bool
  deriving DecidableEq, Repr

/-- The checks of `_transition`: the reason and the target as they are stored. -/
def BreakerTransition.checked (c : BreakerTransition) : Except String (String × String) :=
  let reason := strip c.reason
  if reason = "" then .error "a breaker transition requires a reason"
  else if 10000 < reason.length then .error "breaker transition reason is too long"
  else (normalizeBreakerTarget c.scope c.target).map fun target => (reason, target)

/-- The text whose hash is locked. -/
def lockKey (tenantId : UUID) (scope target : String) : String :=
  s!"breaker:{tenantId}:{scope}:{target}"

/-- The row that a transition adds. -/
def BreakerTransition.row (c : BreakerTransition) (reason target : String)
    (current : Option BreakerState) (now : Time) (id : UUID) : CircuitBreaker where
  id := id
  tenantId := c.tenantId
  scope := c.scope.value
  target := target
  tripped := c.tripped
  reason := reason
  actorId := c.actorId
  createdAt := transitionedAt now current

/-- The transaction of a session: the rows it has added and the locks it holds. -/
structure Transaction (κ : Type) where
  rows : List CircuitBreaker := []
  locks : List κ := []
  deriving DecidableEq

/-- Where a session stands: between two calls of its transaction, in a call that has its lock, in a
call that has read the state of its breaker, or after an error of the database. -/
inductive Stage (κ : Type) where
  | between (tx : Transaction κ)
  | locked (tx : Transaction κ) (call : BreakerTransition) (reason target : String)
  | found (tx : Transaction κ) (call : BreakerTransition) (reason target : String)
      (current : Option BreakerState)
  | aborted (tx : Transaction κ)
  deriving DecidableEq

/-- The transaction of a stage. -/
def Stage.tx {κ : Type} : Stage κ → Transaction κ
  | .between tx | .locked tx _ _ _ | .found tx _ _ _ _ | .aborted tx => tx

/-- What a session does next, with what it is told: the clock, the identity of a row, an error of
the database. -/
inductive Answer where
  | call (c : BreakerTransition)
  | select
  | insert (now : Time) (id : UUID)
  | error (message : String)
  | commit
  | rollback
  deriving DecidableEq, Repr

/-- How a call ends. -/
inductive Outcome where
  | returned (state : BreakerState)
  | raised (message : String)
  deriving DecidableEq, Repr

section

variable {κ : Type}

/-- The stage after a statement, the committed rows and what is observed. -/
abbrev Effect (κ : Type) := Option (Stage κ × List CircuitBreaker × List Outcome)

variable (hash : String → κ)

/-- A call up to its lock. -/
def begin (tx : Transaction κ) (c : BreakerTransition) (rows : List CircuitBreaker) : Effect κ :=
  match c.checked with
  | .error message => some (.between tx, rows, [.raised message])
  | .ok (reason, target) =>
      let key := hash (lockKey c.tenantId c.scope.value target)
      some (.locked { tx with locks := key :: tx.locks } c reason target, rows, [])

/-- A call from the query to its insert.  It reads what is committed and what its transaction has
added. -/
def find (tx : Transaction κ) (c : BreakerTransition) (reason target : String)
    (rows : List CircuitBreaker) : Effect κ :=
  match latest (rows ++ tx.rows) c.tenantId c.scope c.target with
  | .error message => some (.between tx, rows, [.raised message])
  | .ok current =>
      if isTripped current = c.tripped then
        let state := if c.tripped then "tripped" else "closed"
        some (.between tx, rows, [.raised ("breaker is already " ++ state)])
      else some (.found tx c reason target current, rows, [])

/-- The insert. -/
def insert (tx : Transaction κ) (c : BreakerTransition) (reason target : String)
    (current : Option BreakerState) (now : Time) (id : UUID) (rows : List CircuitBreaker) :
    Effect κ :=
  if (rows ++ tx.rows).any (·.id = id) then
    some (.aborted tx, rows, [.raised "IntegrityError"])
  else
    let row := c.row reason target current now id
    some (.between { tx with rows := tx.rows ++ [row] }, rows, [.returned (row.state c.scope)])

/-- The next statement of a session. -/
def advance : Stage κ → Answer → List CircuitBreaker → Effect κ
  | _, .rollback, rows => some (.between {}, rows, [])
  | .between tx, .call c, rows => begin hash tx c rows
  | .between tx, .commit, rows => some (.between {}, rows ++ tx.rows, [])
  | .locked tx c reason target, .select, rows => find tx c reason target rows
  | .found tx c reason target current, .insert now id, rows =>
      insert tx c reason target current now id rows
  | .aborted _, _, _ => none
  | t, .error message, rows => some (.aborted t.tx, rows, [.raised message])
  | _, _, _ => none

/-- The sessions that move the breakers. -/
def breakers : Code (List CircuitBreaker) (Stage κ) Answer Outcome κ where
  next := advance hash
  locks t := t.tx.locks

end

/-! ### Histories -/

/-- The transitions alternate, beginning with a trip, at increasing times. -/
structure Orderly (rows : List CircuitBreaker) : Prop where
  chain : rows.IsChain fun a b => a.tripped ≠ b.tripped ∧ a.createdAt < b.createdAt
  first : ∀ r ∈ rows.head?, r.tripped = true

lemma Orderly.nil : Orderly [] := ⟨.nil, by simp⟩

/-- The times increase. -/
lemma Orderly.increasing {rows : List CircuitBreaker} (h : Orderly rows) :
    rows.Pairwise fun a b => a.createdAt < b.createdAt := by
  have hchain : rows.IsChain fun a b => a.createdAt < b.createdAt := h.chain.imp fun _ _ h => h.2
  have : IsTrans CircuitBreaker fun a b => a.createdAt < b.createdAt := ⟨fun _ _ _ => lt_trans⟩
  exact List.isChain_iff_pairwise.mp hchain

/-- The newest of rows at increasing times is the last. -/
lemma newest_eq_getLast? {rows : List CircuitBreaker}
    (h : rows.Pairwise fun a b => a.createdAt < b.createdAt) : newest rows = rows.getLast? := by
  induction rows with
  | nil => rfl
  | cons r rest ih =>
      obtain ⟨hr, hrest⟩ := List.pairwise_cons.mp h
      rw [newest, ih hrest]
      cases hlast : rest.getLast? with
      | none => simp [List.getLast?_eq_none_iff.mp hlast]
      | some r' =>
          have hlater : r.createdAt < r'.createdAt := hr r' (List.mem_of_getLast? hlast)
          simp [List.getLast?_cons, hlast, hlater]

/-- A transition that moves the breaker, at a later time, keeps the history orderly. -/
lemma Orderly.append {rows : List CircuitBreaker} {row : CircuitBreaker} (h : Orderly rows)
    (hmoves : (rows.getLast?.map (·.tripped)).getD false ≠ row.tripped)
    (hlater : ∀ r ∈ rows.getLast?, r.createdAt < row.createdAt) : Orderly (rows ++ [row]) := by
  refine ⟨List.isChain_append.mpr ⟨h.chain, .singleton row, fun a ha b hb => ?_⟩, fun r hr => ?_⟩
  · obtain rfl : row = b := by simpa using hb
    rw [Option.mem_def.mp ha] at hmoves
    exact ⟨hmoves, hlater a ha⟩
  · cases rows with
    | nil =>
        obtain rfl : row = r := by simpa using hr
        simpa using hmoves
    | cons r₀ rest => exact h.first r (by simpa using hr)

/-- The state of an orderly breaker is its last transition. -/
lemma latest_eq {rows : List CircuitBreaker} {tenantId : UUID} {scope : BreakerScope}
    {target normalized : String} (h : Orderly (history rows tenantId scope normalized))
    (htarget : normalizeBreakerTarget scope target = .ok normalized) :
    latest rows tenantId scope target
      = .ok ((history rows tenantId scope normalized).getLast?.map (·.state scope)) := by
  rw [latest, htarget, ← newest_eq_getLast? h.increasing]
  rfl

lemma history_append (rows rows' : List CircuitBreaker) (tenantId : UUID) (scope : BreakerScope)
    (target : String) : history (rows ++ rows') tenantId scope target
      = history rows tenantId scope target ++ history rows' tenantId scope target :=
  List.filter_append ..

lemma mem_history {rows : List CircuitBreaker} {tenantId : UUID} {scope : BreakerScope}
    {target : String} {r : CircuitBreaker} :
    r ∈ history rows tenantId scope target ↔
      r ∈ rows ∧ r.tenantId = tenantId ∧ r.scope = scope.value ∧ r.target = target := by
  simp [history]

lemma BreakerScope.value_inj {scope scope' : BreakerScope} :
    scope.value = scope'.value ↔ scope = scope' := by
  cases scope <;> cases scope' <;> decide

/-- What a single row is to a breaker. -/
lemma history_row (c : BreakerTransition) (reason target : String) (current : Option BreakerState)
    (now : Time) (id tenantId : UUID) (scope : BreakerScope) (target' : String) :
    history [c.row reason target current now id] tenantId scope target'
      = if c.tenantId = tenantId ∧ c.scope = scope ∧ target = target' then
          [c.row reason target current now id] else [] := by
  simp [history, List.filter_cons, BreakerTransition.row, BreakerScope.value_inj]

/-! ### The invariant -/

section

variable {κ : Type} {hash : String → κ}

/-- The rows of a transaction are locked, and with them the histories are orderly. -/
structure Transaction.Ok (hash : String → κ) (tx : Transaction κ) (rows : List CircuitBreaker) :
    Prop where
  covered : ∀ r ∈ tx.rows, hash (lockKey r.tenantId r.scope r.target) ∈ tx.locks
  orderly : ∀ tenantId scope target, Orderly (history (rows ++ tx.rows) tenantId scope target)

/-- The transaction has the lock of a call, which has passed its checks. -/
structure Transaction.Has (hash : String → κ) (tx : Transaction κ) (c : BreakerTransition)
    (target : String) : Prop where
  locked : hash (lockKey c.tenantId c.scope.value target) ∈ tx.locks
  normalized : normalizeBreakerTarget c.scope c.target = .ok target

/-- The transitions of the breaker of a call that its transaction sees. -/
def Transaction.seen (tx : Transaction κ) (c : BreakerTransition) (target : String)
    (rows : List CircuitBreaker) : List CircuitBreaker :=
  history (rows ++ tx.rows) c.tenantId c.scope target

/-- What holds of a session. -/
def Stage.Inv (hash : String → κ) (rows : List CircuitBreaker) : Stage κ → Prop
  | .between tx | .aborted tx => tx.Ok hash rows
  | .locked tx c _ target => tx.Ok hash rows ∧ tx.Has hash c target
  | .found tx c _ target current =>
      tx.Ok hash rows ∧ tx.Has hash c target ∧ isTripped current ≠ c.tripped ∧
        current = (tx.seen c target rows).getLast?.map (·.state c.scope)

lemma Stage.Inv.ok {rows : List CircuitBreaker} {t : Stage κ} (h : t.Inv hash rows) :
    t.tx.Ok hash rows := by
  cases t with
  | between | aborted => exact h
  | locked | found => exact h.1

lemma Transaction.Ok.empty {rows : List CircuitBreaker}
    (h : ∀ tenantId scope target, Orderly (history rows tenantId scope target)) :
    Transaction.Ok hash {} rows :=
  ⟨fun _ h => absurd h List.not_mem_nil, by simpa using h⟩

/-- More locks. -/
lemma Transaction.Ok.lock {tx : Transaction κ} {rows : List CircuitBreaker} (h : tx.Ok hash rows)
    (key : κ) : Transaction.Ok hash { tx with locks := key :: tx.locks } rows :=
  ⟨fun r hr => List.mem_cons_of_mem _ (h.covered r hr), h.orderly⟩

/-- A transaction without a lock has no rows of its breaker. -/
lemma Transaction.Ok.history_eq_nil {tx : Transaction κ} {rows : List CircuitBreaker}
    (h : tx.Ok hash rows) {tenantId : UUID} {scope : BreakerScope} {target : String}
    (hlock : hash (lockKey tenantId scope.value target) ∉ tx.locks) :
    history tx.rows tenantId scope target = [] := by
  refine List.eq_nil_iff_forall_not_mem.mpr fun r hr => hlock ?_
  obtain ⟨hmem, htenant, hscope, htarget⟩ := mem_history.mp hr
  have hcovered := h.covered r hmem
  rwa [htenant, hscope, htarget] at hcovered

/-- The insert of a call that has read the state of its breaker. -/
lemma Transaction.Ok.insert {tx : Transaction κ} {rows : List CircuitBreaker}
    (h : tx.Ok hash rows) {c : BreakerTransition} {reason target : String}
    {current : Option BreakerState} (hhas : tx.Has hash c target)
    (hmoves : isTripped current ≠ c.tripped)
    (hcurrent : current = (tx.seen c target rows).getLast?.map (·.state c.scope)) (now : Time)
    (id : UUID) :
    Transaction.Ok hash { tx with rows := tx.rows ++ [c.row reason target current now id] }
      rows := by
  refine ⟨fun r hr => ?_, fun tenantId scope target' => ?_⟩
  · rcases List.mem_append.mp hr with hr | hr
    · exact h.covered r hr
    · obtain rfl := List.mem_singleton.mp hr
      exact hhas.locked
  · have horderly := h.orderly tenantId scope target'
    rw [← List.append_assoc, history_append, history_row]
    split_ifs with hkey
    · obtain ⟨rfl, rfl, rfl⟩ := hkey
      refine horderly.append ?_ fun r hr => ?_
      · rw [hcurrent, isTripped, Option.map_map] at hmoves
        exact hmoves
      · have hstate : current = some (r.state c.scope) := by
          rw [hcurrent, Transaction.seen, Option.mem_def.mp hr, Option.map_some]
        rw [hstate]
        exact lt_of_lt_of_le (Int.lt_succ r.createdAt) (le_max_right now (r.createdAt + 1))
    · rwa [List.append_nil]

/-- What a bystander sees of the breakers it has locked stays as it is. -/
lemma Transaction.Ok.seen_commit {tx : Transaction κ} {rows : List CircuitBreaker}
    (h : tx.Ok hash rows) {u : Transaction κ} (hdisjoint : ∀ l ∈ u.locks, l ∉ tx.locks)
    {c : BreakerTransition} {target : String} (hhas : u.Has hash c target) :
    u.seen c target (rows ++ tx.rows) = u.seen c target rows := by
  have hnil := h.history_eq_nil (hdisjoint _ hhas.locked)
  rw [Transaction.seen, Transaction.seen, history_append, history_append, history_append, hnil,
    List.append_nil]

/-- The commit of a transaction leaves the transactions next to it in order. -/
lemma Transaction.Ok.commit {tx : Transaction κ} {rows : List CircuitBreaker}
    (h : tx.Ok hash rows) {u : Transaction κ} (hu : u.Ok hash rows)
    (hdisjoint : ∀ l ∈ u.locks, l ∉ tx.locks) : u.Ok hash (rows ++ tx.rows) := by
  refine ⟨hu.covered, fun tenantId scope target => ?_⟩
  by_cases hlock : hash (lockKey tenantId scope.value target) ∈ u.locks
  · have hnil := h.history_eq_nil (hdisjoint _ hlock)
    have horderly := hu.orderly tenantId scope target
    rw [history_append] at horderly
    rwa [history_append, history_append, hnil, List.append_nil]
  · have horderly := h.orderly tenantId scope target
    rwa [history_append, hu.history_eq_nil hlock, List.append_nil]

/-! ### Runs -/

/-- What a statement does. -/
inductive Moves (hash : String → κ) (rows : List CircuitBreaker) :
    Stage κ → Answer → Stage κ → List CircuitBreaker → List Outcome → Prop where
  | rollback (t : Stage κ) : Moves hash rows t .rollback (.between {}) rows []
  | commit (tx : Transaction κ) : Moves hash rows (.between tx) .commit (.between {})
      (rows ++ tx.rows) []
  | error (t : Stage κ) (message : String) :
      Moves hash rows t (.error message) (.aborted t.tx) rows [.raised message]
  | refused (tx : Transaction κ) (c : BreakerTransition) (message : String) :
      c.checked = .error message →
      Moves hash rows (.between tx) (.call c) (.between tx) rows [.raised message]
  | begun (tx : Transaction κ) (c : BreakerTransition) (reason target : String) :
      c.checked = .ok (reason, target) →
      Moves hash rows (.between tx) (.call c)
        (.locked { tx with locks := hash (lockKey c.tenantId c.scope.value target) :: tx.locks } c
          reason target) rows []
  | conflict (tx : Transaction κ) (c : BreakerTransition) (reason target message : String) :
      Moves hash rows (.locked tx c reason target) .select (.between tx) rows [.raised message]
  | found (tx : Transaction κ) (c : BreakerTransition) (reason target : String)
      (current : Option BreakerState) :
      latest (rows ++ tx.rows) c.tenantId c.scope c.target = .ok current →
      isTripped current ≠ c.tripped →
      Moves hash rows (.locked tx c reason target) .select (.found tx c reason target current)
        rows []
  | duplicate (tx : Transaction κ) (c : BreakerTransition) (reason target message : String)
      (current : Option BreakerState) (now : Time) (id : UUID) :
      Moves hash rows (.found tx c reason target current) (.insert now id) (.aborted tx) rows
        [.raised message]
  | inserted (tx : Transaction κ) (c : BreakerTransition) (reason target : String)
      (current : Option BreakerState) (now : Time) (id : UUID) (state : BreakerState) :
      Moves hash rows (.found tx c reason target current) (.insert now id)
        (.between { tx with rows := tx.rows ++ [c.row reason target current now id] }) rows
        [.returned state]

lemma moves_of_advance {t t' : Stage κ} {x : Answer} {rows rows' : List CircuitBreaker}
    {obs : List Outcome} (h : advance hash t x rows = some (t', rows', obs)) :
    Moves hash rows t x t' rows' obs := by
  revert h
  fun_cases advance hash t x rows with
  | case1 =>
      rintro ⟨⟩
      exact .rollback _
  | case2 tx c =>
      rw [begin]
      split
      · rename_i message hchecked
        rintro ⟨⟩
        exact .refused tx c message hchecked
      · rename_i reason target hchecked
        rintro ⟨⟩
        exact .begun tx c reason target hchecked
  | case3 tx =>
      rintro ⟨⟩
      exact .commit tx
  | case4 tx c reason target =>
      rw [find]
      split
      · rintro ⟨⟩
        exact .conflict tx c reason target _
      · rename_i current hlatest
        by_cases hrepeats : isTripped current = c.tripped
        · rw [if_pos hrepeats]
          rintro ⟨⟩
          exact .conflict tx c reason target _
        · rw [if_neg hrepeats]
          rintro ⟨⟩
          exact .found tx c reason target current hlatest hrepeats
  | case5 tx c reason target current now id =>
      rw [insert]
      split_ifs
      · rintro ⟨⟩
        exact .duplicate tx c reason target _ current now id
      · rintro ⟨⟩
        exact .inserted tx c reason target current now id _
  | case6 => rintro ⟨⟩
  | case7 =>
      rintro ⟨⟩
      exact .error _ _
  | case8 => rintro ⟨⟩

/-- The checks of a call give its target. -/
lemma BreakerTransition.normalized {c : BreakerTransition} {reason target : String}
    (h : c.checked = .ok (reason, target)) :
    normalizeBreakerTarget c.scope c.target = .ok target := by
  simp only [BreakerTransition.checked] at h
  split_ifs at h
  cases hnormal : normalizeBreakerTarget c.scope c.target with
  | error message =>
      rw [hnormal] at h
      cases h
  | ok normalized =>
      rw [hnormal] at h
      cases h
      rfl

/-- The histories are orderly. -/
def AllOrderly (rows : List CircuitBreaker) : Prop :=
  ∀ tenantId scope target, Orderly (history rows tenantId scope target)

/-- A statement keeps the invariant of its session. -/
lemma Moves.own {t t' : Stage κ} {x : Answer} {rows rows' : List CircuitBreaker}
    {obs : List Outcome} (h : Moves hash rows t x t' rows' obs) (hrows : AllOrderly rows)
    (ht : t.Inv hash rows) : AllOrderly rows' ∧ t'.Inv hash rows' := by
  cases h with
  | rollback => exact ⟨hrows, .empty hrows⟩
  | commit tx => exact ⟨ht.orderly, .empty ht.orderly⟩
  | error => exact ⟨hrows, ht.ok⟩
  | refused => exact ⟨hrows, ht⟩
  | begun tx c reason target hchecked =>
      exact ⟨hrows, ht.lock _, List.mem_cons_self, BreakerTransition.normalized hchecked⟩
  | conflict => exact ⟨hrows, ht.1⟩
  | found tx c reason target current hlatest hmoves =>
      obtain ⟨hok, hhas⟩ := ht
      rw [latest_eq (hok.orderly _ _ _) hhas.normalized, Except.ok.injEq] at hlatest
      exact ⟨hrows, hok, hhas, hmoves, hlatest.symm⟩
  | duplicate => exact ⟨hrows, ht.1⟩
  | inserted tx c reason target current now id state =>
      obtain ⟨hok, hhas, hmoves, hcurrent⟩ := ht
      exact ⟨hrows, hok.insert hhas hmoves hcurrent now id⟩

/-- A statement commits the rows of its transaction or nothing. -/
lemma Moves.rows {t t' : Stage κ} {x : Answer} {rows rows' : List CircuitBreaker}
    {obs : List Outcome} (h : Moves hash rows t x t' rows' obs) :
    rows' = rows ∨ rows' = rows ++ t.tx.rows := by
  cases h with
  | commit tx => exact .inr rfl
  | _ => exact .inl rfl

/-- A statement keeps the invariant of the sessions next to it. -/
lemma Moves.other {t t' u : Stage κ} {x : Answer} {rows rows' : List CircuitBreaker}
    {obs : List Outcome} (h : Moves hash rows t x t' rows' obs) (ht : t.Inv hash rows)
    (hu : u.Inv hash rows) (hdisjoint : ∀ l ∈ u.tx.locks, l ∉ t.tx.locks) : u.Inv hash rows' := by
  rcases h.rows with rfl | rfl
  · exact hu
  · cases u with
    | between tx | aborted tx => exact ht.ok.commit hu hdisjoint
    | locked tx c reason target => exact ⟨ht.ok.commit hu.1 hdisjoint, hu.2⟩
    | found tx c reason target current =>
        obtain ⟨hok, hhas, hmoves, hcurrent⟩ := hu
        refine ⟨ht.ok.commit hok hdisjoint, hhas, hmoves, ?_⟩
        have hseen := ht.ok.seen_commit hdisjoint hhas
        rw [Stage.tx] at hseen
        rw [hseen]
        exact hcurrent

variable (hash) in
lemma joint_breakers [DecidableEq κ] : Joint (breakers hash) (fun _ _ _ _ => True)
    (fun _ _ _ _ => True) (fun rows _ => AllOrderly rows) (fun t rows _ => t.Inv hash rows) where
  own hnext _ hrows ht := (moves_of_advance hnext).own hrows ht
  other hnext _ _ hdisjoint _ ht hu := (moves_of_advance hnext).other ht hu hdisjoint

/-- A call that repeats the state of its breaker raises, and leaves its transaction as it is. -/
lemma find_of_repeats {tx : Transaction κ} {c : BreakerTransition} {reason target : String}
    {rows : List CircuitBreaker} (hok : tx.Ok hash rows) (hhas : tx.Has hash c target)
    (hrepeats : ((tx.seen c target rows).getLast?.map (·.tripped)).getD false = c.tripped) :
    find tx c reason target rows = some (.between tx, rows,
      [.raised ("breaker is already " ++ if c.tripped then "tripped" else "closed")]) := by
  have hlatest := latest_eq (hok.orderly c.tenantId c.scope target) hhas.normalized
  have hstate : isTripped ((tx.seen c target rows).getLast?.map (·.state c.scope)) = c.tripped := by
    rw [isTripped, Option.map_map]
    exact hrepeats
  rw [Transaction.seen] at hstate
  rw [find, hlatest]
  exact if_pos hstate

end

/-- **The history of the breakers**: after every run of the sessions, with any clock, the
transitions of each breaker alternate, beginning with a trip, at increasing times; `latest` is the
last of them; and a call that would repeat the state, as its transaction sees it, raises and adds
nothing. -/
theorem breaker_history {κ : Type} [DecidableEq κ] (hash : String → κ) {n : ℕ}
    {ms : List (Fin n × Answer)} {s : Pool n (List CircuitBreaker) (Stage κ) Outcome}
    (h : Runs (breakers hash) (fun _ _ => True) ⟨[], fun _ => .between {}, []⟩ ms s) :
    (∀ tenantId scope target,
      ((history s.store tenantId scope target).map (·.tripped)).IsChain (· ≠ ·) ∧
      (∀ r ∈ (history s.store tenantId scope target).head?, r.tripped = true) ∧
      (history s.store tenantId scope target).Pairwise fun a b => a.createdAt < b.createdAt) ∧
    (∀ tenantId scope target normalized, normalizeBreakerTarget scope target = .ok normalized →
      latest s.store tenantId scope target = .ok
        ((history s.store tenantId scope normalized).getLast?.map (·.state scope))) ∧
    ∀ i tx c reason target, s.calls i = .locked tx c reason target →
      ((history (s.store ++ tx.rows) c.tenantId c.scope target).getLast?.map (·.tripped)).getD
        false = c.tripped →
      s.step (breakers hash) (i, .select) = some ⟨s.store,
        Function.update s.calls i (.between tx),
        s.log ++ [.raised ("breaker is already " ++ if c.tripped then "tripped" else "closed")]⟩ := by
  have hstart : AllOrderly [] := fun _ _ _ => Orderly.nil
  have hs := (joint_breakers hash).runs (fun _ _ _ _ => trivial) (fun _ _ _ _ _ _ => trivial) h
    ⟨fun i j l hi _ => absurd hi List.not_mem_nil, hstart, fun _ => .empty hstart⟩
  refine ⟨fun tenantId scope target => ?_, fun tenantId scope target normalized hnormal =>
    latest_eq (hs.common tenantId scope normalized) hnormal,
    fun i tx c reason target hcall hrepeats => ?_⟩
  · have horderly := hs.common tenantId scope target
    refine ⟨?_, horderly.first, horderly.increasing⟩
    exact (List.isChain_map _).mpr (horderly.chain.imp fun _ _ h => h.1)
  · have hinv := hs.calls i
    rw [hcall] at hinv
    refine step_eq ?_ fun j hj l hl hl' => hj (hs.exclusive j i l hl' ?_)
    · rw [hcall]
      exact find_of_repeats hinv.1 hinv.2 hrepeats
    · rw [hcall]
      exact hl

/-- A tool is stopped and started again in one transaction while the clock goes back; a second
session that then starts it raises. -/
theorem breaker_history_backward : ∃ (ms : List (Fin 2 × Answer))
    (s : Pool 2 (List CircuitBreaker) (Stage String) Outcome)
    (tx : Transaction String),
    Runs (breakers id) (fun _ _ => True) ⟨[], fun _ => .between {}, []⟩ ms s ∧
    ((history s.store "t" .capability "send").map fun r => (r.tripped, r.createdAt))
      = [(true, 10), (false, 11)] ∧
    (history s.store "t" .capability "send").Pairwise (fun a b => a.createdAt < b.createdAt) ∧
    s.step (breakers id) (1, .select) = some ⟨s.store, Function.update s.calls 1 (.between tx),
      s.log ++ [.raised "breaker is already closed"]⟩ := by
  let trip : BreakerTransition := ⟨"t", .capability, " send ", "a", "loops", true⟩
  let reset : BreakerTransition := ⟨"t", .capability, "send", "a", "fixed", false⟩
  let ms : List (Fin 2 × Answer) :=
    [(0, .call trip), (0, .select), (0, .insert 10 "1"), (0, .call reset), (0, .select),
      (0, .insert 3 "2"), (0, .commit), (1, .call reset)]
  obtain ⟨s, hruns, hp⟩ := exists_runs (C := breakers id) (s := ⟨[], fun _ => .between {}, []⟩)
    (fun _ _ => true) ms
    (fun s => s.calls 1 = .locked ⟨[], ["breaker:t:capability:send"]⟩ reset "fixed" "send" ∧
      (history s.store "t" .capability "send").map (fun r => (r.tripped, r.createdAt))
        = [(true, 10), (false, 11)]) (by decide +kernel)
  obtain ⟨hcall, htimes⟩ := of_decide_eq_true hp
  have hruns := hruns.mono (H := fun _ _ => True) fun _ _ _ => trivial
  obtain ⟨horderly, -, hrepeat⟩ := breaker_history id hruns
  have hlast : ((history s.store "t" .capability "send").getLast?.map (·.tripped)).getD false
      = false := by
    have hmap := congrArg (fun l => (l.getLast?.map Prod.fst).getD false) htimes
    simpa [List.getLast?_map, Option.map_map, Function.comp_def] using hmap
  refine ⟨ms, s, _, hruns, htimes, (horderly "t" .capability "send").2.2,
    hrepeat 1 _ reset "fixed" "send" hcall ?_⟩
  rw [List.append_nil]
  exact hlast

end TiramisuAgents.Budgets
