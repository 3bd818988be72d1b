import TiramisuAgents.Actions.Steps
import TiramisuAgents.Library.Locking

/-!
The row locks of the transactions on the actions of a process, taken one by one:
`ActionExecutor.execute`, `reconcile` and `_record_terminal` (`actions/execution.py`),
`resolve_unknown` (`actions/reconciliation.py`), `ReviewService.apply` (`reviews/service.py`) and
`persist_decision` (`actions/gateway.py`).

`SELECT … FOR UPDATE OF a, b` locks the row of `a` before that of `b`.  A flush updates the tables
in the order of their foreign keys: the request, then the approval and the thread.

* `ActionLock`, `Stage.asks`, `Stage.holds`: what the statements lock, in their order, and what a
  transaction holds where it stands.
* `ProcessActions`, `actionRows`: the rows of all actions of a process, and the transactions.
* `holding_step`: what a transaction holds.
-/

namespace TiramisuAgents

open Transactions

/-! ### What the statements lock -/

/-- The rows of a process and of its actions that are locked. -/
inductive ActionLock where
  | process
  | request (actionId : UUID)
  | attempt (actionId : UUID) (key : String)
  | approval (actionId : UUID)
  | thread (actionId : UUID)
  deriving DecidableEq, Repr

/-- What the next statement of a call on an action locks, in this order.  A reconciliation updates
an attempt that it does not find reconciling, and a review the columns that it changes. -/
def Stage.asks (a : UUID) : Stage → List ActionLock
  | .authorising _ _ .selecting => [.request a, .process]
  | .marking key attempt => if attempt.status = .reconciling then [] else [.attempt a key]
  | .recording key _ => [.attempt a key]
  | .recordingAttempt _ _ _ => [.request a]
  | .resolvingFresh command => [.attempt a command.idempotencyKey, .request a]
  | .reviewing _ (.messageRead _ process _) =>
      if process.fenced then [.process] else [.process, .approval a]
  | .reviewing _ (.flushing _ _ write) =>
      (if write.request.isSome then [.request a] else []) ++
        if write.thread.isSome then [.thread a] else []
  | .persisting _ | .settingStatus _ => [.process]
  | _ => []

/-- A row that is not there is not locked. -/
def Stage.lockable (db : Database) : Stage → Bool
  | .authorising _ revision .selecting => (db.row revision).isSome
  | .recording key _ => (db.attempts key).isSome
  | .resolvingFresh command => (db.attempts command.idempotencyKey).isSome
  | _ => true

/-- What a transaction on an action holds where it stands. -/
def Stage.holds (a : UUID) : Stage → List ActionLock
  | .authorising _ _ (.loaded _) | .authorising _ _ (.approving _)
  | .authorising _ _ (.deciding _) | .authorising _ _ (.authorised _)
  | .claimed _ _ _ _ | .marking _ _ | .gating _ _ _ | .invoking _ => [.request a, .process]
  | .marked key _ => [.request a, .process, .attempt a key]
  | .recordingAttempt key _ _ => [.attempt a key]
  | .recordingBoth key _ _ => [.attempt a key, .request a]
  | .resolvingBoth command _ => [.attempt a command.idempotencyKey, .request a]
  | .reviewing _ (.locked _ _) | .reviewing _ (.flushing _ _ _) => [.process, .approval a]
  | .persistingLocked _ | .settingStatusLocked _ => [.process]
  | _ => []

/-- No transaction of the call holds anything. -/
def Stage.between (t : Stage) : Bool := t.locks.isEmpty

lemma Stage.holds_between {a : UUID} {t : Stage} (h : t.between = true) : t.holds a = [] := by
  cases t with
  | authorising phase revision v => cases v <;> simp_all [between, locks, Authorising.locks, holds]
  | reviewing c r =>
      cases r with
      | flushing target request write =>
          simp only [between, locks, Reviewing.locks] at h
          split_ifs at h <;> cases h
      | _ => simp_all [between, locks, Reviewing.locks, holds]
  | _ => simp_all [between, locks, holds]

/-- What a statement asks for is there, if the call goes on in its transaction. -/
lemma Stage.lockable_of_step {P : Platform} {t t' : Stage} {x : CallInput} {db db' : Database}
    {obs : List ActionEvent} (h : Step P t x db t' db' obs) (hopen : t'.between = false) :
    t.lockable db = true := by
  cases h with
  | halt hresting => cases t' <;> cases hresting <;> cases hopen
  | select phase revision row found => simp [lockable, found]
  | recordAttempt key outcome attempt found => simp [lockable, found]
  | resolveBoth c attempt found => simp [lockable, found]
  | start c hresting => cases t <;> first | rfl | cases hresting
  | _ => rfl

/-- What a transaction holds after a statement is what it held and what the statement locked. -/
lemma Stage.mem_holds_step {P : Platform} {t t' : Stage} {x : Answer} {db db' : Database}
    {obs : List ActionEvent} {a : UUID} (h : next P t (.answer x) db = some (t', db', obs))
    (hopen : t'.between = false) (l : ActionLock) :
    l ∈ t'.holds a ↔ l ∈ t.holds a ∨ l ∈ t.asks a := by
  have hstep := Step.of_next h
  cases hstep with
  | halt hresting => cases t' <;> cases hresting <;> cases hopen
  | flushMark key attempt =>
      have hdiffers : attempt.status ≠ .reconciling := by
        intro hsame
        simp [next, Stage.statement, hsame, commitMark] at h
      simp [holds, asks, hdiffers, or_assoc]
  | lockReview c target process existing =>
      have hfree : process.fenced = false := by
        by_contra hfenced
        rw [Bool.not_eq_false] at hfenced
        simp [next, Stage.statement, Reviewing.statement, hfenced, stop, keep] at h
      simp [holds, asks, hfree]
  | review | insert | reclaim | remark | mark | looked | block | answered | record | resolve |
    persist | setStatus | reviewElsewhere | retry => cases hopen
  | _ => simp [holds, asks]

/-- What a stage holds is not asked for again. -/
lemma Stage.not_mem_asks {a : UUID} {t : Stage} {l : ActionLock} (h : l ∈ t.holds a) :
    l ∉ t.asks a := by
  cases t with
  | authorising phase revision v => cases v <;> simp_all [holds, asks]
  | reviewing c r =>
      cases r with
      | flushing target request write =>
          simp only [holds, List.mem_cons, List.not_mem_nil, or_false] at h
          simp only [asks, List.mem_append]
          obtain rfl | rfl := h <;> split_ifs <;> simp
      | _ => simp_all [holds, asks]
  | marking key attempt =>
      simp only [holds, List.mem_cons, List.not_mem_nil, or_false] at h
      simp only [asks]
      obtain rfl | rfl := h <;> split_ifs <;> simp
  | _ => simp_all [holds, asks]

/-- The order of the locks: attempts, requests, the process, approvals, threads. -/
def ActionLock.rank : ActionLock → ℕ
  | attempt _ _ => 0
  | request _ => 1
  | process => 2
  | approval _ => 3
  | thread _ => 4

/-- What a statement asks for, it asks for in this order, and each kind once. -/
lemma Stage.asks_sorted (a : UUID) (t : Stage) :
    (t.asks a).Pairwise fun l l' => l.rank < l'.rank := by
  unfold Stage.asks
  split <;> try split_ifs
  all_goals simp [ActionLock.rank]

/-! ### The transactions -/

/-- The status of a process and the rows of its actions. -/
structure ProcessActions where
  process : ProcessStatus
  actions : UUID → Database

/-- The rows of an action, with the status of the process. -/
def ProcessActions.action (s : ProcessActions) (a : UUID) : Database :=
  { s.actions a with process := s.process }

/-- Write the rows of an action. -/
def ProcessActions.write (s : ProcessActions) (a : UUID) (db : Database) : ProcessActions :=
  ⟨db.process, Function.update s.actions a db⟩

/-- The action of a call, and where the call stands. -/
structure ActionStage where
  actionId : UUID
  stage : Stage
  deriving DecidableEq

/-- What happens to a call: it is made on an action, or its next statement is answered. -/
inductive ActionInput where
  | call (actionId : UUID) (call : Call)
  | answer (answer : Answer)
  deriving DecidableEq

/-- The next statement of a call, on the rows of its action. -/
def ActionStage.next (P : Platform) (t : ActionStage) (x : ActionInput) (s : ProcessActions) :
    Option (ActionStage × ProcessActions × List ActionEvent) :=
  match x with
  | .call a c => if t.stage.resting then some (⟨a, c.start⟩, s, []) else none
  | .answer y =>
      (TiramisuAgents.next { P with actionRequestId := t.actionId } t.stage (.answer y)
        (s.action t.actionId)).map fun r => (⟨t.actionId, r.1⟩, s.write t.actionId r.2.1, r.2.2)

/-- The transactions on the actions of a process. -/
def actionRows (P : Platform) :
    Script ProcessActions ActionStage ActionInput ActionEvent ActionLock where
  next t x s := t.next P x s
  asks t := t.stage.asks t.actionId
  ready t s := t.stage.lockable (s.action t.actionId)
  abort t := { t with stage := .idle }
  opens t := t.stage.between

/-- A transaction holds what belongs to its stage and a part of what it asks for, from below. -/
structure KeepsRows (t : Holding ActionStage ActionLock) : Prop where
  held : ∀ l ∈ t.stage.stage.holds t.stage.actionId, l ∈ t.held
  only : ∀ l ∈ t.held, l ∈ t.stage.stage.holds t.stage.actionId ∨
    l ∈ t.stage.stage.asks t.stage.actionId
  below : ∀ l ∈ t.held, l ∈ t.stage.stage.asks t.stage.actionId →
    ∀ l' ∈ t.stage.stage.asks t.stage.actionId, l' ∉ t.held → l.rank < l'.rank

lemma KeepsRows.between {t : ActionStage} (h : t.stage.between = true) :
    KeepsRows ⟨t, []⟩ where
  held l hl := by
    rw [Stage.holds_between h] at hl
    cases hl
  only _ hl := absurd hl List.not_mem_nil
  below _ hl := absurd hl List.not_mem_nil

section

variable {P : Platform} {t t' : Holding ActionStage ActionLock} {x : Option ActionInput}
  {s s' : ProcessActions} {obs : List ActionEvent}

/-- What a statement of a call is. -/
lemma ActionStage.next_cases {u u' : ActionStage} {y : ActionInput}
    (h : u.next P y s = some (u', s', obs)) :
    (∃ a c, y = .call a c ∧ u.stage.resting = true ∧ u' = ⟨a, c.start⟩ ∧ s' = s) ∨
    ∃ z db, y = .answer z ∧ u'.actionId = u.actionId ∧ s' = s.write u.actionId db ∧
      TiramisuAgents.next { P with actionRequestId := u.actionId } u.stage (.answer z)
        (s.action u.actionId) = some (u'.stage, db, obs) := by
  unfold ActionStage.next at h
  split at h
  · split_ifs at h with hresting
    cases h
    exact .inl ⟨_, _, rfl, hresting, rfl, rfl⟩
  · rw [Option.map_eq_some_iff] at h
    obtain ⟨⟨v, db, obs'⟩, hnext, h⟩ := h
    cases h
    exact .inr ⟨_, db, rfl, rfl, rfl, hnext⟩

/-- A call starts outside a transaction. -/
lemma Call.start_between (c : Call) : c.start.between = true := by
  cases c <;> rfl

/-- Before a statement a transaction has all the locks that the statement asks for. -/
lemma mem_held_of_asks {l : ActionLock} (hready : (actionRows P).request t s = none)
    (hlockable : t.stage.stage.lockable (s.action t.stage.actionId) = true)
    (hl : l ∈ t.stage.stage.asks t.stage.actionId) : l ∈ t.held := by
  change (if t.stage.stage.lockable (s.action t.stage.actionId) then
    (t.stage.stage.asks t.stage.actionId).find? (· ∉ t.held) else none) = none at hready
  rw [if_pos hlockable, List.find?_eq_none] at hready
  simpa using hready l hl

/-- The step lemma: a transaction holds what belongs to its stage. -/
lemma keepsRows_step (h : (actionRows P).Moves t x s t' s' obs) (ht : KeepsRows t) :
    KeepsRows t' := by
  cases h with
  | abort => exact .between rfl
  | take l asked =>
      obtain ⟨hasked, -⟩ := Script.mem_asks asked
      refine ⟨fun l' hl' => List.mem_append_left _ (ht.held l' hl'), fun l' hl' => ?_,
        fun l' hl' hin l'' hin' hnot => ?_⟩
      · rcases List.mem_append.mp hl' with hold | hnew
        · exact ht.only l' hold
        · exact .inr (List.mem_singleton.mp hnew ▸ hasked)
      · rw [List.mem_append, List.mem_singleton, not_or] at hnot
        rcases List.mem_append.mp hl' with hold | hnew
        · exact ht.below l' hold hin l'' hin' hnot.1
        · obtain rfl := List.mem_singleton.mp hnew
          obtain heq | ⟨as, bs, hasks, hlater⟩ := Script.before asked hin' hnot.1
          · exact absurd heq hnot.2
          · have hsorted := t.stage.stage.asks_sorted t.stage.actionId
            change t.stage.stage.asks t.stage.actionId = _ at hasks
            rw [hasks] at hsorted
            exact List.rel_of_pairwise_cons (List.pairwise_append.mp hsorted).2.1 hlater
  | statement u ready next =>
      obtain ⟨a, c, -, -, rfl, -⟩ | ⟨z, db, -, hid, -, hnext⟩ := ActionStage.next_cases next
      · change KeepsRows ⟨⟨a, c.start⟩, if c.start.between then [] else t.held⟩
        rw [if_pos c.start_between]
        exact .between c.start_between
      · change KeepsRows ⟨u, if u.stage.between then [] else t.held⟩
        cases hopen : u.stage.between with
        | true => exact .between hopen
        | false =>
            rw [if_neg Bool.false_ne_true]
            have hlockable := Stage.lockable_of_step (Step.of_next hnext) hopen
            have hholds := Stage.mem_holds_step (a := t.stage.actionId) hnext hopen
            refine ⟨fun l hl => ?_, fun l hl => ?_, fun l hl hin => ?_⟩
            · rw [hid, hholds] at hl
              exact hl.elim (ht.held l) (mem_held_of_asks ready hlockable)
            · rw [hid]
              exact .inl ((hholds l).mpr (ht.only l hl))
            · rw [hid] at hin
              exact absurd hin (Stage.not_mem_asks ((hholds l).mpr (ht.only l hl)))

end

end TiramisuAgents
