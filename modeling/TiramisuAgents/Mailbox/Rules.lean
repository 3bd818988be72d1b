import TiramisuAgents.Mailbox.Closure

/-!
Rules of pre- and postconditions for the statements of the workflow.

Each await point takes an assertion that is `Stable`: what arrives while the workflow is
suspended keeps it, as far as the log satisfies the assumption `Φ`.

* `wp_executeActivity`, `wp_sleep`, `wp_attempt`, `wp_retryWhileSuspended`: the rules for the
  statements that await.
* `wp_update_bind` and its like: what a statement without an await does to the world.
-/

namespace TiramisuAgents

open Coroutine

variable {Φ : List Obs → Prop} {α β : Type} {w : World Runtime Obs}

/-- An assertion that every input keeps, as far as the log satisfies `Φ`. -/
def Stable (Φ : List Obs → Prop) (I : World Runtime Obs → Prop) : Prop :=
  ∀ i w, I w → Φ (environment.step i w).log → I (environment.step i w)

/-! ### Statements without an await -/

section

variable {Q : Post Runtime Obs Await Failure β} {f : Unit → Flow β}

lemma wp_update_bind {u : Update} :
    wp Φ (update u >>= f) Q w ↔ wp Φ (f ()) Q (updated u w) := Iff.rfl

lemma wp_take_bind {source : Source} :
    wp Φ (take source >>= f) Q w ↔ wp Φ (f ()) Q (taken source w) := Iff.rfl

lemma wp_recordTurn_bind {record : TurnRecord} :
    wp Φ (recordTurn record >>= f) Q w ↔
      wp Φ (f ()) Q (observed (.turnRecorded record) (updated (.appendTurnRecord record) w)) :=
  Iff.rfl

lemma wp_recordExecution_bind {command : ActionCommand}
    {answer : Except ActivityError ExecutionResult} :
    wp Φ (recordExecution command answer >>= f) Q w ↔
      wp Φ (f ()) Q (updated (.appendExecutionRecord {
        actionRequestId := command.actionRequestId
        revision := command.revision
        result := answer.toOption
        error := match answer with | .ok _ => none | .error error => some error.message }) w) :=
  Iff.rfl

lemma wp_uuid4_bind {f : String → Flow β} :
    wp Φ (uuid4 >>= f) Q w ↔ wp Φ (f (w.self.uuids 0)) Q (drawn w) := Iff.rfl

lemma wp_preemptionPending_bind {f : Bool → Flow β} :
    wp Φ (preemptionPending >>= f) Q w ↔
      wp Φ (f w.self.mailbox.lifecyclePreemptionPending) Q w := Iff.rfl

lemma wp_isClosed_bind {f : Bool → Flow β} :
    wp Φ (isClosed >>= f) Q w ↔ wp Φ (f w.self.mailbox.closed) Q w := Iff.rfl

end

variable {Q : Post Runtime Obs Await Failure Unit}

lemma wp_update {u : Update} (h : Φ w.log → Q.done () (updated u w)) :
    wp Φ (update u) Q w := fun _ => h

lemma wp_recordTurn {record : TurnRecord}
    (h : Φ (w.log ++ [.turnRecorded record]) →
      Q.done () (observed (.turnRecorded record) (updated (.appendTurnRecord record) w))) :
    wp Φ (recordTurn record) Q w := fun _ => h

/-! ### Statements that await -/

/-- An Activity: an assertion `I` that holds while it runs gives the postcondition at its
answer. -/
lemma wp_executeActivity (hΦ : PrefixClosed Φ) {Q : Post Runtime Obs Await Failure α}
    {activity : Activity} {answer? : Reply → Option (Except ActivityError α)}
    (I : World Runtime Obs → Prop) (hstable : Stable Φ I) (hI : I (observed (.started activity) w))
    (hok : ∀ w reply value, I w → answer? reply = some (.ok value) →
      Φ (w.log ++ [.completed activity reply]) →
      Q.done value (observed (.completed activity reply) w))
    (herror : ∀ w reply error, I w → answer? reply = some (.error error) →
      Φ (w.log ++ [.completed activity reply]) →
      Q.raised (.activity error) (observed (.completed activity reply) w))
    (hblocked : ∀ w, I w → Q.blocked (.activity activity) w) :
    wp Φ (executeActivity activity answer?) Q w := by
  rw [executeActivity, wp_emit_bind]
  refine wp_bind hΦ (wp_suspend hΦ I hI hstable ?_ hblocked)
  intro i w answer obs hw hwake hφ
  cases i with
  | signal s => cases hwake
  | task now suggested => cases hwake
  | commit c => cases hwake
  | reply reply =>
      obtain ⟨a, ha, heq⟩ := Option.map_eq_some_iff.mp hwake
      obtain ⟨rfl, rfl⟩ := Prod.mk.inj heq
      cases a with
      | ok value => exact wp_pure fun _ => hok w reply value hw ha hφ
      | error error => exact wp_raise fun _ => herror w reply error hw ha hφ

lemma wp_sleep (hΦ : PrefixClosed Φ) {delay : Time} (I : World Runtime Obs → Prop)
    (hstable : Stable Φ I) (hI : I w) (hdone : ∀ w, I w → Q.done () w)
    (hblocked : ∀ w, I w → Q.blocked .sleep w) : wp Φ (sleep delay) Q w := by
  rw [sleep, wp_gets_bind]
  refine wp_suspend hΦ I hI hstable ?_ hblocked
  intro i w a obs hw hwake _
  cases i with
  | task now suggested =>
      simp only [Option.ite_none_right_eq_some, Option.some.injEq, Prod.mk.injEq] at hwake
      obtain ⟨-, -, rfl⟩ := hwake
      rw [List.append_nil]
      exact hdone w hw
  | signal s => cases hwake
  | reply reply => cases hwake
  | commit c => cases hwake

lemma wp_attempt (hΦ : PrefixClosed Φ)
    {Q : Post Runtime Obs Await Failure (Except ActivityError α)} {m : Flow α}
    (h : wp Φ m ⟨fun a => Q.done (.ok a),
      fun
        | .activity error => Q.done (.error error)
        | .application message => Q.raised (.application message), Q.blocked⟩ w) :
    wp Φ (attempt m) Q w := by
  refine wp_tryCatch hΦ (wp_bind hΦ (wp_mono h ?_ ?_ fun _ _ _ _ h => h))
  · exact fun a w' _ _ ha => wp_pure fun _ => ha
  · intro e w' _ _ he
    cases e with
    | activity error => exact wp_pure fun _ => he
    | application message => exact wp_raise fun _ => he

/-- An Activity that is retried while its tenant is suspended: `I` holds whenever it is tried,
`S` while the workflow sleeps. -/
lemma wp_retryWhileSuspended (hΦ : PrefixClosed Φ) {Q : Post Runtime Obs Await Failure (Option α)}
    {suspension : String} {m : Flow α} (I S : World Runtime Obs → Prop) (hstable : Stable Φ S)
    (hretry : ∀ w, S w → I w) (hI : I w)
    (hm : ∀ w, I w → wp Φ m ⟨fun a => Q.done (some a),
      fun
        | .activity error => fun w' =>
            if error.isType suspension then S w' else Q.raised (.activity error) w'
        | .application message => Q.raised (.application message), Q.blocked⟩ w)
    (hclosed : ∀ w, S w → w.self.mailbox.closed = true → Q.done none w)
    (hblocked : ∀ w, I w → Q.blocked .sleep w) :
    wp Φ (retryWhileSuspended suspension m) Q w := by
  refine wp_repeatUntil hΦ I hI ?_ hblocked
  intro w hw
  refine wp_bind hΦ (wp_attempt hΦ (wp_mono (hm w hw) ?_ ?_ fun _ _ _ _ h => h))
  · exact fun a w' _ _ ha => wp_pure fun _ => ha
  · intro e w' _ _ he
    cases e with
    | application message => exact he
    | activity error =>
        dsimp only at he ⊢
        by_cases hs : error.isType suspension = true
        · rw [if_pos hs] at he ⊢
          refine wp_bind hΦ (wp_sleep hΦ S hstable he ?_ fun w hw => hblocked w (hretry w hw))
          intro v hv
          dsimp only
          rw [wp_isClosed_bind]
          cases hc : v.self.mailbox.closed with
          | true => exact wp_pure fun _ => hclosed v hv hc
          | false => exact wp_pure fun _ => hretry v hv
        · rw [if_neg hs] at he ⊢
          exact wp_raise fun _ => he

end TiramisuAgents
