import TiramisuAgents.Mailbox.Runs
import TiramisuAgents.Mailbox.TurnRule

/-!
The proof rule for whole runs, on top of the rule for turns.

A proof about runs names what holds at the head of the loop (`L`), of a message that was
just taken (`R`) and while the workflow waits (`V`), next to the assertions of a turn.  An
invariant `J` of every step of the workflow code may be assumed throughout.

* `RunRule`: what such a proof has to show, one clause for each branch of the loop.
* `RunRule.wp_run`: what every run then comes to, however it ends.
* `LoopRule`, `LoopRule.waiting`: the same for proofs that only claim that `V` holds whenever a
  run is found in `wait_condition`.
-/

namespace TiramisuAgents

open Coroutine

/-- What a proof about runs has to show, one clause for each branch of the loop: `E` holds where an
error leaves a run, and `B` is what may be observed of a run wherever it is suspended. -/
structure RunRule (Φ : List Obs → Prop) (A : List TurnCommand → Point → World Runtime Obs → Prop)
    (B : List Obs → Prop) (R : Source → World Runtime Obs → Prop)
    (J L V E : World Runtime Obs → Prop) : Prop where
  turn : ChainRule Φ A B
  found : ∀ {w}, L w → B w.log
  broken : ∀ {w}, A [] .broken w → E w
  invariant : Invariant J
  base : ∀ {w}, L w → J w
  coherent : ∀ {w}, L w → w.self.mailbox.Coherent
  settled : ∀ {w}, J w → A [] .settled w → Φ w.log → L w
  stable : Stable Φ L
  handover : ∀ {w} (iso : IsoCodec), L w → w.self.mailbox.closed = false →
    L (World.resumed w (w.self.mailbox.continuationInput iso) w.self.mailbox.successor)
  ready_update : ∀ {s u w}, A [] (.ready s) w → A [] (.ready s) (updated u w)
  taken_update : ∀ {source u w}, R source w → R source (updated u w)
  taken : ∀ {w source}, L w → Φ w.log →
    (w.self.mailbox.nextBranch w.self.now).source = some source → R source (taken source w)
  event : ∀ {index event w}, R (.event index event) w →
    A [] (.ready { eventIds := [event.eventId] }) w
  approved : ∀ {review w}, R (.review review) w → review.commandType = "approve" →
    wp Φ (executePendingAction review.actionRequestId review.proposalRevision)
      ⟨fun r w => match r with
        | none => A [] .settled w
        | some execution => A [] (.ready { actionAttemptIds := [execution.attemptId] }) w,
        fun e w => ∃ error, e = .activity error ∧ E w, fun l w => l ≠ .waitCondition ∧ B w.log⟩ w
  reviewed : ∀ {review w}, R (.review review) w → review.commandType ≠ "approve" →
    review.commandType ∈ ["reject", "request_revision", "comment"] →
    A [] (.ready { reviewCommandIds := [review.commandId] }) w
  unreviewed : ∀ {review w}, R (.review review) w →
    review.commandType ∉ ["approve", "reject", "request_revision", "comment"] → A [] .settled w
  resolved : ∀ {resolution w}, R (.actionResolution resolution) w →
    A [] (.ready { actionAttemptIds := [resolution.actionAttemptId] }) w
  takenOver : ∀ {control w}, R (.control control) w → control.commandType = "takeover" →
    A [] .settled (updated (.park .operator) w)
  retried : ∀ {control w}, R (.control control) w → control.commandType = "retry" →
    A [] (.ready control.sources) w
  uncontrolled : ∀ {control w}, R (.control control) w →
    control.commandType ∉ ["takeover", "retry"] → A [] .settled w
  due : ∀ {w id}, L w → Φ w.log → w.self.mailbox.nextBranch w.self.now = .timer →
    w.self.mailbox.wakePlan.bind WakePlan.timerId = some id → A [] (.ready { timerIds := [id] }) w
  undue : ∀ {w record}, L w → Φ w.log → w.self.mailbox.nextBranch w.self.now = .timer →
    w.self.mailbox.wakePlan.bind WakePlan.timerId = none →
    A [] .settled (updated .clearWakePlan (updated (.appendWakeRecord record) (updated .start w)))
  waits : ∀ {w}, L w → Φ w.log → w.self.mailbox.closed = false →
    w.self.mailbox.nextBranch w.self.now = .wait → V w
  waiting_stable : Stable Φ V
  woken : ∀ {w}, V w → L w

namespace RunRule

variable {Φ : List Obs → Prop} {A : List TurnCommand → Point → World Runtime Obs → Prop}
  {B : List Obs → Prop} {R : Source → World Runtime Obs → Prop} {J L V E : World Runtime Obs → Prop}

/-- What is required of a run: `I` where it returns, `E` where an error leaves it, `V` where it
waits and `B` wherever it is suspended. -/
def post (I V E : World Runtime Obs → Prop) (B : List Obs → Prop) :
    Post Runtime Obs Await Failure Unit where
  done := fun _ => I
  raised := fun e w => ∃ error, e = .activity error ∧ E w
  blocked := fun l w => (l = .waitCondition → V w) ∧ B w.log

variable (hL : RunRule Φ A B R J L V E) (hΦ : PrefixClosed Φ)
include hL hΦ

/-- A turn, at the postcondition of the loop. -/
lemma wp_runTurn {sources : TurnSources} {w : World Runtime Obs} (hw : A [] (.ready sources) w) :
    wp Φ (runTurn chainLimit sources) (post (A [] .settled) V E B) w :=
  wp_mono (hL.turn.wp_runTurn hΦ chainLimit [] sources w hw) (fun _ _ _ _ h => h)
    (fun _ _ _ _ ⟨error, he, h⟩ => ⟨error, he, hL.broken h⟩)
    fun _ _ _ _ h => ⟨fun hl => absurd hl h.1, h.2⟩

lemma wp_handleReview {review : MailboxReview} {w : World Runtime Obs}
    (hw : R (.review review) w) : wp Φ (handleReview review) (post (A [] .settled) V E B) w := by
  rw [handleReview, wp_update_bind, wp_gets_bind, wp_update_bind, wp_update_bind]
  have hR : ∀ record, R (.review review) (updated .clearWakePlan (updated (.appendWakeRecord record)
      (updated .start w))) :=
    fun _ => hL.taken_update (hL.taken_update (hL.taken_update hw))
  split
  · rename_i happrove
    refine wp_bind hΦ (wp_mono (hL.approved (hR _) happrove) ?_ (fun _ _ _ _ h => h)
      fun _ _ _ _ h => ⟨fun hl => absurd hl h.1, h.2⟩)
    intro r w' _ _ hr
    cases r with
    | none => exact wp_pure fun _ => hr
    | some execution => exact hL.wp_runTurn hΦ hr
  · rename_i happrove
    split
    · rename_i hreject
      rw [wp_update_bind]
      refine hL.wp_runTurn hΦ (hL.ready_update (hL.reviewed (hR _) happrove ?_))
      rcases hreject with h | h <;> simp [h]
    · rename_i hreject
      split
      · rename_i hcomment
        exact hL.wp_runTurn hΦ (hL.reviewed (hR _) happrove (by simp [hcomment]))
      · rename_i hcomment
        refine wp_pure fun _ => hL.unreviewed (hR _) ?_
        rw [not_or] at hreject
        simp [happrove, hreject, hcomment]

lemma wp_handleControl {control : MailboxControl} {w : World Runtime Obs}
    (hw : R (.control control) w) :
    wp Φ (handleControl control) (post (A [] .settled) V E B) w := by
  rw [handleControl, wp_update_bind]
  split
  · rename_i htakeover
    exact wp_update fun _ => hL.takenOver (hL.taken_update hw) htakeover
  · rename_i htakeover
    split
    · rename_i hretry
      rw [wp_update_bind]
      exact hL.wp_runTurn hΦ (hL.ready_update (hL.retried (hL.taken_update hw) hretry))
    · rename_i hretry
      refine wp_pure fun _ => hL.uncontrolled (hL.taken_update hw) ?_
      simp [htakeover, hretry]

lemma wp_handleEvent {reason : String} {index : ℕ} {event : MailboxEvent}
    {w : World Runtime Obs} (hw : R (.event index event) w) :
    wp Φ (handleEvent reason event) (post (A [] .settled) V E B) w := by
  rw [handleEvent, wp_update_bind]
  refine wp_bind hΦ (wp_gets_bind.mpr (wp_update fun _ => ?_))
  dsimp only
  rw [wp_update_bind]
  exact hL.wp_runTurn hΦ (hL.event (hL.taken_update (hL.taken_update (hL.taken_update hw))))

lemma wp_handleTimer {w : World Runtime Obs} (hw : L w) (hφ : Φ w.log)
    (hbranch : w.self.mailbox.nextBranch w.self.now = .timer) :
    wp Φ handleTimer (post (A [] .settled) V E B) w := by
  rw [handleTimer, wp_gets_bind, wp_update_bind, wp_gets_bind, wp_update_bind, wp_update_bind]
  cases hid : w.self.mailbox.wakePlan.bind WakePlan.timerId with
  | some id =>
      exact hL.wp_runTurn hΦ (hL.ready_update (hL.ready_update (hL.ready_update
        (hL.due hw hφ hbranch hid))))
  | none => exact wp_pure fun _ => hL.undue hw hφ hbranch hid

lemma wp_waitCondition {w : World Runtime Obs} (hw : V w) :
    wp Φ waitCondition (post L V E B) w := by
  rw [waitCondition, wp_gets_bind]
  refine wp_suspend hΦ V hw hL.waiting_stable ?_ fun w hw => ⟨fun _ => hw, hL.found (hL.woken hw)⟩
  intro i w a obs hw hwake _
  cases i with
  | task now suggested =>
      simp only [Option.ite_none_right_eq_some, Option.some.injEq, Prod.mk.injEq] at hwake
      obtain ⟨-, -, rfl⟩ := hwake
      rw [List.append_nil]
      exact hL.woken hw
  | signal s => cases hwake
  | reply reply => cases hwake
  | commit c => cases hwake

omit hΦ in
/-- A branch that ends in a settled state is back at the head of the loop. -/
lemma wp_of_settled {m : Flow Unit} {w : World Runtime Obs}
    (h : wp Φ m (post (A [] .settled) V E B) w) :
    wp Φ m (post (fun w => J w → L w) V E B) w :=
  wp_mono h (fun _ _ _ hφ h hJ => hL.settled hJ h hφ) (fun _ _ _ _ h => h) fun _ _ _ _ h => h

/-- One round of the loop. -/
lemma wp_iteration {w : World Runtime Obs} (hw : L w)
    (hclosed : w.self.mailbox.closed = false) : wp Φ iteration (post L V E B) w := by
  refine wp_assume hΦ fun hφ => ?_
  refine wp_preserving hL.invariant.iteration (hL.base hw) ?_
  suffices h : wp Φ iteration (post (fun w => J w → L w) V E B) w from
    wp_mono h (fun _ _ _ _ h => h) (fun _ _ _ _ h _ => h) fun _ _ _ _ h _ => h
  rw [iteration, wp_gets_bind]
  have htaken : ∀ source, (w.self.mailbox.nextBranch w.self.now).source = some source →
      R source (TiramisuAgents.taken source w) := fun _ hs => hL.taken hw hφ hs
  cases hb : w.self.mailbox.nextBranch w.self.now with
  | initial index event =>
      have hR := htaken _ (by rw [hb]; rfl)
      show wp Φ (take _ >>= _) _ w
      rw [wp_take_bind]
      refine hL.wp_of_settled ?_
      rw [Branch.body, handleInitial, wp_update_bind]
      refine wp_bind hΦ (wp_gets_bind.mpr (wp_update fun _ => ?_))
      exact hL.wp_runTurn hΦ (hL.event (hL.taken_update (hL.taken_update hR)))
  | review command =>
      have hR := htaken _ (by rw [hb]; rfl)
      show wp Φ (take _ >>= _) _ w
      rw [wp_take_bind]
      exact hL.wp_of_settled (hL.wp_handleReview hΦ hR)
  | actionResolution resolution =>
      have hR := htaken _ (by rw [hb]; rfl)
      show wp Φ (take _ >>= _) _ w
      rw [wp_take_bind]
      refine hL.wp_of_settled ?_
      rw [Branch.body, handleActionResolution, wp_update_bind, wp_update_bind, wp_update_bind]
      exact hL.wp_runTurn hΦ (hL.resolved (hL.taken_update (hL.taken_update
        (hL.taken_update hR))))
  | control command =>
      have hR := htaken _ (by rw [hb]; rfl)
      show wp Φ (take _ >>= _) _ w
      rw [wp_take_bind]
      exact hL.wp_of_settled (hL.wp_handleControl hΦ hR)
  | manualWake index event =>
      have hR := htaken _ (by rw [hb]; rfl)
      show wp Φ (take _ >>= _) _ w
      rw [wp_take_bind]
      exact hL.wp_of_settled (hL.wp_handleEvent hΦ hR)
  | matching index event =>
      have hR := htaken _ (by rw [hb]; rfl)
      show wp Φ (take _ >>= _) _ w
      rw [wp_take_bind]
      exact hL.wp_of_settled (hL.wp_handleEvent hΦ hR)
  | timer =>
      show wp Φ handleTimer _ w
      exact hL.wp_of_settled (hL.wp_handleTimer hΦ hw hφ hb)
  | wait =>
      show wp Φ waitCondition _ w
      exact wp_mono (hL.wp_waitCondition hΦ (hL.waits hw hφ hclosed hb)) (fun _ _ _ _ h _ => h)
        (fun _ _ _ _ h => h) fun _ _ _ _ h => h

/-- **The rule for runs**: what a run that started on an input that resumes `base` comes to, as
far as its log satisfies `Φ`. -/
theorem wp_run {iso : IsoCodec} {input : MailboxInput} {base : Mailbox}
    (hbase : Mailbox.Resumes iso input base) (uuids : ℕ → String)
    (hfirst : L (World.resumed (initialWorld input uuids) input base)) (rounds : ℕ) :
    wp Φ (run iso input rounds)
      (post (fun w => L w ∧ w.self.mailbox.closed = true) V E B) (initialWorld input uuids) := by
  refine wp_run_resumes hΦ (Q := post (fun w => L w ∧ w.self.mailbox.closed = true) V E B)
    (fun _ => hL.coherent) (fun _ => hL.handover iso) hL.stable
    (fun _ hw hc => hL.wp_iteration hΦ hw hc) ?_
    (fun _ hw => ⟨fun hl => (by cases hl), hL.found hw⟩) (fun _ hw hc => ⟨hw, hc⟩) hbase uuids
    hfirst rounds
  rintro w ⟨-, m, -, hm⟩
  have hB := hL.found hm
  exact ⟨fun hl => (by cases hl), hB⟩

end RunRule

/-- What a proof about runs has to show, where nothing is claimed of the runs that end by an error
or are suspended elsewhere. -/
structure LoopRule (Φ : List Obs → Prop) (A : Point → World Runtime Obs → Prop)
    (R : Source → World Runtime Obs → Prop) (J L V : World Runtime Obs → Prop) : Prop where
  turn : TurnRule Φ A
  invariant : Invariant J
  base : ∀ {w}, L w → J w
  coherent : ∀ {w}, L w → w.self.mailbox.Coherent
  settled : ∀ {w}, J w → A .settled w → Φ w.log → L w
  stable : Stable Φ L
  handover : ∀ {w} (iso : IsoCodec), L w → w.self.mailbox.closed = false →
    L (World.resumed w (w.self.mailbox.continuationInput iso) w.self.mailbox.successor)
  ready_update : ∀ {s u w}, A (.ready s) w → A (.ready s) (updated u w)
  taken_update : ∀ {source u w}, R source w → R source (updated u w)
  taken : ∀ {w source}, L w → Φ w.log →
    (w.self.mailbox.nextBranch w.self.now).source = some source → R source (taken source w)
  event : ∀ {index event w}, R (.event index event) w → A (.ready { eventIds := [event.eventId] }) w
  approved : ∀ {review w}, R (.review review) w → review.commandType = "approve" →
    wp Φ (executePendingAction review.actionRequestId review.proposalRevision)
      ⟨fun r w => match r with
        | none => A .settled w
        | some execution => A (.ready { actionAttemptIds := [execution.attemptId] }) w,
        fun _ _ => True, fun l _ => l ≠ .waitCondition⟩ w
  reviewed : ∀ {review w}, R (.review review) w → review.commandType ≠ "approve" →
    review.commandType ∈ ["reject", "request_revision", "comment"] →
    A (.ready { reviewCommandIds := [review.commandId] }) w
  unreviewed : ∀ {review w}, R (.review review) w →
    review.commandType ∉ ["approve", "reject", "request_revision", "comment"] → A .settled w
  resolved : ∀ {resolution w}, R (.actionResolution resolution) w →
    A (.ready { actionAttemptIds := [resolution.actionAttemptId] }) w
  takenOver : ∀ {control w}, R (.control control) w → control.commandType = "takeover" →
    A .settled (updated (.park .operator) w)
  retried : ∀ {control w}, R (.control control) w → control.commandType = "retry" →
    A (.ready control.sources) w
  uncontrolled : ∀ {control w}, R (.control control) w →
    control.commandType ∉ ["takeover", "retry"] → A .settled w
  due : ∀ {w id}, L w → Φ w.log → w.self.mailbox.nextBranch w.self.now = .timer →
    w.self.mailbox.wakePlan.bind WakePlan.timerId = some id → A (.ready { timerIds := [id] }) w
  undue : ∀ {w record}, L w → Φ w.log → w.self.mailbox.nextBranch w.self.now = .timer →
    w.self.mailbox.wakePlan.bind WakePlan.timerId = none →
    A .settled (updated .clearWakePlan (updated (.appendWakeRecord record) (updated .start w)))
  waits : ∀ {w}, L w → Φ w.log → w.self.mailbox.closed = false →
    w.self.mailbox.nextBranch w.self.now = .wait → V w
  waiting_stable : Stable Φ V
  woken : ∀ {w}, V w → L w

namespace LoopRule

variable {Φ : List Obs → Prop} {A : Point → World Runtime Obs → Prop}
  {R : Source → World Runtime Obs → Prop} {J L V : World Runtime Obs → Prop}

/-- Runs of which `V` alone is claimed. -/
lemma runRule (hL : LoopRule Φ A R J L V) (hΦ : PrefixClosed Φ) :
    RunRule Φ (fun _ => A) (fun _ => True) R J L V fun _ => True where
  turn := hL.turn.chainRule hΦ
  found := fun _ => trivial
  broken := fun _ => trivial
  invariant := hL.invariant
  base := hL.base
  coherent := hL.coherent
  settled := hL.settled
  stable := hL.stable
  handover := hL.handover
  ready_update := hL.ready_update
  taken_update := hL.taken_update
  taken := hL.taken
  event := hL.event
  approved := by
    intro review w h htype
    refine wp_mono (wp_and (hL.approved h htype) (executePendingAction_raises hΦ))
      (fun _ _ _ _ h => h.1) ?_ fun _ _ _ _ h => ⟨h.1, trivial⟩
    rintro e w' - - ⟨-, error, rfl⟩
    exact ⟨error, rfl, trivial⟩
  reviewed := hL.reviewed
  unreviewed := hL.unreviewed
  resolved := hL.resolved
  takenOver := hL.takenOver
  retried := hL.retried
  uncontrolled := hL.uncontrolled
  due := hL.due
  undue := hL.undue
  waits := hL.waits
  waiting_stable := hL.waiting_stable
  woken := hL.woken

/-- **The rule for waiting**: `V` holds whenever a run is found in `wait_condition`, as far as its
log satisfies `Φ`. -/
theorem waiting (hL : LoopRule Φ A R J L V) (hΦ : PrefixClosed Φ) (iso : IsoCodec)
    {input : MailboxInput} (hinput : input.continuation = {})
    (uuids : ℕ → String)
    (hfirst : L (World.resumed (initialWorld input uuids) input (({} : Mailbox).assignInput input)))
    {rounds : ℕ} {script : List Input} {w : World Runtime Obs}
    (hrun : (run iso input rounds).run script (initialWorld input uuids) =
      .blocked .waitCondition w) (hφ : Φ w.log) : V w := by
  have h := (hL.runRule hΦ).wp_run hΦ (Mailbox.resumes_initial iso hinput) uuids hfirst rounds
    script
  rw [hrun] at h
  exact (h hφ).1 rfl

end LoopRule

end TiramisuAgents
