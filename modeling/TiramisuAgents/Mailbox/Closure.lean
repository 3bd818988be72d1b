import TiramisuAgents.Mailbox.Workflow

/-!
What every relation and every invariant of the mailbox has in common.

The workflow code reads the workflow object only through its `view` and changes it only by
an `Update`, by drawing an identity and by taking the message its branch names.  A relation
between two worlds that respects these (`Respects`) is kept by every method of the source;
an invariant is the diagonal case.

* `Respects.runTurn`, `Respects.iteration`: the methods keep such a relation.
* `Invariant`, `Invariant.iteration`: the unary form.
* `Mailbox.nextBranch_available`: the message a branch takes is the first of its buffer, for
  events the first of its type.
-/

namespace TiramisuAgents

open Coroutine

/-- The part of the workflow object that its code reads: not the records, the plan revision
and the count of runs. -/
def Runtime.view (rt : Runtime) : Runtime where
  mailbox := { rt.mailbox with
    wakeRecords := [], turnRecords := [], executionRecords := [], planRevision := 0
    continuedRunCount := 0 }
  input := { tenantId := "", processInstanceId := "" }
  running := rt.running
  now := rt.now
  suggested := rt.suggested
  uuids := rt.uuids

/-- The observations of workflow code apart from taking a message. -/
inductive Obs.Internal : Obs → Prop where
  | started (activity : Activity) : Obs.Internal (.started activity)
  | completed (activity : Activity) (reply : Reply) : Obs.Internal (.completed activity reply)
  | turnRecorded (record : TurnRecord) : Obs.Internal (.turnRecorded record)

/-- A world with an update made. -/
def updated (u : Update) (w : World Runtime Obs) : World Runtime Obs :=
  ⟨{ w.self with mailbox := u.apply w.self.mailbox }, w.log⟩

/-- A world with an identity drawn. -/
def drawn (w : World Runtime Obs) : World Runtime Obs :=
  ⟨{ w.self with uuids := fun n => w.self.uuids (n + 1) }, w.log⟩

/-- A world with an observation made. -/
def observed (o : Obs) (w : World Runtime Obs) : World Runtime Obs :=
  ⟨w.self, w.log ++ [o]⟩

/-- A world with a message taken. -/
def taken (source : Source) (w : World Runtime Obs) : World Runtime Obs :=
  ⟨{ w.self with mailbox := source.pop w.self.mailbox }, w.log ++ [.popped source]⟩

/-- A relation between two worlds that the workflow code cannot tell apart and that each of
its steps, and each input, keeps. -/
structure Respects (R : World Runtime Obs → World Runtime Obs → Prop) : Prop where
  view : ∀ {w w'}, R w w' → w.self.view = w'.self.view
  revision : ∀ {w₁ w₁' w₂ w₂'}, R w₁ w₁' → R w₂ w₂' →
    (w₁.self.mailbox.planRevision = w₂.self.mailbox.planRevision ↔
      w₁'.self.mailbox.planRevision = w₂'.self.mailbox.planRevision)
  absorb : ∀ i {w w'}, R w w' → R (environment.step i w) (environment.step i w')
  update : ∀ u {w w'}, R w w' → R (updated u w) (updated u w')
  draw : ∀ {w w'}, R w w' → R (drawn w) (drawn w')
  observe : ∀ {o : Obs}, o.Internal → ∀ {w w'}, R w w' → R (observed o w) (observed o w')
  take : ∀ {w w' source}, R w w' →
    (w.self.mailbox.nextBranch w.self.now).source = some source → R (taken source w) (taken source w')

/-- The updates between the beginning and the end of a turn. -/
def Update.inside : Update → Bool
  | .beginTurn => false
  | .endTurn => false
  | _ => true

/-- Whether an Activity is `run_agent_turn`. -/
def Activity.isTurn : Activity → Bool
  | .runAgentTurn _ => true
  | _ => false

/-- The observations of workflow code that neither start `run_agent_turn` nor record a turn. -/
inductive Obs.Inside : Obs → Prop where
  | started {activity : Activity} (h : activity.isTurn = false) :
      Obs.Inside (.started activity)
  | completed (activity : Activity) (reply : Reply) : Obs.Inside (.completed activity reply)

lemma Obs.Inside.internal {o : Obs} (h : o.Inside) : o.Internal := by
  cases h with
  | started _ => exact .started _
  | completed activity reply => exact .completed activity reply

/-- A relation that the code of a turn keeps apart from its beginning, its records and its end:
the turns themselves may be told by it. -/
structure RespectsInside (R : World Runtime Obs → World Runtime Obs → Prop) : Prop where
  view : ∀ {w w'}, R w w' → w.self.view = w'.self.view
  absorb : ∀ i {w w'}, R w w' → R (environment.step i w) (environment.step i w')
  update : ∀ {u : Update}, u.inside = true → ∀ {w w'}, R w w' → R (updated u w) (updated u w')
  draw : ∀ {w w'}, R w w' → R (drawn w) (drawn w')
  observe : ∀ {o : Obs}, o.Inside → ∀ {w w'}, R w w' → R (observed o w) (observed o w')

lemma Respects.inside {R : World Runtime Obs → World Runtime Obs → Prop} (hR : Respects R) :
    RespectsInside R where
  view := hR.view
  absorb := hR.absorb
  update := fun {u} _ => hR.update u
  draw := hR.draw
  observe := fun ho => hR.observe ho.internal

/-- `try … except ActivityError` keeps what its body keeps. -/
lemma attempt_relates {R : World Runtime Obs → World Runtime Obs → Prop} {α : Type} {m : Flow α}
    (hm : Relates R m m) : Relates R (attempt m) (attempt m) := by
  refine .tryCatch (.bind hm fun a => .pure _) fun e => ?_
  cases e with
  | activity error => exact .pure _
  | application message => exact .raise _

/-- An Activity keeps what its start, its answers and the inputs meanwhile keep. -/
lemma executeActivity_relates {R : World Runtime Obs → World Runtime Obs → Prop} {α : Type}
    {activity : Activity} {answer? : Reply → Option (Except ActivityError α)}
    (habsorb : ∀ i {w w'}, R w w' → R (environment.step i w) (environment.step i w'))
    (hstarted : ∀ {w w'}, R w w' →
      R (observed (.started activity) w) (observed (.started activity) w'))
    (hcompleted : ∀ reply {w w'}, R w w' →
      R (observed (.completed activity reply) w) (observed (.completed activity reply) w')) :
    Relates R (executeActivity activity answer?) (executeActivity activity answer?) := by
  refine .bind (.emit fun _ _ h => hstarted h) fun _ => ?_
  refine .bind (.suspend (fun i _ _ h => habsorb i h) (fun _ _ _ _ => rfl) ?_) fun answer => ?_
  · intro i w w' answer obs h hwake
    cases i with
    | reply reply =>
        obtain ⟨_, -, heq⟩ := Option.map_eq_some_iff.mp hwake
        obtain ⟨rfl, rfl⟩ := Prod.mk.inj heq
        exact hcompleted reply h
    | signal s => cases hwake
    | task now suggested => cases hwake
    | commit c => cases hwake
  · cases answer with
    | ok value => exact .pure value
    | error error => exact .raise _

namespace RespectsInside

variable {R : World Runtime Obs → World Runtime Obs → Prop} (hR : RespectsInside R)
include hR

/-! ### Steps -/

lemma read {α : Type} (f : Runtime → α) (hf : ∀ rt, f rt.view = f rt) {w w' : World Runtime Obs}
    (h : R w w') : f w.self = f w'.self := by
  rw [← hf, ← hf w'.self, hR.view h]

lemma gets {α : Type} {f : Runtime → α} (hf : ∀ rt, f rt.view = f rt) :
    Relates R (Co.gets f : Flow α) (Co.gets f) :=
  .gets fun _ _ h => hR.read f hf h

lemma isClosed : Relates R isClosed isClosed := hR.gets fun _ => rfl

lemma preemptionPending : Relates R preemptionPending preemptionPending := hR.gets fun _ => rfl

lemma updateFlow {u : Update} (hu : u.inside = true) :
    Relates R (TiramisuAgents.update u) (TiramisuAgents.update u) :=
  .modify fun _ _ h => hR.update hu h

lemma uuid4 : Relates R uuid4 uuid4 :=
  .bind (hR.gets fun _ => rfl) fun id => .bind (.modify fun _ _ h => hR.draw h) fun _ => .pure id

lemma executeActivity {α : Type} {activity : Activity}
    (hactivity : activity.isTurn = false)
    (answer? : Reply → Option (Except ActivityError α)) :
    Relates R (executeActivity activity answer?) (executeActivity activity answer?) :=
  executeActivity_relates hR.absorb (fun h => hR.observe (.started hactivity) h)
    fun reply _ _ h => hR.observe (.completed activity reply) h

lemma sleep (delay : Time) : Relates R (sleep delay) (sleep delay) := by
  refine .bind (hR.gets fun _ => rfl) fun start => ?_
  refine .suspend (fun i _ _ h => hR.absorb i h) ?_ ?_
  · intro i w w' h
    have hnow : w.self.now = w'.self.now := hR.read Runtime.now (fun _ => rfl) h
    cases i <;> simp only [hnow]
  · intro i w w' a obs h hwake
    cases i with
    | task now suggested =>
        simp only [Option.ite_none_right_eq_some, Option.some.injEq, Prod.mk.injEq] at hwake
        obtain ⟨-, -, rfl⟩ := hwake
        simpa using h
    | signal s => cases hwake
    | reply reply => cases hwake
    | commit c => cases hwake

lemma retryWhileSuspended {α : Type} (suspension : String) {m : Flow α} (hm : Relates R m m) :
    Relates R (retryWhileSuspended suspension m) (retryWhileSuspended suspension m) := by
  refine .repeatUntil (.bind (attempt_relates hm) fun answer => ?_)
  cases answer with
  | ok value => exact .pure _
  | error error =>
      dsimp only
      split
      · refine .bind (hR.sleep _) fun _ => .bind hR.isClosed fun closed => ?_
        split <;> exact .pure _
      · exact .raise _

/-! ### Methods -/

lemma recordExecution (command : ActionCommand)
    (answer : Except ActivityError ExecutionResult) :
    Relates R (recordExecution command answer) (recordExecution command answer) :=
  hR.updateFlow rfl

lemma absorbExecutionError {α : Type} (command : ActionCommand) (error : ActivityError)
    (value : α) :
    Relates R (absorbExecutionError command error value)
      (absorbExecutionError command error value) := by
  refine .bind (hR.recordExecution command _) fun _ => ?_
  split
  · exact .raise _
  · exact .pure _

lemma reconcileUnknown (command : ActionCommand) (result : ExecutionResult) :
    Relates R (reconcileUnknown command result) (reconcileUnknown command result) := by
  rw [TiramisuAgents.reconcileUnknown]
  split
  · refine .bind (attempt_relates (hR.executeActivity rfl _)) fun answer => ?_
    cases answer with
    | ok reconciled => exact .bind (hR.recordExecution command _) fun _ => .pure _
    | error error => exact hR.absorbExecutionError command error result
  · exact .pure _

lemma executePendingAction (actionRequestId : String) (revision : ℤ) :
    Relates R (executePendingAction actionRequestId revision)
      (executePendingAction actionRequestId revision) := by
  refine .bind (hR.gets fun _ => rfl) fun command => .bind (hR.updateFlow rfl) fun _ => ?_
  refine .bind (attempt_relates
    (.bind (hR.retryWhileSuspended _ (hR.executeActivity rfl _)) ?_)) ?_
  · intro executed
    cases executed with
    | none => exact .pure _
    | some executed =>
        refine .bind (hR.recordExecution command _) fun _ =>
          .bind (hR.reconcileUnknown command executed) fun result => ?_
        refine .bind ?_ fun _ => .pure _
        rw [settlePendingAction]
        split
        · exact hR.updateFlow rfl
        · exact .pure _
  · intro answer
    cases answer with
    | ok result => exact .pure _
    | error error => exact hR.absorbExecutionError command error _

lemma applyTurnOutcome (outcome : Option ProcessOutcome) (decision : AgentDecision) :
    Relates R (applyTurnOutcome outcome decision) (applyTurnOutcome outcome decision) := by
  unfold TiramisuAgents.applyTurnOutcome
  dsimp only
  split <;> exact hR.updateFlow rfl

lemma executeActions (items : List PersistedItem) (results : List ExecutionResult)
    (requiresApproval : Bool) :
    Relates R (executeActions items results requiresApproval)
      (executeActions items results requiresApproval) := by
  induction items generalizing results requiresApproval with
  | nil => exact .pure _
  | cons item rest ih =>
      rw [TiramisuAgents.executeActions]
      refine .bind hR.preemptionPending fun pending => ?_
      split
      · exact .pure _
      · split
        · refine .bind (attempt_relates (hR.executePendingAction _ _)) fun answer => ?_
          cases answer with
          | error error => exact .pure _
          | ok execution => exact ih _ _
        · exact .bind (hR.updateFlow rfl) fun _ => ih _ _
        · exact ih _ _

end RespectsInside

namespace Respects

variable {R : World Runtime Obs → World Runtime Obs → Prop} (hR : Respects R)
include hR

/-! ### Turns -/

lemma updateFlow (u : Update) : Relates R (TiramisuAgents.update u) (TiramisuAgents.update u) :=
  .modify fun _ _ h => hR.update u h

lemma executeActivity {α : Type} (activity : Activity)
    (answer? : Reply → Option (Except ActivityError α)) :
    Relates R (executeActivity activity answer?) (executeActivity activity answer?) :=
  executeActivity_relates hR.absorb (fun h => hR.observe (.started activity) h)
    fun reply _ _ h => hR.observe (.completed activity reply) h

lemma recordTurn (record : TurnRecord) : Relates R (recordTurn record) (recordTurn record) :=
  .bind (hR.updateFlow _) fun _ => .emit fun _ _ h => hR.observe (.turnRecorded record) h

lemma turnFailed (command : TurnCommand) (progress : TurnProgress) (error : ActivityError) :
    Relates R (turnFailed command progress error) (turnFailed command progress error) := by
  refine .bind hR.inside.preemptionPending fun pending => ?_
  split
  · exact hR.recordTurn _
  · exact .bind (hR.recordTurn _) fun _ => .bind hR.inside.uuid4 fun _ =>
      .bind (hR.executeActivity _ _) fun _ => hR.updateFlow _

lemma settleTurn {chain : Option (TurnSources → Flow Unit)}
    (hchain : ∀ next ∈ chain, ∀ sources, Relates R (next sources) (next sources))
    (command : TurnCommand) (decision : AgentDecision) (items : List PersistedItem)
    (outcome : Option ProcessOutcome) (results : List ExecutionResult) (requiresApproval : Bool) :
    Relates R (settleTurn chain command decision items outcome results requiresApproval)
      (settleTurn chain command decision items outcome results requiresApproval) := by
  refine .bind (hR.recordTurn _) fun _ => ?_
  split
  · cases chain with
    | some next => exact hchain next rfl _
    | none =>
        exact .bind hR.inside.uuid4 fun _ => .bind (hR.executeActivity _ _) fun _ => hR.updateFlow _
  · refine .bind (hR.inside.gets fun _ => rfl) fun pending => ?_
    split
    · split
      · exact hR.inside.applyTurnOutcome _ _
      · exact hR.updateFlow _
    · exact hR.inside.applyTurnOutcome _ _

lemma finishTurn {chain : Option (TurnSources → Flow Unit)}
    (hchain : ∀ next ∈ chain, ∀ sources, Relates R (next sources) (next sources))
    (command : TurnCommand) (decision : AgentDecision) (items : List PersistedItem)
    (outcome : Option ProcessOutcome) :
    Relates R (finishTurn chain command decision items outcome)
      (finishTurn chain command decision items outcome) := by
  refine .bind (hR.inside.executeActions _ _ _) fun ending => ?_
  cases ending with
  | preempted results => exact hR.recordTurn _
  | failed results error => exact hR.turnFailed _ _ _
  | finished results requiresApproval =>
      refine .bind hR.inside.preemptionPending fun pending => ?_
      split
      · exact hR.recordTurn _
      · refine .bind (attempt_relates (hR.settleTurn hchain _ _ _ _ _ _)) fun answer => ?_
        cases answer with
        | ok value => exact .pure _
        | error error => exact hR.turnFailed _ _ _

lemma persistTurn {chain : Option (TurnSources → Flow Unit)}
    (hchain : ∀ next ∈ chain, ∀ sources, Relates R (next sources) (next sources))
    (command : TurnCommand) (decision : AgentDecision) :
    Relates R (persistTurn chain command decision) (persistTurn chain command decision) := by
  refine .bind hR.inside.preemptionPending fun pending => ?_
  split
  · exact hR.recordTurn _
  · refine .bind (attempt_relates (hR.executeActivity _ _)) fun answer => ?_
    cases answer with
    | error error => exact hR.turnFailed _ _ _
    | ok items =>
        refine .bind hR.inside.preemptionPending fun pending => ?_
        split
        · exact hR.recordTurn _
        · refine .bind (attempt_relates (hR.executeActivity _ _)) fun answer => ?_
          cases answer with
          | error error => exact hR.turnFailed _ _ _
          | ok outcome => exact hR.finishTurn hchain _ _ _ _

lemma turn {chain : Option (TurnSources → Flow Unit)}
    (hchain : ∀ next ∈ chain, ∀ sources, Relates R (next sources) (next sources))
    (sources : TurnSources) : Relates R (turn chain sources) (turn chain sources) := by
  refine .bind (hR.inside.gets fun _ => rfl) fun command => ?_
  cases command with
  | none => exact .pure _
  | some command =>
      refine .bind hR.inside.uuid4 fun _ => .bind (hR.updateFlow _) fun _ => ?_
      refine .onExit ?_ fun _ _ h => hR.update .endTurn h
      refine .bind (attempt_relates (hR.inside.retryWhileSuspended _ (hR.executeActivity _ _)))
        fun answer => ?_
      match answer with
      | .error error => exact hR.turnFailed _ _ _
      | .ok none => exact .pure _
      | .ok (some decision) => exact hR.persistTurn hchain _ _

/-- A turn, with the turns chained to it, keeps a respected relation. -/
lemma runTurn (remaining : ℕ) (sources : TurnSources) :
    Relates R (runTurn remaining sources) (runTurn remaining sources) := by
  induction remaining generalizing sources with
  | zero => exact hR.turn (fun _ h => by cases h) sources
  | succ remaining ih =>
      refine hR.turn (fun next h => ?_) sources
      obtain rfl := Option.some.inj h
      exact ih

/-! ### The loop body -/

lemma recordEventWake (reason : String) (event : MailboxEvent) :
    Relates R (recordEventWake reason event) (recordEventWake reason event) :=
  .bind (hR.inside.gets fun _ => rfl) fun _ => hR.updateFlow _

lemma handleReview (review : MailboxReview) :
    Relates R (handleReview review) (handleReview review) := by
  refine .bind (hR.updateFlow _) fun _ => .bind (hR.inside.gets fun _ => rfl) fun now => ?_
  refine .bind (hR.updateFlow _) fun _ => .bind (hR.updateFlow _) fun _ => ?_
  split
  · refine .bind (hR.inside.executePendingAction _ _) fun execution => ?_
    cases execution with
    | none => exact .pure _
    | some execution => exact hR.runTurn _ _
  · split
    · exact .bind (hR.updateFlow _) fun _ => hR.runTurn _ _
    · split
      · exact hR.runTurn _ _
      · exact .pure _

lemma handleControl (control : MailboxControl) :
    Relates R (handleControl control) (handleControl control) := by
  refine .bind (hR.updateFlow _) fun _ => ?_
  split
  · exact hR.updateFlow _
  · split
    · exact .bind (hR.updateFlow _) fun _ => hR.runTurn _ _
    · exact .pure _

lemma handleTimer : Relates R handleTimer handleTimer := by
  refine .bind (hR.inside.gets fun _ => rfl) fun timerId => .bind (hR.updateFlow _) fun _ => ?_
  refine .bind (hR.inside.gets fun _ => rfl) fun now => .bind (hR.updateFlow _) fun _ => ?_
  refine .bind (hR.updateFlow _) fun _ => ?_
  cases timerId with
  | some id => exact hR.runTurn _ _
  | none => exact .pure _

lemma waitCondition : Relates R waitCondition waitCondition := by
  intro is w₀ w₀' h₀
  -- both sides wait for a change of their own plan revision
  show Res.Rel R ((Co.suspend environment .waitCondition _ : Flow Unit).run is w₀)
    ((Co.suspend environment .waitCondition _ : Flow Unit).run is w₀')
  refine Relates.suspend (fun i _ _ h => hR.absorb i h) ?_ ?_ is w₀ w₀' h₀
  · intro i w w' h
    have hready : w.self.mailbox.wakeReady w₀.self.mailbox.planRevision =
        w'.self.mailbox.wakeReady w₀'.self.mailbox.planRevision := by
      have hrest := hR.inside.read
        (fun rt => fun changed : Bool => rt.mailbox.closed || changed
          || !rt.mailbox.reviews.buffer.isEmpty || !rt.mailbox.actionResolutions.buffer.isEmpty
          || !rt.mailbox.controls.buffer.isEmpty
          || (!rt.mailbox.started && rt.mailbox.wakePlan.isNone && rt.mailbox.initialEvent.isSome)
          || rt.mailbox.manualWakeEvent.isSome || rt.mailbox.matchingEvent.isSome)
        (fun _ => rfl) h
      have hchanged : (w.self.mailbox.planRevision != w₀.self.mailbox.planRevision) =
          (w'.self.mailbox.planRevision != w₀'.self.mailbox.planRevision) := by
        rw [Bool.eq_iff_iff, bne_iff_ne, bne_iff_ne]
        exact not_congr (hR.revision h h₀)
      rw [Mailbox.wakeReady, Mailbox.wakeReady, hchanged]
      exact congrFun hrest _
    have hdue : w₀.self.mailbox.timerDueAt = w₀'.self.mailbox.timerDueAt :=
      hR.inside.read (fun rt => rt.mailbox.timerDueAt) (fun _ => rfl) h₀
    have hnow : w.self.now = w'.self.now := hR.inside.read Runtime.now (fun _ => rfl) h
    cases i <;> simp only [hready, hdue, hnow]
  · intro i w w' a obs h hwake
    cases i with
    | task now suggested =>
        simp only [Option.ite_none_right_eq_some, Option.some.injEq, Prod.mk.injEq] at hwake
        obtain ⟨-, -, rfl⟩ := hwake
        simpa using h
    | signal s => cases hwake
    | reply reply => cases hwake
    | commit c => cases hwake

lemma body (branch : Branch) : Relates R branch.body branch.body := by
  cases branch with
  | initial index event =>
      exact .bind (hR.updateFlow _) fun _ => .bind (hR.recordEventWake _ _) fun _ => hR.runTurn _ _
  | review command => exact hR.handleReview command
  | actionResolution resolution =>
      exact .bind (hR.updateFlow _) fun _ => .bind (hR.updateFlow _) fun _ =>
        .bind (hR.updateFlow _) fun _ => hR.runTurn _ _
  | control command => exact hR.handleControl command
  | manualWake index event =>
      exact .bind (hR.updateFlow _) fun _ => .bind (hR.recordEventWake _ _) fun _ =>
        .bind (hR.updateFlow _) fun _ => hR.runTurn _ _
  | matching index event =>
      exact .bind (hR.updateFlow _) fun _ => .bind (hR.recordEventWake _ _) fun _ =>
        .bind (hR.updateFlow _) fun _ => hR.runTurn _ _
  | timer => exact hR.handleTimer
  | wait => exact hR.waitCondition

/-- **The loop body keeps a respected relation.** -/
theorem iteration : Relates R iteration iteration := by
  intro is w w' h
  have hbranch : w.self.mailbox.nextBranch w.self.now = w'.self.mailbox.nextBranch w'.self.now :=
    hR.inside.read (fun rt => rt.mailbox.nextBranch rt.now) (fun _ => rfl) h
  -- the branch is fixed by the state it starts in, so its message can still be taken there
  have hrun : ∀ w₁ : World Runtime Obs, TiramisuAgents.iteration.run is w₁ =
      ((w₁.self.mailbox.nextBranch w₁.self.now).takeMessage >>= fun _ =>
        (w₁.self.mailbox.nextBranch w₁.self.now).body).run is w₁ := fun _ => rfl
  rw [hrun, hrun, ← hbranch]
  generalize hb : w.self.mailbox.nextBranch w.self.now = branch
  rw [Branch.takeMessage]
  cases hs : branch.source with
  | none => exact hR.body branch is w w' h
  | some source =>
      exact hR.body branch is _ _ (hR.take h (by rw [hb, hs]))

end Respects

/-! ### Invariants -/

/-- A property of worlds that each input and each step of the workflow code keeps. -/
structure Invariant (I : World Runtime Obs → Prop) : Prop where
  absorb : ∀ i {w}, I w → I (environment.step i w)
  update : ∀ u {w}, I w → I (updated u w)
  draw : ∀ {w}, I w → I (drawn w)
  observe : ∀ {o : Obs}, o.Internal → ∀ {w}, I w → I (observed o w)
  take : ∀ {w source}, I w →
    (w.self.mailbox.nextBranch w.self.now).source = some source → I (taken source w)

lemma Respects.eq : Respects fun w w' => w = w' where
  view := fun h => by rw [h]
  revision := fun h h' => by rw [h, h']
  absorb := fun i _ _ h => by rw [h]
  update := fun u _ _ h => by rw [h]
  draw := fun h => by rw [h]
  observe := fun _ _ _ h => by rw [h]
  take := fun h _ => by rw [h]

/-- A respected relation may be joined with an invariant of its first side. -/
lemma Respects.and {R : World Runtime Obs → World Runtime Obs → Prop} (hR : Respects R)
    {I : World Runtime Obs → Prop} (hI : Invariant I) : Respects fun w w' => R w w' ∧ I w where
  view := fun h => hR.view h.1
  revision := fun h h' => hR.revision h.1 h'.1
  absorb := fun i _ _ h => ⟨hR.absorb i h.1, hI.absorb i h.2⟩
  update := fun u _ _ h => ⟨hR.update u h.1, hI.update u h.2⟩
  draw := fun h => ⟨hR.draw h.1, hI.draw h.2⟩
  observe := fun ho _ _ h => ⟨hR.observe ho h.1, hI.observe ho h.2⟩
  take := fun h hs => ⟨hR.take h.1 hs, hI.take h.2 hs⟩

lemma Invariant.and {I I' : World Runtime Obs → Prop} (hI : Invariant I) (hI' : Invariant I') :
    Invariant fun w => I w ∧ I' w where
  absorb := fun i _ h => ⟨hI.absorb i h.1, hI'.absorb i h.2⟩
  update := fun u _ h => ⟨hI.update u h.1, hI'.update u h.2⟩
  draw := fun h => ⟨hI.draw h.1, hI'.draw h.2⟩
  observe := fun ho _ h => ⟨hI.observe ho h.1, hI'.observe ho h.2⟩
  take := fun h hs => ⟨hI.take h.1 hs, hI'.take h.2 hs⟩

/-- The loop body keeps an invariant, wherever its run ends. -/
theorem Invariant.iteration {I : World Runtime Obs → Prop} (hI : Invariant I) :
    Preserves I iteration :=
  (Respects.eq.and hI).iteration.preserves

/-! ### Configuration -/

/-- A mailbox with a process definition. -/
def Mailbox.Configured (m : Mailbox) : Prop :=
  m.processDefinitionId.isSome = true ∧ m.processDefinitionVersion.isSome = true

namespace Mailbox.Configured

variable {m : Mailbox} (h : m.Configured)
include h

lemma handle (s : Signal) : (m.handle s).Configured := by
  cases s <;> exact h

lemma update (u : Update) : (u.apply m).Configured := by
  simpa [Configured] using h

lemma pop (source : Source) : (source.pop m).Configured := by
  cases source <;> exact h

end Mailbox.Configured

lemma configured_invariant : Invariant fun w => w.self.mailbox.Configured where
  absorb := by
    intro i w h
    cases i with
    | signal s => exact h.handle s
    | _ => exact h
  update := fun u _ h => h.update u
  draw := id
  observe := fun _ _ h => h
  take := fun h _ => h.pop _

/-- A configured mailbox runs its turns. -/
lemma Mailbox.Configured.turnCommand_ne_none {rt : Runtime} (h : rt.mailbox.Configured)
    (turnId : String) (sources : TurnSources) : rt.turnCommand turnId sources ≠ none := by
  obtain ⟨id, hid⟩ := Option.isSome_iff_exists.mp h.1
  obtain ⟨version, hversion⟩ := Option.isSome_iff_exists.mp h.2
  rw [Runtime.turnCommand, hid, hversion]
  simp

/-! ### The message of a branch -/

/-- A message that can be taken: the first of its buffer, for an event the first of its
type. -/
def Source.Available : Source → Mailbox → Prop
  | .event index message, m => m.events.buffer[index]? = some message ∧
      ∀ earlier ∈ m.events.buffer.take index, earlier.eventType ≠ message.eventType
  | .review message, m => m.reviews.buffer[0]? = some message
  | .actionResolution message, m => m.actionResolutions.buffer[0]? = some message
  | .control message, m => m.controls.buffer[0]? = some message

lemma Mailbox.firstEvent_eq_some {p : MailboxEvent → Bool} {l : List MailboxEvent} {index : ℕ}
    {event : MailboxEvent} (h : firstEvent p l = some (index, event)) :
    l[index]? = some event ∧ p event = true ∧ ∀ earlier ∈ l.take index, p earlier = false := by
  induction l generalizing index with
  | nil => cases h
  | cons head rest ih =>
      rw [firstEvent] at h
      split at h
      · obtain ⟨rfl, rfl⟩ := Prod.mk.inj (Option.some.inj h)
        exact ⟨rfl, ‹_›, by simp⟩
      · obtain ⟨⟨i, e⟩, hfound, heq⟩ := Option.map_eq_some_iff.mp h
        obtain ⟨rfl, rfl⟩ := Prod.mk.inj heq
        obtain ⟨hget, hp, hearlier⟩ := ih hfound
        refine ⟨hget, hp, ?_⟩
        rw [List.take_succ_cons]
        intro earlier hmem
        rcases List.mem_cons.mp hmem with rfl | hmem
        · simpa using ‹¬p earlier = true›
        · exact hearlier earlier hmem

/-- A found event is available if its type is what it was found by. -/
lemma available_of_firstEvent {m : Mailbox} {q : String → Bool} {index : ℕ}
    {event : MailboxEvent}
    (h : Mailbox.firstEvent (fun event => q event.eventType) m.events.buffer =
      some (index, event)) :
    (Source.event index event).Available m := by
  obtain ⟨hget, hq, hearlier⟩ := Mailbox.firstEvent_eq_some h
  refine ⟨hget, fun earlier hmem heq => ?_⟩
  have hfalse := hearlier earlier hmem
  rw [heq, hq] at hfalse
  cases hfalse

/-- The message a branch takes is available. -/
theorem Mailbox.nextBranch_available {m : Mailbox} {now : Time} {source : Source}
    (h : (m.nextBranch now).source = some source) : source.Available m := by
  unfold nextBranch at h
  split at h
  · rename_i index event hinitial
    obtain rfl := Option.some.inj h
    split at hinitial
    · exact available_of_firstEvent (q := fun t => t != operatorManualWakeEventType) hinitial
    · cases hinitial
  · split at h
    · rename_i review rest hbuffer
      obtain rfl := Option.some.inj h
      simp [Source.Available, hbuffer]
    · split at h
      · rename_i resolution rest hbuffer
        obtain rfl := Option.some.inj h
        simp [Source.Available, hbuffer]
      · split at h
        · rename_i control rest hbuffer
          obtain rfl := Option.some.inj h
          simp [Source.Available, hbuffer]
        · split at h
          · rename_i index event hmanual
            obtain rfl := Option.some.inj h
            exact available_of_firstEvent (q := fun t => t == operatorManualWakeEventType) hmanual
          · split at h
            · rename_i index event hmatching
              obtain rfl := Option.some.inj h
              obtain ⟨plan, -, hfound⟩ := Option.bind_eq_some_iff.mp hmatching
              exact available_of_firstEvent (q := plan.eventTypes.contains) hfound
            · split at h <;> cases h

/-- The timer branch is taken for a deadline. -/
lemma Mailbox.timerDueAt_of_nextBranch {m : Mailbox} {now : Time} (h : m.nextBranch now = .timer) :
    ∃ due, m.timerDueAt = some due := by
  cases hdue : m.timerDueAt with
  | some due => exact ⟨due, rfl⟩
  | none =>
      unfold nextBranch at h
      rw [hdue] at h
      repeat' split at h
      all_goals simp_all

/-- The loop waits only with no review, resolution or control left. -/
lemma Mailbox.buffers_of_nextBranch {m : Mailbox} {now : Time} (h : m.nextBranch now = .wait) :
    m.reviews.buffer = [] ∧ m.actionResolutions.buffer = [] ∧ m.controls.buffer = [] := by
  unfold nextBranch at h
  split at h
  · cases h
  · split at h
    · cases h
    · rename_i hreviews
      split at h
      · cases h
      · rename_i hresolutions
        split at h
        · cases h
        · rename_i hcontrols
          exact ⟨hreviews, hresolutions, hcontrols⟩

end TiramisuAgents
