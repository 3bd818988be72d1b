import TiramisuAgents.Mailbox.Runs
import TiramisuAgents.Mailbox.TurnRule

/-!
`wait_condition` and the loop body agree about what wakes a mailbox.

The source writes the guards of its branches twice: as the `if`s of the loop body and as the
disjuncts of the predicate it waits for, next to a timeout.  Both are compared with one statement
of what the branches are for.

* `Branch.Enabled`: the guard of a branch, over the buffers as lists; `Branch.rank` is the order
  of the documentation.
* `Mailbox.nextBranch_enabled`, `Mailbox.nextBranch_first`: the loop body takes the first enabled
  branch, and waits if there is none.
* `Mailbox.wakeReady_iff`, `Mailbox.timerTimeout_elapsed`: the predicate and the timeout.
* `Waited`: what a workflow that is found in `wait_condition` has been through since it waits.
* `Progresses`: what a round of the loop does that does not wait.
-/

namespace TiramisuAgents

open Coroutine

/-! ### The guards of the branches -/

/-- The first event of a buffer with a property, at its position. -/
structure FirstAt (p : MailboxEvent → Prop) (buffer : List MailboxEvent) (index : ℕ)
    (event : MailboxEvent) : Prop where
  found : buffer[index]? = some event
  holds : p event
  first : ∀ earlier ∈ buffer.take index, ¬ p earlier

namespace FirstAt

variable {p : MailboxEvent → Prop} {buffer : List MailboxEvent} {index index' : ℕ}
  {event event' : MailboxEvent}

lemma not_lt (h : FirstAt p buffer index event) (h' : FirstAt p buffer index' event') :
    ¬ index' < index := by
  intro hlt
  refine h.first event' ?_ h'.holds
  refine List.mem_of_getElem? (i := index') ?_
  rw [List.getElem?_take_of_lt hlt]
  exact h'.found

lemma unique (h : FirstAt p buffer index event) (h' : FirstAt p buffer index' event') :
    index = index' ∧ event = event' := by
  obtain rfl : index = index' := by
    have := h.not_lt h'
    have := h'.not_lt h
    omega
  exact ⟨rfl, Option.some.inj (h.found.symm.trans h'.found)⟩

end FirstAt

/-- The guard of a branch of the loop body. -/
def Branch.Enabled (m : Mailbox) (now : Time) : Branch → Prop
  | .initial index event => m.started = false ∧ m.wakePlan = none ∧
      FirstAt (fun e => e.eventType ≠ Mailbox.operatorManualWakeEventType) m.events.buffer index
        event
  | .review command => m.reviews.buffer.head? = some command
  | .actionResolution command => m.actionResolutions.buffer.head? = some command
  | .control command => m.controls.buffer.head? = some command
  | .manualWake index event =>
      FirstAt (fun e => e.eventType = Mailbox.operatorManualWakeEventType) m.events.buffer index
        event
  | .matching index event => ∃ plan, m.wakePlan = some plan ∧
      FirstAt (fun e => e.eventType ∈ plan.eventTypes) m.events.buffer index event
  | .timer => ∃ due, m.timerDueAt = some due ∧ due ≤ now
  | .wait => False

/-- The order in which the documentation lists the sources. -/
def Branch.rank : Branch → ℕ
  | .initial _ _ => 0
  | .review _ => 1
  | .actionResolution _ => 2
  | .control _ => 3
  | .manualWake _ _ => 4
  | .matching _ _ => 5
  | .timer => 6
  | .wait => 7

/-- `_timer_timeout`. -/
def Mailbox.timerTimeout (m : Mailbox) (now : Time) : Option Time :=
  m.timerDueAt.map fun due => max (due - now) 0

namespace Mailbox

variable {m : Mailbox} {now : Time} {awaited : ℕ}

lemma firstEvent_eq_none {p : MailboxEvent → Bool} {buffer : List MailboxEvent}
    (h : firstEvent p buffer = none) : ∀ event ∈ buffer, p event = false := by
  induction buffer with
  | nil => simp
  | cons head rest ih =>
      rw [firstEvent] at h
      split at h
      · cases h
      · rename_i hhead
        have hrest : firstEvent p rest = none := Option.map_eq_none_iff.mp h
        intro event hmem
        obtain rfl | hmem := List.mem_cons.mp hmem
        · simpa using hhead
        · exact ih hrest event hmem

lemma firstEvent_eq_some_iff {p : MailboxEvent → Bool} {buffer : List MailboxEvent} {index : ℕ}
    {event : MailboxEvent} :
    firstEvent p buffer = some (index, event) ↔
      FirstAt (fun e => p e = true) buffer index event := by
  constructor
  · intro h
    obtain ⟨hfound, hholds, hfirst⟩ := firstEvent_eq_some h
    exact ⟨hfound, hholds, fun earlier hmem => by simp [hfirst earlier hmem]⟩
  · intro h
    cases hfirst : firstEvent p buffer with
    | some found =>
        obtain ⟨i, e⟩ := found
        obtain ⟨hfound, hholds, hearlier⟩ := firstEvent_eq_some hfirst
        have hat : FirstAt (fun e => p e = true) buffer i e :=
          ⟨hfound, hholds, fun earlier hmem => by simp [hearlier earlier hmem]⟩
        obtain ⟨rfl, rfl⟩ := h.unique hat
        rfl
    | none =>
        have hnone := firstEvent_eq_none hfirst event (List.mem_of_getElem? h.found)
        exact absurd h.holds (by simp [hnone])

lemma initialEvent_eq_some_iff {index : ℕ} {event : MailboxEvent} :
    m.initialEvent = some (index, event) ↔
      FirstAt (fun e => e.eventType ≠ operatorManualWakeEventType) m.events.buffer index event := by
  rw [initialEvent, firstEvent_eq_some_iff]
  simp

lemma manualWakeEvent_eq_some_iff {index : ℕ} {event : MailboxEvent} :
    m.manualWakeEvent = some (index, event) ↔
      FirstAt (fun e => e.eventType = operatorManualWakeEventType) m.events.buffer index event := by
  rw [manualWakeEvent, firstEvent_eq_some_iff]
  simp

lemma matchingEvent_eq_some_iff {index : ℕ} {event : MailboxEvent} :
    m.matchingEvent = some (index, event) ↔ ∃ plan, m.wakePlan = some plan ∧
      FirstAt (fun e => e.eventType ∈ plan.eventTypes) m.events.buffer index event := by
  rw [matchingEvent, Option.bind_eq_some_iff]
  simp [firstEvent_eq_some_iff]

/-! ### The loop body -/

@[simp] lemma enabled_initial {index : ℕ} {event : MailboxEvent} :
    (Branch.initial index event).Enabled m now ↔
      (!m.started && m.wakePlan.isNone) = true ∧ m.initialEvent = some (index, event) := by
  rw [initialEvent_eq_some_iff]
  simp [Branch.Enabled, and_assoc]

@[simp] lemma enabled_review {command : MailboxReview} :
    (Branch.review command).Enabled m now ↔ m.reviews.buffer.head? = some command := Iff.rfl

@[simp] lemma enabled_actionResolution {command : MailboxActionResolution} :
    (Branch.actionResolution command).Enabled m now ↔
      m.actionResolutions.buffer.head? = some command := Iff.rfl

@[simp] lemma enabled_control {command : MailboxControl} :
    (Branch.control command).Enabled m now ↔ m.controls.buffer.head? = some command := Iff.rfl

@[simp] lemma enabled_manualWake {index : ℕ} {event : MailboxEvent} :
    (Branch.manualWake index event).Enabled m now ↔ m.manualWakeEvent = some (index, event) :=
  manualWakeEvent_eq_some_iff.symm

@[simp] lemma enabled_matching {index : ℕ} {event : MailboxEvent} :
    (Branch.matching index event).Enabled m now ↔ m.matchingEvent = some (index, event) :=
  matchingEvent_eq_some_iff.symm

@[simp] lemma enabled_timer :
    Branch.timer.Enabled m now ↔
      m.timerDueAt.elim false (fun due => decide (due ≤ now)) = true := by
  cases hdue : m.timerDueAt <;> simp [Branch.Enabled, hdue]

@[simp] lemma enabled_wait : Branch.wait.Enabled m now ↔ False := Iff.rfl

/-- **The loop body takes the first enabled branch**, and waits if there is none. -/
lemma nextBranch_spec : (m.nextBranch now = .wait ∨ (m.nextBranch now).Enabled m now) ∧
    ∀ b, b.Enabled m now → b = m.nextBranch now ∨ (m.nextBranch now).rank < b.rank := by
  unfold nextBranch
  split
  · rename_i index event hinitial
    rw [Option.ite_none_right_eq_some] at hinitial
    refine ⟨.inr (enabled_initial.mpr hinitial), fun b hb => ?_⟩
    cases b <;> simp_all [Branch.rank]
  split
  · rename_i command rest hbuffer
    refine ⟨.inr (by simp [hbuffer]), fun b hb => ?_⟩
    cases b <;> simp_all [Branch.rank]
  split
  · rename_i command rest hbuffer
    refine ⟨.inr (by simp [hbuffer]), fun b hb => ?_⟩
    cases b <;> simp_all [Branch.rank]
  split
  · rename_i command rest hbuffer
    refine ⟨.inr (by simp [hbuffer]), fun b hb => ?_⟩
    cases b <;> simp_all [Branch.rank]
  split
  · rename_i index event hfound
    refine ⟨.inr (enabled_manualWake.mpr hfound), fun b hb => ?_⟩
    cases b <;> simp_all [Branch.rank]
  split
  · rename_i index event hfound
    refine ⟨.inr (enabled_matching.mpr hfound), fun b hb => ?_⟩
    cases b <;> simp_all [Branch.rank]
  split
  · rename_i hdue
    refine ⟨.inr (enabled_timer.mpr hdue), fun b hb => ?_⟩
    cases b <;> simp_all [Branch.rank]
  · refine ⟨.inl rfl, fun b hb => ?_⟩
    cases b <;> simp_all

lemma nextBranch_eq_wait_iff : m.nextBranch now = .wait ↔ ∀ b : Branch, ¬ b.Enabled m now := by
  constructor
  · intro hwait b hb
    obtain rfl | hrank := nextBranch_spec.2 b hb
    · rw [hwait] at hb
      exact hb
    · rw [hwait] at hrank
      cases b <;> simp [Branch.rank] at hrank
  · intro hnone
    exact nextBranch_spec.1.resolve_right (hnone _)

/-! ### What wakes the loop -/

/-- **The predicate holds exactly if a branch other than the timer is enabled**, or the loop is
closed, or the plan was replaced. -/
lemma wakeReady_iff : m.wakeReady awaited = true ↔
    m.closed = true ∨ m.planRevision ≠ awaited ∨ ∃ b : Branch, b ≠ .timer ∧ b.Enabled m now := by
  constructor
  · intro h
    simp only [wakeReady, Bool.or_eq_true, bne_iff_ne, Bool.not_eq_true', List.isEmpty_eq_false_iff,
      Option.isSome_iff_exists, Prod.exists] at h
    obtain ((((((hclosed | hrevision) | hreview) | hresolution) | hcontrol) | hinitial) | hmanual) |
      hmatching := h
    · exact .inl hclosed
    · exact .inr (.inl hrevision)
    · obtain ⟨command, rest, hbuffer⟩ := List.exists_cons_of_ne_nil hreview
      exact .inr (.inr ⟨.review command, by simp, by simp [hbuffer]⟩)
    · obtain ⟨command, rest, hbuffer⟩ := List.exists_cons_of_ne_nil hresolution
      exact .inr (.inr ⟨.actionResolution command, by simp, by simp [hbuffer]⟩)
    · obtain ⟨command, rest, hbuffer⟩ := List.exists_cons_of_ne_nil hcontrol
      exact .inr (.inr ⟨.control command, by simp, by simp [hbuffer]⟩)
    · obtain ⟨hguard, hsome⟩ := Bool.and_eq_true_iff.mp hinitial
      obtain ⟨⟨index, event⟩, hevent⟩ := Option.isSome_iff_exists.mp hsome
      exact .inr (.inr ⟨.initial index event, by simp, enabled_initial.mpr ⟨hguard, hevent⟩⟩)
    · obtain ⟨index, event, hevent⟩ := hmanual
      exact .inr (.inr ⟨.manualWake index event, by simp, enabled_manualWake.mpr hevent⟩)
    · obtain ⟨index, event, hevent⟩ := hmatching
      exact .inr (.inr ⟨.matching index event, by simp, enabled_matching.mpr hevent⟩)
  · rintro (hclosed | hrevision | ⟨b, htimer, hb⟩)
    · simp [wakeReady, hclosed]
    · simp [wakeReady, hrevision]
    · cases b with
      | timer => exact absurd rfl htimer
      | wait => exact hb.elim
      | initial index event => simp_all [wakeReady]
      | review command => cases hbuffer : m.reviews.buffer <;> simp_all [wakeReady]
      | actionResolution command =>
          cases hbuffer : m.actionResolutions.buffer <;> simp_all [wakeReady]
      | control command => cases hbuffer : m.controls.buffer <;> simp_all [wakeReady]
      | manualWake index event => simp_all [wakeReady]
      | matching index event => simp_all [wakeReady]

/-- **The timeout elapses exactly when the timer is due.** -/
lemma timerTimeout_elapsed {start : Time} (hstart : start ≤ now) :
    (∃ timeout, m.timerTimeout start = some timeout ∧ start + timeout ≤ now) ↔
      Branch.timer.Enabled m now := by
  rw [timerTimeout, Branch.Enabled]
  cases m.timerDueAt with
  | none => simp
  | some due =>
      constructor
      · rintro ⟨timeout, htimeout, helapsed⟩
        obtain rfl := Option.some.inj htimeout
        have hdue : due - start ≤ max (due - start) 0 := le_max_left _ _
        exact ⟨due, rfl, by linarith⟩
      · rintro ⟨_, hdue, helapsed⟩
        obtain rfl := Option.some.inj hdue
        have htimeout : max (due - start) 0 ≤ now - start :=
          max_le (by linarith) (by linarith)
        exact ⟨_, rfl, by linarith⟩

/-! ### Progress -/

/-- What is left to take: the messages in the four buffers and the timer. -/
def pendingCount (m : Mailbox) : ℕ :=
  m.events.buffer.length + m.reviews.buffer.length + m.actionResolutions.buffer.length +
    m.controls.buffer.length + m.timerDueAt.elim 0 fun _ => 1

end Mailbox

/-- Taking an available message leaves less. -/
lemma Source.pendingCount_pop {source : Source} {m : Mailbox} (h : source.Available m) :
    (source.pop m).pendingCount < m.pendingCount := by
  have hlength {α : Type} {l : List α} {index : ℕ} {a : α} (h : l[index]? = some a) :
      (l.eraseIdx index).length < l.length := by
    obtain ⟨hlt, -⟩ := List.getElem?_eq_some_iff.mp h
    rw [List.length_eraseIdx_of_lt hlt]
    omega
  cases source with
  | event index event =>
      have := hlength h.1
      simp only [Mailbox.pendingCount, pop, Inbox.pop]
      omega
  | review command =>
      have := hlength h
      simp only [Mailbox.pendingCount, pop, Inbox.pop]
      omega
  | actionResolution command =>
      have := hlength h
      simp only [Mailbox.pendingCount, pop, Inbox.pop]
      omega
  | control command =>
      have := hlength h
      simp only [Mailbox.pendingCount, pop, Inbox.pop]
      omega

/-- Clearing the plan of a due timer leaves less. -/
lemma Mailbox.pendingCount_clearWakePlan {m : Mailbox} {now : Time}
    (h : Branch.timer.Enabled m now) :
    (Update.clearWakePlan.apply m).pendingCount < m.pendingCount := by
  obtain ⟨due, hdue, -⟩ := h
  simp [Mailbox.pendingCount, Update.apply, hdue]

/-- What a round of the loop does that does not wait: it ends the run, or takes a message that a
branch stands for, or clears the plan of a due timer; there is then less left to take. -/
inductive Progresses (iso : IsoCodec) (w : World Runtime Obs) : Prop where
  | ends (suggested : w.self.mailbox.shouldContinueAsNew w.self.suggested = true)
      (round : ∀ script, (round (continueAsNew iso)).run script w =
        (continueAsNew iso).run script w)
  | takes (b : Branch) (source : Source) (enabled : b.Enabled w.self.mailbox w.self.now)
      (sourced : b.source = some source) (available : source.Available w.self.mailbox)
      (less : (taken source w).self.mailbox.pendingCount < w.self.mailbox.pendingCount)
      (round : ∀ script, (round (continueAsNew iso)).run script w =
        b.body.run script (taken source w))
  | clears (enabled : Branch.timer.Enabled w.self.mailbox w.self.now) (v : World Runtime Obs)
      (rest : Flow Unit)
      (cleared : v.self.mailbox.wakePlan = none ∧ v.self.mailbox.timerDueAt = none)
      (less : v.self.mailbox.pendingCount < w.self.mailbox.pendingCount)
      (round : ∀ script, (round (continueAsNew iso)).run script w = rest.run script v)

/-- A round below the Continue-As-New check. -/
lemma round_run {boundary : Flow Unit} {w : World Runtime Obs}
    (hsuggested : w.self.mailbox.shouldContinueAsNew w.self.suggested = false)
    (script : List Input) : (round boundary).run script w = iteration.run script w := by
  rw [round, Co.run_bind]
  simp [Co.gets, hsuggested]

lemma iteration_run {w : World Runtime Obs} {b : Branch}
    (hb : w.self.mailbox.nextBranch w.self.now = b) (script : List Input) :
    iteration.run script w = (b.takeMessage >>= fun _ => b.body).run script w := by
  subst hb
  rfl

/-- The branch of a due timer clears the plan before it awaits anything. -/
lemma handleTimer_run (w : World Runtime Obs) : ∃ record rest, ∀ script,
    handleTimer.run script w = Co.run rest script
      (updated .clearWakePlan (updated (.appendWakeRecord record) (updated .start w))) := by
  let timerId := w.self.mailbox.wakePlan.bind WakePlan.timerId
  let record : WakeRecord :=
    { reason := "timer", eventId := none, eventType := none, timerId := timerId,
      wokeAt := w.self.now }
  refine ⟨record, timerId.elim (pure ()) fun id => runTurn chainLimit { timerIds := [id] },
    fun script => ?_⟩
  cases hid : timerId with
  | some id =>
      rw [handleTimer, Co.run_bind]
      simp only [Co.gets]
      rw [show w.self.mailbox.wakePlan.bind WakePlan.timerId = some id from hid]
      simp only [record, hid]
      rfl
  | none =>
      rw [handleTimer, Co.run_bind]
      simp only [Co.gets]
      rw [show w.self.mailbox.wakePlan.bind WakePlan.timerId = none from hid]
      simp only [record, hid]
      rfl

/-- **A round that does not wait makes progress.** -/
lemma progresses {iso : IsoCodec} {w : World Runtime Obs}
    (h : w.self.mailbox.shouldContinueAsNew w.self.suggested = true ∨
      w.self.mailbox.nextBranch w.self.now ≠ .wait) : Progresses iso w := by
  cases hsuggested : w.self.mailbox.shouldContinueAsNew w.self.suggested with
  | true =>
      refine .ends hsuggested fun script => ?_
      rw [round, Co.run_bind]
      simp [Co.gets, hsuggested]
  | false =>
      have hbranch := h.resolve_left (by simp [hsuggested])
      have henabled := Mailbox.nextBranch_spec.1.resolve_left hbranch
      generalize hb : w.self.mailbox.nextBranch w.self.now = b at hbranch henabled
      have hrun (script : List Input) : (round (continueAsNew iso)).run script w =
          (b.takeMessage >>= fun _ => b.body).run script w :=
        (round_run hsuggested script).trans (iteration_run hb script)
      cases hsource : b.source with
      | some source =>
          have havailable := Mailbox.nextBranch_available
            ((congrArg Branch.source hb).trans hsource)
          refine .takes b source henabled hsource havailable
            (Source.pendingCount_pop havailable) fun script => (hrun script).trans ?_
          rw [Branch.takeMessage, hsource]
          rfl
      | none =>
          obtain rfl : b = .timer := by cases b <;> simp_all [Branch.source]
          obtain ⟨record, rest, htimer⟩ := handleTimer_run w
          exact .clears henabled _ rest ⟨rfl, rfl⟩ (Mailbox.pendingCount_clearWakePlan henabled)
            fun script => (hrun script).trans (htimer script)

/-! ### Waiting -/

/-- What absorbing inputs does to the plan: the revision does not fall, and as long as it does not
rise the timer stays. -/
lemma steps_plan (script : List Input) (w : World Runtime Obs) :
    w.self.mailbox.planRevision ≤ (environment.steps script w).self.mailbox.planRevision ∧
      ((environment.steps script w).self.mailbox.planRevision = w.self.mailbox.planRevision →
        (environment.steps script w).self.mailbox.timerDueAt = w.self.mailbox.timerDueAt) := by
  induction script generalizing w with
  | nil => exact ⟨le_rfl, fun _ => rfl⟩
  | cons i rest ih =>
      have hstep : w.self.mailbox.planRevision ≤ (environment.step i w).self.mailbox.planRevision ∧
          ((environment.step i w).self.mailbox.planRevision = w.self.mailbox.planRevision →
            (environment.step i w).self.mailbox.timerDueAt = w.self.mailbox.timerDueAt) := by
        cases i with
        | signal s =>
            cases s with
            | replaceWakePlan plan =>
                refine ⟨Nat.le_succ _, fun heq => ?_⟩
                have hne : w.self.mailbox.planRevision + 1 ≠ w.self.mailbox.planRevision := by omega
                exact absurd heq hne
            | _ => exact ⟨le_rfl, fun _ => rfl⟩
        | _ => exact ⟨le_rfl, fun _ => rfl⟩
      obtain ⟨hle, htimer⟩ := ih (environment.step i w)
      refine ⟨hstep.1.trans hle, fun heq => ?_⟩
      have hsame : (environment.step i w).self.mailbox.planRevision
          = w.self.mailbox.planRevision := by
        have hrest : (environment.steps rest (environment.step i w)).self.mailbox.planRevision
            = w.self.mailbox.planRevision := heq
        omega
      exact (htimer (heq.trans hsame.symm)).trans (hstep.2 hsame)

/-- A workflow task finds nothing to do for a workflow that awaits a plan revision. -/
def Idle (awaited : ℕ) (w : World Runtime Obs) : Prop :=
  w.self.mailbox.closed = false ∧ w.self.mailbox.planRevision = awaited ∧
    ∀ b : Branch, ¬ b.Enabled w.self.mailbox w.self.now

/-- A workflow that began to wait in the world `start` has absorbed a script, and no workflow task
in it has found anything to do. -/
structure Waited (start : World Runtime Obs) (script : List Input) (w : World Runtime Obs) :
    Prop where
  began : ∀ b : Branch, ¬ b.Enabled start.self.mailbox start.self.now
  absorbed : w = environment.steps script start
  idle : ∀ before now suggested after, script = before ++ .task now suggested :: after →
    Idle start.self.mailbox.planRevision (environment.steps (before ++ [.task now suggested]) start)

/-- What `wait_condition` looks at in a workflow task is whether there is anything to do. -/
lemma wakes_iff {start w : World Runtime Obs}
    (htimer : w.self.mailbox.planRevision = start.self.mailbox.planRevision →
      w.self.mailbox.timerDueAt = start.self.mailbox.timerDueAt) :
    ((w.self.mailbox.wakeReady start.self.mailbox.planRevision ||
      start.self.mailbox.timerDueAt.elim false (fun due => decide (due ≤ w.self.now))) = false) ↔
      Idle start.self.mailbox.planRevision w := by
  have hwakes : w.self.mailbox.wakeReady start.self.mailbox.planRevision = true ↔
      w.self.mailbox.closed = true ∨
        w.self.mailbox.planRevision ≠ start.self.mailbox.planRevision ∨
        ∃ b : Branch, b ≠ .timer ∧ b.Enabled w.self.mailbox w.self.now := Mailbox.wakeReady_iff
  rw [Bool.or_eq_false_iff, ← Bool.not_eq_true, ← Bool.not_eq_true (Option.elim _ _ _),
    hwakes, Idle]
  constructor
  · rintro ⟨hready, hdue⟩
    push Not at hready
    obtain ⟨hclosed, hrevision, hnone⟩ := hready
    refine ⟨by simpa using hclosed, hrevision, fun b => ?_⟩
    by_cases htype : b = .timer
    · subst htype
      rw [Mailbox.enabled_timer, htimer hrevision]
      exact hdue
    · exact hnone b htype
  · rintro ⟨hclosed, hrevision, hnone⟩
    have hdue := hnone .timer
    rw [Mailbox.enabled_timer, htimer hrevision] at hdue
    refine ⟨?_, hdue⟩
    rintro (h | h | ⟨b, -, hb⟩)
    · simp [hclosed] at h
    · exact h hrevision
    · exact hnone b hb

/-- **`wait_condition` sleeps through a script exactly if no workflow task in it finds anything to
do.** -/
lemma waitCondition_run_iff {script : List Input} {l : Await} {w w' : World Runtime Obs}
    (hbegan : ∀ b : Branch, ¬ b.Enabled w.self.mailbox w.self.now) :
    waitCondition.run script w = .blocked l w' ↔ l = .waitCondition ∧ Waited w script w' := by
  rw [waitCondition, Co.run_bind]
  simp only [Co.gets, Co.suspend]
  rw [Co.suspendRun_eq_blocked_iff]
  constructor
  · rintro ⟨rfl, rfl, hasleep⟩
    refine ⟨rfl, hbegan, rfl, fun before now suggested after hsplit => ?_⟩
    have hnone := hasleep before _ after hsplit
    refine (wakes_iff (steps_plan _ w).2).mp ?_
    simpa using hnone
  · rintro ⟨rfl, hwaited⟩
    refine ⟨rfl, hwaited.absorbed, fun before i after hsplit => ?_⟩
    cases i with
    | task now suggested =>
        have hidle := (wakes_iff (steps_plan _ w).2).mpr
          (hwaited.idle before now suggested after hsplit)
        simpa using hidle
    | _ => rfl

/-- Where a turn is suspended, or one of its actions, it is not in `wait_condition`. -/
def awake {α : Type} : Post Runtime Obs Await Failure α where
  done := fun _ _ => True
  raised := fun _ _ => True
  blocked := fun l _ => l ≠ .waitCondition

lemma runTurn_awake {Φ : List Obs → Prop} (hΦ : PrefixClosed Φ) (remaining : ℕ)
    (sources : TurnSources) (w : World Runtime Obs) :
    wp Φ (runTurn remaining sources) awake w := by
  have hrobust : Robust Φ fun _ => True :=
    ⟨fun _ _ _ _ => trivial, fun _ _ _ => trivial, fun _ => trivial, fun _ _ _ => trivial⟩
  have hrule : TurnRule Φ fun _ _ => True := {
    robust := fun _ => hrobust
    begun := fun _ => trivial
    retried := fun _ => trivial
    unconfigured := fun _ _ => trivial
    suspended := fun _ _ _ => trivial
    closed := fun _ _ => trivial
    undecided := fun _ _ => trivial
    decided := fun _ _ => trivial
    saved := fun _ _ => trivial
    unpersisted := fun _ _ => trivial
    persisted := fun _ _ => trivial
    projecting := fun _ => trivial
    unprojected := fun _ _ => trivial
    projected := fun _ _ => trivial
    preempted := fun _ _ _ _ => trivial
    skipped := fun _ _ => trivial
    executed := fun _ _ _ => wp_mono (executePendingAction_raises hΦ) (fun _ _ _ _ _ => trivial)
      (fun _ _ _ _ _ _ _ => trivial) fun _ _ _ _ h => h
    concluded := fun _ _ _ => trivial
    planned := fun _ _ _ _ => trivial
    parked := fun _ _ => trivial
    chained := fun _ _ => trivial
    limited := fun _ _ _ => trivial
    failed := fun _ _ _ _ => trivial
    reporting := fun _ => trivial
    reported := fun _ _ => trivial
    unreported := fun _ _ => trivial
    rescued := fun _ => trivial }
  exact wp_mono (hrule.wp_runTurn hΦ remaining trivial) (fun _ _ _ _ _ => trivial)
    (fun _ _ _ _ _ => trivial) fun _ _ _ _ h => h

/-- Only the last branch is ever found in `wait_condition`. -/
lemma Branch.body_awake {Φ : List Obs → Prop} (hΦ : PrefixClosed Φ) {b : Branch}
    (hb : b ≠ .wait) (w : World Runtime Obs) : wp Φ b.body awake w := by
  have hturn := runTurn_awake hΦ chainLimit
  have hdone {w : World Runtime Obs} : wp Φ (pure () : Flow Unit) awake w :=
    wp_pure fun _ => trivial
  cases b with
  | initial index event => exact wp_bind hΦ (wp_update fun _ => wp_bind hΦ
      (wp_gets_bind.mpr (wp_update fun _ => hturn _ _)))
  | review command =>
      refine wp_update_bind.mpr (wp_gets_bind.mpr (wp_update_bind.mpr (wp_update_bind.mpr ?_)))
      split_ifs
      · refine wp_bind hΦ (wp_mono (executePendingAction_raises hΦ) (fun r w' _ _ _ => ?_)
          (fun _ _ _ _ _ => trivial) fun _ _ _ _ h => h)
        cases r with
        | none => exact hdone
        | some execution => exact hturn _ _
      · exact wp_update_bind.mpr (hturn _ _)
      · exact hturn _ _
      · exact hdone
  | actionResolution command =>
      exact wp_update_bind.mpr (wp_update_bind.mpr (wp_update_bind.mpr (hturn _ _)))
  | control command =>
      refine wp_update_bind.mpr ?_
      split_ifs
      · exact wp_update fun _ => trivial
      · exact wp_update_bind.mpr (hturn _ _)
      · exact hdone
  | manualWake index event | matching index event =>
      refine wp_update_bind.mpr (wp_bind hΦ (wp_gets_bind.mpr (wp_update fun _ => ?_)))
      exact wp_update_bind.mpr (hturn _ _)
  | timer =>
      refine wp_gets_bind.mpr (wp_update_bind.mpr (wp_gets_bind.mpr (wp_update_bind.mpr
        (wp_update_bind.mpr ?_))))
      split
      · exact hturn _ _
      · exact hdone
  | wait => exact absurd rfl hb

/-- **An iteration is found in `wait_condition` exactly if no branch is enabled at its start and
no workflow task since then has found anything to do.** -/
lemma iteration_waits_iff {script : List Input} {w w' : World Runtime Obs} :
    iteration.run script w = .blocked .waitCondition w' ↔ Waited w script w' := by
  constructor
  · intro h
    by_cases hb : w.self.mailbox.nextBranch w.self.now = .wait
    · rw [iteration_run hb] at h
      exact ((waitCondition_run_iff (Mailbox.nextBranch_eq_wait_iff.mp hb)).mp h).2
    · have hΦ : PrefixClosed fun _ : List Obs => True := fun _ _ _ _ => trivial
      have hawake : wp (fun _ => True) iteration awake w := by
        rw [iteration, wp_gets_bind]
        unfold Branch.takeMessage
        split
        · exact wp_take_bind.mpr (Branch.body_awake hΦ hb _)
        · exact wp_pure_bind.mpr (Branch.body_awake hΦ hb w)
      have hres := hawake script
      rw [h] at hres
      exact absurd rfl (hres trivial)
  · intro h
    have hb := Mailbox.nextBranch_eq_wait_iff.mpr h.began
    rw [iteration_run hb]
    exact (waitCondition_run_iff h.began).mpr ⟨rfl, h⟩

/-- **A run that is found in `wait_condition` misses nothing**: it began to wait with no branch
enabled, and no workflow task since then has found anything to do. -/
lemma run_waits {iso : IsoCodec} {input : MailboxInput} {uuids : ℕ → String} {rounds : ℕ}
    {script : List Input} {w : World Runtime Obs}
    (h : (run iso input rounds).run script (initialWorld input uuids) =
      .blocked .waitCondition w) :
    ∃ start rest, start.self.mailbox.closed = false ∧ Waited start rest w := by
  have hΦ : PrefixClosed fun _ : List Obs => True := fun _ _ _ _ => trivial
  let Q : Post Runtime Obs Await Failure Unit :=
    ⟨fun _ _ => True, fun _ _ => True, fun l w => l = .waitCondition →
      ∃ start rest, start.self.mailbox.closed = false ∧ Waited start rest w⟩
  have hstart (input : MailboxInput) (w : World Runtime Obs) :
      wp (fun _ => True) (start iso input) Q w := by
    refine wp_modify_bind.mpr (wp_bind hΦ (wp_suspend hΦ (fun _ => True) trivial
      (fun _ _ _ _ => trivial) ?_ fun _ _ hl => by cases hl))
    intro i w a obs _ _ _
    refine wp_gets_bind.mpr ?_
    split
    · exact fun _ _ => trivial
    · exact wp_raise fun _ => trivial
  have hrun : wp (fun _ => True) (run iso input rounds) Q (initialWorld input uuids) := by
    refine wp_bind hΦ (wp_mono (hstart input _) (fun _ w' _ _ _ => ?_) (fun _ _ _ _ h => h)
      fun _ _ _ _ h => h)
    refine wp_loop hΦ (I := fun _ => True) (fun w _ hclosed => ?_) (fun _ _ hl => by cases hl)
      (fun _ _ _ => trivial) rounds trivial
    refine wp_gets_bind.mpr ?_
    split
    · exact wp_gets_bind.mpr (hstart _ w)
    · intro script
      cases hres : iteration.run script w with
      | done a w' rest => exact fun _ => trivial
      | raised e w' rest => exact fun _ => trivial
      | blocked l w' =>
          rintro - rfl
          exact ⟨w, script, hclosed, iteration_waits_iff.mp hres⟩
  have hres := hrun script
  rw [h] at hres
  exact hres trivial rfl

/-! ### The claim about the loop -/

/-- **The wait predicate and the branches of the loop agree**: the predicate holds exactly if the
loop is closed, the plan was replaced or a branch other than the timer is enabled, and the timeout
elapses exactly when the timer's branch is enabled; the branch taken is the enabled one that comes
first; a round that does not wait takes a message, clears the plan of a due timer or ends the run,
and leaves less to take; and the loop is found waiting exactly while no workflow task finds
anything to do. -/
theorem wait_condition_agrees (iso : IsoCodec) :
    (∀ (m : Mailbox) (now : Time) (awaited : ℕ), m.wakeReady awaited = true ↔
      m.closed = true ∨ m.planRevision ≠ awaited ∨ ∃ b : Branch, b ≠ .timer ∧ b.Enabled m now) ∧
    (∀ (m : Mailbox) (start now : Time), start ≤ now →
      ((∃ timeout, m.timerTimeout start = some timeout ∧ start + timeout ≤ now) ↔
        Branch.timer.Enabled m now)) ∧
    (∀ (m : Mailbox) (now : Time), (m.nextBranch now = .wait ↔ ∀ b : Branch, ¬ b.Enabled m now) ∧
      ∀ b : Branch, b.Enabled m now → (m.nextBranch now).Enabled m now ∧
        (b = m.nextBranch now ∨ (m.nextBranch now).rank < b.rank)) ∧
    (∀ w : World Runtime Obs, w.self.mailbox.shouldContinueAsNew w.self.suggested = true ∨
      w.self.mailbox.nextBranch w.self.now ≠ .wait → Progresses iso w) ∧
    (∀ (script : List Input) (w w' : World Runtime Obs),
      iteration.run script w = .blocked .waitCondition w' ↔ Waited w script w') ∧
    ∀ (input : MailboxInput) (uuids : ℕ → String) (rounds : ℕ) (script : List Input)
      (w : World Runtime Obs), (run iso input rounds).run script (initialWorld input uuids) =
        .blocked .waitCondition w →
      ∃ start rest, start.self.mailbox.closed = false ∧ Waited start rest w := by
  refine ⟨fun _ _ _ => Mailbox.wakeReady_iff, fun _ _ _ => Mailbox.timerTimeout_elapsed,
    fun m now => ⟨Mailbox.nextBranch_eq_wait_iff, fun b hb => ⟨?_, Mailbox.nextBranch_spec.2 b hb⟩⟩,
    fun _ => progresses, fun _ _ _ => iteration_waits_iff, fun _ _ _ _ _ => run_waits⟩
  refine Mailbox.nextBranch_spec.1.resolve_left fun hwait => ?_
  exact Mailbox.nextBranch_eq_wait_iff.mp hwait b hb

end TiramisuAgents
