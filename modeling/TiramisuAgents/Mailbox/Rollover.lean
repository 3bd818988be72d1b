import TiramisuAgents.Mailbox.ExactlyOnce

/-!
Continue-As-New is transparent.

The reference is a workflow that stays in its run where the source rolls over: it handles in
place the signals that arrive before the successor's first task (`stay`).  The two differ in
their records, in the count of runs and by a constant in the plan revision, which the code
only compares with itself.

* `Offset`, `offset_respects`: the relation between the two, which the workflow code keeps.
* `continueAsNew_stay`: the two boundaries lead from related to related worlds.
* `rollover_transparent`: the state a successor restores, and the equality of the logs.
-/

namespace TiramisuAgents

open Coroutine

/-! ### The relation -/

/-- Two worlds with one log that the workflow code cannot tell apart, with plan revisions a
constant `d` apart. -/
structure Offset (d : ℤ) (w w' : World Runtime Obs) : Prop where
  log : w.log = w'.log
  view : w.self.view = w'.self.view
  revision : (w.self.mailbox.planRevision : ℤ) = w'.self.mailbox.planRevision + d

/-- What the view leaves as it is. -/
lemma Runtime.view_inj {rt rt' : Runtime} (h : rt.view = rt'.view) :
    rt.now = rt'.now ∧ rt.suggested = rt'.suggested ∧ rt.uuids = rt'.uuids ∧
      rt.running = rt'.running := by
  refine ⟨?_, ?_, ?_, ?_⟩
  · exact show rt.view.now = rt'.view.now by rw [h]
  · exact show rt.view.suggested = rt'.view.suggested by rw [h]
  · exact show rt.view.uuids = rt'.view.uuids by rw [h]
  · exact show rt.view.running = rt'.view.running by rw [h]

lemma view_absorb (i : Input) (rt : Runtime) :
    (environment.absorb i rt).view = (environment.absorb i rt.view).view := by
  cases i with
  | signal s => cases s <;> rfl
  | reply reply => rfl
  | task now suggested => rfl
  | commit c => rfl

lemma view_update (u : Update) (rt : Runtime) :
    ({ rt with mailbox := u.apply rt.mailbox } : Runtime).view =
      ({ rt.view with mailbox := u.apply rt.view.mailbox } : Runtime).view := by
  cases u with
  | addPendingAction actionRequestId =>
      by_cases h : actionRequestId ∈ rt.mailbox.pendingActionRequestIds <;>
        simp [Update.apply, Runtime.view, h]
  | _ => rfl

lemma view_pop (source : Source) (rt : Runtime) :
    ({ rt with mailbox := source.pop rt.mailbox } : Runtime).view =
      ({ rt.view with mailbox := source.pop rt.view.mailbox } : Runtime).view := by
  cases source <;> rfl

/-- How far a signal moves the plan revision. -/
lemma planRevision_handle (m : Mailbox) (s : Signal) :
    (m.handle s).planRevision = m.planRevision + s.plan?.toList.length := by
  cases s <;> rfl

/-- How far an update moves the plan revision does not depend on the state. -/
lemma planRevision_update (u : Update) :
    ∃ k, ∀ m : Mailbox, (u.apply m).planRevision = m.planRevision + k := by
  cases u with
  | addPendingAction actionRequestId =>
      refine ⟨0, fun m => ?_⟩
      simp only [Update.apply]
      split <;> rfl
  | clearWakePlan => exact ⟨1, fun _ => rfl⟩
  | park interaction => exact ⟨1, fun _ => rfl⟩
  | installPlan decisionId wakes => exact ⟨1, fun _ => rfl⟩
  | _ => exact ⟨0, fun _ => rfl⟩

/-- The workflow code keeps the offset. -/
lemma offset_respects (d : ℤ) : Respects (Offset d) where
  view := fun h => h.view
  revision := by
    intro w₁ w₁' w₂ w₂' h₁ h₂
    have hrev₁ := h₁.revision
    have hrev₂ := h₂.revision
    omega
  absorb := by
    intro i w w' h
    refine ⟨?_, ?_, ?_⟩
    · simp only [Handler.step, h.log]
    · show (environment.absorb i w.self).view = (environment.absorb i w'.self).view
      rw [view_absorb, h.view, ← view_absorb]
    · have hrev := h.revision
      cases i with
      | signal s =>
          simp only [Handler.step, environment, planRevision_handle]
          push_cast
          omega
      | reply reply => exact hrev
      | task now suggested => exact hrev
      | commit c => exact hrev
  update := by
    intro u w w' h
    refine ⟨h.log, ?_, ?_⟩
    · show ({ w.self with mailbox := u.apply w.self.mailbox } : Runtime).view =
        ({ w'.self with mailbox := u.apply w'.self.mailbox } : Runtime).view
      rw [view_update, h.view, ← view_update]
    · obtain ⟨k, hk⟩ := planRevision_update u
      have hrev := h.revision
      simp only [updated, hk]
      push_cast
      omega
  draw := by
    intro w w' h
    have huuids := (Runtime.view_inj h.view).2.2.1
    refine ⟨h.log, ?_, h.revision⟩
    show ({ w.self.view with uuids := fun n => w.self.uuids (n + 1) } : Runtime) =
      { w'.self.view with uuids := fun n => w'.self.uuids (n + 1) }
    rw [h.view, huuids]
  observe := by
    intro o _ w w' h
    refine ⟨?_, h.view, h.revision⟩
    simp only [observed, h.log]
  take := by
    intro w w' source h _
    refine ⟨?_, ?_, ?_⟩
    · simp only [taken, h.log]
    · show ({ w.self with mailbox := source.pop w.self.mailbox } : Runtime).view =
        ({ w'.self with mailbox := source.pop w'.self.mailbox } : Runtime).view
      rw [view_pop, h.view, ← view_pop]
    · have hrev := h.revision
      cases source <;> exact hrev

/-! ### The boundary -/

/-- Two worlds related by some offset, the first of them steady. -/
def Aligned (w w' : World Runtime Obs) : Prop :=
  (∃ d, Offset d w w') ∧ Steady w

/-- While one workflow waits for its successor's start and the other stays, the successor
has buffered what the other has received. -/
structure Awaiting (input : MailboxInput) (m' : Mailbox) (w w' : World Runtime Obs) : Prop where
  log : w.log = w'.log
  now : w.self.now = w'.self.now
  suggested : w.self.suggested = w'.self.suggested
  uuids : w.self.uuids = w'.self.uuids
  running : w'.self.running = true
  input : w.self.input = input
  buffered : ∃ signals, w.self.mailbox = ({} : Mailbox).handleAll signals ∧
    w'.self.mailbox = m'.handleAll signals

lemma awaiting_awaitTask (input : MailboxInput) (m' : Mailbox) :
    Relates (Awaiting input m') awaitTask awaitTask := by
  refine .suspend ?_ (fun _ _ _ _ => rfl) ?_
  · intro i w w' h
    obtain ⟨signals, hm, hm'⟩ := h.buffered
    cases i with
    | signal s =>
        refine ⟨by simp only [Handler.step, h.log], h.now, h.suggested, h.uuids, h.running,
          h.input, signals ++ [s], ?_, ?_⟩
        · rw [Mailbox.handleAll_concat, ← hm]
          rfl
        · rw [Mailbox.handleAll_concat, ← hm']
          rfl
    | task now suggested =>
        exact ⟨by simp only [Handler.step, h.log], rfl, rfl, h.uuids, h.running, h.input,
          signals, hm, hm'⟩
    | reply reply =>
        exact ⟨by simp only [Handler.step, h.log], h.now, h.suggested, h.uuids, h.running,
          h.input, signals, hm, hm'⟩
    | commit c =>
        exact ⟨by simp only [Handler.step, h.log], h.now, h.suggested, h.uuids, h.running,
          h.input, signals, hm, hm'⟩
  · intro i w w' a obs h hwake
    cases i with
    | task now suggested =>
        obtain ⟨-, rfl⟩ := Prod.mk.inj (Option.some.inj hwake)
        simpa using h
    | signal s => cases hwake
    | reply reply => cases hwake
    | commit c => cases hwake

/-- Restoring the snapshot and staying lead to related worlds. -/
lemma aligned_of_awaiting {w w' v v' : World Runtime Obs} {d : ℤ} (h : Offset d w w')
    (hc : w.self.mailbox.Coherent) (hclosed : w.self.mailbox.closed = false)
    (hturn : w.self.mailbox.turnInProgress = false) {signals : List Signal}
    (hv : v.self.mailbox = w.self.mailbox.successor.handleAll signals)
    (hv' : v'.self.mailbox = { w'.self.mailbox.handleAll signals with turnsSinceContinue := 0 })
    (hlog : v.log = v'.log) (hnow : v.self.now = v'.self.now)
    (hsuggested : v.self.suggested = v'.self.suggested) (huuids : v.self.uuids = v'.self.uuids)
    (hrunning : v.self.running = true) (hrunning' : v'.self.running = true) : Aligned v v' := by
  -- the mailbox that stays differs from the other in what the view leaves out
  have hm' : w'.self.mailbox = { w.self.mailbox with
      wakeRecords := w'.self.mailbox.wakeRecords
      turnRecords := w'.self.mailbox.turnRecords
      executionRecords := w'.self.mailbox.executionRecords
      planRevision := w'.self.mailbox.planRevision
      continuedRunCount := w'.self.mailbox.continuedRunCount } := by
    have hview := congrArg Runtime.mailbox h.view
    simp only [Runtime.view, Mailbox.mk.injEq] at hview
    obtain ⟨⟨m, _, _, _, _, _⟩, _⟩ := w
    obtain ⟨⟨m', _, _, _, _, _⟩, _⟩ := w'
    cases m
    cases m'
    simp_all
  refine ⟨⟨(v.self.mailbox.planRevision : ℤ) - v'.self.mailbox.planRevision, hlog, ?_, by ring⟩,
    ?_⟩
  · simp only [Runtime.view, hnow, hsuggested, huuids, hrunning, hrunning', hv, hv']
    rw [Mailbox.handleAll_eq, Mailbox.handleAll_eq w'.self.mailbox, hm']
    simp [Mailbox.successor, hclosed, hturn]
  · refine ⟨hrunning, ?_⟩
    rw [hv]
    have hsucc : w.self.mailbox.successor.Coherent := ⟨hc.timer, hc.limit⟩
    clear hv hv' hrunning hrunning'
    induction signals using List.reverseRecOn with
    | nil => exact hsucc
    | append_singleton signals s ih =>
        rw [Mailbox.handleAll_concat]
        exact ih.handle s

/-! ### Runs -/

lemma restore_run {iso : IsoCodec} {w : World Runtime Obs} {m : Mailbox}
    (h : w.self.mailbox.beginRun iso w.self.input = .ok m) (is : List Input) :
    (restore iso).run is w =
      .done () ⟨{ w.self with mailbox := m, running := true }, w.log⟩ is := by
  rw [restore, Co.run_bind]
  simp only [Co.gets, h]
  rfl

/-- The run of a workflow that never rolls over. -/
def runInPlace (iso : IsoCodec) (input : MailboxInput) (rounds : ℕ) : Flow Unit := do
  start iso input
  loop stay rounds

/-- **The two boundaries** lead from related to related worlds, and to equal logs if the
script ends before the next task. -/
lemma continueAsNew_stay (iso : IsoCodec) {k k' : Flow Unit}
    (hk : ∀ is v v', Aligned v v' → (k.run is v).world.log = (k'.run is v').world.log)
    {d : ℤ} {w w' : World Runtime Obs} (h : Offset d w w') (hw : Steady w)
    (hclosed : w.self.mailbox.closed = false) (hturn : w.self.mailbox.turnInProgress = false)
    (is : List Input) :
    ((continueAsNew iso >>= fun _ => k).run is w).world.log =
      ((stay >>= fun _ => k').run is w').world.log := by
  obtain ⟨hnow, hsuggested, huuids, hrunning⟩ := Runtime.view_inj h.view
  let w₀ : World Runtime Obs :=
    ⟨{ w.self with
        mailbox := {}, input := w.self.mailbox.continuationInput iso, running := false }, w.log⟩
  have hawait : Awaiting (w.self.mailbox.continuationInput iso) w'.self.mailbox w₀ w' :=
    ⟨h.log, hnow, hsuggested, huuids, hrunning ▸ hw.running, rfl, [], rfl, rfl⟩
  have hrel := awaiting_awaitTask _ _ is _ _ hawait
  have hleft : (continueAsNew iso).run is w = (awaitTask >>= fun _ => restore iso).run is w₀ := rfl
  rw [Co.run_bind, Co.run_bind, hleft, stay, Co.run_bind, Co.run_bind]
  generalize awaitTask.run is w₀ = r, awaitTask.run is w' = r' at hrel
  cases hrel with
  | blocked l hb => exact hb.log
  | raised e rest hb => exact hb.log
  | @done v v' _ rest hb =>
      obtain ⟨signals, hm, hm'⟩ := hb.buffered
      have hbegin : v.self.mailbox.beginRun iso v.self.input =
          .ok (w.self.mailbox.successor.handleAll signals) := by
        rw [hm, hb.input]
        exact Mailbox.resumes_continuationInput iso hw.coherent signals
      simp only [restore_run hbegin]
      refine hk rest _ _ (aligned_of_awaiting h hw.coherent hclosed hturn rfl ?_ hb.log hb.now
        hb.suggested hb.uuids rfl hb.running)
      exact congrArg (fun m : Mailbox => { m with turnsSinceContinue := 0 }) hm'

/-- One round of the loop. -/
lemma loop_succ_run (boundary : Flow Unit) (rounds : ℕ) (is : List Input)
    (w : World Runtime Obs) :
    (loop boundary (rounds + 1)).run is w =
      if w.self.mailbox.closed then .done () w is
      else ((if w.self.mailbox.shouldContinueAsNew w.self.suggested then boundary else iteration)
        >>= fun _ => loop boundary rounds).run is w := by
  have hround : (round boundary).run is w =
      (if w.self.mailbox.shouldContinueAsNew w.self.suggested then boundary else iteration).run
        is w := rfl
  cases hc : w.self.mailbox.closed with
  | true => simp [loop, isClosed, Co.run_bind, Co.gets, hc, pure]
  | false => simp [loop, isClosed, Co.run_bind, Co.gets, hc, hround]

/-- The logs of the two loops are equal, from related worlds. -/
lemma loop_log (iso : IsoCodec) (rounds : ℕ) (is : List Input) {w w' : World Runtime Obs}
    (h : Aligned w w') :
    ((loop (continueAsNew iso) rounds).run is w).world.log =
      ((loop stay rounds).run is w').world.log := by
  induction rounds generalizing is w w' with
  | zero => exact h.1.choose_spec.log
  | succ rounds ih =>
      obtain ⟨⟨d, hoff⟩, hw⟩ := h
      have hR := (offset_respects d).and steady_invariant
      have hclosed : w.self.mailbox.closed = w'.self.mailbox.closed :=
        hR.inside.read (fun rt => rt.mailbox.closed) (fun _ => rfl) ⟨hoff, hw⟩
      have hshould : w.self.mailbox.shouldContinueAsNew w.self.suggested =
          w'.self.mailbox.shouldContinueAsNew w'.self.suggested :=
        hR.inside.read (fun rt => rt.mailbox.shouldContinueAsNew rt.suggested) (fun _ => rfl)
          ⟨hoff, hw⟩
      rw [loop_succ_run, loop_succ_run, ← hclosed, ← hshould]
      cases hc : w.self.mailbox.closed with
      | true => exact hoff.log
      | false =>
          cases hs : w.self.mailbox.shouldContinueAsNew w.self.suggested with
          | true =>
              have hturn : w.self.mailbox.turnInProgress = false := by
                by_contra hturn
                simp [Mailbox.shouldContinueAsNew, hturn] at hs
              exact continueAsNew_stay iso (fun is v v' hv => ih is hv) hoff hw hc hturn is
          | false =>
              simp only [Bool.false_eq_true, if_false, Co.run_bind]
              have hrel := hR.iteration is w w' ⟨hoff, hw⟩
              generalize iteration.run is w = r, iteration.run is w' = r' at hrel
              cases hrel with
              | done a rest hv => exact ih rest ⟨⟨d, hv.1⟩, hv.2⟩
              | raised e rest hv => exact hv.1.log
              | blocked l hv => exact hv.1.log

/-- **Rollovers change nothing observable**: the workflow that continues as new and the one
that stays have the same log, for every script. -/
lemma run_log (iso : IsoCodec) {input : MailboxInput} (hinput : input.continuation = {})
    (uuids : ℕ → String) (rounds : ℕ) (script : List Input) :
    ((run iso input rounds).run script (initialWorld input uuids)).world.log =
      ((runInPlace iso input rounds).run script (initialWorld input uuids)).world.log := by
  have hstart := wp_start (w := initialWorld input uuids) (Φ := fun _ => True)
    (fun _ _ _ _ => trivial) (Mailbox.resumes_initial iso hinput)
    (fun i w h _ => steady_invariant.absorb i h) ⟨rfl, rfl, le_max_left _ _⟩ script
  rw [run, runInPlace, Co.run_bind, Co.run_bind]
  revert hstart
  cases (start iso input).run script (initialWorld input uuids) with
  | done a w rest =>
      exact fun hstart => loop_log iso rounds rest ⟨⟨0, rfl, rfl, by simp⟩, hstart trivial⟩
  | raised e w rest => exact fun _ => rfl
  | blocked l w => exact fun _ => rfl

/-- The state that a rollover has to carry over. -/
structure Mailbox.SameActiveState (m m' : Mailbox) : Prop where
  started : m.started = m'.started
  events : m.events = m'.events
  reviews : m.reviews = m'.reviews
  actionResolutions : m.actionResolutions = m'.actionResolutions
  controls : m.controls = m'.controls
  pendingActionRequestIds : m.pendingActionRequestIds = m'.pendingActionRequestIds
  wakePlan : m.wakePlan = m'.wakePlan
  timerDueAt : m.timerDueAt = m'.timerDueAt
  completedTurnCount : m.completedTurnCount = m'.completedTurnCount

/-- What restoring the snapshot of `s` after some signals must give: the active state of `s`
after the same signals, the recent records, and the counters of a new run. -/
def Mailbox.CarriedOver (iso : IsoCodec) (s : Mailbox) (signals : List Signal) : Prop :=
  ∃ m, (({} : Mailbox).handleAll signals).beginRun iso (s.continuationInput iso) = .ok m ∧
    m.SameActiveState (s.handleAll signals) ∧
    m.wakeRecords = s.wakeRecords.rtake recentRecordLimit ∧
    m.turnRecords = s.turnRecords.rtake recentRecordLimit ∧
    m.executionRecords = s.executionRecords.rtake recentRecordLimit ∧
    m.continuedRunCount = s.continuedRunCount + 1 ∧ m.turnsSinceContinue = 0

lemma Mailbox.Coherent.carriedOver (iso : IsoCodec) {s : Mailbox} (h : s.Coherent)
    (signals : List Signal) : s.CarriedOver iso signals := by
  refine ⟨_, resumes_continuationInput iso h signals, ?_⟩
  rw [handleAll_eq, handleAll_eq s]
  exact ⟨⟨rfl, rfl, rfl, rfl, rfl, rfl, rfl, rfl, rfl⟩, rfl, rfl, rfl, rfl, rfl⟩

/-- **Rollover transparency**: in every state a run reaches at the head of its loop, and for
all signals that arrive before the next run starts, restoring the snapshot gives the state
that receives the signals in place; and a run that rolls over calls the same Activities,
consumes the same sources and observes the same answers as one that stays. -/
theorem rollover_transparent (iso : IsoCodec) (tenantId processInstanceId : String)
    (processDefinitionId processDefinitionVersion : Option String)
    (continueAsNewAfterTurns : ℤ) (uuids : ℕ → String) (rounds : ℕ) (script : List Input) :
    let input := MailboxInput.first tenantId processInstanceId processDefinitionId
      processDefinitionVersion continueAsNewAfterTurns
    (∀ w, (run iso input rounds).run script (initialWorld input uuids) = .blocked .loopHead w →
      ∀ signals, w.self.mailbox.CarriedOver iso signals) ∧
    ((run iso input rounds).run script (initialWorld input uuids)).world.log =
      ((runInPlace iso input rounds).run script (initialWorld input uuids)).world.log := by
  intro input
  refine ⟨fun w hw signals => ?_, run_log iso rfl uuids rounds script⟩
  have hrun := wp_run_sound iso (rfl : input.continuation = {}) uuids rounds script
  rw [hw] at hrun
  rcases hrun trivial with h | ⟨h, -⟩
  · exact h.steady.coherent.carriedOver iso signals
  · cases h

/-- A process that has buffered its first event is at the head of its loop, and its snapshot
carries the event over. -/
theorem rollover_transparent_buffered :
    let input := MailboxInput.first "tenant" "process" (some "definition") (some "1") 1
    let script : List Input := [.signal (.receiveEvent ⟨"e1", "order.created"⟩), .task 0 false]
    ∃ w, (run .tally input 0).run script (initialWorld input fun _ => "id") =
      .blocked .loopHead w ∧ w.self.mailbox.events.buffer = [⟨"e1", "order.created"⟩] ∧
      w.self.mailbox.CarriedOver .tally [.receiveEvent ⟨"e1", "order.created"⟩] := by
  intro input script
  refine ⟨_, rfl, rfl, ?_⟩
  exact (rollover_transparent .tally "tenant" "process" (some "definition") (some "1") 1
    (fun _ => "id") 0 script).1 _ rfl _

end TiramisuAgents
