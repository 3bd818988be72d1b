import TiramisuAgents.Core.Policy
import TiramisuAgents.Mailbox.ExactlyOnce
import TiramisuAgents.Mailbox.LoopRule

/-!
Progress: a started mailbox that waits has a plan that can wake it.

The plan is cleared before every turn and every approved action, and the exits of a turn
install the next one.  Two exits install none that names a wake: an approved action whose
`execute_action` fails, and a turn without any result whose projection names no wake because
an action of the process is still open (or none was allowed).

* `Progressive`: the steps of a run that avoid both.
* `no_silent_stall`: in a run of such steps the plan names a wake whenever a started mailbox
  waits.
* `stall_after_failed_execution`: a run that stalls.
-/

namespace TiramisuAgents

open Coroutine

/-! ### Turns in the log -/

/-- What a log says about the turn of the message that was taken last: its projection, once it
has one, and whether an action has answered since. -/
structure TurnLog where
  projection : Option (AgentDecision × Option ProcessOutcome) := none
  resulted : Bool := false

/-- The effect of an observation on the view of the latest turn. -/
def TurnLog.observe (t : TurnLog) : Obs → TurnLog
  | .popped _ => {}
  | .completed (.persistProcessState _ decision) (.processState (.ok outcome)) =>
      { projection := some (decision, outcome), resulted := false }
  | .completed (.executeAction _) (.executed (.ok _)) => { t with resulted := true }
  | _ => t

/-- The latest turn of a log. -/
def turnLog (log : List Obs) : TurnLog := log.foldl TurnLog.observe {}

@[simp] lemma turnLog_concat (log : List Obs) (o : Obs) :
    turnLog (log ++ [o]) = (turnLog log).observe o := by
  rw [turnLog, List.foldl_append]
  rfl

/-! ### Progressive steps -/

section

variable (V : Type) [BEq V]

/-- The outcome `persist_process_state` answers with: the projection of the decision next to
the open actions of its process. -/
def ProjectionOf (decision : AgentDecision) (openActions : OpenActions)
    (outcome : Option ProcessOutcome) : Prop :=
  ∃ (terminalStates : Option (List ProcessStatus)) (facts requirements : List (String × V))
    (transition : ProjectedProcessTransition),
    projectProcessTransition decision openActions terminalStates facts requirements
        = .ok transition ∧
      outcome = some ⟨transition.status.terminal, transition.wakeConditions⟩

/-- A decision that `validate_decision` accepts. -/
def Accepted (decision : AgentDecision) : Prop :=
  ∃ (identity : String → Parameters → String) (policy : DecisionPolicy V) (workflowNow : Time)
    (expected : ExpectedSources) (conflicted : List String) (facts : Option (List (String × V)))
    (enforce : Bool),
    validateDecision identity decision policy workflowNow expected conflicted facts enforce
      = .ok decision

/-- The answers of `persist_process_state` in a log, with the decisions they are for. -/
def projections (log : List Obs) : List (AgentDecision × Option ProcessOutcome) :=
  log.filterMap fun
    | .completed (.persistProcessState _ decision) (.processState (.ok outcome)) =>
        some (decision, outcome)
    | _ => none

/-- `persist_process_state` answers with the projection of an accepted decision. -/
def Projected (log : List Obs) : Prop :=
  ∀ p ∈ projections log, Accepted V p.1 ∧ ∃ openActions, ProjectionOf V p.1 openActions p.2

/-- The types of review commands that `run` handles. -/
def reviewCommandTypes : List String := ["approve", "reject", "request_revision", "comment"]

/-- The types of controls that `run` handles. -/
def controlCommandTypes : List String := ["takeover", "retry"]

/-- A plan that can be installed by a signal: it names a wake, and its timer has an
identity. -/
def WakePlan.Complete (p : WakePlan) : Prop :=
  p.NamesWake ∧ (p.timerAt ≠ none → p.timerId ≠ none)

/-- A signal that a mailbox can handle without losing its plan. -/
def Signal.Handled : Signal → Prop
  | .replaceWakePlan plan => plan.Complete
  | .receiveReview review => review.commandType ∈ reviewCommandTypes
  | .receiveControl control => control.commandType ∈ controlCommandTypes
  | _ => True

/-- The latest turn leaves a way forward: an action of it has answered, or its decision has a
progress path next to the actions that were open when it was projected. -/
def TurnLog.Forward (t : TurnLog) : Prop :=
  t.resulted = true ∨ ∃ decision openActions outcome,
    t.projection = some (decision, outcome) ∧ ProjectionOf V decision openActions outcome ∧
      HasProgressPath decision openActions

/-- The steps of a run after which the mailbox is not stalled: signals that are handled,
approved actions that answer, and turns that leave a way forward. -/
def Progressive (before : List Obs) : Obs → Prop
  | .received signal => signal.Handled
  | .completed (.executeAction _) (.executed (.error error)) =>
      (turnLog before).projection ≠ none ∨ error.isType "ActionExecutionSuspended" = true ∨
        error.isType deploymentCompatibilityError = true
  | .turnRecorded record => record.error = none → (turnLog before).Forward V
  | _ => True

end

/-! ### Plans -/

/-- Wake conditions, if there are any, give a plan that names a wake. -/
lemma namesWake_wakePlanOf {decisionId : String} {wakes : List WakeCondition} (h : wakes ≠ []) :
    (wakePlanOf decisionId wakes).NamesWake := by
  obtain ⟨wake, rest, rfl⟩ := List.exists_cons_of_ne_nil h
  cases wake with
  | event eventType => exact .inl (by simp [wakePlanOf])
  | human interaction => exact .inr (.inr (by simp [wakePlanOf]))
  | timer at_ =>
      refine .inr (.inl ?_)
      simp only [wakePlanOf, selectTimer]
      split
      · split <;> simp
      · simp

/-- The timer of a plan that the mailbox installs has an identity. -/
def Mailbox.TimerNamed (m : Mailbox) : Prop :=
  ∀ plan, m.wakePlan = some plan → plan.timerAt ≠ none → plan.timerId ≠ none

lemma timerId_wakePlanOf {decisionId : String} {wakes : List WakeCondition}
    (h : (wakePlanOf decisionId wakes).timerAt ≠ none) :
    (wakePlanOf decisionId wakes).timerId ≠ none := by
  simpa [wakePlanOf] using h

/-- The plan of a mailbox names a wake. -/
def Mailbox.Waking (m : Mailbox) : Prop := ∃ plan, m.wakePlan = some plan ∧ plan.NamesWake

/-- A mailbox that may wait: its plan names a wake, unless a control is about to end or replace
it. -/
def Mailbox.Settled (m : Mailbox) : Prop := m.lifecyclePreemptionPending = true ∨ m.Waking

namespace Mailbox

variable {m : Mailbox}

lemma Waking.handle {s : Signal} (h : m.Waking) (hs : s.Handled) : (m.handle s).Waking := by
  cases s with
  | replaceWakePlan plan => exact ⟨plan, rfl, hs.1⟩
  | _ => exact h

lemma Settled.handle {s : Signal} (h : m.Settled) (hs : s.Handled) : (m.handle s).Settled := by
  rcases h with h | h
  · left
    cases s with
    | receiveControl control =>
        simp only [lifecyclePreemptionPending, Bool.or_eq_true, List.any_eq_true] at h ⊢
        exact h.imp_right fun ⟨c, hc, htype⟩ => ⟨c, Inbox.mem_receive_of_mem hc, htype⟩
    | close => exact Bool.true_or _
    | _ => exact h
  · exact .inr (h.handle hs)

lemma Settled.update_of_bookkeeping (h : m.Settled) {u : Update} (hu : u.Bookkeeping) :
    (u.apply m).Settled := by
  cases hu with
  | addPendingAction actionRequestId =>
      rw [Update.apply]
      split <;> exact h
  | _ => exact h

end Mailbox

/-! ### The assertions of a run -/

section

variable {V : Type} [BEq V]

/-- The runs of progressive steps. -/
abbrev Progressing (V : Type) [BEq V] : List Obs → Prop := Along (Progressive V)

/-- What holds of every mailbox of a progressive run: it has a definition, its messages are
ones that `run` handles, and its timer has an identity. -/
structure Mailbox.Regular (m : Mailbox) : Prop where
  configured : m.Configured
  reviews : ∀ review ∈ m.reviews.buffer, review.commandType ∈ reviewCommandTypes
  controls : ∀ control ∈ m.controls.buffer, control.commandType ∈ controlCommandTypes
  timer : m.TimerNamed

/-- The invariant of the steps of a progressive run. -/
structure Going (V : Type) [BEq V] (w : World Runtime Obs) : Prop where
  steady : Steady w
  regular : Progressing V w.log → w.self.mailbox.Regular

/-- What holds at the points of a turn. -/
def progressAt : Point → World Runtime Obs → Prop
  | .executing _ decision _ outcome _ results, w => w.self.mailbox.Configured ∧
      (turnLog w.log).projection = some (decision, outcome) ∧
      ((turnLog w.log).resulted = true → results ≠ [])
  | .settled, w => w.self.mailbox.Configured ∧ w.self.mailbox.Settled
  | _, w => w.self.mailbox.Configured

/-- What holds of a message that was just taken. -/
def takenAt (source : Source) (w : World Runtime Obs) : Prop :=
  w.self.mailbox.Configured ∧ (turnLog w.log).projection = none ∧
    match source with
    | .review review => review.commandType ∈ reviewCommandTypes
    | .control control => control.commandType ∈ controlCommandTypes
    | _ => True

/-- What holds at the head of the loop. -/
def progressHead (V : Type) [BEq V] (w : World Runtime Obs) : Prop :=
  Going V w ∧ (w.self.mailbox.started = true → w.self.mailbox.Settled)

/-- What holds while the mailbox waits. -/
def progressWait (V : Type) [BEq V] (w : World Runtime Obs) : Prop :=
  Going V w ∧ (w.self.mailbox.closed = true ∨ w.self.mailbox.started = false ∨
    w.self.mailbox.Waking)

/-- The signal of a progressive input is handled. -/
lemma handled_of_progressing {s : Signal} {w : World Runtime Obs}
    (h : Progressing V (environment.step (.signal s) w).log) : s.Handled :=
  h.last

/-- An input changes the view of the latest turn in nothing. -/
lemma turnLog_step (i : Input) (w : World Runtime Obs) :
    turnLog (environment.step i w).log = turnLog w.log := by
  cases i with
  | signal s => exact turnLog_concat _ _
  | commit c => exact turnLog_concat _ _
  | reply reply => simp [Handler.step, environment]
  | task now suggested => simp [Handler.step, environment]

/-- An assertion about the definition and the latest turn is robust. -/
lemma robust_turnLog (p : TurnLog → Prop) :
    Robust (Progressing V) fun w => w.self.mailbox.Configured ∧ p (turnLog w.log) where
  stable := by
    rintro i w ⟨hc, ht⟩ -
    exact ⟨configured_invariant.absorb i hc, by rwa [turnLog_step]⟩
  update := fun _ _ ⟨hc, ht⟩ => ⟨hc.update _, ht⟩
  draw := id
  record := fun r w ⟨hc, ht⟩ => ⟨hc, by rwa [observed, turnLog_concat]⟩

lemma robust_configured : Robust (Progressing V) fun w => w.self.mailbox.Configured where
  stable := fun i _ hc _ => configured_invariant.absorb i hc
  update := fun _ _ hc => hc.update _
  draw := id
  record := fun _ _ hc => hc

lemma robust_settled :
    Robust (Progressing V) fun w => w.self.mailbox.Configured ∧ w.self.mailbox.Settled where
  stable := by
    rintro i w ⟨hc, hs⟩ hφ
    refine ⟨configured_invariant.absorb i hc, ?_⟩
    cases i with
    | signal s => exact hs.handle (handled_of_progressing hφ)
    | _ => exact hs
  update := fun hu _ ⟨hc, hs⟩ => ⟨hc.update _, hs.update_of_bookkeeping hu⟩
  draw := id
  record := fun _ _ h => h

lemma robust_progressAt (p : Point) : Robust (Progressing V) (progressAt p) := by
  cases p with
  | executing command decision items outcome rest results =>
      exact robust_turnLog fun t =>
        t.projection = some (decision, outcome) ∧ (t.resulted = true → results ≠ [])
  | settled => exact robust_settled
  | _ => exact robust_configured

/-! ### The invariant -/

lemma Mailbox.Regular.handle {m : Mailbox} {s : Signal} (h : m.Regular) (hs : s.Handled) :
    (m.handle s).Regular := by
  cases s with
  | receiveReview review =>
      refine ⟨h.configured, fun r hr => ?_, h.controls, h.timer⟩
      rcases Inbox.mem_receive hr with hr | rfl
      · exact h.reviews r hr
      · exact hs
  | receiveControl control =>
      refine ⟨h.configured, h.reviews, fun c hc => ?_, h.timer⟩
      rcases Inbox.mem_receive hc with hc | rfl
      · exact h.controls c hc
      · exact hs
  | replaceWakePlan plan =>
      refine ⟨h.configured, h.reviews, h.controls, fun p hp => ?_⟩
      obtain rfl := Option.some.inj hp
      exact hs.2
  | receiveEvent event => exact ⟨h.configured, h.reviews, h.controls, h.timer⟩
  | receiveActionResolution resolution => exact ⟨h.configured, h.reviews, h.controls, h.timer⟩
  | close => exact ⟨h.configured, h.reviews, h.controls, h.timer⟩

lemma Mailbox.Regular.update {m : Mailbox} (h : m.Regular) (u : Update) :
    (u.apply m).Regular := by
  refine ⟨h.configured.update u, ?_, ?_, ?_⟩
  · simpa using h.reviews
  · simpa using h.controls
  · cases u with
    | clearWakePlan => exact fun p hp => by cases hp
    | park interaction =>
        intro p hp
        obtain rfl := Option.some.inj hp
        exact fun ht => absurd rfl ht
    | installPlan decisionId wakes =>
        intro p hp
        obtain rfl := Option.some.inj hp
        exact timerId_wakePlanOf
    | addPendingAction actionRequestId =>
        rw [Update.apply]
        split <;> exact h.timer
    | _ => exact h.timer

lemma Mailbox.Regular.pop {m : Mailbox} (h : m.Regular) (source : Source) :
    (source.pop m).Regular := by
  cases source with
  | event index event => exact ⟨h.configured, h.reviews, h.controls, h.timer⟩
  | review review =>
      exact ⟨h.configured, fun r hr => h.reviews r (Inbox.mem_pop hr), h.controls, h.timer⟩
  | actionResolution resolution => exact ⟨h.configured, h.reviews, h.controls, h.timer⟩
  | control control =>
      exact ⟨h.configured, h.reviews, fun c hc => h.controls c (Inbox.mem_pop hc), h.timer⟩

/-- A log that goes on is progressive only if it was before. -/
lemma Progressing.of_append {log : List Obs} {os : List Obs}
    (h : Progressing V (log ++ os)) : Progressing V log :=
  Along.prefixClosed _ (List.prefix_append _ _) h

lemma going_invariant : Invariant (Going V) where
  absorb := by
    intro i w h
    refine ⟨steady_invariant.absorb i h.steady, fun hφ => ?_⟩
    have hregular := h.regular (Progressing.of_append hφ)
    cases i with
    | signal s => exact hregular.handle (handled_of_progressing hφ)
    | _ => exact hregular
  update := fun u _ h =>
    ⟨steady_invariant.update u h.steady, fun hφ => (h.regular hφ).update u⟩
  draw := fun h => ⟨steady_invariant.draw h.steady, h.regular⟩
  observe := fun ho _ h =>
    ⟨steady_invariant.observe ho h.steady, fun hφ => h.regular (Progressing.of_append hφ)⟩
  take := fun h hs =>
    ⟨steady_invariant.take h.steady hs, fun hφ => (h.regular (Progressing.of_append hφ)).pop _⟩

lemma progressHead_stable : Stable (Progressing V) (progressHead V) := by
  rintro i w ⟨hgoing, hsettled⟩ hφ
  refine ⟨going_invariant.absorb i hgoing, ?_⟩
  cases i with
  | signal s =>
      intro hstarted
      have hstarted' : w.self.mailbox.started = true := by cases s <;> exact hstarted
      exact (hsettled hstarted').handle (handled_of_progressing hφ)
  | _ => exact hsettled

lemma progressWait_stable : Stable (Progressing V) (progressWait V) := by
  rintro i w ⟨hgoing, hwait⟩ hφ
  refine ⟨going_invariant.absorb i hgoing, ?_⟩
  cases i with
  | signal s =>
      rcases hwait with hc | hs | hw
      · left
        cases s <;> first | exact hc | rfl
      · right; left
        cases s <;> exact hs
      · exact .inr (.inr (hw.handle (handled_of_progressing hφ)))
  | _ => exact hwait

/-! ### The rules -/

lemma progressing_prefixClosed : PrefixClosed (Progressing V) := Along.prefixClosed _

/-- Executing an action of a turn keeps the projection of the turn as the latest. -/
lemma turn_actionRule {c : TurnCommand} {d : AgentDecision} {items rest : List PersistedItem}
    {o : Option ProcessOutcome} {item : PersistedItem} {results : List ExecutionResult}
    {command : ActionCommand} :
    ActionRule (Progressing V) command (progressAt (.executing c d items o (item :: rest) results))
      (progressAt (.executing c d items o (item :: rest) results))
      (fun _ w => w.self.mailbox.Configured ∧ (turnLog w.log).projection = some (d, o))
      ⟨fun r => progressAt (.executing c d items o rest (results ++ r.toList)),
        fun e w => ∀ error, e = .activity error →
          progressAt (.failing c ⟨some d, some items, results⟩) w,
        fun l _ => l ≠ .waitCondition⟩ where
  trying_bookkept := (robust_progressAt (V := V) _).bookkept
  acting_stable := (robust_progressAt _).stable
  retrying := id
  answered_bookkept := fun _ =>
    (robust_turnLog (V := V) fun t => t.projection = some (d, o)).bookkept
  answered_stable := fun _ => (robust_turnLog fun t => t.projection = some (d, o)).stable
  started := fun h => by
    simp only [progressAt, observed, turnLog_concat]
    exact h
  restarted := fun h _ => ⟨h.1, by rw [observed, turnLog_concat]; exact h.2⟩
  suspended := fun h _ _ => by
    simp only [progressAt, observed, turnLog_concat]
    exact h
  closed := fun h _ => by simpa [progressAt] using h
  executed := fun h _ => ⟨h.1, by rw [observed, turnLog_concat]; exact h.2.1⟩
  failed := fun h _ _ _ => by
    simp only [progressAt, observed, turnLog_concat, Option.toList_none, List.append_nil]
    exact h
  incompatible := fun h _ _ _ _ _ => h.1
  known := fun h _ => ⟨h.1, h.2, fun _ => by simp⟩
  reconciled := fun h _ _ => by
    simp only [progressAt, observed, turnLog_concat]
    exact ⟨h.1, h.2, fun _ => by simp⟩
  unreconciled := fun h _ _ _ => by
    simp only [progressAt, observed, turnLog_concat]
    exact ⟨h.1, h.2, fun _ => by simp⟩
  irreconcilable := fun h _ _ _ _ _ => h.1
  done_update := fun hu _ r h =>
    (robust_progressAt (V := V) (.executing c d items o rest (results ++ r.toList))).update hu h
  raised_update := fun _ _ _ h error he => (h error he).update _
  blocked := fun h _ => h

/-- Executing an approved action outside a turn answers. -/
lemma approved_actionRule {command : ActionCommand} :
    ActionRule (Progressing V) command
      (fun w => w.self.mailbox.Configured ∧ (turnLog w.log).projection = none)
      (fun w => w.self.mailbox.Configured ∧ (turnLog w.log).projection = none)
      (fun _ w => w.self.mailbox.Configured)
      ⟨fun r w => w.self.mailbox.Configured ∧ (r = none → w.self.mailbox.closed = true),
        fun _ _ => True, fun l _ => l ≠ .waitCondition⟩ where
  trying_bookkept := (robust_turnLog (V := V) fun t => t.projection = none).bookkept
  acting_stable := (robust_turnLog fun t => t.projection = none).stable
  retrying := id
  answered_bookkept := fun _ => (robust_configured (V := V)).bookkept
  answered_stable := fun _ => robust_configured.stable
  started := fun h => ⟨h.1, by rw [observed, turnLog_concat]; exact h.2⟩
  restarted := fun h _ => h
  suspended := fun h _ _ => ⟨h.1, by rw [observed, turnLog_concat]; exact h.2⟩
  closed := fun h hc => ⟨h.1, fun _ => hc⟩
  executed := fun h _ => h.1
  failed := by
    intro w error h hs hc hφ
    rcases hφ.last with hproj | hs' | hc'
    · exact absurd h.2 hproj
    · rw [hs] at hs'
      cases hs'
    · rw [hc] at hc'
      cases hc'
  incompatible := fun _ _ _ _ => trivial
  known := fun h _ => ⟨h, nofun⟩
  reconciled := fun h _ _ => ⟨h, nofun⟩
  unreconciled := fun h _ _ _ => ⟨h, nofun⟩
  irreconcilable := fun _ _ _ _ => trivial
  done_update := by
    rintro u hu w r ⟨hconf, hclosed⟩
    refine ⟨hconf.update u, fun hr => ?_⟩
    cases hu with
    | addPendingAction actionRequestId =>
        simp only [updated, Update.apply]
        split <;> exact hclosed hr
    | _ => exact hclosed hr
  raised_update := fun _ _ _ h => h
  blocked := fun h _ => h

/-- A turn of a configured mailbox leaves it settled. -/
lemma progress_turnRule : TurnRule (Progressing V) progressAt where
  robust := robust_progressAt
  begun := fun h => h
  retried := fun h => h
  unconfigured := by
    intro s w h hnone
    exact absurd hnone (Mailbox.Configured.turnCommand_ne_none h _ _)
  suspended := fun h _ _ => h
  closed := fun h hc => ⟨h, .inl (by rw [Mailbox.lifecyclePreemptionPending, hc, Bool.true_or])⟩
  undecided := fun h _ => h
  decided := fun h _ => h
  saved := fun h _ => h
  unpersisted := fun h _ => h
  persisted := fun h _ => h
  projecting := fun h => h
  unprojected := fun h _ => h
  projected := fun h _ => by
    refine ⟨h, ?_, fun hr => ?_⟩
    · rw [observed, turnLog_concat]
      rfl
    · rw [observed, turnLog_concat] at hr
      cases hr
  preempted := by
    intro p record w hp h hpre _
    have hconf : w.self.mailbox.Configured := by
      cases p with
      | executing => exact h.1
      | settled => exact h.1
      | _ => exact h
    exact ⟨hconf.update _, .inl hpre⟩
  skipped := fun h _ => h
  executed := fun h _ _ => turn_actionRule.wp_executePendingAction progressing_prefixClosed rfl h
  concluded := fun h _ _ => ⟨h.1, .inl (Bool.true_or _)⟩
  planned := by
    rintro c d items o w ⟨hconf, hproj, hresult⟩ _ hcloses hφ
    refine ⟨hconf.update _, .inr ⟨_, rfl, namesWake_wakePlanOf ?_⟩⟩
    -- the turn had no result, so its decision has a progress path
    rcases hφ.last rfl with hr | ⟨d', openActions, outcome, hproj', ⟨_, _, _, tr, htr, rfl⟩, hpath⟩
    · exact absurd rfl (hresult hr)
    · rw [hproj] at hproj'
      obtain ⟨rfl, rfl⟩ := Prod.mk.inj (Option.some.inj hproj')
      exact ((project_wakes_iff htr).mpr hpath).resolve_left (by simpa [closes] using hcloses)
  parked := fun h _ => ⟨h.1, .inr ⟨_, rfl, .inr (.inr (by simp))⟩⟩
  chained := fun h _ => h.1
  limited := fun h _ _ => h.1
  failed := fun h _ _ _ => h
  reporting := fun h => h
  reported := fun h _ => ⟨h, .inr ⟨_, rfl, .inr (.inr (by simp))⟩⟩
  unreported := fun h _ => h
  rescued := fun h => h

/-- The rounds of a progressive run keep a started mailbox settled. -/
lemma progress_loopRule :
    LoopRule (Progressing V) progressAt takenAt (Going V) (progressHead V) (progressWait V) where
  turn := progress_turnRule
  invariant := going_invariant
  base := And.left
  coherent := fun h => h.1.steady.coherent
  settled := fun hgoing h _ => ⟨hgoing, fun _ => h.2⟩
  stable := progressHead_stable
  handover := by
    rintro w iso ⟨hgoing, hsettled⟩ hclosed
    refine ⟨⟨⟨rfl, hgoing.steady.coherent.timer, hgoing.steady.coherent.limit⟩, fun hφ => ?_⟩,
      fun hstarted => ?_⟩
    · have h := hgoing.regular hφ
      exact ⟨h.configured, h.reviews, h.controls, h.timer⟩
    · refine (hsettled hstarted).imp_left fun hpre => ?_
      rw [Mailbox.lifecyclePreemptionPending, hclosed] at hpre
      exact hpre
  ready_update := fun h => Mailbox.Configured.update h _
  taken_update := fun h => ⟨h.1.update _, h.2⟩
  taken := by
    intro w source h hφ hs
    have hregular := h.1.regular hφ
    have havail := Mailbox.nextBranch_available hs
    refine ⟨hregular.configured.pop source, by rw [taken, turnLog_concat]; rfl, ?_⟩
    cases source with
    | review review => exact hregular.reviews review (List.mem_of_getElem? havail)
    | control control => exact hregular.controls control (List.mem_of_getElem? havail)
    | event index event => trivial
    | actionResolution resolution => trivial
  event := fun h => h.1
  approved := by
    intro review w h _
    refine wp_mono (approved_actionRule.wp_executePendingAction progressing_prefixClosed rfl
      ⟨h.1, h.2.1⟩) ?_ (fun _ _ _ _ h => h) fun _ _ _ _ h => h
    rintro (_ | execution) w' - - ⟨hconf, hclosed⟩
    · refine ⟨hconf, .inl ?_⟩
      rw [Mailbox.lifecyclePreemptionPending, hclosed rfl, Bool.true_or]
    · exact hconf
  reviewed := fun h _ _ => h.1
  unreviewed := fun h htype => absurd h.2.2 htype
  resolved := fun h => h.1
  takenOver := fun h _ => ⟨h.1, .inr ⟨_, rfl, .inr (.inr (by simp))⟩⟩
  retried := fun h _ => h.1
  uncontrolled := fun h htype => absurd h.2.2 htype
  due := fun h hφ _ _ => (h.1.regular hφ).configured
  undue := by
    intro w record h hφ hbranch hnone
    -- a deadline comes from a plan, and the timer of a plan has an identity
    obtain ⟨due, hdue⟩ := Mailbox.timerDueAt_of_nextBranch hbranch
    rw [h.1.steady.coherent.timer] at hdue
    obtain ⟨plan, hplan, hat⟩ := Option.bind_eq_some_iff.mp hdue
    rw [hplan] at hnone
    exact absurd hnone ((h.1.regular hφ).timer plan hplan (by simp [hat]))
  waits := by
    rintro w ⟨hgoing, hsettled⟩ - hclosed hbranch
    refine ⟨hgoing, .inr ?_⟩
    cases hstarted : w.self.mailbox.started with
    | false => exact .inl rfl
    | true =>
        refine .inr ((hsettled hstarted).resolve_left ?_)
        simp [Mailbox.lifecyclePreemptionPending, hclosed,
          (Mailbox.buffers_of_nextBranch hbranch).2.2]
  waiting_stable := progressWait_stable
  woken := by
    rintro w ⟨hgoing, hwait⟩
    refine ⟨hgoing, fun hstarted => ?_⟩
    rcases hwait with hc | hs | hw
    · exact .inl (by rw [Mailbox.lifecyclePreemptionPending, hc, Bool.true_or])
    · rw [hstarted] at hs
      cases hs
    · exact .inr hw

/-- **No silent stall**: in a run of progressive steps of a mailbox with a process definition,
whatever the order of its signals and the answers of its Activities, the plan names an event
type, a timer or a human interaction whenever a started mailbox that is not closed waits. -/
theorem no_silent_stall (iso : IsoCodec)
    (tenantId processInstanceId processDefinitionId processDefinitionVersion : String)
    (continueAsNewAfterTurns : ℤ) (uuids : ℕ → String) (rounds : ℕ) (script : List Input)
    {w : World Runtime Obs} :
    let input := MailboxInput.first tenantId processInstanceId (some processDefinitionId)
      (some processDefinitionVersion) continueAsNewAfterTurns
    (run iso input rounds).run script (initialWorld input uuids) = .blocked .waitCondition w →
      Along (Progressive V) w.log → w.self.mailbox.started = true →
      w.self.mailbox.closed = false →
      ∃ plan, w.self.mailbox.wakePlan = some plan ∧ plan.NamesWake := by
  intro input hrun hφ hstarted hclosed
  have hfirst : progressHead V
      (World.resumed (initialWorld input uuids) input (({} : Mailbox).assignInput input)) := by
    refine ⟨⟨⟨rfl, rfl, le_max_left _ _⟩, fun _ => ⟨⟨rfl, rfl⟩, ?_, ?_, ?_⟩⟩, nofun⟩
    · exact fun _ h => absurd h List.not_mem_nil
    · exact fun _ h => absurd h List.not_mem_nil
    · exact fun _ h => by cases h
  obtain ⟨-, hwait⟩ := progress_loopRule.waiting progressing_prefixClosed iso rfl uuids hfirst
    hrun hφ
  rcases hwait with hc | hs | hw
  · rw [hclosed] at hc
    cases hc
  · rw [hstarted] at hs
    cases hs
  · exact hw

end

/-- A decision that waits for an event. -/
def waitingDecision : AgentDecision where
  decisionId := "decision"
  basedOnEventIds := ["event"]
  status := .waiting
  wakeConditions := [.event "reply"]
  waitingWakes := reply_wakes

/-- A turn that proposes no action. -/
def quietTurn : List Input :=
  [.signal (.receiveEvent ⟨"event", "started"⟩), .task 0 false,
    .reply (.turn (.ok waitingDecision)), .reply (.actions (.ok [])),
    .reply (.processState (.ok (some ⟨false, [.event "reply"]⟩)))]

/-- A mailbox that waits for an event after its first turn. -/
theorem no_silent_stall_after_turn :
    ∃ w, (run .tally sampleInput 3).run quietTurn (initialWorld sampleInput fun _ => "id")
        = .blocked .waitCondition w ∧
      ∃ plan, w.self.mailbox.wakePlan = some plan ∧ plan.NamesWake := by
  refine ⟨_, rfl, no_silent_stall (V := ℕ) .tally "tenant" "process" "definition" "1" 100
    (fun _ => "id") 3 quietTurn rfl ?_ rfl rfl⟩
  have hforward : ∀ t : TurnLog,
      t.projection = some (waitingDecision, some ⟨false, [.event "reply"]⟩) → t.Forward ℕ :=
    fun t ht => .inr ⟨_, [], _, ht, ⟨none, [], [], ⟨.waiting, _⟩, rfl, rfl⟩, by decide⟩
  repeat' first
    | exact trivial
    | exact along_nil
    | exact fun _ => hforward _ rfl
    | refine along_cons.mpr ⟨?_, ?_⟩

/-! ### A run that stalls -/

/-- An active decision need not name a wake condition. -/
lemma active_wakes : DecisionStatus.active = .waiting → ([] : List WakeCondition) ≠ [] :=
  fun h => absurd h (by simp)

/-- A decision that proposes one action and names no wake condition. -/
def actingDecision : AgentDecision where
  decisionId := "decision"
  basedOnEventIds := ["event"]
  status := .active
  actions := [⟨"action", "key", "send", ⟨"{}", 0⟩, "rationale"⟩]
  waitingWakes := active_wakes

/-- The action is allowed, and its `execute_action` fails after it was persisted. -/
def failedExecution : List Input :=
  [.signal (.receiveEvent ⟨"event", "started"⟩), .task 0 false,
    .reply (.turn (.ok actingDecision)), .reply (.actions (.ok [⟨"action", 1, .allow⟩])),
    .reply (.processState (.ok (some ⟨false, []⟩))), .reply (.executed (.error ⟨"timeout", []⟩))]

lemma accepted_actingDecision : Accepted ℕ actingDecision :=
  ⟨fun _ _ => "", { allowedActionTypes := ["send"], allowedWakeEventTypes := [] }, 0, {}, [], none,
    false, rfl⟩

/-- With its own action open, the acting decision is projected to an active process without a
wake. -/
lemma projectionOf_actingDecision :
    ProjectionOf ℕ actingDecision [("action", .allowed)] (some ⟨false, []⟩) :=
  ⟨none, [], [], ⟨.active, []⟩, rfl, rfl⟩

/-- A failed `execute_action` leaves a started mailbox with a plan that names no wake, next to
the projection of an accepted decision. -/
theorem stall_after_failed_execution :
    ∃ w, (run .tally sampleInput 3).run failedExecution (initialWorld sampleInput fun _ => "id")
        = .blocked .waitCondition w ∧
      Projected ℕ w.log ∧ w.self.mailbox.started = true ∧ w.self.mailbox.closed = false ∧
      ¬ ∃ plan, w.self.mailbox.wakePlan = some plan ∧ plan.NamesWake := by
  refine ⟨_, rfl, ?_, rfl, rfl, ?_⟩
  · intro p hp
    obtain rfl : p = (actingDecision, some ⟨false, []⟩) := List.mem_singleton.mp hp
    exact ⟨accepted_actingDecision, _, projectionOf_actingDecision⟩
  · rintro ⟨plan, hplan, hwake⟩
    obtain rfl := Option.some.inj hplan
    revert hwake
    decide

end TiramisuAgents
