import TiramisuAgents.Mailbox.ExactlyOnce
import TiramisuAgents.Mailbox.LoopRule

/-!
Action results: where the attempts that `execute_action` and `reconcile_action` return end up.

A turn collects the results of its actions in a local list and hands their attempts to the
next turn, or to an intervention once the chain limit is reached.  A turn that a lifecycle
control supersedes keeps them in its record instead, and so does nothing else with them.  A
turn that fails with an error after some of its actions have answered reports its own sources
only; such runs are left out by `Tracked`.

* `results_reach_a_turn`: whenever a mailbox that is not closed waits, every attempt returned
  to it went to a turn, to an intervention, or into the record of a superseded turn.
* `superseded_result`: the record of a superseded turn may be the only place.
-/

namespace TiramisuAgents

open Coroutine

/-! ### Attempts in the log -/

/-- The attempts an observation returns to the mailbox. -/
def Obs.returned : Obs → List String
  | .completed (.executeAction _) (.executed (.ok result)) => [result.attemptId]
  | .completed (.reconcileAction _) (.reconciled (.ok result)) => [result.attemptId]
  | _ => []

/-- The attempts an observation passes on: those of a turn that starts and those of an
intervention that is recorded. -/
def Obs.passed : Obs → List String
  | .started (.runAgentTurn command) => command.sources.actionAttemptIds
  | .completed (.recordProcessIntervention command) (.intervention (.ok ())) =>
      command.sources.actionAttemptIds
  | _ => []

/-- The attempts in the record of a turn that a lifecycle control has superseded. -/
def Obs.superseded : Obs → List String
  | .turnRecorded record =>
      if record.error = some lifecyclePreemptionError then
        (record.executionResults.getD []).map ExecutionResult.attemptId
      else []
  | _ => []

/-- Every attempt returned in a log was passed on, is in the record of a superseded turn, or is
one of `pending`. -/
def Tallied (pending : List String) (log : List Obs) : Prop :=
  ∀ id ∈ log.flatMap Obs.returned,
    id ∈ log.flatMap Obs.passed ∨ id ∈ log.flatMap Obs.superseded ∨ id ∈ pending

/-- The runs in which each action has one attempt, and no turn fails with an error while it
holds results that it has not passed on. -/
def Tracked (before : List Obs) : Obs → Prop
  | .completed (.reconcileAction command) (.reconciled (.ok reconciled)) =>
      ∀ executed, .completed (.executeAction command) (.executed (.ok executed)) ∈ before →
        executed.attemptId = reconciled.attemptId
  | .completed (.executeAction _) (.executed (.error error)) =>
      error.isType deploymentCompatibilityError = true → Tallied [] before
  | .completed (.reconcileAction _) (.reconciled (.error error)) =>
      error.isType deploymentCompatibilityError = true → Tallied [] before
  | .completed (.recordProcessIntervention _) (.intervention (.error _)) => Tallied [] before
  | _ => True

namespace Tallied

variable {pending pending' : List String} {log : List Obs} {o : Obs}

lemma mono (h : Tallied pending log) (hp : pending ⊆ pending') : Tallied pending' log :=
  fun id hid => (h id hid).imp_right fun h => h.imp_right fun h => hp h

/-- One more observation: what it returns becomes pending, what it passes on or records as
superseded is so no longer. -/
lemma concat (h : Tallied pending log)
    (hpending : ∀ id ∈ pending, id ∈ o.passed ∨ id ∈ o.superseded ∨ id ∈ pending')
    (hreturned : ∀ id ∈ o.returned, id ∈ pending') : Tallied pending' (log ++ [o]) := by
  intro id hid
  simp only [List.flatMap_append, List.flatMap_singleton, List.mem_append] at hid ⊢
  rcases hid with hid | hid
  · rcases h id hid with h | h | h
    · exact .inl (.inl h)
    · exact .inr (.inl (.inl h))
    · rcases hpending id h with h | h | h
      · exact .inl (.inr h)
      · exact .inr (.inl (.inr h))
      · exact .inr (.inr h)
  · exact .inr (.inr (hreturned id hid))

/-- An observation that returns nothing keeps the tally. -/
lemma keep (h : Tallied pending log) (ho : o.returned = []) : Tallied pending (log ++ [o]) :=
  h.concat (fun _ hid => .inr (.inr hid)) (by simp [ho])

end Tallied

/-! ### The assertions of a run -/

/-- A configured mailbox with the attempts `pending` not passed on yet. -/
def Holding (pending : List String) (w : World Runtime Obs) : Prop :=
  w.self.mailbox.Configured ∧ Tallied pending w.log

/-- The attempts a turn holds at a point of it. -/
def Point.pending : Point → List String
  | .ready sources => sources.actionAttemptIds
  | .executing _ _ _ _ _ results => results.map ExecutionResult.attemptId
  | .reporting command => command.sources.actionAttemptIds
  | _ => []

lemma Holding.mono {pending pending' : List String} {w : World Runtime Obs}
    (h : Holding pending w) (hp : pending ⊆ pending') : Holding pending' w :=
  ⟨h.1, h.2.mono hp⟩

lemma Holding.observed {pending : List String} {w : World Runtime Obs} {o : Obs}
    (h : Holding pending w) (ho : o.returned = []) :
    Holding pending (TiramisuAgents.observed o w) :=
  ⟨h.1, h.2.keep ho⟩

lemma Holding.updated {pending : List String} {w : World Runtime Obs} (h : Holding pending w)
    (u : Update) : Holding pending (TiramisuAgents.updated u w) :=
  ⟨h.1.update u, h.2⟩

lemma holding_robust (pending : List String) :
    Robust (Along Tracked) (Holding pending) where
  stable := by
    rintro i w ⟨hc, ht⟩ -
    refine ⟨configured_invariant.absorb i hc, ?_⟩
    cases i with
    | signal s => exact ht.keep rfl
    | commit c => exact ht.keep rfl
    | reply reply => simpa [Handler.step, environment] using ht
    | task now suggested => simpa [Handler.step, environment] using ht
  update := fun _ _ h => h.updated _
  draw := id
  record := fun _ _ h => h.observed rfl

/-! ### The rules -/

/-- Executing an action adds its attempt to those the mailbox holds; an error that leaves it
finds none held. -/
lemma results_actionRule {command : ActionCommand} {pending : List String} :
    ActionRule (Along Tracked) command (Holding pending) (Holding pending)
      (fun r w => Holding (pending ++ [r.attemptId]) w ∧
        .completed (.executeAction command) (.executed (.ok r)) ∈ w.log)
      ⟨fun r => Holding (pending ++ r.toList.map ExecutionResult.attemptId),
        fun _ => Holding [], fun l _ => l ≠ .waitCondition⟩ where
  trying_bookkept := (holding_robust pending).bookkept
  acting_stable := (holding_robust pending).stable
  retrying := id
  answered_bookkept := by
    intro r
    have h := holding_robust (pending ++ [r.attemptId])
    exact ⟨fun hu w hw => ⟨h.update hu hw.1, hw.2⟩, fun hw => ⟨h.draw hw.1, hw.2⟩,
      fun {r} _ w hw => ⟨h.record r hw.1, List.mem_append_left _ hw.2⟩⟩
  answered_stable r i w hw hφ :=
    ⟨(holding_robust (pending ++ [r.attemptId])).stable i w hw.1 hφ, List.mem_append_left _ hw.2⟩
  started := fun h => h.observed rfl
  restarted := fun h _ => ⟨h.1.observed rfl, List.mem_append_left _ h.2⟩
  suspended := fun h _ _ => h.observed rfl
  closed := fun h _ => by simpa using h
  executed := by
    intro w r h _
    refine ⟨⟨h.1, h.2.concat (fun id hid => ?_) fun id hid => ?_⟩, List.mem_concat_self⟩
    · exact .inr (.inr (List.mem_append_left _ hid))
    · exact List.mem_append_right _ hid
  failed := fun h _ _ _ => by simpa using h.observed rfl
  incompatible := fun h _ hc hφ => Holding.observed ⟨h.1, hφ.last hc⟩ rfl
  known := fun h _ => h.1
  reconciled := by
    intro w r r' h _ hφ
    -- the reconciled attempt is the executed one
    have hid := hφ.last r h.2
    refine ⟨h.1.1, h.1.2.concat (fun id hid' => ?_) fun id hid' => ?_⟩
    · exact .inr (.inr (by simpa [hid] using hid'))
    · exact List.mem_append_right _ hid'
  unreconciled := fun h _ _ _ => h.1.observed rfl
  irreconcilable := fun h _ hc hφ => Holding.observed ⟨h.1.1, hφ.last hc⟩ rfl
  done_update := fun _ _ _ h => h.updated _
  raised_update := fun _ _ _ h => h.updated _
  blocked := fun h _ => h

/-- A turn passes on what it holds. -/
lemma results_turnRule : TurnRule (Along Tracked) fun p => Holding p.pending where
  robust := fun p => holding_robust p.pending
  begun := fun h => ⟨h.1, h.2.concat (fun _ hid => .inl hid) (by simp [Obs.returned])⟩
  retried := fun h => h.observed rfl
  unconfigured := fun h hnone => absurd hnone (h.1.turnCommand_ne_none _ _)
  suspended := fun h _ _ => h.observed rfl
  closed := fun h _ => h
  undecided := fun h _ => h.observed rfl
  decided := fun h _ => h.observed rfl
  saved := fun h _ => h.observed rfl
  unpersisted := fun h _ => h.observed rfl
  persisted := fun h _ => h.observed rfl
  projecting := fun h => h.observed rfl
  unprojected := fun h _ => h.observed rfl
  projected := fun h _ => h.observed rfl
  preempted := by
    intro p record w hp h _ _
    refine ⟨h.1.update _, h.2.concat (fun id hid => ?_) (by simp [Obs.returned])⟩
    cases p with
    | executing c d items o rest results =>
        obtain rfl := Option.some.inj hp
        exact .inr (.inl hid)
    | deciding c d => exact .inr (.inr hid)
    | persisting c d items => exact .inr (.inr hid)
    | failing c progress => exact .inr (.inr hid)
    | _ => cases hp
  skipped := fun h _ => h
  executed := by
    intro c d items o item rest results w h _ _
    refine wp_mono (results_actionRule.wp_executePendingAction (Along.prefixClosed _) rfl h)
      (fun r w' _ _ hr => ?_) (fun _ _ _ _ h _ _ => h) fun _ _ _ _ h => h
    simpa [Point.pending] using hr
  concluded := fun h _ _ => h.updated _
  planned := fun h _ _ _ => h.updated _
  parked := fun h _ => h.updated _
  chained := fun h _ => h
  limited := fun h _ hs => by simpa [Point.pending, hs] using h
  failed := fun h _ _ _ => h.mono (List.nil_subset _)
  reporting := fun h => h.observed rfl
  reported := by
    intro command w h _
    have hpassed : Holding [] (observed (.completed (.recordProcessIntervention command)
        (.intervention (.ok ()))) w) :=
      ⟨h.1, h.2.concat (fun _ hid => .inl hid) (by simp [Obs.returned])⟩
    exact hpassed.updated _
  unreported := fun h hφ => Holding.observed ⟨h.1, hφ.last⟩ rfl
  rescued := fun h => h

/-- The rounds of the loop end with nothing held. -/
lemma results_loopRule :
    LoopRule (Along Tracked) (fun p => Holding p.pending) (fun _ => Holding [])
      (fun w => Steady w ∧ w.self.mailbox.Configured) (fun w => Steady w ∧ Holding [] w)
      (fun w => Steady w ∧ Holding [] w) where
  turn := results_turnRule
  invariant := steady_invariant.and configured_invariant
  base := fun h => ⟨h.1, h.2.1⟩
  coherent := fun h => h.1.coherent
  settled := fun hJ h _ => ⟨hJ.1, h⟩
  stable := fun i w h hφ => ⟨steady_invariant.absorb i h.1, (holding_robust []).stable i w h.2 hφ⟩
  handover := fun _ h _ => ⟨⟨rfl, h.1.coherent.timer, h.1.coherent.limit⟩, h.2⟩
  ready_update := fun h => h.updated _
  taken_update := fun h => h.updated _
  taken := fun h _ _ => ⟨h.2.1.pop _, h.2.2.keep rfl⟩
  event := fun h => h
  approved := by
    intro review w h _
    refine wp_mono (results_actionRule.wp_executePendingAction (Along.prefixClosed _) rfl h)
      (fun r w' _ _ hr => ?_) (fun _ _ _ _ _ => trivial) fun _ _ _ _ h => h
    cases r with
    | none => exact hr
    | some execution => exact hr
  reviewed := fun h _ _ => h
  unreviewed := fun h _ => h
  resolved := fun h => h.mono (List.nil_subset _)
  takenOver := fun h _ => h.updated _
  retried := fun h _ => h.mono (List.nil_subset _)
  uncontrolled := fun h _ => h
  due := fun h _ _ _ => h.2
  undue := fun h _ _ _ => ((h.2.updated _).updated _).updated _
  waits := fun h _ _ _ => h
  waiting_stable := fun i w h hφ =>
    ⟨steady_invariant.absorb i h.1, (holding_robust []).stable i w h.2 hφ⟩
  woken := id

/-- **No lost action result**: whenever a mailbox with a process definition waits, every attempt
that `execute_action` or `reconcile_action` returned to it has been passed to a turn, is listed in
a recorded intervention, or is in the record of a turn that a lifecycle control superseded. -/
theorem results_reach_a_turn (iso : IsoCodec)
    (tenantId processInstanceId processDefinitionId processDefinitionVersion : String)
    (continueAsNewAfterTurns : ℤ) (uuids : ℕ → String) (rounds : ℕ) (script : List Input)
    {w : World Runtime Obs} :
    let input := MailboxInput.first tenantId processInstanceId (some processDefinitionId)
      (some processDefinitionVersion) continueAsNewAfterTurns
    (run iso input rounds).run script (initialWorld input uuids) = .blocked .waitCondition w →
      Along Tracked w.log →
      ∀ id ∈ w.log.flatMap Obs.returned,
        id ∈ w.log.flatMap Obs.passed ∨ id ∈ w.log.flatMap Obs.superseded := by
  intro input hrun hφ id hid
  have hfirst : Steady (World.resumed (initialWorld input uuids) input
      (({} : Mailbox).assignInput input)) ∧
      Holding [] (World.resumed (initialWorld input uuids) input
        (({} : Mailbox).assignInput input)) :=
    ⟨⟨rfl, rfl, le_max_left _ _⟩, ⟨rfl, rfl⟩, fun _ h => absurd h List.not_mem_nil⟩
  obtain ⟨-, -, htally⟩ := results_loopRule.waiting (Along.prefixClosed _) iso rfl uuids hfirst
    hrun hφ
  simpa using htally id hid

/-- A decision that proposes an action, and the decision of the turn on its result. -/
def proposingDecision (sources : List String) : AgentDecision where
  decisionId := "decision"
  basedOnEventIds := sources
  status := .waiting
  wakeConditions := [.event "reply"]
  waitingWakes := reply_wakes

/-- A first turn up to the execution of its only action. -/
def proposedAction : List Input :=
  [.signal (.receiveEvent ⟨"event", "started"⟩), .task 0 false,
    .reply (.turn (.ok (proposingDecision ["event"]))),
    .reply (.actions (.ok [⟨"action", 1, .allow⟩])),
    .reply (.processState (.ok (some ⟨false, []⟩)))]

/-- The action succeeds and a second turn takes up its result. -/
def executedAction : List Input :=
  proposedAction ++ [.reply (.executed (.ok ⟨"attempt", .succeeded⟩)),
    .reply (.turn (.ok (proposingDecision []))), .reply (.actions (.ok [])),
    .reply (.processState (.ok (some ⟨false, [.event "reply"]⟩)))]

/-- The result of an action is passed to the next turn. -/
theorem results_reach_a_turn_chained :
    ∃ w, (run .tally sampleInput 3).run executedAction (initialWorld sampleInput fun _ => "id")
        = .blocked .waitCondition w ∧
      ("attempt" ∈ w.log.flatMap Obs.passed ∨ "attempt" ∈ w.log.flatMap Obs.superseded) := by
  refine ⟨_, rfl, results_reach_a_turn .tally "tenant" "process" "definition" "1" 100
    (fun _ => "id") 3 executedAction rfl ?_ "attempt" (List.mem_singleton.mpr rfl)⟩
  repeat' first
    | exact trivial
    | exact along_nil
    | refine along_cons.mpr ⟨?_, ?_⟩

/-! ### A superseded result -/

/-- An operator takes the process over while the provider is called. -/
def takenOver : List Input :=
  proposedAction ++ [.signal (.receiveControl { commandId := "command", commandType := "takeover" }),
    .reply (.executed (.ok ⟨"attempt", .succeeded⟩))]

/-- The result of an action that was executed while an operator took the process over is passed
to no turn and to no intervention. -/
theorem superseded_result :
    ∃ w, (run .tally sampleInput 3).run takenOver (initialWorld sampleInput fun _ => "id")
        = .blocked .waitCondition w ∧ w.self.mailbox.closed = false ∧
      "attempt" ∈ w.log.flatMap Obs.returned ∧ "attempt" ∉ w.log.flatMap Obs.passed :=
  ⟨_, rfl, rfl, List.mem_singleton.mpr rfl, List.not_mem_nil⟩

end TiramisuAgents
