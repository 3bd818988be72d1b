import TiramisuAgents.Mailbox.Rules

/-!
Chains of turns: a turn whose actions have given results is followed by a turn on these results,
and `run` lets five turns be chained to the first.

A frame of `_run_turn` counts its turn in its `finally` clause, so while a chain unwinds the
counter lags behind the turns started.  `ChainState` says what is known meanwhile: the turns
started, in order, the turns counted, and that a sixth turn which came to its end with results
has handed them to an operator.

* `startedTurns`: the turns of a log, by their identities.
* `InsideInvariant`: what the code of a turn keeps apart from its beginning, its records and its
  end.
* `wp_runTurn_chain`, by induction on the turns that may still be chained: a nested frame that
  fails is handled by the frame around it.
* `chain_bounded`: the chains of every branch of the loop.
-/

namespace TiramisuAgents

open Coroutine

/-! ### The turns of a log -/

/-- The turns started once an observation is made; `run_agent_turn` is started again while its
tenant is suspended. -/
def startTurn (turns : List String) : Obs → List String
  | .started (.runAgentTurn command) =>
      if command.turnId ∈ turns then turns else turns ++ [command.turnId]
  | _ => turns

/-- The turns started along a log, in order. -/
def startedTurns (log : List Obs) : List String := log.foldl startTurn []

/-- Whether an observation starts or records a turn. -/
def Obs.ofTurn : Obs → Bool
  | .started activity => activity.isTurn
  | .turnRecorded _ => true
  | _ => false

lemma startTurn_of_not_ofTurn {o : Obs} (ho : o.ofTurn = false) (turns : List String) :
    startTurn turns o = turns := by
  cases o with
  | started activity =>
      cases activity with
      | runAgentTurn command => cases ho
      | _ => rfl
  | _ => rfl

lemma startedTurns_concat (log : List Obs) (o : Obs) :
    startedTurns (log ++ [o]) = startTurn (startedTurns log) o := by
  rw [startedTurns, List.foldl_concat]
  rfl

/-- The results a turn has come to its end with: not a record of a turn that a lifecycle control
has superseded. -/
def TurnRecord.Produced (record : TurnRecord) (results : List ExecutionResult) : Prop :=
  record.executionResults = some results ∧ results ≠ [] ∧
    record.error ≠ some lifecyclePreemptionError

/-- An intervention at the chain limit that hands the results of a turn to an operator. -/
structure InterventionCommand.ChainLimit (command : InterventionCommand) (turnId : String)
    (results : List ExecutionResult) : Prop where
  turn : command.agentTurnId = turnId
  kind : command.kind = "action_chain_limit"
  sources : command.sources = { actionAttemptIds := results.map ExecutionResult.attemptId }

/-- The results of a sixth turn are handed to an operator: the intervention is started, and it
has failed unless `parked`. -/
def LimitReported (parked : InterventionCommand → Prop) (log : List Obs) : Prop :=
  ∀ turnId record results, (startedTurns log)[chainLimit]? = some turnId →
    Obs.turnRecorded record ∈ log → record.turnId = turnId → record.Produced results →
    ∃ command : InterventionCommand, command.ChainLimit turnId results ∧
      Obs.started (.recordProcessIntervention command) ∈ log ∧
      (parked command ∨ ∃ error,
        Obs.completed (.recordProcessIntervention command) (.intervention (.error error)) ∈ log)

namespace LimitReported

variable {parked parked' : InterventionCommand → Prop} {log : List Obs}

lemma mono (h : LimitReported parked log) (hparked : ∀ command, parked command → parked' command) :
    LimitReported parked' log := by
  intro turnId record results hsixth hrecord hid hproduced
  obtain ⟨command, hcommand, hstarted, hend⟩ := h turnId record results hsixth hrecord hid hproduced
  exact ⟨command, hcommand, hstarted, hend.imp (hparked command) id⟩

/-- A further observation, unless it records results of the sixth turn or starts a turn. -/
lemma concat (h : LimitReported parked log) {o : Obs}
    (hturns : startTurn (startedTurns log) o = startedTurns log)
    (hrecord : ∀ record results, o = .turnRecorded record → record.Produced results →
      (startedTurns log)[chainLimit]? ≠ some record.turnId) :
    LimitReported parked (log ++ [o]) := by
  intro turnId record results hsixth hmem hid hproduced
  rw [startedTurns_concat, hturns] at hsixth
  rcases List.mem_append.mp hmem with hmem | hmem
  · obtain ⟨command, hcommand, hstarted, hend⟩ :=
      h turnId record results hsixth hmem hid hproduced
    refine ⟨command, hcommand, List.mem_append_left _ hstarted, hend.imp_right ?_⟩
    rintro ⟨error, herror⟩
    exact ⟨error, List.mem_append_left _ herror⟩
  · have heq : o = .turnRecorded record := (List.mem_singleton.mp hmem).symm
    rw [← hid] at hsixth
    exact absurd hsixth (hrecord record results heq hproduced)

/-- The record of a turn with the intervention that hands its results to an operator. -/
lemma concat_limit (h : LimitReported parked log) {record : TurnRecord}
    {command : InterventionCommand}
    (hcommand : ∀ results, record.Produced results → command.ChainLimit record.turnId results) :
    LimitReported (fun c => parked c ∨ c = command)
      (log ++ [.turnRecorded record] ++ [.started (.recordProcessIntervention command)]) := by
  intro turnId record' results hsixth hmem hid hproduced
  simp only [startedTurns_concat, startTurn] at hsixth
  have hmem' : Obs.turnRecorded record' ∈ log ∨ record' = record := by
    simpa using hmem
  rcases hmem' with hmem' | rfl
  · obtain ⟨command', hcommand', hstarted, hend⟩ :=
      h turnId record' results hsixth hmem' hid hproduced
    refine ⟨command', hcommand', by simp [hstarted], hend.imp Or.inl ?_⟩
    rintro ⟨error, herror⟩
    exact ⟨error, by simp [herror]⟩
  · subst hid
    exact ⟨command, hcommand results hproduced, by simp, .inl (.inr rfl)⟩

/-- The interventions of which `parked` holds are over once the one that is awaited is. -/
lemma settle {command : InterventionCommand}
    (h : LimitReported (fun c => parked c ∨ c = command) log)
    (hend : (∃ error, Obs.completed (.recordProcessIntervention command)
      (.intervention (.error error)) ∈ log) ∨ parked command) :
    LimitReported parked log := by
  intro turnId record results hsixth hrecord hid hproduced
  obtain ⟨command', hcommand, hstarted, (hparked | rfl) | herror⟩ :=
    h turnId record results hsixth hrecord hid hproduced
  · exact ⟨command', hcommand, hstarted, .inl hparked⟩
  · exact ⟨command', hcommand, hstarted, hend.symm⟩
  · exact ⟨command', hcommand, hstarted, .inr herror⟩

end LimitReported

/-- What is known of a log that has grown from `base` and started `turns` since. -/
structure Logged (base : List Obs) (turns : List String) (parked : InterventionCommand → Prop)
    (log : List Obs) : Prop where
  grown : ∃ since, log = base ++ since ∧ startedTurns since = turns ∧
    (∀ record, Obs.turnRecorded record ∈ since → record.turnId ∈ turns) ∧
    LimitReported parked since

namespace Logged

variable {base log : List Obs} {turns : List String} {parked parked' : InterventionCommand → Prop}

lemma init (base : List Obs) (parked : InterventionCommand → Prop) :
    Logged base [] parked base where
  grown := by
    refine ⟨[], (List.append_nil base).symm, rfl, ?_, ?_⟩
    · intro record hrecord
      cases hrecord
    · intro turnId record results hsixth
      cases hsixth

lemma mono (h : Logged base turns parked log)
    (hparked : ∀ command, parked command → parked' command) : Logged base turns parked' log where
  grown := by
    obtain ⟨since, hlog, hturns, hrecorded, hlimit⟩ := h.grown
    exact ⟨since, hlog, hturns, hrecorded, hlimit.mono hparked⟩

/-- A further observation that starts no turn; a record is one of a turn that was started, and
of results only if the turn is not the sixth. -/
lemma concat (h : Logged base turns parked log) {o : Obs} (hturns : startTurn turns o = turns)
    (hrecord : ∀ record, o = .turnRecorded record → record.turnId ∈ turns)
    (hresults : ∀ record results, o = .turnRecorded record → record.Produced results →
      turns[chainLimit]? ≠ some record.turnId) :
    Logged base turns parked (log ++ [o]) where
  grown := by
    obtain ⟨since, rfl, rfl, hrecorded, hlimit⟩ := h.grown
    refine ⟨since ++ [o], List.append_assoc _ _ _, ?_, ?_, hlimit.concat hturns hresults⟩
    · rw [startedTurns_concat, hturns]
    · intro record hmem
      rcases List.mem_append.mp hmem with hmem | hmem
      · exact hrecorded record hmem
      · exact hrecord record (List.mem_singleton.mp hmem).symm

lemma concat_other (h : Logged base turns parked log) {o : Obs} (ho : o.ofTurn = false) :
    Logged base turns parked (log ++ [o]) := by
  refine h.concat (startTurn_of_not_ofTurn ho turns) ?_ ?_
  · rintro record rfl
    cases ho
  · rintro record results rfl
    cases ho

/-- A turn that is started again. -/
lemma restart (h : Logged base turns parked log) {command : TurnCommand}
    (hstarted : command.turnId ∈ turns) :
    Logged base turns parked (log ++ [.started (.runAgentTurn command)]) :=
  h.concat (if_pos hstarted) (fun _ heq => nomatch heq) fun _ _ heq => nomatch heq

/-- A turn with a new identity: nothing is recorded of it yet. -/
lemma start (h : Logged base turns parked log) {command : TurnCommand}
    (hnew : command.turnId ∉ turns) :
    Logged base (turns ++ [command.turnId]) parked
      (log ++ [.started (.runAgentTurn command)]) where
  grown := by
    obtain ⟨since, rfl, rfl, hrecorded, hlimit⟩ := h.grown
    have hturns : startedTurns (since ++ [.started (.runAgentTurn command)]) =
        startedTurns since ++ [command.turnId] := by
      rw [startedTurns_concat]
      exact if_neg hnew
    have hold : ∀ record,
        Obs.turnRecorded record ∈ since ++ [.started (.runAgentTurn command)] →
        record.turnId ∈ startedTurns since := by
      intro record hmem
      refine hrecorded record ?_
      simpa using hmem
    refine ⟨_, List.append_assoc _ _ _, hturns, ?_, ?_⟩
    · exact fun record hmem => List.mem_append_left _ (hold record hmem)
    · intro turnId record results hsixth hmem hid hproduced
      have hne : turnId ≠ command.turnId := by
        rintro rfl
        exact hnew (hid ▸ hold record hmem)
      rw [hturns, List.getElem?_append] at hsixth
      split at hsixth
      · obtain ⟨command', hcommand, hstarted, hend⟩ :=
          hlimit turnId record results hsixth (by simpa using hmem) hid hproduced
        refine ⟨command', hcommand, List.mem_append_left _ hstarted, hend.imp_right ?_⟩
        rintro ⟨error, herror⟩
        exact ⟨error, List.mem_append_left _ herror⟩
      · rw [List.getElem?_singleton] at hsixth
        split at hsixth
        · exact absurd (Option.some.inj hsixth).symm hne
        · cases hsixth

/-- The end of a turn that may not chain its results. -/
lemma limit (h : Logged base turns parked log) {record : TurnRecord}
    {command : InterventionCommand} (hturn : record.turnId ∈ turns)
    (hcommand : ∀ results, record.Produced results → command.ChainLimit record.turnId results) :
    Logged base turns (fun c => parked c ∨ c = command)
      (log ++ [.turnRecorded record] ++ [.started (.recordProcessIntervention command)]) where
  grown := by
    obtain ⟨since, rfl, rfl, hrecorded, hlimit⟩ := h.grown
    refine ⟨since ++ [.turnRecorded record] ++ [.started (.recordProcessIntervention command)],
      by simp, ?_, ?_, hlimit.concat_limit hcommand⟩
    · simp only [startedTurns_concat, startTurn]
    · intro record' hmem
      have hmem' : Obs.turnRecorded record' ∈ since ∨ record' = record := by simpa using hmem
      rcases hmem' with hmem' | rfl
      · exact hrecorded record' hmem'
      · exact hturn

/-- The awaited intervention has failed. -/
lemma failed {command : InterventionCommand} {error : ActivityError}
    (h : Logged base turns (fun c => parked c ∨ c = command) log) :
    Logged base turns parked (log ++
      [.completed (.recordProcessIntervention command) (.intervention (.error error))]) where
  grown := by
    obtain ⟨since, hlog, hturns, hrecorded, hlimit⟩ := (h.concat_other
      (o := .completed (.recordProcessIntervention command) (.intervention (.error error)))
      rfl).grown
    obtain ⟨before, rfl, -⟩ := h.grown
    have hsince : since = before ++
        [.completed (.recordProcessIntervention command) (.intervention (.error error))] :=
      List.append_cancel_left (hlog.symm.trans (List.append_assoc _ _ _))
    exact ⟨since, hlog, hturns, hrecorded, hlimit.settle (.inl ⟨error, by simp [hsince]⟩)⟩

end Logged

/-! ### What a chain keeps -/

/-- What is known while a chain of turns runs: the turns it has started, those it has counted,
and that the identities still to be drawn are new. -/
structure ChainState (base : List Obs) (turns : List String) (count : ℕ)
    (parked : InterventionCommand → Prop) (w : World Runtime Obs) : Prop where
  logged : Logged base turns parked w.log
  injective : Function.Injective w.self.uuids
  fresh : ∀ n, w.self.uuids n ∉ turns
  count : w.self.mailbox.completedTurnCount = count

/-- A property of worlds that the code of a turn keeps apart from its beginning, its records and
its end. -/
structure InsideInvariant (I : World Runtime Obs → Prop) : Prop where
  absorb : ∀ i {w}, I w → I (environment.step i w)
  update : ∀ {u : Update}, u.inside = true → ∀ {w}, I w → I (updated u w)
  draw : ∀ {w}, I w → I (drawn w)
  observe : ∀ {o : Obs}, o.Inside → ∀ {w}, I w → I (observed o w)

namespace InsideInvariant

variable {I I' : World Runtime Obs → Prop}

lemma respects (hI : InsideInvariant I) : RespectsInside fun w w' => w = w' ∧ I w where
  view := fun h => by rw [h.1]
  absorb := fun i _ _ h => ⟨by rw [h.1], hI.absorb i h.2⟩
  update := fun hu _ _ h => ⟨by rw [h.1], hI.update hu h.2⟩
  draw := fun h => ⟨by rw [h.1], hI.draw h.2⟩
  observe := fun ho _ _ h => ⟨by rw [h.1], hI.observe ho h.2⟩

lemma and (hI : InsideInvariant I) (hI' : InsideInvariant I') :
    InsideInvariant fun w => I w ∧ I' w where
  absorb := fun i _ h => ⟨hI.absorb i h.1, hI'.absorb i h.2⟩
  update := fun hu _ h => ⟨hI.update hu h.1, hI'.update hu h.2⟩
  draw := fun h => ⟨hI.draw h.1, hI'.draw h.2⟩
  observe := fun ho _ h => ⟨hI.observe ho h.1, hI'.observe ho h.2⟩

/-- The start of a branch that was woken. -/
lemma woken (hI : InsideInvariant I) (record : WakeRecord) {w : World Runtime Obs} (hw : I w) :
    I (updated .clearWakePlan (updated (.appendWakeRecord record) (updated .start w))) :=
  hI.update rfl (hI.update rfl (hI.update rfl hw))

end InsideInvariant

/-- The updates within a turn leave its counter and its flag alone. -/
lemma Update.inside_frame {u : Update} (hu : u.inside = true) (m : Mailbox) :
    (u.apply m).completedTurnCount = m.completedTurnCount ∧
      (u.apply m).turnInProgress = m.turnInProgress := by
  cases u with
  | beginTurn => cases hu
  | endTurn => cases hu
  | addPendingAction actionRequestId =>
      rw [apply]
      split <;> exact ⟨rfl, rfl⟩
  | _ => exact ⟨rfl, rfl⟩

/-- The signal handlers leave the counter and the flag of turns alone. -/
lemma Mailbox.handle_turns (m : Mailbox) (s : Signal) :
    (m.handle s).completedTurnCount = m.completedTurnCount ∧
      (m.handle s).turnInProgress = m.turnInProgress := by
  cases s <;> exact ⟨rfl, rfl⟩

lemma Obs.Inside.not_ofTurn {o : Obs} (ho : o.Inside) : o.ofTurn = false := by
  cases ho with
  | started h => exact h
  | completed activity reply => rfl

lemma turnInProgress_inside (b : Bool) :
    InsideInvariant fun w => w.self.mailbox.turnInProgress = b where
  absorb := by
    intro i w h
    cases i with
    | signal s => exact (w.self.mailbox.handle_turns s).2.trans h
    | _ => exact h
  update := fun {_} hu {w} h => (Update.inside_frame hu w.self.mailbox).2.trans h
  draw := id
  observe := fun _ _ h => h

namespace ChainState

variable {base : List Obs} {turns : List String} {count : ℕ}
  {parked parked' : InterventionCommand → Prop} {w : World Runtime Obs}

lemma mono (h : ChainState base turns count parked w)
    (hparked : ∀ command, parked command → parked' command) :
    ChainState base turns count parked' w :=
  { h with logged := h.logged.mono hparked }

/-- The code of a turn apart from its beginning, its records and its end. -/
lemma inside (base : List Obs) (turns : List String) (count : ℕ)
    (parked : InterventionCommand → Prop) :
    InsideInvariant (ChainState base turns count parked) where
  absorb := by
    intro i w h
    cases i with
    | signal s =>
        exact ⟨h.logged.concat_other rfl, h.injective, h.fresh,
          (w.self.mailbox.handle_turns s).1.trans h.count⟩
    | commit c => exact ⟨h.logged.concat_other rfl, h.injective, h.fresh, h.count⟩
    | reply reply =>
        exact ⟨by simpa [Handler.step, environment] using h.logged, h.injective, h.fresh, h.count⟩
    | task now suggested =>
        exact ⟨by simpa [Handler.step, environment] using h.logged, h.injective, h.fresh, h.count⟩
  update := fun {_} hu {w} h => ⟨h.logged, h.injective, h.fresh,
    (Update.inside_frame hu w.self.mailbox).1.trans h.count⟩
  draw := fun h => ⟨h.logged, fun _ _ heq => Nat.succ_injective (h.injective heq),
    fun n => h.fresh (n + 1), h.count⟩
  observe := fun ho _ h => ⟨h.logged.concat_other ho.not_ofTurn, h.injective, h.fresh, h.count⟩

/-- A record of a turn that was started, if it is not the sixth at its end with results. -/
lemma record (h : ChainState base turns count parked w) {record : TurnRecord}
    (hturn : record.turnId ∈ turns)
    (hresults : ∀ results, record.Produced results →
      turns[chainLimit]? ≠ some record.turnId) :
    ChainState base turns count parked (observed (.turnRecorded record) w) where
  logged := by
    refine h.logged.concat rfl ?_ ?_
    · rintro _ ⟨⟩
      exact hturn
    · rintro _ results ⟨⟩
      exact hresults results
  injective := h.injective
  fresh := h.fresh
  count := h.count

end ChainState

/-! ### The code of a turn -/

/-- The mailbox waits for an operator only. -/
def Mailbox.ParkedForOperator (m : Mailbox) : Prop :=
  m.wakePlan = some { humanInteractions := [HumanInteraction.operator.value] } ∧
    m.timerDueAt = none

/-- What is known once at most `chained` turns have been chained to those in `turns`, and
counted. -/
def Progressed (base : List Obs) (turns : List String) (count chained : ℕ)
    (parked : InterventionCommand → Prop) (w : World Runtime Obs) : Prop :=
  ∃ new : List String, new.length ≤ chained ∧
    ChainState base (turns ++ new) (count + new.length) parked w

/-- What is known of a workflow that is found suspended in a chain. -/
def Found (base : List Obs) (turns : List String) (chained : ℕ) (w : World Runtime Obs) : Prop :=
  ∃ new : List String, new.length ≤ chained ∧ Logged base (turns ++ new) (fun _ => True) w.log

/-- What the code of a turn establishes: an intervention at the chain limit has parked the
mailbox if the turn returns, and has failed if it raises. -/
def chainPost (base : List Obs) (turns : List String) (count chained : ℕ) :
    Post Runtime Obs Await Failure Unit where
  done := fun _ w =>
    Progressed base turns count chained (fun _ => w.self.mailbox.ParkedForOperator) w
  raised := fun _ => Progressed base turns count chained fun _ => False
  blocked := fun _ => Found base turns chained

section Inside

variable {Φ : List Obs → Prop} {base : List Obs} {turns : List String} {count chained : ℕ}
  {w : World Runtime Obs} {α : Type}

lemma ChainState.progressed {parked : InterventionCommand → Prop}
    (h : ChainState base turns count (fun _ => False) w) :
    Progressed base turns count chained parked w := by
  refine ⟨[], Nat.zero_le _, ?_⟩
  rw [List.append_nil]
  exact h.mono fun _ => False.elim

lemma ChainState.found {parked : InterventionCommand → Prop}
    (h : ChainState base turns count parked w) : Found base turns chained w := by
  refine ⟨[], Nat.zero_le _, ?_⟩
  rw [List.append_nil]
  exact h.logged.mono fun _ _ => trivial

/-- Code that keeps an invariant, before the rest of a sequence. -/
lemma wp_bind_preserves (hΦ : PrefixClosed Φ) {β : Type} {I : World Runtime Obs → Prop}
    {m : Flow β} {f : β → Flow α} {Q : Post Runtime Obs Await Failure α} (hm : Preserves I m)
    (hw : I w) (hdone : ∀ b w, I w → wp Φ (f b) Q w) (hraised : ∀ e w, I w → Q.raised e w)
    (hblocked : ∀ l w, I w → Q.blocked l w) : wp Φ (m >>= f) Q w :=
  wp_bind hΦ (wp_mono (hm.wp hw) (fun b w' _ _ h => hdone b w' h)
    (fun e w' _ _ h => hraised e w' h) fun l w' _ _ h => hblocked l w' h)

/-- Code that keeps what is accounted, before the rest of a turn. -/
lemma wp_bind_inside (hΦ : PrefixClosed Φ) {β : Type} {m : Flow β} {f : β → Flow Unit}
    (hm : Preserves (ChainState base turns count fun _ => False) m)
    (hw : ChainState base turns count (fun _ => False) w)
    (hdone : ∀ b w, ChainState base turns count (fun _ => False) w →
      wp Φ (f b) (chainPost base turns count chained) w) :
    wp Φ (m >>= f) (chainPost base turns count chained) w :=
  wp_bind_preserves hΦ hm hw hdone (fun _ _ h => h.progressed) fun _ _ h => h.found

/-- Code that keeps what is accounted, at the end of a turn. -/
lemma wp_inside {m : Flow Unit} (hm : Preserves (ChainState base turns count fun _ => False) m)
    (hw : ChainState base turns count (fun _ => False) w) :
    wp Φ m (chainPost base turns count chained) w :=
  wp_mono (hm.wp hw) (fun _ _ _ _ h => h.progressed) (fun _ _ _ _ h => h.progressed)
    fun _ _ _ _ h => h.found

end Inside

/-- A turn that a lifecycle control has superseded has not come to its end. -/
lemma TurnCommand.preemptionRecord_not_produced (command : TurnCommand)
    (decision : Option AgentDecision) (actions : Option (List PersistedItem))
    (executionResults : Option (List ExecutionResult)) (results : List ExecutionResult) :
    ¬ (command.preemptionRecord decision actions executionResults).Produced results :=
  fun h => h.2.2 rfl

/-- A failed turn has not come to its end. -/
lemma TurnCommand.failureRecord_not_produced (command : TurnCommand) (error : ActivityError)
    (results : List ExecutionResult) : ¬ (command.failureRecord error).Produced results :=
  fun h => nomatch h.1

section Turn

variable {Φ : List Obs → Prop} {base : List Obs} {turns : List String} {count chained : ℕ}
  {w : World Runtime Obs} {c : TurnCommand}

/-- A record without results. -/
lemma recordTurn_relates {record : TurnRecord} (hturn : record.turnId ∈ turns)
    (hresults : ∀ results, ¬ record.Produced results) :
    Relates (fun w w' => w = w' ∧ ChainState base turns count (fun _ => False) w)
      (recordTurn record) (recordTurn record) := by
  have hinside := (ChainState.inside base turns count fun _ => False).respects
  refine .bind (hinside.updateFlow rfl) fun _ => .emit fun w w' h => ?_
  refine ⟨by rw [h.1], ?_⟩
  exact h.2.record hturn fun results hproduced => absurd hproduced (hresults results)

lemma turnFailed_preserves (hturn : c.turnId ∈ turns) (progress : TurnProgress)
    (error : ActivityError) :
    Preserves (ChainState base turns count fun _ => False) (turnFailed c progress error) := by
  have hinside := (ChainState.inside base turns count fun _ => False).respects
  refine (Relates.bind hinside.preemptionPending fun pending => ?_).preserves
  split
  · exact recordTurn_relates hturn (c.preemptionRecord_not_produced _ _ _)
  · refine .bind (recordTurn_relates hturn (c.failureRecord_not_produced error)) fun _ => ?_
    refine .bind hinside.uuid4 fun _ => .bind (hinside.executeActivity rfl _) fun _ => ?_
    exact hinside.updateFlow rfl

lemma recordPreemptedTurn_preserves (hturn : c.turnId ∈ turns) (decision : Option AgentDecision)
    (actions : Option (List PersistedItem)) (executionResults : Option (List ExecutionResult)) :
    Preserves (ChainState base turns count fun _ => False)
      (recordPreemptedTurn c decision actions executionResults) :=
  (recordTurn_relates hturn (c.preemptionRecord_not_produced _ _ _)).preserves

/-- The progress of a nested turn counts for the turn it was chained from. -/
lemma Progressed.trans {new : List String} {rest : ℕ} {parked : InterventionCommand → Prop}
    (h : Progressed base (turns ++ new) (count + new.length) rest parked w)
    (hlength : new.length + rest ≤ chained) : Progressed base turns count chained parked w := by
  obtain ⟨more, hmore, haccounted⟩ := h
  refine ⟨new ++ more, ?_, ?_⟩
  · rw [List.length_append]
    omega
  · rw [List.length_append, ← List.append_assoc, ← Nat.add_assoc]
    exact haccounted

lemma Found.trans {new : List String} {rest : ℕ} (h : Found base (turns ++ new) rest w)
    (hlength : new.length + rest ≤ chained) : Found base turns chained w := by
  obtain ⟨more, hmore, hlogged⟩ := h
  refine ⟨new ++ more, ?_, ?_⟩
  · rw [List.length_append]
    omega
  · rw [← List.append_assoc]
    exact hlogged

/-- The `except` clause of a turn, also around the turns chained to it. -/
lemma wp_turnFailed (hturn : c.turnId ∈ turns) {progress : TurnProgress} {error : ActivityError}
    (hw : Progressed base turns count chained (fun _ => False) w) :
    wp Φ (turnFailed c progress error) (chainPost base turns count chained) w := by
  obtain ⟨new, hnew, haccounted⟩ := hw
  have hturn' : c.turnId ∈ turns ++ new := List.mem_append_left _ hturn
  have hrest : new.length + 0 ≤ chained := hnew
  exact wp_mono (wp_inside (turnFailed_preserves hturn' progress error) haccounted)
    (fun _ _ _ _ h => h.trans hrest) (fun _ _ _ _ h => h.trans hrest)
    fun _ _ _ _ h => h.trans hrest

variable (hΦ : PrefixClosed Φ)
include hΦ

/-- The intervention at the chain limit. -/
lemma wp_reportLimit {command : InterventionCommand}
    (hw : ChainState base turns count (fun c => False ∨ c = command)
      (observed (.started (.recordProcessIntervention command)) w)) :
    wp Φ (recordIntervention command >>= fun _ => update (.park .operator))
      (chainPost base turns count chained) w := by
  refine wp_bind hΦ (wp_executeActivity hΦ
    (ChainState base turns count fun c => False ∨ c = command)
    (fun i _ h _ => (ChainState.inside _ _ _ _).absorb i h) hw ?_ ?_ fun _ h => h.found)
  · intro w reply value h hreply _
    refine wp_update fun _ => ⟨[], Nat.zero_le _, ?_⟩
    rw [List.append_nil]
    have hended := (ChainState.inside base turns count _).observe
      (.completed (.recordProcessIntervention command) reply) h
    have hparked := (ChainState.inside base turns count _).update (u := .park .operator) rfl hended
    exact hparked.mono fun _ _ => ⟨rfl, rfl⟩
  · intro w reply error h hreply _
    refine ⟨[], Nat.zero_le _, ?_⟩
    rw [List.append_nil]
    cases reply with
    | intervention answer =>
        obtain rfl := Option.some.inj hreply
        exact ⟨h.logged.failed, h.injective, h.fresh, h.count⟩
    | _ => cases hreply

/-- The end of a turn: its results are chained, handed to an operator, or there are none. -/
lemma wp_settleTurn {chain : Option (TurnSources → Flow Unit)}
    (hchain : ∀ next ∈ chain, turns.length ≤ chainLimit ∧ ∀ sources w,
      ChainState base turns count (fun _ => False) w →
      wp Φ (next sources) (chainPost base turns count chained) w)
    (hturn : c.turnId ∈ turns) {d : AgentDecision} {items : List PersistedItem}
    {o : Option ProcessOutcome} {results : List ExecutionResult} {requiresApproval : Bool}
    (hw : ChainState base turns count (fun _ => False) w) :
    wp Φ (settleTurn chain c d items o results requiresApproval)
      (chainPost base turns count chained) w := by
  have hinside := (ChainState.inside base turns count fun _ => False).respects
  cases results with
  | nil =>
      refine wp_inside (Relates.preserves ?_) hw
      have hrecord : ∀ results, ¬ (c.completionRecord d items [] false).Produced results := by
        intro results h
        exact h.2.1 (Option.some.inj h.1).symm
      refine .bind (recordTurn_relates hturn hrecord) fun _ => ?_
      rw [if_neg (by simp)]
      refine .bind (hinside.gets fun _ => rfl) fun pending => ?_
      split
      · split
        · exact hinside.applyTurnOutcome o d
        · exact hinside.updateFlow rfl
      · exact hinside.applyTurnOutcome o d
  | cons r rest =>
      unfold settleTurn
      dsimp only
      rw [wp_recordTurn_bind, if_pos (by simp)]
      have happended := (ChainState.inside base turns count fun _ => False).update
        (u := .appendTurnRecord (c.completionRecord d items (r :: rest) chain.isNone)) rfl hw
      cases chain with
      | some next =>
          obtain ⟨hlength, hnext⟩ := hchain next rfl
          refine hnext _ _ (happended.record hturn fun _ _ => ?_)
          rw [List.getElem?_eq_none hlength]
          exact fun h => nomatch h
      | none =>
          dsimp only
          rw [wp_uuid4_bind]
          refine wp_reportLimit hΦ ?_
          have hdrawn := (ChainState.inside base turns count fun _ => False).draw happended
          refine ⟨happended.logged.limit hturn ?_, hdrawn.injective, hdrawn.fresh, hdrawn.count⟩
          intro results hproduced
          obtain rfl : r :: rest = results := Option.some.inj hproduced.1
          exact ⟨rfl, rfl, rfl⟩

/-- The rest of a turn once its process state is persisted. -/
lemma wp_finishTurn {chain : Option (TurnSources → Flow Unit)}
    (hchain : ∀ next ∈ chain, turns.length ≤ chainLimit ∧ ∀ sources w,
      ChainState base turns count (fun _ => False) w →
      wp Φ (next sources) (chainPost base turns count chained) w)
    (hturn : c.turnId ∈ turns) {d : AgentDecision} {items : List PersistedItem}
    {o : Option ProcessOutcome} (hw : ChainState base turns count (fun _ => False) w) :
    wp Φ (finishTurn chain c d items o) (chainPost base turns count chained) w := by
  have hinside := (ChainState.inside base turns count fun _ => False).respects
  refine wp_bind_inside hΦ (hinside.executeActions items [] false).preserves hw ?_
  intro ending w hw
  cases ending with
  | preempted results => exact wp_inside (recordPreemptedTurn_preserves hturn _ _ _) hw
  | failed results error => exact wp_turnFailed hturn hw.progressed
  | finished results requiresApproval =>
      dsimp only
      rw [wp_preemptionPending_bind]
      split
      · exact wp_inside (recordPreemptedTurn_preserves hturn _ _ _) hw
      · refine wp_bind hΦ (wp_attempt hΦ (wp_mono (wp_settleTurn hΦ hchain hturn hw) ?_ ?_ ?_))
        · exact fun _ w _ _ h => wp_pure fun _ => h
        · intro e w _ _ h
          cases e with
          | activity error => exact wp_turnFailed hturn h
          | application message => exact h
        · exact fun _ _ _ _ h => h

lemma wp_persistTurn {chain : Option (TurnSources → Flow Unit)}
    (hchain : ∀ next ∈ chain, turns.length ≤ chainLimit ∧ ∀ sources w,
      ChainState base turns count (fun _ => False) w →
      wp Φ (next sources) (chainPost base turns count chained) w)
    (hturn : c.turnId ∈ turns) {d : AgentDecision}
    (hw : ChainState base turns count (fun _ => False) w) :
    wp Φ (persistTurn chain c d) (chainPost base turns count chained) w := by
  have hinside := (ChainState.inside base turns count fun _ => False).respects
  rw [persistTurn, wp_preemptionPending_bind]
  split
  · exact wp_inside (recordPreemptedTurn_preserves hturn _ _ _) hw
  refine wp_bind_inside hΦ (attempt_relates (hinside.executeActivity rfl _)).preserves hw ?_
  intro answer w hw
  cases answer with
  | error error => exact wp_turnFailed hturn hw.progressed
  | ok items =>
      dsimp only
      rw [projectTurn, wp_preemptionPending_bind]
      split
      · exact wp_inside (recordPreemptedTurn_preserves hturn _ _ _) hw
      refine wp_bind_inside hΦ (attempt_relates (hinside.executeActivity rfl _)).preserves hw ?_
      intro answer w hw
      cases answer with
      | error error => exact wp_turnFailed hturn hw.progressed
      | ok outcome => exact wp_finishTurn hΦ hchain hturn hw

/-- The body of a turn, which is started with its first try of `run_agent_turn`. -/
lemma wp_turnBody {chain : Option (TurnSources → Flow Unit)} (hnew : c.turnId ∉ turns)
    (hchain : ∀ next ∈ chain, (turns ++ [c.turnId]).length ≤ chainLimit ∧ ∀ sources w,
      ChainState base (turns ++ [c.turnId]) count (fun _ => False) w →
      wp Φ (next sources) (chainPost base (turns ++ [c.turnId]) count chained) w)
    (hw : ChainState base turns count (fun _ => False) w)
    (hfresh : ∀ n, w.self.uuids n ≠ c.turnId) :
    wp Φ (turnBody chain c)
      ⟨fun _ w => Progressed base (turns ++ [c.turnId]) count chained
          (fun _ => w.self.mailbox.ParkedForOperator) w,
        fun _ => Progressed base (turns ++ [c.turnId]) count chained fun _ => False,
        fun _ => Found base turns (chained + 1)⟩ w := by
  have hturn : c.turnId ∈ turns ++ [c.turnId] := by simp
  have hinside := ChainState.inside base (turns ++ [c.turnId]) count fun _ => False
  have hfound : ∀ {v}, Found base (turns ++ [c.turnId]) chained v →
      Found base turns (chained + 1) v :=
    fun h => h.trans (by simp [Nat.add_comm])
  have hstarted : ∀ {v}, ChainState base turns count (fun _ => False) v →
      (∀ n, v.self.uuids n ≠ c.turnId) →
      ChainState base (turns ++ [c.turnId]) count (fun _ => False)
        (observed (.started (.runAgentTurn c)) v) := by
    intro v hv hfresh
    refine ⟨hv.logged.start hnew, hv.injective, fun n hmem => ?_, hv.count⟩
    rcases List.mem_append.mp hmem with hmem | hmem
    · exact hv.fresh n hmem
    · exact hfresh n (List.mem_singleton.mp hmem)
  -- the first try finds the turn not yet started, the later ones find it started
  refine wp_bind hΦ (wp_attempt hΦ (wp_retryWhileSuspended hΦ
    (fun v => (ChainState base turns count (fun _ => False) v ∧ ∀ n, v.self.uuids n ≠ c.turnId) ∨
      ChainState base (turns ++ [c.turnId]) count (fun _ => False) v)
    (ChainState base (turns ++ [c.turnId]) count fun _ => False)
    (fun i _ h _ => hinside.absorb i h) (fun _ h => .inr h) (.inl ⟨hw, hfresh⟩) ?_ ?_ ?_))
  · intro v hv
    have hrunning : ChainState base (turns ++ [c.turnId]) count (fun _ => False)
        (observed (.started (.runAgentTurn c)) v) := by
      rcases hv with ⟨hv, hfresh⟩ | hv
      · exact hstarted hv hfresh
      · exact ⟨hv.logged.restart hturn, hv.injective, hv.fresh, hv.count⟩
    refine wp_executeActivity hΦ _ (fun i _ h _ => hinside.absorb i h) hrunning ?_ ?_
      fun v hv => hfound hv.found
    · intro v reply d hv _ _
      have hanswered := hinside.observe (.completed (.runAgentTurn c) reply) hv
      exact wp_mono (wp_persistTurn hΦ hchain hturn hanswered) (fun _ _ _ _ h => h)
        (fun _ _ _ _ h => h) fun _ _ _ _ h => hfound h
    · intro v reply error hv _ _
      have hanswered := hinside.observe (.completed (.runAgentTurn c) reply) hv
      dsimp only
      split
      · exact hanswered
      · exact wp_mono (wp_turnFailed hturn hanswered.progressed) (fun _ _ _ _ h => h)
          (fun _ _ _ _ h => h) fun _ _ _ _ h => hfound h
  · exact fun v hv _ => wp_pure fun _ => hv.progressed
  · intro v hv
    rcases hv with ⟨hv, -⟩ | hv
    · exact hv.found
    · exact hfound hv.found

end Turn

/-! ### Chains -/

/-- The `finally` clause counts the turn. -/
lemma Progressed.ended {base : List Obs} {turns : List String} {count chained : ℕ} {id : String}
    {parked : InterventionCommand → Prop} {w : World Runtime Obs}
    (h : Progressed base (turns ++ [id]) count chained parked w) :
    Progressed base turns count (chained + 1) parked (updated .endTurn w) := by
  obtain ⟨new, hnew, haccounted⟩ := h
  refine ⟨id :: new, Nat.succ_le_succ hnew, ?_⟩
  have hturns : turns ++ id :: new = turns ++ [id] ++ new := (List.append_cons turns id new)
  have hcount : w.self.mailbox.completedTurnCount = count + new.length := haccounted.count
  refine ⟨hturns ▸ haccounted.logged, haccounted.injective, hturns ▸ haccounted.fresh, ?_⟩
  show w.self.mailbox.completedTurnCount + 1 = count + (new.length + 1)
  omega

/-- What a call of `_run_turn` establishes: what its turns do, and that none is in progress
afterwards. -/
def turnPost (base : List Obs) (turns : List String) (count chained : ℕ)
    (before : World Runtime Obs) : Post Runtime Obs Await Failure Unit where
  done := fun _ w => (w.self.mailbox.turnInProgress = false ∨ w = before) ∧
    Progressed base turns count chained (fun _ => w.self.mailbox.ParkedForOperator) w
  raised := fun _ w => w.self.mailbox.turnInProgress = false ∧
    Progressed base turns count chained (fun _ => False) w
  blocked := fun _ => Found base turns chained

section Chain

variable {Φ : List Obs → Prop} (hΦ : PrefixClosed Φ)
include hΦ

lemma wp_turn_chain {base : List Obs} {turns : List String} {count chained : ℕ}
    {w : World Runtime Obs} {chain : Option (TurnSources → Flow Unit)} {sources : TurnSources}
    (hchain : ∀ next ∈ chain, turns.length + 1 ≤ chainLimit ∧ ∀ id sources w,
      ChainState base (turns ++ [id]) count (fun _ => False) w →
      wp Φ (next sources) (chainPost base (turns ++ [id]) count chained) w)
    (hw : ChainState base turns count (fun _ => False) w) :
    wp Φ (turn chain sources) (turnPost base turns count (chained + 1) w) w := by
  rw [turn, wp_gets_bind]
  cases hcommand : w.self.turnCommand (w.self.uuids 0) sources with
  | none => exact wp_pure fun _ => ⟨.inr rfl, hw.progressed⟩
  | some c =>
      have hid : c.turnId = w.self.uuids 0 := by
        unfold Runtime.turnCommand at hcommand
        split at hcommand
        · rw [← Option.some.inj hcommand]
        · cases hcommand
      have hnew : c.turnId ∉ turns := hid ▸ hw.fresh 0
      have hlater : ∀ n, w.self.uuids (n + 1) ≠ c.turnId := by
        intro n heq
        exact absurd (hw.injective (heq.trans hid)) (Nat.succ_ne_zero n)
      have hdrawn := (ChainState.inside base turns count fun _ => False).draw hw
      have hbegun : ChainState base turns count (fun _ => False) (updated .beginTurn (drawn w)) :=
        ⟨hdrawn.logged, hdrawn.injective, hdrawn.fresh, hdrawn.count⟩
      have hnext : ∀ next ∈ chain, (turns ++ [c.turnId]).length ≤ chainLimit ∧ ∀ sources w,
          ChainState base (turns ++ [c.turnId]) count (fun _ => False) w →
          wp Φ (next sources) (chainPost base (turns ++ [c.turnId]) count chained) w := by
        intro next hmem
        obtain ⟨hlength, hrun⟩ := hchain next hmem
        rw [List.length_append]
        exact ⟨hlength, hrun c.turnId⟩
      dsimp only
      rw [wp_uuid4_bind, wp_update_bind]
      refine wp_onExit (wp_mono (wp_turnBody hΦ hnew hnext hbegun hlater) ?_ ?_
        fun _ _ _ _ h => h)
      · exact fun _ w' _ _ h => ⟨.inl rfl, h.ended⟩
      · exact fun _ w' _ _ h => ⟨rfl, h.ended⟩

/-- **Chains of turns**: with `remaining` turns that may still be chained, a call of `_run_turn`
starts at most one more, counts exactly those it has started once it is over, and hands the
results of the last to an operator. -/
theorem wp_runTurn_chain {base : List Obs} (remaining : ℕ) {turns : List String} {count : ℕ}
    {w : World Runtime Obs} {sources : TurnSources}
    (hlength : turns.length + remaining ≤ chainLimit)
    (hw : ChainState base turns count (fun _ => False) w) :
    wp Φ (runTurn remaining sources) (turnPost base turns count (remaining + 1) w) w := by
  induction remaining generalizing turns w sources with
  | zero => exact wp_turn_chain hΦ (fun _ h => nomatch h) hw
  | succ remaining ih =>
      refine wp_turn_chain hΦ (fun next hnext => ?_) hw
      obtain rfl := Option.some.inj hnext
      refine ⟨by omega, fun id sources w hw => ?_⟩
      have hlength' : (turns ++ [id]).length + remaining ≤ chainLimit := by
        rw [List.length_append, List.length_singleton]
        omega
      exact wp_mono (ih hlength' hw) (fun _ _ _ _ h => h.2) (fun _ _ _ _ h => h.2)
        fun _ _ _ _ h => h

end Chain

/-! ### The branches of the loop -/

/-- What a branch keeps until it starts a turn. -/
def Untouched (base : List Obs) (count : ℕ) (b : Bool) (w : World Runtime Obs) : Prop :=
  ChainState base [] count (fun _ => False) w ∧ w.self.mailbox.turnInProgress = b

lemma untouched_inside (base : List Obs) (count : ℕ) (b : Bool) :
    InsideInvariant (Untouched base count b) :=
  (ChainState.inside base [] count fun _ => False).and (turnInProgress_inside b)

/-- What the loop body establishes: what the chain of its turn does, and that no turn is in
progress afterwards unless none was started. -/
def branchPost (base : List Obs) (count : ℕ) (b : Bool) :
    Post Runtime Obs Await Failure Unit where
  done := fun _ w => (w.self.mailbox.turnInProgress = false ∨ Untouched base count b w) ∧
    Progressed base [] count (chainLimit + 1) (fun _ => w.self.mailbox.ParkedForOperator) w
  raised := fun _ w => (w.self.mailbox.turnInProgress = false ∨ Untouched base count b w) ∧
    Progressed base [] count (chainLimit + 1) (fun _ => False) w
  blocked := fun _ => Found base [] (chainLimit + 1)

section Branches

variable {Φ : List Obs → Prop} (hΦ : PrefixClosed Φ) {base : List Obs} {count : ℕ} {b : Bool}
  {w : World Runtime Obs}
include hΦ

lemma wp_branch_turn {sources : TurnSources} (hw : Untouched base count b w) :
    wp Φ (runTurn chainLimit sources) (branchPost base count b) w := by
  refine wp_mono (wp_runTurn_chain hΦ chainLimit (by simp) hw.1) ?_ ?_ fun _ _ _ _ h => h
  · rintro _ w' - - ⟨hidle | rfl, hprogressed⟩
    · exact ⟨.inl hidle, hprogressed⟩
    · exact ⟨.inr hw, hprogressed⟩
  · exact fun _ w' _ _ h => ⟨.inl h.1, h.2⟩

/-- Code that starts no turn, before the rest of a branch. -/
lemma wp_bind_untouched {β : Type} {m : Flow β} {f : β → Flow Unit}
    (hm : Preserves (Untouched base count b) m) (hw : Untouched base count b w)
    (hdone : ∀ a w, Untouched base count b w → wp Φ (f a) (branchPost base count b) w) :
    wp Φ (m >>= f) (branchPost base count b) w :=
  wp_bind_preserves hΦ hm hw hdone (fun _ _ h => ⟨.inr h, h.1.progressed⟩) fun _ _ h => h.1.found

omit hΦ in
/-- A branch that starts no turn. -/
lemma wp_untouched {m : Flow Unit} (hm : Preserves (Untouched base count b) m)
    (hw : Untouched base count b w) : wp Φ m (branchPost base count b) w :=
  wp_mono (hm.wp hw) (fun _ _ _ _ h => ⟨.inr h, h.1.progressed⟩)
    (fun _ _ _ _ h => ⟨.inr h, h.1.progressed⟩) fun _ _ _ _ h => h.1.found

lemma wp_waitCondition_chain (hw : Untouched base count b w) :
    wp Φ waitCondition (branchPost base count b) w := by
  have hinside := untouched_inside base count b
  rw [waitCondition, wp_gets_bind]
  refine wp_suspend hΦ _ hw (fun i _ h _ => hinside.absorb i h) ?_ fun _ h => h.1.found
  intro i w a obs hw hwake _
  cases i with
  | task now suggested =>
      simp only [Option.ite_none_right_eq_some, Option.some.injEq, Prod.mk.injEq] at hwake
      obtain ⟨-, -, rfl⟩ := hwake
      rw [List.append_nil]
      exact ⟨.inr hw, hw.1.progressed⟩
  | signal s => cases hwake
  | reply reply => cases hwake
  | commit c => cases hwake

lemma wp_handleReview_chain {review : MailboxReview} (hw : Untouched base count b w) :
    wp Φ (handleReview review) (branchPost base count b) w := by
  have hinside := untouched_inside base count b
  rw [handleReview, wp_update_bind, wp_gets_bind, wp_update_bind, wp_update_bind]
  have hstarted := fun record => hinside.woken record hw
  split
  · refine wp_bind_untouched hΦ (hinside.respects.executePendingAction _ _).preserves
      (hstarted _) ?_
    intro execution w hw
    cases execution with
    | none => exact wp_pure fun _ => ⟨.inr hw, hw.1.progressed⟩
    | some execution => exact wp_branch_turn hΦ hw
  · split
    · rw [wp_update_bind]
      exact wp_branch_turn hΦ (hinside.update rfl (hstarted _))
    · split
      · exact wp_branch_turn hΦ (hstarted _)
      · exact wp_pure fun _ => ⟨.inr (hstarted _), (hstarted _).1.progressed⟩

lemma wp_handleControl_chain {control : MailboxControl} (hw : Untouched base count b w) :
    wp Φ (handleControl control) (branchPost base count b) w := by
  have hinside := untouched_inside base count b
  rw [handleControl, wp_update_bind]
  have hstarted := hinside.update (u := .start) rfl hw
  split
  · exact wp_untouched (hinside.respects.updateFlow rfl).preserves hstarted
  · split
    · rw [wp_update_bind]
      exact wp_branch_turn hΦ (hinside.update rfl hstarted)
    · exact wp_pure fun _ => ⟨.inr hstarted, hstarted.1.progressed⟩

lemma wp_handleTimer_chain (hw : Untouched base count b w) :
    wp Φ handleTimer (branchPost base count b) w := by
  have hinside := untouched_inside base count b
  rw [handleTimer, wp_gets_bind, wp_update_bind, wp_gets_bind, wp_update_bind, wp_update_bind]
  have hstarted := fun record => hinside.woken record hw
  split
  · exact wp_branch_turn hΦ (hstarted _)
  · exact wp_pure fun _ => ⟨.inr (hstarted _), (hstarted _).1.progressed⟩

lemma wp_handleEvent_chain {reason : String} {event : MailboxEvent}
    (hw : Untouched base count b w) :
    wp Φ (handleEvent reason event) (branchPost base count b) w := by
  have hinside := untouched_inside base count b
  rw [handleEvent, wp_update_bind]
  refine wp_bind_untouched hΦ (Relates.bind (hinside.respects.gets fun _ => rfl)
    fun _ => hinside.respects.updateFlow rfl).preserves (hinside.update rfl hw) ?_
  intro _ w hw
  rw [wp_update_bind]
  exact wp_branch_turn hΦ (hinside.update rfl hw)

lemma wp_body_chain (branch : Branch) (hw : Untouched base count b w) :
    wp Φ branch.body (branchPost base count b) w := by
  have hinside := untouched_inside base count b
  cases branch with
  | initial index event =>
      show wp Φ (handleInitial event) _ w
      rw [handleInitial, wp_update_bind]
      refine wp_bind_untouched hΦ (Relates.bind (hinside.respects.gets fun _ => rfl)
        fun _ => hinside.respects.updateFlow rfl).preserves (hinside.update rfl hw) ?_
      exact fun _ w hw => wp_branch_turn hΦ hw
  | review command => exact wp_handleReview_chain hΦ hw
  | actionResolution resolution =>
      show wp Φ (handleActionResolution resolution) _ w
      rw [handleActionResolution, wp_update_bind, wp_update_bind, wp_update_bind]
      exact wp_branch_turn hΦ (hinside.update rfl (hinside.update rfl (hinside.update rfl hw)))
  | control command => exact wp_handleControl_chain hΦ hw
  | manualWake index event => exact wp_handleEvent_chain hΦ hw
  | matching index event => exact wp_handleEvent_chain hΦ hw
  | timer => exact wp_handleTimer_chain hΦ hw
  | wait => exact wp_waitCondition_chain hΦ hw

lemma wp_iteration_chain (hw : Untouched base count b w) :
    wp Φ iteration (branchPost base count b) w := by
  rw [iteration, wp_gets_bind, Branch.takeMessage]
  cases hsource : (w.self.mailbox.nextBranch w.self.now).source with
  | none => exact wp_body_chain hΦ _ hw
  | some source =>
      dsimp only
      rw [wp_take_bind]
      refine wp_body_chain hΦ _ ⟨⟨hw.1.logged.concat_other rfl, hw.1.injective, hw.1.fresh, ?_⟩, ?_⟩
      · cases source <;> exact hw.1.count
      · cases source <;> exact hw.2

end Branches

/-! ### The bound -/

/-- The call has returned or raised. -/
def CallOver : Res Runtime Input Obs Await Failure Unit → Prop
  | .done _ _ _ => True
  | .raised _ _ _ => True
  | .blocked _ _ => False

/-- What an intervention at the chain limit leads to if it does not fail: the mailbox waits for
an operator once the call returns. -/
def LimitParked : Res Runtime Input Obs Await Failure Unit → InterventionCommand → Prop
  | .done _ w _, _ => w.self.mailbox.ParkedForOperator
  | .raised _ _ _, _ => False
  | .blocked _ _, _ => True

/-- What is observed of a call that was made in `w`. -/
def observedSince (w : World Runtime Obs) (r : Res Runtime Input Obs Await Failure Unit) :
    List Obs :=
  r.world.log.drop w.log.length

/-- A bounded chain of turns: at most six are started, the results a sixth turn comes to its end
with are handed to an operator, and once the call is over its turns are counted and none is in
progress. -/
structure ChainBounded (w : World Runtime Obs) (r : Res Runtime Input Obs Await Failure Unit) :
    Prop where
  bounded : (startedTurns (observedSince w r)).length ≤ chainLimit + 1
  reported : LimitReported (LimitParked r) (observedSince w r)
  counted : CallOver r → r.world.self.mailbox.completedTurnCount =
    w.self.mailbox.completedTurnCount + (startedTurns (observedSince w r)).length
  idle : CallOver r → r.world.self.mailbox.turnInProgress = false ∨
    startedTurns (observedSince w r) = [] ∧
      r.world.self.mailbox.turnInProgress = w.self.mailbox.turnInProgress

lemma Logged.since {base log : List Obs} {turns : List String}
    {parked : InterventionCommand → Prop} (h : Logged base turns parked log) :
    startedTurns (log.drop base.length) = turns ∧ LimitReported parked (log.drop base.length) := by
  obtain ⟨since, rfl, hturns, -, hlimit⟩ := h.grown
  rw [List.drop_left]
  exact ⟨hturns, hlimit⟩

/-- A result that meets the postcondition of the branches is that of a bounded chain. -/
lemma chainBounded_of_holds {w : World Runtime Obs}
    {r : Res Runtime Input Obs Await Failure Unit}
    (h : (branchPost w.log w.self.mailbox.completedTurnCount w.self.mailbox.turnInProgress).Holds
      (fun _ => True) r) : ChainBounded w r := by
  cases r with
  | done a w' rest =>
      obtain ⟨hidle, new, hnew, haccounted⟩ := h trivial
      obtain ⟨hturns, hlimit⟩ := haccounted.logged.since
      have hturns : startedTurns (w'.log.drop w.log.length) = new := hturns
      refine ⟨hturns ▸ hnew, hlimit, fun _ => hturns ▸ haccounted.count, fun _ => ?_⟩
      exact hidle.imp_right fun hsame => ⟨hsame.1.logged.since.1, hsame.2⟩
  | raised e w' rest =>
      obtain ⟨hidle, new, hnew, haccounted⟩ := h trivial
      obtain ⟨hturns, hlimit⟩ := haccounted.logged.since
      have hturns : startedTurns (w'.log.drop w.log.length) = new := hturns
      refine ⟨hturns ▸ hnew, hlimit, fun _ => hturns ▸ haccounted.count, fun _ => ?_⟩
      exact hidle.imp_right fun hsame => ⟨hsame.1.logged.since.1, hsame.2⟩
  | blocked l w' =>
      obtain ⟨new, hnew, hlogged⟩ := h trivial
      obtain ⟨hturns, hlimit⟩ := hlogged.since
      have hturns : startedTurns (w'.log.drop w.log.length) = new := hturns
      exact ⟨hturns ▸ hnew, hlimit, False.elim, False.elim⟩

/-- **Chains of turns are bounded**: whatever the loop takes up and whatever its Activities
answer, `_run_turn` starts at most six turns and counts exactly these, and the results of a sixth
turn that neither a lifecycle control nor an error ends are handed to an operator, who is then
the only one waited for unless that fails. -/
theorem chain_bounded (w : World Runtime Obs) (hunique : Function.Injective w.self.uuids)
    (script : List Input) :
    (∀ sources, ChainBounded w ((runTurn chainLimit sources).run script w)) ∧
      ChainBounded w (iteration.run script w) := by
  have hΦ : PrefixClosed fun _ : List Obs => True := fun _ _ _ _ => trivial
  have hw : Untouched w.log w.self.mailbox.completedTurnCount w.self.mailbox.turnInProgress w :=
    ⟨⟨.init _ _, hunique, fun n => by simp, rfl⟩, rfl⟩
  exact ⟨fun sources => chainBounded_of_holds (wp_branch_turn hΦ hw script),
    chainBounded_of_holds (wp_iteration_chain hΦ hw script)⟩

/-! ### Runs with six turns -/

lemma completed_wakes : DecisionStatus.completed = .waiting → ([] : List WakeCondition) ≠ [] :=
  fun h => nomatch h

/-- A decision of a turn of a chain. -/
def chainedDecision : AgentDecision where
  decisionId := "decision"
  basedOnEventIds := []
  status := .completed
  waitingWakes := completed_wakes

/-- What is answered to a turn whose actions are allowed, until it executes them. -/
def actingTurn (items : List PersistedItem) : List Input :=
  [.reply (.turn (.ok chainedDecision)), .reply (.actions (.ok items)),
    .reply (.processState (.ok none))]

/-- The answer of an executed action. -/
def executedReply : Input := .reply (.executed (.ok ⟨"attempt", .succeeded⟩))

/-- Six turns with a result each, the last one's handed to an operator. -/
def sixTurns : List Input :=
  (List.replicate 6 (actingTurn [⟨"action", 1, .allow⟩] ++ [executedReply])).flatten ++
    [.reply (.intervention (.ok ()))]

/-- A workflow with a process definition that draws the identities `t`, `tt` and so on. -/
def numberedWorld : World Runtime Obs :=
  ⟨{ mailbox := { processDefinitionId := some "definition", processDefinitionVersion := some "1" }
     input := { tenantId := "tenant", processInstanceId := "process" }
     running := true
     now := 0
     suggested := false
     uuids := fun n => String.ofList (List.replicate n 't') }, []⟩

lemma numberedWorld_injective : Function.Injective numberedWorld.self.uuids := by
  intro n m h
  have hlist : List.replicate n 't' = List.replicate m 't' := String.ofList_injective h
  simpa using congrArg List.length hlist

/-- The results of a sixth turn are handed to an operator. -/
theorem chain_bounded_six :
    ChainBounded numberedWorld ((runTurn chainLimit { eventIds := ["event"] }).run sixTurns
        numberedWorld) ∧
      (startedTurns ((runTurn chainLimit { eventIds := ["event"] }).run sixTurns
        numberedWorld).world.log).length = 6 :=
  ⟨(chain_bounded numberedWorld numberedWorld_injective sixTurns).1 _, rfl⟩

/-- Five turns with a result each and a sixth whose second action is executed by a worker of
another release; the failure is recorded. -/
def sixthFails : List Input :=
  (List.replicate 5 (actingTurn [⟨"action", 1, .allow⟩] ++ [executedReply])).flatten ++
    actingTurn [⟨"action", 1, .allow⟩, ⟨"other", 1, .allow⟩] ++
    [executedReply, .reply (.executed (.error
      ⟨"process client pack does not match worker", [some deploymentCompatibilityError]⟩)),
      .reply (.intervention (.ok ()))]

/-- The kinds of the interventions started along a log. -/
def interventionKinds (log : List Obs) : List String :=
  log.filterMap fun
    | .started (.recordProcessIntervention command) => some command.kind
    | _ => none

/-- The result of a sixth turn that a later action fails is not handed to an operator: no
lifecycle control is pending and an action of the turn has given a result, but the only
intervention is that for the failure. -/
theorem sixth_turn_failed_after_result :
    ∃ w rest before command after action result,
      (runTurn chainLimit { eventIds := ["event"] }).run sixthFails numberedWorld =
          .done () w rest ∧
        w.log = before ++ .started (.runAgentTurn command) :: after ∧
        (startedTurns before).length = 5 ∧ command.turnId ∉ startedTurns before ∧
        .completed (.executeAction action) (.executed (.ok result)) ∈ after ∧
        w.self.mailbox.lifecyclePreemptionPending = false ∧
        interventionKinds w.log = ["turn_failure"] :=
  ⟨_, _, _, _, _, _, _, rfl, (List.take_append_drop 45 _).symm, rfl, by decide,
    List.mem_of_getElem? (i := 6) rfl, rfl, rfl⟩

end TiramisuAgents
