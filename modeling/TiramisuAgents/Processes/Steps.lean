import TiramisuAgents.Processes.Calls

/-!
What a step of a call on a process can be.

`ProcessStep` has one case for each transition, with what it has checked and what it commits;
the transitions that end a call without a commit are one case, and so are the steps of the calls
on an action, which are steps of `Actions.Calls`.

* `ProcessStep`, `ProcessStep.of_advance`: the transitions.
* `ProcessStep.process_frame`, `ProcessStep.matched_frame`: what a step leaves as it is when it
  does not hold the process.
* `ProcessStep.matched_kept`: an event of the process stays one.
* `ProcessStep.process_cases`: the three writers of the process row.
-/

namespace TiramisuAgents

variable {V : Type} [BEq V]

/-- The transitions of a call, with what they commit and what is observed. -/
inductive ProcessStep (S : Services V) : ProcessStage V → ProcessInput V → ProcessDatabase V →
    ProcessStage V → ProcessDatabase V → List (ProcessEvent V) → Prop
  | halt {t t' : ProcessStage V} {x : ProcessInput V} {w : ProcessDatabase V}
      (ended : t' = .idle ∨ ∃ o, t' = .done o) : ProcessStep S t x w t' w []
  | start {t : ProcessStage V} {w : ProcessDatabase V} (c : ProcessCall V) (now : Time)
      (exposed : c.exposed = true) : ProcessStep S t (.call c now) w (c.start now) w []
  | act {w : ProcessDatabase V} (a : UUID) (u u' : Stage) (startedAt : Time) (y : Answer)
      (db : Database) (obs : List ActionEvent)
      (open_ : safetyCheck S a startedAt w u = none)
      (moved : next (S.on a) u (.answer y) (w.view a) = some (u', db, obs)) :
      ProcessStep S (.action a u startedAt) (.answer (.action y)) w (.action a u' startedAt)
        (w.put a db startedAt) (obs.map (.action a))
  | inspect {w : ProcessDatabase V} (a : UUID) (u : Stage) (startedAt now : Time)
      (block : Option CommunicationBlock) (checked : safetyCheck S a now w u = some (.ok block)) :
      ProcessStep S (.action a u startedAt) (.answer (.inspection now)) w
        (.inspected a u startedAt now block) w []
  | gate {w : ProcessDatabase V} (a : UUID) (revision : ℕ) (key : String) (row : Loaded)
      (u' : Stage) (startedAt now : Time) (block : Option CommunicationBlock)
      (breakers : Option String) (db : Database) (obs : List ActionEvent)
      (moved : next (S.on a) (.gating revision key row)
        (.answer (.gate (gateBlock block breakers))) (w.view a) = some (u', db, obs)) :
      ProcessStep S (.inspected a (.gating revision key row) startedAt now block)
        (.answer (.breakers breakers)) w (.action a u' startedAt) (w.put a db startedAt)
        (obs.map (.action a) ++
          if (gateBlock block breakers).isNone then [.sent a row.request.actionType now] else [])
  | propose {w : ProcessDatabase V} (a : UUID) (p : Proposal) (u' : Stage) (startedAt now : Time)
      (block : Option CommunicationBlock) (error : Option String) (db : Database)
      (obs : List ActionEvent)
      (moved : next (S.on a) (.persistingLocked p)
        (.answer (.check ((block.map CommunicationBlock.message).or error))) (w.view a)
          = some (u', db, obs)) :
      ProcessStep S (.inspected a (.persistingLocked p) startedAt now block)
        (.answer (.action (.check error))) w (.action a u' startedAt) (w.put a db startedAt)
        (obs.map (.action a))
  | lockDecision {w : ProcessDatabase V} (c : DecisionInput V) :
      ProcessStep S (.applying c .opening) (.answer .go) w (.applying c (.locked w.process)) w []
  | findRevision {w : ProcessDatabase V} (c : DecisionInput V) (row : ProcessRow V)
      (revision : ProcessStateRevision V) (found : w.revisionOf c.agentTurnId = some revision)
      (same : revision.decisionId = c.decision.decisionId) :
      ProcessStep S (.applying c (.locked row)) (.answer .go) w
        (.applying c (.repeating revision)) w []
  | repeatDecision {w : ProcessDatabase V} (c : DecisionInput V)
      (revision : ProcessStateRevision V) :
      ProcessStep S (.applying c (.repeating revision)) (.answer .go) w
        (.done (.applied (revision.result w.openActions))) w
        [.repeated c (revision.result w.openActions)]
  | checkDecision {w : ProcessDatabase V} (c : DecisionInput V) (row : ProcessRow V)
      (newTurn : w.revisionOf c.agentTurnId = none)
      (newDecision : ∀ r ∈ w.revisions, r.decisionId ≠ c.decision.decisionId)
      (unfenced : row.status.fenced = false) :
      ProcessStep S (.applying c (.locked row)) (.answer .go) w (.applying c (.checked row)) w []
  | projectFacts {w : ProcessDatabase V} (c : DecisionInput V) (row : ProcessRow V)
      (events attempts : List (FactSource V)) (facts : FactProjection V)
      (projected : c.project S row events attempts = .ok facts) :
      ProcessStep S (.applying c (.checked row)) (.answer (.sources events attempts)) w
        (.applying c (.projected row facts)) w []
  | projectTransition {w : ProcessDatabase V} (c : DecisionInput V) (row : ProcessRow V)
      (facts : FactProjection V) (transition : ProjectedProcessTransition)
      (projected : c.transition facts w.openActions = .ok transition) :
      ProcessStep S (.applying c (.projected row facts)) (.answer .go) w
        (.applying c (.flushing row facts w.openActions transition)) w []
  | applyDecision {w : ProcessDatabase V} (c : DecisionInput V) (row : ProcessRow V)
      (facts : FactProjection V) (openActions : OpenActions)
      (transition : ProjectedProcessTransition) :
      ProcessStep S (.applying c (.flushing row facts openActions transition)) (.answer .go) w
        (.done (.applied (((row.apply c.decision facts transition).revision c.agentTurnId
          c.decision).result openActions)))
        { w with
          process := row.apply c.decision facts transition
          revisions := w.revisions ++
            [(row.apply c.decision facts transition).revision c.agentTurnId c.decision] }
        [.applied c (((row.apply c.decision facts transition).revision c.agentTurnId
          c.decision).result openActions)]
  | freshIntervention {w : ProcessDatabase V} (v : InterventionInput) :
      ProcessStep S (.intervening v .opening) (.answer .go) w (.intervening v .fresh) w []
  | lockIntervention {w : ProcessDatabase V} (v : InterventionInput) :
      ProcessStep S (.intervening v .fresh) (.answer .go) w
        (.intervening v (.locked w.process)) w []
  | intervene {w : ProcessDatabase V} (v : InterventionInput) (row : ProcessRow V)
      (unique : ∀ r ∈ w.interventions, r.agentTurnId ≠ v.agentTurnId ∧ r.id ≠ v.interventionId) :
      ProcessStep S (.intervening v (.locked row)) (.answer .go) w (.done (.recorded v.row))
        { w with process := row.intervene, interventions := w.interventions ++ [v.row] } []
  | lockCommand {w : ProcessDatabase V} (c : ProcessControlInput) (reason : String)
      (checked : c.checkedReason = .ok reason) :
      ProcessStep S (.controlling c .opening) (.answer .go) w
        (.controlling c (.commanded reason)) w []
  | freshCommand {w : ProcessDatabase V} (c : ProcessControlInput) (reason : String) :
      ProcessStep S (.controlling c (.commanded reason)) (.answer .go) w
        (.controlling c (.fresh reason)) w []
  | lockControl {w : ProcessDatabase V} (c : ProcessControlInput) (reason : String) :
      ProcessStep S (.controlling c (.fresh reason)) (.answer .go) w
        (.controlling c (.locked reason w.process)) w []
  | control {w : ProcessDatabase V} (c : ProcessControlInput) (reason : String)
      (row : ProcessRow V) (write : ControlWrite V) (eventId : UUID) (recordedAt : Time)
      (live : row.status.terminal = false) (written : c.write row w.interventions = .ok write) :
      ProcessStep S (.controlling c (.locked reason row)) (.answer (.wake eventId recordedAt)) w
        (.done (.controlled (c.row reason write.payload)))
        { w with
          process := write.process
          controls := w.controls ++ [c.row reason write.payload]
          interventions := resolveIntervention w.interventions write.resolved c.commandId
          inbox :=
            if c.commandType = .wake ∨ c.commandType = .resume then
              w.inbox ++ [manualWake eventId recordedAt]
            else w.inbox }
        [.controlled (c.row reason write.payload)]
  | correlate {w : ProcessDatabase V} (e : CanonicalEvent V) :
      ProcessStep S (.ingesting e .opening) (.answer (.correlated true)) w
        (.ingesting e .locked) w []
  | ingestPending {w : ProcessDatabase V} (e : CanonicalEvent V) :
      ProcessStep S (.ingesting e .opening) (.answer (.correlated false)) w
        (.done (.received e.eventId)) { w with inbox := w.inbox ++ [e.row .pending] } []
  | ingest {w : ProcessDatabase V} (e : CanonicalEvent V) :
      ProcessStep S (.ingesting e .locked) (.answer .go) w
        (.done (.received e.eventId)) { w with inbox := w.inbox ++ [e.row .matched] } []
  | lockEvent {w : ProcessDatabase V} (eventId : UUID) :
      ProcessStep S (.resolvingEvent eventId .opening) (.answer .go) w
        (.resolvingEvent eventId .eventLocked) w []
  | lockDestination {w : ProcessDatabase V} (eventId : UUID) :
      ProcessStep S (.resolvingEvent eventId .eventLocked) (.answer .go) w
        (.resolvingEvent eventId .locked) w []
  | resolveEvent {w : ProcessDatabase V} (eventId : UUID) :
      ProcessStep S (.resolvingEvent eventId .locked) (.answer .go) w
        (.done (.received eventId)) { w with inbox := matchEvent w.inbox eventId } []

namespace ProcessStep

variable {S : Services V} {t t' u : ProcessStage V} {x : ProcessInput V} {w w' : ProcessDatabase V}
  {obs : List (ProcessEvent V)}

omit [BEq V] in
lemma keep_eq {v : ProcessStage V} (h : v.keep w = some (t', w', obs)) :
    v = t' ∧ w = w' ∧ obs = [] := by
  rw [ProcessStage.keep, Option.some.injEq, Prod.mk.injEq, Prod.mk.injEq] at h
  exact ⟨h.1, h.2.1, h.2.2.symm⟩

lemma of_keep {v : ProcessStage V} (h : v.keep w = some (t', w', obs))
    (hv : ProcessStep S t x w v w []) : ProcessStep S t x w t' w' obs := by
  obtain ⟨rfl, rfl, rfl⟩ := keep_eq h
  exact hv

lemma of_stop {o : CallOutcome} (h : ProcessStage.stop o w = some (t', w', obs)) :
    ProcessStep S t x w t' w' obs :=
  of_keep h (.halt (.inr ⟨o, rfl⟩))

lemma of_some {v : ProcessStage V} {w₁ : ProcessDatabase V} {obs₁ : List (ProcessEvent V)}
    (h : some (v, w₁, obs₁) = some (t', w', obs)) (hv : ProcessStep S t x w v w₁ obs₁) :
    ProcessStep S t x w t' w' obs := by
  rw [Option.some.injEq, Prod.mk.injEq, Prod.mk.injEq] at h
  obtain ⟨rfl, rfl, rfl⟩ := h
  exact hv

/-- A statement of a call on an action. -/
lemma of_action {a : UUID} {stage : Stage} {startedAt : Time} {y : Answer}
    (h : actionStatement S a stage startedAt y w = some (t', w', obs)) :
    ProcessStep S (.action a stage startedAt) (.answer (.action y)) w t' w' obs := by
  have hopen : safetyCheck S a startedAt w stage = none := by
    cases stage <;> first | rfl | cases h
  have hmoved : (next (S.on a) stage (.answer y) (w.view a)).map (fun r =>
      (ProcessStage.action a r.1 startedAt, w.put a r.2.1 startedAt, r.2.2.map (.action a)))
        = some (t', w', obs) := by
    cases stage <;> first | exact h | cases h
  obtain ⟨⟨u', db, obs'⟩, hnext, hr⟩ := Option.map_eq_some_iff.mp hmoved
  exact of_some (congrArg some hr) (.act a stage u' startedAt y db obs' hopen hnext)

/-- The statements after a safety check. -/
lemma of_inspected {a : UUID} {stage : Stage} {startedAt now : Time}
    {block : Option CommunicationBlock} {y : ProcessAnswer V}
    (h : (ProcessStage.inspected a stage startedAt now block).statement S y w
      = some (t', w', obs)) :
    ProcessStep S (.inspected a stage startedAt now block) (.answer y) w t' w' obs := by
  cases y with
  | breakers message =>
      change gateStatement S a stage startedAt now block message w = some (t', w', obs) at h
      unfold gateStatement at h
      split at h
      · obtain ⟨⟨u', db, obs'⟩, hnext, hr⟩ := Option.map_eq_some_iff.mp h
        exact of_some (congrArg some hr) (.gate a _ _ _ u' _ _ _ _ db obs' hnext)
      · cases h
  | action y =>
      cases y with
      | check error =>
          change proposalStatement S a stage startedAt block error w = some (t', w', obs) at h
          unfold proposalStatement at h
          split at h
          · obtain ⟨⟨u', db, obs'⟩, hnext, hr⟩ := Option.map_eq_some_iff.mp h
            exact of_some (congrArg some hr) (.propose a _ u' _ _ _ _ db obs' hnext)
          · cases h
      | _ => cases h
  | _ => cases h

/-- The safety checks. -/
lemma of_inspection {a : UUID} {stage : Stage} {startedAt now : Time}
    (h : inspectStatement S a stage startedAt now w = some (t', w', obs)) :
    ProcessStep S (.action a stage startedAt) (.answer (.inspection now)) w t' w' obs := by
  unfold inspectStatement at h
  split at h
  · exact of_keep h (.inspect a stage _ _ _ ‹_›)
  · exact of_stop h
  · cases h

/-- The checks of `apply_decision` under the lock of the process. -/
lemma of_check {c : DecisionInput V} {row : ProcessRow V}
    (h : c.check row w = some (t', w', obs)) :
    ProcessStep S (.applying c (.locked row)) (.answer .go) w t' w' obs := by
  unfold DecisionInput.check at h
  split at h
  · split_ifs at h with hsame
    · exact of_stop h
    · exact of_keep h (.findRevision c row _ ‹_› (not_not.mp hsame))
  · split_ifs at h with hused hterminal hpaused
    · exact of_stop h
    · exact of_stop h
    · exact of_stop h
    · refine of_keep h (.checkDecision c row ‹_› ?_ ?_)
      · simpa using hused
      · cases hstatus : row.status <;> simp_all [ProcessStatus.terminal, ProcessStatus.fenced]

/-- The statements of `apply_decision`. -/
lemma of_applying {c : DecisionInput V} {a : Applying V} {y : ProcessAnswer V}
    (h : a.statement S c y w = some (t', w', obs)) :
    ProcessStep S (.applying c a) (.answer y) w t' w' obs := by
  unfold Applying.statement at h
  split at h
  · exact of_keep h (.lockDecision c)
  · exact of_check h
  · exact of_some h (.repeatDecision c _)
  · split at h
    · exact of_stop h
    · exact of_keep h (.projectFacts c _ _ _ _ ‹_›)
  · split at h
    · exact of_stop h
    · exact of_keep h (.projectTransition c _ _ _ ‹_›)
  · exact of_some h (.applyDecision c _ _ _ _)
  · cases h

/-- The statements of `record_intervention`. -/
lemma of_intervening {v : InterventionInput} {i : Intervening V} {y : ProcessAnswer V}
    (h : i.statement v y w = some (t', w', obs)) :
    ProcessStep S (.intervening v i) (.answer y) w t' w' obs := by
  unfold Intervening.statement at h
  split at h
  · split at h
    · exact of_stop h
    · exact of_keep h (.freshIntervention v)
  · exact of_keep h (.lockIntervention v)
  · split_ifs at h with hused
    · exact of_stop h
    · refine of_some h (.intervene v _ ?_)
      simpa using hused
  · cases h

/-- The statements of `apply_control`. -/
lemma of_controlling {c : ProcessControlInput} {k : Controlling V} {y : ProcessAnswer V}
    (h : k.statement c y w = some (t', w', obs)) :
    ProcessStep S (.controlling c k) (.answer y) w t' w' obs := by
  unfold Controlling.statement at h
  split at h
  · split at h
    · exact of_stop h
    · exact of_keep h (.lockCommand c _ ‹_›)
  · split at h
    · exact of_stop h
    · exact of_keep h (.freshCommand c _)
  · exact of_keep h (.lockControl c _)
  · split_ifs at h with hterminal
    · exact of_stop h
    · split at h
      · exact of_stop h
      · unfold ProcessControlInput.commit at h
        dsimp only at h
        split at h
        · exact of_stop h
        · exact of_some h (.control c _ _ _ _ _ (by simpa using hterminal) ‹_›)
  · cases h

/-- The statements of `ingest`. -/
lemma of_ingesting {e : CanonicalEvent V} {k : Correlating} {y : ProcessAnswer V}
    (h : e.statement k y w = some (t', w', obs)) :
    ProcessStep S (.ingesting e k) (.answer y) w t' w' obs := by
  unfold CanonicalEvent.statement at h
  split at h
  · split_ifs at h with hreserved hknown hmatched
    · exact of_stop h
    · exact of_stop h
    · rw [hmatched]
      exact of_keep h (.correlate e)
    · rw [Bool.not_eq_true] at hmatched
      rw [hmatched]
      unfold CanonicalEvent.commit at h
      rw [if_neg hknown] at h
      exact of_some h (.ingestPending e)
  · unfold CanonicalEvent.commit at h
    split_ifs at h
    · exact of_stop h
    · exact of_some h (.ingest e)
  · cases h

/-- The statements of `resolve`. -/
lemma of_resolving {eventId : UUID} {k : Correlating} {y : ProcessAnswer V}
    (h : k.resolve eventId y w = some (t', w', obs)) :
    ProcessStep S (.resolvingEvent eventId k) (.answer y) w t' w' obs := by
  unfold Correlating.resolve at h
  split at h
  · exact of_keep h (.lockEvent eventId)
  · split at h
    · exact of_stop h
    · split_ifs at h
      · exact of_stop h
      · exact of_stop h
      · exact of_keep h (.lockDestination eventId)
  · exact of_some h (.resolveEvent eventId)
  · cases h

/-- **The inversion rule**: every step of the code is one of the transitions. -/
theorem of_advance (h : advance S t x w = some (t', w', obs)) : ProcessStep S t x w t' w' obs := by
  cases x with
  | call c now =>
      rw [advance] at h
      split_ifs at h with hresting
      exact of_keep h (.start c now hresting.2)
  | crash => exact of_keep h (.halt (.inl rfl))
  | answer y =>
      rw [advance] at h
      cases t with
      | idle => cases h
      | done o => cases h
      | action a stage startedAt =>
          cases y with
          | action y => exact of_action h
          | inspection now => exact of_inspection h
          | _ => cases h
      | inspected a stage startedAt now block => exact of_inspected h
      | applying c a => exact of_applying h
      | intervening v i => exact of_intervening h
      | controlling c k => exact of_controlling h
      | ingesting e c => exact of_ingesting h
      | resolvingEvent eventId c => exact of_resolving h

/-! ### Frames -/

/-- The rows that only the holder of the process writes. -/
lemma process_frame (h : ProcessStep S t x w t' w' obs) (ht : .process ∉ t.locks) :
    w'.process = w.process ∧ w'.revisions = w.revisions ∧ w'.interventions = w.interventions ∧
      w'.controls = w.controls := by
  cases h with
  | applyDecision => exact absurd (List.mem_singleton_self _) ht
  | intervene => exact absurd (List.mem_singleton_self _) ht
  | control => exact absurd (List.mem_cons_of_mem _ (List.mem_singleton_self _)) ht
  | _ => exact ⟨rfl, rfl, rfl, rfl⟩

/-- The events of the process are matched by its holder. -/
lemma matched_frame (h : ProcessStep S t x w t' w' obs) (ht : .process ∉ t.locks)
    (eventTypes : List String) : w'.matchedEvents eventTypes = w.matchedEvents eventTypes := by
  cases h with
  | control => exact absurd (List.mem_cons_of_mem _ (List.mem_singleton_self _)) ht
  | ingest => exact absurd (List.mem_singleton_self _) ht
  | resolveEvent => exact absurd (List.mem_cons_of_mem _ (List.mem_singleton_self _)) ht
  | ingestPending e =>
      simp [ProcessDatabase.matchedEvents, CanonicalEvent.row]
  | _ => rfl

omit [BEq V] in
lemma mem_matchEvent {inbox : List (InboxRow V)} {r : InboxRow V} (eventId : UUID) (hr : r ∈ inbox)
    (hmatched : r.correlationStatus = .matched) : r ∈ matchEvent inbox eventId := by
  refine List.mem_map.mpr ⟨r, hr, ?_⟩
  split_ifs
  · rw [← hmatched]
  · rfl

/-- An event of the process stays one. -/
lemma matched_kept (h : ProcessStep S t x w t' w' obs) {r : InboxRow V} (hr : r ∈ w.inbox)
    (hmatched : r.correlationStatus = .matched) : r ∈ w'.inbox := by
  cases h with
  | control =>
      dsimp only
      split_ifs
      · exact List.mem_append_left _ hr
      · exact hr
  | ingestPending => exact List.mem_append_left _ hr
  | ingest => exact List.mem_append_left _ hr
  | resolveEvent eventId => exact mem_matchEvent eventId hr hmatched
  | _ => exact hr

/-- The process row is written by a decision, an intervention or a control. -/
lemma process_cases (h : ProcessStep S t x w t' w' obs) :
    w'.process = w.process ∨
    (∃ c row facts openActions transition,
      t = .applying c (.flushing row facts openActions transition) ∧
        w'.process = row.apply c.decision facts transition) ∨
    (∃ v row, t = .intervening v (.locked row) ∧ w'.process = row.intervene) ∨
    ∃ c reason row write, t = .controlling c (.locked reason row) ∧
      (∃ eventId now, x = .answer (.wake eventId now)) ∧
      t' = .done (.controlled (c.row reason write.payload)) ∧ row.status.terminal = false ∧
      c.write row w.interventions = .ok write ∧ w'.process = write.process := by
  cases h with
  | applyDecision c row facts openActions transition =>
      exact .inr (.inl ⟨c, row, facts, openActions, transition, rfl, rfl⟩)
  | intervene v row => exact .inr (.inr (.inl ⟨v, row, rfl, rfl⟩))
  | control c reason row write eventId recordedAt hlive hwritten =>
      exact .inr (.inr (.inr
        ⟨c, reason, row, write, rfl, ⟨eventId, recordedAt, rfl⟩, rfl, hlive, hwritten, rfl⟩))
  | _ => exact .inl rfl

end ProcessStep

/-- A step of a pool is a transition of one call. -/
lemma process_step_cases {S : Services V} {n : ℕ}
    {s s' : Transactions.Pool n (ProcessDatabase V) (ProcessStage V) (ProcessEvent V)} {i : Fin n}
    {x : ProcessInput V} (h : s.step (processCalls S) (i, x) = some s') :
    ∃ t w obs, ProcessStep S (s.calls i) x s.store t w obs ∧
      s' = ⟨w, Function.update s.calls i t, s.log ++ obs⟩ := by
  obtain ⟨t, w, obs, hnext, -, hs'⟩ := Transactions.step_eq_some h
  exact ⟨t, w, obs, ProcessStep.of_advance hnext, hs'⟩

end TiramisuAgents
