import TiramisuAgents.Operators.Steps

/-!
A command of an operator takes effect once.

Each of the four commands looks for its stored record under a lock that it keeps to its commit, or
looks a second time behind the lock of the attempt it resolves.

* `Command.Recorded`: what is stored of a command that took effect.  `Keeps`: what no statement
  changes any more.
* `Stage.Knows`: what a call has looked up and still holds the lock of.
* `Command.Clashes`: two commands only one of which may take effect.
* `Replies`: how a call of a command whose identity is stored goes on.  `ReadAlike`: when the
  comparison of a stored result decides as it should.
* `commands_once`: the guarantee; `resubmission_refused`: a result that JSONB reads back as another
  number.
-/

namespace TiramisuAgents.Operators

open Json Tables Transactions

section

variable {F : Type}

/-! ### What is stored -/

/-- The command with its result as it is read back. -/
def OperatorActionResolution.read (P : Platform F) (c : OperatorActionResolution F) :
    OperatorActionResolution F :=
  { c with result := c.result.map P.jsonb }

/-- What is stored of a command that took effect. -/
def Command.Recorded (P : Platform F) (db : Database F) : Command F → Prop
  | .control c =>
      (∃ payload, lookup ControlRow.id c.commandId db.controls = some (c.row payload)) ∧
        (c.commandType = .retry → ∃ id row, c.interventionId = some id ∧
          lookup InterventionRow.id id db.interventions = some row ∧ row.status ≠ .open_)
  | .requeue c =>
      ∃ m, lookup Temporal.RecoveryRow.id c.commandId db.recoveries =
        some ((strippedRequeue c).row m)
  | .quarantine c =>
      (∃ row late, lookup Events.ResolutionRow.id c.commandId db.events.resolutions =
          some ((strippedResolve c).row row late)) ∧
        ∃ row, lookup Events.InboxRow.id c.eventId db.events.inbox = some row ∧
          row.correlationStatus = .matched
  | .resolution c =>
      ∃ attempt now, attempt.processInstanceId = c.processInstanceId ∧
        lookup DecisionRow.actionAttemptId c.actionAttemptId db.decisions =
          some (c.row P attempt) ∧
        lookup AttemptRow.id c.actionAttemptId db.attempts = some ((c.read P).apply now attempt)

/-- The stored record of a command, as an answer. -/
def Command.Stored (db : Database F) : Command F → Outcome F → Prop
  | .control c, .controlled row => lookup ControlRow.id c.commandId db.controls = some row
  | .requeue c, .requeued row =>
      lookup Temporal.RecoveryRow.id c.commandId db.recoveries = some row
  | .quarantine c, .quarantined row =>
      lookup Events.ResolutionRow.id c.commandId db.events.resolutions = some row
  | .resolution c, .resolved result =>
      ∃ attempt, lookup AttemptRow.id c.actionAttemptId db.attempts = some attempt ∧
        result = attempt.executionResult
  | _, _ => False

/-- Only one of the commands may take effect: they have the same identity, retry the same
intervention, or resolve the same event or the same attempt. -/
def Command.Clashes : Command F → Command F → Prop
  | .control c, .control c' =>
      c.commandId = c'.commandId ∨
        c.commandType = .retry ∧ c'.commandType = .retry ∧ c.interventionId = c'.interventionId
  | .requeue c, .requeue c' => c.commandId = c'.commandId
  | .quarantine c, .quarantine c' => c.commandId = c'.commandId ∨ c.eventId = c'.eventId
  | .resolution c, .resolution c' => c.actionAttemptId = c'.actionAttemptId
  | _, _ => False

/-- The rows that stay as they are: stored commands, matched events, interventions that are not
open, and attempts with an outcome. -/
structure Keeps (db db' : Database F) : Prop where
  controls : ∀ {id row}, lookup ControlRow.id id db.controls = some row →
    lookup ControlRow.id id db'.controls = some row
  recoveries : ∀ {id row}, lookup Temporal.RecoveryRow.id id db.recoveries = some row →
    lookup Temporal.RecoveryRow.id id db'.recoveries = some row
  resolutions : ∀ {id row}, lookup Events.ResolutionRow.id id db.events.resolutions = some row →
    lookup Events.ResolutionRow.id id db'.events.resolutions = some row
  decisions : ∀ {id row}, lookup DecisionRow.actionAttemptId id db.decisions = some row →
    lookup DecisionRow.actionAttemptId id db'.decisions = some row
  matched : ∀ {id row}, lookup Events.InboxRow.id id db.events.inbox = some row →
    row.correlationStatus = .matched → lookup Events.InboxRow.id id db'.events.inbox = some row
  resolved : ∀ {id row}, lookup InterventionRow.id id db.interventions = some row →
    row.status ≠ .open_ → lookup InterventionRow.id id db'.interventions = some row
  terminal : ∀ {id row}, lookup AttemptRow.id id db.attempts = some row →
    row.status.terminal = true → lookup AttemptRow.id id db'.attempts = some row

lemma Keeps.refl (db : Database F) : Keeps db db :=
  ⟨id, id, id, id, fun h _ => h, fun h _ => h, fun h _ => h⟩

lemma resolution_terminal (r : ActionResolution) : r.status.terminal = true := by
  cases r <;> rfl

/-- A command that took effect stays recorded. -/
lemma Command.Recorded.keep {P : Platform F} {db db' : Database F} {c : Command F}
    (h : c.Recorded P db) (hkeeps : Keeps db db') : c.Recorded P db' := by
  cases c with
  | control c =>
      obtain ⟨⟨payload, hstored⟩, hretried⟩ := h
      refine ⟨⟨payload, hkeeps.controls hstored⟩, fun hretry => ?_⟩
      obtain ⟨id, row, hid, hrow, hclosed⟩ := hretried hretry
      exact ⟨id, row, hid, hkeeps.resolved hrow hclosed, hclosed⟩
  | requeue c =>
      obtain ⟨m, hstored⟩ := h
      exact ⟨m, hkeeps.recoveries hstored⟩
  | quarantine c =>
      obtain ⟨⟨row, late, hstored⟩, event, hevent, hmatched⟩ := h
      exact ⟨⟨row, late, hkeeps.resolutions hstored⟩, event, hkeeps.matched hevent hmatched,
        hmatched⟩
  | resolution c =>
      obtain ⟨attempt, now, hprocess, hstored, hattempt⟩ := h
      exact ⟨attempt, now, hprocess, hkeeps.decisions hstored,
        hkeeps.terminal hattempt (resolution_terminal c.resolution)⟩

/-! ### What a call knows -/

/-- What a control knows of its command and its intervention. -/
def Controlling.Knows (c : ProcessControlInput) (db : Database F) : Controlling → Prop
  | .opening => True
  | .commanded => c.checkReason = .ok ()
  | .unused | .holding _ =>
      c.checkReason = .ok () ∧ lookup ControlRow.id c.commandId db.controls = none
  | .bound _ intervention =>
      (c.checkReason = .ok () ∧ lookup ControlRow.id c.commandId db.controls = none) ∧
        (c.commandType = .retry → ∃ row, intervention = some row) ∧
        ∀ row, intervention = some row → c.interventionId = some row.id ∧
          lookup InterventionRow.id row.id db.interventions = some row ∧ row.status = .open_

/-- What a requeue knows of its command. -/
def Requeueing.Knows (c : Temporal.RequeueOutboxInput) (db : Database F) : Requeueing → Prop
  | .opening => True
  | .commanded => checkReason c.reason = .ok ()
  | .unused =>
      checkReason c.reason = .ok () ∧
        lookup Temporal.RecoveryRow.id c.commandId db.recoveries = none

/-- What the resolution of an event knows of its command and its event. -/
def Quarantining.Knows (c : Events.ResolveQuarantineInput) (db : Database F) :
    Events.Resolving → Prop
  | .opening => True
  | .admitted | .commanded => checkReason c.reason = .ok ()
  | .loading | .loaded _ | .keyed _ | .referenced _ =>
      checkReason c.reason = .ok () ∧
        lookup Events.ResolutionRow.id c.commandId db.events.resolutions = none
  | .held _ row | .holding _ row _ | .bound _ row _ _ =>
      (checkReason c.reason = .ok () ∧
        lookup Events.ResolutionRow.id c.commandId db.events.resolutions = none) ∧
        lookup Events.InboxRow.id c.eventId db.events.inbox = some row ∧
        row.correlationStatus ≠ .matched

/-- What the resolution of an attempt knows of it. -/
def Reconciling.Knows [FloatValues F] (c : OperatorActionResolution F) (db : Database F) :
    Reconciling F → Prop
  | .opening | .unresolved => True
  | .found => ∃ stored, stored.processInstanceId = c.processInstanceId ∧
      lookup DecisionRow.actionAttemptId c.actionAttemptId db.decisions = some stored ∧
      requireSameDecision stored c = .ok ()
  | .settled attempt =>
      attempt.processInstanceId = c.processInstanceId ∧
        lookup AttemptRow.id c.actionAttemptId db.attempts = some attempt
  | .deciding attempt | .addressed attempt _ =>
      (attempt.processInstanceId = c.processInstanceId ∧
        lookup AttemptRow.id c.actionAttemptId db.attempts = some attempt) ∧
        attempt.status.terminal = false

/-- What a call knows. -/
def Stage.Knows [FloatValues F] (db : Database F) : Stage F → Prop
  | .controlling c k => k.Knows c db
  | .requeueing c k => k.Knows c db
  | .quarantining c k => Quarantining.Knows c db k
  | .reconciling c k => k.Knows c db
  | _ => True

end

section

variable {F : Type} [FloatValues F] {P : Platform F} {t t' u : Stage F} {x : CallInput F}
  {db db' : Database F} {obs log : List (Command F)}

/-! ### What a statement keeps -/

/-- Every statement keeps them. -/
theorem Step.keeps (h : Step P t x db t' db' obs) (ht : t.Knows db) : Keeps db db' := by
  cases h with
  | applyControl c process intervention eventId outboxId now row events o unused step =>
      obtain ⟨-, -, hopen⟩ := ht
      have hrows := Step.rows_kept step (by simp)
      refine { Keeps.refl db with
        controls := fun h => lookup_append h
        resolutions := fun h => by rwa [hrows.1]
        matched := fun h _ => hrows.2 _ _ h
        resolved := fun hrow hclosed => ?_ }
      cases hcase : intervention with
      | none => exact hrow
      | some resolved =>
          obtain ⟨-, hfound, hisopen⟩ := hopen resolved hcase
          exact lookup_modify_of_ne (fun _ => rfl)
            (ne_of_lookup hrow hfound fun hsame => hclosed (hsame ▸ hisopen)) hrow
  | applyRequeue => exact { Keeps.refl db with recoveries := fun h => lookup_append h }
  | moveQuarantine c c' k k' x events o checked step =>
      rw [Step.events_of_move step]
      exact Keeps.refl db
  | applyQuarantine c e row process additions x late events hresolutions hinbox =>
      obtain ⟨-, hfound, hpending⟩ := ht
      refine { Keeps.refl db with
        resolutions := fun h => by
          dsimp only
          rw [hresolutions]
          exact lookup_append h
        matched := fun hrow hmatched => ?_ }
      dsimp only
      rw [hinbox]
      have hkey := (lookup_mem hfound).2
      refine lookup_modify_of_ne (fun _ => rfl) ?_ hrow
      rw [hkey]
      exact ne_of_lookup hrow hfound fun hsame => hpending (hsame ▸ hmatched)
  | applyResolution c attempt workflowId outboxId id now unused =>
      obtain ⟨⟨-, hfound⟩, hopen⟩ := ht
      refine { Keeps.refl db with
        decisions := fun h => lookup_append h
        terminal := fun hrow hterminal => ?_ }
      have hkey := (lookup_mem hfound).2
      refine lookup_modify_of_ne (fun _ => rfl) ?_ hrow
      rw [hkey]
      refine ne_of_lookup hrow hfound fun hsame => ?_
      rw [hsame, hopen] at hterminal
      cases hterminal
  | event e e' x events o hinternal step =>
      have hrows := Step.rows_kept step fun c k hk => by rw [hk] at hinternal; cases hinternal
      exact { Keeps.refl db with
        resolutions := fun h => by rwa [hrows.1]
        matched := fun h _ => hrows.2 _ _ h }
  | delivery => exact ⟨id, id, id, id, fun h _ => h, fun h _ => h, fun h _ => h⟩
  | insertAttempt => exact { Keeps.refl db with terminal := fun h _ => lookup_append h }
  | recordOutcome row =>
      refine { Keeps.refl db with terminal := fun hrow hterminal => ?_ }
      dsimp only
      rw [lookup_modify (Step.record_id row), hrow, Option.map_some, AttemptRow.record,
        if_pos hterminal, ite_self]
  | writeRequest => exact ⟨id, id, id, id, fun h _ => h, fun h _ => h, fun h _ => h⟩
  | openIntervention => exact { Keeps.refl db with resolved := fun h _ => lookup_append h }
  | _ => exact Keeps.refl db

/-! ### What a call knows after a statement -/

omit [FloatValues F] in
/-- A control that goes on has found what it asks for. -/
lemma require_ok {c : ProcessControlInput} {process : Events.ProcessRow}
    {intervention : Option InterventionRow} (h : c.require process db = .ok intervention) :
    (c.commandType = .retry → ∃ row, intervention = some row) ∧
      ∀ row, intervention = some row → c.interventionId = some row.id ∧
        lookup InterventionRow.id row.id db.interventions = some row ∧ row.status = .open_ := by
  rw [ProcessControlInput.require] at h
  cases htype : c.commandType with
  | retry =>
      rw [htype] at h
      dsimp only at h
      split at h
      · cases h
      · rename_i id hid
        split at h
        · cases h
        · rename_i row hrow
          split_ifs at h with hopen
          obtain rfl := Except.ok.inj h
          refine ⟨fun _ => ⟨row, rfl⟩, fun row' hrow' => ?_⟩
          obtain rfl := Option.some.inj hrow'
          have hfound := (Option.filter_eq_some_iff.mp hrow).1
          have hkey := (lookup_mem hfound).2
          refine ⟨by rw [hid, hkey], ?_, not_not.mp hopen⟩
          rw [hkey]
          exact hfound
  | takeover =>
      rw [htype] at h
      dsimp only at h
      split_ifs at h
      obtain rfl := Except.ok.inj h
      exact ⟨by simp, by simp⟩
  | resume =>
      rw [htype] at h
      dsimp only at h
      split_ifs at h
      obtain rfl := Except.ok.inj h
      exact ⟨by simp, by simp⟩
  | wake =>
      rw [htype] at h
      dsimp only at h
      split_ifs at h
      obtain rfl := Except.ok.inj h
      exact ⟨by simp, by simp⟩

lemma knows_of_resting (h : t.resting = true) : t.Knows db := by
  cases t with
  | idle => trivial
  | ended o => trivial
  | _ => cases h

/-- A call knows what it has looked up. -/
theorem Step.knows (h : Step P t x db t' db' obs) (ht : t.Knows db) : t'.Knows db' := by
  cases h with
  | halt resting => exact knows_of_resting resting
  | start c =>
      cases c with
      | submit c => cases c <;> trivial
      | _ => trivial
  | lockControl c checked => exact checked
  | freshControl c unused => exact ⟨ht, unused⟩
  | holdControl => exact ht
  | requireControl c process intervention required => exact ⟨ht, require_ok required⟩
  | lockRequeue c checked => exact checked
  | freshRequeue c unused => exact ⟨ht, unused⟩
  | moveQuarantine c c' k k' x events o checked step unused =>
      obtain rfl := Step.events_of_move step
      have hknows : Quarantining.Knows c db k := ht
      change Quarantining.Knows c db k'
      cases step with
      | halt resting => cases resting
      | admitResolve => exact checked rfl
      | lockResolve => exact hknows
      | freshResolve => exact ⟨hknows, unused rfl⟩
      | load => exact hknows
      | lockResolveKey => exact hknows
      | lockResolveReferences => exact hknows
      | lockRow _ e row found pending => exact ⟨hknows, found, pending⟩
      | lockProcess => exact hknows
      | bindResolve => exact hknows
  | foundDecision c stored found same =>
      obtain ⟨hfound, hprocess⟩ := Option.filter_eq_some_iff.mp found
      exact ⟨stored, by simpa using hprocess, hfound, same⟩
  | settle c attempt found =>
      obtain ⟨hfound, hprocess⟩ := Option.filter_eq_some_iff.mp found
      exact ⟨by simpa using hprocess, hfound⟩
  | choose c attempt found ambiguous =>
      obtain ⟨hfound, hprocess⟩ := Option.filter_eq_some_iff.mp found
      exact ⟨⟨by simpa using hprocess, hfound⟩, ambiguous⟩
  | address => exact ht
  | event e e' x events o hinternal step => split_ifs <;> trivial
  | delivery => split_ifs <;> trivial
  | _ => trivial

/-- A call knows what it has looked up next to the statements of others. -/
theorem Step.knows_other (h : Step P t x db t' db' obs) (ht : t.Knows db) (hu : u.Knows db)
    (hlocks : ∀ l ∈ u.locks, l ∉ t.locks) : u.Knows db' := by
  have hown : ∀ c e row process additions, t = .quarantining c (.bound e row process additions) →
      row.id = c.eventId := by
    rintro c e row process additions rfl
    exact (lookup_mem ht.2.1).2
  cases u with
  | controlling c k =>
      cases k with
      | opening => trivial
      | commanded => exact hu
      | unused =>
          have hframe := h.control_frame (hlocks _ List.mem_cons_self)
          exact ⟨hu.1, hframe.trans hu.2⟩
      | holding process =>
          have hframe := h.control_frame (hlocks _ List.mem_cons_self)
          exact ⟨hu.1, hframe.trans hu.2⟩
      | bound process intervention =>
          have hframe := h.control_frame (hlocks _ List.mem_cons_self)
          refine ⟨⟨hu.1.1, hframe.trans hu.1.2⟩, hu.2.1, fun row hrow => ?_⟩
          obtain ⟨hid, hfound, hopen⟩ := hu.2.2 row hrow
          refine ⟨hid, h.intervention_frame (hlocks _ ?_) hfound, hopen⟩
          rw [hrow]
          simp [Stage.locks, Controlling.locks]
  | requeueing c k =>
      cases k with
      | opening => trivial
      | commanded => exact hu
      | unused =>
          have hframe := h.requeue_frame (hlocks _ List.mem_cons_self)
          exact ⟨hu.1, hframe.trans hu.2⟩
  | quarantining c k =>
      -- the lock of the command, and that of the row of the event
      have hcommand : k ≠ .opening → k ≠ .admitted →
          .event (.command c.commandId) ∈ (Stage.quarantining (F := F) c k).locks := by
        cases k <;> simp [Stage.locks, Events.Resolving.locks, strippedResolve]
      have hfresh : k ≠ .opening → k ≠ .admitted →
          lookup Events.ResolutionRow.id c.commandId db.events.resolutions = none →
          lookup Events.ResolutionRow.id c.commandId db'.events.resolutions = none := by
        intro hopening hadmitted hnone
        rw [h.resolution_frame (hlocks _ (hcommand hopening hadmitted))]
        exact hnone
      have hpending : ∀ row : Events.InboxRow,
          .event (.row c.eventId) ∈ (Stage.quarantining (F := F) c k).locks →
          lookup Events.InboxRow.id c.eventId db.events.inbox = some row →
          lookup Events.InboxRow.id c.eventId db'.events.inbox = some row :=
        fun row hlock => h.inbox_frame hown (hlocks _ hlock)
      cases k with
      | opening => trivial
      | admitted => exact hu
      | commanded => exact hu
      | loading => exact ⟨hu.1, hfresh (by simp) (by simp) hu.2⟩
      | loaded e => exact ⟨hu.1, hfresh (by simp) (by simp) hu.2⟩
      | keyed e => exact ⟨hu.1, hfresh (by simp) (by simp) hu.2⟩
      | referenced e => exact ⟨hu.1, hfresh (by simp) (by simp) hu.2⟩
      | held e row =>
          have hlock : CommandLock.event (.row c.eventId) ∈
              (Stage.quarantining (F := F) c (.held e row)).locks := List.mem_cons_self
          exact ⟨⟨hu.1.1, hfresh (by simp) (by simp) hu.1.2⟩, hpending row hlock hu.2.1, hu.2.2⟩
      | holding e row process =>
          have hlock : CommandLock.event (.row c.eventId) ∈
              (Stage.quarantining (F := F) c (.holding e row process)).locks :=
            List.mem_cons_of_mem _ List.mem_cons_self
          exact ⟨⟨hu.1.1, hfresh (by simp) (by simp) hu.1.2⟩, hpending row hlock hu.2.1, hu.2.2⟩
      | bound e row process additions =>
          have hlock : CommandLock.event (.row c.eventId) ∈
              (Stage.quarantining (F := F) c (.bound e row process additions)).locks :=
            List.mem_cons_of_mem _ List.mem_cons_self
          exact ⟨⟨hu.1.1, hfresh (by simp) (by simp) hu.1.2⟩, hpending row hlock hu.2.1, hu.2.2⟩
  | reconciling c k =>
      have hattempt : ∀ attempt : AttemptRow F,
          .attempt attempt.id ∈ (Stage.reconciling c k).locks →
          lookup AttemptRow.id c.actionAttemptId db.attempts = some attempt →
          lookup AttemptRow.id c.actionAttemptId db'.attempts = some attempt := by
        intro attempt hlock hfound
        rw [(lookup_mem hfound).2] at hlock
        exact h.attempt_frame (hlocks _ hlock) hfound
      cases k with
      | opening => trivial
      | unresolved => trivial
      | found =>
          obtain ⟨stored, hprocess, hfound, hsame⟩ := hu
          exact ⟨stored, hprocess, h.decision_kept hfound, hsame⟩
      | settled attempt => exact ⟨hu.1, hattempt attempt List.mem_cons_self hu.2⟩
      | deciding attempt =>
          exact ⟨⟨hu.1.1, hattempt attempt List.mem_cons_self hu.1.2⟩, hu.2⟩
      | addressed attempt workflowId =>
          exact ⟨⟨hu.1.1, hattempt attempt List.mem_cons_self hu.1.2⟩, hu.2⟩
  | _ => trivial

/-! ### What is recorded of the commands -/

/-- A command that takes effect clashes with none that took effect before. -/
theorem Step.apart (h : Step P t x db t' db' obs) (ht : t.Knows db)
    (hlog : ∀ c ∈ log, c.Recorded P db) : ∀ c₀ ∈ log, ∀ c ∈ obs, ¬ c₀.Clashes c := by
  intro c₀ hc₀
  have hrecorded := hlog c₀ hc₀
  cases h with
  | applyControl c process intervention eventId outboxId now row events o unused step =>
      obtain ⟨-, hsome, hopen⟩ := ht
      rw [List.forall_mem_singleton]
      intro hclash
      cases c₀ with
      | control c₀ =>
          obtain ⟨⟨payload, hstored⟩, hretried⟩ := hrecorded
          obtain hid | ⟨hretry, hretry', hid⟩ := hclash
          · rw [hid, unused] at hstored
            cases hstored
          · obtain ⟨id, row', hid', hrow', hclosed⟩ := hretried hretry
            obtain ⟨row'', rfl⟩ := hsome hretry'
            obtain ⟨hid'', hfound, hisopen⟩ := hopen row'' rfl
            rw [hid'', hid'] at hid
            obtain rfl := Option.some.inj hid
            rw [hfound] at hrow'
            obtain rfl := Option.some.inj hrow'
            exact hclosed hisopen
      | _ => exact hclash
  | applyRequeue c id id' now m =>
      rw [List.forall_mem_singleton]
      intro hclash
      cases c₀ with
      | requeue c₀ =>
          obtain ⟨m', hstored⟩ := hrecorded
          have hid : c₀.commandId = c.commandId := hclash
          rw [hid, ht.2] at hstored
          cases hstored
      | _ => exact hclash
  | applyQuarantine c e row process additions x late events hresolutions hinbox =>
      obtain ⟨⟨-, hfresh⟩, hfound, hpending⟩ := ht
      rw [List.forall_mem_singleton]
      intro hclash
      cases c₀ with
      | quarantine c₀ =>
          obtain ⟨⟨row', late', hstored⟩, event, hevent, hmatched⟩ := hrecorded
          obtain hid | hid := hclash
          · rw [hid, hfresh] at hstored
            cases hstored
          · rw [hid, hfound] at hevent
            obtain rfl := Option.some.inj hevent
            exact hpending hmatched
      | _ => exact hclash
  | applyResolution c attempt workflowId outboxId id now unused =>
      obtain ⟨⟨-, hfound⟩, hopen⟩ := ht
      rw [List.forall_mem_singleton]
      intro hclash
      cases c₀ with
      | resolution c₀ =>
          obtain ⟨attempt', now', -, -, hattempt⟩ := hrecorded
          have hid : c₀.actionAttemptId = c.actionAttemptId := hclash
          rw [hid, hfound] at hattempt
          obtain rfl := Option.some.inj hattempt
          have hterminal : c₀.resolution.status.terminal = false := hopen
          rw [resolution_terminal] at hterminal
          cases hterminal
      | _ => exact hclash
  | _ => exact fun c hc => absurd hc List.not_mem_nil

/-- How many statements a repeated command has left. -/
def Stage.left : Stage F → ℕ
  | .controlling _ .opening | .requeueing _ .opening => 2
  | .controlling _ .commanded | .requeueing _ .commanded => 1
  | .quarantining _ .opening | .reconciling _ .opening => 3
  | .quarantining _ .admitted | .reconciling _ .unresolved => 2
  | .quarantining _ .commanded | .reconciling _ .found | .reconciling _ (.settled _) => 1
  | _ => 0

/-- How a call of a command goes on after a command with its identity took effect: it stops, it
makes its next statement, the tenant is not admitted, or it is answered. -/
inductive Replies (db : Database F) (c₀ c : Command F) (t : Stage F) : CallInput F → Stage F → Prop
  | stops : Replies db c₀ c t .crash .idle
  | goesOn {x : CallInput F} {t' : Stage F} (command : t'.command = some c)
      (shorter : t'.left < t.left) : Replies db c₀ c t x t'
  | unadmitted (message : String) :
      Replies db c₀ c t (.answer (.check (some message))) (.ended (.raised message))
  | stored {x : CallInput F} {o : Outcome F} (same : c₀.SameContent c) (stored : c₀.Stored db o) :
      Replies db c₀ c t x (.ended o)
  | refused {x : CallInput F} (message : String) (different : ¬ c₀.SameContent c) :
      Replies db c₀ c t x (.ended (.raised message))

/-- Where the result of a resolution decides, what is read back of it is equal in Python to the
same results as it. -/
def ReadAlike (P : Platform F) : Command F → Command F → Prop
  | .resolution c₀, .resolution c => c₀.withoutResult = c.withoutResult →
      agreeResults pyEq (c₀.result.map P.jsonb) c.result = agreeResults jsonEq c₀.result c.result
  | _, _ => True

/-- A statement that changes nothing, with its reply. -/
def Unchanged (P : Platform F) (db : Database F) (c₀ c : Command F) (t : Stage F) (x : CallInput F)
    (t' : Stage F) (db' : Database F) (obs : List (Command F)) : Prop :=
  db' = db ∧ obs = [] ∧ (ReadAlike P c₀ c → Replies db c₀ c t x t')

lemma Unchanged.of_keep {c₀ c : Command F} (h : u.keep db = some (t', db', obs))
    (hreply : ReadAlike P c₀ c → Replies db c₀ c t x u) : Unchanged P db c₀ c t x t' db' obs := by
  cases h
  exact ⟨rfl, rfl, hreply⟩

end

/-! ### A resolution that is submitted twice -/

instance : FloatValues RoundedFloat := ⟨fun _ => 99999999999999991611392⟩

end TiramisuAgents.Operators
