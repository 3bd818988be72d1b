import TiramisuAgents.Processes.Completion
import TiramisuAgents.Tenancy.Calls

/-!
The rows of one process of a tenant.

A process that is over has been completed by a decision, with no open action; so no operator can
resolve an attempt of it, and a control and a review look at its status.  Hence no statement of a
call on it enqueues a message.

* `RowsOk`, `Aware`: the invariant of the rows of a process, and what the calls on it know.
* `RowsOk.own`, `Aware.other`: it is kept.
* `live_of_production`: a call enqueues a message for a process that is not over.
-/

namespace TiramisuAgents.Tenancy

open Transactions

/-! ### The process is over -/

/-- A transition to a status that is over is one to the completed status. -/
lemma transition_terminal {V : Type} [BEq V] {c : DecisionInput V} {facts : FactProjection V}
    {openActions : OpenActions} {transition : ProjectedProcessTransition}
    (h : c.transition facts openActions = .ok transition)
    (hterminal : transition.status.terminal = true) : transition.status = .completed := by
  obtain ⟨tr, htr, h⟩ := ok_of_bind h
  obtain ⟨-, -, h⟩ := ok_of_bind h
  obtain rfl := Except.ok.inj h
  obtain ⟨-, -, hstatus⟩ | ⟨-, -, hstatus, -⟩ | ⟨-, -, hstatus⟩ | ⟨-, -, hstatus⟩ :=
    nextStatus_cases (project_eq_ok htr).1
  · rw [hstatus] at hterminal
    split_ifs at hterminal <;> cases hterminal
  · exact hstatus
  · rw [hstatus] at hterminal
    cases hterminal
  · obtain ⟨-, hstatus⟩ | ⟨-, hstatus⟩ := hstatus <;> rw [hstatus] at hterminal <;> cases hterminal

/-- A control leaves the process running or paused. -/
lemma write_live {V : Type} {c : ProcessControlInput} {row : ProcessRow V}
    {interventions : List ProcessIntervention} {write : ControlWrite V}
    (h : c.write row interventions = .ok write) (hlive : row.status.terminal = false) :
    write.process.status.terminal = false := by
  unfold ProcessControlInput.write at h
  split at h
  · split at h
    · cases h
    · split at h
      · cases h
      · split_ifs at h
        obtain rfl := Except.ok.inj h
        rfl
  · split_ifs at h
    obtain rfl := Except.ok.inj h
    rfl
  · split_ifs at h
    obtain rfl := Except.ok.inj h
    rfl
  · split_ifs at h
    obtain rfl := Except.ok.inj h
    exact hlive

lemma fenced_of_terminal {status : ProcessStatus} (h : status.terminal = true) :
    status.fenced = true := by
  cases status <;> first | rfl | cases h

section

variable {V : Type} [BEq V] {S : Services V} {t t' u : ProcessStage V} {x : ProcessInput V}
  {w w' : ProcessDatabase V} {obs : List (ProcessEvent V)}

variable (S) in
/-- The rows of every action are sound and listed, and a process that is over has been completed
with no open action. -/
structure RowsOk (w : ProcessDatabase V) : Prop where
  actions : ∀ a, (w.view a).Consistent (S.on a) ∧ RowsAgree (w.view a)
  listed : w.Listed
  finished : w.process.status.terminal = true → w.process.status = .completed ∧ AllSettled w

variable (S) in
/-- What a call on a process knows. -/
structure Aware (w : ProcessDatabase V) (t : ProcessStage V) : Prop where
  exposed : t.Exposed
  action : t.On (fun a v db => v.KnowsAll (S.on a) db) w
  process : t.Knows S w
  closing : t.Closing w

omit [BEq V] in
/-- The call is none of a review that has loaded another approval than the committed one, or a
status from before the process was paused or over. -/
def Committed (w : ProcessDatabase V) (t : ProcessStage V) : Prop :=
  t.On (fun _ v db => v.Committed db ∧ v.FreshProcess db) w

/-- A process that is over stays completed without open actions, and a decision completes one that
has none. -/
lemma finished_own (h : ProcessStep S t x w t' w' obs) (hw : RowsOk S w) (ht : Aware S w t)
    (hterminal : w'.process.status.terminal = true) :
    w'.process.status = .completed ∧ AllSettled w' := by
  by_cases hover : w.process.status.terminal = true
  · obtain ⟨hcompleted, hsettled⟩ := hw.finished hover
    rw [h.terminal_kept ht.process hover]
    exact ⟨hcompleted, h.allSettled ht.exposed ht.action hw.actions
      (.inl (fenced_of_terminal hover)) hsettled⟩
  · obtain hsame | ⟨c, row, facts, openActions, transition, rfl, hprocess⟩ |
      ⟨v, row, rfl, hprocess⟩ |
      ⟨c, reason, row, write, rfl, -, -, hlive, hwrite, hprocess⟩ := h.process_cases
    · rw [hsame] at hterminal
      exact absurd hterminal hover
    · obtain ⟨-, -, -, -, htransition⟩ := ht.process
      rw [hprocess] at hterminal ⊢
      have hcompleted : transition.status = .completed := transition_terminal htransition hterminal
      refine ⟨hcompleted, ?_⟩
      have hnone := (transition_completed htransition hcompleted).1
      have hsettled : AllSettled w := ht.closing hnone
      cases h with
      | halt => exact hsettled
      | start => exact hsettled
      | applyDecision => exact hsettled
    · obtain rfl : row = w.process := ht.process
      rw [hprocess, ProcessRow.intervene] at hterminal
      split_ifs at hterminal
      · exact absurd hterminal hover
      · cases hterminal
    · rw [hprocess, write_live hwrite hlive] at hterminal
      cases hterminal

/-- A statement keeps the rows sound, and its call aware. -/
lemma RowsOk.own (h : ProcessStep S t x w t' w' obs) (hcommitted : Committed w t)
    (hw : RowsOk S w) (ht : Aware S w t) : RowsOk S w' ∧ Aware S w' t' :=
  ⟨⟨h.every_action (settledRule S) ht.exposed hcommitted hw.actions ht.action, h.listed hw.listed,
      finished_own h hw ht⟩,
    ⟨h.exposed ht.exposed, h.on_own (settledRule S) ht.exposed hcommitted hw.actions ht.action,
      h.knows ht.process, h.closing hw.listed⟩⟩

/-- A bystander stays aware. -/
lemma Aware.other (h : ProcessStep S t x w t' w' obs) (hcommitted : Committed w t)
    (hlocks : ∀ l ∈ u.locks, l ∉ t.locks) (hw : RowsOk S w) (ht : Aware S w t)
    (hu : Aware S w u) : Aware S w' u :=
  ⟨hu.exposed,
    h.on_other (settledRule S) ht.exposed hcommitted hlocks hw.actions ht.action hu.action,
    h.knows_other hlocks hu.process,
    h.closing_other ht.exposed ht.action hw.actions hlocks hu.closing⟩

/-- The event that is received while the process is held. -/
lemma aware_ingesting (e : CanonicalEvent V) : Aware S w (.ingesting e .locked) :=
  ⟨trivial, trivial, trivial, trivial⟩

omit [BEq V] in
/-- The rows of a new process. -/
lemma rowsOk_new (now : Time) (inbox : List (InboxRow V)) :
    RowsOk S { process := { status := .active, createdAt := now }, inbox := inbox } where
  actions a := ⟨consistent_fresh (S.on a) .active, aligned_fresh .active⟩
  listed := fun a h => absurd rfl h
  finished h := by cases h

/-- The first stage of a call on a process. -/
lemma aware_start {c : ProcessCall V} (hc : isService c = true) (now : Time) (hw : RowsOk S w) :
    Aware S w (c.start now) := by
  have hexposed : c.exposed = true := by
    cases c <;> first | exact hc | rfl
  have hidle : Aware S w .idle := ⟨trivial, trivial, trivial, trivial⟩
  have hcommitted : Committed w (ProcessStage.idle : ProcessStage V) := trivial
  exact (RowsOk.own (.start c now hexposed) hcommitted hw hidle).2

/-- A control is taken for a process that is not over. -/
lemma live_of_controlled {c : ProcessControlInput} {reason : String} {row : ProcessRow V}
    {eventId : UUID} {now : Time} {command : ProcessControlCommand}
    (h : advance S (.controlling c (.locked reason row)) (.answer (.wake eventId now)) w =
      some (.done (.controlled command), w', obs)) : row.status.terminal = false := by
  by_contra hover
  rw [Bool.not_eq_false] at hover
  rw [advance, ProcessStage.statement, Controlling.statement, if_pos hover] at h
  cases h

/-- **A call enqueues a message** for a process that is not over. -/
lemma live_of_production {T : Tenant V} {p : TenantProcess V} {outboxId : UUID} {now : Time}
    {y : ProcessAnswer V} {m : Events.Production}
    (h : advance S t (.answer y) w = some (t', w', obs))
    (hproduced : production T p outboxId now t y t' = some m) (hw : RowsOk S w)
    (ht : Aware S w t) : w.process.status.terminal = false := by
  unfold production at hproduced
  split at hproduced
  · obtain rfl := ht.process
    exact live_of_controlled h
  · -- the review has found that the process runs, and holds it
    have hunfenced : w.process.status.fenced = false := ht.action.unfenced
    by_contra hover
    rw [Bool.not_eq_false] at hover
    rw [fenced_of_terminal hover] at hunfenced
    cases hunfenced
  · -- the attempt belongs to an open request, and a process that is over has none
    rename_i a c attempt startedAt y a' key row' startedAt'
    split_ifs at hproduced with hopen
    by_contra hover
    rw [Bool.not_eq_false] at hover
    have hattempt : (w.view a).attempts c.idempotencyKey = some attempt := ht.action.knows
    have hpending : attempt.status.terminal = false := by
      obtain hstatus | hstatus := hopen <;> rw [hstatus] <;> rfl
    obtain ⟨hconsistent, haligned⟩ := hw.actions a
    obtain ⟨row, hrow, hisopen⟩ := haligned.open_ hconsistent hattempt hpending
    rw [(hw.finished hover).2 a row hrow] at hisopen
    cases hisopen
  · cases hproduced

end

end TiramisuAgents.Tenancy
