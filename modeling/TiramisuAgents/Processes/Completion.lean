import TiramisuAgents.Actions.Alignment
import TiramisuAgents.Processes.PauseFence

/-!
Completed processes.

A decision completes a process only if it finds no open action, and it holds the process until it
commits.  Executions and operators change the status of a request without the process, but they
only write an outcome over an attempt that has none, and such an attempt belongs to an open
request (`RowsAgree`); so none of them opens a request that is settled.  The other writers of a
request hold the process and have seen that it runs.  A review may have seen an approval or a
status that is not the committed one, and is the exception.

* `Step.settled_kept`: what settled requests need to stay settled.
* `CompletedOk`: a completed process has no open action, and its facts satisfy the requirements
  of the decision that has completed it.
* `completed_for_ever`: every run with reviews that decide on committed rows;
  `reopened_by_review` is the run without.
-/

namespace TiramisuAgents

open Transactions

/-! ### Calls on an action -/

/-- The request is not open. -/
def Database.Settled (db : Database) : Prop :=
  ∀ row, db.request = some row → row.status.isOpen = false

section

variable {P : Platform} {t t' u : Stage} {x : CallInput} {db db' : Database}
  {obs : List ActionEvent}

lemma toRequest_isOpen (status : ActionAttemptStatus) :
    status.toRequest.isOpen = !status.terminal := by
  cases status <;> rfl

/-- A pending attempt belongs to an open request. -/
lemma RowsAgree.open_ (h : RowsAgree db) (hdb : db.Consistent P) {key : String} {a : AttemptRow}
    (ha : db.attempts key = some a) (hpending : a.status.terminal = false) :
    ∃ row, db.request = some row ∧ row.status.isOpen = true := by
  obtain ⟨row, hrow⟩ := hdb.request_of_attempt ha
  obtain ⟨b, hstatus, hb⟩ := (h.tracks key a ha row hrow).of_pending hpending
  refine ⟨row, hrow, ?_⟩
  rw [hstatus, toRequest_isOpen, hb]
  rfl

/-- **Settled requests stay settled**, if the process is paused or over, or held by another
call. -/
lemma Step.settled_kept (h : Step P t x db t' db' obs) (ht : t.Knows P db)
    (hunfenced : t.Unfenced db) (hdb : db.Consistent P) (haligned : RowsAgree db)
    (hstop : db.process.fenced = true ∨ .process ∉ t.locks) (hsettled : db.Settled) :
    db'.Settled := by
  have stopped {Q : Prop} (hrunning : db.process.fenced = false)
      (hlock : RowLock.process ∈ t.locks) : Q := by
    obtain hfenced | hfree := hstop
    · rw [hfenced] at hrunning
      cases hrunning
    · exact absurd hlock hfree
  have dead {key : String} {a : AttemptRow} {Q : Prop} (ha : db.attempts key = some a)
      (hpending : a.status.terminal = false) : Q := by
    obtain ⟨row, hrow, hopen⟩ := haligned.open_ hdb ha hpending
    rw [hsettled row hrow] at hopen
    cases hopen
  cases h with
  | insert => exact stopped hunfenced (by simp [Stage.locks])
  | reclaim => exact stopped hunfenced (by simp [Stage.locks])
  | remark => exact stopped hunfenced (by simp [Stage.locks])
  | mark => exact stopped hunfenced (by simp [Stage.locks])
  | record key outcome attempt hpending => exact dead ht hpending
  | resolve c attempt hopen =>
      refine dead ht ?_
      rcases hopen with hopen | hopen <;> rw [hopen] <;> rfl
  | review c target request write =>
      refine stopped hunfenced ?_
      rw [Stage.locks, Reviewing.locks]
      split_ifs <;> simp
  | persist => exact stopped hunfenced (by simp [Stage.locks])
  | _ => exact hsettled

/-- What the calls on an action know when the reviews decide on committed rows. -/
structure Stage.KnowsAll (P : Platform) (db : Database) (t : Stage) : Prop
    extends t.Follows P db where
  unfenced : t.Unfenced db

lemma knowsAll_own (h : next P t x db = some (t', db', obs)) (hdb : db.Consistent P)
    (haligned : RowsAgree db) (hcommitted : t.Committed db) (hprocess : t.FreshProcess db)
    (ht : t.KnowsAll P db) : t'.KnowsAll P db' :=
  ⟨(Step.of_next h).follows hdb haligned hcommitted ht.toFollows,
    unfenced_own h hprocess ht.knows ht.unfenced⟩

lemma Step.knowsAll_other (h : Step P t x db t' db' obs) (hlocks : ∀ l ∈ u.locks, l ∉ t.locks)
    (ht : t.KnowsAll P db) (hu : u.KnowsAll P db) : u.KnowsAll P db' :=
  ⟨h.follows_other hlocks ht.toFollows hu.toFollows, h.unfenced_other hlocks hu.unfenced⟩

end

/-! ### Calls on the process -/

section

variable {V : Type} [BEq V] {S : Services V} {t t' u : ProcessStage V} {x : ProcessInput V}
  {w w' : ProcessDatabase V} {log obs : List (ProcessEvent V)}

variable (S) in
omit [BEq V] in
/-- What holds of every action when the reviews decide on committed rows. -/
lemma settledRule : EveryAction S (fun _ t db => t.Committed db ∧ t.FreshProcess db)
    (fun a t db => t.KnowsAll (S.on a) db) (fun a db => db.Consistent (S.on a) ∧ RowsAgree db) where
  joint _ :=
    { own := fun hnext hreview hdb ht =>
        have h := Step.of_next hnext
        ⟨⟨h.consistent hdb.1 ht.knows,
            h.aligned hdb.1 ht.knows ht.fresh ht.undecided ht.entitled hdb.2⟩,
          knowsAll_own hnext hdb.1 hdb.2 hreview.1 hreview.2 ht⟩
      other := fun hnext _ _ hlocks _ ht hu => (Step.of_next hnext).knowsAll_other hlocks ht hu }
  idle _ db := ⟨⟨Stage.committed_idle db, trivial⟩, ⟨trivial, trivial, trivial, trivial⟩, trivial⟩
  setting _ status db := ⟨⟨Stage.committed_setting status db, trivial⟩,
    ⟨trivial, trivial, trivial, trivial⟩, trivial⟩

omit [BEq V] in
/-- No action of the process is open. -/
def AllSettled (w : ProcessDatabase V) : Prop := ∀ a, (w.view a).Settled

omit [BEq V] in
lemma allSettled_of_openActions (hw : w.Listed) (h : w.openActions = []) : AllSettled w := by
  intro a row hrow
  have hrequest : (w.actions a).request = some row := hrow
  exact ProcessDatabase.openActions_eq_nil.mp h a (hw a (by simp [hrequest])) row hrequest

/-- All requests stay settled under the steps of other calls than the holder of the process, and
under all steps once the process is paused or over. -/
lemma ProcessStep.allSettled (h : ProcessStep S t x w t' w' obs) (ht : t.Exposed)
    (hK : t.On (fun a v db => v.KnowsAll (S.on a) db) w)
    (hw : ∀ a, (w.view a).Consistent (S.on a) ∧ RowsAgree (w.view a))
    (hstop : w.process.status.fenced = true ∨ .process ∉ t.locks) (hsettled : AllSettled w) :
    AllSettled w' := by
  intro a
  obtain ⟨v, y, v', obs', hnext, hstage, -⟩ | ⟨-, hview, -⟩ | hview := h.action_cases ht a
  · have hv : v.KnowsAll (S.on a) (w.view a) ∧ t.locks = v.locks.map (RowLock.on a) := by
      obtain ⟨startedAt, rfl⟩ | ⟨startedAt, now, block, rfl⟩ := hstage
      · exact ⟨hK, rfl⟩
      · exact ⟨hK, rfl⟩
    refine (Step.of_next hnext).settled_kept hv.1.knows hv.1.unfenced (hw a).1 (hw a).2 ?_
      (hsettled a)
    refine hstop.imp id fun hfree hlock => hfree ?_
    rw [hv.2]
    exact List.mem_map_of_mem hlock
  · rw [hview]
    exact hsettled a
  · rw [hview]
    exact hsettled a

omit [BEq V] in
/-- A decision that is about to complete the process has found no open action, and there is
none. -/
def ProcessStage.Closing (w : ProcessDatabase V) : ProcessStage V → Prop
  | .applying _ (.flushing _ _ openActions _) => openActions = [] → AllSettled w
  | _ => True

lemma ProcessStep.closing (h : ProcessStep S t x w t' w' obs) (hw : w.Listed) :
    t'.Closing w' := by
  cases h with
  | halt hended => obtain rfl | ⟨o, rfl⟩ := hended <;> trivial
  | start c => cases c <;> trivial
  | projectTransition => exact allSettled_of_openActions hw
  | _ => trivial

lemma ProcessStep.closing_other (h : ProcessStep S t x w t' w' obs) (ht : t.Exposed)
    (hK : t.On (fun a v db => v.KnowsAll (S.on a) db) w)
    (hw : ∀ a, (w.view a).Consistent (S.on a) ∧ RowsAgree (w.view a))
    (hlocks : ∀ l ∈ u.locks, l ∉ t.locks) (hu : u.Closing w) : u.Closing w' := by
  cases u with
  | applying c a =>
      cases a with
      | flushing row facts openActions transition =>
          intro hnone
          have hfree : ProcessLock.process ∉ t.locks := hlocks _ (List.mem_singleton_self _)
          exact h.allSettled ht hK hw (.inr hfree) (hu hnone)
      | _ => trivial
  | _ => trivial

/-- The decision of the log has completed the process. -/
def CompletedBy (w : ProcessDatabase V) (c : DecisionInput V) (r : AppliedProcessState) : Prop :=
  r.status = .completed ∧ r.version = w.process.stateVersion ∧
    unsatisfiedRequirements w.process.facts.authoritative c.completionRequirements = []

/-- A completed process has no open action, and its facts satisfy the requirements of the
decision that has completed it. -/
def CompletedOk (w : ProcessDatabase V) (log : List (ProcessEvent V)) : Prop :=
  w.process.status = .completed →
    AllSettled w ∧ ∃ c r, .applied c r ∈ log ∧ CompletedBy w c r

/-- A transition to the completed status. -/
lemma transition_completed {c : DecisionInput V} {facts : FactProjection V}
    {openActions : OpenActions} {transition : ProjectedProcessTransition}
    (h : c.transition facts openActions = .ok transition)
    (hstatus : transition.status = .completed) :
    openActions = [] ∧
      unsatisfiedRequirements facts.authoritative c.completionRequirements = [] := by
  obtain ⟨tr, htr, h⟩ := ok_of_bind h
  obtain ⟨-, -, h⟩ := ok_of_bind h
  obtain rfl := Except.ok.inj h
  have hnext := (project_eq_ok htr).1
  rw [hstatus] at hnext
  exact nextStatus_eq_completed hnext

omit [BEq V] in
/-- A control does not complete a process. -/
lemma ProcessControlInput.write_not_completed {c : ProcessControlInput} {row : ProcessRow V}
    {interventions : List ProcessIntervention} {write : ControlWrite V}
    (h : c.write row interventions = .ok write) (hlive : row.status.terminal = false) :
    write.process.status ≠ .completed := by
  unfold ProcessControlInput.write at h
  split at h
  · split at h
    · cases h
    · split at h
      · cases h
      · split_ifs at h
        obtain rfl := Except.ok.inj h
        intro hcompleted
        cases hcompleted
  · split_ifs at h
    obtain rfl := Except.ok.inj h
    intro hcompleted
    cases hcompleted
  · split_ifs at h
    obtain rfl := Except.ok.inj h
    intro hcompleted
    cases hcompleted
  · split_ifs at h
    obtain rfl := Except.ok.inj h
    intro hcompleted
    rw [hcompleted] at hlive
    cases hlive

/-- A completed process was completed before, or is completed by a decision. -/
lemma ProcessStep.completed_cases (h : ProcessStep S t x w t' w' obs) (hK : t.Knows S w)
    (hcompleted : w'.process.status = .completed) :
    w'.process = w.process ∨
    ∃ c row facts openActions transition,
      t = .applying c (.flushing row facts openActions transition) := by
  obtain hsame | ⟨c, row, facts, openActions, transition, rfl, -⟩ | ⟨v, row, rfl, hprocess⟩ |
    ⟨c, reason, row, write, rfl, -, -, hlive, hwrite, hprocess⟩ := h.process_cases
  · exact .inl hsame
  · exact .inr ⟨c, row, facts, openActions, transition, rfl⟩
  · obtain rfl : row = w.process := hK
    rw [hprocess, ProcessRow.intervene] at hcompleted ⊢
    split_ifs at hcompleted with hfenced
    rw [if_pos hfenced]
    exact .inl rfl
  · rw [hprocess] at hcompleted
    exact absurd hcompleted (ProcessControlInput.write_not_completed hwrite hlive)

/-- A completed process stays without open actions, and a decision completes one that has
none. -/
lemma ProcessStep.completedOk (h : ProcessStep S t x w t' w' obs) (ht : t.Exposed)
    (hK : t.On (fun a v db => v.KnowsAll (S.on a) db) w) (hknows : t.Knows S w)
    (hclosing : t.Closing w)
    (hw : ∀ a, (w.view a).Consistent (S.on a) ∧ RowsAgree (w.view a)) (hok : CompletedOk w log) :
    CompletedOk w' (log ++ obs) := by
  intro hcompleted
  obtain hsame | ⟨c, row, facts, openActions, transition, rfl⟩ :=
    h.completed_cases hknows hcompleted
  · obtain ⟨hsettled, c, r, hmem, hby⟩ := hok (hsame ▸ hcompleted)
    refine ⟨h.allSettled ht hK hw (.inl ?_) hsettled, c, r, List.mem_append_left _ hmem, ?_⟩
    · rw [← hsame, hcompleted]
      rfl
    · rw [CompletedBy, hsame]
      exact hby
  · cases h with
    | halt =>
        obtain ⟨hsettled, c, r, hmem, hby⟩ := hok hcompleted
        exact ⟨hsettled, c, r, List.mem_append_left _ hmem, hby⟩
    | start =>
        obtain ⟨hsettled, c, r, hmem, hby⟩ := hok hcompleted
        exact ⟨hsettled, c, r, List.mem_append_left _ hmem, hby⟩
    | applyDecision =>
        obtain ⟨-, -, -, -, htransition⟩ := hknows
        obtain ⟨hnone, hrequirements⟩ := transition_completed htransition hcompleted
        refine ⟨hclosing hnone, c, _, List.mem_append_right _ (List.mem_singleton_self _), ?_⟩
        exact ⟨hcompleted, rfl, hrequirements⟩

variable (S) in
/-- The rule for runs in which the reviews decide on committed rows. -/
lemma completionJoint : Joint (processCalls S)
    (fun t _ w _ => t.On (fun _ v db => v.Committed db ∧ v.FreshProcess db) w)
    (fun _ _ _ _ => True)
    (fun w log => (∀ a, (w.view a).Consistent (S.on a) ∧ RowsAgree (w.view a)) ∧ w.Listed ∧
      CompletedOk w log)
    (fun t w _ => t.Exposed ∧ t.On (fun a v db => v.KnowsAll (S.on a) db) w ∧ t.Knows S w ∧
      t.Closing w) where
  own hnext hreview hcommon hcall := by
    have h := ProcessStep.of_advance hnext
    obtain ⟨hw, hlisted, hok⟩ := hcommon
    obtain ⟨ht, hK, hknows, hclosing⟩ := hcall
    exact ⟨⟨h.every_action (settledRule S) ht hreview hw hK, h.listed hlisted,
        h.completedOk ht hK hknows hclosing hw hok⟩,
      h.exposed ht, h.on_own (settledRule S) ht hreview hw hK, h.knows hknows, h.closing hlisted⟩
  other hnext hreview _ hlocks hcommon hcall hu := by
    have h := ProcessStep.of_advance hnext
    obtain ⟨hw, -⟩ := hcommon
    obtain ⟨ht, hK, -⟩ := hcall
    obtain ⟨htu, hKu, hknowsu, hclosingu⟩ := hu
    exact ⟨htu, h.on_other (settledRule S) ht hreview hlocks hw hK hKu,
      h.knows_other hlocks hknowsu, h.closing_other ht hK hw hlocks hclosingu⟩

/-! ### Runs -/

variable {n : ℕ} {createdAt : Time}
  {s s' : Pool n (ProcessDatabase V) (ProcessStage V) (ProcessEvent V)}
  {ms ms' : List (Fin n × ProcessInput V)}

omit [BEq V] in
/-- The step is none of a review that has loaded another approval than the committed one, or a
status from before the process was paused or over. -/
def CommittedReview (s : Pool n (ProcessDatabase V) (ProcessStage V) (ProcessEvent V))
    (m : Fin n × ProcessInput V) : Prop :=
  (s.calls m.1).On (fun _ t db => t.Committed db ∧ t.FreshProcess db) s.store

/-- **Completed processes.**  In every run in which the reviews decide on committed rows: a
completed process has no open action, and its facts satisfy the requirements of the decision
that has completed it; and so it is in every state after. -/
theorem completed_for_ever
    (h : Runs (processCalls S) CommittedReview (newProcess n createdAt) ms s) :
    CompletedOk s.store s.log ∧
    ∀ ms' s', Runs (processCalls S) CommittedReview s ms' s' →
      s.store.process.status = .completed →
      s'.store.process = s.store.process ∧ AllSettled s'.store := by
  have ok {ms : List (Fin n × ProcessInput V)}
      {s : Pool n (ProcessDatabase V) (ProcessStage V) (ProcessEvent V)}
      (h : Runs (processCalls S) CommittedReview (newProcess n createdAt) ms s) :
      CompletedOk s.store s.log := by
    refine ((completionJoint S).runs (fun _ _ _ hG => hG) (fun _ _ _ _ _ _ => trivial) h
      (newProcess_holds S n createdAt ⟨fun a => ?_, ?_, ?_⟩ ?_)).common.2.2
    · exact ⟨consistent_fresh (S.on a) .active, aligned_fresh .active⟩
    · exact fun a h => absurd rfl h
    · intro hcompleted
      cases hcompleted
    · exact ⟨trivial, trivial, trivial, trivial⟩
  refine ⟨ok h, fun ms' s' h' hcompleted => ?_⟩
  have hkept := terminal_kept_runs (process_sound_runs h) h' (by rw [hcompleted]; rfl)
  exact ⟨hkept, (ok (h.trans h') (by rw [hkept, hcompleted])).1⟩

end

/-- A computed check of `CommittedReview`. -/
def committedReview {n : ℕ} (s : Pool n (ProcessDatabase ℕ) (ProcessStage ℕ) (ProcessEvent ℕ))
    (m : Fin n × ProcessInput ℕ) : Bool :=
  match s.calls m.1 with
  | .action _ (.reviewing _ _) _ | .inspected _ _ _ _ _ => false
  | _ => true

lemma committedReview_sound {n : ℕ}
    {s : Pool n (ProcessDatabase ℕ) (ProcessStage ℕ) (ProcessEvent ℕ)}
    {m : Fin n × ProcessInput ℕ} (h : committedReview s m = true) : CommittedReview s m := by
  rw [committedReview] at h
  rw [CommittedReview]
  cases hstage : s.calls m.1 with
  | action a v startedAt =>
      rw [hstage] at h
      cases v with
      | reviewing => cases h
      | _ =>
          refine ⟨?_, trivial⟩
          intro c target existing hv
          cases hv
  | inspected =>
      rw [hstage] at h
      cases h
  | _ => trivial

/-- A process that is completed, and then taken over in vain. -/
theorem completed_for_ever_once :
    ∃ (ms : List (Fin 1 × ProcessInput ℕ))
      (s : Pool 1 (ProcessDatabase ℕ) (ProcessStage ℕ) (ProcessEvent ℕ)),
    Runs (processCalls (sampleServices false)) CommittedReview (newProcess 1 0) ms s ∧
    s.store.process.status = .completed ∧ CompletedOk s.store s.log ∧
    ∀ ms' s', Runs (processCalls (sampleServices false)) CommittedReview s ms' s' →
      s.store.process.status = .completed →
      s'.store.process = s.store.process ∧ AllSettled s'.store := by
  let ms : List (Fin 1 × ProcessInput ℕ) := completed 0 "t" "d" ++ controlled 0 "c" .takeover none
  obtain ⟨s, hruns, hp⟩ := exists_runs (C := processCalls (sampleServices false))
    (s := newProcess 1 0) committedReview ms (fun s => s.store.process.status = .completed)
    (by decide +kernel)
  have h := hruns.mono fun s m => committedReview_sound
  exact ⟨ms, s, h, of_decide_eq_true hp, completed_for_ever h⟩

/-- A review is read while its approval is pending; a revision is requested, so nothing is open,
and the process is completed; then the first review approves the action. -/
theorem reopened_by_review :
    ∃ (ms : List (Fin 2 × ProcessInput ℕ))
      (s : Pool 2 (ProcessDatabase ℕ) (ProcessStage ℕ) (ProcessEvent ℕ)),
    Runs (processCalls (sampleServices false)) (fun _ _ => True) (newProcess 2 0) ms s ∧
    s.store.process.status = .completed ∧ ¬ AllSettled s.store := by
  let read : List (ProcessAnswer ℕ) := [.action .go, .action .go, .action (.check none)]
  let take : List (ProcessAnswer ℕ) := [.action .go, .action (.time 0), .action (.check none)]
  let ms : List (Fin 2 × ProcessInput ℕ) := List.flatten
    [proposed 0 "action" .requireApproval 0,
      processMoves 0 0 (.action "action" (.review (sampleReview "a" .approve))) read,
      processMoves 1 0 (.action "action" (.review (sampleReview "b" .requestRevision)))
        (read ++ take),
      completed 1 "t" "d", take.map fun x => (0, .answer x)]
  obtain ⟨s, hruns, hp⟩ := exists_runs (C := processCalls (sampleServices false))
    (s := newProcess 2 0) (fun _ _ => true) ms
    (fun s => s.store.process.status = .completed &&
      (s.store.actions "action").request.any fun row => row.status.isOpen) (by decide +kernel)
  rw [Bool.and_eq_true] at hp
  obtain ⟨row, hrow, hopen⟩ := (Option.any_eq_true _ _).mp hp.2
  refine ⟨ms, s, hruns.mono fun _ _ _ => trivial, of_decide_eq_true hp.1, fun hsettled => ?_⟩
  rw [hsettled "action" row hrow] at hopen
  cases hopen

end TiramisuAgents
