import TiramisuAgents.Actions.Fence
import TiramisuAgents.Processes.Actions
import TiramisuAgents.Processes.Revisions

/-!
The fence of a process that is paused or over.

The gateway, an execution and a decision read the status of the process under its lock.  A
review locks the process as well, but it goes on with the status that its session has loaded
before; so a review that was read before a takeover, or before the process was completed, is
still taken after it.

* `Stage.Unfenced`: where a call on an action needs the process to run.
* `pause_fence`: with reviews that have loaded the committed status, nothing is created, invoked,
  reviewed or decided for a process that is paused or over; `reviewed_while_paused` is the run
  without.
-/

namespace TiramisuAgents

open Transactions

/-! ### Calls on an action -/

/-- The process runs where a call that holds it is about to write. -/
def Stage.Unfenced (db : Database) : Stage → Prop
  | .claimed _ _ _ _ | .marking _ _ | .marked _ _ | .persistingLocked _
  | .reviewing _ (.locked _ _) | .reviewing _ (.flushing _ _ _) => db.process.fenced = false
  | _ => True

/-- The review has not loaded the status of a running process that by now is paused or over. -/
def Stage.FreshProcess (db : Database) : Stage → Prop
  | .reviewing _ (.messageRead _ process _) => process.fenced = false → db.process.fenced = false
  | _ => True

section

variable {P : Platform} {t t' u : Stage} {x : CallInput} {db db' : Database}
  {obs : List ActionEvent}

/-- The gateway looks at the status when it holds the process. -/
lemma unfenced_of_persisting {p p' : Proposal}
    (h : next P (.persisting p) x db = some (.persistingLocked p', db', obs)) :
    db.process.fenced = false := by
  cases x with
  | call c => cases h
  | crash => cases h
  | answer y =>
      cases y with
      | go =>
          rw [next, Stage.statement] at h
          split_ifs at h with hfenced
          · cases h
          · simpa using hfenced
      | _ => cases h

/-- A review looks at the status its session has loaded. -/
lemma unfenced_of_messageRead {c c' : ReviewCommand} {target target' : ReviewTarget}
    {process : ProcessStatus} {existing existing' : Option MessageRow}
    (h : next P (.reviewing c (.messageRead target process existing)) x db
      = some (.reviewing c' (.locked target' existing'), db', obs)) :
    process.fenced = false := by
  cases x with
  | call c => cases h
  | crash => cases h
  | answer y =>
      cases y with
      | go =>
          rw [next, Stage.statement, Reviewing.statement] at h
          split_ifs at h with hfenced
          · cases h
          · simpa using hfenced
      | _ => cases h

/-- An authorised row is that of a running process. -/
lemma Loaded.Current.unfenced {row : Loaded} {revision : ℕ} (h : row.Current db)
    (hrow : row.Admissible revision) : db.process.fenced = false :=
  h.process.symm ▸ hrow.unfenced

lemma unfenced_own (h : next P t x db = some (t', db', obs)) (hfresh : t.FreshProcess db)
    (hknows : t.Knows P db) (ht : t.Unfenced db) : t'.Unfenced db' := by
  have hstep := Step.of_next h
  cases hstep with
  | claim =>
      obtain ⟨-, -, hcurrent, hadmissible, -⟩ := hknows
      exact hcurrent.unfenced hadmissible
  | find =>
      obtain ⟨-, -, hcurrent, hadmissible, -⟩ := hknows
      exact hcurrent.unfenced hadmissible
  | flushMark => exact ht
  | halt => cases t' <;> trivial
  | start c => cases c <;> trivial
  | lockPersist p => exact unfenced_of_persisting h
  | lockReview c target process existing =>
      exact hfresh (unfenced_of_messageRead h)
  | decideReview => exact ht
  | _ => trivial

/-- A bystander at these stages holds the process. -/
lemma Step.unfenced_other (h : Step P t x db t' db' obs) (hlocks : ∀ l ∈ u.locks, l ∉ t.locks)
    (hu : u.Unfenced db) : u.Unfenced db' := by
  have kept (hprocess : RowLock.process ∈ u.locks) (hdb : db.process.fenced = false) :
      db'.process.fenced = false := by
    rw [(h.process_frame (hlocks _ hprocess)).1]
    exact hdb
  cases u with
  | claimed => exact kept (by simp [Stage.locks]) hu
  | marking => exact kept (by simp [Stage.locks]) hu
  | marked => exact kept (by simp [Stage.locks]) hu
  | persistingLocked => exact kept (by simp [Stage.locks]) hu
  | reviewing c r =>
      cases r with
      | locked => exact kept (by simp [Stage.locks, Reviewing.locks]) hu
      | flushing target request write =>
          refine kept ?_ hu
          rw [Stage.locks, Reviewing.locks]
          split_ifs <;> simp
      | _ => trivial
  | _ => trivial

/-- What no call on the action does while its process is paused or over. -/
structure FrozenAction (db db' : Database) (obs : List ActionEvent) : Prop where
  created : db.request = none → db'.request = none
  invoked : ∀ inv, .invoked inv ∉ obs
  reviewed : db'.messages = db.messages ∧ db'.approval = db.approval ∧ db'.decision = db.decision

/-- While the process is paused or over an action is not created, reviewed or executed. -/
lemma Step.frozen (h : Step P t x db t' db' obs) (hexposed : t.exposed = true)
    (ht : t.Knows P db) (hunfenced : t.Unfenced db) (hfenced : db.process.fenced = true) :
    FrozenAction db db' obs := by
  have stopped {Q : Prop} (h : db.process.fenced = false) : Q := by
    rw [hfenced] at h
    cases h
  cases h with
  | invoke revision key row =>
      obtain ⟨-, -, hcurrent, hadmissible, -⟩ := ht
      exact stopped (hcurrent.unfenced hadmissible)
  | review => exact stopped hunfenced
  | persist => exact stopped hunfenced
  | insert => exact ⟨fun h => by simp [h], fun _ => by simp, rfl, rfl, rfl⟩
  | reclaim => exact ⟨fun h => by simp [h], fun _ => by simp, rfl, rfl, rfl⟩
  | remark => exact ⟨fun h => by simp [h], fun _ => by simp, rfl, rfl, rfl⟩
  | mark => exact ⟨fun h => by simp [h], fun _ => by simp, rfl, rfl, rfl⟩
  | record => exact ⟨fun h => by simp [h], fun _ => by simp, rfl, rfl, rfl⟩
  | resolve => exact ⟨fun h => by simp [h], fun _ => by simp, rfl, rfl, rfl⟩
  | reviewElsewhere => cases hexposed
  | _ => exact ⟨fun h => h, fun _ => by simp, rfl, rfl, rfl⟩

end

/-! ### Calls on the process -/

section

variable {V : Type} [BEq V] {S : Services V} {t t' u : ProcessStage V} {x : ProcessInput V}
  {w w' : ProcessDatabase V} {obs : List (ProcessEvent V)}

variable (S) in
omit [BEq V] in
/-- What the calls on an action know of the status of the process. -/
lemma fenceRule : EveryAction S (fun _ t db => t.FreshProcess db)
    (fun a t db => t.Knows (S.on a) db ∧ t.Unfenced db) (fun a db => db.Consistent (S.on a)) where
  joint _ :=
    { own := fun hnext hfresh hdb ht =>
        have h := Step.of_next hnext
        ⟨h.consistent hdb ht.1, h.knows ht.1, unfenced_own hnext hfresh ht.1 ht.2⟩
      other := fun hnext _ _ hlocks _ ht hu =>
        have h := Step.of_next hnext
        ⟨h.knows_other hlocks ht.1 hu.1, h.unfenced_other hlocks hu.2⟩ }
  idle _ _ := ⟨trivial, trivial, trivial⟩
  setting _ _ _ := ⟨trivial, trivial, trivial⟩

omit [BEq V] in
/-- What no call does to a process that is paused or over: create, execute or review an action,
or add a revision. -/
structure Frozen (w w' : ProcessDatabase V) (obs : List (ProcessEvent V)) : Prop where
  created : ∀ a, (w.actions a).request = none → (w'.actions a).request = none
  invoked : ∀ a inv, .action a (.invoked inv) ∉ obs
  reviewed : ∀ a, (w'.actions a).messages = (w.actions a).messages ∧
    (w'.actions a).approval = (w.actions a).approval ∧
    (w'.actions a).decision = (w.actions a).decision
  revisions : w'.revisions = w.revisions

omit [BEq V] in
/-- The rows of one action are written. -/
lemma FrozenAction.frozen {a : UUID} {db : Database} {now : Time} {obs : List ActionEvent}
    {sent : List (ProcessEvent V)} (h : FrozenAction (w.view a) db obs)
    (hsent : ∀ b inv, .action b (.invoked inv) ∉ sent) :
    Frozen w (w.put a db now) (obs.map (.action a) ++ sent) where
  created b hb := by
    by_cases hab : b = a
    · subst hab
      rw [ProcessDatabase.put_actions_self]
      exact h.created hb
    · rwa [ProcessDatabase.put_actions_of_ne hab]
  invoked b inv hmem := by
    obtain hmem | hmem := List.mem_append.mp hmem
    · obtain ⟨e, he, heq⟩ := List.mem_map.mp hmem
      rw [ProcessEvent.action.injEq] at heq
      obtain ⟨-, rfl⟩ := heq
      exact h.invoked inv he
    · exact hsent b inv hmem
  reviewed b := by
    by_cases hab : b = a
    · subst hab
      rw [ProcessDatabase.put_actions_self]
      exact h.reviewed
    · rw [ProcessDatabase.put_actions_of_ne hab]
      exact ⟨rfl, rfl, rfl⟩
  revisions := rfl

/-- **The fence**: no call creates, executes, reviews or decides anything for a process that is
paused or over. -/
lemma ProcessStep.frozen (h : ProcessStep S t x w t' w' obs) (hexposed : t.Exposed)
    (hK : t.Knows S w) (ht : t.On (fun a v db => v.Knows (S.on a) db ∧ v.Unfenced db) w)
    (hfenced : w.process.status.fenced = true) : Frozen w w' obs := by
  have acted {a : UUID} {v v' : Stage} {y : Answer} {db : Database} {obs : List ActionEvent}
      (hmoved : next (S.on a) v (.answer y) (w.view a) = some (v', db, obs))
      (hv : v.exposed = true) (hw : v.Knows (S.on a) (w.view a) ∧ v.Unfenced (w.view a)) :
      FrozenAction (w.view a) db obs :=
    (Step.of_next hmoved).frozen hv hw.1 hw.2 hfenced
  cases h with
  | act a v v' startedAt y db obs hopen hmoved =>
      have h : Frozen w (w.put a db startedAt) (obs.map (.action a) ++ []) :=
        (acted hmoved hexposed ht).frozen fun _ _ => List.not_mem_nil
      rwa [List.append_nil] at h
  | propose a p v' startedAt now block error db obs hmoved =>
      have h : Frozen w (w.put a db startedAt) (obs.map (.action a) ++ []) :=
        (acted hmoved hexposed ht).frozen fun _ _ => List.not_mem_nil
      rwa [List.append_nil] at h
  | gate a revision key row v' startedAt now block breakers db obs hmoved =>
      refine (acted hmoved hexposed ht).frozen fun b inv hmem => ?_
      split_ifs at hmem <;> simp at hmem
  | applyDecision c row =>
      -- the decision was checked against the status under the lock it still holds
      obtain ⟨rfl, hunfenced, -⟩ := hK
      rw [hfenced] at hunfenced
      cases hunfenced
  | repeatDecision => exact ⟨fun _ h => h, by simp, fun _ => ⟨rfl, rfl, rfl⟩, rfl⟩
  | control => exact ⟨fun _ h => h, by simp, fun _ => ⟨rfl, rfl, rfl⟩, rfl⟩
  | _ => exact ⟨fun _ h => h, fun _ _ => List.not_mem_nil, fun _ => ⟨rfl, rfl, rfl⟩, rfl⟩

/-- The row of a process that is over is written as it is. -/
lemma ProcessStep.terminal_kept (h : ProcessStep S t x w t' w' obs) (hK : t.Knows S w)
    (hterminal : w.process.status.terminal = true) : w'.process = w.process := by
  have hfenced : w.process.status.fenced = true := by
    cases hstatus : w.process.status <;> simp_all [ProcessStatus.terminal, ProcessStatus.fenced]
  obtain hsame | ⟨c, row, facts, openActions, transition, rfl, -⟩ | ⟨v, row, rfl, hprocess⟩ |
    ⟨c, reason, row, write, rfl, -, -, hlive, -⟩ := h.process_cases
  · exact hsame
  · obtain ⟨rfl, hunfenced, -⟩ := hK
    rw [hfenced] at hunfenced
    cases hunfenced
  · obtain rfl : row = w.process := hK
    rw [hprocess, ProcessRow.intervene, if_pos hfenced]
  · obtain rfl : row = w.process := hK
    rw [hterminal] at hlive
    cases hlive

/-! ### Runs -/

variable {n : ℕ} {createdAt : Time}
  {s s' : Pool n (ProcessDatabase V) (ProcessStage V) (ProcessEvent V)}
  {ms ms' : List (Fin n × ProcessInput V)}

omit [BEq V] in
/-- The step is none of a review that goes on with a status from before the process was paused
or over. -/
def FreshReview (s : Pool n (ProcessDatabase V) (ProcessStage V) (ProcessEvent V))
    (m : Fin n × ProcessInput V) : Prop :=
  (s.calls m.1).On (fun _ t db => t.FreshProcess db) s.store

variable (S) in
/-- The next step creates, executes, reviews and decides nothing if the process is paused or
over. -/
def FencedStep (s : Pool n (ProcessDatabase V) (ProcessStage V) (ProcessEvent V)) : Prop :=
  ∀ m s', FreshReview s m → s.step (processCalls S) m = some s' →
    s.store.process.status.fenced = true →
    ∃ obs, s'.log = s.log ++ obs ∧ Frozen s.store s'.store obs

variable (S) in
/-- The row of the process stays as it is for ever if the process is over. -/
def KeptForEver (s : Pool n (ProcessDatabase V) (ProcessStage V) (ProcessEvent V)) : Prop :=
  ∀ ms' s', Runs (processCalls S) FreshReview s ms' s' →
    s.store.process.status.terminal = true → s'.store.process = s.store.process

/-- The row of a process that is over, in every run. -/
lemma terminal_kept_runs
    {G : Pool n (ProcessDatabase V) (ProcessStage V) (ProcessEvent V) →
      Fin n × ProcessInput V → Prop}
    (hs : Joint.Holds (processCalls S) (fun _ _ => True) (fun t w _ => t.Knows S w) s)
    (h : Runs (processCalls S) G s ms' s') (hterminal : s.store.process.status.terminal = true) :
    s'.store.process = s.store.process := by
  induction h with
  | nil s => rfl
  | @cons s₁ s₂ s₃ m ms hG hstep _ ih =>
      have hs₂ := (processSound S).step hs trivial (fun _ _ => trivial) hstep
      obtain ⟨t, w, obs, hmoved, rfl⟩ := process_step_cases hstep
      have hkept := hmoved.terminal_kept (hs.calls m.1) hterminal
      exact (ih hs₂ (by rw [hkept]; exact hterminal)).trans hkept

/-- **The fence of a process that is paused or over.**  In every run in which the reviews have
loaded the committed status: while the process is paused or over no action is created, the
provider is not invoked, no review takes effect and no revision is added; and once it is over,
its row never changes. -/
theorem pause_fence (h : Runs (processCalls S) FreshReview (newProcess n createdAt) ms s) :
    FencedStep S s ∧ KeptForEver S s := by
  have hsound := process_sound_runs h
  have hs := (fenceRule S).lift.runs (fun _ _ _ hG => hG) (fun _ _ _ _ _ _ => trivial) h
    (newProcess_holds S n createdAt (fun a => consistent_fresh (S.on a) .active) ⟨trivial, trivial⟩)
  refine ⟨?_, fun ms' s' h' hterminal => terminal_kept_runs hsound h' hterminal⟩
  rintro ⟨i, x⟩ s' hfresh hstep hfenced
  obtain ⟨t, w, obs, hmoved, rfl⟩ := process_step_cases hstep
  exact ⟨obs, rfl, hmoved.frozen (hs.calls i).1 (hsound.calls i) (hs.calls i).2 hfenced⟩

end

/-- A computed check of `FreshReview`. -/
def freshReview {n : ℕ} (s : Pool n (ProcessDatabase ℕ) (ProcessStage ℕ) (ProcessEvent ℕ))
    (m : Fin n × ProcessInput ℕ) : Bool :=
  match s.calls m.1 with
  | .action _ (.reviewing _ (.messageRead _ process _)) _
  | .inspected _ (.reviewing _ (.messageRead _ process _)) _ _ _ =>
      process.fenced || !s.store.process.status.fenced
  | _ => true

lemma freshReview_sound {n : ℕ}
    {s : Pool n (ProcessDatabase ℕ) (ProcessStage ℕ) (ProcessEvent ℕ)}
    {m : Fin n × ProcessInput ℕ} (h : freshReview s m = true) : FreshReview s m := by
  have fresh {a : UUID} {v : Stage}
      (hv : ∀ c target process existing,
        v = .reviewing c (.messageRead target process existing) →
        (process.fenced || !s.store.process.status.fenced) = true) :
      v.FreshProcess (s.store.view a) := by
    cases v with
    | reviewing c r =>
        cases r with
        | messageRead target process existing =>
            intro hrunning
            have hcopy := hv _ _ _ _ rfl
            rw [hrunning, Bool.false_or, Bool.not_eq_true'] at hcopy
            exact hcopy
        | _ => trivial
    | _ => trivial
  rw [freshReview] at h
  rw [FreshReview]
  cases hstage : s.calls m.1 with
  | action a v startedAt =>
      refine fresh fun c target process existing hv => ?_
      rw [hstage, hv] at h
      exact h
  | inspected a v startedAt now block =>
      refine fresh fun c target process existing hv => ?_
      rw [hstage, hv] at h
      exact h
  | _ => trivial

/-- A process that is completed, and then reviewed in vain. -/
theorem pause_fence_once :
    ∃ (ms : List (Fin 1 × ProcessInput ℕ))
      (s : Pool 1 (ProcessDatabase ℕ) (ProcessStage ℕ) (ProcessEvent ℕ)),
    Runs (processCalls (sampleServices false)) FreshReview (newProcess 1 0) ms s ∧
    s.store.process.status.terminal = true ∧
    FencedStep (sampleServices false) s ∧ KeptForEver (sampleServices false) s := by
  let ms : List (Fin 1 × ProcessInput ℕ) :=
    completed 0 "t" "d" ++ processMoves 0 0 (.action "action" (.review (sampleReview "r" .approve)))
      [.action .go]
  obtain ⟨s, hruns, hp⟩ := exists_runs (C := processCalls (sampleServices false))
    (s := newProcess 1 0) freshReview ms (fun s => s.store.process.status.terminal)
    (by decide +kernel)
  have h := hruns.mono fun s m => freshReview_sound
  exact ⟨ms, s, h, hp, pause_fence h⟩

/-- A review is read before a takeover, and taken while the process is paused. -/
theorem reviewed_while_paused :
    ∃ (ms : List (Fin 2 × ProcessInput ℕ)) (m : Fin 2 × ProcessInput ℕ)
      (s s' : Pool 2 (ProcessDatabase ℕ) (ProcessStage ℕ) (ProcessEvent ℕ)),
    Runs (processCalls (sampleServices false)) (fun _ _ => True) (newProcess 2 0) ms s ∧
    s.step (processCalls (sampleServices false)) m = some s' ∧
    s.store.process.status = .paused ∧ (s.store.actions "action").decision = none ∧
    (s'.store.actions "action").decision = some ⟨.approved, "send[]"⟩ := by
  let ms : List (Fin 2 × ProcessInput ℕ) := List.flatten
    [proposed 0 "action" .requireApproval 0,
      processMoves 0 0 (.action "action" (.review (sampleReview "r" .approve)))
        [.action .go, .action .go, .action (.check none)],
      controlled 1 "c" .takeover none,
      [(0, .answer (.action .go)), (0, .answer (.action (.time 0)))]]
  obtain ⟨s, hruns, hp⟩ := exists_runs (C := processCalls (sampleServices false))
    (s := newProcess 2 0) (fun _ _ => true) ms
    (fun s => s.store.process.status = .paused && (s.store.actions "action").decision = none &&
      (s.step (processCalls (sampleServices false)) (0, .answer (.action (.check none)))).any
        fun s' => (s'.store.actions "action").decision = some ⟨.approved, "send[]"⟩)
    (by decide +kernel)
  rw [Bool.and_eq_true, Bool.and_eq_true] at hp
  obtain ⟨⟨hpaused, hnone⟩, hp⟩ := hp
  obtain ⟨s', hstep, hdecision⟩ := (Option.any_eq_true _ _).mp hp
  exact ⟨ms, _, s, s', hruns.mono fun _ _ _ => trivial, hstep, of_decide_eq_true hpaused,
    of_decide_eq_true hnone, of_decide_eq_true hdecision⟩

end TiramisuAgents
