import TiramisuAgents.Actions.Reviews
import TiramisuAgents.Processes.PauseFence

/-!
The locks of a review command.

A request loads the thread, the approval and the process without locks, and decides on these
rows after it has locked them: the locked `select` leaves the rows of the session as they are.
So what it decides on is the committed row at its lock only if no other transaction has committed
in between.

* `ReviewSession`: the rows a request has loaded when it asks for its locks.
* `ProcessStage.Holding`: what it does while it holds them.
* `review_fence`: a request that takes effect had a pending approval and a running process at its
  locks just when its session had not gone stale; `approved_after_takeover` is a run where it had.
-/

namespace TiramisuAgents

open Transactions

/-- A request that is about to lock its process and its approval, with the rows it has loaded. -/
structure ReviewSession where
  action : UUID
  command : ReviewCommand
  target : ReviewTarget
  process : ProcessStatus
  deriving DecidableEq

/-- The request that stands before its locks. -/
def ProcessStage.session {V : Type} : ProcessStage V → Option ReviewSession
  | .action a (.reviewing c (.messageRead target process _)) _ => some ⟨a, c, target, process⟩
  | _ => none

/-- The review holds its locks, and has found the rows of its session to permit it; or it is
over. -/
def Stage.Holding (r : ReviewSession) : Stage → Prop
  | .reviewing c (.locked target _) =>
      c = r.command ∧ target = r.target ∧ r.process.fenced = false
  | .reviewing c (.flushing target _ _) =>
      c = r.command ∧ target = r.target ∧ r.process.fenced = false ∧
        r.target.approval.status = .pending
  | .idle | .ended _ => True
  | _ => False

/-- The request holds its locks, or is over. -/
def ProcessStage.Holding {V : Type} (r : ReviewSession) : ProcessStage V → Prop
  | .action a v _ => a = r.action ∧ v.Holding r
  | .idle | .done _ => True
  | _ => False

section

variable {P : Platform} {t t' : Stage} {db db' : Database} {obs : List ActionEvent} {y : Answer}
  {r : ReviewSession}

/-- A review that holds its locks keeps the rows of its session. -/
lemma Step.holding (h : Step P t (.answer y) db t' db' obs) (ht : t.Holding r) :
    t'.Holding r := by
  cases h with
  | halt resting => cases t' <;> trivial
  | decideReview c target now request write pending =>
      obtain ⟨rfl, rfl, hunfenced⟩ := ht
      exact ⟨rfl, rfl, hunfenced, pending⟩
  | review => trivial
  | _ => cases ht

/-- A review that takes effect has held its locks. -/
lemma Step.effect (h : Step P t (.answer y) db t' db' obs) (ht : t.Holding r)
    (hfresh : db.heard r.command.commandId = none)
    (hwritten : db'.heard r.command.commandId ≠ none) :
    r.process.fenced = false ∧ r.target.approval.status = .pending := by
  obtain ⟨hmessages, -⟩ | ⟨c, target, request, write, rfl, -⟩ := h.heard_cases
  · rw [hmessages] at hwritten
    exact absurd hfresh hwritten
  · exact ht.2.2

end

/-! ### Requests -/

section

variable {V : Type} [BEq V] {S : Services V} {t t' : ProcessStage V} {w w' : ProcessDatabase V}
  {obs : List (ProcessEvent V)} {y : ProcessAnswer V} {r : ReviewSession}

/-- The locks are obtained, or the request is refused. -/
lemma ProcessStep.holding_of_session (h : ProcessStep S t (.answer (.action .go)) w t' w' obs)
    (ht : t.session = some r) : t'.Holding r := by
  cases h with
  | halt ended => obtain rfl | ⟨o, rfl⟩ := ended <;> trivial
  | act a v v' startedAt y db obs hopen hmoved =>
      cases v with
      | reviewing c stage =>
          cases stage with
          | messageRead target process existing =>
              obtain rfl := Option.some.inj ht
              refine ⟨rfl, ?_⟩
              have hstep := Step.of_next hmoved
              cases hstep with
              | halt resting => cases v' <;> trivial
              | lockReview => exact ⟨rfl, rfl, unfenced_of_messageRead hmoved⟩
          | _ => cases ht
      | _ => cases ht

/-- A request that holds its locks goes on with the rows of its session. -/
lemma ProcessStep.holding (h : ProcessStep S t (.answer y) w t' w' obs) (ht : t.Holding r) :
    t'.Holding r := by
  cases h with
  | halt ended => obtain rfl | ⟨o, rfl⟩ := ended <;> trivial
  | act a v v' startedAt y db obs hopen hmoved =>
      exact ⟨ht.1, (Step.of_next hmoved).holding ht.2⟩
  | inspect a v startedAt now block checked =>
      -- a review has no safety check
      obtain ⟨-, hv⟩ := ht
      cases v with
      | gating => cases hv
      | persistingLocked => cases hv
      | _ => cases checked
  | _ => cases ht

/-- A request that takes effect has held its locks. -/
lemma ProcessStep.effect (h : ProcessStep S t (.answer y) w t' w' obs) (ht : t.Holding r)
    (hfresh : (w.actions r.action).heard r.command.commandId = none)
    (hwritten : (w'.actions r.action).heard r.command.commandId ≠ none) :
    r.process.fenced = false ∧ r.target.approval.status = .pending := by
  cases h with
  | act a v v' startedAt y db obs hopen hmoved =>
      obtain ⟨rfl, hv⟩ := ht
      rw [ProcessDatabase.put_actions_self] at hwritten
      exact (Step.of_next hmoved).effect hv hfresh hwritten
  | halt => exact absurd hfresh hwritten
  | inspect => exact absurd hfresh hwritten
  | _ => cases ht

variable {n : ℕ} {s s₁ s₂ s₃ : Pool n (ProcessDatabase V) (ProcessStage V) (ProcessEvent V)}
  {i : Fin n} {ms : List (Fin n × ProcessInput V)}

variable (S) in
/-- The step of a request that asks for its locks: it obtains them, and reads the status of its
process. -/
def Locks (s s₁ : Pool n (ProcessDatabase V) (ProcessStage V) (ProcessEvent V)) (i : Fin n)
    (r : ReviewSession) : Prop :=
  (s.calls i).session = some r ∧
    s.step (processCalls S) (i, .answer (.action .go)) = some s₁

omit [BEq V] in
/-- The call of the request goes on; the other calls do anything. -/
def GoesOn (i : Fin n) (_ : Pool n (ProcessDatabase V) (ProcessStage V) (ProcessEvent V))
    (m : Fin n × ProcessInput V) : Prop :=
  m.1 = i → ∃ y, m.2 = .answer y

variable (S) in
/-- The step of a request that takes effect: it commits its command. -/
def TakesEffect (s s' : Pool n (ProcessDatabase V) (ProcessStage V) (ProcessEvent V)) (i : Fin n)
    (r : ReviewSession) : Prop :=
  (∃ y, s.step (processCalls S) (i, .answer y) = some s') ∧
    (s.store.actions r.action).heard r.command.commandId = none ∧
    (s'.store.actions r.action).heard r.command.commandId = some r.command.row

omit [BEq V] in
/-- The approval is pending and the process runs, as committed. -/
def ReviewSession.Permitted (r : ReviewSession) (w : ProcessDatabase V) : Prop :=
  (w.actions r.action).approval.map ApprovalRow.status = some .pending ∧
    w.process.status.fenced = false

omit [BEq V] in
/-- The rows of the session permit what the committed ones do: no transaction has settled the
approval, or paused, resumed or ended the process, since they were loaded. -/
def ReviewSession.Current (r : ReviewSession) (w : ProcessDatabase V) : Prop :=
  (w.actions r.action).approval.map ApprovalRow.status = some r.target.approval.status ∧
    w.process.status.fenced = r.process.fenced

/-- The stage of a request that has obtained its locks. -/
lemma holding_runs (hlock : Locks S s s₁ i r) (h : Runs (processCalls S) (GoesOn i) s₁ ms s₂) :
    (s₂.calls i).Holding r := by
  have hstart : (s₁.calls i).Holding r := by
    obtain ⟨t, w, obs, hmoved, rfl⟩ := process_step_cases hlock.2
    dsimp only
    rw [Function.update_self]
    exact hmoved.holding_of_session hlock.1
  refine h.invariant (I := fun s => (s.calls i).Holding r) (fun s m s' hs hgoes hstep => ?_) hstart
  obtain ⟨t, w, obs, hmoved, rfl⟩ := process_step_cases hstep
  by_cases hi : m.1 = i
  · obtain ⟨y, hy⟩ := hgoes hi
    rw [hy, hi] at hmoved
    dsimp only
    rw [hi, Function.update_self]
    exact hmoved.holding hs
  · dsimp only
    rw [Function.update_of_ne (Ne.symm hi)]
    exact hs

/-- **The fence of a review.**  A request that takes effect had, when it obtained its locks, a
pending approval and a process that is neither paused nor over if and only if the rows of its
session were current; whatever the other calls did before and after. -/
theorem review_fence (hlock : Locks S s s₁ i r)
    (h : Runs (processCalls S) (GoesOn i) s₁ ms s₂) (heffect : TakesEffect S s₂ s₃ i r) :
    r.Permitted s.store ↔ r.Current s.store := by
  obtain ⟨⟨y, hstep⟩, hfresh, hwritten⟩ := heffect
  obtain ⟨t, w, obs, hmoved, rfl⟩ := process_step_cases hstep
  have hwritten : (w.actions r.action).heard r.command.commandId = some r.command.row := hwritten
  obtain ⟨hunfenced, hpending⟩ := hmoved.effect (holding_runs hlock h) hfresh
    (by simp [hwritten])
  rw [ReviewSession.Permitted, ReviewSession.Current, hpending, hunfenced]

end

/-- A computed run in which a request obtains its locks and then takes effect. -/
def effective {n : ℕ} (i : Fin n) (r : ReviewSession) (ms : List (Fin n × ProcessInput ℕ))
    (ms' : List (Fin n × ProcessInput ℕ)) (y : ProcessAnswer ℕ)
    (p : ProcessDatabase ℕ → Bool) : Bool :=
  ((newProcess n 0).run (processCalls (sampleServices false)) (fun _ _ => true) ms).any fun s =>
    (s.calls i).session = some r && p s.store &&
    (s.step (processCalls (sampleServices false)) (i, .answer (.action .go))).any fun s₁ =>
      (s₁.run (processCalls (sampleServices false))
        (fun _ m => m.1 ≠ i || m.2 matches .answer _) ms').any fun s₂ =>
        (s₂.step (processCalls (sampleServices false)) (i, .answer y)).any fun s₃ =>
          (s₂.store.actions r.action).heard r.command.commandId = none &&
          (s₃.store.actions r.action).heard r.command.commandId = some r.command.row

lemma effective_sound {n : ℕ} {i : Fin n} {r : ReviewSession}
    {ms ms' : List (Fin n × ProcessInput ℕ)} {y : ProcessAnswer ℕ}
    {p : ProcessDatabase ℕ → Bool} (h : effective i r ms ms' y p = true) :
    ∃ s s₁ s₂ s₃ : Pool n (ProcessDatabase ℕ) (ProcessStage ℕ) (ProcessEvent ℕ),
      Runs (processCalls (sampleServices false)) (fun _ _ => True) (newProcess n 0) ms s ∧
      Locks (sampleServices false) s s₁ i r ∧
      Runs (processCalls (sampleServices false)) (GoesOn i) s₁ ms' s₂ ∧
      TakesEffect (sampleServices false) s₂ s₃ i r ∧ p s.store = true := by
  obtain ⟨s, hs, h⟩ := (Option.any_eq_true _ _).mp h
  simp only [Bool.and_eq_true, decide_eq_true_eq] at h
  obtain ⟨⟨hsession, hp⟩, h⟩ := h
  obtain ⟨s₁, hlock, h⟩ := (Option.any_eq_true _ _).mp h
  obtain ⟨s₂, hs₂, h⟩ := (Option.any_eq_true _ _).mp h
  obtain ⟨s₃, hstep, h⟩ := (Option.any_eq_true _ _).mp h
  simp only [Bool.and_eq_true, decide_eq_true_eq] at h
  refine ⟨s, s₁, s₂, s₃, (runs_of_run hs).mono fun _ _ _ => trivial, ⟨hsession, hlock⟩,
    (runs_of_run hs₂).mono fun _ m hm hi => ?_, ⟨⟨y, hstep⟩, h⟩, hp⟩
  rw [hi] at hm
  cases hx : m.2 with
  | answer y => exact ⟨y, rfl⟩
  | _ => simp [hx] at hm

/-- The review of a pending action of an active process. -/
def pendingReview (c : ReviewCommand) : ReviewSession where
  action := "action"
  command := c
  target := ⟨.open_, { status := .pending, payloadHash := "send[]" }⟩
  process := .active

/-- An approval that takes effect with current rows. -/
theorem review_fence_once :
    ∃ (r : ReviewSession) (ms : List (Fin 1 × ProcessInput ℕ))
      (s s₁ s₂ s₃ : Pool 1 (ProcessDatabase ℕ) (ProcessStage ℕ) (ProcessEvent ℕ)),
    Locks (sampleServices false) s s₁ 0 r ∧
    Runs (processCalls (sampleServices false)) (GoesOn 0) s₁ ms s₂ ∧
    TakesEffect (sampleServices false) s₂ s₃ 0 r ∧
    (r.Permitted s.store ↔ r.Current s.store) := by
  let r := pendingReview (sampleReview "r" .approve)
  let ms : List (Fin 1 × ProcessInput ℕ) := proposed 0 "action" .requireApproval 0 ++
    processMoves 0 0 (.action r.action (.review r.command))
      [.action .go, .action .go, .action (.check none)]
  obtain ⟨s, s₁, s₂, s₃, -, hlock, hgoes, heffect, -⟩ := effective_sound
    (show effective 0 r ms [(0, .answer (.action (.time 0)))] (.action (.check none))
      (fun _ => true) = true by decide +kernel)
  exact ⟨r, _, s, s₁, s₂, s₃, hlock, hgoes, heffect, review_fence hlock hgoes heffect⟩

/-- A request to approve loads its rows; then a revision is requested, and the process is taken
over.  The approval takes effect, although its locks were obtained after both. -/
theorem approved_after_takeover :
    ∃ (r : ReviewSession) (ms ms' : List (Fin 3 × ProcessInput ℕ))
      (s s₁ s₂ s₃ : Pool 3 (ProcessDatabase ℕ) (ProcessStage ℕ) (ProcessEvent ℕ)),
    Runs (processCalls (sampleServices false)) (fun _ _ => True) (newProcess 3 0) ms s ∧
    (s.store.actions r.action).approval.map ApprovalRow.status = some .superseded ∧
    s.store.process.status = .paused ∧
    Locks (sampleServices false) s s₁ 0 r ∧
    Runs (processCalls (sampleServices false)) (GoesOn 0) s₁ ms' s₂ ∧
    TakesEffect (sampleServices false) s₂ s₃ 0 r := by
  let r := pendingReview (sampleReview "r" .approve)
  let ms : List (Fin 3 × ProcessInput ℕ) := List.flatten
    [proposed 0 "action" .requireApproval 0,
      processMoves 0 0 (.action r.action (.review r.command))
        [.action .go, .action .go, .action (.check none)],
      processMoves 1 0 (.action "action" (.review (sampleReview "q" .requestRevision)))
        [.action .go, .action .go, .action (.check none), .action .go, .action (.time 0),
          .action (.check none)],
      controlled 2 "c" .takeover none]
  obtain ⟨s, s₁, s₂, s₃, hruns, hlock, hgoes, heffect, hp⟩ := effective_sound
    (show effective 0 r ms [(0, .answer (.action (.time 0)))] (.action (.check none))
      (fun w => (w.actions r.action).approval.map ApprovalRow.status = some .superseded &&
        w.process.status = .paused) = true by decide +kernel)
  rw [Bool.and_eq_true, decide_eq_true_eq, decide_eq_true_eq] at hp
  exact ⟨r, ms, _, s, s₁, s₂, s₃, hruns, hp.1, hp.2, hlock, hgoes, heffect⟩

end TiramisuAgents
