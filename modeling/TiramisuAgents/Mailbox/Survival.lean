import TiramisuAgents.Mailbox.ExactlyOnce
import TiramisuAgents.Mailbox.LoopRule

/-!
What ends a mailbox by an exception.

An error of an Activity that leaves a turn is reported in the `except` clause of the turn, and
an error of that report goes on to the turn before it in the chain.  Nothing is left to report
an error once it leaves the first turn, and an approved action is executed outside of any turn.

* `openTurns`: how many turns of the latest message are still there to report an error.
* `Survivable`: the observations that do not end the mailbox.
* `run_ends_well_iff`: a run ends by an exception exactly if it makes any other observation.
* `killed_by_incompatibility`, `killed_by_unreported_failure`: two runs that do.
-/

namespace TiramisuAgents

open Coroutine

/-! ### The turns that can report an error -/

/-- The effect of an observation on the number of open turns: a message or a due timer begins
with none, `run_agent_turn` opens one once it has answered, and a turn that fails to report its
error closes. -/
def openTurnsAfter (n : ℕ) : Obs → ℕ
  | .popped _ => 0
  | .started (.runAgentTurn command) => if command.sources.timerIds = [] then n else 0
  | .completed (.runAgentTurn _) (.turn (.ok _)) => n + 1
  | .completed (.runAgentTurn _) (.turn (.error error)) =>
      if error.isType "TenantSuspended" then n else n + 1
  | .completed (.recordProcessIntervention command) (.intervention (.error _)) =>
      if command.kind = "turn_failure" then n - 1 else n
  | _ => n

/-- The number of turns of the latest message that `run_agent_turn` has answered and that have
not failed to report an error of theirs. -/
def openTurns (log : List Obs) : ℕ := log.foldl openTurnsAfter 0

@[simp] lemma openTurns_concat (log : List Obs) (o : Obs) :
    openTurns (log ++ [o]) = openTurnsAfter (openTurns log) o := by
  rw [openTurns, List.foldl_append]
  rfl

/-- The observations that do not end a mailbox: the first turn of a message is able to report
its error, and no approved action fails with an error of compatibility. -/
def Survivable (before : List Obs) : Obs → Prop
  | .completed (.recordProcessIntervention command) (.intervention (.error _)) =>
      command.kind = "turn_failure" → 1 < openTurns before
  | .completed (.executeAction _) (.executed (.error error)) =>
      error.isType "ActionExecutionSuspended" = false →
        error.isType deploymentCompatibilityError = true → 0 < openTurns before
  | .completed (.reconcileAction _) (.reconciled (.error error)) =>
      error.isType deploymentCompatibilityError = true → 0 < openTurns before
  | _ => True

/-- The ways a mailbox may end: by returning after it was closed. -/
def EndsWell : Res Runtime Input Obs Await Failure Unit → Prop
  | .done _ w _ => w.self.mailbox.closed = true
  | .raised _ _ _ => False
  | .blocked _ _ => True

/-! ### The assertions of a run -/

/-- A mailbox that has survived so far, with `n` open turns. -/
structure Surviving (n : ℕ) (log : List Obs) : Prop where
  survived : Along Survivable log
  turns : openTurns log = n

namespace Surviving

variable {n : ℕ} {log : List Obs} {o : Obs}

lemma concat (h : Surviving n log) (ho : Survivable log o) :
    Surviving (openTurnsAfter n o) (log ++ [o]) := by
  refine ⟨along_concat.mpr ⟨h.survived, ho⟩, ?_⟩
  rw [openTurns_concat, h.turns]

/-- An observation that opens and closes no turn. -/
lemma keep (h : Surviving n log) (ho : Survivable log o) (hn : openTurnsAfter n o = n) :
    Surviving n (log ++ [o]) := by
  have hconcat := h.concat ho
  rwa [hn] at hconcat

end Surviving

/-- An error on its way out of `n` open turns: the next of them reports it, or the mailbox has
not survived it. -/
def Escaping (n : ℕ) (log : List Obs) : Prop :=
  0 < n ∧ Surviving n log ∨ n = 0 ∧ ¬ Along Survivable log

/-- An error that leaves a turn or an action, at an observation that the mailbox survives if some
turn is left to report it. -/
lemma Surviving.escaping {n left : ℕ} {log : List Obs} {o : Obs} (h : Surviving n log)
    (ho : Survivable log o ↔ 0 < left) (hn : openTurnsAfter n o = left) :
    Escaping left (log ++ [o]) := by
  rcases Nat.eq_zero_or_pos left with hzero | hpos
  · refine .inr ⟨hzero, fun hsurvived => ?_⟩
    have hleft := ho.mp hsurvived.last
    omega
  · have hconcat := h.concat (ho.mpr hpos)
    rw [hn] at hconcat
    exact .inl ⟨hpos, hconcat⟩

lemma surviving_robust (n : ℕ) (Φ : List Obs → Prop) : Robust Φ fun w => Surviving n w.log :=
  robust_of_log (fun _ _ h => h.keep trivial rfl) (fun _ _ h => h.keep trivial rfl)
    fun _ _ h => h.keep trivial rfl

/-- Executing an action `n` turns deep: an error of compatibility leaves it. -/
lemma survival_actionRule {Φ : List Obs → Prop} {command : ActionCommand} (n : ℕ) :
    ActionRule Φ command (fun w => Surviving n w.log) (fun w => Surviving n w.log)
      (fun _ w => Surviving n w.log)
      ⟨fun _ w => Surviving n w.log, fun e w => ∃ error, e = .activity error ∧ Escaping n w.log,
        fun l w => l ≠ .waitCondition ∧ Along Survivable w.log⟩ where
  trying_bookkept := (surviving_robust n Φ).bookkept
  acting_stable := (surviving_robust n Φ).stable
  retrying := id
  answered_bookkept := fun _ => (surviving_robust n Φ).bookkept
  answered_stable := fun _ => (surviving_robust n Φ).stable
  started := fun h => h.keep trivial rfl
  restarted := fun h _ => h.keep trivial rfl
  suspended := by
    intro w error h hs _
    refine h.keep (fun hs' => ?_) rfl
    rw [hs] at hs'
    cases hs'
  closed := fun h _ => h
  executed := fun h _ => h.keep trivial rfl
  failed := by
    intro w error h _ hc _
    refine h.keep (fun _ hc' => ?_) rfl
    rw [hc] at hc'
    cases hc'
  incompatible := by
    intro w error h hs hc _
    refine ⟨error, rfl, h.escaping ?_ rfl⟩
    simp [Survivable, hs, hc, h.turns]
  known := fun h _ => h
  reconciled := fun h _ _ => h.keep trivial rfl
  unreconciled := by
    intro w r error h _ hc _
    refine h.keep (fun hc' => ?_) rfl
    rw [hc] at hc'
    cases hc'
  irreconcilable := by
    intro w r error h _ hc _
    refine ⟨error, rfl, h.escaping ?_ rfl⟩
    simp [Survivable, hc, h.turns]
  done_update := fun _ _ _ h => h
  raised_update := fun _ _ _ h => h
  blocked := fun hl h => ⟨hl, h.elim Surviving.survived fun ⟨_, h⟩ => h.survived⟩

/-- What holds at the points of a turn that was chained from `callers`. -/
def survivalAt (callers : List TurnCommand) : Point → List Obs → Prop
  | .ready sources, log =>
      Along Survivable log ∧
        (if sources.timerIds = [] then openTurns log else 0) = callers.length
  | .running command, log =>
      Surviving callers.length log ∧ (command.sources.timerIds ≠ [] → callers.length = 0)
  | .reporting command, log =>
      Surviving (callers.length + if command.kind = "turn_failure" then 1 else 0) log ∧
        (callers = [] → command.kind = "turn_failure")
  | .broken, log => Escaping callers.length log
  | .settled, log => Along Survivable log
  | _, log => Surviving (callers.length + 1) log

/-- What happens besides a turn changes nothing about it. -/
lemma survivalAt_keep {callers : List TurnCommand} {p : Point} {log : List Obs} {o : Obs}
    (h : survivalAt callers p log) (ho : ∀ before, Survivable before o)
    (hn : ∀ n, openTurnsAfter n o = n) : survivalAt callers p (log ++ [o]) := by
  cases p with
  | ready sources =>
      refine ⟨along_concat.mpr ⟨h.1, ho log⟩, ?_⟩
      rw [openTurns_concat, hn]
      exact h.2
  | running command => exact ⟨h.1.keep (ho log) (hn _), h.2⟩
  | reporting command => exact ⟨h.1.keep (ho log) (hn _), h.2⟩
  | broken =>
      rcases h with ⟨hpos, h⟩ | ⟨hzero, h⟩
      · exact .inl ⟨hpos, h.keep (ho log) (hn _)⟩
      · exact .inr ⟨hzero, fun h' => h (along_concat.mp h').1⟩
  | settled => exact along_concat.mpr ⟨h, ho log⟩
  | _ => exact Surviving.keep h (ho log) (hn _)

lemma survivalAt_robust (callers : List TurnCommand) (p : Point) (Φ : List Obs → Prop) :
    Robust Φ fun w => survivalAt callers p w.log :=
  robust_of_log (fun _ _ h => survivalAt_keep h (fun _ => trivial) fun _ => rfl)
    (fun _ _ h => survivalAt_keep h (fun _ => trivial) fun _ => rfl)
    fun _ _ h => survivalAt_keep h (fun _ => trivial) fun _ => rfl

/-- An error is reported by the turn it leaves, or by the next one. -/
lemma survival_chainRule :
    ChainRule (fun _ => True) (fun callers p w => survivalAt callers p w.log)
      (Along Survivable) where
  bookkept := fun callers p => (survivalAt_robust callers p fun _ => True).bookkept
  stable := fun callers p _ => (survivalAt_robust callers p _).stable
  found := by
    intro callers p w hp h
    cases p with
    | ready sources => exact h.1
    | running command => exact h.1.survived
    | reporting command => exact h.1.survived
    | broken => exact absurd rfl hp
    | settled => exact h
    | _ => exact Surviving.survived h
  begun := by
    intro callers c w h
    refine ⟨⟨along_concat.mpr ⟨h.1, trivial⟩, ?_⟩, fun htimer => ?_⟩
    · rw [observed, openTurns_concat]
      exact h.2
    · have hlength := h.2
      rw [if_neg htimer] at hlength
      exact hlength.symm
  retried := by
    intro callers c w h
    refine ⟨h.1.keep trivial ?_, h.2⟩
    rw [openTurnsAfter]
    split
    · rfl
    · rename_i htimer
      exact (h.2 htimer).symm
  unconfigured := fun h _ => h.1
  suspended := by
    intro callers c w error h hs _
    refine ⟨h.1.keep trivial ?_, h.2⟩
    rw [openTurnsAfter, if_pos hs]
  closed := fun h _ => h.1.survived
  undecided := by
    intro callers c w error h hs _
    have hanswered : openTurnsAfter callers.length
        (.completed (.runAgentTurn c) (.turn (.error error))) = callers.length + 1 := by
      rw [openTurnsAfter, hs]
      rfl
    have halive := h.1.concat (o := .completed (.runAgentTurn c) (.turn (.error error))) trivial
    rwa [hanswered] at halive
  decided := fun {_ c _ d} h _ =>
    h.1.concat (o := .completed (.runAgentTurn c) (.turn (.ok d))) trivial
  saved := fun h _ => Surviving.keep h trivial rfl
  unpersisted := fun h _ => Surviving.keep h trivial rfl
  persisted := fun h _ => Surviving.keep h trivial rfl
  projecting := fun h _ => Surviving.keep h trivial rfl
  unprojected := fun h _ => Surviving.keep h trivial rfl
  projected := fun h _ => Surviving.keep h trivial rfl
  preempted := by
    intro callers p record w hp h _ _
    refine along_concat.mpr ⟨?_, trivial⟩
    cases p with
    | deciding c d => exact Surviving.survived h
    | persisting c d items => exact Surviving.survived h
    | executing c d items o rest results => exact Surviving.survived h
    | failing c progress => exact Surviving.survived h
    | _ => cases hp
  skipped := fun h _ => h
  executed := by
    intro callers c d items o item rest results w h _ _
    refine wp_mono ((survival_actionRule (callers.length + 1)).wp_executePendingAction
      (fun _ _ _ _ => trivial) rfl h) (fun _ _ _ _ h => h) ?_ fun _ _ _ _ h => h
    rintro e w' - - ⟨error, rfl, ⟨-, hescaping⟩ | ⟨hzero, -⟩⟩
    · exact ⟨error, rfl, hescaping⟩
    · exact absurd hzero (Nat.succ_ne_zero _)
  concluded := fun h _ _ => Surviving.survived h
  planned := fun h _ _ _ => Surviving.survived h
  parked := fun h _ => Surviving.survived h
  chained := fun h _ _ => ⟨Surviving.survived h, h.turns⟩
  limited := fun h _ => ⟨h, fun hnil => absurd hnil (List.cons_ne_nil _ _)⟩
  failed := fun h _ _ => ⟨h, fun _ => rfl⟩
  reporting := fun h => ⟨h.1.keep trivial rfl, h.2⟩
  reported := fun h _ => along_concat.mpr ⟨h.1.survived, trivial⟩
  unreported := by
    intro callers command w error h _
    obtain ⟨h, hkind⟩ := h
    by_cases hfailure : command.kind = "turn_failure"
    · -- the turn closes, and those before it are left
      rw [if_pos hfailure] at h
      refine h.escaping ?_ ?_
      · simp [Survivable, hfailure, h.turns]
      · simp [openTurnsAfter, hfailure]
    · -- the chain limit: the last turn is left to report that its results are not taken up
      rw [if_neg hfailure, Nat.add_zero] at h
      refine h.escaping ?_ ?_
      · have hcallers := List.length_pos_iff.mpr (mt hkind hfailure)
        simp [Survivable, hfailure, hcallers]
      · simp [openTurnsAfter, hfailure]
  resumed := fun h => h
  rescued := by
    rintro callers c progress w (⟨-, h⟩ | ⟨hzero, -⟩)
    · exact h
    · exact absurd hzero (Nat.succ_ne_zero _)

/-- A turn may begin when no turn is open. -/
lemma ready_of_alive {sources : TurnSources} {log : List Obs} (h : Surviving 0 log) :
    survivalAt [] (.ready sources) log :=
  ⟨h.survived, by rw [h.turns, ite_self]; rfl⟩

lemma survival_stable :
    Stable (fun _ => True) fun w => Steady w ∧ Along Survivable w.log :=
  fun i w h hφ => ⟨steady_invariant.absorb i h.1,
    (survivalAt_robust [] .settled fun _ => True).stable i w h.2 hφ⟩

/-- The rounds of the loop begin with no open turn. -/
lemma survival_runRule :
    RunRule (fun _ => True) (fun callers p w => survivalAt callers p w.log) (Along Survivable)
      (fun _ w => Surviving 0 w.log) Steady (fun w => Steady w ∧ Along Survivable w.log)
      (fun w => Steady w ∧ Along Survivable w.log) (fun w => ¬ Along Survivable w.log) where
  turn := survival_chainRule
  found := And.right
  broken := by
    rintro w (⟨hpos, -⟩ | ⟨-, h⟩)
    · exact absurd hpos (lt_irrefl 0)
    · exact h
  invariant := steady_invariant
  base := And.left
  coherent := fun h => h.1.coherent
  settled := fun hJ h _ => ⟨hJ, h⟩
  stable := survival_stable
  handover := fun _ h _ => ⟨⟨rfl, h.1.coherent.timer, h.1.coherent.limit⟩, h.2⟩
  ready_update := id
  taken_update := id
  taken := by
    intro w source h _ _
    refine ⟨along_concat.mpr ⟨h.2, trivial⟩, ?_⟩
    rw [taken, openTurns_concat]
    rfl
  event := ready_of_alive
  approved := by
    intro review w h _
    refine wp_mono ((survival_actionRule 0).wp_executePendingAction (fun _ _ _ _ => trivial) rfl h)
      (fun r _ _ _ h => ?_) ?_ fun _ _ _ _ h => h
    · cases r with
      | none => exact h.survived
      | some execution => exact ready_of_alive h
    · rintro e w' - - ⟨error, rfl, ⟨hpos, -⟩ | ⟨-, h⟩⟩
      · exact absurd hpos (lt_irrefl 0)
      · exact ⟨error, rfl, h⟩
  reviewed := fun h _ _ => ready_of_alive h
  unreviewed := fun h _ => h.survived
  resolved := ready_of_alive
  takenOver := fun h _ => h.survived
  retried := fun h _ => ready_of_alive h
  uncontrolled := fun h _ => h.survived
  due := fun h _ _ _ => ⟨h.2, rfl⟩
  undue := fun h _ _ _ => h.2
  waits := fun h _ _ _ => h
  waiting_stable := survival_stable
  woken := id

/-- **What kills a mailbox**: started on a snapshot of the supported schema, a mailbox ends by an
exception exactly if an approved action fails with an error of compatibility, or the first turn
of a message fails to report an error; otherwise it ends only by returning after it was closed. -/
theorem run_ends_well_iff (iso : IsoCodec) {input : MailboxInput} (hinput : input.Supported iso)
    (uuids : ℕ → String) (rounds : ℕ) (script : List Input) :
    EndsWell ((run iso input rounds).run script (initialWorld input uuids)) ↔
      Along Survivable
        ((run iso input rounds).run script (initialWorld input uuids)).world.log := by
  obtain ⟨base, hbase, hcoherent⟩ := Mailbox.resumes_supported hinput
  have h := survival_runRule.wp_run (fun _ _ _ _ => trivial) hbase uuids
    ⟨⟨rfl, hcoherent⟩, along_nil⟩ rounds script
  revert h
  cases (run iso input rounds).run script (initialWorld input uuids) with
  | done a w rest =>
      intro h
      obtain ⟨⟨-, hsurvived⟩, hclosed⟩ := h trivial
      exact iff_of_true hclosed hsurvived
  | raised e w rest =>
      intro h
      obtain ⟨error, -, hkilled⟩ := h trivial
      exact iff_of_false id hkilled
  | blocked l w => exact fun h => iff_of_true trivial (h trivial).2

/-- The error of a worker whose release does not match the process's. -/
def incompatible : ActivityError :=
  ⟨"process client pack does not match worker", [some deploymentCompatibilityError]⟩

/-- A turn of which `run_agent_turn` fails, and the failure is recorded. -/
def failedTurn : List Input :=
  [.signal (.receiveEvent ⟨"event", "started"⟩), .task 0 false,
    .reply (.turn (.error incompatible)), .reply (.intervention (.ok ()))]

lemma supported_sampleInput : sampleInput.Supported .tally := ⟨rfl, _, rfl⟩

/-- A mailbox survives an error of compatibility that its first turn reports. -/
theorem run_ends_well_reported :
    EndsWell ((run .tally sampleInput 3).run failedTurn (initialWorld sampleInput fun _ => "id")) ∧
      Along Survivable
        ((run .tally sampleInput 3).run failedTurn
          (initialWorld sampleInput fun _ => "id")).world.log :=
  ⟨trivial, (run_ends_well_iff .tally supported_sampleInput (fun _ => "id") 3 failedTurn).mp
    trivial⟩

/-! ### Runs that end by an exception -/

/-- An approved action is executed by a worker of another release. -/
def approvedElsewhere : List Input :=
  [.signal (.receiveReview ⟨"command", "approve", "thread", "action", 1⟩), .task 0 false,
    .reply (.executed (.error incompatible))]

/-- An approved action that fails with an error of compatibility ends the mailbox. -/
theorem killed_by_incompatibility :
    sampleInput.Supported .tally ∧
      ∃ e w rest, (run .tally sampleInput 3).run approvedElsewhere
        (initialWorld sampleInput fun _ => "id") = .raised e w rest :=
  ⟨supported_sampleInput, _, _, _, rfl⟩

/-- A turn fails, and so does every attempt to record it. -/
def unreportedFailure : List Input :=
  [.signal (.receiveEvent ⟨"event", "started"⟩), .task 0 false,
    .reply (.turn (.error ⟨"model unavailable", []⟩)),
    .reply (.intervention (.error ⟨"database unavailable", []⟩))]

/-- A failure that cannot be recorded ends the mailbox. -/
theorem killed_by_unreported_failure :
    ∃ e w rest, (run .tally sampleInput 3).run unreportedFailure
      (initialWorld sampleInput fun _ => "id") = .raised e w rest :=
  ⟨_, _, _, rfl⟩

end TiramisuAgents
