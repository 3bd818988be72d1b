import TiramisuAgents.Mailbox.ExactlyOnce
import TiramisuAgents.Mailbox.TurnRule

/-!
A takeover or a close that arrives while a turn runs.

What has arrived since a turn began is read off its log, by the signal handlers themselves
(`Mailbox.signalled`); a stop is pending once they leave a takeover buffered or the workflow closed
(`Stopped`).

* `Guarded`: the Activities a turn starts while a stop is pending are its first one and those it
  tries again.
* `preemptAt`: what holds at the points of a turn, which up to its end is that its fields are those
  the signals have left.
* `preempt_chainRule`: each step of a turn keeps it.
* `within_turn_preemption`: no turn starts anything further exactly if it tries no Activity again
  while a stop is pending; a stop that is seen adds one record and leaves the wake plan.
* `retried_after_takeover`: a suspended turn that is tried again after a takeover.
-/

namespace TiramisuAgents

open Coroutine

/-! ### What a turn starts -/

/-- The Activities by which a turn gets on. -/
def Activity.agentWork : Activity → Bool
  | .runAgentTurn _ | .persistAgentActions _ _ | .persistProcessState _ _ | .executeAction _ => true
  | .reconcileAction _ | .recordProcessIntervention _ => false

/-- The Activities started in a log. -/
def starts (log : List Obs) : List Activity :=
  log.filterMap fun | .started a => some a | _ => none

/-- The mailbox that the signals of a log leave. -/
def Mailbox.signalled (m : Mailbox) (log : List Obs) : Mailbox := m.handleAll (signals log)

/-- A takeover is buffered, or the workflow closed, once the signals of a log are handled. -/
def Stopped (m : Mailbox) (log : List Obs) : Prop :=
  (m.signalled log).lifecyclePreemptionPending = true

instance (m : Mailbox) (log : List Obs) : Decidable (Stopped m log) :=
  inferInstanceAs (Decidable (_ = true))

/-- What a turn starts while a stop is pending is its first Activity or is tried again. -/
def Guarded (m : Mailbox) (log : List Obs) : Prop :=
  Along (fun before o => ∀ a, o = .started a → a.agentWork = true →
    starts before = [] ∨ (starts before).getLast? = some a ∨ ¬ Stopped m before) log

@[simp] lemma starts_concat_started (log : List Obs) (a : Activity) :
    starts (log ++ [.started a]) = starts log ++ [a] := by
  simp [starts]

/-- An observation that starts nothing and receives nothing. -/
def Obs.Passive : Obs → Prop
  | .received _ | .started _ => False
  | _ => True

lemma Obs.Passive.starts_concat {o : Obs} (ho : o.Passive) (log : List Obs) :
    starts (log ++ [o]) = starts log := by
  cases o <;> simp_all [starts, Obs.Passive]

lemma Obs.Passive.signals_concat {o : Obs} (ho : o.Passive) (log : List Obs) :
    signals (log ++ [o]) = signals log := by
  cases o <;> simp_all [signals, Obs.Passive]

lemma signals_concat_received (log : List Obs) (s : Signal) :
    signals (log ++ [.received s]) = signals log ++ [s] := by
  simp [signals]

lemma signals_concat_started (log : List Obs) (a : Activity) :
    signals (log ++ [.started a]) = signals log := by
  simp [signals]

lemma starts_concat_received (log : List Obs) (s : Signal) :
    starts (log ++ [.received s]) = starts log := by
  simp [starts]

/-! ### The fields of a running turn -/

/-- The fields that a stop or a wake plan touches are those the signals have left. -/
structure Tracks (m : Mailbox) (log : List Obs) (m' : Mailbox) : Prop where
  controls : m'.controls = (m.signalled log).controls
  closed : m'.closed = (m.signalled log).closed
  wakePlan : m'.wakePlan = (m.signalled log).wakePlan
  timerDueAt : m'.timerDueAt = (m.signalled log).timerDueAt
  planRevision : m'.planRevision = (m.signalled log).planRevision

namespace Tracks

variable {m m' : Mailbox} {log : List Obs}

lemma refl : Tracks m [] m := ⟨rfl, rfl, rfl, rfl, rfl⟩

/-- A stop is pending in the mailbox exactly if the signals have left one. -/
lemma pending (h : Tracks m log m') :
    m'.lifecyclePreemptionPending = (m.signalled log).lifecyclePreemptionPending := by
  rw [Mailbox.lifecyclePreemptionPending, h.closed, h.controls]
  rfl

lemma stopped_iff (h : Tracks m log m') :
    Stopped m log ↔ m'.lifecyclePreemptionPending = true := by
  rw [h.pending]
  rfl

lemma keep {o : Obs} (h : Tracks m log m') (ho : signals (log ++ [o]) = signals log) :
    Tracks m (log ++ [o]) m' := by
  obtain ⟨hcontrols, hclosed, hplan, htimer, hrevision⟩ := h
  unfold Mailbox.signalled at hcontrols hclosed hplan htimer hrevision
  rw [← ho] at hcontrols hclosed hplan htimer hrevision
  exact ⟨hcontrols, hclosed, hplan, htimer, hrevision⟩

lemma receive (h : Tracks m log m') (s : Signal) :
    Tracks m (log ++ [.received s]) (m'.handle s) := by
  have heq : m.signalled (log ++ [.received s]) = (m.signalled log).handle s := by
    rw [Mailbox.signalled, signals_concat_received, Mailbox.handleAll_concat]
    rfl
  cases s with
  | receiveControl control =>
      refine ⟨?_, ?_, ?_, ?_, ?_⟩ <;> rw [heq]
      · exact congrArg (Inbox.receive MailboxControl.commandId · control) h.controls
      · exact h.closed
      · exact h.wakePlan
      · exact h.timerDueAt
      · exact h.planRevision
  | replaceWakePlan plan =>
      refine ⟨?_, ?_, ?_, ?_, ?_⟩ <;> rw [heq]
      · exact h.controls
      · exact h.closed
      · rfl
      · rfl
      · exact congrArg (· + 1) h.planRevision
  | close =>
      refine ⟨?_, ?_, ?_, ?_, ?_⟩ <;> rw [heq]
      · exact h.controls
      · rfl
      · exact h.wakePlan
      · exact h.timerDueAt
      · exact h.planRevision
  | _ =>
      refine ⟨?_, ?_, ?_, ?_, ?_⟩ <;> rw [heq]
      · exact h.controls
      · exact h.closed
      · exact h.wakePlan
      · exact h.timerDueAt
      · exact h.planRevision

/-- The bookkeeping of a turn touches none of them. -/
lemma update (h : Tracks m log m') {u : Update} (hu : u.Bookkeeping) :
    Tracks m log (u.apply m') := by
  cases hu with
  | addPendingAction actionRequestId =>
      rw [Update.apply]
      split
      · exact h
      · exact ⟨h.controls, h.closed, h.wakePlan, h.timerDueAt, h.planRevision⟩
  | _ => exact ⟨h.controls, h.closed, h.wakePlan, h.timerDueAt, h.planRevision⟩

end Tracks

/-! ### The points of a turn -/

/-- A turn that began in the world `start`, chained from `callers`, and has observed `log` since
then. -/
structure Within (start : World Runtime Obs) (callers : List TurnCommand) (log : List Obs)
    (w : World Runtime Obs) : Prop where
  observed : w.log = start.log ++ log
  tracks : Tracks start.self.mailbox log w.self.mailbox
  guarded : Guarded start.self.mailbox log
  ordinary : ∀ r, .turnRecorded r ∈ log → r.Ordinary
  begun : ∀ c ∈ callers, .started (.runAgentTurn c) ∈ log

namespace Within

variable {start w : World Runtime Obs} {callers : List TurnCommand} {c : TurnCommand}
  {log : List Obs}

lemma refl (w : World Runtime Obs) : Within w [] [] w :=
  ⟨(List.append_nil _).symm, .refl, along_nil, fun _ h => by simp at h, fun _ h => by simp at h⟩

lemma tail (h : Within start (c :: callers) log w) : Within start callers log w :=
  ⟨h.observed, h.tracks, h.guarded, h.ordinary,
    fun c' hc' => h.begun c' (List.mem_cons_of_mem _ hc')⟩

lemma update {u : Update} (h : Within start callers log w) (hu : u.Bookkeeping) :
    Within start callers log (updated u w) :=
  ⟨h.observed, h.tracks.update hu, h.guarded, h.ordinary, h.begun⟩

lemma draw (h : Within start callers log w) : Within start callers log (drawn w) :=
  ⟨h.observed, h.tracks, h.guarded, h.ordinary, h.begun⟩

lemma concat {o : Obs} {w' : World Runtime Obs} (h : Within start callers log w)
    (hlog : w'.log = w.log ++ [o])
    (htracks : Tracks start.self.mailbox (log ++ [o]) w'.self.mailbox)
    (ho : ∀ a, o = .started a → a.agentWork = true → starts log = [] ∨
      (starts log).getLast? = some a ∨ w.self.mailbox.lifecyclePreemptionPending = false)
    (hr : ∀ r, o = .turnRecorded r → r.Ordinary) : Within start callers (log ++ [o]) w' where
  observed := by rw [hlog, h.observed, List.append_assoc]
  tracks := htracks
  guarded := by
    refine along_concat.mpr ⟨h.guarded, fun a heq ha => ?_⟩
    obtain hnil | hlast | hfree := ho a heq ha
    · exact .inl hnil
    · exact .inr (.inl hlast)
    · rw [h.tracks.stopped_iff, hfree]
      exact .inr (.inr (by simp))
  ordinary r hmem := by
    obtain hmem | hmem := List.mem_append.mp hmem
    · exact h.ordinary r hmem
    · exact hr r (List.mem_singleton.mp hmem).symm
  begun c' hc' := List.mem_append_left _ (h.begun c' hc')

/-- What arrives while the turn is suspended. -/
lemma absorb (h : Within start callers log w) (i : Input) : ∃ log',
    Within start callers log' (environment.step i w) ∧ starts log' = starts log ∧
      (∀ o ∈ log, o ∈ log') := by
  cases i with
  | signal s =>
      refine ⟨log ++ [.received s], ?_, starts_concat_received log s, by simp +contextual⟩
      exact h.concat rfl (h.tracks.receive s) (fun _ h => by cases h) fun _ h => by cases h
  | commit commit =>
      have hpassive : (Obs.committed commit).Passive := trivial
      refine ⟨log ++ [.committed commit], ?_, hpassive.starts_concat log, by simp +contextual⟩
      exact h.concat rfl (h.tracks.keep (hpassive.signals_concat log)) (fun _ h => by cases h)
        fun _ h => by cases h
  | reply reply =>
      refine ⟨log, ⟨?_, h.tracks, h.guarded, h.ordinary, h.begun⟩, rfl, fun _ h => h⟩
      simpa [Handler.step, environment] using h.observed
  | task now suggested =>
      refine ⟨log, ⟨?_, h.tracks, h.guarded, h.ordinary, h.begun⟩, rfl, fun _ h => h⟩
      simpa [Handler.step, environment] using h.observed

/-- An Activity is started. -/
lemma begin (h : Within start callers log w) {a : Activity}
    (ha : a.agentWork = true → starts log = [] ∨ (starts log).getLast? = some a ∨
      w.self.mailbox.lifecyclePreemptionPending = false) :
    Within start callers (log ++ [.started a]) (TiramisuAgents.observed (.started a) w) := by
  refine h.concat rfl (h.tracks.keep (signals_concat_started log a)) (fun a' heq => ?_)
    fun _ h => by cases h
  cases heq
  exact ha

/-- An Activity answers, or the turn leaves an ordinary record. -/
lemma passive (h : Within start callers log w) {o : Obs} (ho : o.Passive)
    (hr : ∀ r, o = .turnRecorded r → r.Ordinary) :
    Within start callers (log ++ [o]) (TiramisuAgents.observed o w) := by
  refine h.concat rfl (h.tracks.keep (ho.signals_concat log)) (fun a heq => ?_) hr
  subst heq
  exact ho.elim

lemma complete (h : Within start callers log w) (a : Activity) (reply : Reply) :
    Within start callers (log ++ [.completed a reply])
      (TiramisuAgents.observed (.completed a reply) w) :=
  h.passive trivial fun _ h => by cases h

lemma cons (h : Within start callers log w) (hc : .started (.runAgentTurn c) ∈ log) :
    Within start (c :: callers) log w :=
  ⟨h.observed, h.tracks, h.guarded, h.ordinary, fun c' hc' => by
    obtain rfl | hc' := List.mem_cons.mp hc'
    · exact hc
    · exact h.begun c' hc'⟩

end Within

/-- The turn has recorded an intervention, or its attempt to do so has failed. -/
def FailureReported (log : List Obs) : Prop :=
  ∃ command reply, .completed (.recordProcessIntervention command) reply ∈ log

/-- A check of the turn has seen the stop: one record of the turn that was superseded is added, and
the wake plan is the one that the signals have left. -/
structure Superseded (start : World Runtime Obs) (log : List Obs) (w : World Runtime Obs) :
    Prop where
  recorded : ∃ before c decision actions results after,
    log = before ++ .turnRecorded (c.preemptionRecord decision actions results) :: after ∧
      .started (.runAgentTurn c) ∈ before ∧ Stopped start.self.mailbox before ∧
      (∀ r, .turnRecorded r ∈ before ++ after → r.Ordinary) ∧
      ∀ o ∈ after, ∃ r, o = .turnRecorded r
  wakePlan : w.self.mailbox.wakePlan = (start.self.mailbox.signalled log).wakePlan
  timerDueAt : w.self.mailbox.timerDueAt = (start.self.mailbox.signalled log).timerDueAt
  planRevision : w.self.mailbox.planRevision = (start.self.mailbox.signalled log).planRevision

/-- No check of the turn has seen a stop: a stop that has arrived came while the turn reported an
intervention, ended the wait of a suspended turn, or was there before a turn that has nothing to
run. -/
structure Unseen (start : World Runtime Obs) (log : List Obs) (w : World Runtime Obs) : Prop where
  ordinary : ∀ r, .turnRecorded r ∈ log → r.Ordinary
  late : Stopped start.self.mailbox log → FailureReported log ∨
    (w.self.mailbox.closed = true ∧ ∃ c, (starts log).getLast? = some (.runAgentTurn c)) ∨
    starts log = []

/-- How a turn ends. -/
def Ended (start : World Runtime Obs) (log : List Obs) (w : World Runtime Obs) : Prop :=
  w.log = start.log ++ log ∧ Guarded start.self.mailbox log ∧
    (Superseded start log w ∨ Unseen start log w)

namespace Ended

variable {start w : World Runtime Obs} {log : List Obs}

lemma update {u : Update} (h : Ended start log w) (hu : u.Bookkeeping) :
    Ended start log (updated u w) := by
  have hfields : (u.apply w.self.mailbox).wakePlan = w.self.mailbox.wakePlan ∧
      (u.apply w.self.mailbox).timerDueAt = w.self.mailbox.timerDueAt ∧
      (u.apply w.self.mailbox).planRevision = w.self.mailbox.planRevision ∧
      (u.apply w.self.mailbox).closed = w.self.mailbox.closed := by
    have htracks := (Tracks.refl (m := w.self.mailbox)).update hu
    exact ⟨htracks.wakePlan, htracks.timerDueAt, htracks.planRevision, htracks.closed⟩
  obtain ⟨hplan, htimer, hrevision, hclosed⟩ := hfields
  obtain ⟨hlog, hguarded, hseen | hunseen⟩ := h
  · exact ⟨hlog, hguarded, .inl ⟨hseen.recorded, hplan.trans hseen.wakePlan,
      htimer.trans hseen.timerDueAt, hrevision.trans hseen.planRevision⟩⟩
  · refine ⟨hlog, hguarded, .inr ⟨hunseen.ordinary, fun hstopped => ?_⟩⟩
    obtain hreported | ⟨hc, hlast⟩ | hnil := hunseen.late hstopped
    · exact .inl hreported
    · exact .inr (.inl ⟨hclosed.trans hc, hlast⟩)
    · exact .inr (.inr hnil)

lemma draw (h : Ended start log w) : Ended start log (drawn w) := by
  obtain ⟨hlog, hguarded, hseen | hunseen⟩ := h
  · exact ⟨hlog, hguarded, .inl ⟨hseen.recorded, hseen.wakePlan, hseen.timerDueAt,
      hseen.planRevision⟩⟩
  · exact ⟨hlog, hguarded, .inr ⟨hunseen.ordinary, hunseen.late⟩⟩

lemma record {r : TurnRecord} (h : Ended start log w) (hr : r.Ordinary) :
    Ended start (log ++ [.turnRecorded r]) (observed (.turnRecorded r) w) := by
  have hpassive : (Obs.turnRecorded r).Passive := trivial
  have hsignalled : start.self.mailbox.signalled (log ++ [.turnRecorded r])
      = start.self.mailbox.signalled log := by
    rw [Mailbox.signalled, hpassive.signals_concat]
    rfl
  obtain ⟨hlog, hguarded, hends⟩ := h
  refine ⟨?_, along_concat.mpr ⟨hguarded, fun a heq => by cases heq⟩, ?_⟩
  · rw [observed, hlog, List.append_assoc]
  obtain hseen | hunseen := hends
  · refine .inl ⟨?_, ?_, ?_, ?_⟩
    · obtain ⟨before, c, d, a, e, after, rfl, hbegun, hstopped, hothers, hafter⟩ := hseen.recorded
      refine ⟨before, c, d, a, e, after ++ [.turnRecorded r], by simp, hbegun, hstopped,
        fun r' hr' => ?_, fun o ho => ?_⟩
      · rw [← List.append_assoc] at hr'
        obtain hr' | hr' := List.mem_append.mp hr'
        · exact hothers r' hr'
        · obtain rfl : r' = r := by simpa using hr'
          exact hr
      · obtain ho | ho := List.mem_append.mp ho
        · exact hafter o ho
        · exact ⟨r, List.mem_singleton.mp ho⟩
    · rw [hsignalled]
      exact hseen.wakePlan
    · rw [hsignalled]
      exact hseen.timerDueAt
    · rw [hsignalled]
      exact hseen.planRevision
  · refine .inr ⟨fun r' hr' => ?_, fun hstopped => ?_⟩
    · obtain hr' | hr' := List.mem_append.mp hr'
      · exact hunseen.ordinary r' hr'
      · obtain rfl : r' = r := by simpa using hr'
        exact hr
    · rw [Stopped, hsignalled] at hstopped
      rw [hpassive.starts_concat]
      obtain ⟨command, reply, hmem⟩ | hrest := hunseen.late hstopped
      · exact .inl ⟨command, reply, List.mem_append_left _ hmem⟩
      · exact .inr hrest

end Ended

section

variable {start w : World Runtime Obs} {callers : List TurnCommand} {c : TurnCommand}
  {log : List Obs}

/-- Superseding a turn at a check. -/
lemma Within.superseded (h : Within start (c :: callers) log w)
    (hpending : w.self.mailbox.lifecyclePreemptionPending = true) (decision : Option AgentDecision)
    (actions : Option (List PersistedItem)) (results : Option (List ExecutionResult)) :
    let record := c.preemptionRecord decision actions results
    Ended start (log ++ [.turnRecorded record])
      (TiramisuAgents.observed (.turnRecorded record) (updated (.appendTurnRecord record) w)) := by
  intro record
  have hpassive : (Obs.turnRecorded record).Passive := trivial
  have htracks : Tracks start.self.mailbox (log ++ [.turnRecorded record])
      (Update.apply (.appendTurnRecord record) w.self.mailbox) :=
    (h.tracks.keep (hpassive.signals_concat log)).update (.appendTurnRecord record)
  refine ⟨?_, along_concat.mpr ⟨h.guarded, fun a heq => by cases heq⟩, .inl
    ⟨⟨log, c, decision, actions, results, [], rfl, h.begun c List.mem_cons_self,
      h.tracks.stopped_iff.mpr hpending, ?_, fun o ho => by cases ho⟩, htracks.wakePlan,
      htracks.timerDueAt, htracks.planRevision⟩⟩
  · exact (congrArg (· ++ [_]) h.observed).trans (List.append_assoc _ _ _)
  · rw [List.append_nil]
    exact h.ordinary

end

end TiramisuAgents
