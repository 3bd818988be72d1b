import TiramisuAgents.Mailbox.ExactlyOnce
import TiramisuAgents.Mailbox.LoopRule

/-!
The lineage of events and review commands: from the message that brings one, through the turns
that take it up and the retries that hand it back.

A message begins one turn; a turn that fails reports its sources as an intervention, and a retry
of the intervention begins one more.  So the turns on one identity are at most the messages and
retries that bring it, and since an identity is taken once, at most the retries and one.

* `Lineage`: the count, and what is persisted and reported.
* `lineage_chainRule`, `lineage_runRule`: each step of the mailbox keeps it.
* `lineage_runs`, `turnsOn_card_le`: the count in every run.
-/

namespace TiramisuAgents

open Coroutine

/-! ### Counting turns and messages -/

/-- The two kinds of identity that a process takes up once. -/
inductive SourceKind where
  | event | reviewCommand

/-- The identities of a kind among the sources of a turn. -/
def SourceKind.ids : SourceKind → TurnSources → List String
  | .event, sources => sources.eventIds
  | .reviewCommand, sources => sources.reviewCommandIds

/-- The sources a message brings. -/
def Source.sources : Source → TurnSources
  | .event _ message => { eventIds := [message.eventId] }
  | .review message => { reviewCommandIds := [message.commandId] }
  | .actionResolution _ => {}
  | .control message => if message.commandType = "retry" then message.sources else {}

/-- The command of a turn that an observation begins or retries. -/
def Obs.turn? : Obs → Option TurnCommand
  | .started (.runAgentTurn command) => some command
  | _ => none

/-- The turns of a log that were begun on an identity. -/
def turnsOn (kind : SourceKind) (id : String) (log : List Obs) : Finset String :=
  (((log.filterMap Obs.turn?).filter fun c => id ∈ kind.ids c.sources).map
    TurnCommand.turnId).toFinset

/-- How many messages of a log brought an identity. -/
def brought (kind : SourceKind) (id : String) (log : List Obs) : ℕ :=
  (sources log).countP fun source => id ∈ kind.ids source.sources

/-- The turn of an intervention was begun on its sources, if they name an event or a review
command. -/
def Begins (log : List Obs) (i : InterventionCommand) : Prop :=
  (∀ kind : SourceKind, kind.ids i.sources = []) ∨
    ∃ c, .started (.runAgentTurn c) ∈ log ∧ c.turnId = i.agentTurnId ∧ c.sources = i.sources

/-- **The lineage of a log**: the turns on an identity are at most the messages that brought it,
and what is persisted or reported belongs to one of them. -/
structure Lineage (log : List Obs) : Prop where
  turns : ∀ kind id, (turnsOn kind id log).card ≤ brought kind id log
  persisted : ∀ c d, .started (.persistProcessState c d) ∈ log → .started (.runAgentTurn c) ∈ log
  reported : ∀ i, .started (.recordProcessIntervention i) ∈ log → Begins log i

/-- The observations that neither begin a turn nor persist or report one. -/
def Obs.quiet : Obs → Bool
  | .started (.runAgentTurn _) => false
  | .started (.persistProcessState _ _) => false
  | .started (.recordProcessIntervention _) => false
  | _ => true

section

variable {kind : SourceKind} {id : String} {log : List Obs} {o : Obs}

lemma mem_turnsOn {c : TurnCommand} (h : .started (.runAgentTurn c) ∈ log)
    (hid : id ∈ kind.ids c.sources) : c.turnId ∈ turnsOn kind id log := by
  have hturn : c ∈ log.filterMap Obs.turn? := List.mem_filterMap.mpr ⟨_, h, rfl⟩
  rw [turnsOn, List.mem_toFinset]
  exact List.mem_map_of_mem (List.mem_filter.mpr ⟨hturn, decide_eq_true hid⟩)

lemma turnsOn_concat (c : TurnCommand) :
    turnsOn kind id (log ++ [.started (.runAgentTurn c)]) =
      if id ∈ kind.ids c.sources then insert c.turnId (turnsOn kind id log)
      else turnsOn kind id log := by
  ext turnId
  simp only [turnsOn, List.filterMap_append, List.filter_append, List.map_append,
    List.toFinset_append, Finset.mem_union]
  split_ifs with h
  · simp [Obs.turn?, h, or_comm]
  · simp [Obs.turn?, h]

lemma turnsOn_concat_of_quiet (ho : o.turn? = none) :
    turnsOn kind id (log ++ [o]) = turnsOn kind id log := by
  rw [turnsOn, List.filterMap_append]
  simp [ho, turnsOn]

lemma brought_concat (source : Source) :
    brought kind id (log ++ [.popped source]) =
      brought kind id log + if id ∈ kind.ids source.sources then 1 else 0 := by
  simp [brought, sources, List.countP_append, List.countP_cons]

lemma brought_le_concat : brought kind id log ≤ brought kind id (log ++ [o]) := by
  rw [brought, brought, sources, sources, List.filterMap_append, List.countP_append]
  exact Nat.le_add_right _ _

lemma Begins.concat {i : InterventionCommand} (h : Begins log i) : Begins (log ++ [o]) i :=
  h.imp_right fun ⟨c, hc, hrest⟩ => ⟨c, List.mem_append_left _ hc, hrest⟩

end

namespace Lineage

variable {log : List Obs} {o : Obs}

lemma concat (h : Lineage log)
    (hturns : ∀ kind id, (turnsOn kind id (log ++ [o])).card ≤ brought kind id (log ++ [o]))
    (hpersisted : ∀ c d, o = .started (.persistProcessState c d) → .started (.runAgentTurn c) ∈ log)
    (hreported : ∀ i, o = .started (.recordProcessIntervention i) → Begins log i) :
    Lineage (log ++ [o]) where
  turns := hturns
  persisted := by
    intro c d hmem
    rcases List.mem_append.mp hmem with hmem | hmem
    · exact List.mem_append_left _ (h.persisted c d hmem)
    · exact List.mem_append_left _ (hpersisted c d (List.mem_singleton.mp hmem).symm)
  reported := by
    intro i hmem
    rcases List.mem_append.mp hmem with hmem | hmem
    · exact (h.reported i hmem).concat
    · exact (hreported i (List.mem_singleton.mp hmem).symm).concat

/-- An observation that begins no turn. -/
lemma keep (h : Lineage log) (hturn : o.turn? = none)
    (hpersisted : ∀ c d, o = .started (.persistProcessState c d) → .started (.runAgentTurn c) ∈ log)
    (hreported : ∀ i, o = .started (.recordProcessIntervention i) → Begins log i) :
    Lineage (log ++ [o]) := by
  refine h.concat (fun kind id => ?_) hpersisted hreported
  rw [turnsOn_concat_of_quiet hturn]
  exact (h.turns kind id).trans brought_le_concat

lemma quiet (h : Lineage log) (ho : o.quiet = true) : Lineage (log ++ [o]) := by
  refine h.keep ?_ ?_ ?_
  · rw [Obs.turn?.eq_def]
    split
    · cases ho
    · rfl
  · rintro c d rfl
    cases ho
  · rintro i rfl
    cases ho

end Lineage

/-! ### The assertions of a run -/

/-- A turn may still begin on these sources. -/
def Owed (log : List Obs) (s : TurnSources) : Prop :=
  ∀ kind id, (turnsOn kind id log).card + (if id ∈ SourceKind.ids kind s then 1 else 0)
    ≤ brought kind id log

/-- The turns of a chain have begun. -/
structure Chained (callers : List TurnCommand) (log : List Obs) : Prop where
  lineage : Lineage log
  begun : ∀ c ∈ callers, .started (.runAgentTurn c) ∈ log

/-- What holds at the points of a turn that was chained from `callers`. -/
def lineageAt (callers : List TurnCommand) : Point → List Obs → Prop
  | .ready s, log => Chained callers log ∧ Owed log s
  | .running c, log => Chained (c :: callers) log
  | .deciding c _, log => Chained (c :: callers) log
  | .saving c _, log => Chained (c :: callers) log
  | .persisting c _ _, log => Chained (c :: callers) log
  | .executing c _ _ _ _ _, log => Chained (c :: callers) log
  | .failing c _, log => Chained (c :: callers) log
  | .reporting i, log => Chained callers log ∧ Begins log i
  | .broken, log => Chained callers log
  | .settled, log => Chained callers log

namespace Chained

variable {callers : List TurnCommand} {c : TurnCommand} {log : List Obs} {o : Obs}

lemma concat (h : Chained callers log) (hlineage : Lineage (log ++ [o])) :
    Chained callers (log ++ [o]) :=
  ⟨hlineage, fun c hc => List.mem_append_left _ (h.begun c hc)⟩

lemma quiet (h : Chained callers log) (ho : o.quiet = true) : Chained callers (log ++ [o]) :=
  h.concat (h.lineage.quiet ho)

lemma tail (h : Chained (c :: callers) log) : Chained callers log :=
  ⟨h.lineage, fun c' hc' => h.begun c' (List.mem_cons_of_mem _ hc')⟩

/-- The sources of a chained turn name neither events nor reviews. -/
lemma owed (h : Chained callers log) {s : TurnSources} (hs : ∀ kind : SourceKind, kind.ids s = []) :
    Owed log s := by
  intro kind id
  rw [hs, if_neg List.not_mem_nil]
  exact h.lineage.turns kind id

end Chained

/-- Attempts and timers are of neither kind. -/
lemma ids_of_attempts (attempts timers : List String) (kind : SourceKind) :
    kind.ids { actionAttemptIds := attempts, timerIds := timers } = [] := by
  cases kind <;> rfl

lemma lineageAt_quiet {callers : List TurnCommand} {p : Point} {log : List Obs} {o : Obs}
    (h : lineageAt callers p log) (ho : o.quiet = true) : lineageAt callers p (log ++ [o]) := by
  have hturn : o.turn? = none := by
    rw [Obs.turn?.eq_def]
    split
    · cases ho
    · rfl
  cases p with
  | ready s =>
      refine ⟨h.1.quiet ho, fun kind id => ?_⟩
      rw [turnsOn_concat_of_quiet hturn]
      exact (h.2 kind id).trans brought_le_concat
  | reporting i => exact ⟨h.1.quiet ho, h.2.concat⟩
  | _ => exact Chained.quiet h ho

lemma lineageAt_robust (callers : List TurnCommand) (p : Point) (Φ : List Obs → Prop) :
    Robust Φ fun w => lineageAt callers p w.log :=
  robust_of_log (fun _ _ h => lineageAt_quiet h rfl) (fun _ _ h => lineageAt_quiet h rfl)
    fun _ _ h => lineageAt_quiet h rfl

lemma lineageAt_lineage {callers : List TurnCommand} {p : Point} {log : List Obs}
    (h : lineageAt callers p log) : Lineage log := by
  cases p with
  | ready s => exact h.1.lineage
  | reporting i => exact h.1.lineage
  | _ => exact Chained.lineage h

/-- Executing an action touches no lineage. -/
lemma lineage_actionRule {Φ : List Obs → Prop} {command : ActionCommand}
    {callers : List TurnCommand} :
    ActionRule Φ command (fun w => Chained callers w.log) (fun w => Chained callers w.log)
      (fun _ w => Chained callers w.log)
      ⟨fun _ w => Chained callers w.log,
        fun e w => ∃ error, e = .activity error ∧ Chained callers w.log,
        fun l w => l ≠ .waitCondition ∧ Lineage w.log⟩ where
  trying_bookkept := (lineageAt_robust callers .settled Φ).bookkept
  acting_stable := (lineageAt_robust callers .settled Φ).stable
  retrying := id
  answered_bookkept := fun _ => (lineageAt_robust callers .settled Φ).bookkept
  answered_stable := fun _ => (lineageAt_robust callers .settled Φ).stable
  started := fun h => h.quiet rfl
  restarted := fun h _ => h.quiet rfl
  suspended := fun h _ _ => h.quiet rfl
  closed := fun h _ => h
  executed := fun h _ => h.quiet rfl
  failed := fun h _ _ _ => h.quiet rfl
  incompatible := fun h _ _ _ => ⟨_, rfl, h.quiet rfl⟩
  known := fun h _ => h
  reconciled := fun h _ _ => h.quiet rfl
  unreconciled := fun h _ _ _ => h.quiet rfl
  irreconcilable := fun h _ _ _ => ⟨_, rfl, h.quiet rfl⟩
  done_update := fun _ _ _ h => h
  raised_update := fun _ _ _ h => h
  blocked := fun hl h => ⟨hl, h.elim Chained.lineage fun ⟨_, h⟩ => h.lineage⟩

/-- Each step of a turn keeps the lineage. -/
lemma lineage_chainRule :
    ChainRule (fun _ => True) (fun callers p w => lineageAt callers p w.log) Lineage where
  bookkept := fun callers p => (lineageAt_robust callers p fun _ => True).bookkept
  stable := fun callers p _ => (lineageAt_robust callers p _).stable
  found := fun _ h => lineageAt_lineage h
  begun := by
    intro callers c w h
    obtain ⟨hchained, howed⟩ := h
    have hlineage : Lineage (w.log ++ [.started (.runAgentTurn c)]) := by
      refine hchained.lineage.concat (fun kind id => ?_) (fun _ _ h => by cases h)
        fun _ h => by cases h
      have hle := howed kind id
      rw [turnsOn_concat]
      refine le_trans ?_ (le_trans hle brought_le_concat)
      split_ifs with hid
      · exact Finset.card_insert_le _ _
      · exact le_rfl
    refine ⟨hlineage, fun c' hc' => ?_⟩
    rcases List.mem_cons.mp hc' with rfl | hc'
    · exact List.mem_concat_self
    · exact List.mem_append_left _ (hchained.begun c' hc')
  retried := by
    intro callers c w h
    -- the turn is among those begun already
    refine h.concat (h.lineage.concat (fun kind id => ?_) (fun _ _ h => by cases h)
      fun _ h => by cases h)
    rw [turnsOn_concat]
    refine le_trans (le_of_eq ?_) ((h.lineage.turns kind id).trans brought_le_concat)
    split_ifs with hid
    · rw [Finset.insert_eq_of_mem (mem_turnsOn (h.begun c List.mem_cons_self) hid)]
    · rfl
  unconfigured := fun h _ => h.1
  suspended := fun h _ _ => h.quiet rfl
  closed := fun h _ => h.tail
  undecided := fun h _ _ => h.quiet rfl
  decided := fun h _ => h.quiet rfl
  saved := fun h _ => h.quiet rfl
  unpersisted := fun h _ => h.quiet rfl
  persisted := fun h _ => h.quiet rfl
  projecting := by
    intro callers c d items w h _
    refine h.concat (h.lineage.keep rfl (fun c' d' heq => ?_) fun _ h => by cases h)
    cases heq
    exact h.begun c List.mem_cons_self
  unprojected := fun h _ => h.quiet rfl
  projected := fun h _ => h.quiet rfl
  preempted := by
    intro callers p record w hp h _ _
    cases p with
    | deciding c d => exact (Chained.tail h).quiet rfl
    | persisting c d items => exact (Chained.tail h).quiet rfl
    | executing c d items o rest results => exact (Chained.tail h).quiet rfl
    | failing c progress => exact (Chained.tail h).quiet rfl
    | _ => cases hp
  skipped := fun h _ => h
  executed := fun h _ _ => lineage_actionRule.wp_executePendingAction (fun _ _ _ _ => trivial) rfl h
  concluded := fun h _ _ => h.tail
  planned := fun h _ _ _ => h.tail
  parked := fun h _ => h.tail
  chained := fun h _ _ => ⟨h, h.owed fun kind => ids_of_attempts _ [] kind⟩
  limited := fun h _ => ⟨h, .inl fun kind => ids_of_attempts _ [] kind⟩
  failed := fun h _ _ => ⟨h.tail, .inr ⟨_, h.begun _ List.mem_cons_self, rfl, rfl⟩⟩
  reporting := by
    intro callers i w h
    obtain ⟨hchained, hbegins⟩ := h
    refine ⟨hchained.concat (hchained.lineage.keep rfl (fun _ _ h => by cases h)
      fun i' heq => ?_), hbegins.concat⟩
    cases heq
    exact hbegins
  reported := fun h _ => h.1.quiet rfl
  unreported := fun h _ => h.1.quiet rfl
  resumed := fun h => h.tail
  rescued := fun h => h

lemma lineage_stable : Stable (fun _ => True) fun w => Steady w ∧ Lineage w.log := by
  intro i w h hφ
  have hrobust := lineageAt_robust [] .settled fun _ => True
  have hchained := hrobust.stable i w ⟨h.2, fun _ hc => absurd hc List.not_mem_nil⟩ hφ
  exact ⟨steady_invariant.absorb i h.1, hchained.lineage⟩

/-- Each round of the loop begins a turn on what its message brings. -/
lemma lineage_runRule :
    RunRule (fun _ => True) (fun callers p w => lineageAt callers p w.log) Lineage
      (fun source w => lineageAt [] (.ready source.sources) w.log) Steady
      (fun w => Steady w ∧ Lineage w.log) (fun w => Steady w ∧ Lineage w.log)
      (fun w => Lineage w.log) where
  turn := lineage_chainRule
  found := And.right
  broken := fun h => h.lineage
  invariant := steady_invariant
  base := And.left
  coherent := fun h => h.1.coherent
  settled := fun hJ h _ => ⟨hJ, h.lineage⟩
  stable := lineage_stable
  handover := fun _ h _ => ⟨⟨rfl, h.1.coherent.timer, h.1.coherent.limit⟩, h.2⟩
  ready_update := id
  taken_update := id
  taken := by
    intro w source h _ _
    refine ⟨⟨h.2.quiet rfl, fun _ hc => absurd hc List.not_mem_nil⟩, fun kind id => ?_⟩
    rw [taken, turnsOn_concat_of_quiet rfl, brought_concat]
    exact Nat.add_le_add_right (h.2.turns kind id) _
  event := id
  approved := by
    intro review w h _
    refine wp_mono (lineage_actionRule.wp_executePendingAction (fun _ _ _ _ => trivial) rfl h.1)
      (fun r _ _ _ h => ?_) ?_ fun _ _ _ _ h => h
    · cases r with
      | none => exact h
      | some execution => exact ⟨h, h.owed fun kind => ids_of_attempts _ [] kind⟩
    · rintro e w' - - ⟨error, rfl, h⟩
      exact ⟨error, rfl, h.lineage⟩
  reviewed := fun h _ _ => h
  unreviewed := fun h _ => h.1
  resolved := fun h => ⟨h.1, h.1.owed fun kind => ids_of_attempts _ [] kind⟩
  takenOver := fun h _ => h.1
  retried := by
    intro control w h htype
    rwa [Source.sources, if_pos htype] at h
  uncontrolled := fun h _ => h.1
  due := by
    intro w id h _ _ _
    have hchained : Chained [] w.log := ⟨h.2, fun _ hc => absurd hc List.not_mem_nil⟩
    exact ⟨hchained, hchained.owed fun kind => ids_of_attempts [] _ kind⟩
  undue := fun h _ _ _ => ⟨h.2, fun _ hc => absurd hc List.not_mem_nil⟩
  waits := fun h _ _ _ => h
  waiting_stable := lineage_stable
  woken := id

/-- Every run keeps the lineage. -/
lemma lineage_runs (iso : IsoCodec) {input : MailboxInput} (hinput : input.continuation = {})
    (uuids : ℕ → String) (rounds : ℕ) (script : List Input) :
    Lineage ((run iso input rounds).run script (initialWorld input uuids)).world.log := by
  have hnil : Lineage [] :=
    ⟨fun kind id => Nat.zero_le _, fun _ _ h => absurd h List.not_mem_nil,
      fun _ h => absurd h List.not_mem_nil⟩
  have h := lineage_runRule.wp_run (fun _ _ _ _ => trivial) (Mailbox.resumes_initial iso hinput)
    uuids ⟨⟨rfl, rfl, le_max_left _ _⟩, hnil⟩ rounds script
  revert h
  cases (run iso input rounds).run script (initialWorld input uuids) with
  | done a w rest => exact fun h => (h trivial).1.2
  | raised e w rest =>
      intro h
      obtain ⟨error, -, hlineage⟩ := h trivial
      exact hlineage
  | blocked l w => exact fun h => (h trivial).2

/-! ### Messages and retries -/

/-- The identity that a message of a kind is about. -/
def SourceKind.own? : SourceKind → Source → Option String
  | .event, source => source.event?.map MailboxEvent.eventId
  | .reviewCommand, source => source.review?.map MailboxReview.commandId

/-- The identities of a kind that messages of a log are about. -/
def messageIds (kind : SourceKind) (log : List Obs) : List String :=
  (sources log).filterMap kind.own?

/-- A control that hands an identity back. -/
def MailboxControl.returns (kind : SourceKind) (id : String) (control : MailboxControl) : Bool :=
  control.commandType = "retry" ∧ id ∈ kind.ids control.sources

/-- The retries of a log that hand an identity back. -/
def retries (kind : SourceKind) (id : String) (log : List Obs) : List MailboxControl :=
  (popped Source.control? log).filter (MailboxControl.returns kind id)

section

variable {kind : SourceKind} {id : String} {log : List Obs}

/-- A message brings an identity if it is about it, or hands it back. -/
lemma brings_eq (kind : SourceKind) (id : String) (source : Source) :
    (if id ∈ kind.ids source.sources then 1 else 0)
    = (kind.own? source).toList.count id
      + (source.control?.toList.filter (MailboxControl.returns kind id)).length := by
  cases source with
  | control message =>
      have hown : kind.own? (.control message) = none := by cases kind <;> rfl
      rw [hown]
      by_cases hretry : message.commandType = "retry"
      · by_cases hid : id ∈ kind.ids message.sources
        · simp [Source.sources, Source.control?, MailboxControl.returns, hretry, hid]
        · simp [Source.sources, Source.control?, MailboxControl.returns, hretry, hid]
      · cases kind <;>
          simp [Source.sources, SourceKind.ids, Source.control?, MailboxControl.returns, hretry]
  | event index message =>
      by_cases h : message.eventId = id
      · cases kind <;>
          simp [Source.sources, SourceKind.ids, SourceKind.own?, Source.event?, Source.review?,
            Source.control?, h]
      · cases kind <;>
          simp [Source.sources, SourceKind.ids, SourceKind.own?, Source.event?, Source.review?,
            Source.control?, h, Ne.symm h]
  | review message =>
      by_cases h : message.commandId = id
      · cases kind <;>
          simp [Source.sources, SourceKind.ids, SourceKind.own?, Source.event?, Source.review?,
            Source.control?, h]
      · cases kind <;>
          simp [Source.sources, SourceKind.ids, SourceKind.own?, Source.event?, Source.review?,
            Source.control?, h, Ne.symm h]
  | actionResolution message => cases kind <;> rfl

/-- An identity is brought by a message about it or by a retry. -/
lemma brought_eq : brought kind id log
    = (messageIds kind log).count id + (retries kind id log).length := by
  rw [brought, messageIds, retries, popped]
  induction sources log with
  | nil => rfl
  | cons source rest ih =>
      have hone := brings_eq kind id source
      have hmap : ∀ {α : Type} (f : Source → Option α),
          (source :: rest).filterMap f = (f source).toList ++ rest.filterMap f := by
        intro α f
        rw [List.filterMap_cons]
        cases f source <;> rfl
      rw [List.countP_cons, ih, hmap, hmap, List.count_append, List.filter_append,
        List.length_append]
      simp only [decide_eq_true_eq]
      omega

/-- The messages about an event, and those about a review. -/
lemma messageIds_eq : messageIds .event log = (popped Source.event? log).map MailboxEvent.eventId ∧
    messageIds .reviewCommand log = (popped Source.review? log).map MailboxReview.commandId := by
  rw [popped, popped, List.map_filterMap, List.map_filterMap]
  exact ⟨rfl, rfl⟩

/-- A message of its own brings an identity once. -/
lemma Accounted.nodup_messageIds {m : Mailbox} (h : Accounted log m) (kind : SourceKind) :
    (messageIds kind log).Nodup := by
  cases kind with
  | event =>
      rw [messageIds_eq.1]
      exact h.events.nodup_popped
  | reviewCommand =>
      rw [messageIds_eq.2]
      exact h.reviews.nodup_popped

/-- Each retry was received, and taken once. -/
lemma Accounted.retries {m : Mailbox} (h : Accounted log m) (kind : SourceKind) (id : String) :
    ((retries kind id log).map MailboxControl.commandId).Nodup ∧
      ∀ control ∈ TiramisuAgents.retries kind id log, control ∈ received Signal.control? log ∧
        control.commandType = "retry" ∧ id ∈ kind.ids control.sources := by
  refine ⟨h.controls.nodup_popped.sublist (List.filter_sublist.map _), fun control hc => ?_⟩
  obtain ⟨hpopped, hreturns⟩ := List.mem_filter.mp hc
  exact ⟨h.controls.mem_received hpopped, of_decide_eq_true hreturns⟩

end

/-- In every run the log and the inboxes of some mailbox agree: its own, or the one that a run
which waits to start will restore. -/
lemma accounted_runs (iso : IsoCodec) {input : MailboxInput} (hinput : input.continuation = {})
    (uuids : ℕ → String) (rounds : ℕ) (script : List Input) :
    ∃ m, Accounted ((run iso input rounds).run script (initialWorld input uuids)).world.log m := by
  have h := wp_run_sound iso hinput uuids rounds script
  revert h
  cases (run iso input rounds).run script (initialWorld input uuids) with
  | done a w rest => exact fun h => ⟨_, (h trivial).accounted⟩
  | raised e w rest => exact fun h => ⟨_, (h trivial).accounted⟩
  | blocked l w =>
      intro h
      rcases h trivial with h | ⟨-, -, m, -, h⟩
      · exact ⟨_, h.accounted⟩
      · exact ⟨m, h.accounted⟩

/-- **The turns on an identity** are at most its retries and one. -/
lemma Lineage.turnsOn_card_le {log : List Obs} {m : Mailbox} (h : Lineage log)
    (hm : Accounted log m) (kind : SourceKind) (id : String) :
    (turnsOn kind id log).card ≤ 1 + (retries kind id log).length := by
  have hturns := h.turns kind id
  have hcount := List.nodup_iff_count_le_one.mp (hm.nodup_messageIds kind) id
  rw [brought_eq] at hturns
  omega

end TiramisuAgents
