import TiramisuAgents.Mailbox.Lineage
import TiramisuAgents.Mailbox.Survival
import TiramisuAgents.Processes.Controls
import TiramisuAgents.Processes.Revisions

/-!
A mailbox and the database of its process: each event and review command is applied once.

A turn that fails reports its sources as an intervention, also when the failure came after its
state was persisted, and a retry hands the sources back.  What a mailbox and its database have
in common is what their Activities and the dispatcher carry between them (`Linked`); the
revisions on an identity are then counted against the turns on it.

* `NoStaleRetry`: no intervention of a turn with a revision is retried.
* `applied_once`: without such retries no identity is in two revisions; `applied_twice` is a run
  with one.
-/

namespace TiramisuAgents

open Coroutine Transactions

/-! ### What the two sides have in common -/

/-- The sources of an intervention, as the mailbox has them. -/
def SourceIds.turnSources (s : SourceIds) : TurnSources :=
  ⟨s.eventIds, s.reviewCommandIds, s.actionAttemptIds, s.timerIds⟩

/-- The sources name an event or a review command. -/
def SourceIds.Names (s : SourceIds) : Prop :=
  ∃ kind : SourceKind, kind.ids s.turnSources ≠ []

section

variable {V : Type}

/-- The identities of a kind that a revision is based on. -/
def SourceKind.basedOn : SourceKind → ProcessStateRevision V → List UUID
  | .event, revision => revision.basedOnEventIds
  | .reviewCommand, revision => revision.basedOnReviewCommandIds

/-- The rows of a process come from the Activities of its mailbox, and the retries of the mailbox
from the rows: a decision is based on the sources of its turn (`validate_decision`), an
intervention is recorded as it was reported, and a retry is sent with the sources that
`apply_control` has put into its payload. -/
structure Linked (log : List Obs) (w : ProcessDatabase V) : Prop where
  revisions : ∀ r ∈ w.revisions, ∃ c d, .started (.persistProcessState c d) ∈ log ∧
    r.agentTurnId = c.turnId ∧ ∀ kind : SourceKind, sameSet (kind.basedOn r) (kind.ids c.sources)
  interventions : ∀ v ∈ w.interventions, ∃ i, .started (.recordProcessIntervention i) ∈ log ∧
    v.agentTurnId = i.agentTurnId ∧ v.sources.turnSources = i.sources
  controls : ∀ control ∈ received Signal.control? log, control.commandType = "retry" →
    ∃ c ∈ w.controls, c.id = control.commandId ∧ c.commandType = .retry ∧
      c.payload.map SourceIds.turnSources = some control.sources

/-- No two revisions are based on the same event or review command. -/
def AppliedOnce (w : ProcessDatabase V) : Prop :=
  w.revisions.Pairwise fun r r' =>
    ∀ (kind : SourceKind) (id : UUID), id ∈ kind.basedOn r → id ∉ kind.basedOn r'

/-- What was retried of an event or a review command has no revision. -/
def FreshRetries (w : ProcessDatabase V) : Prop :=
  ∀ v ∈ w.interventions, v.status = .resolved → v.sources.Names →
    ∀ r ∈ w.revisions, r.agentTurnId ≠ v.agentTurnId

/-- The step does not retry an intervention that names events or review commands and whose turn
has a revision, nor apply the decision of a turn after such a retry. -/
structure NoStaleRetry {n : ℕ} (s : Pool n (ProcessDatabase V) (ProcessStage V) (ProcessEvent V))
    (m : Fin n × ProcessInput V) : Prop where
  retry : ∀ c reason row eventId now, s.calls m.1 = .controlling c (.locked reason row) →
    m.2 = .answer (.wake eventId now) → c.commandType = .retry →
    ∀ v ∈ s.store.interventions, c.interventionId = some v.id → v.sources.Names →
      ∀ r ∈ s.store.revisions, r.agentTurnId ≠ v.agentTurnId
  apply : ∀ c row facts openActions transition,
    s.calls m.1 = .applying c (.flushing row facts openActions transition) →
    m.2 = .answer .go → ∀ v ∈ s.store.interventions, v.status = .resolved → v.sources.Names →
      v.agentTurnId ≠ c.agentTurnId

end

/-! ### Counting -/

section

variable {V : Type} {w : ProcessDatabase V} {log : List Obs} {kind : SourceKind} {id : UUID}

/-- A revision on an identity is that of a turn on it. -/
lemma Linked.revision_turn (h : Linked log w) (hlineage : Lineage log)
    {r : ProcessStateRevision V} (hr : r ∈ w.revisions) (hid : id ∈ kind.basedOn r) :
    r.agentTurnId ∈ turnsOn kind id log := by
  obtain ⟨c, d, hstarted, hturn, hsame⟩ := h.revisions r hr
  rw [hturn]
  exact mem_turnsOn (hlineage.persisted c d hstarted) ((sameSet_iff.mp (hsame kind) id).mp hid)

/-- A retry that hands an identity back is that of a turn on it. -/
lemma Linked.retry_turn (h : Linked log w) (hlineage : Lineage log) (hresolve : RetriesResolve w)
    {control : MailboxControl} (hreceived : control ∈ received Signal.control? log)
    (htype : control.commandType = "retry") (hid : id ∈ kind.ids control.sources) :
    ∃ v ∈ w.interventions, v.status = .resolved ∧ v.sources.Names ∧
      v.resolvedByCommandId = some control.commandId ∧ v.agentTurnId ∈ turnsOn kind id log := by
  obtain ⟨c, hc, hcommand, hretry, hpayload⟩ := h.controls control hreceived htype
  obtain ⟨v, hv, -, hsources, hresolved, hby⟩ := hresolve.resolves c hc hretry
  rw [hsources, Option.map_some, Option.some.injEq] at hpayload
  rw [← hpayload] at hid
  refine ⟨v, hv, hresolved, ⟨kind, List.ne_nil_of_mem hid⟩, by rw [hby, hcommand], ?_⟩
  -- the intervention was reported by a turn on the same sources
  obtain ⟨i, hstarted, hturn, hsame⟩ := h.interventions v hv
  rw [hsame] at hid
  rcases hlineage.reported i hstarted with hnone | ⟨c, hbegun, hc, hcs⟩
  · rw [hnone kind] at hid
    exact absurd hid List.not_mem_nil
  · rw [hturn, ← hc]
    exact mem_turnsOn hbegun (hcs ▸ hid)

/-- **The count**: two revisions on an identity and its retries would be turns on it, and those
are one more than the retries. -/
lemma Linked.appliedOnce {m : Mailbox} (h : Linked log w) (hlineage : Lineage log)
    (haccounted : Accounted log m) (hresolve : RetriesResolve w) (hfresh : FreshRetries w)
    (hturns : (w.revisions.map ProcessStateRevision.agentTurnId).Nodup) : AppliedOnce w := by
  refine (List.pairwise_map.mp hturns).imp_of_mem fun {r r'} hr hr' hne kind id hid hid' => ?_
  obtain ⟨hnodup, hretries⟩ := haccounted.retries kind id
  -- the turn whose intervention a retry has resolved
  have hturnOf : ∀ control ∈ retries kind id log, ∃ turn ∈ turnsOn kind id log,
      ∃ v ∈ w.interventions, v.agentTurnId = turn ∧ v.status = .resolved ∧ v.sources.Names ∧
        v.resolvedByCommandId = some control.commandId := by
    intro control hcontrol
    obtain ⟨hreceived, htype, hid⟩ := hretries control hcontrol
    obtain ⟨v, hv, hresolved, hnames, hby, hturn⟩ :=
      h.retry_turn hlineage hresolve hreceived htype hid
    exact ⟨_, hturn, v, hv, rfl, hresolved, hnames, hby⟩
  choose! turnOf hturn using hturnOf
  let retried := (retries kind id log).toFinset.image turnOf
  have hinj : Set.InjOn turnOf ((retries kind id log).toFinset : Set MailboxControl) := by
    intro c hc c' hc' hsame
    rw [Finset.mem_coe, List.mem_toFinset] at hc hc'
    obtain ⟨v, hv, hvturn, -, -, hby⟩ := (hturn c hc).2
    obtain ⟨v', hv', hvturn', -, -, hby'⟩ := (hturn c' hc').2
    have heq := List.inj_on_of_nodup_map hresolve.turns hv hv'
      (hvturn.trans (hsame.trans hvturn'.symm))
    rw [heq, hby', Option.some.injEq] at hby
    exact List.inj_on_of_nodup_map hnodup hc hc' hby.symm
  have hcard : retried.card = (retries kind id log).length := by
    rw [Finset.card_image_of_injOn hinj, List.toFinset_card_of_nodup (List.Nodup.of_map _ hnodup)]
  have hout : ∀ r ∈ w.revisions, r.agentTurnId ∉ retried := by
    intro r hr hmem
    obtain ⟨c, hc, hsame⟩ := Finset.mem_image.mp hmem
    rw [List.mem_toFinset] at hc
    obtain ⟨v, hv, hvturn, hresolved, hnames, -⟩ := (hturn c hc).2
    exact hfresh v hv hresolved hnames r hr (hsame.symm.trans hvturn.symm)
  have hsub : insert r.agentTurnId (insert r'.agentTurnId retried) ⊆ turnsOn kind id log := by
    intro turn hmem
    rcases Finset.mem_insert.mp hmem with rfl | hmem
    · exact h.revision_turn hlineage hr hid
    · rcases Finset.mem_insert.mp hmem with rfl | hmem
      · exact h.revision_turn hlineage hr' hid'
      · obtain ⟨c, hc, rfl⟩ := Finset.mem_image.mp hmem
        exact (hturn c (List.mem_toFinset.mp hc)).1
  have hle := Finset.card_le_card hsub
  have hbound := hlineage.turnsOn_card_le haccounted kind id
  have hnotMem : r.agentTurnId ∉ insert r'.agentTurnId retried := by
    rw [Finset.mem_insert]
    rintro (hsame | hmem)
    · exact hne hsame
    · exact hout r hr hmem
  rw [Finset.card_insert_of_notMem hnotMem, Finset.card_insert_of_notMem (hout r' hr'), hcard]
    at hle
  omega

end

/-! ### Runs -/

section

variable {V : Type} [BEq V] {S : Services V} {n : ℕ} {createdAt : Time}
  {s s' : Pool n (ProcessDatabase V) (ProcessStage V) (ProcessEvent V)}
  {ms : List (Fin n × ProcessInput V)}

/-- A step that is not a stale retry leaves none. -/
lemma freshRetries_step {i : Fin n} {x : ProcessInput V} {t : ProcessStage V}
    {w : ProcessDatabase V} {obs : List (ProcessEvent V)} (hG : NoStaleRetry s (i, x))
    (h : ProcessStep S (s.calls i) x s.store t w obs) (hs : FreshRetries s.store) :
    FreshRetries w := by
  generalize hstage : s.calls i = stage at h
  generalize hstore : s.store = store at h hs
  cases h with
  | applyDecision c row facts openActions transition =>
      intro v hv hresolved hnames r hr
      rcases List.mem_append.mp hr with hr | hr
      · exact hs v hv hresolved hnames r hr
      · obtain rfl := List.mem_singleton.mp hr
        exact (hG.apply c row facts openActions transition hstage rfl v (by rwa [hstore])
          hresolved hnames).symm
  | intervene v row hunique =>
      intro v' hv' hresolved hnames r hr
      rcases List.mem_append.mp hv' with hv' | hv'
      · exact hs v' hv' hresolved hnames r hr
      · obtain rfl := List.mem_singleton.mp hv'
        cases hresolved
  | control c reason row write eventId recordedAt hlive hwritten =>
      intro v' hv' hresolved hnames r hr
      obtain ⟨v, hv, rfl⟩ := List.mem_map.mp hv'
      split_ifs at hresolved hnames ⊢ with hsame
      · by_cases hretry : c.commandType = .retry
        · obtain ⟨v₀, -, hid, -, hres, -⟩ := ProcessControlInput.write_of_retry hwritten hretry
          have hid' : c.interventionId = some v.id := by rw [hid, ← hres, hsame]
          exact hG.retry c reason row eventId recordedAt hstage rfl hretry v (by rwa [hstore])
            hid' hnames r (by rwa [hstore])
        · rw [ProcessControlInput.write_of_not_retry hwritten hretry] at hsame
          cases hsame
      · exact hs v hv hresolved hnames r hr
  | _ => exact hs

/-- Runs without stale retries. -/
lemma freshRetries_runs (h : Runs (processCalls S) NoStaleRetry (newProcess n createdAt) ms s) :
    FreshRetries s.store := by
  refine h.invariant (I := fun s => FreshRetries s.store) (fun s m s' hs hG hstep => ?_)
    (fun _ hv => absurd hv List.not_mem_nil)
  obtain ⟨t, w, obs, hmoved, rfl⟩ := process_step_cases hstep
  exact freshRetries_step hG hmoved hs

/-- **Each event and review command is applied once.**  In every run of a mailbox and every run
of the calls on its process that has the rows in common with it, if no intervention that names
events or review commands is retried whose turn has a revision, or is given one afterwards, no
two revisions of the process are based on the same event or on the same review command. -/
theorem applied_once (iso : IsoCodec) (tenantId processInstanceId : String)
    (processDefinitionId processDefinitionVersion : Option String)
    (continueAsNewAfterTurns : ℤ) (uuids : ℕ → String) (rounds : ℕ) (script : List Input)
    (h : Runs (processCalls S) NoStaleRetry (newProcess n createdAt) ms s)
    (hlinked : Linked
      ((run iso (.first tenantId processInstanceId processDefinitionId processDefinitionVersion
        continueAsNewAfterTurns) rounds).run script (initialWorld
          (.first tenantId processInstanceId processDefinitionId processDefinitionVersion
            continueAsNewAfterTurns) uuids)).world.log s.store) :
    AppliedOnce s.store := by
  have hinput : (MailboxInput.first tenantId processInstanceId processDefinitionId
    processDefinitionVersion continueAsNewAfterTurns).continuation = {} := rfl
  obtain ⟨m, haccounted⟩ := accounted_runs iso hinput uuids rounds script
  exact hlinked.appliedOnce (lineage_runs iso hinput uuids rounds script) haccounted
    (retriesResolve_runs h) (freshRetries_runs h) (dense_runs h).common.1.turns

end

/-! ### An event that is handed back -/

/-- A decision on the event that waits for a reply. -/
def repliedDecision (decisionId : UUID) : AgentDecision where
  decisionId := decisionId
  basedOnEventIds := ["event"]
  status := .waiting
  wakeConditions := [.event "reply"]
  waitingWakes := reply_wakes

/-- A retry that hands the event back. -/
def handedBack : MailboxControl where
  commandId := "retry"
  commandType := "retry"
  sources := { eventIds := ["event"] }

/-- The retried turn. -/
def retriedTurn : List Input :=
  [.signal (.receiveControl handedBack), .task 0 false,
    .reply (.turn (.ok (repliedDecision "second"))), .reply (.actions (.ok [])),
    .reply (.processState (.ok (some ⟨false, [.event "reply"]⟩)))]

/-- The rows of the event and of a decision on it. -/
def appliedEvent (turnId decisionId : UUID) : List (Fin 1 × ProcessInput ℕ) :=
  processMoves 0 0 (.applyDecision ⟨turnId, repliedDecision decisionId, none, []⟩)
    [.go, .go, .sources [⟨"event", []⟩] [], .go, .go]

/-- The intervention of the first turn, and its retry. -/
def retriedEvent : List (Fin 1 × ProcessInput ℕ) :=
  processMoves 0 0 (.recordIntervention
    ⟨"1", "0", "turn_failure", "Error", "", { eventIds := ["event"] }⟩) [.go, .go, .go] ++
  controlled 0 "retry" .retry (some "1")

/-- What the samples look at in a revision. -/
def ProcessStateRevision.based {V : Type} (r : ProcessStateRevision V) :
    UUID × List UUID × List UUID :=
  (r.agentTurnId, r.basedOnEventIds, r.basedOnReviewCommandIds)

/-- What the samples look at in an intervention. -/
def ProcessIntervention.based (v : ProcessIntervention) : UUID × SourceIds :=
  (v.agentTurnId, v.sources)

/-- What the samples look at in a control. -/
def ProcessControlCommand.based (c : ProcessControlCommand) :
    UUID × ProcessControlType × Option SourceIds :=
  (c.id, c.commandType, c.payload)

/-- The rows after the retry, and the revisions that are based on the event. -/
def retriedRows (turns : List UUID) (w : ProcessDatabase ℕ) : Bool :=
  w.revisions.map ProcessStateRevision.based = turns.map (fun turn => (turn, ["event"], [])) &&
  w.interventions.map ProcessIntervention.based = [("0", { eventIds := ["event"] })] &&
  w.controls.map ProcessControlCommand.based
    = [("retry", .retry, some { eventIds := ["event"] })]

/-- The turn that an observation persists, with its sources. -/
def Obs.persisted? : Obs → Option (UUID × TurnSources)
  | .started (.persistProcessState c _) => some (c.turnId, c.sources)
  | _ => none

/-- The turn that an observation reports, with its sources. -/
def Obs.reported? : Obs → Option (UUID × TurnSources)
  | .started (.recordProcessIntervention i) => some (i.agentTurnId, i.sources)
  | _ => none

/-- The log of the retry: the turns that were persisted on the event, and the first reported. -/
def retriedLog (turns : List UUID) (log : List Obs) : Bool :=
  log.filterMap Obs.persisted? = turns.map (fun turn => (turn, { eventIds := ["event"] })) &&
  log.filterMap Obs.reported? = [("0", { eventIds := ["event"] })] &&
  received Signal.control? log = [handedBack]

lemma linked_of_retriedRows {turns : List UUID} {log : List Obs} {w : ProcessDatabase ℕ}
    (h : retriedRows turns w = true)
    (hlog : retriedLog turns log = true) : Linked log w := by
  simp only [retriedRows, Bool.and_eq_true, decide_eq_true_eq] at h
  obtain ⟨⟨hrevisions, hinterventions⟩, hcontrols⟩ := h
  simp only [retriedLog, Bool.and_eq_true, decide_eq_true_eq] at hlog
  obtain ⟨⟨hpersisted, hreported⟩, hreceived⟩ := hlog
  refine ⟨fun r hr => ?_, fun v hv => ?_, fun control hcontrol _ => ?_⟩
  · have hmem := List.mem_map_of_mem (f := ProcessStateRevision.based) hr
    rw [hrevisions] at hmem
    obtain ⟨turn, hturn, hbased⟩ := List.mem_map.mp hmem
    have hturn := List.mem_map_of_mem
      (f := fun turn => (turn, ({ eventIds := ["event"] } : TurnSources))) hturn
    rw [← hpersisted] at hturn
    obtain ⟨o, ho, hoturn⟩ := List.mem_filterMap.mp hturn
    unfold Obs.persisted? at hoturn
    split at hoturn
    · rename_i c d
      rw [Option.some.injEq, Prod.mk.injEq] at hoturn
      obtain ⟨rfl, hsources⟩ := hoturn
      obtain ⟨hid, hevents, hreviews⟩ : c.turnId = r.agentTurnId ∧
          ["event"] = r.basedOnEventIds ∧ [] = r.basedOnReviewCommandIds := by
        simpa [ProcessStateRevision.based] using hbased
      refine ⟨c, d, ho, hid.symm, fun kind => ?_⟩
      rw [hsources]
      cases kind with
      | event => exact hevents ▸ sameSet_self _
      | reviewCommand => exact hreviews ▸ sameSet_self _
    · cases hoturn
  · have hmem := List.mem_map_of_mem (f := ProcessIntervention.based) hv
    rw [hinterventions, List.mem_singleton, ProcessIntervention.based, Prod.mk.injEq] at hmem
    have hturn : ("0", ({ eventIds := ["event"] } : TurnSources)) ∈
        log.filterMap Obs.reported? := by
      rw [hreported]
      exact List.mem_singleton_self _
    obtain ⟨o, ho, hoturn⟩ := List.mem_filterMap.mp hturn
    unfold Obs.reported? at hoturn
    split at hoturn
    · rename_i i
      rw [Option.some.injEq, Prod.mk.injEq] at hoturn
      exact ⟨i, ho, by rw [hmem.1, hoturn.1], by rw [hmem.2, hoturn.2]; rfl⟩
    · cases hoturn
  · rw [hreceived] at hcontrol
    obtain rfl := List.mem_singleton.mp hcontrol
    have hmem : ("retry", .retry, some { eventIds := ["event"] })
        ∈ w.controls.map ProcessControlCommand.based := by
      rw [hcontrols]
      exact List.mem_singleton_self _
    obtain ⟨c, hc, hbased⟩ := List.mem_map.mp hmem
    rw [ProcessControlCommand.based, Prod.mk.injEq, Prod.mk.injEq] at hbased
    exact ⟨c, hc, hbased.1, hbased.2.1, by rw [hbased.2.2]; rfl⟩

/-- A computed check of `NoStaleRetry`. -/
def noStaleRetry {n : ℕ} (s : Pool n (ProcessDatabase ℕ) (ProcessStage ℕ) (ProcessEvent ℕ))
    (m : Fin n × ProcessInput ℕ) : Bool :=
  match s.calls m.1 with
  | .controlling _ _ => s.store.revisions.isEmpty
  | .applying c _ => s.store.interventions.all fun v => v.agentTurnId ≠ c.agentTurnId
  | _ => true

lemma noStaleRetry_sound {n : ℕ}
    {s : Pool n (ProcessDatabase ℕ) (ProcessStage ℕ) (ProcessEvent ℕ)}
    {m : Fin n × ProcessInput ℕ} (h : noStaleRetry s m = true) : NoStaleRetry s m := by
  constructor
  · intro c reason row eventId now hstage _ _ v _ _ _ r hr
    rw [noStaleRetry, hstage] at h
    rw [List.isEmpty_iff.mp h] at hr
    exact absurd hr List.not_mem_nil
  · intro c row facts openActions transition hstage _ v hv _ _
    rw [noStaleRetry, hstage] at h
    exact of_decide_eq_true (List.all_eq_true.mp h v hv)

/-- A turn that failed before its state was persisted, and is retried. -/
theorem applied_once_retried :
    ∃ (script : List Input) (ms : List (Fin 1 × ProcessInput ℕ))
      (s : Pool 1 (ProcessDatabase ℕ) (ProcessStage ℕ) (ProcessEvent ℕ)),
    Runs (processCalls (sampleServices false)) NoStaleRetry (newProcess 1 0) ms s ∧
    Linked ((run .tally sampleInput 3).run script (initialWorld sampleInput toString)).world.log
      s.store ∧
    retriedRows ["2"] s.store ∧ AppliedOnce s.store := by
  let script : List Input := failedTurn ++ retriedTurn
  let ms : List (Fin 1 × ProcessInput ℕ) := retriedEvent ++ appliedEvent "2" "second"
  obtain ⟨s, hruns, hp⟩ := exists_runs (C := processCalls (sampleServices false))
    (s := newProcess 1 0) noStaleRetry ms (fun s => retriedRows ["2"] s.store) (by decide +kernel)
  have h := hruns.mono fun s m => noStaleRetry_sound
  have hlog : retriedLog ["2"] ((run .tally sampleInput 3).run script
      (initialWorld sampleInput toString)).world.log = true := by
    decide +kernel
  have hlinked := linked_of_retriedRows hp hlog
  exact ⟨script, ms, s, h, hlinked, hp, applied_once .tally "tenant" "process" (some "definition")
    (some "1") 100 toString 3 script h hlinked⟩

/-- A turn fails after its state was persisted: its intervention hands the event back, and the
retry applies it a second time. -/
theorem applied_twice :
    ∃ (script : List Input) (ms : List (Fin 1 × ProcessInput ℕ))
      (s : Pool 1 (ProcessDatabase ℕ) (ProcessStage ℕ) (ProcessEvent ℕ)),
    Runs (processCalls (sampleServices false)) (fun _ _ => True) (newProcess 1 0) ms s ∧
    Linked ((run .tally sampleInput 3).run script (initialWorld sampleInput toString)).world.log
      s.store ∧
    ¬ AppliedOnce s.store := by
  let script : List Input :=
    [.signal (.receiveEvent ⟨"event", "started"⟩), .task 0 false,
      .reply (.turn (.ok (repliedDecision "first"))),
      .reply (.actions (.ok [⟨"action", 1, .allow⟩])),
      .reply (.processState (.ok (some ⟨false, [.event "reply"]⟩))),
      .reply (.executed (.error incompatible)), .reply (.intervention (.ok ()))] ++ retriedTurn
  let ms : List (Fin 1 × ProcessInput ℕ) :=
    appliedEvent "0" "first" ++ retriedEvent ++ appliedEvent "2" "second"
  obtain ⟨s, hruns, hp⟩ := exists_runs (C := processCalls (sampleServices false))
    (s := newProcess 1 0) (fun _ _ => true) ms (fun s => retriedRows ["0", "2"] s.store)
    (by decide +kernel)
  refine ⟨script, ms, s, hruns.mono fun _ _ _ => trivial,
    linked_of_retriedRows hp (by decide +kernel), fun hone => ?_⟩
  simp only [retriedRows, Bool.and_eq_true, decide_eq_true_eq] at hp
  obtain ⟨r, rest, hrevisions, hr, hrest⟩ := List.map_eq_cons_iff.mp hp.1.1
  obtain ⟨r', rest', rfl, hr', -⟩ := List.map_eq_cons_iff.mp hrest
  rw [AppliedOnce, hrevisions, List.pairwise_cons] at hone
  have hevents : ∀ {r : ProcessStateRevision ℕ} {turn : UUID},
      r.based = (turn, ["event"], []) → "event" ∈ SourceKind.event.basedOn r := by
    intro r turn hbased
    rw [ProcessStateRevision.based, Prod.mk.injEq, Prod.mk.injEq] at hbased
    change "event" ∈ r.basedOnEventIds
    rw [hbased.2.1]
    exact List.mem_singleton_self _
  exact hone.1 r' List.mem_cons_self .event "event" (hevents hr) (hevents hr')

end TiramisuAgents
