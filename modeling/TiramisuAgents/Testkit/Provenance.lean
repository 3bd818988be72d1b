import TiramisuAgents.Processes.Calls
import TiramisuAgents.Testkit.Runnable

/-!
The memory that a model supplies with a generated decision (`projects/output.py`), from its
validation to the row of its process.

A summary is kept with exactly its sources if they all belong to the turn, and dropped with all of
them otherwise; the commitments are kept.

* `MemoryUpdate.validated`: the validation of a `MemoryUpdate`.
* `trustedMemory`: `_trusted_memory_update`, with the updates it makes validated.
* `MemoryUpdate.Cites`: every source is one of the turn; `trustedMemory_cites`,
  `trustedMemory_not_cites`.
* `validateDecision_dropSources`: where the sources are among those of a decision, the four checks
  on them make no difference.
* `trusted_memory_all_or_nothing`.
-/

namespace TiramisuAgents

/-! ### `MemoryUpdate` (`core/contracts/decisions.py`) -/

/-- `any(sources)`, for the four lists of sources. -/
def MemoryUpdate.cited (m : MemoryUpdate) : Bool :=
  !m.summarySourceEventIds.isEmpty || !m.summarySourceReviewCommandIds.isEmpty ||
    !m.summarySourceActionAttemptIds.isEmpty || !m.summarySourceTimerIds.isEmpty

/-- `require_bounded_memory_provenance`. -/
def MemoryUpdate.requireBoundedMemoryProvenance (m : MemoryUpdate) : Except String Unit := do
  requireThat (!(m.summary.isNone && m.cited)) "memory summary sources require a summary"
  requireThat (!(m.summary.isSome && !m.cited)) "a memory summary requires source provenance"
  [m.summarySourceEventIds, m.summarySourceReviewCommandIds, m.summarySourceActionAttemptIds,
    m.summarySourceTimerIds].forM fun values =>
      requireThat values.Nodup "memory summary source IDs must be unique"
  requireThat (m.openCommitments.all fun commitment => strip commitment ≠ "")
    "open commitments cannot be blank"
  requireThat m.openCommitments.Nodup "open commitments must be unique"

/-- `MemoryUpdate.model_validate`: the length of the summary, then the sources. -/
def MemoryUpdate.validated (m : MemoryUpdate) : Except String MemoryUpdate := do
  requireThat (m.summary.all fun text => text.length ≤ 4000)
    "summary should have at most 4000 characters"
  m.requireBoundedMemoryProvenance
  return m

/-- What a validated update satisfies. -/
structure MemoryUpdate.Valid (m : MemoryUpdate) : Prop where
  short : ∀ text ∈ m.summary, text.length ≤ 4000
  sourced : m.summary.isSome = m.cited
  events_nodup : m.summarySourceEventIds.Nodup
  reviews_nodup : m.summarySourceReviewCommandIds.Nodup
  attempts_nodup : m.summarySourceActionAttemptIds.Nodup
  timers_nodup : m.summarySourceTimerIds.Nodup
  commitments_named : ∀ commitment ∈ m.openCommitments, strip commitment ≠ ""
  commitments_nodup : m.openCommitments.Nodup

/-- The validation accepts the valid updates. -/
lemma MemoryUpdate.validated_iff {m m' : MemoryUpdate} :
    m.validated = .ok m' ↔ m.Valid ∧ m' = m := by
  have hreturn : (pure m : Except String MemoryUpdate) = .ok m' ↔ m' = m :=
    ⟨fun h => (Except.ok.inj h).symm, fun h => congrArg Except.ok h.symm⟩
  have hshort : (m.summary.all fun text => text.length ≤ 4000) = true ↔
      ∀ text ∈ m.summary, text.length ≤ 4000 := by
    cases m.summary <;> simp
  rw [validated, requireBoundedMemoryProvenance, check_bind_iff, check_bind_iff, hreturn,
    ← and_assoc]
  refine and_congr ?_ Iff.rfl
  have hsourced : (!(m.summary.isNone && m.cited)) = true ∧ (!(m.summary.isSome && !m.cited)) = true
      ↔ m.summary.isSome = m.cited := by
    cases m.summary <;> cases m.cited <;> simp
  simp only [check_bind_iff, requireThat_iff, forM_ok_iff, hshort, List.forall_mem_cons,
    decide_eq_true_eq]
  rw [← and_assoc (a := (!(m.summary.isNone && m.cited)) = true), hsourced]
  constructor
  · rintro ⟨hshort, hsourced, ⟨hevents, hreviews, hattempts, htimers, -⟩, hnamed, hcommitments⟩
    exact ⟨hshort, hsourced, hevents, hreviews, hattempts, htimers, by simpa using hnamed,
      hcommitments⟩
  · rintro ⟨hshort, hsourced, hevents, hreviews, hattempts, htimers, hnamed, hcommitments⟩
    exact ⟨hshort, hsourced, ⟨hevents, hreviews, hattempts, htimers, by simp⟩,
      by simpa using hnamed,
      hcommitments⟩

/-! ### The update of a turn (`projects/output.py`) -/

section

variable {F : Type}

/-- `_trusted_memory_update`: the update it makes is validated. -/
def trustedMemory (memory : MemoryUpdate) (input : ScenarioTurnInput F) :
    Except String MemoryUpdate :=
  (trustedMemoryUpdate memory input).validated

/-- Every source of a summary belongs to the turn. -/
structure MemoryUpdate.Cites (m : MemoryUpdate) (input : ScenarioTurnInput F) : Prop where
  events : ∀ id ∈ m.summarySourceEventIds, id ∈ input.events.map FactSource.id
  reviews : ∀ id ∈ m.summarySourceReviewCommandIds, id ∈ input.reviewCommandIds
  attempts : ∀ id ∈ m.summarySourceActionAttemptIds,
    id ∈ input.actionResults.map fun r => r.source.id
  timers : ∀ id ∈ m.summarySourceTimerIds, id ∈ input.timerIds

/-- The update without its summary and the sources of it. -/
def MemoryUpdate.commitments (m : MemoryUpdate) : MemoryUpdate :=
  { openCommitments := m.openCommitments }

variable {m : MemoryUpdate} {input : ScenarioTurnInput F}

lemma filter_contains_iff {ids : List String} {kept : List String} :
    ids.filter kept.contains = ids ↔ ∀ id ∈ ids, id ∈ kept := by
  rw [List.filter_eq_self]
  simp

lemma MemoryUpdate.cited_eq_false : m.cited = false ↔
    m.summarySourceEventIds = [] ∧ m.summarySourceReviewCommandIds = [] ∧
      m.summarySourceActionAttemptIds = [] ∧ m.summarySourceTimerIds = [] := by
  simp [cited, and_assoc]

/-- An update without sources cites nothing outside the turn. -/
lemma MemoryUpdate.Cites.of_uncited (h : m.cited = false) : m.Cites input := by
  obtain ⟨hevents, hreviews, hattempts, htimers⟩ := cited_eq_false.mp h
  exact ⟨by simp [hevents], by simp [hreviews], by simp [hattempts], by simp [htimers]⟩

/-- Nothing is rewritten iff every source belongs to the turn. -/
lemma MemoryUpdate.cites_iff : m.Cites input ↔
    m.summarySourceEventIds.filter (input.events.map FactSource.id).contains
        = m.summarySourceEventIds ∧
      m.summarySourceReviewCommandIds.filter input.reviewCommandIds.contains
        = m.summarySourceReviewCommandIds ∧
      m.summarySourceActionAttemptIds.filter (input.actionResults.map fun r => r.source.id).contains
        = m.summarySourceActionAttemptIds ∧
      m.summarySourceTimerIds.filter input.timerIds.contains = m.summarySourceTimerIds := by
  rw [filter_contains_iff, filter_contains_iff, filter_contains_iff, filter_contains_iff]
  exact ⟨fun h => ⟨h.events, h.reviews, h.attempts, h.timers⟩,
    fun ⟨hevents, hreviews, hattempts, htimers⟩ => ⟨hevents, hreviews, hattempts, htimers⟩⟩

/-- An update whose sources all belong to the turn is kept as it is. -/
lemma trustedMemoryUpdate_of_cites (hvalid : m.Valid) (hcites : m.Cites input) :
    trustedMemoryUpdate m input = m := by
  obtain ⟨hevents, hreviews, hattempts, htimers⟩ := MemoryUpdate.cites_iff.mp hcites
  rw [trustedMemoryUpdate, hevents, hreviews, hattempts, htimers, if_neg]
  rintro ⟨hsummary, hrewritten | huncited⟩
  · simp at hrewritten
  · rw [hvalid.sourced, MemoryUpdate.cited_eq_false.mpr huncited] at hsummary
    cases hsummary

/-- An update with a source that does not belong to the turn keeps only its commitments. -/
lemma trustedMemoryUpdate_of_not_cites (hvalid : m.Valid) (hcites : ¬ m.Cites input) :
    trustedMemoryUpdate m input = m.commitments := by
  have hsummary : m.summary.isSome = true := by
    rw [hvalid.sourced]
    by_contra huncited
    exact hcites (.of_uncited (Bool.eq_false_iff.mpr huncited))
  rw [trustedMemoryUpdate, if_pos, MemoryUpdate.commitments]
  refine ⟨hsummary, .inl (decide_eq_true ?_)⟩
  rw [MemoryUpdate.cites_iff] at hcites
  by_contra hkept
  simp only [not_or, not_not] at hkept
  exact hcites hkept

/-- The commitments of a valid update are valid by themselves. -/
lemma MemoryUpdate.Valid.commitments (h : m.Valid) : m.commitments.Valid :=
  { short := fun _ hnone => nomatch hnone
    sourced := rfl
    events_nodup := List.nodup_nil
    reviews_nodup := List.nodup_nil
    attempts_nodup := List.nodup_nil
    timers_nodup := List.nodup_nil
    commitments_named := h.commitments_named
    commitments_nodup := h.commitments_nodup }

/-- What is made of a valid update: all of it, or its commitments. -/
lemma trustedMemory_eq (hvalid : m.Valid) :
    (m.Cites input ∧ trustedMemory m input = .ok m) ∨
      (¬ m.Cites input ∧ trustedMemory m input = .ok m.commitments) := by
  rw [trustedMemory]
  by_cases hcites : m.Cites input
  · rw [trustedMemoryUpdate_of_cites hvalid hcites]
    exact .inl ⟨hcites, MemoryUpdate.validated_iff.mpr ⟨hvalid, rfl⟩⟩
  · rw [trustedMemoryUpdate_of_not_cites hvalid hcites]
    exact .inr ⟨hcites, MemoryUpdate.validated_iff.mpr ⟨hvalid.commitments, rfl⟩⟩

/-- What is kept cites the turn. -/
lemma trustedMemoryUpdate_cites (hvalid : m.Valid) : (trustedMemoryUpdate m input).Cites input := by
  by_cases hcites : m.Cites input
  · rwa [trustedMemoryUpdate_of_cites hvalid hcites]
  · rw [trustedMemoryUpdate_of_not_cites hvalid hcites]
    exact .of_uncited rfl

end

/-! ### The checks of a decision (`core/policy.py`) -/

/-- The sources of the summary of a decision are among the sources of the decision. -/
structure AgentDecision.Grounded (d : AgentDecision) : Prop where
  events : ∀ id ∈ d.memoryUpdate.summarySourceEventIds, id ∈ d.basedOnEventIds
  reviews : ∀ id ∈ d.memoryUpdate.summarySourceReviewCommandIds, id ∈ d.basedOnReviewCommandIds
  attempts : ∀ id ∈ d.memoryUpdate.summarySourceActionAttemptIds, id ∈ d.basedOnActionAttemptIds
  timers : ∀ id ∈ d.memoryUpdate.summarySourceTimerIds, id ∈ d.basedOnTimerIds

/-- The decision without the sources of its summary. -/
def AgentDecision.dropSources (d : AgentDecision) : AgentDecision :=
  { d with memoryUpdate :=
    { summary := d.memoryUpdate.summary, openCommitments := d.memoryUpdate.openCommitments } }

lemma requireThat_subset {ids kept : List String} {message : String} (h : ∀ id ∈ ids, id ∈ kept) :
    requireThat (ids.all (kept.contains ·)) message = .ok () := by
  rw [requireThat_iff, List.all_eq_true]
  exact fun id hid => List.contains_iff_mem.mpr (h id hid)

lemma map_bind_except {α β γ : Type} (x : Except String α) (f : α → Except String β) (g : β → γ) :
    (x >>= f).map g = x >>= fun a => (f a).map g := by
  cases x <;> rfl

/-- **The four checks on the sources of a summary** make no difference to a decision that is
grounded: what `validate_decision` says of it is what it says of the decision without sources. -/
lemma validateDecision_dropSources {V : Type} [BEq V] {d : AgentDecision} (h : d.Grounded)
    (identity : String → Parameters → String) (policy : DecisionPolicy V) (workflowNow : Time)
    (expected : ExpectedSources) (conflicted : List String) (facts : Option (List (String × V)))
    (enforce : Bool) :
    validateDecision identity d policy workflowNow expected conflicted facts enforce =
      (validateDecision identity d.dropSources policy workflowNow expected conflicted facts
        enforce).map fun _ => d := by
  have hdrop : d.dropSources.Grounded := by
    constructor <;> exact fun id hid => nomatch hid
  rw [validateDecision, validateDecision]
  dsimp only
  rw [requireThat_subset h.events, requireThat_subset h.reviews, requireThat_subset h.attempts,
    requireThat_subset h.timers, requireThat_subset hdrop.events, requireThat_subset hdrop.reviews,
    requireThat_subset hdrop.attempts, requireThat_subset hdrop.timers, AgentDecision.dropSources]
  simp only [map_bind_except]
  iterate 11 refine congrArg _ (funext fun _ => ?_)
  -- the check of a completion stands before the last four
  split_ifs
  · cases facts with
    | none => rfl
    | some facts =>
        simp only [map_bind_except]
        iterate 5 refine congrArg _ (funext fun _ => ?_)
        rfl
  · simp only [map_bind_except]
    iterate 4 refine congrArg _ (funext fun _ => ?_)
    rfl

/-! ### The decision of an output -/

/-- The update and the sources of a decision are those of another. -/
structure AgentDecision.SameProvenance (d d' : AgentDecision) : Prop where
  memory : d.memoryUpdate = d'.memoryUpdate
  events : d.basedOnEventIds = d'.basedOnEventIds
  reviews : d.basedOnReviewCommandIds = d'.basedOnReviewCommandIds
  attempts : d.basedOnActionAttemptIds = d'.basedOnActionAttemptIds
  timers : d.basedOnTimerIds = d'.basedOnTimerIds

section

variable {F : Type}

/-- The transformer of the journey, if it has one, keeps the memory and the sources of every
decision. -/
def OutputType.KeepsProvenance (t : OutputType F) : Prop :=
  ∀ transformer ∈ t.decisionTransformer, ∀ (d : AgentDecision) (input : ScenarioTurnInput F),
    (transformer d input).SameProvenance d

/-- A decision with the memory that an output is trusted with, on the sources of a turn. -/
structure AgentDecision.Converted (d : AgentDecision) (m : MemoryUpdate)
    (input : ScenarioTurnInput F) : Prop where
  memory : d.memoryUpdate = trustedMemoryUpdate m input
  events : d.basedOnEventIds = input.events.map FactSource.id
  reviews : d.basedOnReviewCommandIds = input.reviewCommandIds
  attempts : d.basedOnActionAttemptIds = input.actionResults.map fun r => r.source.id
  timers : d.basedOnTimerIds = input.timerIds

/-- The decision of an output is converted from it. -/
lemma toAgentDecision_converted {t : OutputType F} (hkeeps : t.KeepsProvenance)
    (K : ScenarioKernel F) (output : GeneratedOutput F) (input : ScenarioTurnInput F) :
    (output.toAgentDecision K t input).Converted output.memoryUpdate input := by
  rw [GeneratedOutput.toAgentDecision]
  cases htransformer : t.decisionTransformer with
  | none => exact ⟨rfl, rfl, rfl, rfl, rfl⟩
  | some transformer =>
      obtain ⟨hmemory, hevents, hreviews, hattempts, htimers⟩ :=
        hkeeps transformer htransformer _ input
      exact ⟨hmemory, hevents, hreviews, hattempts, htimers⟩

/-- So its summary is grounded. -/
lemma AgentDecision.Converted.grounded {d : AgentDecision} {m : MemoryUpdate}
    {input : ScenarioTurnInput F} (h : d.Converted m input) (hvalid : m.Valid) : d.Grounded := by
  have hcites : (trustedMemoryUpdate m input).Cites input := trustedMemoryUpdate_cites hvalid
  rw [← h.memory] at hcites
  constructor
  · rw [h.events]
    exact hcites.events
  · rw [h.reviews]
    exact hcites.reviews
  · rw [h.attempts]
    exact hcites.attempts
  · rw [h.timers]
    exact hcites.timers

end

/-- What `apply_decision` makes of the memory of a row. -/
lemma apply_memory {V : Type} (row : ProcessRow V) (d : AgentDecision) (facts : FactProjection V)
    (transition : ProjectedProcessTransition) :
    (d.memoryUpdate.summary.isSome → (row.apply d facts transition).memory = d.memoryUpdate) ∧
      (d.memoryUpdate.summary = none → (row.apply d facts transition).memory =
        { row.memory with openCommitments := d.memoryUpdate.openCommitments }) := by
  constructor
  · exact fun hsummary => if_pos hsummary
  · intro hnone
    exact if_neg (by simp [hnone])

/-- **Memory provenance is all or nothing.**  For every turn and every valid update that a model
supplies, the validation of what is made of it passes; it has the summary with exactly the supplied
sources if all of them belong to the turn, no summary and no sources otherwise, and always the
supplied commitments.  Unless a transformer of the journey rewrites the memory or the sources of
decisions, the four checks of `validate_decision` on these sources make no difference to the
decision, and `apply_decision` stores its summary only with sources of the turn, and else leaves the
summary of the process with its own sources as they are. -/
theorem trusted_memory_all_or_nothing {F V : Type} [BEq V] (K : ScenarioKernel F)
    (t : OutputType F) (output : GeneratedOutput F) (input : ScenarioTurnInput F)
    (hvalid : ∃ m, output.memoryUpdate.validated = .ok m) :
    let m := output.memoryUpdate
    let d := output.toAgentDecision K t input
    (∃ memory, trustedMemory m input = .ok memory ∧
      (m.Cites input → memory.summary = m.summary ∧
        memory.summarySourceEventIds = m.summarySourceEventIds ∧
        memory.summarySourceReviewCommandIds = m.summarySourceReviewCommandIds ∧
        memory.summarySourceActionAttemptIds = m.summarySourceActionAttemptIds ∧
        memory.summarySourceTimerIds = m.summarySourceTimerIds) ∧
      (¬ m.Cites input → memory.summary = none ∧ memory.cited = false) ∧
      memory.openCommitments = m.openCommitments ∧
      (t.KeepsProvenance → d.memoryUpdate = memory)) ∧
    (t.KeepsProvenance → d.Grounded ∧
      (∀ (identity : String → Parameters → String) (policy : DecisionPolicy V) (workflowNow : Time)
        (expected : ExpectedSources) (conflicted : List String)
        (facts : Option (List (String × V))) (enforce : Bool),
        validateDecision identity d policy workflowNow expected conflicted facts enforce =
          (validateDecision identity d.dropSources policy workflowNow expected conflicted facts
            enforce).map fun _ => d) ∧
      ∀ (row : ProcessRow V) (facts : FactProjection V) (transition : ProjectedProcessTransition),
        (d.memoryUpdate.summary.isSome →
          (row.apply d facts transition).memory = d.memoryUpdate ∧ d.memoryUpdate.Cites input) ∧
        (d.memoryUpdate.summary = none → (row.apply d facts transition).memory =
          { row.memory with openCommitments := m.openCommitments })) := by
  intro m d
  obtain ⟨_, hvalidated⟩ := hvalid
  obtain ⟨hvalid, -⟩ := MemoryUpdate.validated_iff.mp hvalidated
  have hcommitments : (trustedMemoryUpdate m input).openCommitments = m.openCommitments := by
    by_cases hcites : m.Cites input
    · rw [trustedMemoryUpdate_of_cites hvalid hcites]
    · rw [trustedMemoryUpdate_of_not_cites hvalid hcites]
      rfl
  refine ⟨?_, fun hkeeps => ?_⟩
  · refine ⟨trustedMemoryUpdate m input, ?_, fun hcites => ?_, fun hcites => ?_, hcommitments,
      fun hkeeps => (toAgentDecision_converted hkeeps K output input).memory⟩
    · have hcases : (m.Cites input ∧ trustedMemory m input = .ok m) ∨
          (¬ m.Cites input ∧ trustedMemory m input = .ok m.commitments) := trustedMemory_eq hvalid
      obtain ⟨hcites, hmemory⟩ | ⟨hcites, hmemory⟩ := hcases
      · rwa [trustedMemoryUpdate_of_cites hvalid hcites]
      · rwa [trustedMemoryUpdate_of_not_cites hvalid hcites]
    · rw [trustedMemoryUpdate_of_cites hvalid hcites]
      exact ⟨rfl, rfl, rfl, rfl, rfl⟩
    · rw [trustedMemoryUpdate_of_not_cites hvalid hcites]
      exact ⟨rfl, rfl⟩
  · have hconverted := toAgentDecision_converted hkeeps K output input
    have hgrounded := hconverted.grounded hvalid
    refine ⟨hgrounded, validateDecision_dropSources hgrounded, fun row facts transition => ?_⟩
    obtain ⟨hstored, hkept⟩ := apply_memory row d facts transition
    refine ⟨fun hsummary => ⟨hstored hsummary, ?_⟩, fun hnone => ?_⟩
    · rw [hconverted.memory]
      exact trustedMemoryUpdate_cites hvalid
    · rw [hkept hnone, hconverted.memory, hcommitments]

/-! ### A summary of a call -/

/-- A turn on one event. -/
def callInput : ScenarioTurnInput Empty where
  events := [⟨"call", []⟩]

lemma reply_waits :
    DecisionStatus.waiting = .waiting → [WakeCondition.event "customer.replied"] ≠ [] :=
  fun _ => List.cons_ne_nil _ _

/-- An output that waits for the customer, with a summary of some events. -/
def waitingOutput (memory : MemoryUpdate) : GeneratedOutput Empty where
  status := .waiting
  actions := []
  wakeConditions := [.event "customer.replied"]
  memoryUpdate := memory
  waitingWakes := reply_waits

/-- The summary of the call and of an event of another turn. -/
def mixedMemory : MemoryUpdate where
  summary := some "the customer called about the letter"
  summarySourceEventIds := ["call", "letter"]
  openCommitments := ["call back"]

/-- A summary that cites an event of another turn too is dropped; the commitment is kept. -/
theorem trusted_memory_all_or_nothing_mixed :
    (trustedMemory mixedMemory callInput = .ok { openCommitments := ["call back"] }) ∧
      ∃ memory, trustedMemory mixedMemory callInput = .ok memory ∧ memory.summary = none := by
  have hvalid : ∃ m, (waitingOutput mixedMemory).memoryUpdate.validated = .ok m :=
    ⟨mixedMemory, by decide +kernel⟩
  obtain ⟨⟨memory, hmemory, -, hdropped, -⟩, -⟩ := trusted_memory_all_or_nothing (V := ℕ)
    orderScript.kernel orderScript.outputType (waitingOutput mixedMemory) callInput hvalid
  have hcites : ¬ mixedMemory.Cites callInput := by
    intro h
    have hletter := h.events "letter" (by decide)
    exact absurd hletter (by decide)
  exact ⟨by decide +kernel, memory, hmemory, (hdropped hcites).1⟩

/-- An output type whose journey has a transformer that writes a summary of its own. -/
def rewritingType : OutputType Empty where
  capabilities := []
  wakeEventTypes := ["customer.replied"]
  decisionTransformer := some fun d _ => { d with memoryUpdate :=
    { summary := some "the customer wrote a letter", summarySourceEventIds := ["letter"] } }

/-- **A transformer may cite what it likes**: the decision it makes of a valid output is refused for
its sources. -/
theorem rewritten_memory_refused :
    (∃ m, (waitingOutput {}).memoryUpdate.validated = .ok m) ∧
      validateDecision (fun _ _ => "")
        ((waitingOutput {}).toAgentDecision orderScript.kernel rewritingType callInput)
        sampleDefinition.decisionPolicy 0 {} [] none true =
      .error "memory summary cites an event outside this turn" := by
  refine ⟨⟨{}, by decide +kernel⟩, ?_⟩
  rfl

end TiramisuAgents
