import TiramisuAgents.Core.Contracts

/-!
`core/transitions.py`: the projection of a validated decision onto the status and the
wake conditions of its process, shared by the persistence layer and the simulations.

* `nextStatus`, `effectiveWakeConditions`, `projectProcessTransition`: the two cascades
  of the source and their pairing.
* `HasProgressPath`: the decisions and open actions from which the projection leaves
  something that can wake the process again; `project_wakes_iff` says that these are
  exactly the projections that are terminal or name a wake.
* `ProjectedProcessTransition.Coherent`: the status and the wake conditions fit together;
  `projection_coherent`.
-/

namespace TiramisuAgents

/-- The actions of a process that are not settled, with their statuses. -/
abbrev OpenActions := List (UUID × ActionRequestStatus)

/-- `ProjectedProcessTransition`. -/
structure ProjectedProcessTransition where
  status : ProcessStatus
  wakeConditions : List WakeCondition
  deriving DecidableEq, Repr

/-- The open action statuses that need a human. -/
def ActionRequestStatus.needsHuman : ActionRequestStatus → Bool
  | .pendingApproval | .unknown | .reconciling => true
  | _ => false

section

variable {V : Type} [BEq V]

/-- The completion requirements the facts do not meet, in key order.  `==` on `V` is
Python's equality of JSON values. -/
def unsatisfiedRequirements (authoritativeFacts completionRequirements : List (String × V)) :
    List String :=
  ((completionRequirements.filter fun r =>
      match authoritativeFacts.lookup r.1 with
      | none => true
      | some v => !(v == r.2)).map Prod.fst).insertionSort (· ≤ ·)

/-- `_next_status`. -/
def nextStatus (decision : AgentDecision) (openActions : OpenActions)
    (terminalStates : Option (List ProcessStatus))
    (authoritativeFacts completionRequirements : List (String × V)) :
    Except String ProcessStatus :=
  if decision.status = .completed ∧ openActions ≠ [] then
    .error "completed decision has unresolved actions"
  else if openActions.any fun a => a.2.needsHuman then
    .ok .review
  else if openActions ≠ [] then
    .ok .active
  else if decision.status = .completed then
    let unsatisfied := unsatisfiedRequirements authoritativeFacts completionRequirements
    if unsatisfied ≠ [] then
      .error ("completion requirements are not satisfied: " ++ ", ".intercalate unsatisfied)
    else if terminalStates.elim false fun states => !states.contains .completed then
      .error "completed is not a configured terminal state"
    else
      .ok .completed
  else if decision.status = .escalated ∨
      decision.wakeConditions.any (fun wake => wake matches .human _) then
    .ok .review
  else if decision.status = .waiting then
    .ok .waiting
  else
    .ok .active

/-- `_effective_wake_conditions`. -/
def effectiveWakeConditions (decision : AgentDecision) (status : ProcessStatus)
    (openActions : OpenActions) : List WakeCondition :=
  if openActions.any fun a => a.2 = .pendingApproval then
    [.human .approval]
  else if openActions.any fun a => a.2 = .unknown ∨ a.2 = .reconciling then
    [.human .operator]
  else if openActions ≠ [] then
    []
  else if status.terminal then
    []
  else if status = .review ∧ decision.wakeConditions = [] then
    [.human .operator]
  else
    decision.wakeConditions

/-- `project_process_transition`. -/
def projectProcessTransition (decision : AgentDecision) (openActions : OpenActions)
    (terminalStates : Option (List ProcessStatus))
    (authoritativeFacts completionRequirements : List (String × V)) :
    Except String ProjectedProcessTransition := do
  let status ← nextStatus decision openActions terminalStates authoritativeFacts
    completionRequirements
  return ⟨status, effectiveWakeConditions decision status openActions⟩

/-! ### Progress -/

/-- A decision leaves a way forward next to the open actions of its process: some open
action waits for a human, or nothing is open and the decision names a wake condition,
escalates or completes. -/
def HasProgressPath (decision : AgentDecision) (openActions : OpenActions) : Prop :=
  (∃ a ∈ openActions, a.2.needsHuman = true) ∨
    (openActions = [] ∧ (decision.wakeConditions ≠ [] ∨ decision.status = .escalated ∨
      decision.status = .completed))

instance (decision : AgentDecision) (openActions : OpenActions) :
    Decidable (HasProgressPath decision openActions) :=
  inferInstanceAs (Decidable (_ ∨ _))

lemma any_needsHuman_iff {openActions : OpenActions} :
    (∃ a ∈ openActions, a.2.needsHuman = true) ↔
      (openActions.any fun a => a.2 = .pendingApproval) = true ∨
        (openActions.any fun a => a.2 = .unknown ∨ a.2 = .reconciling) = true := by
  simp only [List.any_eq_true, decide_eq_true_eq, ← exists_or, ← and_or_left]
  refine exists_congr fun a => and_congr_right fun _ => ?_
  cases a.2 <;> simp [ActionRequestStatus.needsHuman]

lemma project_eq_ok {decision : AgentDecision} {openActions : OpenActions}
    {terminalStates : Option (List ProcessStatus)} {facts requirements : List (String × V)}
    {tr : ProjectedProcessTransition}
    (h : projectProcessTransition decision openActions terminalStates facts requirements
      = .ok tr) :
    nextStatus decision openActions terminalStates facts requirements = .ok tr.status ∧
      tr.wakeConditions = effectiveWakeConditions decision tr.status openActions := by
  rw [projectProcessTransition] at h
  cases hs : nextStatus decision openActions terminalStates facts requirements with
  | error e => rw [hs] at h; cases h
  | ok status =>
      rw [hs] at h
      obtain rfl := Except.ok.inj h
      exact ⟨rfl, rfl⟩

/-- The status of a projection, case by case. -/
lemma nextStatus_cases {decision : AgentDecision} {openActions : OpenActions}
    {terminalStates : Option (List ProcessStatus)} {facts requirements : List (String × V)}
    {status : ProcessStatus}
    (h : nextStatus decision openActions terminalStates facts requirements = .ok status) :
    (openActions ≠ [] ∧ decision.status ≠ .completed ∧
      status = if openActions.any fun a => a.2.needsHuman then .review else .active) ∨
    (openActions = [] ∧ decision.status = .completed ∧ status = .completed ∧
      unsatisfiedRequirements facts requirements = []) ∨
    (openActions = [] ∧ decision.status ≠ .completed ∧ status = .review) ∨
    (openActions = [] ∧ decision.wakeConditions.any (fun wake => wake matches .human _) = false ∧
      (decision.status = .waiting ∧ status = .waiting ∨
        decision.status = .active ∧ status = .active)) := by
  cases openActions with
  | cons a rest =>
      have hne : a :: rest ≠ [] := List.cons_ne_nil a rest
      refine .inl ⟨hne, ?_⟩
      rw [nextStatus] at h
      split_ifs at h with hcompleted hhuman
      · refine ⟨fun hstatus => hcompleted ⟨hstatus, hne⟩, ?_⟩
        rw [if_pos hhuman]
        exact (Except.ok.inj h).symm
      · refine ⟨fun hstatus => hcompleted ⟨hstatus, hne⟩, ?_⟩
        rw [if_neg hhuman]
        exact (Except.ok.inj h).symm
  | nil =>
      refine .inr ?_
      simp only [nextStatus, ne_eq, not_true_eq_false, and_false, if_false, List.any_nil,
        Bool.false_eq_true] at h
      split_ifs at h with hcompleted hunsatisfied hconfigured hhuman hwaiting
      · exact .inl ⟨rfl, hcompleted, (Except.ok.inj h).symm, hunsatisfied⟩
      · exact .inr (.inl ⟨rfl, hcompleted, (Except.ok.inj h).symm⟩)
      · rw [not_or, Bool.not_eq_true] at hhuman
        exact .inr (.inr ⟨rfl, hhuman.2, .inl ⟨hwaiting, (Except.ok.inj h).symm⟩⟩)
      · rw [not_or, Bool.not_eq_true] at hhuman
        refine .inr (.inr ⟨rfl, hhuman.2, .inr ⟨?_, (Except.ok.inj h).symm⟩⟩)
        cases hstatus : decision.status <;> simp_all

/-- A process is completed with nothing open, and with facts that satisfy the requirements. -/
lemma nextStatus_eq_completed {decision : AgentDecision} {openActions : OpenActions}
    {terminalStates : Option (List ProcessStatus)} {facts requirements : List (String × V)}
    (h : nextStatus decision openActions terminalStates facts requirements = .ok .completed) :
    openActions = [] ∧ unsatisfiedRequirements facts requirements = [] := by
  obtain ⟨-, -, hcase⟩ | ⟨hopen, -, -, hsatisfied⟩ | ⟨-, -, hcase⟩ | ⟨-, -, hcase⟩ :=
    nextStatus_cases h
  · split_ifs at hcase
  · exact ⟨hopen, hsatisfied⟩
  · cases hcase
  · obtain ⟨-, hcase⟩ | ⟨-, hcase⟩ := hcase <;> cases hcase

/-- With nothing open, the projection is terminal or names a wake exactly when the
decision itself names a wake condition, escalates or completes. -/
lemma nextStatus_nil {decision : AgentDecision} {terminalStates : Option (List ProcessStatus)}
    {facts requirements : List (String × V)} {status : ProcessStatus}
    (h : nextStatus decision [] terminalStates facts requirements = .ok status) :
    status.terminal = true ∨ effectiveWakeConditions decision status [] ≠ [] ↔
      decision.wakeConditions ≠ [] ∨ decision.status = .escalated ∨
        decision.status = .completed := by
  simp only [nextStatus, ne_eq, not_true_eq_false, and_false, if_false, List.any_nil,
    Bool.false_eq_true] at h
  by_cases hc : decision.status = .completed
  · rw [if_pos hc] at h
    split at h
    · cases h
    · split at h
      · cases h
      · obtain rfl := Except.ok.inj h
        simp [ProcessStatus.terminal, hc]
  · rw [if_neg hc] at h
    by_cases he : decision.status = .escalated ∨
        decision.wakeConditions.any (fun wake => wake matches .human _) = true
    · rw [if_pos he] at h
      obtain rfl := Except.ok.inj h
      by_cases hw : decision.wakeConditions = []
      · simp only [hw, List.any_nil, Bool.false_eq_true, or_false] at he
        simp [effectiveWakeConditions, ProcessStatus.terminal, hw, he]
      · simp [effectiveWakeConditions, ProcessStatus.terminal, hw]
    · rw [if_neg he] at h
      rw [not_or] at he
      split at h <;> obtain rfl := Except.ok.inj h <;>
        simp [effectiveWakeConditions, ProcessStatus.terminal, hc, he.1]

/-- The projection of a decision is terminal or names a wake condition exactly when the
decision has a way forward next to the open actions. -/
theorem project_wakes_iff {decision : AgentDecision} {openActions : OpenActions}
    {terminalStates : Option (List ProcessStatus)} {facts requirements : List (String × V)}
    {tr : ProjectedProcessTransition}
    (h : projectProcessTransition decision openActions terminalStates facts requirements
      = .ok tr) :
    tr.status.terminal = true ∨ tr.wakeConditions ≠ [] ↔
      HasProgressPath decision openActions := by
  obtain ⟨hstatus, hwakes⟩ := project_eq_ok h
  rw [hwakes, HasProgressPath]
  cases openActions with
  | nil => simpa using nextStatus_nil hstatus
  | cons a rest =>
      rw [any_needsHuman_iff, effectiveWakeConditions]
      by_cases hp : ((a :: rest).any fun a => a.2 = .pendingApproval) = true
      · rw [if_pos hp]
        exact iff_of_true (.inr (by simp)) (.inl (.inl hp))
      by_cases hu : ((a :: rest).any fun a => a.2 = .unknown ∨ a.2 = .reconciling) = true
      · rw [if_neg hp, if_pos hu]
        exact iff_of_true (.inr (by simp)) (.inl (.inr hu))
      -- only automatic work is open: the process is active and names no wake
      have hn : ((a :: rest).any fun a => a.2.needsHuman) ≠ true := by
        intro hn
        rw [List.any_eq_true, any_needsHuman_iff] at hn
        exact hn.elim hp hu
      rw [nextStatus, if_neg hn] at hstatus
      split at hstatus
      · cases hstatus
      · rw [if_pos (by simp)] at hstatus
        rw [← Except.ok.inj hstatus, if_neg hp, if_neg hu, if_pos (by simp)]
        exact iff_of_false (by simp [ProcessStatus.terminal]) (by simp only [hp, hu]; simp)

/-! ### Coherence -/

/-- The requirements that the facts do not meet are none when each of them has an equal fact. -/
lemma unsatisfiedRequirements_eq_nil {facts requirements : List (String × V)} :
    unsatisfiedRequirements facts requirements = [] ↔
      ∀ r ∈ requirements, ∃ v, facts.lookup r.1 = some v ∧ (v == r.2) = true := by
  rw [unsatisfiedRequirements, ← List.length_eq_zero_iff, List.length_insertionSort,
    List.length_map, List.length_eq_zero_iff, List.filter_eq_nil_iff]
  refine forall₂_congr fun r _ => ?_
  cases facts.lookup r.1 <;> simp

/-- The pair of a status and wake conditions fits the decision and the open actions. -/
structure ProjectedProcessTransition.Coherent (tr : ProjectedProcessTransition)
    (decision : AgentDecision) (openActions : OpenActions)
    (facts requirements : List (String × V)) :
    Prop where
  completed : tr.status = .completed ↔ decision.status = .completed
  finished : tr.status = .completed → openActions = [] ∧ tr.wakeConditions = [] ∧
    ∀ r ∈ requirements, ∃ v, facts.lookup r.1 = some v ∧ (v == r.2) = true
  approval : (∃ a ∈ openActions, a.2 = .pendingApproval) → tr = ⟨.review, [.human .approval]⟩
  ambiguous : (∀ a ∈ openActions, a.2 ≠ .pendingApproval) →
    (∃ a ∈ openActions, a.2 = .unknown ∨ a.2 = .reconciling) → tr = ⟨.review, [.human .operator]⟩
  running : openActions ≠ [] → (∀ a ∈ openActions, a.2.needsHuman = false) → tr = ⟨.active, []⟩
  waiting : tr.status = .waiting → openActions = [] ∧ tr.wakeConditions ≠ [] ∧
    ∀ interaction, .human interaction ∉ tr.wakeConditions
  review : tr.status = .review → tr.wakeConditions ≠ []
  kept : openActions = [] → tr.status ≠ .completed →
    (tr.status = .review → decision.wakeConditions ≠ []) →
    tr.wakeConditions = decision.wakeConditions

lemma any_pendingApproval {openActions : OpenActions} :
    (openActions.any fun a => a.2 = .pendingApproval) = true ↔
      ∃ a ∈ openActions, a.2 = .pendingApproval := by
  simp only [List.any_eq_true, decide_eq_true_eq]

lemma any_ambiguous {openActions : OpenActions} :
    (openActions.any fun a => a.2 = .unknown ∨ a.2 = .reconciling) = true ↔
      ∃ a ∈ openActions, a.2 = .unknown ∨ a.2 = .reconciling := by
  simp only [List.any_eq_true, decide_eq_true_eq]

lemma any_needsHuman_eq_false {openActions : OpenActions} :
    (openActions.any fun a => a.2.needsHuman) = false ↔
      ∀ a ∈ openActions, a.2.needsHuman = false := by
  simp only [List.any_eq_false, Bool.not_eq_true]

/-- The wake conditions next to open actions. -/
lemma effectiveWakeConditions_open {decision : AgentDecision} {status : ProcessStatus}
    {openActions : OpenActions} (hopen : openActions ≠ []) :
    effectiveWakeConditions decision status openActions =
      if openActions.any fun a => a.2 = .pendingApproval then [.human .approval]
      else if openActions.any fun a => a.2 = .unknown ∨ a.2 = .reconciling then [.human .operator]
      else [] := by
  rw [effectiveWakeConditions, if_pos hopen]

/-- The wake conditions with nothing open. -/
lemma effectiveWakeConditions_nil {decision : AgentDecision} {status : ProcessStatus} :
    effectiveWakeConditions decision status [] =
      if status.terminal then []
      else if status = .review ∧ decision.wakeConditions = [] then [.human .operator]
      else decision.wakeConditions := by
  simp [effectiveWakeConditions]

/-- Next to open actions the status and the wake conditions say the same. -/
lemma coherent_open {decision : AgentDecision} {openActions : OpenActions}
    {facts requirements : List (String × V)} {tr : ProjectedProcessTransition}
    (hopen : openActions ≠ []) (hdecision : decision.status ≠ .completed)
    (hstatus : tr.status = if openActions.any fun a => a.2.needsHuman then .review else .active)
    (hwakes : tr.wakeConditions = effectiveWakeConditions decision tr.status openActions) :
    tr.Coherent decision openActions facts requirements := by
  rw [effectiveWakeConditions_open hopen] at hwakes
  obtain ⟨status, wakes⟩ := tr
  dsimp only at hstatus hwakes
  by_cases hhuman : (openActions.any fun a => a.2.needsHuman) = true
  · rw [if_pos hhuman] at hstatus
    have hwhich := any_needsHuman_iff.mp (List.any_eq_true.mp hhuman)
    subst hstatus
    refine ⟨by simp [hdecision], by simp, fun hpending => ?_, fun hnone hambiguous => ?_,
      fun _ hnone => ?_, by simp, fun _ => ?_, fun hnil => absurd hnil hopen⟩
    · rw [if_pos (any_pendingApproval.mpr hpending)] at hwakes
      rw [hwakes]
    · have hother : ¬ ∃ a ∈ openActions, a.2 = .pendingApproval :=
        fun ⟨a, ha, hpending⟩ => hnone a ha hpending
      rw [if_neg (any_pendingApproval.not.mpr hother),
        if_pos (any_ambiguous.mpr hambiguous)] at hwakes
      rw [hwakes]
    · rw [any_needsHuman_eq_false.mpr hnone] at hhuman
      cases hhuman
    · dsimp only
      rw [hwakes]
      split_ifs with hpending hambiguous
      · simp
      · simp
      · exact absurd hwhich (not_or.mpr ⟨hpending, hambiguous⟩)
  · rw [Bool.not_eq_true] at hhuman
    rw [hhuman, if_neg (by simp)] at hstatus
    have hnone := any_needsHuman_eq_false.mp hhuman
    have calm {status : ActionRequestStatus} (hneeds : status.needsHuman = true) :
        ∀ a ∈ openActions, a.2 ≠ status := by
      rintro a ha rfl
      rw [hnone a ha] at hneeds
      cases hneeds
    have hpending : ¬ ∃ a ∈ openActions, a.2 = .pendingApproval :=
      fun ⟨a, ha, heq⟩ => calm rfl a ha heq
    have hambiguous : ¬ ∃ a ∈ openActions, a.2 = .unknown ∨ a.2 = .reconciling :=
      fun ⟨a, ha, heq⟩ => heq.elim (calm rfl a ha) (calm rfl a ha)
    rw [if_neg (any_pendingApproval.not.mpr hpending),
      if_neg (any_ambiguous.not.mpr hambiguous)] at hwakes
    subst hstatus hwakes
    exact ⟨by simp [hdecision], by simp, fun h => absurd h hpending,
      fun _ h => absurd h hambiguous, fun _ _ => rfl, by simp, by simp,
      fun hnil => absurd hnil hopen⟩

/-- **The status and the wake conditions of a projection fit together.** -/
theorem projection_coherent {decision : AgentDecision} {openActions : OpenActions}
    {terminalStates : Option (List ProcessStatus)} {facts requirements : List (String × V)}
    {tr : ProjectedProcessTransition}
    (h : projectProcessTransition decision openActions terminalStates facts requirements
      = .ok tr) : tr.Coherent decision openActions facts requirements := by
  obtain ⟨hstatus, hwakes⟩ := project_eq_ok h
  obtain ⟨hopen, hdecision, hcase⟩ | ⟨rfl, hdecision, hcase, hsatisfied⟩ |
    ⟨rfl, hdecision, hcase⟩ | ⟨rfl, hhuman, hcase⟩ := nextStatus_cases hstatus
  · exact coherent_open hopen hdecision hcase hwakes
  · rw [effectiveWakeConditions_nil, hcase] at hwakes
    have hnone : tr.wakeConditions = [] := hwakes
    exact ⟨by simp [hcase, hdecision],
      fun _ => ⟨rfl, hnone, unsatisfiedRequirements_eq_nil.mp hsatisfied⟩, by simp, by simp,
      by simp, by simp [hcase], by simp [hcase], fun _ hne => absurd hcase hne⟩
  · rw [effectiveWakeConditions_nil, hcase] at hwakes
    have hone : tr.wakeConditions ≠ [] := by
      rw [hwakes]
      by_cases hnil : decision.wakeConditions = [] <;> simp [ProcessStatus.terminal, hnil]
    refine ⟨by simp [hcase, hdecision], by simp [hcase], by simp, by simp, by simp,
      by simp [hcase], fun _ => hone, fun _ _ hnames => ?_⟩
    rw [hwakes]
    simp [ProcessStatus.terminal, hnames hcase]
  · have hkept : tr.wakeConditions = decision.wakeConditions := by
      rw [hwakes, effectiveWakeConditions_nil]
      obtain ⟨-, hcase⟩ | ⟨-, hcase⟩ := hcase <;> simp [hcase, ProcessStatus.terminal]
    have hnohuman : ∀ interaction, .human interaction ∉ tr.wakeConditions := by
      intro interaction hmem
      rw [hkept] at hmem
      have := List.any_eq_false.mp hhuman _ hmem
      simp at this
    obtain ⟨hdecision, hcase⟩ | ⟨hdecision, hcase⟩ := hcase
    · exact ⟨by simp [hcase, hdecision], by simp [hcase], by simp, by simp, by simp,
        fun _ => ⟨rfl, hkept ▸ decision.waitingWakes hdecision, hnohuman⟩, by simp [hcase],
        fun _ _ _ => hkept⟩
    · exact ⟨by simp [hcase, hdecision], by simp [hcase], by simp, by simp, by simp,
        by simp [hcase], by simp [hcase], fun _ _ _ => hkept⟩

end

/-- A decision to go on, next to an action that waits for its approval. -/
theorem projection_coherent_approval :
    projectProcessTransition (V := ℕ) { decisionId := "d", basedOnEventIds := [], status := .active }
        [("a", .pendingApproval)] none [] [] = .ok ⟨.review, [.human .approval]⟩ ∧
      (⟨.review, [.human .approval]⟩ : ProjectedProcessTransition).Coherent (V := ℕ)
        { decisionId := "d", basedOnEventIds := [], status := .active } [("a", .pendingApproval)]
        [] [] :=
  ⟨rfl, @projection_coherent ℕ _ _ _ none _ _ _ rfl⟩

end TiramisuAgents
