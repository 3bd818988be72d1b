import TiramisuAgents.Actions.Gateway

/-!
`persist_decision` called twice for the same decision.

The rows of the first call fix what each action supersedes.  The second call looks for it anew,
and takes the revision targets in the order in which the database returns them, which is not
fixed: it finds the same if and only if no proposed action has two targets of its type.

* `superseded`: what a persisted action supersedes.
* `replay_iff`: the second call adds nothing and returns the same identities, on this
  condition.
-/

namespace TiramisuAgents.ActionGateway

/-- What a persisted action supersedes. -/
def superseded (tables : ActionTables) (p : PersistedAction) : Option UUID :=
  (tables.request p.actionRequestId).bind ActionEntry.supersedesActionRequestId

section

variable {G : Encoding} {world : Surroundings} {call : PersistCall} {tables tables' : ActionTables}
  {targets targets' : List (UUID × String)} {used : List UUID} {actions : List ActionProposal}
  {ps : List PersistedAction}

/-- The rows name what each action supersedes. -/
lemma Recorded.map_superseded {turn : UUID} {xs : List (ActionProposal × Option UUID)}
    (h : Recorded G turn tables xs ps) : ps.map (superseded tables) = xs.map Prod.snd := by
  induction h with
  | nil => rfl
  | cons hfirst _ ih =>
      obtain ⟨-, e, he, hs⟩ := hfirst
      have hrequest : tables.request e.id = some e :=
        tables.constraints.ids.lookup_eq_some.mpr ⟨he, rfl⟩
      rw [List.map_cons, List.map_cons, ih, superseded, hs.actionRequestId, hrequest,
        Option.bind_some, hs.supersedes]

lemma lineage_snd (targets : List (UUID × String)) (used : List UUID)
    (actions : List ActionProposal) : (lineage targets used actions).map Prod.snd
      = Matching.assign targets used (actions.map ActionProposal.actionType) := by
  rw [lineage, List.map_snd_zip]
  simp [Matching.length_assign]

/-- A lineage is what the greedy choice makes of the targets. -/
lemma lineage_eq_iff : lineage targets used actions = lineage targets' used actions ↔
    Matching.assign targets used (actions.map ActionProposal.actionType)
      = Matching.assign targets' used (actions.map ActionProposal.actionType) := by
  refine ⟨fun h => ?_, fun h => by rw [lineage, lineage, h]⟩
  rw [← lineage_snd, ← lineage_snd, h]

/-- A call that returns has been let in, and has run its loop. -/
lemma persistDecision_ok
    (h : persistDecision G world call targets tables = .ok (tables', ps)) :
    requireOpen world tables.process = .ok () ∧
      persistActions G world call targets
        (tables.conflictedPayloadHashes G call.decision.basedOnActionAttemptIds) []
        call.decision.actions tables = .ok (tables', ps) := by
  rw [persistDecision] at h
  obtain ⟨_, hopen, h⟩ := ok_of_bind h
  exact ⟨hopen, h⟩

/-- A second call finds the rows of the first, and adds nothing, if it finds the same lineage. -/
lemma persistDecision_of_recorded (hopen : requireOpen world tables.process = .ok ())
    (h : Recorded G call.agentTurnId tables (lineage targets [] call.decision.actions) ps) :
    ∃ ps', persistDecision G world call targets tables = .ok (tables, ps') ∧
      ps'.map PersistedAction.identity = ps.map PersistedAction.identity := by
  obtain ⟨ps', hps', hid⟩ := persistActions_of_recorded world
    (tables.conflictedPayloadHashes G call.decision.basedOnActionAttemptIds) h
  refine ⟨ps', ?_, hid⟩
  rw [persistDecision, hopen]
  exact hps'

/-- A target is a request whose thread has been asked for a revision. -/
lemma ActionTables.mem_revisionTargets {cited : List UUID} {x : UUID} {k : String}
    (h : (x, k) ∈ tables.revisionTargets cited) :
    ∃ e ∈ tables.entries, e.id = x ∧ e.actionType = k ∧ ∃ m ∈ tables.messages, m.id ∈ cited ∧
      m.messageType = .requestRevision ∧ e.threadId = some m.reviewThreadId := by
  obtain ⟨m, hm, hx⟩ := List.mem_filterMap.mp h
  obtain ⟨hmem, hcited⟩ := List.mem_filter.mp hm
  obtain ⟨hid, hrevision⟩ := of_decide_eq_true hcited
  obtain ⟨e, he, heq⟩ := Option.map_eq_some_iff.mp hx
  obtain ⟨rfl, rfl⟩ := Prod.mk.inj heq
  obtain ⟨he', hthread⟩ := ActionTables.reviewed_eq_some.mp he
  exact ⟨e, he', rfl, rfl, m, hmem, hid, hrevision, hthread⟩

end

/-- **A decision that is persisted twice.**  In one call, each action supersedes at most one
action, of its own type, that has been asked for a revision, and no two supersede the same.  A
second call, with the rows in any order, adds no row and returns the same identities, hashes,
outcomes, approvals and threads, if and only if no proposed action has two different revision
targets of its type. -/
theorem replay_iff (G : Encoding) (world : Surroundings) (call : PersistCall)
    (tables tables₁ : ActionTables) (targets : List (UUID × String))
    (persisted : List PersistedAction)
    (horder : targets.Perm (tables.revisionTargets call.decision.basedOnReviewCommandIds))
    (hfirst : persistDecision G world call targets tables = .ok (tables₁, persisted)) :
    ((persisted.map (superseded tables₁)).reduceOption.Nodup ∧
      ∀ action p, (action, p) ∈ call.decision.actions.zip persisted →
        ∀ x, superseded tables₁ p = some x → ∃ old ∈ tables.entries, old.id = x ∧
          old.actionType = action.actionType ∧ ∃ m ∈ tables.messages,
            m.id ∈ call.decision.basedOnReviewCommandIds ∧ m.messageType = .requestRevision ∧
            old.threadId = some m.reviewThreadId) ∧
    ((∀ tables₂ world₂ policy₂ targets₂,
        Later call.decision.basedOnReviewCommandIds tables₁ tables₂ →
        requireOpen world₂ tables₂.process = .ok () →
        targets₂.Perm (tables₂.revisionTargets call.decision.basedOnReviewCommandIds) →
        ∃ again, persistDecision G world₂ { call with policy := policy₂ } targets₂ tables₂
            = .ok (tables₂, again) ∧
          again.map PersistedAction.identity = persisted.map PersistedAction.identity) ↔
      ∀ action ∈ call.decision.actions,
        Matching.Single (tables.revisionTargets call.decision.basedOnReviewCommandIds)
          action.actionType) := by
  obtain ⟨hopen, hloop⟩ := persistDecision_ok hfirst
  obtain ⟨hrecorded, hlater, hprocess⟩ :=
    persistActions_ok call.decision.basedOnReviewCommandIds hloop
  have hsuperseded := hrecorded.map_superseded
  rw [lineage_snd] at hsuperseded
  refine ⟨⟨?_, ?_⟩, ?_, ?_⟩
  · rw [hsuperseded]
    exact Matching.assign_nodup
  · intro action p hp x hx
    have hpair : (action.actionType, some x) ∈
        (call.decision.actions.map ActionProposal.actionType).zip
          (Matching.assign targets [] (call.decision.actions.map ActionProposal.actionType)) := by
      rw [← hsuperseded, List.zip_map, ← hx]
      exact List.mem_map.mpr ⟨(action, p), hp, rfl⟩
    exact ActionTables.mem_revisionTargets (horder.subset (Matching.assign_mem hpair))
  · -- the second call finds the lineage of the first, whatever the order of the rows
    intro hreplay
    have hsame (targets₂ : List (UUID × String))
        (h : targets₂.Perm (tables.revisionTargets call.decision.basedOnReviewCommandIds)) :
        Matching.assign targets₂ [] (call.decision.actions.map ActionProposal.actionType)
          = Matching.assign targets [] (call.decision.actions.map ActionProposal.actionType) := by
      obtain ⟨again, hagain, -⟩ := hreplay tables₁ world call.policy targets₂ (.refl _)
        (by rw [hprocess]; exact hopen) (h.trans hlater.revisionTargets_perm.symm)
      obtain ⟨-, hloop'⟩ := persistDecision_ok hagain
      obtain ⟨hrecorded', -, -⟩ := persistActions_ok [] hloop'
      exact lineage_eq_iff.mp (hrecorded'.lineage_eq hrecorded)
    intro action haction
    exact Matching.single_of_assign_eq
      (fun x k k' h h' => ActionTables.revisionTargets_eq h h') hsame
      (List.mem_map_of_mem haction)
  · intro hsingle tables₂ world₂ policy₂ targets₂ hlater₂ hopen₂ horder₂
    have hperm : targets₂.Perm
        (tables.revisionTargets call.decision.basedOnReviewCommandIds) :=
      horder₂.trans (hlater.trans hlater₂).revisionTargets_perm
    have hsame : Matching.assign targets₂ [] (call.decision.actions.map ActionProposal.actionType)
        = Matching.assign targets [] (call.decision.actions.map ActionProposal.actionType) := by
      refine Matching.assign_eq_of_single (fun k hk => ?_)
        fun r => (hperm.trans horder.symm).mem_iff
      obtain ⟨action, haction, rfl⟩ := List.mem_map.mp hk
      intro x y hx hy
      exact hsingle action haction x y (hperm.subset hx) (hperm.subset hy)
    have hrecorded₂ := hrecorded.later hlater₂
    rw [lineage_eq_iff.mpr hsame.symm] at hrecorded₂
    exact persistDecision_of_recorded hopen₂ hrecorded₂

/-! ### A decision with two revision targets -/

/-- Two refunds that wait for a revision. -/
def refunds : List ActionEntry :=
  [{ id := "a", agentTurnId := "turn 1", logicalActionKey := "first", actionType := "refund",
     processDefinitionVersion := "1", status := .superseded,
     approval := some { id := "a?", payloadHash := "", status := .superseded },
     thread := some { id := "review a", status := .revisionRequested } },
   { id := "b", agentTurnId := "turn 1", logicalActionKey := "second", actionType := "refund",
     processDefinitionVersion := "1", status := .superseded,
     approval := some { id := "b?", payloadHash := "", status := .superseded },
     thread := some { id := "review b", status := .revisionRequested } }]

def revisionRequests : List MessageEntry :=
  [{ id := "revise a", reviewThreadId := "review a", messageType := .requestRevision },
   { id := "revise b", reviewThreadId := "review b", messageType := .requestRevision }]

lemma refunds_constraints : Constraints refunds [] revisionRequests := by decide

def refundTables : ActionTables :=
  ⟨some .waiting, refunds, [], revisionRequests, refunds_constraints⟩

/-- An identity of actions that is their text. -/
def plainEncoding : Encoding where
  actionPayloadIdentity actionType parameters := actionType ++ parameters.text
  requireActionParameters _ := .ok ()
  jsonb := id

def quietSurroundings : Surroundings where
  newApprovalId id := id ++ "?"
  newThreadId id := "review " ++ id

/-- A revised refund, by a turn that some review commands have woken. -/
def revisedRefund (reviewCommandIds : List UUID) : PersistCall where
  agentTurnId := "turn 2"
  processDefinitionVersion := "1"
  decision :=
    { decisionId := "d"
      basedOnEventIds := []
      basedOnReviewCommandIds := reviewCommandIds
      status := .active
      actions := [{ actionRequestId := "c", logicalActionKey := "revised", actionType := "refund",
                    parameters := ⟨"\x7b\x7d", 0⟩, rationale := "as asked" }]
      waitingWakes := nofun }
  policy := { permissions := [("refund", .requireApproval)], version := "1" }

/-- With one of the two cited, a second call finds what the first has left. -/
theorem replay_iff_one_target : ∃ tables₁ persisted,
    persistDecision plainEncoding quietSurroundings (revisedRefund ["revise a"])
        [("a", "refund")] refundTables = .ok (tables₁, persisted) ∧
      ∀ tables₂ world₂ policy₂ targets₂, Later ["revise a"] tables₁ tables₂ →
        requireOpen world₂ tables₂.process = .ok () →
        targets₂.Perm (tables₂.revisionTargets ["revise a"]) →
        ∃ again, persistDecision plainEncoding world₂
            { revisedRefund ["revise a"] with policy := policy₂ } targets₂ tables₂
            = .ok (tables₂, again) ∧
          again.map PersistedAction.identity = persisted.map PersistedAction.identity := by
  refine ⟨_, _, rfl, (replay_iff plainEncoding quietSurroundings (revisedRefund ["revise a"])
    refundTables _ [("a", "refund")] _ (by decide) rfl).2.mpr fun action haction x y hx hy => ?_⟩
  have hrow : refundTables.revisionTargets ["revise a"] = [("a", "refund")] := by decide
  replace hx : (x, action.actionType) ∈ refundTables.revisionTargets ["revise a"] := hx
  replace hy : (y, action.actionType) ∈ refundTables.revisionTargets ["revise a"] := hy
  rw [hrow, List.mem_singleton] at hx hy
  exact (Prod.mk.inj hx).1.trans (Prod.mk.inj hy).1.symm

/-- The rows come in another order in the second call: it is refused. -/
theorem replay_in_another_order : ∃ tables₁ persisted,
    persistDecision plainEncoding quietSurroundings (revisedRefund ["revise a", "revise b"])
        [("a", "refund"), ("b", "refund")] refundTables = .ok (tables₁, persisted) ∧
      [("b", "refund"), ("a", "refund")].Perm
        (tables₁.revisionTargets ["revise a", "revise b"]) ∧
      requireOpen quietSurroundings tables₁.process = .ok () ∧
      persistDecision plainEncoding quietSurroundings (revisedRefund ["revise a", "revise b"])
          [("b", "refund"), ("a", "refund")] tables₁
        = .error "action revision lineage changed during replay" := by
  refine ⟨_, _, rfl, ?_, rfl, rfl⟩
  decide

end TiramisuAgents.ActionGateway
