import Mathlib.Data.List.ReduceOption
import TiramisuAgents.Communications.Policy

/-!
Which blocks an evaluation of `communications/policy.py` reports, and for which evidence.

* `CommunicationBlockCode.Applies`, `reports_iff`: the condition of each block.
* `CommunicationSafetyFacts.SameTimes`, `SameTimes.evaluate_eq`: the order of the times does not
  matter.
* `CommunicationSafetyFacts.MoreEvidence`: more messages, an opt-out, an automated response, an
  earlier reply or none.  `MoreEvidence.applies`: it keeps every block.
* `evidence_monotone`: both.
-/

namespace TiramisuAgents

/-! ### The conditions of the blocks -/

/-- The evaluation reports a block of a code. -/
def CommunicationSafetySnapshot.Reports (s : CommunicationSafetySnapshot)
    (code : CommunicationBlockCode) : Prop :=
  ∃ block ∈ s.blocks, block.code = code

instance (s : CommunicationSafetySnapshot) : DecidablePred s.Reports :=
  fun code => inferInstanceAs (Decidable (∃ block ∈ s.blocks, block.code = code))

namespace CommunicationSafetyFacts

variable (facts : CommunicationSafetyFacts)

/-- The times from which the follow-up interval is measured. -/
def priorTimes : List Time := facts.priorOutboundMessageTimes.getD facts.outboundMessageTimes

/-- The message that is about to be sent, where it is not yet among the outbound times. -/
def reservation : ℕ := if facts.reserveNextMessage then 1 else 0

/-- The outbound times in the window that ends at an instant. -/
def inWindow (policy : CommunicationPolicy) (now : Time) : List Time :=
  facts.outboundMessageTimes.filter fun value => now - policy.outboundMessageWindow < value

/-- The outbound times since the last human reply. -/
def followUps : List Time := facts.outboundMessageTimes.filter (sinceReply facts.lastHumanReplyAt)

end CommunicationSafetyFacts

/-- The condition under which a block is reported. -/
def CommunicationBlockCode.Applies (policy : CommunicationPolicy) (facts : CommunicationSafetyFacts)
    (now : Time) : CommunicationBlockCode → Prop
  | .processExpired => facts.processCreatedAt + policy.maximumProcessLifetime ≤ now
  | .optedOut => facts.optedOutAt.isSome
  | .automatedResponseLoop => facts.latestAutomatedResponseAt.isSome
  | .quietHours => (policy.quietHoursEnd now).isSome
  | .processMessageLimit =>
      policy.maxOutboundMessagesPerProcess < facts.outboundMessageTimes.length + facts.reservation
  | .rateLimit =>
      policy.maxOutboundMessagesPerWindow < (facts.inWindow policy now).length + facts.reservation
  | .followUpLimit =>
      policy.maxFollowUpsWithoutReply < facts.followUps.length + facts.reservation
  | .minimumInterval =>
      ∃ t ∈ facts.priorTimes, sinceReply facts.lastHumanReplyAt t ∧
        now < t + policy.minimumFollowUpInterval

section

variable {isoformat : Time → String} {policy : CommunicationPolicy}
  {facts facts' : CommunicationSafetyFacts} {now : Time} {code : CommunicationBlockCode}

lemma exists_mem_reduceOption (l : List (Option CommunicationBlock)) :
    (∃ block ∈ l.reduceOption, block.code = code) ↔
      ∃ x ∈ l, x.map CommunicationBlock.code = some code := by
  constructor
  · rintro ⟨block, hmem, rfl⟩
    exact ⟨some block, List.reduceOption_mem_iff.mp hmem, rfl⟩
  · rintro ⟨x, hmem, hx⟩
    obtain ⟨block, rfl, rfl⟩ := Option.map_eq_some_iff.mp hx
    exact ⟨block, List.reduceOption_mem_iff.mpr hmem, rfl⟩

lemma blockIf_code {c : Prop} [Decidable c] {block : CommunicationBlock} :
    (blockIf c block).map CommunicationBlock.code = some code ↔ c ∧ block.code = code := by
  rw [blockIf]
  split_ifs with hc
  · simp [hc]
  · simp [hc]

lemma lifetime_code :
    (evaluateProcessLifetime isoformat facts.processCreatedAt policy now).map
        CommunicationBlock.code = some code ↔
      facts.processCreatedAt + policy.maximumProcessLifetime ≤ now ∧
        .processExpired = code := by
  rw [evaluateProcessLifetime]
  split_ifs with hlives
  · simp [hlives]
  · simp [not_lt.mp hlives]

/-- A message too close to an instant is one that the latest message shows. -/
lemma max?_too_close {times : List Time} {interval : Time} :
    (∃ t ∈ times.max?, now < t + interval) ↔ ∃ t ∈ times, now < t + interval := by
  constructor
  · rintro ⟨t, hmax, hclose⟩
    exact ⟨t, (List.max?_eq_some_iff.mp hmax).1, hclose⟩
  · rintro ⟨t, hmem, hclose⟩
    obtain ⟨m, hm⟩ := Option.isSome_iff_exists.mp (List.isSome_max?_of_mem hmem)
    have hle : t ≤ m := (List.max?_eq_some_iff.mp hm).2 t hmem
    exact ⟨m, hm, hclose.trans_le (add_le_add_left hle _)⟩

lemma interval_code {times : List Time} {message : Time → String} :
    (times.max?.bind fun t => blockIf (now < t + policy.minimumFollowUpInterval)
        { code := .minimumInterval
          message := message t
          nextAllowedAt := some (t + policy.minimumFollowUpInterval) }).map
        CommunicationBlock.code = some code ↔
      (∃ t ∈ times, now < t + policy.minimumFollowUpInterval) ∧ .minimumInterval = code := by
  rw [← max?_too_close]
  cases times.max? with
  | none => simp
  | some t => rw [Option.bind_some, blockIf_code]; simp

/-- A block is reported under its condition, and only then. -/
lemma reports_iff :
    (evaluateCommunicationSafety isoformat policy facts now).Reports code ↔
      code.Applies policy facts now := by
  rw [CommunicationSafetySnapshot.Reports, evaluateCommunicationSafety]
  dsimp only
  rw [exists_mem_reduceOption]
  simp only [List.exists_mem_cons_iff, List.not_mem_nil, false_and, exists_false, or_false,
    lifetime_code, blockIf_code, interval_code, Option.map_map, gt_iff_lt]
  cases code with
  | processExpired => simp [CommunicationBlockCode.Applies]
  | optedOut => simp [CommunicationBlockCode.Applies, Option.isSome_iff_exists]
  | automatedResponseLoop => simp [CommunicationBlockCode.Applies, Option.isSome_iff_exists]
  | quietHours => simp [CommunicationBlockCode.Applies, Option.isSome_iff_exists]
  | processMessageLimit =>
      simp [CommunicationBlockCode.Applies, CommunicationSafetyFacts.reservation]
  | rateLimit =>
      simp [CommunicationBlockCode.Applies, CommunicationSafetyFacts.reservation,
        CommunicationSafetyFacts.inWindow]
  | followUpLimit =>
      simp [CommunicationBlockCode.Applies, CommunicationSafetyFacts.reservation,
        CommunicationSafetyFacts.followUps]
  | minimumInterval =>
      simp [CommunicationBlockCode.Applies, CommunicationSafetyFacts.priorTimes, and_assoc]

/-- A send is forbidden iff some block is reported. -/
lemma requireAllowed_eq_none_iff :
    (evaluateCommunicationSafety isoformat policy facts now).requireAllowed = none ↔
      ∀ code, ¬ (evaluateCommunicationSafety isoformat policy facts now).Reports code := by
  rw [CommunicationSafetySnapshot.requireAllowed, List.head?_eq_none_iff]
  constructor
  · rintro hnil code ⟨block, hmem, -⟩
    rw [hnil] at hmem
    exact List.not_mem_nil hmem
  · intro h
    rw [List.eq_nil_iff_forall_not_mem]
    exact fun block hmem => h block.code ⟨block, hmem, rfl⟩

/-! ### The order of the times -/

/-- The same facts, with the times in another order. -/
structure CommunicationSafetyFacts.SameTimes (facts facts' : CommunicationSafetyFacts) : Prop where
  outbound : facts.outboundMessageTimes.Perm facts'.outboundMessageTimes
  prior : Option.Rel List.Perm facts.priorOutboundMessageTimes facts'.priorOutboundMessageTimes
  others : facts' = { facts with
    outboundMessageTimes := facts'.outboundMessageTimes
    priorOutboundMessageTimes := facts'.priorOutboundMessageTimes }

lemma max?_perm {l l' : List Time} (h : l.Perm l') : l.max? = l'.max? := by
  ext t
  rw [List.max?_eq_some_iff, List.max?_eq_some_iff, h.mem_iff]
  exact and_congr_right fun _ => forall_congr' fun b => by rw [h.mem_iff]

lemma min?_perm {l l' : List Time} (h : l.Perm l') : l.min? = l'.min? := by
  ext t
  rw [List.min?_eq_some_iff, List.min?_eq_some_iff, h.mem_iff]
  exact and_congr_right fun _ => forall_congr' fun b => by rw [h.mem_iff]

namespace CommunicationSafetyFacts

lemma SameTimes.priorTimes (h : facts.SameTimes facts') :
    facts.priorTimes.Perm facts'.priorTimes := by
  have hprior := h.prior
  rw [CommunicationSafetyFacts.priorTimes, CommunicationSafetyFacts.priorTimes]
  cases hf : facts.priorOutboundMessageTimes with
  | none =>
      cases hf' : facts'.priorOutboundMessageTimes with
      | none => exact h.outbound
      | some l' => rw [hf, hf'] at hprior; nomatch hprior
  | some l =>
      cases hf' : facts'.priorOutboundMessageTimes with
      | none => rw [hf, hf'] at hprior; nomatch hprior
      | some l' =>
          rw [hf, hf'] at hprior
          cases hprior with
          | some hperm => exact hperm

/-- The snapshot does not depend on the order of the times. -/
lemma SameTimes.evaluate_eq (h : facts.SameTimes facts') :
    evaluateCommunicationSafety isoformat policy facts now =
      evaluateCommunicationSafety isoformat policy facts' now := by
  have hprior := h.priorTimes
  have hreply : facts'.lastHumanReplyAt = facts.lastHumanReplyAt := by rw [h.others]
  have hlength := h.outbound.length_eq
  have hwindow := h.outbound.filter fun value => now - policy.outboundMessageWindow < value
  have hfollow := (h.outbound.filter (sinceReply facts.lastHumanReplyAt)).length_eq
  have hlatest := max?_perm (hprior.filter (sinceReply facts.lastHumanReplyAt))
  rw [CommunicationSafetyFacts.priorTimes, CommunicationSafetyFacts.priorTimes] at hlatest
  have hcreated : facts'.processCreatedAt = facts.processCreatedAt := by rw [h.others]
  have hopted : facts'.optedOutAt = facts.optedOutAt := by rw [h.others]
  have hautomated : facts'.latestAutomatedResponseAt = facts.latestAutomatedResponseAt := by
    rw [h.others]
  have hreserve : facts'.reserveNextMessage = facts.reserveNextMessage := by rw [h.others]
  simp only [evaluateCommunicationSafety, hcreated, hopted, hautomated, hreserve, hreply, hlength,
    hwindow.length_eq, min?_perm hwindow, hfollow, hlatest]

/-! ### More evidence -/

/-- More evidence of contact: further outbound times in both lists, an opt-out, an automated
response, and a last human reply that is earlier or gone. -/
structure MoreEvidence (facts facts' : CommunicationSafetyFacts) : Prop where
  created : facts'.processCreatedAt = facts.processCreatedAt
  reserve : facts'.reserveNextMessage = facts.reserveNextMessage
  outbound : facts.outboundMessageTimes.Subperm facts'.outboundMessageTimes
  prior : facts.priorTimes.Subperm facts'.priorTimes
  reply : ∀ reply' ∈ facts'.lastHumanReplyAt, ∃ reply ∈ facts.lastHumanReplyAt, reply' ≤ reply
  automated : facts.latestAutomatedResponseAt.isSome → facts'.latestAutomatedResponseAt.isSome
  optedOut : facts.optedOutAt.isSome → facts'.optedOutAt.isSome

/-- What is since the reply stays so. -/
lemma MoreEvidence.sinceReply (h : facts.MoreEvidence facts') {t : Time}
    (ht : TiramisuAgents.sinceReply facts.lastHumanReplyAt t = true) :
    TiramisuAgents.sinceReply facts'.lastHumanReplyAt t = true := by
  rw [TiramisuAgents.sinceReply, Option.all_eq_true] at ht ⊢
  intro reply' hreply'
  obtain ⟨reply, hreply, hle⟩ := h.reply reply' hreply'
  have hlt : reply < t := of_decide_eq_true (ht reply hreply)
  exact decide_eq_true (hle.trans_lt hlt)

/-- There are at least as many follow-ups. -/
lemma MoreEvidence.followUps_le (h : facts.MoreEvidence facts') :
    facts.followUps.length ≤ facts'.followUps.length := by
  rw [followUps, followUps, ← List.countP_eq_length_filter, ← List.countP_eq_length_filter]
  calc facts.outboundMessageTimes.countP (TiramisuAgents.sinceReply facts.lastHumanReplyAt)
      ≤ facts.outboundMessageTimes.countP (TiramisuAgents.sinceReply facts'.lastHumanReplyAt) :=
        List.countP_mono_left fun t _ => h.sinceReply
    _ ≤ facts'.outboundMessageTimes.countP (TiramisuAgents.sinceReply facts'.lastHumanReplyAt) :=
        h.outbound.countP_le _

/-- Every block keeps its condition. -/
lemma MoreEvidence.applies (h : facts.MoreEvidence facts')
    (happlies : code.Applies policy facts now) :
    code.Applies policy facts' now := by
  have hreservation : facts'.reservation = facts.reservation := by
    rw [reservation, reservation, h.reserve]
  cases code with
  | processExpired =>
      rw [CommunicationBlockCode.Applies] at happlies ⊢
      rwa [h.created]
  | optedOut => exact h.optedOut happlies
  | automatedResponseLoop => exact h.automated happlies
  | quietHours => exact happlies
  | processMessageLimit =>
      have hle := h.outbound.length_le
      rw [CommunicationBlockCode.Applies] at happlies ⊢
      omega
  | rateLimit =>
      have hle : (facts.inWindow policy now).length ≤ (facts'.inWindow policy now).length :=
        (h.outbound.filter _).length_le
      rw [CommunicationBlockCode.Applies] at happlies ⊢
      omega
  | followUpLimit =>
      have hle := h.followUps_le
      rw [CommunicationBlockCode.Applies] at happlies ⊢
      omega
  | minimumInterval =>
      obtain ⟨t, hmem, hsince, hclose⟩ := happlies
      exact ⟨t, h.prior.subset hmem, h.sinceReply hsince, hclose⟩

end CommunicationSafetyFacts

end

/-- The evaluation does not depend on the order of the times, and more evidence of contact keeps
every block that is reported; so it never turns a forbidden send into an allowed one. -/
theorem evidence_monotone (isoformat : Time → String) (policy : CommunicationPolicy) (now : Time)
    (facts facts' : CommunicationSafetyFacts) :
    (facts.SameTimes facts' →
      evaluateCommunicationSafety isoformat policy facts now =
        evaluateCommunicationSafety isoformat policy facts' now) ∧
    (facts.MoreEvidence facts' →
      (∀ code, (evaluateCommunicationSafety isoformat policy facts now).Reports code →
        (evaluateCommunicationSafety isoformat policy facts' now).Reports code) ∧
      ((evaluateCommunicationSafety isoformat policy facts' now).requireAllowed = none →
        (evaluateCommunicationSafety isoformat policy facts now).requireAllowed = none)) := by
  refine ⟨fun h => h.evaluate_eq, fun h => ?_⟩
  have hkept : ∀ code, (evaluateCommunicationSafety isoformat policy facts now).Reports code →
      (evaluateCommunicationSafety isoformat policy facts' now).Reports code := by
    intro code hreports
    exact reports_iff.mpr (h.applies (reports_iff.mp hreports))
  refine ⟨hkept, fun hallowed => ?_⟩
  rw [requireAllowed_eq_none_iff] at hallowed ⊢
  exact fun code hreports => hallowed code (hkept code hreports)

/-- Two messages in either order, and the second of them as further evidence against the first. -/
theorem evidence_monotone_two :
    let policy : CommunicationPolicy :=
      { outboundActionTypes := ["send_email"]
        replyEventTypes := ["email.received"]
        maxFollowUpsWithoutReply := 3
        minimumFollowUpInterval := 10 }
    let facts' : CommunicationSafetyFacts :=
      { processCreatedAt := 0, outboundMessageTimes := [7, 5] }
    let facts'' : CommunicationSafetyFacts :=
      { processCreatedAt := 0, outboundMessageTimes := [5, 7] }
    evaluateCommunicationSafety toString policy facts' 8 =
        evaluateCommunicationSafety toString policy facts'' 8 ∧
      (evaluateCommunicationSafety toString policy facts' 8).Reports .minimumInterval := by
  intro policy facts' facts''
  let facts : CommunicationSafetyFacts := { processCreatedAt := 0, outboundMessageTimes := [5] }
  have hmore : facts.MoreEvidence facts' :=
    { created := rfl
      reserve := rfl
      outbound := (List.sublist_cons_self _ _).subperm
      prior := (List.sublist_cons_self _ _).subperm
      reply := by simp [facts']
      automated := by simp [facts]
      optedOut := by simp [facts] }
  have hreports : (evaluateCommunicationSafety toString policy facts 8).Reports .minimumInterval :=
    reports_iff.mpr ⟨5, by decide, by decide, by decide⟩
  exact ⟨(evidence_monotone toString policy 8 facts' facts'').1 ⟨.swap _ _ _, .none, rfl⟩,
    ((evidence_monotone toString policy 8 facts facts').2 hmore).1 _ hreports⟩

end TiramisuAgents
