import TiramisuAgents.Communications.Blocks
import TiramisuAgents.Communications.QuietHours

/-!
The `next_allowed_at` of the blocks of `communications/policy.py`, from which timers are set.

* `CommunicationBlockCode.next`, `nextAllowedAt_eq`: the next allowed time of each block.
* `rateLimit_iff`, `minimumInterval_iff`, `quietHours_iff`: with the same facts at a later
  instant, the block is reported exactly before that time.
* `nextAllowedAt_exact`: the three together.
-/

namespace TiramisuAgents

/-- The next allowed time of a block: the end of the quiet hours, when the first message leaves
the window, and when the latest message is far enough away. -/
def CommunicationBlockCode.next (policy : CommunicationPolicy) (facts : CommunicationSafetyFacts)
    (now : Time) : CommunicationBlockCode → Option Time
  | .quietHours => policy.quietHoursEnd now
  | .rateLimit => (facts.inWindow policy now).min?.map (· + policy.outboundMessageWindow)
  | .minimumInterval =>
      (facts.priorTimes.filter (sinceReply facts.lastHumanReplyAt)).max?.map
        (· + policy.minimumFollowUpInterval)
  | _ => none

section

variable {isoformat : Time → String} {policy : CommunicationPolicy}
  {facts : CommunicationSafetyFacts} {now t first latest : Time} {block : CommunicationBlock}

lemma blockIf_eq_some {c : Prop} [Decidable c] {other : CommunicationBlock}
    (h : some block = blockIf c other) : block = other := by
  rw [blockIf] at h
  split_ifs at h
  exact Option.some_inj.mp h

/-- Each block has the next allowed time of its code. -/
lemma nextAllowedAt_eq
    (h : block ∈ (evaluateCommunicationSafety isoformat policy facts now).blocks) :
    block.nextAllowedAt = block.code.next policy facts now := by
  have hmem := List.reduceOption_mem_iff.mp h
  simp only [List.mem_cons, List.not_mem_nil, or_false] at hmem
  rcases hmem with hexpired | hopted | hautomated | hquiet | hlimit | hrate | hfollow | hinterval
  · rw [evaluateProcessLifetime] at hexpired
    split_ifs at hexpired
    obtain rfl := Option.some_inj.mp hexpired
    rfl
  · obtain ⟨_, -, rfl⟩ := Option.map_eq_some_iff.mp hopted.symm
    rfl
  · obtain ⟨_, -, rfl⟩ := Option.map_eq_some_iff.mp hautomated.symm
    rfl
  · obtain ⟨e, he, rfl⟩ := Option.map_eq_some_iff.mp hquiet.symm
    exact he.symm
  · rw [blockIf_eq_some hlimit]
    rfl
  · rw [blockIf_eq_some hrate]
    rfl
  · rw [blockIf_eq_some hfollow]
    rfl
  · obtain ⟨latest, hlatest, hif⟩ := Option.bind_eq_some_iff.mp hinterval.symm
    rw [blockIf_eq_some hif.symm]
    exact (congrArg (Option.map (· + policy.minimumFollowUpInterval)) hlatest).symm

/-! ### The rolling window -/

/-- The messages in the window at a later instant are among those in it now. -/
lemma inWindow_later (ht : now ≤ t) :
    facts.inWindow policy t =
      (facts.inWindow policy now).filter fun value => t - policy.outboundMessageWindow < value := by
  rw [CommunicationSafetyFacts.inWindow, CommunicationSafetyFacts.inWindow, List.filter_filter]
  refine List.filter_congr fun value _ => ?_
  rw [← Bool.decide_and, decide_eq_decide]
  have hstart : now - policy.outboundMessageWindow ≤ t - policy.outboundMessageWindow :=
    sub_le_sub_right ht _
  exact ⟨fun hin => ⟨hin, hstart.trans_lt hin⟩, And.left⟩

/-- As long as the first message stays in the window, they all do. -/
lemma inWindow_eq (hfirst : (facts.inWindow policy now).min? = some first) (ht : now ≤ t)
    (hearly : t < first + policy.outboundMessageWindow) :
    facts.inWindow policy t = facts.inWindow policy now := by
  rw [inWindow_later ht, List.filter_eq_self]
  intro value hvalue
  have hle : first ≤ value := (List.min?_eq_some_iff.mp hfirst).2 value hvalue
  exact decide_eq_true ((sub_lt_iff_lt_add.mpr hearly).trans_le hle)

/-- Once the first message has left it, there are fewer. -/
lemma inWindow_length_lt (hfirst : (facts.inWindow policy now).min? = some first) (ht : now ≤ t)
    (hlate : first + policy.outboundMessageWindow ≤ t) :
    (facts.inWindow policy t).length < (facts.inWindow policy now).length := by
  have hmem : first ∈ facts.inWindow policy now := (List.min?_eq_some_iff.mp hfirst).1
  have hout : ¬ t - policy.outboundMessageWindow < first := not_lt.mpr (le_sub_iff_add_le.mpr hlate)
  rw [inWindow_later ht, List.length_filter_lt_length_iff_exists]
  exact ⟨first, hmem, by simpa using hout⟩

/-- A rate limit that is reported with no more messages in the window than it allows is reported
until the first of them leaves the window. -/
lemma rateLimit_iff
    (hcount : (facts.inWindow policy now).length ≤ policy.maxOutboundMessagesPerWindow)
    (happlies : CommunicationBlockCode.rateLimit.Applies policy facts now)
    (hfirst : (facts.inWindow policy now).min? = some first) (ht : now ≤ t) :
    CommunicationBlockCode.rateLimit.Applies policy facts t ↔
      t < first + policy.outboundMessageWindow := by
  have hone : facts.reservation ≤ 1 := by
    rw [CommunicationSafetyFacts.reservation]
    split_ifs <;> omega
  rw [CommunicationBlockCode.Applies] at happlies ⊢
  constructor
  · contrapose!
    intro hlate
    have hlt := inWindow_length_lt hfirst ht hlate
    omega
  · intro hearly
    rwa [inWindow_eq hfirst ht hearly]

/-- There is no first message iff the window allows none. -/
lemma rateLimit_none_iff
    (hcount : (facts.inWindow policy now).length ≤ policy.maxOutboundMessagesPerWindow)
    (happlies : CommunicationBlockCode.rateLimit.Applies policy facts now) :
    CommunicationBlockCode.rateLimit.next policy facts now = none ↔
      policy.maxOutboundMessagesPerWindow = 0 := by
  have hone : facts.reservation ≤ 1 := by
    rw [CommunicationSafetyFacts.reservation]
    split_ifs <;> omega
  rw [CommunicationBlockCode.Applies] at happlies
  rw [CommunicationBlockCode.next, Option.map_eq_none_iff, List.min?_eq_none_iff,
    ← List.length_eq_zero_iff]
  omega

/-! ### The interval and the quiet hours -/

/-- The minimum interval is reported until the latest message is far enough away. -/
lemma minimumInterval_iff
    (hlatest : (facts.priorTimes.filter (sinceReply facts.lastHumanReplyAt)).max? = some latest) :
    CommunicationBlockCode.minimumInterval.Applies policy facts t ↔
      t < latest + policy.minimumFollowUpInterval := by
  have hclose : (∃ m ∈ (facts.priorTimes.filter (sinceReply facts.lastHumanReplyAt)).max?,
      t < m + policy.minimumFollowUpInterval) ↔
      ∃ m ∈ facts.priorTimes.filter (sinceReply facts.lastHumanReplyAt),
        t < m + policy.minimumFollowUpInterval := max?_too_close
  rw [hlatest] at hclose
  simpa [CommunicationBlockCode.Applies, and_assoc] using hclose.symm

/-- With a constant offset quiet hours are reported until their end, and then not until they
recur. -/
lemma quietHours_iff {zoneInfo : String → TimeZones.Zone day} {configuration : DailyQuietHours}
    (hquiet : policy.quietHoursEnd = quietHoursEnd zoneInfo (some configuration))
    (hzone : (zoneInfo configuration.timezone).Constant) {e : Time}
    (he : policy.quietHoursEnd now = some e) :
    now < e ∧ ∃ recurrence, e < recurrence ∧
      (∀ t, now ≤ t → t < recurrence →
        (CommunicationBlockCode.quietHours.Applies policy facts t ↔ t < e)) ∧
      CommunicationBlockCode.quietHours.Applies policy facts recurrence := by
  have happlies : ∀ t, CommunicationBlockCode.quietHours.Applies policy facts t ↔
      configuration.Contains (localTime (zoneInfo configuration.timezone) t) := by
    intro t
    rw [CommunicationBlockCode.Applies, hquiet, quietHoursEnd_isSome_iff hzone]
  rw [hquiet] at he
  obtain ⟨hlater, hinside, -⟩ := quietHoursEnd_first hzone he
  obtain ⟨startDate, -, -, -, rfl⟩ := quietHoursEnd_eq_some he
  obtain ⟨recurrence, hrecurs, houtside, hagain⟩ := exists_recurrence hzone startDate
  refine ⟨hlater, recurrence, hrecurs, fun t ht hearly => ?_, (happlies _).mpr hagain⟩
  rw [happlies]
  constructor
  · contrapose!
    exact fun hend => houtside t hend hearly
  · exact hinside t ht

end

/-- The next allowed times are exact.  Where there are no more messages in the window than it
allows, the next allowed time of a rate limit or a minimum interval is later than now, and with the
same facts the block is reported until then and never after; a rate limit has none iff the window
allows no message.  With a constant offset the same holds of quiet hours until they recur. -/
theorem nextAllowedAt_exact (isoformat : Time → String) (policy : CommunicationPolicy)
    (facts : CommunicationSafetyFacts) (now : Time)
    (hcount : (evaluateCommunicationSafety isoformat policy facts now).outboundMessagesInWindow
      ≤ policy.maxOutboundMessagesPerWindow)
    (block : CommunicationBlock)
    (hblock : block ∈ (evaluateCommunicationSafety isoformat policy facts now).blocks) :
    (block.code = .rateLimit ∨ block.code = .minimumInterval →
      ∀ next, block.nextAllowedAt = some next →
        now < next ∧
        (∀ t, next ≤ t →
          ¬ (evaluateCommunicationSafety isoformat policy facts t).Reports block.code) ∧
        ∀ t, now ≤ t → t < next →
          (evaluateCommunicationSafety isoformat policy facts t).Reports block.code) ∧
    (block.code = .rateLimit →
      (block.nextAllowedAt = none ↔ policy.maxOutboundMessagesPerWindow = 0)) ∧
    (block.code = .quietHours → ∀ zoneInfo configuration,
      policy.quietHoursEnd = quietHoursEnd zoneInfo (some configuration) →
      (zoneInfo configuration.timezone).Constant →
      ∃ next recurrence, block.nextAllowedAt = some next ∧ now < next ∧ next < recurrence ∧
        (∀ t, now ≤ t → t < next →
          (evaluateCommunicationSafety isoformat policy facts t).Reports block.code) ∧
        (∀ t, next ≤ t → t < recurrence →
          ¬ (evaluateCommunicationSafety isoformat policy facts t).Reports block.code) ∧
        (evaluateCommunicationSafety isoformat policy facts recurrence).Reports block.code) := by
  have hnext := nextAllowedAt_eq hblock
  have happlies : block.code.Applies policy facts now := reports_iff.mp ⟨block, hblock, rfl⟩
  generalize block.code = code at *
  simp only [reports_iff]
  refine ⟨?_, ?_, ?_⟩
  · rintro hcode next hsome
    -- the block is reported at a later instant exactly before `next`
    obtain ⟨hlater, hiff⟩ : now < next ∧
        ∀ t, now ≤ t → (code.Applies policy facts t ↔ t < next) := by
      rw [hnext] at hsome
      rcases hcode with rfl | rfl
      · obtain ⟨first, hfirst, rfl⟩ := Option.map_eq_some_iff.mp hsome
        have hiff := fun t => rateLimit_iff (t := t) hcount happlies hfirst
        exact ⟨(hiff now le_rfl).mp happlies, hiff⟩
      · obtain ⟨latest, hlatest, rfl⟩ := Option.map_eq_some_iff.mp hsome
        have hiff : ∀ t, CommunicationBlockCode.minimumInterval.Applies policy facts t ↔
            t < latest + policy.minimumFollowUpInterval := fun _ => minimumInterval_iff hlatest
        exact ⟨(hiff now).mp happlies, fun t _ => hiff t⟩
    refine ⟨hlater, fun t ht => ?_, fun t ht hearly => (hiff t ht).mpr hearly⟩
    rw [hiff t (hlater.le.trans ht)]
    exact not_lt.mpr ht
  · rintro rfl
    rw [hnext, rateLimit_none_iff hcount happlies]
  · rintro rfl zoneInfo configuration hquiet hzone
    obtain ⟨e, he⟩ := Option.isSome_iff_exists.mp happlies
    obtain ⟨hlater, recurrence, hrecurs, hiff, hagain⟩ :=
      @quietHours_iff policy facts now _ _ hquiet hzone e he
    refine ⟨e, recurrence, hnext.trans he, hlater, hrecurs, fun t ht hearly => ?_,
      fun t ht hearly => ?_, hagain⟩
    · exact (hiff t ht (hearly.trans hrecurs)).mpr hearly
    · rw [hiff t (hlater.le.trans ht) hearly]
      exact not_lt.mpr ht

/-- One message a day, and one was sent a minute ago: the next may leave in a day less a minute. -/
theorem nextAllowedAt_exact_daily :
    let policy : CommunicationPolicy :=
      { outboundActionTypes := ["send_email"]
        replyEventTypes := ["email.received"]
        maxFollowUpsWithoutReply := 3
        minimumFollowUpInterval := 30
        maxOutboundMessagesPerWindow := 1
        outboundMessageWindow := 1440 }
    let facts : CommunicationSafetyFacts := { processCreatedAt := 0, outboundMessageTimes := [0] }
    (1 : Time) < 1440 ∧
      ¬ (evaluateCommunicationSafety toString policy facts 1440).Reports .rateLimit ∧
      (evaluateCommunicationSafety toString policy facts 1439).Reports .rateLimit := by
  intro policy facts
  have hexact := (nextAllowedAt_exact toString policy facts 1 (by decide)
    { code := .rateLimit
      message := "outbound-message rolling-window limit has been reached"
      nextAllowedAt := some 1440 } (by decide)).1 (.inl rfl) 1440 rfl
  exact ⟨hexact.1, hexact.2.1 1440 (by decide), hexact.2.2 1439 (by decide) (by decide)⟩

end TiramisuAgents
