import TiramisuAgents.Core.Contracts

/-!
`communications/policy.py`: the customer-communication policy of a journey, evaluated at one
instant on the times of the messages that are reserved and of the events that were received.

Times are instants already, so the conversions to UTC are left out.  The end of the quiet hours
that are active at an instant is a function of the policy, since it comes from the time-zone
database; `isoformat` is the text of an instant.

* `evaluateProcessLifetime`, `evaluateCommunicationSafety`: the two evaluations.
* `allowed_iff`: what an instant without a block satisfies.
-/

namespace TiramisuAgents

/-- `CommunicationBlockCode`. -/
inductive CommunicationBlockCode where
  | processExpired | optedOut | automatedResponseLoop | quietHours | processMessageLimit
  | rateLimit | followUpLimit | minimumInterval
  deriving DecidableEq, Repr

/-- `CommunicationBlock`. -/
structure CommunicationBlock where
  code : CommunicationBlockCode
  message : String
  nextAllowedAt : Option Time := none
  deriving DecidableEq, Repr

/-- `CommunicationPolicy`. -/
structure CommunicationPolicy where
  outboundActionTypes : List String
  replyEventTypes : List String
  maxFollowUpsWithoutReply : ℕ
  minimumFollowUpInterval : Time
  optOutEventTypes : List String := []
  automatedResponseEventTypes : List String := []
  quietHoursEnd : Time → Option Time := fun _ => none
  maxOutboundMessagesPerProcess : ℕ := 50
  maxOutboundMessagesPerWindow : ℕ := 5
  outboundMessageWindow : Time := 24 * 3600 * 1000000
  maximumProcessLifetime : Time := 90 * 24 * 3600 * 1000000

/-- `CommunicationSafetyFacts`. -/
structure CommunicationSafetyFacts where
  processCreatedAt : Time
  outboundMessageTimes : List Time := []
  priorOutboundMessageTimes : Option (List Time) := none
  lastHumanReplyAt : Option Time := none
  latestAutomatedResponseAt : Option Time := none
  optedOutAt : Option Time := none
  reserveNextMessage : Bool := true
  deriving DecidableEq, Repr

/-- `CommunicationSafetySnapshot`, with the blocks in the order of the source. -/
structure CommunicationSafetySnapshot where
  evaluatedAt : Time
  blocks : List CommunicationBlock
  outboundMessagesTotal : ℕ
  outboundMessagesInWindow : ℕ
  followUpsSinceReply : ℕ
  lastHumanReplyAt : Option Time
  latestAutomatedResponseAt : Option Time
  optedOutAt : Option Time
  processExpiresAt : Time
  rateWindowStartedAt : Time
  deriving DecidableEq, Repr

/-- `outbound_allowed_now`. -/
def CommunicationSafetySnapshot.outboundAllowedNow (s : CommunicationSafetySnapshot) : Bool :=
  s.blocks.isEmpty

/-- A time that is later than the last human reply, if there is one. -/
def sinceReply (lastHumanReplyAt : Option Time) (value : Time) : Bool :=
  lastHumanReplyAt.all fun reply => reply < value

section

variable (isoformat : Time → String)

/-- `evaluate_process_lifetime`. -/
def evaluateProcessLifetime (processCreatedAt : Time) (policy : CommunicationPolicy) (now : Time) :
    Option CommunicationBlock :=
  let processExpiresAt := processCreatedAt + policy.maximumProcessLifetime
  if now < processExpiresAt then none
  else
    some { code := .processExpired
           message := s!"process lifetime ended at {isoformat processExpiresAt}" }

/-- A block that applies under a condition. -/
def blockIf (c : Prop) [Decidable c] (block : CommunicationBlock) : Option CommunicationBlock :=
  if c then some block else none

/-- `evaluate_communication_safety`. -/
def evaluateCommunicationSafety (policy : CommunicationPolicy) (facts : CommunicationSafetyFacts)
    (now : Time) : CommunicationSafetySnapshot :=
  let priorTimes := facts.priorOutboundMessageTimes.getD facts.outboundMessageTimes
  let windowStartedAt := now - policy.outboundMessageWindow
  let reservation := if facts.reserveNextMessage then 1 else 0
  let total := facts.outboundMessageTimes.length
  let inWindow := facts.outboundMessageTimes.filter fun value => windowStartedAt < value
  let followUps := (facts.outboundMessageTimes.filter (sinceReply facts.lastHumanReplyAt)).length
  let latestPriorAt := (priorTimes.filter (sinceReply facts.lastHumanReplyAt)).max?
  { evaluatedAt := now
    blocks := List.reduceOption
      [evaluateProcessLifetime isoformat facts.processCreatedAt policy now,
        facts.optedOutAt.map fun t =>
          { code := .optedOut, message := s!"customer opted out at {isoformat t}" },
        facts.latestAutomatedResponseAt.map fun _ =>
          { code := .automatedResponseLoop
            message :=
              "latest inbound contact was classified as automated; wait for a human reply" },
        (policy.quietHoursEnd now).map fun t =>
          { code := .quietHours
            message := s!"customer quiet hours are active until {isoformat t}"
            nextAllowedAt := some t },
        blockIf (total + reservation > policy.maxOutboundMessagesPerProcess)
          { code := .processMessageLimit
            message := "process outbound-message limit has been reached" },
        blockIf (inWindow.length + reservation > policy.maxOutboundMessagesPerWindow)
          { code := .rateLimit
            message := "outbound-message rolling-window limit has been reached"
            nextAllowedAt := inWindow.min?.map (· + policy.outboundMessageWindow) },
        blockIf (followUps + reservation > policy.maxFollowUpsWithoutReply)
          { code := .followUpLimit
            message := "maximum follow-ups without a human reply has been reached" },
        latestPriorAt.bind fun t =>
          blockIf (now < t + policy.minimumFollowUpInterval)
            { code := .minimumInterval
              message := "minimum follow-up interval has not elapsed; retry after "
                ++ isoformat (t + policy.minimumFollowUpInterval)
              nextAllowedAt := some (t + policy.minimumFollowUpInterval) }]
    outboundMessagesTotal := total
    outboundMessagesInWindow := inWindow.length
    followUpsSinceReply := followUps
    lastHumanReplyAt := facts.lastHumanReplyAt
    latestAutomatedResponseAt := facts.latestAutomatedResponseAt
    optedOutAt := facts.optedOutAt
    processExpiresAt := facts.processCreatedAt + policy.maximumProcessLifetime
    rateWindowStartedAt := windowStartedAt }

/-- `require_allowed`: the block that is raised. -/
def CommunicationSafetySnapshot.requireAllowed (s : CommunicationSafetySnapshot) :
    Option CommunicationBlock :=
  s.blocks.head?

/-! ### What an allowed instant satisfies -/

variable {isoformat}

lemma blockIf_eq_none {c : Prop} [Decidable c] {block : CommunicationBlock} :
    blockIf c block = none ↔ ¬ c := by
  rw [blockIf]
  split <;> simp_all

lemma head?_reduceOption_eq_none {α : Type} (l : List (Option α)) :
    l.reduceOption.head? = none ↔ ∀ x ∈ l, x = none := by
  have hfilter : l.reduceOption = l.filterMap id := rfl
  rw [List.head?_eq_none_iff, hfilter, List.filterMap_eq_nil_iff]
  exact Iff.rfl

/-- An instant that the evaluation allows: the process lives, nobody opted out, no automated
response is the latest, no quiet hours are active, the three counts are within their limits, and
every message since the last reply is far enough away. -/
theorem allowed_iff {policy : CommunicationPolicy} {facts : CommunicationSafetyFacts} {now : Time} :
    (evaluateCommunicationSafety isoformat policy facts now).requireAllowed = none ↔
      (now < facts.processCreatedAt + policy.maximumProcessLifetime ∧ facts.optedOutAt = none ∧
        facts.latestAutomatedResponseAt = none ∧ policy.quietHoursEnd now = none) ∧
      facts.outboundMessageTimes.length + (if facts.reserveNextMessage then 1 else 0)
        ≤ policy.maxOutboundMessagesPerProcess ∧
      (facts.outboundMessageTimes.filter fun value =>
          now - policy.outboundMessageWindow < value).length
          + (if facts.reserveNextMessage then 1 else 0)
        ≤ policy.maxOutboundMessagesPerWindow ∧
      (facts.outboundMessageTimes.filter (sinceReply facts.lastHumanReplyAt)).length
          + (if facts.reserveNextMessage then 1 else 0)
        ≤ policy.maxFollowUpsWithoutReply ∧
      ∀ t ∈ facts.priorOutboundMessageTimes.getD facts.outboundMessageTimes,
        sinceReply facts.lastHumanReplyAt t = true → t + policy.minimumFollowUpInterval ≤ now := by
  have hlifetime : evaluateProcessLifetime isoformat facts.processCreatedAt policy now = none ↔
      now < facts.processCreatedAt + policy.maximumProcessLifetime := by
    simp [evaluateProcessLifetime]
  have hinterval : ∀ block : Time → CommunicationBlock,
      (((facts.priorOutboundMessageTimes.getD facts.outboundMessageTimes).filter
          (sinceReply facts.lastHumanReplyAt)).max?.bind fun t =>
        blockIf (now < t + policy.minimumFollowUpInterval) (block t)) = none ↔
      ∀ t ∈ facts.priorOutboundMessageTimes.getD facts.outboundMessageTimes,
        sinceReply facts.lastHumanReplyAt t = true →
          t + policy.minimumFollowUpInterval ≤ now := by
    intro block
    rw [Option.bind_eq_none_iff]
    simp only [blockIf_eq_none, not_lt]
    constructor
    · intro h t ht hsince
      have hmem := List.mem_filter.mpr ⟨ht, hsince⟩
      obtain ⟨m, hm⟩ := Option.isSome_iff_exists.mp (List.isSome_max?_of_mem hmem)
      have hle := (List.max?_eq_some_iff.mp hm).2 t hmem
      exact (add_le_add_left hle _).trans (h m hm)
    · intro h m hm
      obtain ⟨hmem, hsince⟩ := List.mem_filter.mp (List.max?_eq_some_iff.mp hm).1
      exact h m hmem hsince
  rw [CommunicationSafetySnapshot.requireAllowed, evaluateCommunicationSafety]
  dsimp only
  rw [head?_reduceOption_eq_none]
  simp only [List.forall_mem_cons, List.not_mem_nil, false_imp_iff, implies_true, and_true,
    hlifetime, hinterval, blockIf_eq_none, Option.map_eq_none_iff, gt_iff_lt, not_lt]
  tauto

end

end TiramisuAgents
