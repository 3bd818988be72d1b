import TiramisuAgents.Communications.OptOut
import TiramisuAgents.Library.Windows

/-!
The rate rules of a communication policy, and when messages leave.

The gate of an execution counts the reserved requests by the time they were created, and measures
the follow-up interval from it.  A message leaves when its provider is invoked, which may be long
after; so the rules hold of the messages as far as the reservations stand for them.

* `sends`: the messages of a log, with the times of their gates.
* `Prompt`: the earlier messages that count at an instant have reservations that count, too.
* `RatesOk`, `rates_respected`: with prompt messages the rules hold in every run;
  `sent_too_close` is the run without.
-/

namespace TiramisuAgents

open Transactions

section

variable {V : Type} (policy : CommunicationPolicy)

/-- The message for which the provider is invoked. -/
def ProcessEvent.message : ProcessEvent V → Option (UUID × Time)
  | .sent a actionType now =>
      if policy.outboundActionTypes.contains actionType then some (a, now) else none
  | _ => none

/-- The messages of a log: their requests and times. -/
def sends (log : List (ProcessEvent V)) : List (UUID × Time) :=
  log.filterMap (ProcessEvent.message policy)

/-- A human reply was received between two instants. -/
def RepliedBetween (w : ProcessDatabase V) (start stop : Time) : Prop :=
  ∃ r ∈ w.inbox, r.correlationStatus = .matched ∧ r.eventType ∈ policy.replyEventTypes ∧
    start ≤ r.receivedAt ∧ r.receivedAt ≤ stop

/-- At the gate of a message the clock has not gone back, the request was created in the window,
and the reservations stand for the earlier messages: one that is in the window, or too close
without a reply since, is of another request that is still reserved and was created in the
window, or too close, as well. -/
structure Prompt (w : ProcessDatabase V) (log : List (ProcessEvent V)) (a : UUID) (now : Time) :
    Prop where
  clock : ∀ e ∈ sends policy log, e.2 ≤ now
  created : now - policy.outboundMessageWindow < w.requestCreatedAt a
  window : ∀ e ∈ sends policy log, now - policy.outboundMessageWindow < e.2 →
    e.1 ≠ a ∧ ∃ r ∈ w.reservedOutbound policy, r.1 = e.1 ∧ now - policy.outboundMessageWindow < r.2
  interval : ∀ e ∈ sends policy log, now < e.2 + policy.minimumFollowUpInterval →
    ¬ RepliedBetween policy w e.2 now →
      e.1 ≠ a ∧ ∃ r ∈ w.reservedOutbound policy, r.1 = e.1 ∧
        now < r.2 + policy.minimumFollowUpInterval ∧
        sinceReply (w.latestEventTime policy.replyEventTypes) r.2 = true

/-- The rate rules hold of the messages of a log. -/
structure RatesOk (w : ProcessDatabase V) (log : List (ProcessEvent V)) : Prop where
  apart : Windows.Apart policy.outboundMessageWindow (sends policy log)
  bound : ∀ t, Windows.count (sends policy log) policy.outboundMessageWindow t
    ≤ policy.maxOutboundMessagesPerWindow
  spaced : (sends policy log).Pairwise fun e e' =>
    RepliedBetween policy w e.2 e'.2 ∨ e.2 + policy.minimumFollowUpInterval ≤ e'.2

/-- A further message keeps the rules. -/
structure MayLeave (w : ProcessDatabase V) (log : List (ProcessEvent V)) (a : UUID) (now : Time) :
    Prop where
  clock : ∀ e ∈ sends policy log, e.2 ≤ now
  apart : ∀ e ∈ sends policy log, now - policy.outboundMessageWindow < e.2 → e.1 ≠ a
  bound : Windows.count (sends policy log) policy.outboundMessageWindow now + 1
    ≤ policy.maxOutboundMessagesPerWindow
  spaced : ∀ e ∈ sends policy log,
    RepliedBetween policy w e.2 now ∨ e.2 + policy.minimumFollowUpInterval ≤ now

variable {policy} {w w' : ProcessDatabase V} {log obs : List (ProcessEvent V)} {a : UUID}
  {now : Time}

/-- **The gate.**  A prompt message that passes the safety check keeps the rules. -/
lemma Prompt.mayLeave {isoformat : Time → String} {actionType : String}
    (h : Prompt policy w log a now) (hok : RatesOk policy w log)
    (htype : actionType ∈ policy.outboundActionTypes)
    (hpass : w.fenceBlock isoformat policy now a actionType = .ok none) :
    MayLeave policy w log a now := by
  obtain ⟨⟨own, hown, rfl⟩, hallowed⟩ := ProcessDatabase.fenceBlock_eq_none htype hpass
  obtain ⟨-, -, hwindow, -, hinterval⟩ := allowed_iff.mp hallowed
  refine ⟨h.clock, fun e he hin => (h.window e he hin).1, ?_, fun e he => ?_⟩
  · -- the messages of the window are charged to the reservations that the check has counted
    let counted := (w.reservedOutbound policy).filter fun r =>
      now - policy.outboundMessageWindow < r.2
    have hcounted : counted.length ≤ policy.maxOutboundMessagesPerWindow := by
      simpa [ProcessDatabase.communicationFacts, List.filter_map, Function.comp_def, counted]
        using hwindow
    have mem {r : UUID × Time} (hr : r ∈ w.reservedOutbound policy)
        (hin : now - policy.outboundMessageWindow < r.2) : r ∈ counted :=
      List.mem_filter.mpr ⟨hr, decide_eq_true hin⟩
    refine (Windows.count_lt_of_charged hok.apart h.clock ⟨own, mem hown ?_, rfl⟩
      fun e he hin => ?_).trans hcounted
    · rw [(ProcessDatabase.mem_reservedOutbound.mp hown).2.1]
      exact h.created
    · obtain ⟨hne, r, hr, hkey, hafter⟩ := h.window e he hin
      exact ⟨hne, r, mem hr hafter, hkey⟩
  · by_contra hclose
    rw [not_or, not_le] at hclose
    obtain ⟨hne, r, hr, hkey, hlate, hsince⟩ := h.interval e he hclose.2 hclose.1
    have hprior : r.2 ∈ ((w.reservedOutbound policy).filter fun r => some r.1 ≠ some own.1).map
        Prod.snd := by
      refine List.mem_map_of_mem (List.mem_filter.mpr ⟨hr, decide_eq_true ?_⟩)
      rw [hkey, ne_eq, Option.some.injEq]
      exact hne
    exact absurd (hinterval r.2 hprior hsince) (not_le.mpr hlate)

lemma sends_append : sends policy (log ++ obs) = sends policy log ++ sends policy obs :=
  List.filterMap_append

/-- More events do not take a reply away. -/
lemma RepliedBetween.mono {start stop : Time} (h : RepliedBetween policy w start stop)
    (hkept : ∀ r ∈ w.inbox, r.correlationStatus = .matched → r ∈ w'.inbox) :
    RepliedBetween policy w' start stop := by
  obtain ⟨r, hr, hmatched, hrest⟩ := h
  exact ⟨r, hkept r hr hmatched, hmatched, hrest⟩

lemma RatesOk.mono (h : RatesOk policy w log)
    (hkept : ∀ r ∈ w.inbox, r.correlationStatus = .matched → r ∈ w'.inbox) :
    RatesOk policy w' log :=
  ⟨h.apart, h.bound, h.spaced.imp fun hspaced => hspaced.imp (fun hr => hr.mono hkept) id⟩

lemma MayLeave.mono (h : MayLeave policy w log a now)
    (hkept : ∀ r ∈ w.inbox, r.correlationStatus = .matched → r ∈ w'.inbox) :
    MayLeave policy w' log a now :=
  ⟨h.clock, h.apart, h.bound, fun e he => (h.spaced e he).imp (fun hr => hr.mono hkept) id⟩

lemma RatesOk.of_sends (h : RatesOk policy w log) (hsends : sends policy obs = []) :
    RatesOk policy w (log ++ obs) := by
  obtain ⟨hapart, hbound, hspaced⟩ := h
  rw [← List.append_nil (sends policy log), ← hsends, ← sends_append] at hapart hspaced
  refine ⟨hapart, fun t => ?_, hspaced⟩
  rw [sends_append, hsends, List.append_nil]
  exact hbound t

lemma MayLeave.of_sends (h : MayLeave policy w log a now) (hsends : sends policy obs = []) :
    MayLeave policy w (log ++ obs) a now := by
  have heq : sends policy (log ++ obs) = sends policy log := by
    rw [sends_append, hsends, List.append_nil]
  refine ⟨?_, ?_, ?_, ?_⟩
  · rw [heq]
    exact h.clock
  · rw [heq]
    exact h.apart
  · rw [heq]
    exact h.bound
  · rw [heq]
    exact h.spaced

/-- The message leaves. -/
lemma RatesOk.leave (h : RatesOk policy w log) (hleave : MayLeave policy w log a now)
    (hsends : sends policy obs = [(a, now)]) : RatesOk policy w (log ++ obs) where
  apart := by
    rw [sends_append, hsends]
    exact h.apart.append hleave.apart
  bound := by
    rw [sends_append, hsends]
    exact Windows.count_append_le hleave.clock h.bound hleave.bound
  spaced := by
    rw [sends_append, hsends]
    refine List.pairwise_append.mpr ⟨h.spaced, List.pairwise_singleton _ _, fun e he e' he' => ?_⟩
    rw [List.mem_singleton.mp he']
    exact hleave.spaced e he

end

section

variable {V : Type} [BEq V] {S : Services V} {t t' u : ProcessStage V} {x : ProcessInput V}
  {w w' : ProcessDatabase V} {log obs : List (ProcessEvent V)}

omit [BEq V] in
/-- An execution that has passed the safety check of its gate may send its message. -/
def ProcessStage.MayLeave (policy : CommunicationPolicy) (w : ProcessDatabase V)
    (log : List (ProcessEvent V)) : ProcessStage V → Prop
  | .inspected a (.gating _ _ row) _ now none =>
      row.request.actionType ∈ policy.outboundActionTypes →
        TiramisuAgents.MayLeave policy w log a now
  | _ => True

omit [BEq V] in
/-- A message is prompt when its gate is checked. -/
def ProcessStage.PromptAt (policy : CommunicationPolicy) (w : ProcessDatabase V)
    (log : List (ProcessEvent V)) : ProcessStage V → ProcessInput V → Prop
  | .action a (.gating _ _ row) _, .answer (.inspection now) =>
      row.request.actionType ∈ policy.outboundActionTypes → Prompt policy w log a now
  | _, _ => True

/-- A message leaves from the gate. -/
lemma ProcessStep.sends_cases (h : ProcessStep S t x w t' w' obs) (policy : CommunicationPolicy) :
    sends policy obs = [] ∨
    ∃ a revision key row startedAt now,
      t = .inspected a (.gating revision key row) startedAt now none ∧
      row.request.actionType ∈ policy.outboundActionTypes ∧ sends policy obs = [(a, now)] := by
  have acted (a : UUID) (es : List ActionEvent) :
      sends policy (es.map (ProcessEvent.action (V := V) a)) = [] :=
    List.filterMap_eq_nil_iff.mpr fun e he => by
      obtain ⟨e', -, rfl⟩ := List.mem_map.mp he
      rfl
  cases h with
  | act a v v' startedAt y db obs => exact .inl (acted a obs)
  | propose a p v' startedAt now block error db obs => exact .inl (acted a obs)
  | gate a revision key row v' startedAt now block breakers db obs hmoved =>
      rw [sends_append, acted, List.nil_append]
      split_ifs with hpass
      · by_cases htype : row.request.actionType ∈ policy.outboundActionTypes
        · cases block with
          | some block => cases hpass
          | none =>
              refine .inr ⟨a, revision, key, row, startedAt, now, rfl, htype, ?_⟩
              simp [sends, ProcessEvent.message, htype]
        · exact .inl (by simp [sends, ProcessEvent.message, htype])
      · exact .inl rfl
  | _ => exact .inl rfl

/-- The rules are kept. -/
lemma ProcessStep.ratesOk (h : ProcessStep S t x w t' w' obs)
    (ht : t.MayLeave S.policy w log) (hok : RatesOk S.policy w log) :
    RatesOk S.policy w' (log ++ obs) := by
  refine RatesOk.mono (w := w) ?_ fun r hr hmatched => h.matched_kept hr hmatched
  obtain hnone | ⟨a, revision, key, row, startedAt, now, rfl, htype, hsends⟩ :=
    h.sends_cases S.policy
  · exact hok.of_sends hnone
  · exact hok.leave (ht htype) hsends

/-- What an execution knows at its gate. -/
lemma ProcessStep.mayLeave (h : ProcessStep S t x w t' w' obs) (ht : t.PromptAt S.policy w log x)
    (hok : RatesOk S.policy w log) : t'.MayLeave S.policy w' (log ++ obs) := by
  cases h with
  | halt hended => obtain rfl | ⟨o, rfl⟩ := hended <;> trivial
  | start c => cases c <;> trivial
  | inspect a v startedAt now block hchecked =>
      cases v with
      | gating revision key row =>
          cases block with
          | none =>
              intro htype
              rw [List.append_nil]
              exact (ht htype).mayLeave hok htype (Option.some.inj hchecked)
          | some block => trivial
      | _ => trivial
  | _ => trivial

/-- It stays so, since the execution holds the process. -/
lemma ProcessStep.mayLeave_other (h : ProcessStep S t x w t' w' obs)
    (hlocks : ∀ l ∈ u.locks, l ∉ t.locks) (hu : u.MayLeave S.policy w log) :
    u.MayLeave S.policy w' (log ++ obs) := by
  cases u with
  | inspected a v startedAt now block =>
      cases v with
      | gating revision key row =>
          cases block with
          | none =>
              intro htype
              have hprocess : ProcessLock.process ∉ t.locks :=
                hlocks _ (List.mem_map.mpr ⟨.process, by simp [Stage.locks], rfl⟩)
              have hnone : sends S.policy obs = [] := by
                obtain hnone | ⟨b, _, _, _, _, _, rfl, -⟩ := h.sends_cases S.policy
                · exact hnone
                · refine absurd (List.mem_map.mpr ⟨RowLock.process, ?_, rfl⟩) hprocess
                  simp [Stage.locks]
              exact ((hu htype).mono fun r hr hmatched => h.matched_kept hr hmatched).of_sends hnone
          | some block => trivial
      | _ => trivial
  | _ => trivial

variable (S) in
/-- The rule for runs with prompt messages. -/
lemma ratesJoint : Joint (processCalls S) (fun t x w log => t.PromptAt S.policy w log x)
    (fun _ _ _ _ => True) (RatesOk S.policy) (fun t w log => t.MayLeave S.policy w log) where
  own hnext hprompt hok ht :=
    have h := ProcessStep.of_advance hnext
    ⟨h.ratesOk ht hok, h.mayLeave hprompt hok⟩
  other hnext _ _ hlocks _ _ hu := (ProcessStep.of_advance hnext).mayLeave_other hlocks hu

/-! ### Runs -/

variable {n : ℕ} {createdAt : Time}
  {s : Pool n (ProcessDatabase V) (ProcessStage V) (ProcessEvent V)}
  {ms : List (Fin n × ProcessInput V)}

variable (S) in
omit [BEq V] in
/-- The step does not check the gate of a message that is not prompt. -/
def PromptStep (s : Pool n (ProcessDatabase V) (ProcessStage V) (ProcessEvent V))
    (m : Fin n × ProcessInput V) : Prop :=
  (s.calls m.1).PromptAt S.policy s.store s.log m.2

/-- **The rate rules.**  In every run whose messages are prompt at their gates: in any window of
the policy's width leave at most as many messages as it allows, and two messages without a human
reply between them are at least the follow-up interval apart. -/
theorem rates_respected (h : Runs (processCalls S) (PromptStep S) (newProcess n createdAt) ms s) :
    RatesOk S.policy s.store s.log := by
  refine ((ratesJoint S).runs (fun _ _ _ hG => hG) (fun _ _ _ _ _ _ => trivial) h
    (newProcess_holds S n createdAt ⟨List.Pairwise.nil, fun t => ?_, List.Pairwise.nil⟩
      trivial)).common
  exact Nat.zero_le _

end

/-- At the gate of a message the earlier ones neither are in its window nor too close. -/
def calmStep (policy : CommunicationPolicy) {n : ℕ}
    (s : Pool n (ProcessDatabase ℕ) (ProcessStage ℕ) (ProcessEvent ℕ))
    (m : Fin n × ProcessInput ℕ) : Bool :=
  match s.calls m.1, m.2 with
  | .action a (.gating _ _ _) _, .answer (.inspection now) =>
      now - policy.outboundMessageWindow < s.store.requestCreatedAt a &&
        (sends policy s.log).all fun e =>
          e.2 ≤ now && e.2 ≤ now - policy.outboundMessageWindow &&
            e.2 + policy.minimumFollowUpInterval ≤ now
  | _, _ => true

lemma calmStep_sound {S : Services ℕ} {n : ℕ}
    {s : Pool n (ProcessDatabase ℕ) (ProcessStage ℕ) (ProcessEvent ℕ)}
    {m : Fin n × ProcessInput ℕ} (h : calmStep S.policy s m = true) : PromptStep S s m := by
  rw [calmStep] at h
  rw [PromptStep]
  cases hstage : s.calls m.1 with
  | action a v startedAt =>
      cases v with
      | gating revision key row =>
          cases hinput : m.2 with
          | answer y =>
              cases y with
              | inspection now =>
                  intro htype
                  rw [hstage, hinput, Bool.and_eq_true, List.all_eq_true] at h
                  obtain ⟨hcreated, hcalm⟩ := h
                  have calm {e : UUID × Time} (he : e ∈ sends S.policy s.log) :
                      e.2 ≤ now ∧ e.2 ≤ now - S.policy.outboundMessageWindow ∧
                        e.2 + S.policy.minimumFollowUpInterval ≤ now := by
                    simpa [and_assoc] using hcalm e he
                  exact ⟨fun e he => (calm he).1, of_decide_eq_true hcreated,
                    fun e he hin => absurd hin (not_lt.mpr (calm he).2.1),
                    fun e he hclose => absurd hclose (not_lt.mpr (calm he).2.2)⟩
              | _ => trivial
          | _ => trivial
      | _ => trivial
  | _ => trivial

/-- A message that leaves at an instant. -/
def sentAt {n : ℕ} (i : Fin n) (a : UUID) (now : Time) : List (Fin n × ProcessInput ℕ) :=
  processMoves i now (.action a (.execute 1))
    ((allowed (.go :: allowed [])).map .action ++
      [.inspection now, .breakers none, .action (.provider (.success ⟨"ref", "", []⟩)),
        .action .go, .action .go, .action .go])

/-- Two messages that leave when they are reserved. -/
theorem rates_respected_twice :
    ∃ (ms : List (Fin 1 × ProcessInput ℕ))
      (s : Pool 1 (ProcessDatabase ℕ) (ProcessStage ℕ) (ProcessEvent ℕ)),
    Runs (processCalls (sampleServices false)) (PromptStep (sampleServices false))
      (newProcess 1 0) ms s ∧
    sends (sampleServices false).policy s.log = [("a", 5), ("b", 35)] ∧
    RatesOk (sampleServices false).policy s.store s.log := by
  let ms : List (Fin 1 × ProcessInput ℕ) := List.flatten
    [proposed 0 "a" .allow 0, sentAt 0 "a" 5, proposed 0 "b" .allow 30, sentAt 0 "b" 35]
  obtain ⟨s, hruns, hp⟩ := exists_runs (C := processCalls (sampleServices false))
    (s := newProcess 1 0) (calmStep (sampleServices false).policy) ms
    (fun s => sends (sampleServices false).policy s.log = [("a", 5), ("b", 35)])
    (by decide +kernel)
  have h := hruns.mono fun s m => calmStep_sound
  exact ⟨ms, s, h, of_decide_eq_true hp, rates_respected h⟩

/-- One message is reserved, a second one a window later; the second leaves, and the first one
19 hours after it, where one message a day is allowed, a day apart. -/
theorem sent_too_close :
    ∃ (ms : List (Fin 1 × ProcessInput ℕ))
      (s : Pool 1 (ProcessDatabase ℕ) (ProcessStage ℕ) (ProcessEvent ℕ)),
    Runs (processCalls (sampleServices false)) (fun _ _ => True) (newProcess 1 0) ms s ∧
    sends (sampleServices false).policy s.log = [("b", 30), ("a", 49)] ∧ s.store.inbox = [] ∧
    ¬ RatesOk (sampleServices false).policy s.store s.log := by
  let ms : List (Fin 1 × ProcessInput ℕ) := List.flatten
    [proposed 0 "a" .allow 0, proposed 0 "b" .allow 25, sentAt 0 "b" 30, sentAt 0 "a" 49]
  obtain ⟨s, hruns, hp⟩ := exists_runs (C := processCalls (sampleServices false))
    (s := newProcess 1 0) (fun _ _ => true) ms
    (fun s => sends (sampleServices false).policy s.log = [("b", 30), ("a", 49)] &&
      s.store.inbox.isEmpty) (by decide +kernel)
  rw [Bool.and_eq_true] at hp
  have hsends := of_decide_eq_true hp.1
  refine ⟨ms, s, hruns.mono fun _ _ _ => trivial, hsends, List.isEmpty_iff.mp hp.2, fun hok => ?_⟩
  have hbound := hok.bound 49
  rw [hsends] at hbound
  exact absurd hbound (by decide)

end TiramisuAgents
