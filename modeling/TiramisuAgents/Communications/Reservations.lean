import TiramisuAgents.Actions.Alignment
import TiramisuAgents.Communications.Rates

/-!
Reserved messages.

An outbound request reserves a message as long as it may still be sent or has been sent.  The
gateway counts the reservations under the lock of the process, and only the gateway adds one: a
request that has lost its reservation never gets it back (`Step.reserved_kept`), if the reviews
decide on the committed approval.  So the limits of the policy hold of the reservations in every
run, measured on the creation times, as long as these are not earlier than the clock that the
gateway counts with.

* `ProcessDatabase.Reserves`, `WithinLimits`: the reservations and their limits.
* `ProcessStep.reserves_cases`: a reservation is old, or that of the proposal.
* `reservation_bound`: every run with reviews that decide on the committed approval;
  `overbooked_by_review` is the run without.
-/

namespace TiramisuAgents

open Transactions

section

variable {P : Platform} {t t' : Stage} {x : CallInput} {db db' : Database}
  {obs : List ActionEvent}

lemma toRequest_reserved {a : ActionAttemptStatus} (ha : a.terminal = false) :
    a.toRequest.reserved = true := by
  cases a <;> first | rfl | cases ha

/-- **No step gives a reservation back**: a request was there before and is reserved only if it
was reserved, or it is the one of a proposal. -/
lemma Step.reserved_kept (h : Step P t x db t' db' obs) (hdb : db.Consistent P)
    (haligned : RowsAgree db) (ht : t.Follows P db) {row' : RequestRow}
    (hrow' : db'.request = some row') :
    (∃ row, db.request = some row ∧ row.actionType = row'.actionType ∧
      (row'.status.reserved = true → row.status.reserved = true)) ∨
    (db.request = none ∧ x = .answer (.check none) ∧
      ∃ p, t = .persistingLocked p ∧ row' = p.request) := by
  have same (hrow : db.request = some row') : ∃ row, db.request = some row ∧
      row.actionType = row'.actionType ∧
        (row'.status.reserved = true → row.status.reserved = true) :=
    ⟨row', hrow, rfl, id⟩
  -- the status is written over that of a reserved request
  have written {status : RequestRow → ActionRequestStatus}
      (hreserved : ∀ row, db.request = some row → row.status.reserved = true)
      (h : (db.request.map fun row => { row with status := status row }) = some row') :
      ∃ row, db.request = some row ∧ row.actionType = row'.actionType ∧
        (row'.status.reserved = true → row.status.reserved = true) := by
    obtain ⟨row, hrow, heq⟩ := Option.map_eq_some_iff.mp h
    exact ⟨row, hrow, by rw [← heq], fun _ => hreserved row hrow⟩
  have pending {key : String} {a : AttemptRow} (ha : db.attempts key = some a)
      (hpending : a.status.terminal = false) (row : RequestRow) (hrow : db.request = some row) :
      row.status.reserved = true := by
    obtain ⟨b, hstatus, hb⟩ := (haligned.tracks key a ha row hrow).of_pending hpending
    rw [hstatus]
    exact toRequest_reserved hb
  cases h with
  | insert revision key adapter =>
      refine .inl (written (fun row hrow => ?_) hrow')
      obtain ⟨hkeyed, -, hnew⟩ := ht.knows
      have hnone : ∀ key, db.attempts key = none := by
        intro key'
        by_contra hkey'
        rw [(hdb.keyed key' hkey').unique hkeyed] at hkey'
        exact hkey' hnew
      have hstanding := haligned.standing hnone row hrow
      obtain hallowed | happroved := ht.entitled.standing hdb
      · rw [← Option.some.inj (hallowed.symm.trans hstanding)]
        rfl
      · rw [← Option.some.inj (happroved.symm.trans hstanding)]
        rfl
  | reclaim revision key adapter attempt hpending =>
      exact .inl (written (pending ht.knows.2.2 hpending) hrow')
  | remark key attempt => exact .inl (written (pending ht.knows.1 ht.knows.2) hrow')
  | mark key attempt => exact .inl (written (pending ht.knows.1 ht.knows.2) hrow')
  | record key outcome attempt hpending =>
      exact .inl (written (pending ht.knows hpending) hrow')
  | resolve c attempt hopen =>
      refine .inl (written (pending ht.knows ?_) hrow')
      rcases hopen with hopen | hopen <;> rw [hopen] <;> rfl
  | review c target request write =>
      refine .inl (written (fun row hrow => ?_) hrow')
      rw [(haligned.waiting hdb ht.fresh.1 ht.fresh.2.1).2.2 row hrow]
      rfl
  | persist p =>
      have hrow' : db.request.getD p.request = row' := Option.some.inj hrow'
      cases hrequest : db.request with
      | none =>
          rw [hrequest, Option.getD_none] at hrow'
          exact .inr ⟨rfl, rfl, p, rfl, hrow'.symm⟩
      | some row =>
          rw [hrequest, Option.getD_some] at hrow'
          exact .inl ⟨row, rfl, by rw [hrow'], fun hreserved => by rwa [hrow']⟩
  | _ => exact .inl (same hrow')

end

section

variable {V : Type}

/-- The request reserves a message. -/
def ProcessDatabase.Reserves (policy : CommunicationPolicy) (w : ProcessDatabase V) (a : UUID) :
    Prop :=
  ∃ row, (w.actions a).request = some row ∧ row.actionType ∈ policy.outboundActionTypes ∧
    row.status.reserved = true

/-- The limits of the policy, for the reservations created in a set of instants, and with some
messages to spare. -/
def Bounded (policy : CommunicationPolicy) (w : ProcessDatabase V) (created : Time → Prop)
    (spare limit : ℕ) : Prop :=
  ∀ as : Finset UUID, (∀ a ∈ as, w.Reserves policy a ∧ created (w.requestCreatedAt a)) →
    as.card + spare ≤ limit

/-- The limits of the policy. -/
structure WithinLimits (policy : CommunicationPolicy) (w : ProcessDatabase V) : Prop where
  total : Bounded policy w (fun _ => True) 0 policy.maxOutboundMessagesPerProcess
  window : ∀ t, Bounded policy w (Windows.Within policy.outboundMessageWindow t) 0
    policy.maxOutboundMessagesPerWindow

/-- A proposal that has passed its safety check may reserve a message. -/
def ProcessStage.MayReserve (policy : CommunicationPolicy) (w : ProcessDatabase V) :
    ProcessStage V → Prop
  | .inspected a (.persistingLocked p) _ now none =>
      (w.actions a).request = none → p.action.actionType ∈ policy.outboundActionTypes →
        Bounded policy w (fun _ => True) 1 policy.maxOutboundMessagesPerProcess ∧
        Bounded policy w (fun t => now - policy.outboundMessageWindow < t) 1
          policy.maxOutboundMessagesPerWindow
  | _ => True

/-- A request is created no earlier than the clock of its safety check. -/
def ProcessStage.Timely (w : ProcessDatabase V) : ProcessStage V → Prop
  | .inspected a (.persistingLocked _) startedAt now _ =>
      (w.actions a).request = none → now ≤ startedAt
  | _ => True

variable {policy : CommunicationPolicy} {w w' : ProcessDatabase V} {created created' : Time → Prop}
  {spare limit : ℕ} {a : UUID} {now : Time}

/-- Fewer reservations are within the same limits. -/
lemma Bounded.mono (h : Bounded policy w created spare limit)
    (hold : ∀ b, w'.Reserves policy b → created' (w'.requestCreatedAt b) →
      w.Reserves policy b ∧ created (w.requestCreatedAt b)) :
    Bounded policy w' created' spare limit :=
  fun as has => h as fun b hb => hold b (has b hb).1 (has b hb).2

/-- One more reservation takes up the message to spare. -/
lemma Bounded.reserve (h : Bounded policy w created 1 limit)
    (hold : ∀ b, b ≠ a → w'.Reserves policy b → created' (w'.requestCreatedAt b) →
      w.Reserves policy b ∧ created (w.requestCreatedAt b)) :
    Bounded policy w' created' 0 limit := by
  intro as has
  have hrest : (as.erase a).card + 1 ≤ limit := by
    refine h (as.erase a) fun b hb => ?_
    obtain ⟨hne, hmem⟩ := Finset.mem_erase.mp hb
    exact hold b hne (has b hmem).1 (has b hmem).2
  have hcard := Finset.pred_card_le_card_erase (s := as) (a := a)
  omega

/-- The reservations that the safety check counts are all of them. -/
lemma bounded_of_count (hw : w.Listed) (p : Time → Bool)
    (h : (((w.reservedOutbound policy).map Prod.snd).filter p).length + spare ≤ limit) :
    Bounded policy w (fun t => p t = true) spare limit := by
  intro as has
  let counted := (w.reservedOutbound policy).filter fun r => p r.2
  have hsubset : as ⊆ (counted.map Prod.fst).toFinset := by
    intro a ha
    obtain ⟨⟨row, hrow, htype, hreserved⟩, hcreated⟩ := has a ha
    have hlisted : a ∈ w.requests := hw a (by simp [hrow])
    have hmem : (a, w.requestCreatedAt a) ∈ w.reservedOutbound policy :=
      ProcessDatabase.mem_reservedOutbound.mpr ⟨hlisted, rfl, row, hrow, htype, hreserved⟩
    have hcounted : (a, w.requestCreatedAt a) ∈ counted := List.mem_filter.mpr ⟨hmem, hcreated⟩
    exact List.mem_toFinset.mpr (List.mem_map_of_mem hcounted)
  have hcard : as.card ≤ counted.length := by
    have hle := (Finset.card_le_card hsubset).trans (List.toFinset_card_le _)
    rwa [List.length_map] at hle
  have hcount : counted.length = (((w.reservedOutbound policy).map Prod.snd).filter p).length := by
    rw [List.filter_map, List.length_map]
    rfl
  omega

/-- **The safety check of the gateway**: there is a message to spare. -/
lemma gatewayBlock_spare {isoformat : Time → String} {actionType : String} (hw : w.Listed)
    (hnew : (w.actions a).request = none) (htype : actionType ∈ policy.outboundActionTypes)
    (hpass : w.gatewayBlock isoformat policy now a actionType = none) :
    Bounded policy w (fun _ => True) 1 policy.maxOutboundMessagesPerProcess ∧
      Bounded policy w (fun t => now - policy.outboundMessageWindow < t) 1
        policy.maxOutboundMessagesPerWindow := by
  rw [ProcessDatabase.gatewayBlock] at hpass
  split at hpass
  · cases hpass
  rw [if_pos ⟨by simp [hnew], by simpa using htype⟩] at hpass
  obtain ⟨-, htotal, hwindow, -⟩ := allowed_iff.mp hpass
  refine ⟨?_, ?_⟩
  · have hall : Bounded policy w (fun _ => true = true) 1 policy.maxOutboundMessagesPerProcess :=
      bounded_of_count hw (fun _ => true)
        (by simpa [ProcessDatabase.communicationFacts] using htotal)
    exact hall.mono fun b hb _ => ⟨hb, rfl⟩
  · have hall : Bounded policy w (fun t => decide (now - policy.outboundMessageWindow < t) = true) 1
        policy.maxOutboundMessagesPerWindow :=
      bounded_of_count hw (fun t => now - policy.outboundMessageWindow < t)
        (by simpa [ProcessDatabase.communicationFacts] using hwindow)
    exact hall.mono fun b hb hcreated => ⟨hb, decide_eq_true hcreated⟩

end

section

variable {V : Type} [BEq V] {S : Services V} {t t' u : ProcessStage V} {x : ProcessInput V}
  {w w' : ProcessDatabase V} {obs : List (ProcessEvent V)}

variable (S) in
omit [BEq V] in
/-- What holds of every action when the reviews decide on the committed approval. -/
lemma alignedRule : EveryAction S (fun _ t db => t.Committed db)
    (fun a t db => t.Follows (S.on a) db) (fun a db => db.Consistent (S.on a) ∧ RowsAgree db) where
  joint a := alignedJoint (S.on a)
  idle _ db := ⟨Stage.committed_idle db, ⟨trivial, trivial, trivial, trivial⟩⟩
  setting _ status db := ⟨Stage.committed_setting status db, ⟨trivial, trivial, trivial, trivial⟩⟩

omit [BEq V] in
/-- The reservations after the rows of an action are written. -/
lemma reserves_put {policy : CommunicationPolicy} {a : UUID} {v v' : Stage} {y : Answer}
    {db : Database} {es : List ActionEvent} {startedAt : Time}
    (hmoved : next (S.on a) v (.answer y) (w.view a) = some (v', db, es))
    (hw : (w.view a).Consistent (S.on a) ∧ RowsAgree (w.view a))
    (hv : v.Follows (S.on a) (w.view a)) {b : UUID}
    (hb : (w.put a db startedAt).Reserves policy b) :
    (w.Reserves policy b ∧ (w.put a db startedAt).requestCreatedAt b = w.requestCreatedAt b) ∨
    (b = a ∧ (w.actions a).request = none ∧ y = .check none ∧
      (∃ p, v = .persistingLocked p ∧ p.action.actionType ∈ policy.outboundActionTypes) ∧
      (w.put a db startedAt).requestCreatedAt a = startedAt) := by
  obtain ⟨row', hrow', htype, hreserved⟩ := hb
  by_cases hab : b = a
  · subst hab
    rw [ProcessDatabase.put_actions_self] at hrow'
    obtain ⟨row, hrow, hsame, hkept⟩ | ⟨hnone, hx, p, rfl, rfl⟩ :=
      (Step.of_next hmoved).reserved_kept hw.1 hw.2 hv hrow'
    · have hold : (w.actions b).request = some row := hrow
      refine .inl ⟨⟨row, hold, hsame ▸ htype, hkept hreserved⟩, ?_⟩
      simp [ProcessDatabase.put, hold]
    · have hold : (w.actions b).request = none := hnone
      refine .inr ⟨rfl, hold, CallInput.answer.inj hx, ⟨p, rfl, htype⟩, ?_⟩
      simp [ProcessDatabase.put, hold, hrow']
  · rw [ProcessDatabase.put_actions_of_ne hab] at hrow'
    refine .inl ⟨⟨row', hrow', htype, hreserved⟩, ?_⟩
    simp only [ProcessDatabase.put]
    split_ifs
    · exact Function.update_of_ne hab _ _
    · rfl

/-- **A reservation is old, or that of the proposal**, which has passed its safety check. -/
lemma ProcessStep.reserves_cases (h : ProcessStep S t x w t' w' obs)
    (hw : ∀ a, (w.view a).Consistent (S.on a) ∧ RowsAgree (w.view a))
    (ht : t.On (fun a v db => v.Follows (S.on a) db) w) (policy : CommunicationPolicy) (b : UUID)
    (hb : w'.Reserves policy b) :
    (w.Reserves policy b ∧ w'.requestCreatedAt b = w.requestCreatedAt b) ∨
    ∃ p startedAt now, t = .inspected b (.persistingLocked p) startedAt now none ∧
      (w.actions b).request = none ∧ p.action.actionType ∈ policy.outboundActionTypes ∧
      w'.requestCreatedAt b = startedAt := by
  cases h with
  | act a v v' startedAt y db es hopen hmoved =>
      obtain hold | ⟨rfl, -, -, ⟨p, rfl, -⟩, -⟩ := reserves_put hmoved (hw a) ht hb
      · exact .inl hold
      · cases hopen
  | gate a revision key row v' startedAt now block breakers db es hmoved =>
      obtain hold | ⟨-, -, -, ⟨p, hv, -⟩, -⟩ := reserves_put hmoved (hw a) ht hb
      · exact .inl hold
      · cases hv
  | propose a p v' startedAt now block error db es hmoved =>
      obtain hold | ⟨rfl, hnone, hy, ⟨p', hv, htype⟩, hcreated⟩ := reserves_put hmoved (hw a) ht hb
      · exact .inl hold
      · obtain rfl := Stage.persistingLocked.inj hv
        cases block with
        | some block => cases hy
        | none => exact .inr ⟨p, startedAt, now, rfl, hnone, htype, hcreated⟩
  | _ => exact .inl ⟨hb, rfl⟩

/-- A request is not deleted. -/
lemma ProcessStep.request_stays (h : ProcessStep S t x w t' w' obs) (ht : t.Exposed) {a : UUID}
    (ha : (w'.actions a).request = none) : (w.actions a).request = none := by
  cases hrow : (w.actions a).request with
  | none => rfl
  | some row =>
      have hrow : (w.view a).request = some row := hrow
      have hnone : (w'.view a).request = none := ha
      obtain ⟨v, y, v', obs', hnext, -⟩ | ⟨-, hview, -⟩ | hview := h.action_cases ht a
      · obtain ⟨row', hrow', -⟩ := (Step.of_next hnext).grows.request row hrow
        exact absurd (hnone.symm.trans hrow') (by simp)
      · rw [hview] at hnone
        exact absurd (hnone.symm.trans hrow) (by simp)
      · rw [hview] at hnone
        exact absurd (hnone.symm.trans hrow) (by simp)

/-- **The limits are kept**, if the request of a proposal is created in time. -/
lemma ProcessStep.withinLimits (h : ProcessStep S t x w t' w' obs)
    (hw : ∀ a, (w.view a).Consistent (S.on a) ∧ RowsAgree (w.view a))
    (ht : t.On (fun a v db => v.Follows (S.on a) db) w) (htimely : t.Timely w)
    (hmay : t.MayReserve S.policy w) (hok : WithinLimits S.policy w) :
    WithinLimits S.policy w' := by
  have hcases := h.reserves_cases hw ht S.policy
  by_cases hnew : ∃ a p startedAt now, t = .inspected a (.persistingLocked p) startedAt now none ∧
      (w.actions a).request = none ∧ p.action.actionType ∈ S.policy.outboundActionTypes
  · obtain ⟨a, p, startedAt, now, rfl, hnone, htype⟩ := hnew
    obtain ⟨htotal, hwindow⟩ := hmay hnone htype
    have hclock := htimely hnone
    have hother (b : UUID) (hne : b ≠ a) (hb : w'.Reserves S.policy b) :
        w.Reserves S.policy b ∧ w'.requestCreatedAt b = w.requestCreatedAt b := by
      obtain hold | ⟨p', startedAt', now', hstage, -⟩ := hcases b hb
      · exact hold
      · rw [ProcessStage.inspected.injEq] at hstage
        exact absurd hstage.1.symm hne
    refine ⟨htotal.reserve fun b hne hb _ => ⟨(hother b hne hb).1, trivial⟩, fun t => ?_⟩
    intro as has
    by_cases ha : a ∈ as
    · -- the window that holds the new request holds no older one than the safety check has counted
      obtain ⟨hreserves, hlow, hhigh⟩ := has a ha
      have hcreated : w'.requestCreatedAt a = startedAt := by
        obtain ⟨⟨row, hrow, -⟩, -⟩ | ⟨p', startedAt', now', hstage, -, -, hcreated⟩ :=
          hcases a hreserves
        · exact absurd (hnone.symm.trans hrow) (by simp)
        · rw [ProcessStage.inspected.injEq] at hstage
          rw [hcreated, hstage.2.2.1]
      refine Bounded.reserve (a := a) hwindow (fun b hne hb hin => ?_) as has
      obtain ⟨hold, hsame⟩ := hother b hne hb
      refine ⟨hold, ?_⟩
      rw [hcreated] at hhigh
      rw [← hsame]
      have hstart : now - S.policy.outboundMessageWindow ≤ t - S.policy.outboundMessageWindow :=
        Int.sub_le_sub_right (hclock.trans hhigh) _
      exact hstart.trans_lt hin.1
    · refine hok.window t as fun b hb => ?_
      obtain ⟨hreserves, hin⟩ := has b hb
      obtain ⟨hold, hsame⟩ := hother b (fun heq => ha (heq ▸ hb)) hreserves
      exact ⟨hold, hsame ▸ hin⟩
  · have hold (b : UUID) (hb : w'.Reserves S.policy b) :
        w.Reserves S.policy b ∧ w'.requestCreatedAt b = w.requestCreatedAt b := by
      obtain hold | ⟨p, startedAt, now, hstage, hnone, htype, -⟩ := hcases b hb
      · exact hold
      · exact absurd ⟨b, p, startedAt, now, hstage, hnone, htype⟩ hnew
    refine ⟨hok.total.mono fun b hb _ => ⟨(hold b hb).1, trivial⟩, fun t => ?_⟩
    exact (hok.window t).mono fun b hb hin => ⟨(hold b hb).1, (hold b hb).2 ▸ hin⟩

/-- What the gateway knows after its safety check. -/
lemma ProcessStep.mayReserve (h : ProcessStep S t x w t' w' obs) (hw : w.Listed) :
    t'.MayReserve S.policy w' := by
  cases h with
  | halt hended => obtain rfl | ⟨o, rfl⟩ := hended <;> trivial
  | start c => cases c <;> trivial
  | inspect a v startedAt now block hchecked =>
      cases v with
      | persistingLocked p =>
          cases block with
          | none =>
              intro hnew htype
              have hpass : w.gatewayBlock S.isoformat S.policy now a p.action.actionType = none :=
                Except.ok.inj (Option.some.inj hchecked)
              exact gatewayBlock_spare hw hnew htype hpass
          | some block => trivial
      | _ => trivial
  | _ => trivial

/-- It stays so, since the gateway holds the process. -/
lemma ProcessStep.mayReserve_other (h : ProcessStep S t x w t' w' obs) (hexposed : t.Exposed)
    (hw : ∀ a, (w.view a).Consistent (S.on a) ∧ RowsAgree (w.view a))
    (ht : t.On (fun a v db => v.Follows (S.on a) db) w) (hlocks : ∀ l ∈ u.locks, l ∉ t.locks)
    (hu : u.MayReserve S.policy w) : u.MayReserve S.policy w' := by
  cases u with
  | inspected a v startedAt now block =>
      cases v with
      | persistingLocked p =>
          cases block with
          | none =>
              intro hnew htype
              have hprocess : ProcessLock.process ∉ t.locks :=
                hlocks _ (List.mem_map.mpr ⟨.process, by simp [Stage.locks], rfl⟩)
              have hold (b : UUID) (hb : w'.Reserves S.policy b) :
                  w.Reserves S.policy b ∧ w'.requestCreatedAt b = w.requestCreatedAt b := by
                obtain hold | ⟨p', startedAt', now', rfl, -⟩ := h.reserves_cases hw ht S.policy b hb
                · exact hold
                · refine absurd (List.mem_map.mpr ⟨RowLock.process, ?_, rfl⟩) hprocess
                  simp [Stage.locks]
              obtain ⟨htotal, hwindow⟩ := hu (h.request_stays hexposed hnew) htype
              exact ⟨htotal.mono fun b hb _ => ⟨(hold b hb).1, trivial⟩,
                hwindow.mono fun b hb hin => ⟨(hold b hb).1, (hold b hb).2 ▸ hin⟩⟩
          | some block => trivial
      | _ => trivial
  | _ => trivial

variable (S) in
/-- The rule for runs in which the reviews decide on the committed approval, and the creation
times are not behind the clock. -/
lemma reservationJoint : Joint (processCalls S)
    (fun t _ w _ => t.On (fun _ v db => v.Committed db) w ∧ t.Timely w) (fun _ _ _ _ => True)
    (fun w _ => (∀ a, (w.view a).Consistent (S.on a) ∧ RowsAgree (w.view a)) ∧ w.Listed ∧
      WithinLimits S.policy w)
    (fun t w _ => (t.Exposed ∧ t.On (fun a v db => v.Follows (S.on a) db) w) ∧
      t.MayReserve S.policy w) where
  own hnext hB hcommon hcall := by
    have h := ProcessStep.of_advance hnext
    obtain ⟨hw, hlisted, hok⟩ := hcommon
    obtain ⟨⟨hexposed, hfollows⟩, hmay⟩ := hcall
    exact ⟨⟨h.every_action (alignedRule S) hexposed hB.1 hw hfollows, h.listed hlisted,
        h.withinLimits hw hfollows hB.2 hmay hok⟩,
      ⟨h.exposed hexposed, h.on_own (alignedRule S) hexposed hB.1 hw hfollows⟩,
      h.mayReserve hlisted⟩
  other hnext hB _ hlocks hcommon hcall hu := by
    have h := ProcessStep.of_advance hnext
    obtain ⟨hw, -⟩ := hcommon
    obtain ⟨⟨hexposed, hfollows⟩, -⟩ := hcall
    obtain ⟨⟨hexposedu, hfollowsu⟩, hmayu⟩ := hu
    exact ⟨⟨hexposedu, h.on_other (alignedRule S) hexposed hB.1 hlocks hw hfollows hfollowsu⟩,
      h.mayReserve_other hexposed hw hfollows hlocks hmayu⟩

/-! ### Runs -/

variable {n : ℕ} {createdAt : Time}
  {s : Pool n (ProcessDatabase V) (ProcessStage V) (ProcessEvent V)}
  {ms : List (Fin n × ProcessInput V)}

omit [BEq V] in
/-- A request is created no earlier than the clock of its safety check. -/
def TimelyStep (s : Pool n (ProcessDatabase V) (ProcessStage V) (ProcessEvent V))
    (m : Fin n × ProcessInput V) : Prop :=
  (s.calls m.1).Timely s.store

omit [BEq V] in
/-- The step is none of a review that has loaded another approval than the committed one. -/
def CommittedApproval (s : Pool n (ProcessDatabase V) (ProcessStage V) (ProcessEvent V))
    (m : Fin n × ProcessInput V) : Prop :=
  (s.calls m.1).On (fun _ t db => t.Committed db) s.store

/-- **The reservation bound.**  In every run in which the reviews decide on the committed
approval, and requests are created no earlier than the clock of their safety checks: the reserved
requests are at most as many as the policy allows for a process, and those that were created in
one window are at most as many as it allows for a window. -/
theorem reservation_bound
    (h : Runs (processCalls S) (fun s m => CommittedApproval s m ∧ TimelyStep s m)
      (newProcess n createdAt) ms s)
    (as : Finset UUID) (has : ∀ a ∈ as, s.store.Reserves S.policy a) :
    as.card ≤ S.policy.maxOutboundMessagesPerProcess ∧
    ∀ t, (∀ a ∈ as, Windows.Within S.policy.outboundMessageWindow t (s.store.requestCreatedAt a)) →
      as.card ≤ S.policy.maxOutboundMessagesPerWindow := by
  have none_reserves (a : UUID) :
      ¬ (newProcess n createdAt : Pool n (ProcessDatabase V) _ _).store.Reserves S.policy a := by
    rintro ⟨row, hrow, -⟩
    cases hrow
  have empty (created : Time → Prop) (limit : ℕ) : Bounded S.policy
      (newProcess n createdAt : Pool n (ProcessDatabase V) _ _).store created 0 limit := by
    intro as has
    rw [Finset.eq_empty_of_forall_notMem fun a ha => none_reserves a (has a ha).1]
    exact Nat.zero_le _
  obtain ⟨-, -, htotal, hwindow⟩ := ((reservationJoint S).runs (fun _ _ _ hG => hG)
    (fun _ _ _ _ _ _ => trivial) h (newProcess_holds S n createdAt
      ⟨fun a => ⟨consistent_fresh (S.on a) .active, aligned_fresh .active⟩, fun a h => absurd rfl h,
        empty _ _, fun _ => empty _ _⟩ ⟨⟨trivial, trivial⟩, trivial⟩)).common
  exact ⟨htotal as fun a ha => ⟨has a ha, trivial⟩,
    fun t hin => hwindow t as fun a ha => ⟨has a ha, hin a ha⟩⟩

end

/-- A computed check of `TimelyStep`, and of `CommittedApproval` where there is no review. -/
def timelyStep (reviews : Bool) {n : ℕ}
    (s : Pool n (ProcessDatabase ℕ) (ProcessStage ℕ) (ProcessEvent ℕ))
    (m : Fin n × ProcessInput ℕ) : Bool :=
  match s.calls m.1 with
  | .action _ (.reviewing _ _) _ => reviews
  | .inspected _ (.persistingLocked _) startedAt now _ => now ≤ startedAt
  | .inspected _ _ _ _ _ => reviews
  | _ => true

lemma timelyStep_sound {reviews : Bool} {n : ℕ}
    {s : Pool n (ProcessDatabase ℕ) (ProcessStage ℕ) (ProcessEvent ℕ)}
    {m : Fin n × ProcessInput ℕ} (h : timelyStep reviews s m = true) : TimelyStep s m := by
  rw [timelyStep] at h
  rw [TimelyStep]
  cases hstage : s.calls m.1 with
  | inspected a v startedAt now block =>
      rw [hstage] at h
      cases v with
      | persistingLocked p => exact fun _ => of_decide_eq_true h
      | _ => trivial
  | _ => trivial

lemma committedApproval_of_timelyStep {n : ℕ}
    {s : Pool n (ProcessDatabase ℕ) (ProcessStage ℕ) (ProcessEvent ℕ)}
    {m : Fin n × ProcessInput ℕ} (h : timelyStep false s m = true) : CommittedApproval s m := by
  rw [timelyStep] at h
  rw [CommittedApproval]
  cases hstage : s.calls m.1 with
  | action a v startedAt =>
      rw [hstage] at h
      intro c target existing hv
      rw [hv] at h
      cases h
  | inspected a v startedAt now block =>
      rw [hstage] at h
      intro c target existing hv
      rw [hv] at h
      cases h
  | _ => trivial

/-- A computed check of `ProcessDatabase.Reserves`. -/
def reserves (policy : CommunicationPolicy) (w : ProcessDatabase ℕ) (a : UUID) : Bool :=
  (w.actions a).request.any fun row =>
    policy.outboundActionTypes.contains row.actionType && row.status.reserved

lemma reserves_sound {policy : CommunicationPolicy} {w : ProcessDatabase ℕ} {a : UUID}
    (h : reserves policy w a = true) : w.Reserves policy a := by
  obtain ⟨row, hrow, h⟩ := (Option.any_eq_true _ _).mp h
  rw [Bool.and_eq_true, List.contains_iff_mem] at h
  exact ⟨row, hrow, h.1, h.2⟩

/-- Two messages that are reserved a window apart. -/
theorem reservation_bound_twice :
    ∃ (ms : List (Fin 1 × ProcessInput ℕ))
      (s : Pool 1 (ProcessDatabase ℕ) (ProcessStage ℕ) (ProcessEvent ℕ)),
    Runs (processCalls (sampleServices false)) (fun s m => CommittedApproval s m ∧ TimelyStep s m)
      (newProcess 1 0) ms s ∧
    (∀ a ∈ ({"a", "b"} : Finset UUID), s.store.Reserves (sampleServices false).policy a) ∧
    ({"a", "b"} : Finset UUID).card
      ≤ (sampleServices false).policy.maxOutboundMessagesPerProcess ∧
    ∀ t, (∀ a ∈ ({"a", "b"} : Finset UUID), Windows.Within
        (sampleServices false).policy.outboundMessageWindow t (s.store.requestCreatedAt a)) →
      ({"a", "b"} : Finset UUID).card
        ≤ (sampleServices false).policy.maxOutboundMessagesPerWindow := by
  let ms : List (Fin 1 × ProcessInput ℕ) := proposed 0 "a" .allow 0 ++ proposed 0 "b" .allow 30
  obtain ⟨s, hruns, hp⟩ := exists_runs (C := processCalls (sampleServices false))
    (s := newProcess 1 0) (timelyStep false) ms
    (fun s => reserves (sampleServices false).policy s.store "a" &&
      reserves (sampleServices false).policy s.store "b") (by decide +kernel)
  have h := hruns.mono fun s m hm =>
    (⟨committedApproval_of_timelyStep hm, timelyStep_sound hm⟩ : CommittedApproval s m ∧ _)
  rw [Bool.and_eq_true] at hp
  have has : ∀ a ∈ ({"a", "b"} : Finset UUID),
      s.store.Reserves (sampleServices false).policy a := by
    intro a ha
    rw [Finset.mem_insert, Finset.mem_singleton] at ha
    obtain rfl | rfl := ha
    · exact reserves_sound hp.1
    · exact reserves_sound hp.2
  exact ⟨ms, s, h, has, reservation_bound h _ has⟩

/-- A revision of the first message is requested, so it is not reserved, and a second one is;
then a review that was read before approves the first one, where one message a day is allowed. -/
theorem overbooked_by_review :
    ∃ (ms : List (Fin 2 × ProcessInput ℕ))
      (s : Pool 2 (ProcessDatabase ℕ) (ProcessStage ℕ) (ProcessEvent ℕ)),
    Runs (processCalls (sampleServices false)) TimelyStep (newProcess 2 0) ms s ∧
    (sampleServices false).policy.maxOutboundMessagesPerWindow = 1 ∧
    ∀ a ∈ ({"a", "b"} : Finset UUID), s.store.Reserves (sampleServices false).policy a ∧
      Windows.Within (sampleServices false).policy.outboundMessageWindow 1
        (s.store.requestCreatedAt a) := by
  let read : List (ProcessAnswer ℕ) := [.action .go, .action .go, .action (.check none)]
  let take : List (ProcessAnswer ℕ) := [.action .go, .action (.time 0), .action (.check none)]
  let ms : List (Fin 2 × ProcessInput ℕ) := List.flatten
    [proposed 0 "a" .requireApproval 0,
      processMoves 0 0 (.action "a" (.review (sampleReview "c" .approve))) read,
      processMoves 1 0 (.action "a" (.review (sampleReview "d" .requestRevision))) (read ++ take),
      proposed 1 "b" .allow 1, take.map fun x => (0, .answer x)]
  obtain ⟨s, hruns, hp⟩ := exists_runs (C := processCalls (sampleServices false))
    (s := newProcess 2 0) (timelyStep true) ms
    (fun s => ["a", "b"].all fun a => reserves (sampleServices false).policy s.store a &&
      decide (Windows.Within (sampleServices false).policy.outboundMessageWindow 1
        (s.store.requestCreatedAt a))) (by decide +kernel)
  refine ⟨ms, s, hruns.mono fun _ _ => timelyStep_sound, rfl, fun a ha => ?_⟩
  have ha : a ∈ ["a", "b"] := by simpa using ha
  have hboth := List.all_eq_true.mp hp a ha
  rw [Bool.and_eq_true] at hboth
  exact ⟨reserves_sound hboth.1, of_decide_eq_true hboth.2⟩

end TiramisuAgents
