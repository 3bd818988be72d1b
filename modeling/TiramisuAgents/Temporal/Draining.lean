import TiramisuAgents.Temporal.Delivery

/-!
The outbox when one dispatcher is left alone.

Whatever has happened before, whoever has stopped and whichever claims are stale: a dispatcher that
claims when everything is available can always go on, and after a bounded number of moves none of
its messages waits.  Each of them is published then, or is a dead letter, and then `start_workflow`
has failed.

* `Dispatcher.waits`, `Dispatcher.left`, `Dispatcher.work`: the messages that are to be delivered,
  and the claims that they take at most.
* `CallInput.Undisturbed`, `Alone`: the moves of a dispatcher that is left alone.
* `Lone`, `Lone.of_next`: what these moves do; `Lone.paid`: what they cost.
* `Draining`: what holds after such moves.
* `outbox_drains`: every run.
-/

namespace TiramisuAgents.Temporal

open Events Tables Transactions

/-! ### Work -/

namespace Dispatcher

variable (d : Dispatcher)

/-- A message of the dispatcher is still to be delivered. -/
def waits (m : OutboxMessage) : Bool :=
  m.processInstanceId.any (· ∈ d.processes) && m.messageType ∈ temporalMessageTypes &&
    (m.status = .pending || m.status = .publishing)

/-- The claims that a message takes at most: one, and otherwise those up to the limit. -/
def left (m : OutboxMessage) : ℕ :=
  if d.waits m then max 1 (d.maxAttempts - m.attemptCount).toNat else 0

/-- The claims that the messages take at most. -/
def work (db : Database) : ℕ := (db.outbox.map d.left).sum

/-- Everything is available, and every claim is stale. -/
def Late (now : Time) (db : Database) : Prop :=
  ∀ m ∈ db.outbox, m.availableAt ≤ now ∧ m.claimedAt.all (· < now - d.staleClaimAfter) = true

end Dispatcher

lemma earliest_eq_none {rows : List OutboxMessage} (h : earliest rows = none) : rows = [] := by
  cases rows with
  | nil => rfl
  | cons m rest =>
      rw [earliest] at h
      split at h
      · cases h
      · split_ifs at h

section

variable {d : Dispatcher} {db db' : Database} {m : OutboxMessage} {c : ClaimedMessage} {now : Time}

lemma one_le_left (h : d.waits m = true) : 1 ≤ d.left m := by
  rw [Dispatcher.left, if_pos h]
  exact le_max_left _ _

lemma left_eq_zero (h : d.waits m = false) : d.left m = 0 := by
  rw [Dispatcher.left, h, if_neg Bool.false_ne_true]

lemma left_le_work (h : m ∈ db.outbox) : d.left m ≤ d.work db :=
  List.single_le_sum (fun _ _ => Nat.zero_le _) _ (List.mem_map_of_mem h)

lemma waits_of_eligible (h : d.eligible now m = true) : d.waits m = true := by
  simp only [Dispatcher.eligible, Bool.and_eq_true, Bool.or_eq_true] at h
  simp only [Dispatcher.waits, Bool.and_eq_true, Bool.or_eq_true]
  exact ⟨h.1.1, h.2.imp_right And.left⟩

/-- What waits is eligible once it is late. -/
lemma eligible_of_waits {log : List DeliveryEvent} (hrow : Delivery log m) (h : d.waits m = true)
    (havailable : m.availableAt ≤ now)
    (hstale : m.claimedAt.all (· < now - d.staleClaimAfter) = true) :
    d.eligible now m = true := by
  simp only [Dispatcher.waits, Bool.and_eq_true, Bool.or_eq_true, decide_eq_true_eq] at h
  simp only [Dispatcher.eligible, Bool.and_eq_true, Bool.or_eq_true, decide_eq_true_eq]
  refine ⟨⟨h.1, havailable⟩, h.2.imp_right fun hpublishing => ⟨hpublishing, ?_⟩⟩
  obtain ⟨-, hclaimed, -⟩ | ⟨hother, -⟩ := hrow.claim
  · obtain ⟨t, ht⟩ := Option.ne_none_iff_exists'.mp hclaimed
    rw [ht, Option.all_some] at hstale
    rwa [ht, Option.any_some]
  · exact absurd hpublishing hother

/-- There is always a time that is late enough. -/
lemma exists_late (d : Dispatcher) (db : Database) : ∃ now, d.Late now db := by
  let bound (m : OutboxMessage) : Time :=
    max m.availableAt (m.claimedAt.elim 0 fun t => t + d.staleClaimAfter + 1)
  obtain ⟨now, hnow⟩ := (db.outbox.map bound).toFinset.exists_le
  refine ⟨now, fun m hm => ?_⟩
  have hbound : bound m ≤ now := hnow _ (List.mem_toFinset.mpr (List.mem_map_of_mem hm))
  refine ⟨(le_max_left _ _).trans hbound, ?_⟩
  have hmax : m.claimedAt.elim 0 (fun t => t + d.staleClaimAfter + 1) ≤ now :=
    (le_max_right _ _).trans hbound
  cases hclaimed : m.claimedAt with
  | none => rfl
  | some t =>
      rw [hclaimed, Option.elim_some] at hmax
      rw [Option.all_some, decide_eq_true_eq]
      exact lt_sub_iff_add_lt.mpr (Int.lt_iff_add_one_le.mpr hmax)

lemma waits_claimRow {token : UUID} (h : d.waits m = true) :
    d.waits (claimRow now token m) = true := by
  simp only [Dispatcher.waits, Bool.and_eq_true, Bool.or_eq_true] at h ⊢
  exact ⟨h.1, .inr (decide_eq_true rfl)⟩

/-- A claim takes one of the claims that are left, or it is the last one. -/
lemma left_claimRow (now : Time) (token : UUID) (h : d.waits m = true) :
    d.left (claimRow now token m) + 1
      ≤ d.left m + if d.maxAttempts ≤ (m.attemptCount + 1 : ℕ) then 1 else 0 := by
  rw [Dispatcher.left, if_pos (waits_claimRow h), Dispatcher.left, if_pos h]
  simp only [claimRow]
  split_ifs <;> omega

lemma waits_publishRow : d.waits (publishRow now m) = false := by
  simp [Dispatcher.waits, publishRow]

lemma waits_failRow (c : ClaimedMessage) (error : String) (now later : Time)
    (h : d.waits m = true) :
    d.waits (d.failRow c error now later m) = !d.terminal c := by
  simp only [Dispatcher.waits, Bool.and_eq_true] at h
  cases hterminal : d.terminal c with
  | true => simp [Dispatcher.waits, Dispatcher.failRow, hterminal]
  | false => simpa [Dispatcher.waits, Dispatcher.failRow, hterminal] using h.1

end

/-! ### Moves -/

/-- A move of a call of the dispatcher that nothing disturbs: it does not stop, its tenant is its
own, and it claims when everything is available and no other transaction holds a row. -/
def CallInput.Undisturbed (d : Dispatcher) (db : Database) : CallInput → Prop
  | .call c => c = .dispatchOne d
  | .answer (.claim now locked _) => locked = [] ∧ d.Late now db
  | .answer .started | .answer (.startFailed _ _) | .answer (.times _ _) => True
  | _ => False

instance (d : Dispatcher) (db : Database) : DecidablePred (CallInput.Undisturbed d db)
  | .call c => inferInstanceAs (Decidable (c = .dispatchOne d))
  | .answer (.claim _ locked _) =>
      inferInstanceAs (Decidable (locked = [] ∧ ∀ m ∈ db.outbox, _ ∧ _))
  | .answer .started | .answer (.startFailed _ _) | .answer (.times _ _) =>
      inferInstanceAs (Decidable True)
  | .answer .go | .answer (.check _) | .crash => inferInstanceAs (Decidable False)

/-- Only one call moves, and nothing disturbs it. -/
def Alone {n : ℕ} (i : Fin n) (d : Dispatcher) (s : Pool n Database Stage DeliveryEvent)
    (m : Fin n × CallInput) : Prop :=
  m.1 = i ∧ m.2.Undisturbed d s.store

instance {n : ℕ} (i : Fin n) (d : Dispatcher) (s : Pool n Database Stage DeliveryEvent) :
    DecidablePred (Alone i d s) := fun _ => inferInstanceAs (Decidable (_ ∧ _))

/-- The row of a claim is as it was claimed. -/
def Holding (d : Dispatcher) (db : Database) (c : ClaimedMessage) : Prop :=
  ∃ m ∈ db.outbox, m.id = c.id ∧ c.holds m = true ∧ d.waits m = true

/-- Where a dispatcher stands that is left alone. -/
def Stage.Works (d : Dispatcher) (db : Database) : Stage → Prop
  | .idle | .ended _ => True
  | .claiming d' => d' = d
  | .claimed d' c | .delivered d' c | .failed d' c _ => d' = d ∧ Holding d db c
  | _ => False

/-- The last claim of a message is on its way. -/
def Stage.credit (d : Dispatcher) (t : Stage) : ℕ :=
  if t.claim.any d.terminal then 1 else 0

/-- The moves to the end of a call, and to the next claim. -/
def Stage.phase : Stage → ℕ
  | .claiming _ => 0
  | .claimed _ _ => 3
  | .delivered _ _ | .failed _ _ _ => 2
  | _ => 1

/-- A claim is observed. -/
def DeliveryEvent.isClaim : DeliveryEvent → Bool
  | .claimed _ _ _ => true
  | _ => false

/-- A move of a dispatcher that is left alone. -/
inductive Lone (d : Dispatcher) : Stage → CallInput → Database → Stage → Database →
    List DeliveryEvent → Prop
  | call {t : Stage} {db : Database} (resting : t.resting = true) :
      Lone d t (.call (.dispatchOne d)) db (.claiming d) db []
  | empty {db : Database} (now : Time) (token : UUID) (late : d.Late now db)
      (nothing : db.claimable d now [] = none) :
      Lone d (.claiming d) (.answer (.claim now [] token)) db
        (.ended (.dispatched .empty none none)) db []
  | claim {db : Database} (now : Time) (token processId : UUID) (m : OutboxMessage)
      (found : db.claimable d now [] = some m) :
      Lone d (.claiming d) (.answer (.claim now [] token)) db
        (.claimed d ⟨m.id, processId, m.messageType, m.destination, m.payload, m.attemptCount + 1,
          token⟩)
        { db with outbox := modify OutboxMessage.id m.id (claimRow now token) db.outbox }
        [.claimed d m.id token]
  | deliver {db : Database} (c : ClaimedMessage) (signal : Signal) :
      Lone d (.claimed d c) (.answer .started) db (.delivered d c) db
        [.taken c.destination signal, .started c.id c.destination signal]
  | refuse {db : Database} (c : ClaimedMessage) (error : String) (taken : Bool)
      (obs : List DeliveryEvent) (quiet : obs.countP DeliveryEvent.isClaim = 0) :
      Lone d (.claimed d c) (.answer (.startFailed error taken)) db (.failed d c error) db obs
  | complete {db : Database} (c : ClaimedMessage) (now later : Time) :
      Lone d (.delivered d c) (.answer (.times now later)) db
        (.ended (.dispatched .published (some c.id) none))
        { db with outbox := modify OutboxMessage.id c.id (publishRow now) db.outbox } []
  | fail {db : Database} (c : ClaimedMessage) (error : String) (now later : Time) (o : Outcome) :
      Lone d (.failed d c error) (.answer (.times now later)) db (.ended o)
        { db with
          outbox := modify OutboxMessage.id c.id (d.failRow c error now later) db.outbox } []

section

variable {d : Dispatcher} {t t' : Stage} {x : CallInput} {db db' : Database}
  {log obs : List DeliveryEvent} {c : ClaimedMessage}

/-- The update of the row of a claim that is held. -/
lemma Holding.update (h : Holding d db c) (f : OutboxMessage → OutboxMessage) :
    db.update c f = some { db with outbox := modify OutboxMessage.id c.id f db.outbox } := by
  obtain ⟨m, hm, -, hholds, -⟩ := h
  rw [Database.update, if_pos (List.any_eq_true.mpr ⟨m, hm, hholds⟩)]

/-- The last claim of a message is paid for by its row. -/
lemma Stage.credit_le {m : OutboxMessage} (h : d.waits m = true) (t : Stage) :
    t.credit d ≤ d.left m := by
  have hone := one_le_left h
  rw [Stage.credit]
  split_ifs <;> omega

lemma Stage.credit_le_work (ht : t.Works d db) : t.credit d ≤ d.work db := by
  cases t with
  | claimed | delivered | failed =>
      obtain ⟨-, m, hm, -, -, hwaits⟩ := ht
      exact (credit_le hwaits _).trans (left_le_work hm)
  | _ => exact Nat.zero_le _

/-- A call that rests has no claim, and its next move is a call. -/
lemma Stage.at_rest (d : Dispatcher) (db : Database) (ht : t.resting = true) :
    t.Works d db ∧ t.credit d = 0 ∧ t.phase = 1 ∧ ∀ c error, t ≠ .failed d c error := by
  cases t with
  | idle | ended => exact ⟨trivial, rfl, rfl, fun _ _ h => by cases h⟩
  | _ => cases ht

namespace Lone

lemma of_claimOne {token : UUID} {now : Time} (hlate : d.Late now db)
    (h : claimOne d now [] token db = some (t', db', obs)) :
    Lone d (.claiming d) (.answer (.claim now [] token)) db t' db' obs := by
  rw [claimOne] at h
  split at h
  · rename_i hnone
    cases h
    exact .empty now token hlate hnone
  · rename_i m hfound
    split at h
    · rename_i hprocess
      obtain ⟨-, heligible⟩ := claimable_mem hfound
      simp [Dispatcher.eligible, hprocess] at heligible
    · rename_i processId hprocess
      cases h
      exact .claim now token processId m hfound

/-- What a move does. -/
lemma of_next (h : next t x db = some (t', db', obs)) (ht : t.Works d db)
    (hx : x.Undisturbed d db) : Lone d t x db t' db' obs := by
  cases x with
  | call c' =>
      cases hx
      rw [next] at h
      split_ifs at h with hresting
      cases h
      exact .call hresting
  | crash => exact hx.elim
  | answer y =>
      rw [next] at h
      cases t with
      | claiming d' =>
          cases ht
          cases y with
          | claim now locked token =>
              obtain ⟨rfl, hlate⟩ := hx
              exact of_claimOne hlate h
          | check => exact hx.elim
          | _ => cases h
      | claimed d' c =>
          obtain ⟨rfl, -⟩ := ht
          rw [Stage.statement] at h
          unfold Temporal.deliver at h
          split at h
          · exact hx.elim
          · cases h
            exact .deliver c _
          · rename_i taken _
            cases h
            refine .refuse c _ taken _ ?_
            cases taken <;> rfl
          · cases h
      | delivered d' c =>
          obtain ⟨rfl, hheld⟩ := ht
          cases y with
          | times now later =>
              rw [Stage.statement, Temporal.complete, hheld.update] at h
              cases h
              exact .complete c now later
          | _ => cases h
      | failed d' c error =>
          obtain ⟨rfl, hheld⟩ := ht
          cases y with
          | times now later =>
              rw [Stage.statement, recordFailure, hheld.update] at h
              cases h
              exact .fail c error now later _
          | _ => cases h
      | idle => cases h
      | ended => cases h
      | _ => exact ht.elim

/-- The dispatcher goes on with what it has claimed. -/
lemma works (h : Lone d t x db t' db' obs) (ht : t.Works d db) : t'.Works d db' := by
  cases h with
  | call => rfl
  | empty => trivial
  | claim now token processId m found =>
      obtain ⟨hm, heligible⟩ := claimable_mem found
      refine ⟨rfl, claimRow now token m, mem_modify.mpr (.inl ⟨m, hm, rfl, rfl⟩), rfl, ?_,
        waits_claimRow (waits_of_eligible heligible)⟩
      simp [ClaimedMessage.holds, claimRow]
  | deliver => exact ht
  | refuse => exact ht
  | complete => trivial
  | fail => trivial

/-- The claims are paid for by the work. -/
lemma spent (h : Lone d t x db t' db' obs) (hdb : Keyed OutboxMessage.id db.outbox)
    (ht : t.Works d db) :
    d.work db' + t.credit d + obs.countP DeliveryEvent.isClaim ≤ d.work db + t'.credit d := by
  cases h with
  | call resting =>
      rw [(Stage.at_rest d db resting).2.1]
      exact Nat.le_add_right _ _
  | empty => exact le_refl _
  | claim now token processId m found =>
      obtain ⟨hm, heligible⟩ := claimable_mem found
      have hsum := hdb.sum_modify (f := claimRow now token) d.left hm rfl
      have hleft := left_claimRow now token (waits_of_eligible heligible)
      have hcredit : (Stage.claimed d ⟨m.id, processId, m.messageType, m.destination, m.payload,
          m.attemptCount + 1, token⟩).credit d
            = if d.maxAttempts ≤ (m.attemptCount + 1 : ℕ) then 1 else 0 := by
        simp [Stage.credit, Stage.claim, Dispatcher.terminal]
      rw [hcredit]
      simp only [Dispatcher.work, Stage.credit, Stage.claim, Option.any_none, List.countP_singleton,
        DeliveryEvent.isClaim]
      simp only [Bool.false_eq_true, if_false, if_true]
      omega
  | deliver => exact le_refl _
  | refuse c error taken obs quiet =>
      rw [quiet]
      exact le_refl _
  | complete c now later =>
      obtain ⟨-, m, hm, hid, -, hwaits⟩ := ht
      have hsum := hdb.sum_modify (f := publishRow now) d.left hm hid
      have hcredit := Stage.credit_le hwaits (.delivered d c)
      rw [left_eq_zero waits_publishRow] at hsum
      simp only [Dispatcher.work, List.countP_nil]
      omega
  | fail c error now later o =>
      obtain ⟨-, m, hm, hid, -, hwaits⟩ := ht
      have hsum := hdb.sum_modify (f := d.failRow c error now later) d.left hm hid
      have hleft : d.left (d.failRow c error now later m) + (Stage.failed d c error).credit d
          ≤ d.left m := by
        have hfailed := waits_failRow c error now later hwaits
        cases hterminal : d.terminal c with
        | true =>
            rw [hterminal, Bool.not_true] at hfailed
            rw [left_eq_zero hfailed, Nat.zero_add]
            exact Stage.credit_le hwaits _
        | false =>
            rw [hterminal, Bool.not_false] at hfailed
            rw [Dispatcher.left, if_pos hfailed, Dispatcher.left, if_pos hwaits]
            simp [Stage.credit, Stage.claim, hterminal, Dispatcher.failRow]
      simp only [Dispatcher.work, List.countP_nil]
      omega

/-- Every move but an empty claim brings the next claim nearer. -/
lemma phase (h : Lone d t x db t' db' obs) :
    t'.phase + 1 ≤ t.phase + 4 * obs.countP DeliveryEvent.isClaim ∨
      ∃ now, d.Late now db ∧ db.claimable d now [] = none ∧ db' = db := by
  cases h with
  | call resting =>
      rw [(Stage.at_rest d db resting).2.2.1]
      exact .inl (le_refl _)
  | empty now token late nothing => exact .inr ⟨now, late, nothing, rfl⟩
  | refuse c error taken obs quiet =>
      rw [quiet]
      exact .inl (le_refl _)
  | _ => exact .inl (le_refl _)

end Lone

/-- Nothing waits for the dispatcher. -/
def Drained (d : Dispatcher) (db : Database) : Prop := ∀ m ∈ db.outbox, d.waits m = false

/-- A late claim that finds nothing. -/
lemma drained_of_empty {now : Time} (hdb : Delivered db log) (hlate : d.Late now db)
    (h : db.claimable d now [] = none) : Drained d db := by
  intro m hm
  by_contra hwaits
  rw [Bool.not_eq_false] at hwaits
  obtain ⟨havailable, hstale⟩ := hlate m hm
  have heligible := eligible_of_waits (hdb.rows m hm) hwaits havailable hstale
  have hmem : m ∈ db.outbox.filter fun m => d.eligible now m && !(m.id ∈ ([] : List UUID)) := by
    rw [List.mem_filter, heligible]
    exact ⟨hm, by simp⟩
  rw [Database.claimable] at h
  rw [earliest_eq_none h] at hmem
  cases hmem

/-- What is drained stays so. -/
lemma Lone.drained (h : Lone d t x db t' db' obs) (ht : t.Works d db) (hdb : Drained d db) :
    Drained d db' := by
  have unheld {c : ClaimedMessage} (hc : Holding d db c) : False := by
    obtain ⟨m, hm, -, -, hwaits⟩ := hc
    rw [hdb m hm] at hwaits
    cases hwaits
  cases h with
  | claim now token processId m found =>
      obtain ⟨hm, heligible⟩ := claimable_mem found
      have hwaits := waits_of_eligible heligible
      rw [hdb m hm] at hwaits
      cases hwaits
  | complete => exact (unheld ht.2).elim
  | fail => exact (unheld ht.2).elim
  | _ => exact hdb

/-! ### What becomes of a message -/

/-- A message waits, or is published, or is a dead letter after a failure. -/
def Settling (d : Dispatcher) (failed : Prop) (m : OutboxMessage) : Prop :=
  d.waits m = true ∨ m.status = .published ∨ m.status = .deadLetter ∧ failed

/-- A move settles messages, and failures only come from `start_workflow`. -/
lemma Lone.settles {failed : Prop} (h : Lone d t x db t' db' obs)
    (hdb : Keyed OutboxMessage.id db.outbox) (ht : t.Works d db)
    (hfailed : ∀ c error, t = .failed d c error → failed) {m : OutboxMessage} (hm : m ∈ db.outbox)
    (hsettling : Settling d failed m) :
    ∃ m' ∈ db'.outbox, content m' = content m ∧ Settling d failed m' := by
  -- the row of a claim is rewritten, and no other
  have rewritten {id : UUID} {f : OutboxMessage → OutboxMessage} {r : OutboxMessage}
      (hr : r ∈ db.outbox) (hid : r.id = id) (hf : content (f r) = content r)
      (hnew : Settling d failed (f r)) : ∃ m' ∈ modify OutboxMessage.id id f db.outbox,
      content m' = content m ∧ Settling d failed m' := by
    by_cases hsame : m.id = id
    · obtain rfl := hdb.eq_of_mem hm hr (hsame.trans hid.symm)
      exact ⟨f m, mem_modify.mpr (.inl ⟨m, hm, hid, rfl⟩), hf, hnew⟩
    · exact ⟨m, mem_modify.mpr (.inr ⟨hm, hsame⟩), rfl, hsettling⟩
  cases h with
  | claim now token processId r found =>
      obtain ⟨hr, heligible⟩ := claimable_mem found
      exact rewritten hr rfl rfl (.inl (waits_claimRow (waits_of_eligible heligible)))
  | complete c now later =>
      obtain ⟨-, r, hr, hid, -, -⟩ := ht
      exact rewritten hr hid rfl (.inr (.inl rfl))
  | fail c error now later o =>
      obtain ⟨-, r, hr, hid, -, hwaits⟩ := ht
      refine rewritten hr hid rfl ?_
      have hrow := waits_failRow c error now later hwaits
      cases hterminal : d.terminal c with
      | true =>
          refine .inr (.inr ⟨?_, hfailed c error rfl⟩)
          simp [Dispatcher.failRow, hterminal]
      | false =>
          rw [hterminal, Bool.not_false] at hrow
          exact .inl hrow
  | _ => exact ⟨m, hm, rfl, hsettling⟩

lemma Lone.locks (h : Lone d t x db t' db' obs) : t'.locks = [] := by
  cases h <;> rfl

/-- A claimed message decodes. -/
lemma Claims.decoded (h : Claims db log d c) (hdb : Delivered db log) :
    ∃ signal, decodeSignal c.messageType c.payload = .ok signal := by
  obtain ⟨m, hm, hcontent⟩ := h.row
  obtain ⟨p, -, -, hsignal, -⟩ := (hdb.rows m hm).produced
  simp only [content, Prod.mk.injEq] at hcontent
  obtain ⟨-, htype, -, hpayload⟩ := hcontent
  rw [OutboxMessage.signal, htype, hpayload] at hsignal
  exact ⟨p.signal, hsignal⟩

/-- There is a move that nothing disturbs. -/
lemma exists_undisturbed (hdb : Delivered db log) (ht : t.Works d db) (hknows : t.Knows db log) :
    ∃ x, x.Undisturbed d db ∧ (next t x db).isSome := by
  cases t with
  | idle => exact ⟨.call (.dispatchOne d), rfl, rfl⟩
  | ended => exact ⟨.call (.dispatchOne d), rfl, rfl⟩
  | claiming d' =>
      obtain ⟨now, hlate⟩ := exists_late d db
      refine ⟨.answer (.claim now [] ""), ⟨rfl, hlate⟩, ?_⟩
      rw [next, Stage.statement, claimOne]
      split
      · rfl
      · split
        · rfl
        · rfl
  | claimed d' c =>
      obtain ⟨signal, hdecoded⟩ := hknows.decoded hdb
      refine ⟨.answer .started, trivial, ?_⟩
      simp [next, Stage.statement, Temporal.deliver, hdecoded]
  | delivered d' c =>
      refine ⟨.answer (.times 0 0), trivial, ?_⟩
      rw [next, Stage.statement, Temporal.complete, ht.2.update]
      rfl
  | failed d' c error =>
      refine ⟨.answer (.times 0 0), trivial, ?_⟩
      rw [next, Stage.statement, recordFailure, ht.2.update]
      rfl
  | _ => exact ht.elim

end

/-! ### Runs -/

section

variable {n : ℕ} {i : Fin n} {d : Dispatcher} {s₀ s s' : Pool n Database Stage DeliveryEvent}
  {ms ms' : List (Fin n × CallInput)}

/-- A call of `start_workflow` has failed. -/
def Refused (i : Fin n) (ms : List (Fin n × CallInput)) : Prop :=
  ∃ error taken, (i, .answer (.startFailed error taken)) ∈ ms

/-- What holds after moves of one dispatcher that is left alone. -/
structure Draining (d : Dispatcher) (i : Fin n) (s₀ : Pool n Database Stage DeliveryEvent)
    (ms : List (Fin n × CallInput)) (s : Pool n Database Stage DeliveryEvent) : Prop where
  delivering : Delivering s
  works : (s.calls i).Works d s.store
  failed : ∀ c error, s.calls i = .failed d c error → Refused i ms
  spent : ∃ obs, s.log = s₀.log ++ obs ∧
    obs.countP DeliveryEvent.isClaim + d.work s.store ≤ d.work s₀.store + (s.calls i).credit d
  near : Drained d s.store ∨ ms.length + 4 * d.work s.store + (s.calls i).phase
    ≤ 4 * d.work s₀.store + 4 * (s.calls i).credit d + 1
  settles : ∀ m ∈ s₀.store.outbox, d.waits m = true →
    ∃ m' ∈ s.store.outbox, content m' = content m ∧ Settling d (Refused i ms) m'

lemma draining_nil (hs : Delivering s) (hi : (s.calls i).resting = true) :
    Draining d i s [] s := by
  obtain ⟨hworks, hcredit, hphase, hnot⟩ := Stage.at_rest d s.store hi
  refine ⟨hs, hworks, fun c error h => absurd h (hnot c error),
    ⟨[], (List.append_nil _).symm, ?_⟩, .inr ?_, fun m hm hwaits => ⟨m, hm, rfl, .inl hwaits⟩⟩
  · rw [hcredit, List.countP_nil, Nat.zero_add]
    exact le_refl _
  · rw [hcredit, hphase, List.length_nil, Nat.zero_add]

/-- A move keeps what holds of them. -/
lemma Draining.step {x : CallInput} (h : Draining d i s₀ ms s) (hx : x.Undisturbed d s.store)
    (hstep : s.step dispatchers (i, x) = some s') : Draining d i s₀ (ms ++ [(i, x)]) s' := by
  have hdelivering := h.delivering.step hstep
  obtain ⟨t', db', obs, hnext, -, rfl⟩ := step_eq_some hstep
  have hlone := Lone.of_next hnext h.works hx
  have hkeyed := h.delivering.common.1.ids
  obtain ⟨before, hlog, hspent⟩ := h.spent
  have hpaid := hlone.spent hkeyed h.works
  have hlater : Refused i ms → Refused i (ms ++ [(i, x)]) := by
    rintro ⟨error, taken, hmem⟩
    exact ⟨error, taken, List.mem_append_left _ hmem⟩
  refine ⟨hdelivering, ?_, ?_, ⟨before ++ obs, ?_, ?_⟩, ?_, fun m hm hwaits => ?_⟩
  · dsimp only
    rw [Function.update_self]
    exact hlone.works h.works
  · dsimp only
    rw [Function.update_self]
    rintro c error rfl
    generalize s.calls i = t at hlone
    cases hlone with
    | refuse c error taken obs quiet =>
        exact ⟨error, taken, List.mem_append_right _ (List.mem_singleton_self _)⟩
  · dsimp only
    rw [hlog, List.append_assoc]
  · dsimp only
    rw [Function.update_self, List.countP_append]
    omega
  · dsimp only
    rw [Function.update_self, List.length_append, List.length_singleton]
    rcases h.near with hdrained | hnear
    · exact .inl (hlone.drained h.works hdrained)
    · rcases hlone.phase with hphase | ⟨now, hlate, hnothing, rfl⟩
      · exact .inr (by omega)
      · exact .inl (drained_of_empty h.delivering.common.1 hlate hnothing)
  · obtain ⟨m₁, hm₁, hcontent₁, hsettling⟩ := h.settles m hm hwaits
    obtain ⟨m₂, hm₂, hcontent₂, hsettling₂⟩ :=
      hlone.settles hkeyed h.works h.failed hm₁ hsettling
    exact ⟨m₂, hm₂, hcontent₂.trans hcontent₁,
      hsettling₂.imp_right fun h => h.imp_right fun h => h.imp_right hlater⟩

lemma draining_runs (hs : Delivering s) (hi : (s.calls i).resting = true)
    (h : Runs dispatchers (Alone i d) s ms s') : Draining d i s ms s' := by
  refine h.history (P := fun ms s' => Draining d i s ms s') ?_ (draining_nil hs hi)
  rintro ms s₁ ⟨j, x⟩ s₂ - hdraining ⟨rfl, hx⟩ hstep
  exact hdraining.step hx hstep

/-- **The outbox drains.**  Whatever has happened before: a dispatcher that is left alone makes no
more claims than its messages have left, it can always go on, and once it has made more than four
moves for each of these claims and one, none of its messages waits.  Each message that waited for it
is published then, or it is a dead letter and a call of `start_workflow` has failed. -/
theorem outbox_drains (h : Runs dispatchers (fun _ _ => True) (noMessages n) ms s)
    (hi : (s.calls i).resting = true) (h' : Runs dispatchers (Alone i d) s ms' s') :
    (∃ obs, s'.log = s.log ++ obs ∧ obs.countP DeliveryEvent.isClaim ≤ d.work s.store) ∧
    (∃ x s'', Alone i d s' (i, x) ∧ s'.step dispatchers (i, x) = some s'') ∧
    (4 * d.work s.store + 1 < ms'.length → (∀ m ∈ s'.store.outbox, d.waits m = false) ∧
      ∀ m ∈ s.store.outbox, d.waits m = true → ∃ m' ∈ s'.store.outbox, content m' = content m ∧
        (m'.status = .published ∨ m'.status = .deadLetter ∧
          ∃ error taken, (i, .answer (.startFailed error taken)) ∈ ms')) := by
  have hs : Delivering s :=
    h.invariant (fun _ _ _ hs _ hstep => hs.step hstep) delivering_noMessages
  have hdraining := draining_runs hs hi h'
  have hcredit := Stage.credit_le_work hdraining.works
  refine ⟨?_, ?_, fun hlong => ?_⟩
  · obtain ⟨obs, hlog, hspent⟩ := hdraining.spent
    exact ⟨obs, hlog, by omega⟩
  · obtain ⟨x, hx, hnext⟩ := exists_undisturbed hdraining.delivering.common.1 hdraining.works
      (hdraining.delivering.calls i)
    obtain ⟨⟨t', db', obs⟩, hnext⟩ := Option.isSome_iff_exists.mp hnext
    refine ⟨x, _, ⟨rfl, hx⟩, step_eq hnext fun j _ l hl => ?_⟩
    have hlocks := (Lone.of_next hnext hdraining.works hx).locks
    change l ∈ t'.locks at hl
    rw [hlocks] at hl
    cases hl
  · have hdrained : Drained d s'.store := hdraining.near.resolve_right (by omega)
    refine ⟨hdrained, fun m hm hwaits => ?_⟩
    obtain ⟨m', hm', hcontent, hsettled⟩ := hdraining.settles m hm hwaits
    refine ⟨m', hm', hcontent, hsettled.resolve_left ?_⟩
    rw [hdrained m' hm']
    exact Bool.false_ne_true

end

/-- A dispatcher stops with a message in its hands.  Another one is left alone: it publishes the
message, and then finds nothing. -/
theorem outbox_drains_after_crash :
    ∃ (d : Dispatcher) (ms ms' : List (Fin 2 × CallInput))
      (s s' : Pool 2 Database Stage DeliveryEvent),
    Runs dispatchers (fun _ _ => True) (noMessages 2) ms s ∧
    Runs dispatchers (Alone 1 d) s ms' s' ∧ 4 * d.work s.store + 1 < ms'.length ∧
    s.store.outbox.map OutboxMessage.status = [.publishing] ∧
    ∀ m ∈ s'.store.outbox, d.waits m = false := by
  let d : Dispatcher := { maxAttempts := 1, processes := ["p"] }
  let ms : List (Fin 2 × CallInput) :=
    [(0, .call (.produce (.event "m" "e" "deal.opened" "p" "workflow" 0))), (0, .answer .go),
      (0, .call (.dispatchOne d)), (0, .answer (.claim 1 [] "t")), (0, .crash)]
  let ms' : List (Fin 2 × CallInput) :=
    [(1, .call (.dispatchOne d)), (1, .answer (.claim 300000002 [] "t'")), (1, .answer .started),
      (1, .answer (.times 300000003 300000004)), (1, .call (.dispatchOne d)),
      (1, .answer (.claim 300000005 [] "t''"))]
  obtain ⟨s, hruns, hp⟩ := exists_runs (C := dispatchers) (s := noMessages 2)
    (fun _ _ => true) ms
    (fun s => decide (s.store.outbox.map OutboxMessage.status = [.publishing] ∧
        4 * d.work s.store + 1 < ms'.length ∧ (s.calls 1).resting = true) &&
      (s.run dispatchers (fun s m => decide (Alone 1 d s m)) ms').isSome) (by decide +kernel)
  rw [Bool.and_eq_true, decide_eq_true_eq] at hp
  obtain ⟨⟨hstatus, hlong, hrest⟩, hrun⟩ := hp
  obtain ⟨s', hrun⟩ := Option.isSome_iff_exists.mp hrun
  have h := hruns.mono (H := fun _ _ => True) fun _ _ _ => trivial
  have h' := (runs_of_run hrun).mono (H := Alone 1 d) fun _ _ => of_decide_eq_true
  exact ⟨d, ms, ms', s, s', h, h', hlong, hstatus, ((outbox_drains h hrest h').2.2 hlong).1⟩

end TiramisuAgents.Temporal
