import TiramisuAgents.Temporal.Dispatcher
import TiramisuAgents.Mailbox.ExactlyOnce

/-!
What the outbox guarantees.

A message is delivered at least once: its row is marked as published by a dispatcher that has seen
the workflow take its signal.  The mailbox lets an identity in once, so together each message enters
exactly once.

* `attempts`: the claims of a message since it was created or last requeued.
* `Delivery`: a row, as it is after every run; `Claims`: what a dispatcher knows of its claim.
* `Step.delivered`: one step.
* `entries`: how often the identity of a signal is in the mailbox or was taken from it.
* `outbox_delivery`: every run.
-/

namespace TiramisuAgents.Temporal

open Events Tables Transactions

/-! ### Rows -/

/-- The claims of a message, counted anew after each requeue. -/
def count (id : UUID) (k : ℕ) : DeliveryEvent → ℕ
  | .claimed _ id' _ => if id' = id then k + 1 else k
  | .requeued id' => if id' = id then 0 else k
  | _ => k

/-- The claims of a message since it was created or last requeued. -/
def attempts (id : UUID) (log : List DeliveryEvent) : ℕ := log.foldl (count id) 0

lemma attempts_append (id : UUID) (log obs : List DeliveryEvent) :
    attempts id (log ++ obs) = obs.foldl (count id) (attempts id log) := List.foldl_append

/-- What no update of a row changes. -/
def content (m : OutboxMessage) : UUID × String × String × Payload :=
  (m.id, m.messageType, m.destination, m.payload)

/-- A row.  It is claimed just while it is publishing, and has a dead-letter time just while it is a
dead letter; its message is that of a producer, and decodes to the signal of the producer.  If it is
published, `start_workflow` has succeeded with this signal; if it is a dead letter, a dispatcher has
claimed it as often as its limit says. -/
structure Delivery (log : List DeliveryEvent) (m : OutboxMessage) : Prop where
  claim : m.status = .publishing ∧ m.claimedAt ≠ none ∧ m.claimToken ≠ none ∨
    m.status ≠ .publishing ∧ m.claimedAt = none ∧ m.claimToken = none
  dead : m.status = .deadLetter ↔ m.deadLetteredAt ≠ none
  counted : m.attemptCount = attempts m.id log
  produced : ∃ p, .produced p ∈ log ∧ content m = content p.message ∧ m.signal = .ok p.signal ∧
    (m.status = .published →
      .started m.id m.destination p.signal ∈ log ∧ .taken m.destination p.signal ∈ log)
  exhausted : m.status = .deadLetter →
    ∃ (d : Dispatcher) (token : UUID) (log₁ log₂ : List DeliveryEvent),
    log = log₁ ++ .claimed d m.id token :: log₂ ∧ d.maxAttempts ≤ attempts m.id log₁ + 1

/-- The rows have identities of their own, and an identity without a row was never claimed. -/
structure Delivered (db : Database) (log : List DeliveryEvent) : Prop where
  ids : Keyed OutboxMessage.id db.outbox
  rows : ∀ m ∈ db.outbox, Delivery log m
  unused : ∀ id, (∀ m ∈ db.outbox, m.id ≠ id) → attempts id log = 0

/-- What a dispatcher knows of its claim: the row it is about, and how often it had been claimed. -/
structure Claims (db : Database) (log : List DeliveryEvent) (d : Dispatcher) (c : ClaimedMessage) :
    Prop where
  row : ∃ m ∈ db.outbox, content m = (c.id, c.messageType, c.destination, c.payload)
  counted : ∃ log₁ log₂, log = log₁ ++ .claimed d c.id c.claimToken :: log₂ ∧
    c.attemptCount = attempts c.id log₁ + 1

/-- What a call knows. -/
def Stage.Knows (db : Database) (log : List DeliveryEvent) : Stage → Prop
  | .claimed d c => Claims db log d c
  | .failed d c _ => Claims db log d c
  | .delivered d c => Claims db log d c ∧ ∃ signal,
      decodeSignal c.messageType c.payload = .ok signal ∧
      .started c.id c.destination signal ∈ log ∧ .taken c.destination signal ∈ log
  | _ => True

section

variable {t t' u : Stage} {x : CallInput} {db db' : Database} {log obs : List DeliveryEvent}
  {m : OutboxMessage} {d : Dispatcher} {c : ClaimedMessage}

@[simp] lemma content_claimRow (now : Time) (token : UUID) :
    content (claimRow now token m) = content m := rfl

@[simp] lemma content_publishRow (now : Time) : content (publishRow now m) = content m := rfl

@[simp] lemma content_failRow (error : String) (now later : Time) :
    content (d.failRow c error now later m) = content m := rfl

@[simp] lemma content_requeueRow (now : Time) : content (requeueRow now m) = content m := rfl

lemma id_of_content {m' : OutboxMessage} (h : content m' = content m) : m'.id = m.id :=
  congrArg Prod.fst h

/-! ### Rows that are written -/

/-- What is observed of other messages keeps a row. -/
lemma Delivery.mono (h : Delivery log m) (hobs : attempts m.id (log ++ obs) = attempts m.id log) :
    Delivery (log ++ obs) m := by
  refine ⟨h.claim, h.dead, h.counted.trans hobs.symm, ?_, fun hdead => ?_⟩
  · obtain ⟨p, hp, hcontent, hsignal, hpublished⟩ := h.produced
    refine ⟨p, List.mem_append_left _ hp, hcontent, hsignal, fun hstatus => ?_⟩
    obtain ⟨hstarted, htaken⟩ := hpublished hstatus
    exact ⟨List.mem_append_left _ hstarted, List.mem_append_left _ htaken⟩
  · obtain ⟨d, token, log₁, log₂, rfl, hlimit⟩ := h.exhausted hdead
    exact ⟨d, token, log₁, log₂ ++ obs, by simp, hlimit⟩

/-- Something is observed that claims and requeues nothing. -/
lemma Delivered.mono (h : Delivered db log)
    (hobs : ∀ id, attempts id (log ++ obs) = attempts id log) : Delivered db (log ++ obs) where
  ids := h.ids
  rows m hm := (h.rows m hm).mono (hobs m.id)
  unused id hid := (hobs id).trans (h.unused id hid)

/-- One row is rewritten. -/
lemma Delivered.modify (h : Delivered db log) {id : UUID} {f : OutboxMessage → OutboxMessage}
    (hdb : db'.outbox = modify OutboxMessage.id id f db.outbox)
    (hf : ∀ m, content (f m) = content m) (hm : m ∈ db.outbox) (hid : m.id = id)
    (hobs : ∀ id', id' ≠ id → attempts id' (log ++ obs) = attempts id' log)
    (hrow : Delivery (log ++ obs) (f m)) : Delivered db' (log ++ obs) where
  ids := by
    rw [hdb]
    exact h.ids.modify fun m => id_of_content (hf m)
  rows m' hm' := by
    rw [hdb] at hm'
    obtain ⟨r, hr, hrid, rfl⟩ | ⟨hr, hrid⟩ := mem_modify.mp hm'
    · rwa [h.ids.eq_of_mem hr hm (hrid.trans hid.symm)]
    · exact (h.rows m' hr).mono (hobs _ hrid)
  unused id' hid' := by
    have hother : id' ≠ id := by
      rintro rfl
      refine hid' (f m) ?_ ((id_of_content (hf m)).trans hid)
      rw [hdb]
      exact mem_modify.mpr (.inl ⟨m, hm, hid, rfl⟩)
    rw [hobs id' hother]
    refine h.unused id' fun r hr hrid => ?_
    refine hid' r ?_ hrid
    rw [hdb]
    exact mem_modify.mpr (.inr ⟨hr, fun heq => hother (hrid.symm.trans heq)⟩)

/-- The row that a claim is about. -/
lemma Claims.held (h : Claims db log d c) (hdb : Delivered db log)
    (hheld : db.outbox.any c.holds = true) : ∃ m ∈ db.outbox,
      content m = (c.id, c.messageType, c.destination, c.payload) ∧ m.status = .publishing := by
  obtain ⟨m', hm', hholds⟩ := List.any_eq_true.mp hheld
  obtain ⟨m, hm, hcontent⟩ := h.row
  simp only [ClaimedMessage.holds, Bool.and_eq_true, decide_eq_true_eq] at hholds
  have hid : m.id = c.id := congrArg Prod.fst hcontent
  obtain rfl := hdb.ids.eq_of_mem hm hm' (hid.trans hholds.1.1.symm)
  exact ⟨m, hm, hcontent, hholds.1.2⟩

lemma Claims.mono (h : Claims db log d c)
    (hrows : ∀ m ∈ db.outbox, ∃ m' ∈ db'.outbox, content m' = content m) :
    Claims db' (log ++ obs) d c := by
  obtain ⟨m, hm, hcontent⟩ := h.row
  obtain ⟨m', hm', hsame⟩ := hrows m hm
  obtain ⟨log₁, log₂, rfl, hcount⟩ := h.counted
  exact ⟨⟨m', hm', hsame.trans hcontent⟩, log₁, log₂ ++ obs, by simp, hcount⟩

/-- What a call knows, it knows after other steps. -/
lemma Stage.Knows.mono (h : u.Knows db log)
    (hrows : ∀ m ∈ db.outbox, ∃ m' ∈ db'.outbox, content m' = content m) :
    u.Knows db' (log ++ obs) := by
  cases u with
  | claimed d c => exact Claims.mono h hrows
  | failed d c error => exact Claims.mono h hrows
  | delivered d c =>
      obtain ⟨hclaims, signal, hdecoded, hstarted, htaken⟩ := h
      exact ⟨hclaims.mono hrows, signal, hdecoded, List.mem_append_left _ hstarted,
        List.mem_append_left _ htaken⟩
  | _ => trivial

/-- A row stays with its content. -/
lemma Step.rows_kept (h : Step t x db t' db' obs) :
    ∀ m ∈ db.outbox, ∃ m' ∈ db'.outbox, content m' = content m := by
  have rewritten (id : UUID) (f : OutboxMessage → OutboxMessage)
      (hf : ∀ m, content (f m) = content m) : ∀ m ∈ db.outbox,
      ∃ m' ∈ modify OutboxMessage.id id f db.outbox, content m' = content m := by
    intro m hm
    by_cases hid : m.id = id
    · exact ⟨f m, mem_modify.mpr (.inl ⟨m, hm, hid, rfl⟩), hf m⟩
    · exact ⟨m, mem_modify.mpr (.inr ⟨hm, hid⟩), rfl⟩
  cases h with
  | produce => exact fun m hm => ⟨m, List.mem_append_left _ hm, rfl⟩
  | claim => exact rewritten _ _ fun _ => rfl
  | complete => exact rewritten _ _ fun _ => rfl
  | fail => exact rewritten _ _ fun _ => rfl
  | requeue => exact rewritten _ _ fun _ => rfl
  | _ => exact fun m hm => ⟨m, hm, rfl⟩

/-! ### Steps -/

lemma claimable_mem {now : Time} {locked : List UUID} (h : db.claimable d now locked = some m) :
    m ∈ db.outbox ∧ d.eligible now m = true := by
  obtain ⟨hm, hboth⟩ := List.mem_filter.mp (earliest_mem h)
  exact ⟨hm, (Bool.and_eq_true_iff.mp hboth).1⟩

/-- A new row. -/
lemma delivery_new {p : Production} (hp : .produced p ∈ log)
    (hcount : attempts p.message.id log = 0) : Delivery log p.message := by
  obtain ⟨hstatus, hat, htoken, hdead, hattempts⟩ := p.message_new
  refine ⟨.inr ⟨by simp [hstatus], hat, htoken⟩, by simp [hstatus, hdead],
    hattempts.trans hcount.symm, ⟨p, hp, rfl, p.decoded, ?_⟩, ?_⟩
  · simp [hstatus]
  · simp [hstatus]

/-- The claims of another message. -/
lemma attempts_other {id id' token : UUID} (h : id' ≠ id) :
    attempts id' (log ++ [.claimed d id token]) = attempts id' log := by
  rw [attempts_append]
  simp [count, Ne.symm h]

lemma attempts_claimed (id token : UUID) :
    attempts id (log ++ [.claimed d id token]) = attempts id log + 1 := by
  rw [attempts_append]
  simp [count]

lemma attempts_requeued (id : UUID) : attempts id (log ++ [.requeued id]) = 0 := by
  rw [attempts_append]
  simp [count]

/-- The producer of a row, after an update. -/
lemma Delivery.produced_mono {f : OutboxMessage → OutboxMessage} (h : Delivery log m)
    (hf : content (f m) = content m) (hstatus : (f m).status ≠ .published) :
    ∃ p, .produced p ∈ log ++ obs ∧ content (f m) = content p.message ∧
      (f m).signal = .ok p.signal ∧ ((f m).status = .published →
        .started (f m).id (f m).destination p.signal ∈ log ++ obs ∧
          .taken (f m).destination p.signal ∈ log ++ obs) := by
  obtain ⟨p, hp, hcontent, hsignal, -⟩ := h.produced
  have hsame := hf.trans hcontent
  simp only [content, Prod.mk.injEq] at hf
  obtain ⟨-, htype, -, hpayload⟩ := hf
  refine ⟨p, List.mem_append_left _ hp, hsame, ?_, fun h => absurd h hstatus⟩
  · rwa [OutboxMessage.signal, htype, hpayload]

/-- **A step keeps the rows as they are meant.** -/
lemma Step.delivered (h : Step t x db t' db' obs) (hdb : Delivered db log)
    (ht : t.Knows db log) : Delivered db' (log ++ obs) := by
  cases h with
  | produce p new unused =>
      have hcount : ∀ id, attempts id (log ++ [.produced p]) = attempts id log := fun id => by
        rw [attempts_append]
        rfl
      refine ⟨hdb.ids.concat unused, fun m hm => ?_, fun id hid => ?_⟩
      · obtain hm | hm := List.mem_append.mp hm
        · exact (hdb.rows m hm).mono (hcount m.id)
        · obtain rfl := List.mem_singleton.mp hm
          refine delivery_new (by simp) ?_
          rw [hcount, hdb.unused _ (lookup_eq_none.mp unused)]
      · rw [hcount]
        exact hdb.unused id fun m hm => hid m (List.mem_append_left _ hm)
  | claim d now locked token processId m found owned =>
      obtain ⟨hm, heligible⟩ := claimable_mem found
      have hrow := hdb.rows m hm
      refine hdb.modify rfl (fun _ => rfl) hm rfl (fun id hid => attempts_other hid)
        ⟨.inl ⟨rfl, by simp [claimRow], by simp [claimRow]⟩, ?_, ?_,
          hrow.produced_mono rfl (by simp [claimRow]),
          fun h => by cases h⟩
      · have hdead : m.deadLetteredAt = none := by
          have hstatus : m.status ≠ .deadLetter := by
            intro hstatus
            simp [Dispatcher.eligible, hstatus] at heligible
          simpa [hstatus] using hrow.dead
        simp [claimRow, hdead]
      · rw [show (claimRow now token m).id = m.id from rfl, attempts_claimed, ← hrow.counted]
        rfl
  | deliver => exact hdb.mono fun id => by rw [attempts_append]; rfl
  | miss d c x error obs taken =>
      refine hdb.mono fun id => ?_
      obtain rfl | ⟨signal, -, rfl⟩ := taken <;> rw [attempts_append] <;> rfl
  | complete d c now later held =>
      obtain ⟨hclaims, signal, hdecoded, hstarted, htaken⟩ := ht
      obtain ⟨m, hm, hcontent, hstatus⟩ := hclaims.held hdb held
      simp only [content, Prod.mk.injEq] at hcontent
      obtain ⟨hid, htype, hdestination, hpayload⟩ := hcontent
      have hrow := hdb.rows m hm
      obtain ⟨p, hp, hsame, hsignal, -⟩ := hrow.produced
      -- the claimed message decodes to the signal of the producer
      have heq : signal = p.signal := by
        rw [OutboxMessage.signal, htype, hpayload, hdecoded] at hsignal
        exact Except.ok.inj hsignal
      rw [List.append_nil]
      rw [heq, ← hid, ← hdestination] at hstarted
      rw [heq, ← hdestination] at htaken
      have hnew : Delivery log (publishRow now m) :=
        ⟨.inr ⟨by simp [publishRow], rfl, rfl⟩, by simp [publishRow], hrow.counted,
          ⟨p, hp, hsame, hsignal, fun _ => ⟨hstarted, htaken⟩⟩, fun h => by cases h⟩
      have hmodified : Delivered { db with
          outbox := Tables.modify OutboxMessage.id c.id (publishRow now) db.outbox } _ :=
        hdb.modify rfl (fun _ => rfl) hm hid (fun _ _ => by rw [List.append_nil])
          ((List.append_nil log).symm ▸ hnew)
      rwa [List.append_nil] at hmodified
  | fail d c error now later o held =>
      obtain ⟨m, hm, hcontent, hstatus⟩ := ht.held hdb held
      have hid : m.id = c.id := congrArg Prod.fst hcontent
      have hrow := hdb.rows m hm
      obtain ⟨log₁, log₂, hlog, hcount⟩ := ht.counted
      refine hdb.modify rfl (fun _ => rfl) hm hid (fun _ _ => by simp) ⟨.inr ⟨?_, rfl, rfl⟩, ?_, ?_,
        hrow.produced_mono rfl ?_, fun hdead => ?_⟩
      · simp only [Dispatcher.failRow]
        split_ifs <;> simp
      · simp only [Dispatcher.failRow]
        split_ifs <;> simp
      · rw [List.append_nil]
        exact hrow.counted
      · simp only [Dispatcher.failRow]
        split_ifs <;> simp
      · have hterminal : d.terminal c = true := by
          by_contra hretry
          simp [Dispatcher.failRow, hretry] at hdead
        refine ⟨d, c.claimToken, log₁, log₂, ?_, ?_⟩
        · rw [List.append_nil, hlog, ← hid]
          rfl
        · have hlimit : d.maxAttempts ≤ c.attemptCount := of_decide_eq_true hterminal
          rw [show (d.failRow c error now later m).id = c.id from hid]
          omega
  | requeue c now later m found dead =>
      obtain ⟨hm, -⟩ := lookup_mem found
      have hrow := hdb.rows m hm
      refine hdb.modify rfl (fun _ => rfl) hm rfl (fun id hid => ?_)
        ⟨.inr ⟨by simp [requeueRow], rfl, rfl⟩, by simp [requeueRow], ?_,
          hrow.produced_mono rfl (by simp [requeueRow]), fun h => by cases h⟩
      · rw [attempts_append]
        simp [count, Ne.symm hid]
      · exact (attempts_requeued _).symm
  | _ => simpa using hdb

/-- What the server has taken is the signal of a producer, for its workflow. -/
def Meant (log : List DeliveryEvent) : Prop :=
  ∀ workflowId signal, .taken workflowId signal ∈ log →
    ∃ p, .produced p ∈ log ∧ signal = p.signal ∧ workflowId = p.message.destination

/-- The signal of a claimed message is that of its producer. -/
lemma Claims.meant (h : Claims db log d c) (hdb : Delivered db log) {signal : Signal}
    (hdecoded : decodeSignal c.messageType c.payload = .ok signal) :
    ∃ p, .produced p ∈ log ∧ signal = p.signal ∧ c.destination = p.message.destination := by
  obtain ⟨m, hm, hcontent⟩ := h.row
  obtain ⟨p, hp, hsame, hsignal, -⟩ := (hdb.rows m hm).produced
  simp only [content, Prod.mk.injEq] at hcontent hsame
  obtain ⟨-, htype, hdestination, hpayload⟩ := hcontent
  refine ⟨p, hp, ?_, hdestination.symm.trans hsame.2.2.1⟩
  rw [OutboxMessage.signal, htype, hpayload, hdecoded] at hsignal
  exact Except.ok.inj hsignal

/-- A step delivers what a producer means. -/
lemma Step.meant (h : Step t x db t' db' obs) (hdb : Delivered db log) (ht : t.Knows db log)
    (hlog : Meant log) : Meant (log ++ obs) := by
  intro workflowId signal htaken
  have grown (p : Production) (hp : .produced p ∈ log) : .produced p ∈ log ++ obs :=
    List.mem_append_left _ hp
  obtain hold | hnew := List.mem_append.mp htaken
  · obtain ⟨p, hp, hboth⟩ := hlog workflowId signal hold
    exact ⟨p, grown p hp, hboth⟩
  · cases h with
    | deliver d c signal' decoded =>
        obtain ⟨p, hp, hsignal, hdestination⟩ := ht.meant hdb decoded
        simp only [List.mem_cons, List.not_mem_nil, or_false, reduceCtorEq,
          DeliveryEvent.taken.injEq] at hnew
        obtain ⟨rfl, rfl⟩ := hnew
        exact ⟨p, grown p hp, hsignal, hdestination⟩
    | miss d c x error obs taken =>
        obtain rfl | ⟨signal', decoded, rfl⟩ := taken
        · cases hnew
        · obtain ⟨p, hp, hsignal, hdestination⟩ := ht.meant hdb decoded
          cases List.mem_singleton.mp hnew
          exact ⟨p, grown p hp, hsignal, hdestination⟩
    | produce => simp at hnew
    | claim => simp at hnew
    | requeue => simp at hnew
    | _ => cases hnew

/-- A step keeps what the call itself knows. -/
lemma Step.knows (h : Step t x db t' db' obs) (hdb : Delivered db log) (ht : t.Knows db log) :
    t'.Knows db' (log ++ obs) := by
  have hrows := h.rows_kept
  cases h with
  | halt resting => cases t' with
    | idle => trivial
    | ended => trivial
    | _ => cases resting
  | start c => cases c <;> trivial
  | claim d now locked token processId m found owned =>
      obtain ⟨hm, -⟩ := claimable_mem found
      refine ⟨⟨claimRow now token m, mem_modify.mpr (.inl ⟨m, hm, rfl, rfl⟩), rfl⟩,
        log, [], rfl, ?_⟩
      rw [← (hdb.rows m hm).counted]
  | deliver d c signal decoded =>
      exact ⟨Claims.mono ht hrows, signal, decoded, by simp, by simp⟩
  | miss => exact Claims.mono ht hrows
  | _ => trivial

/-! ### What does not change -/

/-- The claim of a dispatcher. -/
def Stage.claim : Stage → Option ClaimedMessage
  | .claimed _ c | .delivered _ c | .failed _ c _ => some c
  | _ => none

/-- A dispatcher whose token was replaced changes nothing. -/
lemma Step.lost (h : Step t x db t' db' obs) (ht : t.claim = some c)
    (hlost : ∀ m ∈ db.outbox, m.id = c.id → m.claimToken ≠ some c.claimToken) : db' = db := by
  have unheld (hheld : db.outbox.any c.holds = true) : False := by
    obtain ⟨m, hm, hholds⟩ := List.any_eq_true.mp hheld
    simp only [ClaimedMessage.holds, Bool.and_eq_true, decide_eq_true_eq] at hholds
    exact hlost m hm hholds.1.1 hholds.2
  cases h with
  | complete d c' now later held =>
      cases ht
      exact absurd held unheld
  | fail d c' error now later o held =>
      cases ht
      exact absurd held unheld
  | produce => cases ht
  | claim => cases ht
  | requeue => cases ht
  | _ => rfl

variable {n : ℕ} {s s' : Pool n Database Stage DeliveryEvent} {ms : List (Fin n × CallInput)}

/-- An empty outbox. -/
def noMessages (n : ℕ) : Pool n Database Stage DeliveryEvent where
  store := {}
  calls _ := .idle
  log := []

/-- Every step keeps the rows as they are meant, and what the calls know. -/
lemma delivered_joint : Joint dispatchers (fun _ _ _ _ => True) (fun _ _ _ _ => True)
    (fun db log => Delivered db log ∧ Meant log) (fun t db log => t.Knows db log) where
  own h _ hdb ht :=
    have hstep := Step.of_next h
    ⟨⟨hstep.delivered hdb.1 ht, hstep.meant hdb.1 ht hdb.2⟩, hstep.knows hdb.1 ht⟩
  other h _ _ _ _ _ hu := hu.mono (Step.of_next h).rows_kept

/-- The invariant of the runs. -/
abbrev Delivering (s : Pool n Database Stage DeliveryEvent) : Prop :=
  Joint.Holds dispatchers (fun db log => Delivered db log ∧ Meant log)
    (fun t db log => t.Knows db log) s

lemma delivering_noMessages : Delivering (noMessages n) where
  exclusive i j l hi := by cases hi
  common := by
    refine ⟨⟨keyed_nil, by simp [noMessages], fun id _ => rfl⟩, fun workflowId signal h => ?_⟩
    cases h
  calls i := trivial

lemma Delivering.step {m : Fin n × CallInput} (hs : Delivering s)
    (h : s.step dispatchers m = some s') : Delivering s' :=
  delivered_joint.step hs trivial (fun _ _ => trivial) h

/-- How often the identity of a signal waits in the mailbox or was taken from it. -/
def entries (log : List Obs) (mailbox : Mailbox) : Signal → ℕ
  | .receiveEvent event =>
      (mailbox.events.buffer.map MailboxEvent.eventId).count event.eventId +
        ((popped Source.event? log).map MailboxEvent.eventId).count event.eventId
  | .receiveReview review =>
      (mailbox.reviews.buffer.map MailboxReview.commandId).count review.commandId +
        ((popped Source.review? log).map MailboxReview.commandId).count review.commandId
  | .receiveActionResolution resolution =>
      (mailbox.actionResolutions.buffer.map MailboxActionResolution.commandId).count
          resolution.commandId +
        ((popped Source.resolution? log).map MailboxActionResolution.commandId).count
          resolution.commandId
  | .receiveControl control =>
      (mailbox.controls.buffer.map MailboxControl.commandId).count control.commandId +
        ((popped Source.control? log).map MailboxControl.commandId).count control.commandId
  | .replaceWakePlan _ | .close => 0

end

end TiramisuAgents.Temporal
