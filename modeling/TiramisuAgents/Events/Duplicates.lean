import TiramisuAgents.Events.Consistency

/-!
Events that are ingested again.

An ingestion that finds a row under its source key is told of it and writes nothing.  The advisory
lock of the source key keeps other ingestions and resolutions out between the lookup and the
insert, but not a manual wake, which stores its event under the source `operator` without it.  An
ingestion that such a wake overtakes is told of the row of the wake, and commits the process and the
references that it has written by then.

* `Recorded`: the inbox and the outbox, as they are after every run.
* `Idempotent`: what a step of an ingestion does to a duplicate.
* `Overtaken`: an ingestion that has written something finds a row when it inserts its own.
* `inbox_outbox_consistent`: every run; `overtaken_by_wake` is one in which a duplicate creates a
  process.
-/

namespace TiramisuAgents.Events

open Tables Transactions

/-! ### Rows and their deliveries -/

/-- The messages that deliver an event. -/
def Database.deliveries (db : Database) (eventId : UUID) : List OutboxMessage :=
  db.outbox.filter fun m => m.Delivers eventId

/-- A source key has one row; a row that is matched and not only recorded has one message, which is
addressed to its process, and any other row has none. -/
structure Recorded (db : Database) : Prop where
  keys : Keyed InboxRow.key db.inbox
  processes : Keyed ProcessRow.id db.processes
  delivered : ∀ row ∈ db.inbox, row.Delivers →
    ∃ m, db.deliveries row.id = [m] ∧ Addressed db row m
  silent : ∀ row ∈ db.inbox, ¬ row.Delivers → db.deliveries row.id = []

/-- What a duplicate of a row is told. -/
def Database.result (db : Database) (row : InboxRow) : IngestionResult :=
  ⟨row.id, false, row.correlationStatus, row.correlationReason, row.processInstanceId,
    (db.deliveries row.id).head?.map OutboxMessage.id⟩

namespace Consistent

variable {db : Database}

lemma deliveries (h : Consistent db) (eventId : UUID) :
    db.deliveries eventId = db.caused eventId := by
  refine List.filter_congr fun m hm => ?_
  have hshaped := (h.shaped m hm).delivers eventId
  simp only [hshaped]

lemma recorded (h : Consistent db) : Recorded db where
  keys := h.keys
  processes := h.processes
  delivered row hrow hdelivers := by
    rw [h.deliveries]
    exact h.delivered row hrow hdelivers
  silent row hrow hquiet := by
    rw [h.deliveries]
    exact h.silent row hrow hquiet

/-- The query of `_existing_result` finds one row at most. -/
lemma storedResult (h : Consistent db) {row : InboxRow} (hrow : row ∈ db.inbox) :
    db.storedResult row = .ok (db.result row) := by
  have hdeliveries := h.deliveries row.id
  rw [Database.storedResult, Database.result, hdeliveries]
  by_cases hdelivers : row.Delivers
  · obtain ⟨m, hm, -⟩ := h.delivered row hrow hdelivers
    rw [hm]
    rfl
  · rw [h.silent row hrow hdelivers]
    rfl

/-- The row of a source key. -/
lemma event_mem {key : SourceKey} {row : InboxRow} (hrow : db.event key = some row) :
    row ∈ db.inbox :=
  (lookup_mem hrow).1

end Consistent

/-! ### Duplicates -/

/-- A step of an ingestion.  It is told of the row of its source key if it finds one; it adds a row
for a new source key only; a duplicate is told of the row that is stored, and changes nothing; and
before the end nothing changes. -/
structure Idempotent (e : CanonicalEvent) (i : Ingesting) (x : CallInput) (db : Database)
    (t' : Stage) (db' : Database) : Prop where
  found : i = .keyed → x = .answer .go → ∀ row, db.event e.key = some row →
    t' = .ended (.ingested (db.result row))
  new : ∀ result, t' = .ended (.ingested result) → result.created = true → db.event e.key = none
  duplicate : ∀ result, t' = .ended (.ingested result) → result.created = false →
    db' = db ∧ ∃ row, db.event e.key = some row ∧ result = db.result row
  before : (∀ result, t' ≠ .ended (.ingested result)) → db' = db

/-- The insert of an ingestion that has written a process or references finds a row. -/
def Overtaken (db : Database) (t : Stage) (x : CallInput) : Prop :=
  ∃ e b c id id' now, t = .ingesting e b (.bound c) ∧ x = .answer (.fresh id id' now) ∧
    (c.created ≠ none ∨ c.additions ≠ []) ∧ db.conflicts c.created c.additions = false ∧
    db.event e.key ≠ none

section

variable {P : Platform} {t t' u : Stage} {x : CallInput} {db db' : Database}
  {obs : List IngestionEvent} {e : CanonicalEvent} {b : Option ProcessBootstrap} {i : Ingesting}

/-- A correlation that has written nothing. -/
lemma correlate_none (processId : Option UUID) : db.correlate processId none [] = db := by
  cases processId <;> simp [Database.correlate]

/-- A correlation that has written something. -/
lemma correlate_ne {c : Correlation} (hc : c.Sound)
    (hwritten : c.created ≠ none ∨ c.additions ≠ []) :
    db.correlate c.processId c.created c.additions ≠ db := by
  intro heq
  obtain hcreated | hadditions := hwritten
  · obtain ⟨process, hprocess⟩ := Option.ne_none_iff_exists'.mp hcreated
    have hlength := congrArg (fun db => db.processes.length) heq
    simp [Database.correlate, hprocess] at hlength
  · obtain ⟨processId, hprocess⟩ := Option.ne_none_iff_exists'.mp (hc.bound hadditions)
    have hlength := congrArg (fun db => db.correlations.length) heq
    simp [Database.correlate, hprocess, hadditions] at hlength

/-- What an ingestion is told when it looks its source key up. -/
lemma next_known (hdb : Consistent db) {row : InboxRow} (hrow : db.event e.key = some row) :
    next P (.ingesting e b .keyed) (.answer .go) db
      = some (.ended (.ingested (db.result row)), db, []) := by
  have hstored := hdb.storedResult (Consistent.event_mem hrow)
  simp [next, Stage.statement, Ingesting.statement, hrow, hstored, Stage.stop, Stage.keep]

/-- What an ingestion is told when its insert finds a row. -/
lemma next_repeated (hdb : Consistent db) {c : Correlation} {row : InboxRow} {id id' : UUID}
    {now : Time} (hfree : db.conflicts c.created c.additions = false)
    (hrow : db.event e.key = some row) :
    next P (.ingesting e b (.bound c)) (.answer (.fresh id id' now)) db
      = some (.ended (.ingested (db.result row)),
          db.correlate c.processId c.created c.additions,
          c.created.toList.map fun process => IngestionEvent.created process.id e) := by
  have hstored : (db.correlate c.processId c.created c.additions).storedResult row
      = .ok (db.result row) := hdb.storedResult (Consistent.event_mem hrow)
  simp [next, Stage.statement, Ingesting.statement, commitIngest, hfree, hrow, hstored]

/-- **A step treats a duplicate right unless the ingestion is overtaken.** -/
lemma idempotent_iff (h : next P (.ingesting e b i) x db = some (t', db', obs))
    (hdb : Consistent db) (ht : (Stage.ingesting e b i).Knows db) :
    Idempotent e i x db t' db' ↔ ¬ Overtaken db (.ingesting e b i) x := by
  constructor
  · rintro hstep ⟨e', b', c, id, id', now, hstage, rfl, hwritten, hfree, hfound⟩
    cases hstage
    obtain ⟨row, hrow⟩ := Option.ne_none_iff_exists'.mp hfound
    rw [next_repeated hdb hfree hrow] at h
    cases h
    exact correlate_ne ht hwritten (hstep.duplicate _ rfl rfl).1
  · intro hclear
    have hfound : i = .keyed → x = .answer .go → ∀ row, db.event e.key = some row →
        t' = .ended (.ingested (db.result row)) := by
      rintro rfl rfl row hrow
      rw [next_known hdb hrow] at h
      cases h
      rfl
    have hstep := Step.of_next h
    cases hstep with
    | known e b row result hrow hstored =>
        rw [hdb.storedResult (Consistent.event_mem hrow)] at hstored
        cases hstored
        refine ⟨hfound, ?_, ?_, fun _ => rfl⟩
        · rintro _ ⟨⟩ hcreated
          cases hcreated
        · rintro _ ⟨⟩ -
          exact ⟨rfl, row, hrow, rfl⟩
    | repeated e b c id id' now row result hfree hrow hstored =>
        have hnothing : c.created = none ∧ c.additions = [] := by
          by_contra hwritten
          refine hclear ⟨e, b, c, id, id', now, rfl, rfl, ?_, hfree, by simp [hrow]⟩
          rwa [not_and_or] at hwritten
        obtain ⟨hcreated, hadditions⟩ := hnothing
        rw [hcreated, hadditions, correlate_none] at hstored ⊢
        rw [hdb.storedResult (Consistent.event_mem hrow)] at hstored
        cases hstored
        refine ⟨hfound, ?_, ?_, fun _ => rfl⟩
        · rintro _ ⟨⟩ hnew
          cases hnew
        · rintro _ ⟨⟩ -
          exact ⟨rfl, row, hrow, rfl⟩
    | insert e b c id id' now inserted hfree hnew =>
        refine ⟨hfound, fun _ _ _ => hnew, ?_, fun hother => absurd rfl (hother _)⟩
        rintro _ ⟨⟩ hcreated
        cases hcreated
    | deliver e b c id id' now inserted processId outboxId outbox hfree hnew =>
        refine ⟨hfound, fun _ _ _ => hnew, ?_, fun hother => absurd rfl (hother _)⟩
        rintro _ ⟨⟩ hcreated
        cases hcreated
    | halt resting quiet =>
        exact ⟨hfound, fun result h => absurd h (quiet result),
          fun result h => absurd h (quiet result),
          fun _ => rfl⟩
    | start c hresting => cases hresting
    | _ => exact ⟨hfound, by simp, by simp, fun _ => rfl⟩

/-! ### Who overtakes -/

/-- An ingestion has looked its source key up. -/
def Ingesting.looked : Ingesting → Bool
  | .opening | .admitted | .keyed => false
  | _ => true

/-- From its lookup on, an ingestion finds no row under its source key, but that of a manual wake. -/
def Stage.Alone (db : Database) : Stage → Prop
  | .ingesting e _ i => i.looked = true → ∀ row, db.event e.key = some row →
      row.eventType = "operator.manual_wake"
  | _ => True

/-- The rows under a source key: a call without its lock adds the row of a manual wake only. -/
lemma Step.event_kept (h : Step P t x db t' db' obs) (hdb : Consistent db) {key : SourceKey}
    (hlock : .event key ∉ t.locks) {row : InboxRow} (hrow : db'.event key = some row) :
    row.eventType = "operator.manual_wake" ∨
      ∃ row', db.event key = some row' ∧ row'.eventType = row.eventType := by
  obtain ⟨hmem, hkey⟩ := lookup_mem hrow
  have same (hold : row ∈ db.inbox) : row.eventType = "operator.manual_wake" ∨
      ∃ row', db.event key = some row' ∧ row'.eventType = row.eventType :=
    .inr ⟨row, hdb.keys.lookup_eq_some.mpr ⟨hold, hkey⟩, rfl⟩
  have grown {r : InboxRow} (hinbox : db'.inbox = db.inbox ++ [r])
      (hr : r.key = key → r.eventType = "operator.manual_wake") :
      row.eventType = "operator.manual_wake" ∨
        ∃ row', db.event key = some row' ∧ row'.eventType = row.eventType := by
    rw [hinbox] at hmem
    obtain hold | hnew := List.mem_append.mp hmem
    · exact same hold
    · obtain rfl := List.mem_singleton.mp hnew
      exact .inl (hr hkey)
  have resolved {id processId : UUID} {late : Bool} (hinbox : db'.inbox
      = modify InboxRow.id id (fun row => row.resolve processId late) db.inbox) :
      row.eventType = "operator.manual_wake" ∨
        ∃ row', db.event key = some row' ∧ row'.eventType = row.eventType := by
    rw [hinbox] at hmem
    obtain ⟨r, hr, -, rfl⟩ | ⟨hold, -⟩ := mem_modify.mp hmem
    · exact .inr ⟨r, hdb.keys.lookup_eq_some.mpr ⟨hr, hkey⟩, rfl⟩
    · exact same hold
  -- an ingestion that inserts holds the lock of its source key
  have locked (e : CanonicalEvent) (b : Option ProcessBootstrap) (c : Correlation)
      (hkey' : e.key = key) : EventLock.event key ∈ (Stage.ingesting e b (.bound c)).locks := by
    simp [Stage.locks, Ingesting.locks, CanonicalEvent.locks, hkey']
  cases h with
  | insert e b c id id' now inserted hfree hnew hunused hwritten =>
      subst hwritten
      exact grown rfl fun hkey' => absurd (locked e b c hkey') hlock
  | deliver e b c id id' now inserted processId outboxId outbox hfree hnew hunused hwritten =>
      subst hwritten
      exact grown rfl fun hkey' => absurd (locked e b c hkey') hlock
  | recordResolution => exact resolved rfl
  | deliverResolution c e row process additions id id' now db₁ outbox outboxId hfree htimely
      hwritten =>
      subst hwritten
      exact resolved rfl
  | wake => exact grown rfl fun _ => rfl
  | _ => exact same hmem

/-- A step keeps an ingestion alone. -/
lemma Step.alone (h : Step P t x db t' db' obs) (ht : t.Alone db) : t'.Alone db' := by
  cases h with
  | halt resting => cases t' with
    | idle => trivial
    | ended => trivial
    | _ => cases resting
  | start c => cases c with
    | ingest e b => exact fun hlooked => by cases hlooked
    | _ => trivial
  | ingestEvent => exact fun hlooked => by cases hlooked
  | lockKey => exact fun hlooked => by cases hlooked
  | look e b hnew =>
      intro _ row hrow
      rw [hnew] at hrow
      cases hrow
  | lockReferences => exact fun _ => ht rfl
  | reject => exact fun _ => ht rfl
  | name => exact fun _ => ht rfl
  | resolve => exact fun _ => ht rfl
  | create => exact fun _ => ht rfl
  | leave => exact fun _ => ht rfl
  | hold => exact fun _ => ht rfl
  | bind => exact fun _ => ht rfl
  | _ => trivial

/-- An ingestion past its lookup holds the lock of its source key. -/
lemma Ingesting.locks_event (hlooked : i.looked = true) : .event e.key ∈ i.locks e := by
  cases i with
  | opening => cases hlooked
  | admitted => cases hlooked
  | keyed => cases hlooked
  | _ => simp [Ingesting.locks, CanonicalEvent.locks]

/-- A step keeps the other ingestions alone. -/
lemma Step.alone_other (h : Step P t x db t' db' obs) (hdb : Consistent db)
    (hlocks : ∀ l ∈ u.locks, l ∉ t.locks) (hu : u.Alone db) : u.Alone db' := by
  cases u with
  | ingesting e b i =>
      intro hlooked row hrow
      have hlock := hlocks _ (Ingesting.locks_event (e := e) hlooked)
      obtain hmanual | ⟨row', hrow', htype⟩ := h.event_kept hdb hlock hrow
      · exact hmanual
      · rw [← htype]
        exact hu hlooked row' hrow'
  | _ => trivial

/-! ### Runs -/

variable {n : ℕ} {s s' : Pool n Database Stage IngestionEvent}
  {ms : List (Fin n × CallInput)}

/-- A tenant without processes and events. -/
def noEvents (n : ℕ) : Pool n Database Stage IngestionEvent where
  store := {}
  calls _ := .idle
  log := []

/-- Every step keeps the tables consistent, and what the calls know. -/
lemma consistent_joint : Joint (calls P) (fun _ _ _ _ => True) (fun _ _ _ _ => True)
    (fun db _ => Consistent db) (fun t db _ => t.Knows db ∧ t.Alone db) where
  own h _ hdb ht :=
    have hstep := Step.of_next h
    ⟨hstep.consistent hdb ht.1, hstep.knows ht.1, hstep.alone ht.2⟩
  other h _ _ hlocks hdb ht hu :=
    have hstep := Step.of_next h
    ⟨hstep.knows_other hlocks ht.1 hu.1, hstep.alone_other hdb hlocks hu.2⟩

/-- The invariant of the runs. -/
abbrev Consistently (P : Platform) (s : Pool n Database Stage IngestionEvent) : Prop :=
  Joint.Holds (calls P) (fun db _ => Consistent db) (fun t db _ => t.Knows db ∧ t.Alone db) s

lemma consistently_noEvents : Consistently P (noEvents n) where
  exclusive i j l hi := by cases hi
  common := consistent_empty
  calls i := ⟨trivial, trivial⟩

lemma Consistently.step {m : Fin n × CallInput} (hs : Consistently P s)
    (h : s.step (calls P) m = some s') : Consistently P s' :=
  consistent_joint.step hs trivial (fun _ _ => trivial) h

/-- What a step does to the duplicates. -/
def IdempotentStep (P : Platform) (s : Pool n Database Stage IngestionEvent)
    (m : Fin n × CallInput) : Prop :=
  ∀ e b i s', s.calls m.1 = .ingesting e b i → s.step (calls P) m = some s' →
    Idempotent e i m.2 s.store (s'.calls m.1) s'.store

lemma idempotentStep_iff {m : Fin n × CallInput} (hs : Consistently P s)
    (h : s.step (calls P) m = some s') :
    IdempotentStep P s m ↔ ¬ Overtaken s.store (s.calls m.1) m.2 := by
  obtain ⟨j, x⟩ := m
  obtain ⟨t, db, obs, hnext, -, rfl⟩ := step_eq_some h
  constructor
  · intro hstep hover
    have hover' := hover
    obtain ⟨e, b, c, id, id', now, hstage, -⟩ := hover'
    have hidempotent := hstep e b _ _ hstage h
    dsimp only at hidempotent hover hstage
    rw [Function.update_self] at hidempotent
    rw [hstage] at hnext hover
    refine (idempotent_iff hnext hs.common ?_).mp hidempotent hover
    rw [← hstage]
    exact (hs.calls j).1
  · intro hclear e b i s'' hstage hstep
    obtain rfl := Option.some.inj (hstep.symm.trans h)
    dsimp only at hstage hclear ⊢
    rw [Function.update_self]
    rw [hstage] at hnext hclear
    refine (idempotent_iff hnext hs.common ?_).mpr hclear
    rw [← hstage]
    exact (hs.calls j).1

/-- **The inbox and the outbox are consistent after every run.**  Along a run every duplicate
changes nothing and is told of the stored row, if and only if no ingestion that has written a
process or references finds a row under its source key when it inserts its own.  Such a row is
that of a manual wake. -/
theorem inbox_outbox_consistent (h : Runs (calls P) (fun _ _ => True) (noEvents n) ms s) :
    Recorded s.store ∧
    (Runs (calls P) (fun s m => Recorded s.store ∧ IdempotentStep P s m) (noEvents n) ms s ↔
      Runs (calls P) (fun s m => ¬ Overtaken s.store (s.calls m.1) m.2) (noEvents n) ms s) ∧
    ∀ i e b c, s.calls i = .ingesting e b (.bound c) → ∀ row, s.store.event e.key = some row →
      row.eventType = "operator.manual_wake" := by
  have hs : Consistently P s :=
    h.invariant (fun _ _ _ hs _ hstep => hs.step hstep) consistently_noEvents
  refine ⟨hs.common.recorded, ⟨fun hruns => ?_, fun hruns => ?_⟩, fun i e b c hstage => ?_⟩
  · refine (hruns.refine (fun s₁ m s₂ ms₂ hs₁ hm hstep _ => ?_)
      (consistently_noEvents (P := P))).1
    exact ⟨(idempotentStep_iff hs₁ hstep).mp hm.2, hs₁.step hstep⟩
  · refine (hruns.refine (fun s₁ m s₂ ms₂ hs₁ hm hstep _ => ?_)
      (consistently_noEvents (P := P))).1
    exact ⟨⟨hs₁.common.recorded, (idempotentStep_iff hs₁ hstep).mpr hm⟩, hs₁.step hstep⟩
  · have halone := (hs.calls i).2
    rw [hstage] at halone
    exact halone rfl

end

/-! ### Two runs -/

/-- A tenant. -/
def samplePlatform : Platform where
  tenantId := "tenant"

/-- An event about one reference. -/
def sampleEvent (eventId source sourceEventId externalId : String) : CanonicalEvent where
  eventId := eventId
  eventType := "deal.opened"
  source := source
  sourceEventId := sourceEventId
  externalReferences := [⟨"crm", "deal", externalId⟩]

/-- The answers to a trigger that finds no process. -/
def triggerAnswers (processId : UUID) : List Answer :=
  [.check none, .go, .go, .go, .go, .go, .fresh processId "" 0, .go, .go]

/-- A call, and the answers to its statements. -/
def moves {n : ℕ} (i : Fin n) (c : Call) (answers : List Answer) : List (Fin n × CallInput) :=
  (i, .call c) :: answers.map fun x => (i, .answer x)

/-- A trigger is ingested twice. -/
theorem inbox_outbox_consistent_duplicate :
    ∃ (ms : List (Fin 1 × CallInput)) (s : Pool 1 Database Stage IngestionEvent),
    Runs (calls samplePlatform) (fun _ _ => True) (noEvents 1) ms s ∧
    s.calls 0 = .ended (.ingested ⟨"e", false, .matched, some "process_created_from_trigger",
      some "p", some "o"⟩) ∧
    Recorded s.store ∧
    (Runs (calls samplePlatform) (fun s m => Recorded s.store ∧ IdempotentStep samplePlatform s m)
        (noEvents 1) ms s ↔
      Runs (calls samplePlatform) (fun s m => ¬ Overtaken s.store (s.calls m.1) m.2)
        (noEvents 1) ms s) ∧
    ∀ i e b c, s.calls i = .ingesting e b (.bound c) → ∀ row, s.store.event e.key = some row →
      row.eventType = "operator.manual_wake" := by
  let e := sampleEvent "e" "crm" "1" "d"
  let ms : List (Fin 1 × CallInput) := List.flatten
    [moves 0 (.ingest e (some {})) (triggerAnswers "p" ++ [.fresh "o" "" 0]),
      moves 0 (.ingest { e with eventId := "e'" } (some {})) [.check none, .go, .go]]
  obtain ⟨s, hruns, hended⟩ := exists_runs (C := calls samplePlatform) (s := noEvents 1)
    (fun _ _ => true) ms
    (fun s => s.calls 0 = .ended (.ingested ⟨"e", false, .matched,
      some "process_created_from_trigger", some "p", some "o"⟩)) (by decide +kernel)
  have hruns := hruns.mono (H := fun _ _ => True) fun _ _ _ => trivial
  exact ⟨ms, s, hruns, of_decide_eq_true hended, inbox_outbox_consistent hruns⟩

/-- A manual wake stores its event while a trigger with the same source key has created a process.
The trigger is told that it is a duplicate, and its process is committed. -/
theorem overtaken_by_wake :
    ∃ (ms : List (Fin 2 × CallInput)) (m : Fin 2 × CallInput)
      (s s' : Pool 2 Database Stage IngestionEvent) (result : IngestionResult),
    Runs (calls samplePlatform) (fun _ _ => True) (noEvents 2) ms s ∧
    s.step (calls samplePlatform) m = some s' ∧ s'.calls m.1 = .ended (.ingested result) ∧
    result.created = false ∧ s.store.processes.length = 1 ∧ s'.store.processes.length = 2 := by
  let ms : List (Fin 2 × CallInput) := List.flatten
    [moves 0 (.ingest (sampleEvent "e" "crm" "1" "d") (some {}))
        (triggerAnswers "p" ++ [.fresh "o" "" 0]),
      moves 1 (.ingest (sampleEvent "e'" "operator" "w" "d'") (some {})) (triggerAnswers "p'"),
      moves 0 (.control ⟨"w", "p", "wake", none⟩)
        [.check none, .go, .check none, .fresh "e''" "o''" 0]]
  let m : Fin 2 × CallInput := (1, .answer (.fresh "o'" "" 0))
  let result : IngestionResult :=
    ⟨"e''", false, .matched, some "operator_manual_wake", some "p", some "o''"⟩
  obtain ⟨s, hruns, hlast⟩ := exists_runs (C := calls samplePlatform) (s := noEvents 2)
    (fun _ _ => true) ms
    (fun s => (s.step (calls samplePlatform) m).any fun s' =>
      s'.calls m.1 = .ended (.ingested result) ∧ s.store.processes.length = 1 ∧
        s'.store.processes.length = 2) (by decide +kernel)
  obtain ⟨s', hstep, hended⟩ := Option.any_eq_true _ _ |>.mp hlast
  obtain ⟨hended, hbefore, hafter⟩ := of_decide_eq_true hended
  exact ⟨ms, m, s, s', result, hruns.mono fun _ _ _ => trivial, hstep, hended, rfl, hbefore,
    hafter⟩

end TiramisuAgents.Events
