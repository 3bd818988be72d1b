import TiramisuAgents.Events.Calls

/-!
What one statement of a call on the events of a tenant does.

* `Step`, `Step.of_next`: the kinds of statements, with what they have checked.
-/

namespace TiramisuAgents.Events

open Tables

/-- A step of a call. -/
inductive Step (P : Platform) : Stage → CallInput → Database → Stage → Database →
    List IngestionEvent → Prop
  | halt {t t' : Stage} {x : CallInput} {db : Database} (resting : t'.resting = true)
      (quiet : ∀ result, t' ≠ .ended (.ingested result)) : Step P t x db t' db []
  | start {t : Stage} {db : Database} (c : Call) (resting : t.resting = true) :
      Step P t (.call c) db c.start db []
  | ingestEvent {db : Database} (e : CanonicalEvent) (b : Option ProcessBootstrap)
      (business : e.eventType ∉ reservedKernelEventTypes) :
      Step P (.ingesting e b .opening) (.answer (.check none)) db (.ingesting e b .admitted) db []
  | lockKey {db : Database} (e : CanonicalEvent) (b : Option ProcessBootstrap) :
      Step P (.ingesting e b .admitted) (.answer .go) db (.ingesting e b .keyed) db []
  | known {db : Database} (e : CanonicalEvent) (b : Option ProcessBootstrap) (row : InboxRow)
      (result : IngestionResult) (found : db.event e.key = some row)
      (stored : db.storedResult row = .ok result) :
      Step P (.ingesting e b .keyed) (.answer .go) db (.ended (.ingested result)) db []
  | look {db : Database} (e : CanonicalEvent) (b : Option ProcessBootstrap)
      (new : db.event e.key = none) (referenced : b.isSome → e.externalReferences ≠ []) :
      Step P (.ingesting e b .keyed) (.answer .go) db (.ingesting e b .unseen) db []
  | lockReferences {db : Database} (e : CanonicalEvent) (b : Option ProcessBootstrap) :
      Step P (.ingesting e b .unseen) (.answer .go) db (.ingesting e b .referenced) db []
  | reject {db : Database} (e : CanonicalEvent) (b : Option ProcessBootstrap) (processId : UUID)
      (explicit : e.processInstanceId = some processId) (missing : db.process processId = none) :
      Step P (.ingesting e b .referenced) (.answer .go) db
        (.ingesting e b (.resolved { processId := none, status := .rejected
                                     reason := "explicit_process_not_found" })) db []
  | name {db : Database} (e : CanonicalEvent) (b : Option ProcessBootstrap)
      (present : ∀ processId, e.processInstanceId = some processId → db.process processId ≠ none) :
      Step P (.ingesting e b .referenced) (.answer .go) db
        (.ingesting e b (.candidates e.processInstanceId)) db []
  | resolve {db : Database} (e : CanonicalEvent) (b : Option ProcessBootstrap)
      (explicit : Option UUID) :
      Step P (.ingesting e b (.candidates explicit)) (.answer .go) db
        (.ingesting e b (.resolved (db.resolveProcess e explicit))) db []
  | create {db : Database} (e : CanonicalEvent) (b : ProcessBootstrap) (c : Correlation)
      (processId id : UUID) (now : Time) (unmatched : c.processId = none)
      (reason : c.reason = "no_process_match") (new : db.process processId = none) :
      Step P (.ingesting e (some b) (.resolved c)) (.answer (.fresh processId id now)) db
        (.ingesting e (some b) (.resolved
          { processId := some processId, status := .matched
            reason := "process_created_from_trigger"
            created := some (b.process P.tenantId processId) })) db []
  | leave {db : Database} (e : CanonicalEvent) (b : Option ProcessBootstrap) (c : Correlation)
      (unmatched : c.status = .matched → c.processId = none)
      (trigger : b.isSome → c.processId = none → c.reason ≠ "no_process_match") :
      Step P (.ingesting e b (.resolved c)) (.answer .go) db (.ingesting e b (.bound c)) db []
  | hold {db : Database} (e : CanonicalEvent) (b : Option ProcessBootstrap) (c : Correlation)
      (processId : UUID) (process : ProcessRow) (matched : c.status = .matched)
      (named : c.processId = some processId)
      (found : c.created.or (db.process processId) = some process) :
      Step P (.ingesting e b (.resolved c)) (.answer .go) db
        (.ingesting e b (.holding c processId process)) db []
  | bind {db : Database} (e : CanonicalEvent) (b : Option ProcessBootstrap) (c : Correlation)
      (processId : UUID) (process : ProcessRow) (late : Bool) (additions : List ExternalReference)
      (checked : process.late = .ok late)
      (added : db.persistReferences processId e.externalReferences = .ok additions) :
      Step P (.ingesting e b (.holding c processId process)) (.answer .go) db
        (.ingesting e b (.bound
          { c with
            reason := if late then terminalRecordOnly else c.reason
            delivers := !late
            additions := additions })) db []
  | repeated {db : Database} (e : CanonicalEvent) (b : Option ProcessBootstrap) (c : Correlation)
      (id id' : UUID) (now : Time) (row : InboxRow) (result : IngestionResult)
      (free : db.conflicts c.created c.additions = false) (found : db.event e.key = some row)
      (stored : (db.correlate c.processId c.created c.additions).storedResult row = .ok result) :
      Step P (.ingesting e b (.bound c)) (.answer (.fresh id id' now)) db
        (.ended (.ingested result)) (db.correlate c.processId c.created c.additions)
        (c.created.toList.map fun process => IngestionEvent.created process.id e)
  | insert {db : Database} (e : CanonicalEvent) (b : Option ProcessBootstrap) (c : Correlation)
      (id id' : UUID) (now : Time) (inserted : Database)
      (free : db.conflicts c.created c.additions = false) (new : db.event e.key = none)
      (unused : lookup InboxRow.id e.eventId db.inbox = none)
      (written : inserted = { db.correlate c.processId c.created c.additions with
        inbox := db.inbox ++ [e.row c] })
      (kept : (if c.status = .matched ∧ c.delivers then c.processId else none) = none) :
      Step P (.ingesting e b (.bound c)) (.answer (.fresh id id' now)) db
        (.ended (.ingested ⟨e.eventId, true, c.status, some c.reason, c.processId, none⟩)) inserted
        (c.created.toList.map fun process => IngestionEvent.created process.id e)
  | deliver {db : Database} (e : CanonicalEvent) (b : Option ProcessBootstrap) (c : Correlation)
      (id id' : UUID) (now : Time) (inserted : Database) (processId outboxId : UUID)
      (outbox : List OutboxMessage)
      (free : db.conflicts c.created c.additions = false) (new : db.event e.key = none)
      (unused : lookup InboxRow.id e.eventId db.inbox = none)
      (written : inserted = { db.correlate c.processId c.created c.additions with
        inbox := db.inbox ++ [e.row c] })
      (delivered : (if c.status = .matched ∧ c.delivers then c.processId else none)
        = some processId)
      (scheduled : inserted.scheduleDelivery e processId id now = .ok (outbox, outboxId)) :
      Step P (.ingesting e b (.bound c)) (.answer (.fresh id id' now)) db
        (.ended (.ingested ⟨e.eventId, true, c.status, some c.reason, c.processId, some outboxId⟩))
        { inserted with outbox := outbox }
        (c.created.toList.map fun process => IngestionEvent.created process.id e)
  | admitResolve {db : Database} (c : ResolveQuarantineInput) :
      Step P (.resolving c .opening) (.answer (.check none)) db (.resolving c .admitted) db []
  | lockResolve {db : Database} (c : ResolveQuarantineInput) :
      Step P (.resolving c .admitted) (.answer .go) db (.resolving c .commanded) db []
  | freshResolve {db : Database} (c : ResolveQuarantineInput) :
      Step P (.resolving c .commanded) (.answer .go) db (.resolving c .loading) db []
  | load {db : Database} (c : ResolveQuarantineInput) (row : InboxRow)
      (found : lookup InboxRow.id c.eventId db.inbox = some row)
      (own : c.bindReferences ⊆ row.eventData.externalReferences) :
      Step P (.resolving c .loading) (.answer .go) db (.resolving c (.loaded row.eventData)) db []
  | lockResolveKey {db : Database} (c : ResolveQuarantineInput) (e : CanonicalEvent) :
      Step P (.resolving c (.loaded e)) (.answer .go) db (.resolving c (.keyed e)) db []
  | lockResolveReferences {db : Database} (c : ResolveQuarantineInput) (e : CanonicalEvent) :
      Step P (.resolving c (.keyed e)) (.answer .go) db (.resolving c (.referenced e)) db []
  | lockRow {db : Database} (c : ResolveQuarantineInput) (e : CanonicalEvent) (row : InboxRow)
      (found : lookup InboxRow.id c.eventId db.inbox = some row)
      (open_ : row.correlationStatus ≠ .matched) :
      Step P (.resolving c (.referenced e)) (.answer .go) db (.resolving c (.held e row)) db []
  | lockProcess {db : Database} (c : ResolveQuarantineInput) (e : CanonicalEvent) (row : InboxRow)
      (process : ProcessRow) (found : db.process c.processInstanceId = some process) :
      Step P (.resolving c (.held e row)) (.answer (.check none)) db
        (.resolving c (.holding e row process)) db []
  | bindResolve {db : Database} (c : ResolveQuarantineInput) (e : CanonicalEvent) (row : InboxRow)
      (process : ProcessRow) (additions : List ExternalReference)
      (added : db.persistReferences process.id c.bindReferences = .ok additions) :
      Step P (.resolving c (.holding e row process)) (.answer .go) db
        (.resolving c (.bound e row process additions)) db []
  | recordResolution {db : Database} (c : ResolveQuarantineInput) (e : CanonicalEvent)
      (row : InboxRow) (process : ProcessRow) (additions : List ExternalReference) (id id' : UUID)
      (now : Time) (free : db.conflicts none additions = false)
      (late : process.status.terminal = true) :
      Step P (.resolving c (.bound e row process additions)) (.answer (.fresh id id' now)) db
        (.ended (.resolved (c.row row true)))
        { db.correlate (some process.id) none additions with
          inbox := modify InboxRow.id row.id (fun row => row.resolve process.id true) db.inbox
          resolutions := db.resolutions ++ [c.row row true] } []
  | deliverResolution {db : Database} (c : ResolveQuarantineInput) (e : CanonicalEvent)
      (row : InboxRow) (process : ProcessRow) (additions : List ExternalReference) (id id' : UUID)
      (now : Time) (resolved : Database) (outbox : List OutboxMessage) (outboxId : UUID)
      (free : db.conflicts none additions = false) (timely : process.status.terminal = false)
      (written : resolved = { db.correlate (some process.id) none additions with
        inbox := modify InboxRow.id row.id (fun row => row.resolve process.id false) db.inbox
        resolutions := db.resolutions ++ [c.row row false] })
      (scheduled : resolved.scheduleDelivery e process.id id now = .ok (outbox, outboxId)) :
      Step P (.resolving c (.bound e row process additions)) (.answer (.fresh id id' now)) db
        (.ended (.resolved (c.row row false))) { resolved with outbox := outbox } []
  | admitControl {db : Database} (c : ControlInput) :
      Step P (.controlling c .opening) (.answer (.check none)) db (.controlling c .commanded) db []
  | freshControl {db : Database} (c : ControlInput) :
      Step P (.controlling c .commanded) (.answer .go) db (.controlling c .unused) db []
  | holdControl {db : Database} (c : ControlInput) (process : ProcessRow)
      (found : db.process c.processInstanceId = some process) :
      Step P (.controlling c .unused) (.answer (.check none)) db
        (.controlling c (.holding process)) db []
  | wake {db : Database} (c : ControlInput) (process : ProcessRow) (eventId outboxId : UUID)
      (now : Time) (wakes : c.wakes = true)
      (unused : lookup ControlRow.id c.commandId db.controls = none)
      (new : db.event (c.inboxRow eventId).key = none)
      (free : lookup InboxRow.id eventId db.inbox = none) :
      Step P (.controlling c (.holding process)) (.answer (.fresh eventId outboxId now)) db
        (.ended (.controlled c.row))
        { db with
          processes := modify ProcessRow.id process.id
            (fun row => { row with status := c.status row.status }) db.processes
          controls := db.controls ++ [c.row]
          inbox := db.inbox ++ [c.inboxRow eventId]
          outbox := enqueue db.outbox (manualWakeMessage outboxId c.commandId eventId
            (c.inboxRow eventId).eventType process.id process.workflowId now) } []
  | send {db : Database} (c : ControlInput) (process : ProcessRow) (eventId outboxId : UUID)
      (now : Time) (unused : lookup ControlRow.id c.commandId db.controls = none) :
      Step P (.controlling c (.holding process)) (.answer (.fresh eventId outboxId now)) db
        (.ended (.controlled c.row))
        { db with
          processes := modify ProcessRow.id process.id
            (fun row => { row with status := c.status row.status }) db.processes
          controls := db.controls ++ [c.row]
          outbox := enqueue db.outbox (controlMessage outboxId c.commandId c.commandType c.sources
            process.id process.workflowId now) } []
  | lockStatus {db : Database} (processId : UUID) (status : ProcessStatus) :
      Step P (.settingStatus processId status) (.answer .go) db
        (.settingStatusLocked processId status) db []
  | setStatus {db : Database} (processId : UUID) (status : ProcessStatus) :
      Step P (.settingStatusLocked processId status) (.answer .go) db (.ended .written)
        { db with
          processes := modify ProcessRow.id processId
            (fun row => { row with status := status }) db.processes } []

namespace Step

variable {P : Platform} {t t' : Stage} {x : CallInput} {db db' : Database}
  {obs : List IngestionEvent}

lemma of_raised {message : String}
    (h : Stage.stop (.raised message) db = some (t', db', obs)) : Step P t x db t' db' obs := by
  cases h
  exact .halt rfl (by simp)

lemma of_keep {u : Stage} (h : u.keep db = some (t', db', obs)) (hu : Step P t x db u db []) :
    Step P t x db t' db' obs := by
  cases h
  exact hu

/-- The commit of an ingestion. -/
lemma of_commit {e : CanonicalEvent} {b : Option ProcessBootstrap} {c : Correlation}
    {id id' : UUID} {now : Time} (h : commitIngest e c id now db = some (t', db', obs)) :
    Step P (.ingesting e b (.bound c)) (.answer (.fresh id id' now)) db t' db' obs := by
  rw [commitIngest] at h
  split at h
  · exact of_raised h
  rename_i hconflict
  have hfree : db.conflicts c.created c.additions = false := by simpa using hconflict
  dsimp only at h
  split at h
  · rename_i row hfound
    split at h
    · exact of_raised h
    · rename_i result hstored
      cases h
      exact .repeated e b c id id' now row result hfree hfound hstored
  · rename_i hnew
    split at h
    · exact of_raised h
    rename_i hused
    have hunused : lookup InboxRow.id e.eventId db.inbox = none := by simpa using hused
    split at h
    · rename_i hkept
      cases h
      exact .insert e b c id id' now _ hfree hnew hunused rfl hkept
    · rename_i processId hdelivered
      split at h
      · exact of_raised h
      · rename_i outbox outboxId hscheduled
        cases h
        exact .deliver e b c id id' now _ processId outboxId outbox hfree hnew hunused rfl
          hdelivered hscheduled

lemma of_ingesting {e : CanonicalEvent} {b : Option ProcessBootstrap} {i : Ingesting} {y : Answer}
    (h : i.statement P e b y db = some (t', db', obs)) :
    Step P (.ingesting e b i) (.answer y) db t' db' obs := by
  unfold Ingesting.statement at h
  split at h
  · split_ifs at h with hreserved
    · exact of_raised h
    · split at h
      · exact of_raised h
      · exact of_keep h (.ingestEvent e b hreserved)
  · exact of_keep h (.lockKey e b)
  · split at h
    · rename_i row hfound
      split at h
      · exact of_raised h
      · rename_i result hstored
        cases h
        exact .known e b row result hfound hstored
    · rename_i hnew
      split_ifs at h with htrigger
      · exact of_raised h
      · exact of_keep h (.look e b hnew fun hb hrefs => htrigger ⟨hb, hrefs⟩)
  · exact of_keep h (.lockReferences e b)
  · split at h
    · rename_i hnone
      rw [← hnone] at h
      exact of_keep h (.name e b fun p hp => by simp [hnone] at hp)
    · rename_i processId hnamed
      split at h
      · rename_i hmissing
        exact of_keep h (.reject e b processId hnamed hmissing)
      · rename_i process hfound
        rw [← hnamed] at h
        refine of_keep h (.name e b fun p hp => ?_)
        obtain rfl : processId = p := Option.some.inj (hnamed.symm.trans hp)
        simp [hfound]
  · exact of_keep h (.resolve e b _)
  · split at h
    · cases h
    · split_ifs at h with hcreate hused
      · exact of_raised h
      · obtain ⟨hunmatched, hreason, -⟩ := hcreate
        exact of_keep h (.create e _ _ _ _ _ hunmatched hreason (by simpa using hused))
  · split at h
    · cases h
    rename_i htrigger
    split at h
    · rename_i hunmatched
      refine of_keep h (.leave e b _ (fun hmatched => ?_) fun hb hnone hreason => ?_)
      · rwa [if_pos hmatched] at hunmatched
      · exact htrigger ⟨hb, hnone, hreason⟩
    · rename_i processId hnamed
      split at h
      · exact of_raised h
      · rename_i process hfound
        obtain ⟨hmatched, hnamed⟩ := Option.ite_none_right_eq_some.mp hnamed
        exact of_keep h (.hold e b _ processId process hmatched hnamed hfound)
  · split at h
    · exact of_raised h
    · rename_i late hchecked
      split at h
      · exact of_raised h
      · rename_i additions hadded
        exact of_keep h (.bind e b _ _ _ late additions hchecked hadded)
  · exact of_commit h
  · cases h

lemma of_resolving {c : ResolveQuarantineInput} {r : Resolving} {y : Answer}
    (h : r.statement c y db = some (t', db', obs)) :
    Step P (.resolving c r) (.answer y) db t' db' obs := by
  unfold Resolving.statement at h
  split at h
  · exact of_raised h
  · exact of_keep h (.admitResolve c)
  · exact of_keep h (.lockResolve c)
  · split at h
    · rw [ResolveQuarantineInput.replay] at h
      split_ifs at h
      · exact of_raised h
      · cases h
        exact .halt rfl (by simp)
    · exact of_keep h (.freshResolve c)
  · split at h
    · exact of_raised h
    · rename_i row hfound
      split_ifs at h with hreserved hown
      · exact of_raised h
      · exact of_keep h (.load c row hfound hown)
      · exact of_raised h
  · exact of_keep h (.lockResolveKey c _)
  · exact of_keep h (.lockResolveReferences c _)
  · split at h
    · exact of_raised h
    · rename_i row hfound
      split_ifs at h with hcorrelated
      · exact of_raised h
      · rw [not_or] at hcorrelated
        exact of_keep h (.lockRow c _ row hfound hcorrelated.1)
  · split at h
    · exact of_raised h
    · rename_i process hfound
      split at h
      · exact of_raised h
      · exact of_keep h (.lockProcess c _ _ process hfound)
  · split at h
    · exact of_raised h
    · split at h
      · exact of_raised h
      · rename_i additions hadded
        exact of_keep h (.bindResolve c _ _ _ additions hadded)
  · rename_i e row process additions outboxId id' now
    rw [commitResolution] at h
    split at h
    · exact of_raised h
    rename_i hconflict
    rw [not_or] at hconflict
    have hfree : db.conflicts none additions = false := by simpa using hconflict.1
    dsimp only at h
    cases hlate : process.status.terminal with
    | true =>
        rw [hlate, if_pos rfl] at h
        cases h
        exact .recordResolution c e row process additions outboxId id' now hfree hlate
    | false =>
        rw [hlate, if_neg (by simp)] at h
        split at h
        · exact of_raised h
        · rename_i outbox id hscheduled
          cases h
          exact .deliverResolution c e row process additions outboxId id' now _ outbox id hfree
            hlate rfl hscheduled
  · cases h

lemma of_controlling {c : ControlInput} {k : Controlling} {y : Answer}
    (h : k.statement c y db = some (t', db', obs)) :
    Step P (.controlling c k) (.answer y) db t' db' obs := by
  unfold Controlling.statement at h
  split at h
  · exact of_raised h
  · exact of_keep h (.admitControl c)
  · split at h
    · split_ifs at h
      · exact of_raised h
      · cases h
        exact .halt rfl (by simp)
    · exact of_keep h (.freshControl c)
  · split at h
    · exact of_raised h
    · rename_i process hfound
      split_ifs at h
      · exact of_raised h
      · split at h
        · exact of_raised h
        · exact of_keep h (.holdControl c process hfound)
  · rename_i process eventId outboxId now
    rw [commitControl] at h
    dsimp only at h
    split_ifs at h with hused hwakes htaken
    · exact of_raised h
    · exact of_raised h
    · rw [not_or] at htaken
      cases h
      exact .wake c process eventId outboxId now hwakes (by simpa using hused)
        (by simpa using htaken.1) (by simpa using htaken.2)
    · cases h
      exact .send c process eventId outboxId now (by simpa using hused)
  · cases h

/-- What a step is. -/
lemma of_next (h : next P t x db = some (t', db', obs)) : Step P t x db t' db' obs := by
  cases x with
  | call c =>
      rw [next] at h
      split_ifs at h with hresting
      exact of_keep h (.start c hresting)
  | crash =>
      cases h
      exact .halt rfl (by simp)
  | answer y =>
      rw [next] at h
      unfold Stage.statement at h
      split at h
      · exact of_ingesting h
      · exact of_resolving h
      · exact of_controlling h
      · exact of_keep h (.lockStatus _ _)
      · cases h
        exact .setStatus _ _
      · cases h

end Step

end TiramisuAgents.Events
