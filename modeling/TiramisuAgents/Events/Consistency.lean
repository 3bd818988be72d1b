import TiramisuAgents.Events.Steps

/-!
The inbox and the outbox.

An event is delivered when its row is matched, and a row is matched once: when it is inserted, or
when an operator resolves it, under the lock of the row.  Each of these writes the row and its
message in one transaction, under deduplication keys that no other message has.

* `Consistent`: the rows of the inbox and the messages they have caused.
* `Step.consistent`: one step; `consistent_runs`: every run.
-/

namespace TiramisuAgents.Events

open Tables Transactions

/-! ### Rows and messages -/

/-- The row is matched, and not only recorded. -/
def InboxRow.Delivers (row : InboxRow) : Prop :=
  row.correlationStatus = .matched ∧ row.correlationReason ≠ some terminalRecordOnly

/-- The message delivers an event. -/
def OutboxMessage.Delivers (m : OutboxMessage) (eventId : UUID) : Prop :=
  m.messageType = "temporal.process_event" ∧ m.payload.lookup "event_id" = some (.text eventId)

instance (m : OutboxMessage) (eventId : UUID) : Decidable (m.Delivers eventId) :=
  inferInstanceAs (Decidable (_ ∧ _))

/-- The message goes to the workflow of the process of the row, and carries its identity and its
type. -/
def Addressed (db : Database) (row : InboxRow) (m : OutboxMessage) : Prop :=
  ∃ process, row.processInstanceId = some process.id ∧ process ∈ db.processes ∧
    m.processInstanceId = some process.id ∧ m.destination = process.workflowId ∧
    m.payload = [("event_id", .text row.id), ("event_type", .text row.eventType)]

/-- A message delivers the event that it names as its cause, and its deduplication key is that of
the event or of a control. -/
structure Shaped (controls : List ControlRow) (m : OutboxMessage) : Prop where
  delivers : ∀ eventId, m.Delivers eventId ↔ m.causationEventId = some eventId
  key : (∃ eventId, m.deduplicationKey = s!"process-event:{eventId}" ∧
      m.causationEventId = some eventId) ∨
    ∃ c ∈ controls, m.deduplicationKey = s!"process-control:{c.id}"

lemma Shaped.mono {controls controls' : List ControlRow} {m : OutboxMessage}
    (h : Shaped controls m) (hsub : controls ⊆ controls') : Shaped controls' m := by
  refine ⟨h.delivers, h.key.imp_right ?_⟩
  rintro ⟨c, hc, hkey⟩
  exact ⟨c, hsub hc, hkey⟩

/-- The rows of the inbox and the messages they have caused. -/
structure Consistent (db : Database) : Prop where
  keys : Keyed InboxRow.key db.inbox
  ids : Keyed InboxRow.id db.inbox
  processes : Keyed ProcessRow.id db.processes
  data : ∀ row ∈ db.inbox, row.eventData.eventId = row.id ∧ row.eventData.eventType = row.eventType
  shaped : ∀ m ∈ db.outbox, Shaped db.controls m
  known : ∀ m ∈ db.outbox, ∀ eventId, m.causationEventId = some eventId →
    lookup InboxRow.id eventId db.inbox ≠ none
  delivered : ∀ row ∈ db.inbox, row.Delivers → ∃ m, db.caused row.id = [m] ∧ Addressed db row m
  silent : ∀ row ∈ db.inbox, ¬ row.Delivers → db.caused row.id = []

lemma consistent_empty : Consistent {} := by
  constructor <;> simp

/-! ### Keys -/

lemma eventKey_inj {i j : UUID} : s!"process-event:{i}" = s!"process-event:{j}" ↔ i = j := by
  refine ⟨fun h => ?_, fun h => by rw [h]⟩
  have hlist := congrArg String.toList h
  simpa [String.toList_append, toString, String.toList_inj] using hlist

lemma controlKey_inj {i j : UUID} :
    s!"process-control:{i}" = s!"process-control:{j}" ↔ i = j := by
  refine ⟨fun h => ?_, fun h => by rw [h]⟩
  have hlist := congrArg String.toList h
  simpa [String.toList_append, toString, String.toList_inj] using hlist

lemma eventKey_ne_controlKey {i j : UUID} :
    s!"process-event:{i}" ≠ s!"process-control:{j}" := by
  intro h
  have hlist := congrArg String.toList h
  simp [String.toList_append, toString] at hlist

section

variable {db db' : Database} {row : InboxRow} {m : OutboxMessage}

/-- No message has the key of an event that has caused none. -/
lemma Consistent.eventKey_free (h : Consistent db) {eventId : UUID}
    (hnone : db.caused eventId = []) :
    lookup OutboxMessage.deduplicationKey s!"process-event:{eventId}" db.outbox = none := by
  refine lookup_eq_none.mpr fun m hm hkey => ?_
  obtain ⟨id, hid, hcause⟩ | ⟨c, -, hc⟩ := (h.shaped m hm).key
  · obtain rfl : id = eventId := eventKey_inj.mp (hid.symm.trans hkey)
    have hmem : m ∈ db.caused id := List.mem_filter.mpr ⟨hm, by simpa using hcause⟩
    rw [hnone] at hmem
    cases hmem
  · exact eventKey_ne_controlKey (hkey.symm.trans hc)

/-- No message has the key of a control that is not stored. -/
lemma Consistent.controlKey_free (h : Consistent db) {commandId : UUID}
    (hnone : lookup ControlRow.id commandId db.controls = none) :
    lookup OutboxMessage.deduplicationKey s!"process-control:{commandId}" db.outbox = none := by
  refine lookup_eq_none.mpr fun m hm hkey => ?_
  obtain ⟨id, hid, -⟩ | ⟨c, hc, hck⟩ := (h.shaped m hm).key
  · exact eventKey_ne_controlKey (hid.symm.trans hkey)
  · exact lookup_eq_none.mp hnone c hc (controlKey_inj.mp (hck.symm.trans hkey))

/-- An identity that no row has, has caused nothing. -/
lemma Consistent.caused_new (h : Consistent db) {eventId : UUID}
    (hnew : lookup InboxRow.id eventId db.inbox = none) : db.caused eventId = [] := by
  refine List.filter_eq_nil_iff.mpr fun m hm => ?_
  have hother : m.causationEventId ≠ some eventId := fun hcause => h.known m hm eventId hcause hnew
  simpa using hother

/-! ### One lemma for each kind of write -/

/-- Processes keep their workflows, and controls are added. -/
lemma Consistent.kept (h : Consistent db) (hinbox : db'.inbox = db.inbox)
    (houtbox : db'.outbox = db.outbox) (hcontrols : db.controls ⊆ db'.controls)
    (hkeyed : Keyed ProcessRow.id db'.processes)
    (hprocess : ∀ p ∈ db.processes, ∃ p' ∈ db'.processes, p'.id = p.id ∧
      p'.workflowId = p.workflowId) : Consistent db' where
  keys := hinbox ▸ h.keys
  ids := hinbox ▸ h.ids
  processes := hkeyed
  data row hrow := h.data row (hinbox ▸ hrow)
  shaped m hm := (h.shaped m (houtbox ▸ hm)).mono hcontrols
  known m hm := by
    rw [hinbox]
    exact h.known m (houtbox ▸ hm)
  delivered row hrow hdelivers := by
    obtain ⟨m, hm, process, hid, hmem, hmid, hdestination, hpayload⟩ :=
      h.delivered row (hinbox ▸ hrow) hdelivers
    obtain ⟨p', hp', hpid, hworkflow⟩ := hprocess process hmem
    refine ⟨m, ?_, p', ?_, hp', ?_, ?_, hpayload⟩
    · rw [Database.caused, houtbox]
      exact hm
    · rw [hid, hpid]
    · rw [hmid, hpid]
    · rw [hdestination, hworkflow]
  silent row hrow hquiet := by
    rw [Database.caused, houtbox]
    exact h.silent row (hinbox ▸ hrow) hquiet

variable (row) in
/-- A row is written, with the message it causes if it is delivered. -/
lemma Consistent.write (h : Consistent db) (ms : List OutboxMessage)
    (hkeys : Keyed InboxRow.key db'.inbox) (hids : Keyed InboxRow.id db'.inbox)
    (hrows : ∀ r ∈ db'.inbox, (r ∈ db.inbox ∧ r.id ≠ row.id) ∨ r = row)
    (hold : ∀ r ∈ db.inbox, ∃ r' ∈ db'.inbox, r'.id = r.id) (hrow : row ∈ db'.inbox)
    (houtbox : db'.outbox = db.outbox ++ ms) (hprocesses : db'.processes = db.processes)
    (hcontrols : db.controls ⊆ db'.controls)
    (hdata : row.eventData.eventId = row.id ∧ row.eventData.eventType = row.eventType)
    (hnone : db.caused row.id = [])
    (hms : (row.Delivers ∧ ∃ m, ms = [m] ∧ Shaped db'.controls m ∧
        m.causationEventId = some row.id ∧ Addressed db' row m) ∨ (¬ row.Delivers ∧ ms = [])) :
    Consistent db' := by
  have hcaused (id : UUID) : db'.caused id
      = db.caused id ++ ms.filter fun m => m.causationEventId = some id := by
    rw [Database.caused, houtbox, List.filter_append, Database.caused]
  have hshaped : ∀ m ∈ ms, Shaped db'.controls m ∧ m.causationEventId = some row.id := by
    intro m hm
    obtain ⟨-, m', rfl, hshape, hcause, -⟩ | ⟨-, rfl⟩ := hms
    · rw [List.mem_singleton.mp hm]
      exact ⟨hshape, hcause⟩
    · cases hm
  have hother (id : UUID) (hid : id ≠ row.id) : db'.caused id = db.caused id := by
    rw [hcaused, List.filter_eq_nil_iff.mpr, List.append_nil]
    intro m hm
    rw [(hshaped m hm).2]
    simpa using Ne.symm hid
  refine ⟨hkeys, hids, hprocesses ▸ h.processes, fun r hr => ?_, fun m hm => ?_,
    fun m hm id hcause => ?_, fun r hr hdelivers => ?_, fun r hr hquiet => ?_⟩
  · obtain ⟨hr, -⟩ | rfl := hrows r hr
    · exact h.data r hr
    · exact hdata
  · rw [houtbox] at hm
    obtain hm | hm := List.mem_append.mp hm
    · exact (h.shaped m hm).mono hcontrols
    · exact (hshaped m hm).1
  · rw [houtbox] at hm
    intro hmissing
    obtain hm | hm := List.mem_append.mp hm
    · obtain ⟨r, hfound⟩ := Option.ne_none_iff_exists'.mp (h.known m hm id hcause)
      obtain ⟨hr, rfl⟩ := lookup_mem hfound
      obtain ⟨r', hr', hid⟩ := hold r hr
      exact lookup_eq_none.mp hmissing r' hr' hid
    · obtain rfl : row.id = id := Option.some.inj ((hshaped m hm).2.symm.trans hcause)
      exact lookup_eq_none.mp hmissing row hrow rfl
  · obtain ⟨hr, hid⟩ | rfl := hrows r hr
    · obtain ⟨m, hm, haddressed⟩ := h.delivered r hr hdelivers
      refine ⟨m, (hother r.id hid).trans hm, ?_⟩
      rw [Addressed, hprocesses]
      exact haddressed
    · obtain ⟨-, m, rfl, -, hcause, haddressed⟩ | ⟨hquiet, -⟩ := hms
      · refine ⟨m, ?_, haddressed⟩
        rw [hcaused, hnone]
        simp [hcause]
      · exact absurd hdelivers hquiet
  · obtain ⟨hr, hid⟩ | rfl := hrows r hr
    · exact (hother r.id hid).trans (h.silent r hr hquiet)
    · obtain ⟨hdelivers, -⟩ | ⟨-, rfl⟩ := hms
      · exact absurd hdelivers hquiet
      · rw [hcaused, hnone]
        rfl

variable (row) in
/-- A new row. -/
lemma Consistent.insert (h : Consistent db) (ms : List OutboxMessage)
    (hinbox : db'.inbox = db.inbox ++ [row]) (hkey : db.event row.key = none)
    (hid : lookup InboxRow.id row.id db.inbox = none)
    (houtbox : db'.outbox = db.outbox ++ ms) (hprocesses : db'.processes = db.processes)
    (hcontrols : db.controls ⊆ db'.controls)
    (hdata : row.eventData.eventId = row.id ∧ row.eventData.eventType = row.eventType)
    (hms : (row.Delivers ∧ ∃ m, ms = [m] ∧ Shaped db'.controls m ∧
        m.causationEventId = some row.id ∧ Addressed db' row m) ∨ (¬ row.Delivers ∧ ms = [])) :
    Consistent db' := by
  refine h.write row ms ?_ ?_ (fun r hr => ?_) (fun r hr => ⟨r, ?_, rfl⟩) ?_ houtbox hprocesses
    hcontrols hdata (h.caused_new hid) hms
  · rw [hinbox]
    exact h.keys.concat hkey
  · rw [hinbox]
    exact h.ids.concat hid
  · rw [hinbox] at hr
    obtain hr | hr := List.mem_append.mp hr
    · exact .inl ⟨hr, lookup_eq_none.mp hid r hr⟩
    · exact .inr (List.mem_singleton.mp hr)
  · rw [hinbox]
    exact List.mem_append_left _ hr
  · rw [hinbox]
    simp

variable (row) in
/-- A row that is rewritten. -/
lemma Consistent.update (h : Consistent db) (ms : List OutboxMessage) {f : InboxRow → InboxRow}
    (hinbox : db'.inbox = modify InboxRow.id row.id f db.inbox) (hrow : row ∈ db.inbox)
    (hkey : ∀ r, (f r).key = r.key) (hid : ∀ r, (f r).id = r.id)
    (houtbox : db'.outbox = db.outbox ++ ms) (hprocesses : db'.processes = db.processes)
    (hcontrols : db.controls ⊆ db'.controls)
    (hdata : (f row).eventData.eventId = row.id ∧
      (f row).eventData.eventType = (f row).eventType)
    (hquiet : ¬ row.Delivers)
    (hms : ((f row).Delivers ∧ ∃ m, ms = [m] ∧ Shaped db'.controls m ∧
        m.causationEventId = some row.id ∧ Addressed db' (f row) m) ∨
      (¬ (f row).Delivers ∧ ms = [])) :
    Consistent db' := by
  have hmem {r : InboxRow} : r ∈ db'.inbox ↔
      (∃ r' ∈ db.inbox, r'.id = row.id ∧ f r' = r) ∨ (r ∈ db.inbox ∧ r.id ≠ row.id) := by
    rw [hinbox, mem_modify]
  have hfid : (f row).id = row.id := hid row
  refine h.write (f row) ms ?_ ?_ (fun r hr => ?_) (fun r hr => ?_) ?_ houtbox hprocesses
    hcontrols ?_ ?_ ?_
  · rw [hinbox]
    exact h.keys.modify hkey
  · rw [hinbox]
    exact h.ids.modify hid
  · rw [hfid]
    obtain ⟨r', hr', heq, rfl⟩ | hother := hmem.mp hr
    · rw [h.ids.eq_of_mem hr' hrow heq]
      exact .inr rfl
    · exact .inl hother
  · by_cases heq : r.id = row.id
    · exact ⟨f r, hmem.mpr (.inl ⟨r, hr, heq, rfl⟩), hid r⟩
    · exact ⟨r, hmem.mpr (.inr ⟨hr, heq⟩), rfl⟩
  · exact hmem.mpr (.inl ⟨row, hrow, rfl, rfl⟩)
  · rw [hfid]
    exact hdata
  · rw [hfid]
    exact h.silent row hrow hquiet
  · rw [hfid]
    exact hms

/-- A message that no event has caused. -/
lemma Consistent.send (h : Consistent db) (hinbox : db'.inbox = db.inbox)
    (houtbox : db'.outbox = db.outbox ++ [m]) (hprocesses : db'.processes = db.processes)
    (hcontrols : db.controls ⊆ db'.controls) (hshaped : Shaped db'.controls m)
    (hcause : m.causationEventId = none) : Consistent db' := by
  have hcaused (id : UUID) : db'.caused id = db.caused id := by
    rw [Database.caused, houtbox, List.filter_append, Database.caused]
    simp [hcause]
  refine ⟨hinbox ▸ h.keys, hinbox ▸ h.ids, hprocesses ▸ h.processes,
    fun r hr => h.data r (hinbox ▸ hr), fun m' hm => ?_, fun m' hm id hid => ?_,
    fun r hr hdelivers => ?_, fun r hr hquiet => ?_⟩
  · rw [houtbox] at hm
    obtain hm | hm := List.mem_append.mp hm
    · exact (h.shaped m' hm).mono hcontrols
    · rw [List.mem_singleton.mp hm]
      exact hshaped
  · rw [hinbox]
    rw [houtbox] at hm
    obtain hm | hm := List.mem_append.mp hm
    · exact h.known m' hm id hid
    · rw [List.mem_singleton.mp hm, hcause] at hid
      cases hid
  · obtain ⟨m', hm, haddressed⟩ := h.delivered r (hinbox ▸ hr) hdelivers
    refine ⟨m', (hcaused r.id).trans hm, ?_⟩
    rw [Addressed, hprocesses]
    exact haddressed
  · rw [hcaused]
    exact h.silent r (hinbox ▸ hr) hquiet

@[simp] lemma resolve_id {processId : UUID} {late : Bool} :
    (row.resolve processId late).id = row.id := rfl

@[simp] lemma resolve_key {processId : UUID} {late : Bool} :
    (row.resolve processId late).key = row.key := rfl

@[simp] lemma resolve_eventData {processId : UUID} {late : Bool} :
    (row.resolve processId late).eventData = row.eventData := rfl

/-! ### What the calls know -/

/-- What an ingestion has found: a process if it has matched, and whether it is delivered.  It binds
references to a process only. -/
structure Correlation.Sound (c : Correlation) : Prop where
  matched : c.status = .matched ↔ c.processId ≠ none
  delivers : c.delivers = false ↔ c.reason = terminalRecordOnly
  bound : c.additions ≠ [] → c.processId ≠ none

/-- A resolution has loaded its event, and holds a row that is not matched. -/
def Resolving.Knows (c : ResolveQuarantineInput) (db : Database) : Resolving → Prop
  | .loaded e | .keyed e | .referenced e =>
      ∃ row, lookup InboxRow.id c.eventId db.inbox = some row ∧ row.eventData = e
  | .held e row | .holding e row _ | .bound e row _ _ =>
      lookup InboxRow.id c.eventId db.inbox = some row ∧ row.eventData = e ∧
        row.correlationStatus ≠ .matched
  | _ => True

/-- What a call knows of the inbox. -/
def Stage.Knows (db : Database) : Stage → Prop
  | .ingesting _ _ (.resolved c) => c.Sound ∧ c.delivers = true
  | .ingesting _ _ (.holding c processId _) =>
      c.Sound ∧ c.delivers = true ∧ c.processId = some processId
  | .ingesting _ _ (.bound c) => c.Sound
  | .resolving c r => r.Knows c db
  | .controlling c (.holding process) => process.id = c.processInstanceId ∧ ∃ p ∈ db.processes,
      p.id = process.id ∧ p.workflowId = process.workflowId
  | _ => True

variable {P : Platform} {t t' u : Stage} {x : CallInput} {obs : List IngestionEvent}

/-- What `_resolve_process` finds. -/
lemma resolveProcess_cases (db : Database) (e : CanonicalEvent) (explicit : Option UUID) :
    (∃ p, (explicit.toList ++ db.owners e.externalReferences).dedup = [p] ∧
      db.resolveProcess e explicit = { processId := some p, status := .matched
                                       reason := "single_process_match" }) ∨
    ((explicit.toList ++ db.owners e.externalReferences).dedup = [] ∧
      db.resolveProcess e explicit = { processId := none, status := .pending
                                       reason := "no_process_match" }) ∨
    db.resolveProcess e explicit = { processId := none, status := .pending
                                     reason := "ambiguous_external_references" } := by
  unfold Database.resolveProcess
  split
  · rename_i p heq
    exact .inl ⟨p, heq, rfl⟩
  · rename_i heq
    exact .inr (.inl ⟨heq, rfl⟩)
  · exact .inr (.inr rfl)

/-- A step keeps what the call itself knows. -/
lemma Step.knows (h : Step P t x db t' db' obs) (ht : t.Knows db) : t'.Knows db' := by
  cases h with
  | halt resting => cases t' with
    | idle => trivial
    | ended => trivial
    | _ => cases resting
  | start c => cases c <;> trivial
  | reject => exact ⟨⟨by simp, by simp [terminalRecordOnly], by simp⟩, rfl⟩
  | resolve e b explicit =>
      obtain ⟨p, -, hfound⟩ | ⟨-, hfound⟩ | hfound := resolveProcess_cases db e explicit <;>
        rw [hfound] <;> exact ⟨⟨by simp, by simp [terminalRecordOnly], by simp⟩, rfl⟩
  | create => exact ⟨⟨by simp, by simp [terminalRecordOnly], by simp⟩, rfl⟩
  | leave => exact ht.1
  | hold e b c processId process matched named => exact ⟨ht.1, ht.2, named⟩
  | bind e b c processId process late additions =>
      obtain ⟨⟨hmatched, hdelivers, -⟩, hopen, hnamed⟩ := ht
      have hbound : c.processId ≠ none := by simp [hnamed]
      have hreason : c.reason ≠ terminalRecordOnly := fun h => by
        rw [hdelivers.mpr h] at hopen
        cases hopen
      cases late with
      | true => exact ⟨hmatched, by simp, fun _ => hbound⟩
      | false => exact ⟨hmatched, by simpa using hreason, fun _ => hbound⟩
  | load c row found => exact ⟨row, found, rfl⟩
  | lockResolveKey => exact ht
  | lockResolveReferences => exact ht
  | lockRow c e row found open_ =>
      obtain ⟨row', hrow', rfl⟩ := ht
      obtain rfl := Option.some.inj (hrow'.symm.trans found)
      exact ⟨found, rfl, open_⟩
  | lockProcess => exact ht
  | bindResolve => exact ht
  | holdControl c process found =>
      obtain ⟨hmem, hid⟩ := lookup_mem found
      exact ⟨hid, process, hmem, rfl, rfl⟩
  | _ => trivial

/-- A process keeps its workflow when its status is written. -/
lemma modify_status {processes : List ProcessRow} {id : UUID}
    {f : ProcessStatus → ProcessStatus} : ∀ p ∈ processes, ∃ p' ∈
      Tables.modify ProcessRow.id id (fun row => { row with status := f row.status }) processes,
      p'.id = p.id ∧ p'.workflowId = p.workflowId := by
  intro p hp
  by_cases hid : p.id = id
  · exact ⟨{ p with status := f p.status }, mem_modify.mpr (.inl ⟨p, hp, hid, rfl⟩), rfl, rfl⟩
  · exact ⟨p, mem_modify.mpr (.inr ⟨hp, hid⟩), rfl, rfl⟩

/-- A row stays with its event, and is rewritten by the call that holds it. -/
lemma Step.row_kept (h : Step P t x db t' db' obs) (ht : t.Knows db) {id : UUID} {row : InboxRow}
    (hrow : lookup InboxRow.id id db.inbox = some row) :
    ∃ row', lookup InboxRow.id id db'.inbox = some row' ∧ row'.eventData = row.eventData ∧
      (.row id ∉ t.locks → row' = row) := by
  have same (h : db'.inbox = db.inbox) : ∃ row', lookup InboxRow.id id db'.inbox = some row' ∧
      row'.eventData = row.eventData ∧ (.row id ∉ t.locks → row' = row) :=
    ⟨row, by rw [h, hrow], rfl, fun _ => rfl⟩
  have grown {rows : List InboxRow} (h : db'.inbox = db.inbox ++ rows) :
      ∃ row', lookup InboxRow.id id db'.inbox = some row' ∧ row'.eventData = row.eventData ∧
        (.row id ∉ t.locks → row' = row) :=
    ⟨row, by rw [h]; exact lookup_append hrow, rfl, fun _ => rfl⟩
  -- a resolution rewrites the row it holds
  have resolved {c : ResolveQuarantineInput} {held : InboxRow} {process : ProcessRow} {late : Bool}
      (hfound : lookup InboxRow.id c.eventId db.inbox = some held)
      (hlock : .row c.eventId ∈ t.locks)
      (h : db'.inbox = modify InboxRow.id held.id (fun row => row.resolve process.id late)
        db.inbox) :
      ∃ row', lookup InboxRow.id id db'.inbox = some row' ∧ row'.eventData = row.eventData ∧
        (.row id ∉ t.locks → row' = row) := by
    have hid : held.id = c.eventId := (lookup_mem hfound).2
    have hrowid : row.id = id := (lookup_mem hrow).2
    have hfound' : lookup InboxRow.id id (modify InboxRow.id held.id
          (fun row => row.resolve process.id late) db.inbox) = _ :=
      lookup_modify fun r => resolve_id
    rw [← h, hrow, Option.map_some] at hfound'
    refine ⟨_, hfound', ?_, fun hfree => ?_⟩
    · split_ifs <;> rfl
    · rw [if_neg]
      intro heq
      rw [← hid, ← heq, hrowid] at hlock
      exact hfree hlock
  cases h with
  | insert e b c id id' now inserted hfree hnew hunused hwritten =>
      subst hwritten
      exact grown rfl
  | deliver e b c id id' now inserted processId outboxId outbox hfree hnew hunused hwritten =>
      subst hwritten
      exact grown rfl
  | recordResolution => exact resolved ht.1 (by simp [Stage.locks, Resolving.locks]) rfl
  | deliverResolution c e row process additions id id' now db₁ outbox outboxId hfree htimely
      hwritten =>
      subst hwritten
      exact resolved ht.1 (by simp [Stage.locks, Resolving.locks]) rfl
  | wake => exact grown rfl
  | _ => exact same rfl

/-- A process stays, with its workflow. -/
lemma Step.process_kept (h : Step P t x db t' db' obs) :
    ∀ p ∈ db.processes, ∃ p' ∈ db'.processes, p'.id = p.id ∧ p'.workflowId = p.workflowId := by
  have added (created : Option ProcessRow) : ∀ p ∈ db.processes,
      ∃ p' ∈ db.processes ++ created.toList, p'.id = p.id ∧ p'.workflowId = p.workflowId :=
    fun p hp => ⟨p, List.mem_append_left _ hp, rfl, rfl⟩
  cases h with
  | repeated => exact added _
  | insert e b c id id' now inserted hfree hnew hunused hwritten =>
      subst hwritten
      exact added _
  | deliver e b c id id' now inserted processId outboxId outbox hfree hnew hunused hwritten =>
      subst hwritten
      exact added _
  | recordResolution => exact added _
  | deliverResolution c e row process additions id id' now db₁ outbox outboxId hfree htimely
      hwritten =>
      subst hwritten
      exact added _
  | wake => exact modify_status
  | send => exact modify_status
  | setStatus processId status => exact modify_status (f := fun _ => status)
  | _ => exact fun p hp => ⟨p, hp, rfl, rfl⟩

/-- A step keeps what the other calls know. -/
lemma Step.knows_other (h : Step P t x db t' db' obs) (hlocks : ∀ l ∈ u.locks, l ∉ t.locks)
    (ht : t.Knows db) (hu : u.Knows db) : u.Knows db' := by
  -- a call that holds a row finds it again
  have held {c : ResolveQuarantineInput} {e : CanonicalEvent} {row : InboxRow}
      (hlock : .row c.eventId ∈ u.locks) (hu : lookup InboxRow.id c.eventId db.inbox = some row ∧
        row.eventData = e ∧ row.correlationStatus ≠ .matched) :
      lookup InboxRow.id c.eventId db'.inbox = some row ∧ row.eventData = e ∧
        row.correlationStatus ≠ .matched := by
    obtain ⟨row', hrow', -, hsame⟩ := h.row_kept ht hu.1
    rw [hsame (hlocks _ hlock)] at hrow'
    exact ⟨hrow', hu.2⟩
  have loaded {c : ResolveQuarantineInput} {e : CanonicalEvent}
      (hu : ∃ row, lookup InboxRow.id c.eventId db.inbox = some row ∧ row.eventData = e) :
      ∃ row, lookup InboxRow.id c.eventId db'.inbox = some row ∧ row.eventData = e := by
    obtain ⟨row, hrow, rfl⟩ := hu
    obtain ⟨row', hrow', hdata, -⟩ := h.row_kept ht hrow
    exact ⟨row', hrow', hdata⟩
  cases u with
  | resolving c r =>
      cases r with
      | loaded => exact loaded hu
      | keyed => exact loaded hu
      | referenced => exact loaded hu
      | held => exact held (by simp [Stage.locks, Resolving.locks]) hu
      | holding => exact held (by simp [Stage.locks, Resolving.locks]) hu
      | bound => exact held (by simp [Stage.locks, Resolving.locks]) hu
      | _ => trivial
  | ingesting e b i =>
      cases i with
      | resolved => exact hu
      | holding => exact hu
      | bound => exact hu
      | _ => trivial
  | controlling c k =>
      cases k with
      | holding process =>
          obtain ⟨hid, p, hp, hpid, hworkflow⟩ := hu
          obtain ⟨p', hp', hpid', hworkflow'⟩ := h.process_kept p hp
          exact ⟨hid, p', hp', hpid'.trans hpid, hworkflow'.trans hworkflow⟩
      | _ => trivial
  | _ => trivial

/-! ### Steps -/

/-- What `schedule_delivery` adds for an event that has caused nothing. -/
lemma scheduleDelivery_ok {e : CanonicalEvent} {processId id outboxId : UUID} {now : Time}
    {outbox : List OutboxMessage}
    (hfree : lookup OutboxMessage.deduplicationKey s!"process-event:{e.eventId}" db.outbox = none)
    (h : db.scheduleDelivery e processId id now = .ok (outbox, outboxId)) :
    ∃ process, db.process processId = some process ∧
      outbox = db.outbox ++ [eventMessage id e.eventId e.eventType processId process.workflowId now]
      ∧ outboxId = id := by
  rw [Database.scheduleDelivery] at h
  split at h
  · cases h
  · rename_i process hprocess
    dsimp only at h
    rw [show (eventMessage id e.eventId e.eventType processId process.workflowId
      now).deduplicationKey = s!"process-event:{e.eventId}" from rfl, hfree] at h
    cases h
    exact ⟨process, hprocess, rfl, rfl⟩

lemma shaped_eventMessage {controls : List ControlRow} {id eventId processId : UUID}
    {eventType workflowId : String} {now : Time} :
    Shaped controls (eventMessage id eventId eventType processId workflowId now) := by
  refine ⟨fun id' => ?_, .inl ⟨eventId, rfl, rfl⟩⟩
  simp [OutboxMessage.Delivers, eventMessage]

lemma shaped_manualWakeMessage {controls : List ControlRow} {c : ControlRow}
    (hc : c ∈ controls) {id eventId processId : UUID} {eventType workflowId : String} {now : Time} :
    Shaped controls (manualWakeMessage id c.id eventId eventType processId workflowId now) := by
  refine ⟨fun id' => ?_, .inr ⟨c, hc, rfl⟩⟩
  simp [OutboxMessage.Delivers, manualWakeMessage]

lemma shaped_controlMessage {controls : List ControlRow} {c : ControlRow} (hc : c ∈ controls)
    {id processId : UUID} {commandType workflowId : String} {sources : Option TurnSources}
    {now : Time} :
    Shaped controls (controlMessage id c.id commandType sources processId workflowId now) := by
  refine ⟨fun id' => ?_, .inr ⟨c, hc, rfl⟩⟩
  simp [OutboxMessage.Delivers, controlMessage]

/-- The processes and references of a transaction. -/
lemma Consistent.correlate (h : Consistent db) {processId : Option UUID}
    {created : Option ProcessRow} {additions : List ExternalReference}
    (hfree : db.conflicts created additions = false) :
    Consistent (db.correlate processId created additions) := by
  refine h.kept rfl rfl (List.Subset.refl _) ?_ fun p hp => ⟨p, ?_, rfl, rfl⟩
  · cases created with
    | none => simpa [Database.correlate] using h.processes
    | some process =>
        refine h.processes.concat ?_
        have hnew : db.process process.id = none := by
          have hboth := Bool.or_eq_false_iff.mp hfree
          simpa using hboth.1
        exact hnew
  · exact List.mem_append_left _ hp

/-- A control, and the status it writes. -/
lemma Consistent.control (h : Consistent db) (c : ControlInput) (processId : UUID) :
    Consistent { db with
      processes := Tables.modify ProcessRow.id processId
        (fun row => { row with status := c.status row.status }) db.processes
      controls := db.controls ++ [c.row] } :=
  h.kept rfl rfl (List.subset_append_left _ _) (h.processes.modify fun _ => rfl) modify_status

/-- A message with a free key is added. -/
lemma enqueue_free {outbox : List OutboxMessage} {m : OutboxMessage}
    (hfree : lookup OutboxMessage.deduplicationKey m.deduplicationKey outbox = none) :
    enqueue outbox m = outbox ++ [m] := by
  rw [enqueue, hfree]
  rfl

/-- **A step keeps the inbox and the outbox consistent.** -/
lemma Step.consistent (h : Step P t x db t' db' obs) (hdb : Consistent db) (ht : t.Knows db) :
    Consistent db' := by
  cases h with
  | repeated e b c id id' now row result hfree => exact hdb.correlate hfree
  | insert e b c id id' now inserted hfree hnew hunused hwritten hkept =>
      subst hwritten
      have hbase : Consistent (db.correlate c.processId c.created c.additions) :=
        hdb.correlate hfree
      refine hbase.insert _ [] rfl hnew hunused (List.append_nil _).symm rfl
        (List.Subset.refl _) ⟨rfl, rfl⟩ (.inr ⟨?_, rfl⟩)
      -- the row is not delivered: it is not matched, or only recorded
      rintro ⟨hmatched, hreason⟩
      have hmatched : c.status = .matched := hmatched
      have hreason : c.reason ≠ terminalRecordOnly := fun heq => hreason (congrArg some heq)
      have hdelivers : c.delivers = true := by
        rw [← Bool.not_eq_false]
        exact fun heq => hreason (ht.delivers.mp heq)
      rw [if_pos ⟨hmatched, hdelivers⟩] at hkept
      exact ht.matched.mp hmatched hkept
  | deliver e b c id id' now inserted processId outboxId outbox hfree hnew hunused hwritten
      hdelivered hscheduled =>
      obtain ⟨⟨hmatched, hdelivers⟩, hprocess⟩ := Option.ite_none_right_eq_some.mp hdelivered
      have hbase : Consistent (db.correlate c.processId c.created c.additions) :=
        hdb.correlate hfree
      have hkey := hbase.eventKey_free (hbase.caused_new hunused)
      subst hwritten
      obtain ⟨process, hfound, rfl, -⟩ := scheduleDelivery_ok hkey hscheduled
      obtain ⟨hmem, rfl⟩ := lookup_mem hfound
      refine hbase.insert _ [_] rfl hnew hunused rfl rfl (List.Subset.refl _) ⟨rfl, rfl⟩
        (.inl ⟨⟨hmatched, ?_⟩, _, rfl, shaped_eventMessage, rfl, process, hprocess, hmem, rfl, rfl,
          rfl⟩)
      intro heq
      rw [ht.delivers.mpr (Option.some.inj heq)] at hdelivers
      cases hdelivers
  | recordResolution c e row process additions id id' now hfree hlate =>
      obtain ⟨hfound, rfl, hopen⟩ := ht
      obtain ⟨hmem, -⟩ := lookup_mem hfound
      have hbase : Consistent (db.correlate (some process.id) none additions) :=
        hdb.correlate hfree
      refine hbase.update row [] rfl hmem (fun _ => rfl) (fun _ => rfl)
        (List.append_nil _).symm rfl (List.Subset.refl _) (hdb.data row hmem)
        (fun hdelivers => hopen hdelivers.1) (.inr ⟨?_, rfl⟩)
      rintro ⟨-, hreason⟩
      exact hreason rfl
  | deliverResolution c e row process additions id id' now resolved outbox outboxId hfree htimely
      hwritten hscheduled =>
      obtain ⟨hfound, rfl, hopen⟩ := ht
      obtain ⟨hmem, -⟩ := lookup_mem hfound
      have hquiet : ¬ row.Delivers := fun hdelivers => hopen hdelivers.1
      have hbase : Consistent (db.correlate (some process.id) none additions) :=
        hdb.correlate hfree
      obtain ⟨hdataId, hdataType⟩ := hdb.data row hmem
      have hkey := hbase.eventKey_free (hbase.silent row hmem hquiet)
      subst hwritten
      rw [← hdataId] at hkey
      obtain ⟨process', hfound', rfl, -⟩ := scheduleDelivery_ok hkey hscheduled
      obtain ⟨hmem', hid'⟩ := lookup_mem hfound'
      refine hbase.update row [_] rfl hmem (fun _ => rfl) (fun _ => rfl) rfl rfl
        (List.Subset.refl _) (hdb.data row hmem) hquiet
        (.inl ⟨⟨rfl, by simp [InboxRow.resolve, terminalRecordOnly]⟩, _, rfl, shaped_eventMessage,
          congrArg some hdataId, process', congrArg some hid'.symm, hmem', congrArg some hid'.symm,
          rfl, ?_⟩)
      rw [resolve_id, eventMessage, hdataId, hdataType]
      rfl
  | wake c process eventId outboxId now hwakes hunused hnew hfree =>
      obtain ⟨hid, p, hp, hpid, hworkflow⟩ := ht
      have hbase := hdb.control c process.id
      have hrow : c.row ∈ db.controls ++ [c.row] := by simp
      obtain ⟨p', hp', hpid', hworkflow'⟩ :=
        @modify_status _ process.id c.status p hp
      have hpid'' := hpid'.trans hpid
      have hkey := hdb.controlKey_free hunused
      refine hbase.insert (c.inboxRow eventId) [_] rfl hnew hfree
        (enqueue_free (by exact hkey)) rfl (List.Subset.refl _) ⟨rfl, rfl⟩
        (.inl ⟨⟨rfl, by simp [ControlInput.inboxRow, CanonicalEvent.row, terminalRecordOnly]⟩, _,
          rfl, shaped_manualWakeMessage hrow, rfl, p', ?_, hp', ?_, ?_, rfl⟩)
      · exact congrArg some (hid.symm.trans hpid''.symm)
      · exact congrArg some hpid''.symm
      · exact (hworkflow'.trans hworkflow).symm
  | send c process eventId outboxId now hunused =>
      have hbase := hdb.control c process.id
      have hrow : c.row ∈ db.controls ++ [c.row] := by simp
      have hkey := hdb.controlKey_free hunused
      exact hbase.send rfl (enqueue_free (by exact hkey)) rfl (List.Subset.refl _)
        (shaped_controlMessage hrow) rfl
  | setStatus processId status =>
      exact hdb.kept rfl rfl (List.Subset.refl _) (hdb.processes.modify fun _ => rfl)
        (modify_status (f := fun _ => status))
  | _ => exact hdb

end

end TiramisuAgents.Events
