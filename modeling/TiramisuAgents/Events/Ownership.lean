import TiramisuAgents.Events.Duplicates

/-!
The owners of external references.

A reference is bound when an ingestion that has matched commits, or a resolution.  Both hold the
advisory locks of all references of the event since before they looked at their owners, so an
ingestion finds the owners at its commit that it had found when it chose its process.

* `Correlation.Found`, `Correlation.Bound`: what an ingestion knows of the owners.
* `Step.binds`: what a step binds; `Step.owner_kept`: who binds a reference.
* `Owned`: the owners of references, and the processes created for events.
* `Contending`: triggers that share a reference.
* `reference_ownership`: every run; `trigger_without_process` creates no process.
-/

namespace TiramisuAgents.Events

open Tables Transactions

section

variable {P : Platform} {t t' u : Stage} {x : CallInput} {db db' : Database}
  {obs : List IngestionEvent} {e : CanonicalEvent} {b : Option ProcessBootstrap}

/-! ### Owners -/

/-- An owner stays when correlations are added. -/
lemma owner_append {rows : List CorrelationRow} {r : ExternalReference} {p : UUID}
    (hrows : db'.correlations = db.correlations ++ rows) (h : db.owner r = some p) :
    db'.owner r = some p := by
  obtain ⟨row, hrow, rfl⟩ := Option.map_eq_some_iff.mp h
  rw [Database.owner, hrows, lookup_append hrow, Option.map_some]

/-- The owners after references are bound to a process. -/
lemma owner_bind {additions : List ExternalReference} {p : UUID} (hrows : db'.correlations
      = db.correlations ++ additions.map fun r => (⟨r, p⟩ : CorrelationRow))
    (r : ExternalReference) :
    db'.owner r = if db.owner r = none ∧ r ∈ additions then some p else db.owner r := by
  cases hold : db.owner r with
  | some q => simpa using owner_append hrows hold
  | none =>
      have hnone : lookup CorrelationRow.reference r db.correlations = none := by
        simpa [Database.owner] using hold
      have hrest : lookup CorrelationRow.reference r db'.correlations
          = lookup CorrelationRow.reference r (additions.map fun r => ⟨r, p⟩) := by
        rw [hrows, lookup, List.find?_append, ← lookup, hnone, Option.none_or]
        rfl
      rw [Database.owner, hrest]
      by_cases hmem : r ∈ additions
      · rw [if_pos ⟨rfl, hmem⟩]
        have hrow : lookup CorrelationRow.reference r (additions.map fun r => ⟨r, p⟩) ≠ none := by
          intro hmissing
          exact lookup_eq_none.mp hmissing ⟨r, p⟩ (List.mem_map_of_mem hmem) rfl
        obtain ⟨row, hrow⟩ := Option.ne_none_iff_exists'.mp hrow
        obtain ⟨r', -, rfl⟩ := List.mem_map.mp (lookup_mem hrow).1
        rw [hrow]
        rfl
      · rw [if_neg fun h => hmem h.2]
        have hmissing : lookup CorrelationRow.reference r
            (additions.map fun r => (⟨r, p⟩ : CorrelationRow)) = none := by
          refine lookup_eq_none.mpr fun row hrow heq => ?_
          obtain ⟨r', hr', rfl⟩ := List.mem_map.mp hrow
          exact hmem (heq ▸ hr')
        rw [hmissing]
        rfl

lemma mem_owners {references : List ExternalReference} {p : UUID} :
    p ∈ db.owners references ↔ ∃ r ∈ references, db.owner r = some p := by
  simp [Database.owners]

/-- A stored result is that of a duplicate. -/
lemma storedResult_created {row : InboxRow} {result : IngestionResult}
    (h : db.storedResult row = .ok result) : result.created = false := by
  rw [Database.storedResult] at h
  split at h <;> cases h <;> rfl

/-- What `persist_references` adds. -/
lemma persistReferences_ok {processId : UUID} {references additions : List ExternalReference}
    (h : db.persistReferences processId references = .ok additions) :
    additions.Nodup ∧ ∀ r, r ∈ additions ↔ r ∈ references ∧ db.owner r = none := by
  rw [Database.persistReferences] at h
  split_ifs at h
  cases h
  refine ⟨(List.nodup_dedup _).filter _, fun r => ?_⟩
  simp

/-! ### What an ingestion knows of the owners -/

/-- The process of an ingestion, and the owners of the references of its event. -/
structure Correlation.Found (e : CanonicalEvent) (db : Database) (c : Correlation) : Prop where
  sole : ∀ p, c.processId = some p → ∀ r ∈ e.externalReferences,
    db.owner r = none ∨ db.owner r = some p
  created : ∀ process, c.created = some process →
    c.processId = some process.id ∧ ∀ r ∈ e.externalReferences, db.owner r = none
  missed : c.processId = none → c.reason = "no_process_match" →
    ∀ r ∈ e.externalReferences, db.owner r = none
  unnamed : e.processInstanceId = none → (∀ r ∈ e.externalReferences, db.owner r = none) →
    c.created ≠ none ∨ (c.processId = none ∧ c.reason = "no_process_match")

/-- The references that an ingestion binds. -/
structure Correlation.Bound (e : CanonicalEvent) (b : Option ProcessBootstrap) (db : Database)
    (c : Correlation) : Prop where
  sole : ∀ p, c.processId = some p → ∀ r ∈ e.externalReferences,
    db.owner r = none ∨ db.owner r = some p
  created : ∀ process, c.created = some process →
    c.processId = some process.id ∧ ∀ r ∈ e.externalReferences, db.owner r = none
  nodup : c.additions.Nodup
  own : c.additions ⊆ e.externalReferences
  additions : ∀ p, c.processId = some p → ∀ r, r ∈ c.additions ↔
    r ∈ e.externalReferences ∧ db.owner r = none
  trigger : b.isSome → e.processInstanceId = none →
    (∀ r ∈ e.externalReferences, db.owner r = none) → c.created ≠ none

/-- What a call knows of the owners of references. -/
def Stage.Owns (db : Database) : Stage → Prop
  | .ingesting e _ (.candidates explicit) => explicit = e.processInstanceId
  | .ingesting e _ (.resolved c) => c.Found e db ∧ c.additions = []
  | .ingesting e _ (.holding c _ _) => c.Found e db
  | .ingesting e b (.bound c) => c.Bound e b db
  | .resolving c (.loaded e) | .resolving c (.keyed e) | .resolving c (.referenced e)
  | .resolving c (.held e _) | .resolving c (.holding e _ _) =>
      c.bindReferences ⊆ e.externalReferences
  | .resolving _ (.bound e _ _ additions) =>
      additions.Nodup ∧ additions ⊆ e.externalReferences
  | _ => True

/-- What `_resolve_process` finds. -/
lemma resolveProcess_found :
    (db.resolveProcess e e.processInstanceId).Found e db ∧
      (db.resolveProcess e e.processInstanceId).additions = [] := by
  have hnone (hnamed : e.processInstanceId = none)
      (hunbound : ∀ r ∈ e.externalReferences, db.owner r = none) :
      (e.processInstanceId.toList ++ db.owners e.externalReferences).dedup = [] := by
    have howners : db.owners e.externalReferences = [] := by
      refine List.eq_nil_iff_forall_not_mem.mpr fun p hp => ?_
      obtain ⟨r, hr, howner⟩ := mem_owners.mp hp
      rw [hunbound r hr] at howner
      cases howner
    rw [hnamed, howners]
    rfl
  have howned {r : ExternalReference} {q : UUID} (hr : r ∈ e.externalReferences)
      (hq : db.owner r = some q) :
      q ∈ (e.processInstanceId.toList ++ db.owners e.externalReferences).dedup :=
    List.mem_dedup.mpr (List.mem_append_right _ (mem_owners.mpr ⟨r, hr, hq⟩))
  obtain ⟨p, hlist, hfound⟩ | ⟨hlist, hfound⟩ | hfound :=
    resolveProcess_cases db e e.processInstanceId
  · rw [hfound]
    refine ⟨⟨fun p' hp' r hr => ?_, by simp, by simp, fun hnamed hunbound => ?_⟩, rfl⟩
    · obtain rfl : p = p' := Option.some.inj hp'
      cases hq : db.owner r with
      | none => exact .inl rfl
      | some q =>
          have hmem := howned hr hq
          rw [hlist, List.mem_singleton] at hmem
          exact .inr (congrArg some hmem)
    · rw [hnone hnamed hunbound] at hlist
      cases hlist
  · rw [hfound]
    refine ⟨⟨by simp, by simp, fun _ _ r hr => ?_, fun _ _ => .inr ⟨rfl, rfl⟩⟩, rfl⟩
    cases hq : db.owner r with
    | none => rfl
    | some q =>
        have hmem := howned hr hq
        rw [hlist] at hmem
        cases hmem
  · refine ⟨⟨by simp [hfound], by simp [hfound], by simp [hfound], fun hnamed hunbound => ?_⟩,
      by simp [hfound]⟩
    -- without candidates nothing is ambiguous
    rw [Database.resolveProcess, hnone hnamed hunbound]
    exact .inr ⟨rfl, rfl⟩

/-- A step keeps what the call itself knows of the owners. -/
lemma Step.owns (h : Step P t x db t' db' obs) (hknows : t.Knows db) (ht : t.Owns db) :
    t'.Owns db' := by
  cases h with
  | halt resting => cases t' with
    | idle => trivial
    | ended => trivial
    | _ => cases resting
  | start c => cases c <;> trivial
  | reject e b processId explicit =>
      refine ⟨⟨by simp, by simp, by simp, fun hnamed => ?_⟩, rfl⟩
      rw [explicit] at hnamed
      cases hnamed
  | name => rfl
  | resolve e b explicit =>
      obtain rfl : explicit = e.processInstanceId := ht
      exact resolveProcess_found
  | create e b c processId id now unmatched reason =>
      have hunbound := ht.1.missed unmatched reason
      refine ⟨⟨fun p _ r hr => .inl (hunbound r hr), ?_, by simp, fun _ _ => .inl (by simp)⟩, rfl⟩
      rintro _ ⟨⟩
      exact ⟨rfl, hunbound⟩
  | leave e b c unmatched trigger =>
      obtain ⟨hfound, hadditions⟩ := ht
      have hprocess : c.processId = none := by
        by_contra hmatched
        exact hmatched (unmatched (hknows.1.matched.mpr hmatched))
      refine ⟨hfound.sole, hfound.created, by simp [hadditions], by simp [hadditions],
        fun p hp => ?_, fun hb hnamed hunbound => ?_⟩
      · rw [hprocess] at hp
        cases hp
      · refine (hfound.unnamed hnamed hunbound).elim id fun hmissed => ?_
        exact absurd hmissed.2 (trigger hb hmissed.1)
  | hold => exact ht.1
  | bind e b c processId process late additions checked added =>
      have hnamed : c.processId = some processId := hknows.2.2
      obtain ⟨hnodup, hmem⟩ := persistReferences_ok added
      refine ⟨ht.sole, ht.created, hnodup, fun r hr => ((hmem r).mp hr).1, fun _ _ => hmem,
        fun _ hunnamed hunbound => ?_⟩
      refine (ht.unnamed hunnamed hunbound).elim id fun hmissed => ?_
      rw [hnamed] at hmissed
      cases hmissed.1
  | load c row found own => exact own
  | lockResolveKey => exact ht
  | lockResolveReferences => exact ht
  | lockRow => exact ht
  | lockProcess => exact ht
  | bindResolve c e row process additions added =>
      obtain ⟨hnodup, hmem⟩ := persistReferences_ok added
      exact ⟨hnodup, fun r hr => ht ((hmem r).mp hr).1⟩
  | _ => trivial

/-! ### What a step binds -/

/-- References of an event are bound to a process.  The call holds their locks, and nobody owned
them; if the process is created, these are all references of the event. -/
structure Binding (t : Stage) (db db' : Database) (obs : List IngestionEvent) (e : CanonicalEvent)
    (p : UUID) (additions : List ExternalReference) : Prop where
  locked : ∀ r ∈ e.externalReferences, .reference r ∈ t.locks
  nodup : additions.Nodup
  own : additions ⊆ e.externalReferences
  unbound : ∀ r ∈ additions, db.owner r = none
  rows : db'.correlations = db.correlations ++ additions.map fun r => ⟨r, p⟩
  created : obs = [] ∨ obs = [.created p e] ∧ ∀ r ∈ e.externalReferences, r ∈ additions

lemma unbound_of_free {created : Option ProcessRow} {additions : List ExternalReference}
    (hfree : db.conflicts created additions = false) : ∀ r ∈ additions, db.owner r = none := by
  have hboth := Bool.or_eq_false_iff.mp hfree
  intro r hr
  simpa using List.any_eq_false.mp hboth.2 r hr

/-- What the commit of an ingestion binds. -/
lemma Correlation.Bound.binds {c : Correlation} (hc : c.Bound e b db)
    (hfree : db.conflicts c.created c.additions = false)
    (hrows : db'.correlations = (db.correlate c.processId c.created c.additions).correlations) :
    (db'.correlations = db.correlations ∧ c.created = none) ∨
    ∃ p additions, c.processId = some p ∧ Binding (.ingesting e b (.bound c)) db db'
      (c.created.toList.map fun process => IngestionEvent.created process.id e) e p additions := by
  cases hp : c.processId with
  | none =>
      refine .inl ⟨?_, ?_⟩
      · rw [hrows, hp]
        simp [Database.correlate]
      · cases hcreated : c.created with
        | none => rfl
        | some process =>
            have hnamed := (hc.created process hcreated).1
            rw [hp] at hnamed
            cases hnamed
  | some p =>
      refine .inr ⟨p, c.additions, rfl, ?_, hc.nodup, hc.own, unbound_of_free hfree, ?_, ?_⟩
      · intro r hr
        simp [Stage.locks, Ingesting.locks, CanonicalEvent.locks, hr]
      · rw [hrows, hp]
        simp [Database.correlate]
      · cases hcreated : c.created with
        | none => exact .inl rfl
        | some process =>
            obtain ⟨hnamed, hunbound⟩ := hc.created process hcreated
            obtain rfl : p = process.id := Option.some.inj (hp.symm.trans hnamed)
            refine .inr ⟨rfl, fun r hr => ?_⟩
            exact (hc.additions process.id hp r).mpr ⟨hr, hunbound r hr⟩

/-- What the commit of a resolution binds. -/
lemma resolution_binds {c : ResolveQuarantineInput} {row : InboxRow} {process : ProcessRow}
    {additions : List ExternalReference} (hnodup : additions.Nodup)
    (hown : additions ⊆ e.externalReferences) (hfree : db.conflicts none additions = false)
    (hrows : db'.correlations = (db.correlate (some process.id) none additions).correlations) :
    Binding (.resolving c (.bound e row process additions)) db db' [] e process.id additions where
  locked r hr := by simp [Stage.locks, Resolving.locks, CanonicalEvent.locks, hr]
  nodup := hnodup
  own := hown
  unbound := unbound_of_free hfree
  rows := by simpa [Database.correlate] using hrows
  created := .inl rfl

/-- A step binds nothing, or references of one event. -/
lemma Step.binds (h : Step P t x db t' db' obs) (hknows : t.Knows db) (ht : t.Owns db) :
    (db'.correlations = db.correlations ∧ obs = []) ∨
      ∃ e p additions, Binding t db db' obs e p additions := by
  have committed {e : CanonicalEvent} {b : Option ProcessBootstrap} {c : Correlation}
      (hc : c.Bound e b db) (hfree : db.conflicts c.created c.additions = false)
      (hrows : db'.correlations = (db.correlate c.processId c.created c.additions).correlations) :
      (db'.correlations = db.correlations ∧
        (c.created.toList.map fun process => IngestionEvent.created process.id e) = []) ∨
      ∃ e' p additions, Binding (.ingesting e b (.bound c)) db db'
        (c.created.toList.map fun process => IngestionEvent.created process.id e) e' p additions :=
    (hc.binds hfree hrows).imp (fun h => ⟨h.1, by simp [h.2]⟩)
      fun ⟨p, additions, _, hbinding⟩ => ⟨e, p, additions, hbinding⟩
  cases h with
  | repeated e b c id id' now row result hfree => exact committed ht hfree rfl
  | insert e b c id id' now inserted hfree hnew hunused hwritten =>
      exact committed ht hfree (by rw [hwritten])
  | deliver e b c id id' now inserted processId outboxId outbox hfree hnew hunused hwritten =>
      exact committed ht hfree (by rw [hwritten])
  | recordResolution c e row process additions id id' now hfree =>
      exact .inr ⟨e, process.id, additions, resolution_binds ht.1 ht.2 hfree rfl⟩
  | deliverResolution c e row process additions id id' now resolved outbox outboxId hfree htimely
      hwritten =>
      exact .inr ⟨e, process.id, additions, resolution_binds ht.1 ht.2 hfree (by rw [hwritten])⟩
  | _ => exact .inl ⟨rfl, rfl⟩

/-- A reference stays with its owner. -/
lemma Step.owner_stays (h : Step P t x db t' db' obs) (hknows : t.Knows db) (ht : t.Owns db)
    {r : ExternalReference} {p : UUID} (hr : db.owner r = some p) : db'.owner r = some p := by
  obtain ⟨hsame, -⟩ | ⟨e, q, additions, hbinding⟩ := h.binds hknows ht
  · rwa [Database.owner, hsame]
  · exact owner_append hbinding.rows hr

/-- Only a call that holds the lock of a reference binds it. -/
lemma Step.owner_kept (h : Step P t x db t' db' obs) (hknows : t.Knows db) (ht : t.Owns db)
    {r : ExternalReference} (hlock : .reference r ∉ t.locks) : db'.owner r = db.owner r := by
  obtain ⟨hsame, -⟩ | ⟨e, q, additions, hbinding⟩ := h.binds hknows ht
  · rw [Database.owner, hsame, Database.owner]
  · rw [owner_bind hbinding.rows, if_neg]
    rintro ⟨-, hr⟩
    exact hlock (hbinding.locked r (hbinding.own hr))

lemma Correlation.Found.mono {c : Correlation} (hc : c.Found e db)
    (h : ∀ r ∈ e.externalReferences, db'.owner r = db.owner r) : c.Found e db' := by
  refine ⟨fun p hp r hr => ?_, fun process hprocess => ?_, fun hnone hreason r hr => ?_,
    fun hnamed hnone => hc.unnamed hnamed fun r hr => ?_⟩
  · rw [h r hr]
    exact hc.sole p hp r hr
  · obtain ⟨hnamed, hnone⟩ := hc.created process hprocess
    exact ⟨hnamed, fun r hr => (h r hr).trans (hnone r hr)⟩
  · exact (h r hr).trans (hc.missed hnone hreason r hr)
  · exact (h r hr).symm.trans (hnone r hr)

/-- What a call knows of the owners depends on the references that it has locked. -/
lemma Stage.Owns.mono (hu : u.Owns db)
    (hkept : ∀ r, .reference r ∈ u.locks → db'.owner r = db.owner r) : u.Owns db' := by
  cases u with
  | ingesting e b i =>
      have hrefs (hlocks : ∀ l ∈ e.locks, l ∈ i.locks e) :
          ∀ r ∈ e.externalReferences, db'.owner r = db.owner r :=
        fun r hr => hkept r (hlocks _ (by simp [CanonicalEvent.locks, hr]))
      cases i with
      | resolved c => exact ⟨hu.1.mono (hrefs fun _ h => h), hu.2⟩
      | holding c p process =>
          exact Correlation.Found.mono hu (hrefs fun _ h => List.mem_cons_of_mem _ h)
      | bound c =>
          have h := hrefs fun l hl => List.mem_append_right _ hl
          refine ⟨fun p hp r hr => ?_, fun process hprocess => ?_, hu.nodup,
            hu.own, fun p hp r => ?_, fun hb hnamed hnone => ?_⟩
          · rw [h r hr]
            exact hu.sole p hp r hr
          · obtain ⟨hnamed, hnone⟩ := hu.created process hprocess
            exact ⟨hnamed, fun r hr => (h r hr).trans (hnone r hr)⟩
          · rw [hu.additions p hp r]
            exact and_congr_right fun hr => by rw [h r hr]
          · exact hu.trigger hb hnamed fun r hr => (h r hr).symm.trans (hnone r hr)
      | candidates => exact hu
      | _ => trivial
  | resolving c r => cases r <;> exact hu
  | _ => trivial

/-! ### Processes created for events -/

/-- A process is created for an event with the reference. -/
def IngestionEvent.mentions (r : ExternalReference) : IngestionEvent → Bool
  | .created _ e => r ∈ e.externalReferences

/-- A reference has one owner at most; a process that is created for an event owns its references;
and for each reference one process is created at most. -/
structure Owned (db : Database) (log : List IngestionEvent) : Prop where
  keys : Keyed CorrelationRow.reference db.correlations
  bound : ∀ p e, .created p e ∈ log → ∀ r ∈ e.externalReferences, db.owner r = some p
  once : ∀ r, log.countP (·.mentions r) ≤ 1

/-- No process is created for an event with a reference that nobody owns. -/
lemma Owned.unmentioned {log : List IngestionEvent} (h : Owned db log) {r : ExternalReference}
    (hr : db.owner r = none) : log.countP (·.mentions r) = 0 := by
  refine List.countP_eq_zero.mpr fun o ho hmentions => ?_
  obtain ⟨p, e⟩ := o
  have howner := h.bound p e ho r (of_decide_eq_true hmentions)
  rw [hr] at howner
  cases howner

/-- A step keeps the owners unique. -/
lemma Step.owned (h : Step P t x db t' db' obs) (hknows : t.Knows db) (ht : t.Owns db)
    {log : List IngestionEvent} (hdb : Owned db log) : Owned db' (log ++ obs) := by
  obtain ⟨hsame, rfl⟩ | ⟨e, p, additions, hbinding⟩ := h.binds hknows ht
  · rw [List.append_nil]
    refine ⟨hsame ▸ hdb.keys, fun p e ho r hr => ?_, hdb.once⟩
    exact h.owner_stays hknows ht (hdb.bound p e ho r hr)
  have hnew (r : ExternalReference) (hr : r ∈ additions) : db'.owner r = some p := by
    rw [owner_bind hbinding.rows, if_pos ⟨hbinding.unbound r hr, hr⟩]
  refine ⟨?_, fun p' e' ho r hr => ?_, fun r => ?_⟩
  · rw [hbinding.rows]
    refine hdb.keys.append ?_ fun row hrow row' hrow' heq => ?_
    · rw [Keyed, List.map_map]
      simpa [Function.comp_def] using hbinding.nodup
    · obtain ⟨r, hr, rfl⟩ := List.mem_map.mp hrow'
      have hnone := hbinding.unbound r hr
      rw [Database.owner, Option.map_eq_none_iff] at hnone
      exact lookup_eq_none.mp hnone row hrow heq
  · obtain ho | ho := List.mem_append.mp ho
    · exact h.owner_stays hknows ht (hdb.bound p' e' ho r hr)
    · obtain rfl | ⟨rfl, hall⟩ := hbinding.created
      · cases ho
      · cases List.mem_singleton.mp ho
        exact hnew r (hall r hr)
  · rw [List.countP_append]
    obtain rfl | ⟨rfl, hall⟩ := hbinding.created
    · simpa using hdb.once r
    · by_cases hr : r ∈ e.externalReferences
      · rw [hdb.unmentioned (hbinding.unbound r (hall r hr))]
        rw [Nat.zero_add]
        exact List.countP_le_length
      · have hother : [IngestionEvent.created p e].countP (·.mentions r) = 0 := by
          simp [IngestionEvent.mentions, hr]
        rw [hother]
        exact hdb.once r

/-! ### One ingestion -/

/-- What a step of an ingestion does to the references of its event.  If it has matched, they belong
to its process; if they belong to two processes, it adds a row without a process at most; and
`persist_references` finds no other owner. -/
structure Correlates (e : CanonicalEvent) (i : Ingesting) (db : Database) (t' : Stage)
    (db' : Database) (obs : List IngestionEvent) : Prop where
  matched : ∀ result, t' = .ended (.ingested result) → result.created = true →
    result.correlationStatus = .matched →
    ∃ p, result.processInstanceId = some p ∧ ∀ r ∈ e.externalReferences, db'.owner r = some p
  ambiguous : ∀ r ∈ e.externalReferences, ∀ r' ∈ e.externalReferences, ∀ p p',
    db.owner r = some p → db.owner r' = some p' → p ≠ p' → obs = [] ∧
      (db' = db ∨ ∃ row, row.eventData = e ∧ row.processInstanceId = none ∧
        row.correlationStatus ≠ .matched ∧ db' = { db with inbox := db.inbox ++ [row] })
  persisted : ∀ c p process, i = .holding c p process →
    ∃ additions, db.persistReferences p e.externalReferences = .ok additions

/-- After its commit, an ingestion that has matched owns the references of its event. -/
lemma Correlation.Bound.owner {c : Correlation} (hc : c.Bound e b db) {p : UUID}
    (hp : c.processId = some p)
    (hrows : db'.correlations = (db.correlate c.processId c.created c.additions).correlations) :
    ∀ r ∈ e.externalReferences, db'.owner r = some p := by
  intro r hr
  have hrows' : db'.correlations = db.correlations ++ c.additions.map fun r => ⟨r, p⟩ := by
    rw [hrows, hp]
    simp [Database.correlate]
  rw [owner_bind hrows']
  obtain hnone | howner := hc.sole p hp r hr
  · rw [if_pos ⟨hnone, (hc.additions p hp r).mpr ⟨hr, hnone⟩⟩]
  · rw [if_neg fun h => by simp [howner] at h, howner]

/-- An ingestion whose references belong to two processes has not matched. -/
lemma Correlation.Bound.ambiguous {c : Correlation} (hc : c.Bound e b db) (hs : c.Sound)
    {r r' : ExternalReference} {p p' : UUID} (hr : r ∈ e.externalReferences)
    (hr' : r' ∈ e.externalReferences) (hp : db.owner r = some p) (hp' : db.owner r' = some p')
    (hne : p ≠ p') : c.processId = none ∧ c.status ≠ .matched ∧
      db.correlate c.processId c.created c.additions = db ∧ c.created = none := by
  have hnone : c.processId = none := by
    by_contra hmatched
    obtain ⟨q, hq⟩ := Option.ne_none_iff_exists'.mp hmatched
    have howner := (hc.sole q hq r hr).resolve_left (by simp [hp])
    have howner' := (hc.sole q hq r' hr').resolve_left (by simp [hp'])
    rw [hp] at howner
    rw [hp', ← howner] at howner'
    exact hne (Option.some.inj howner').symm
  have hcreated : c.created = none := by
    cases hcreated : c.created with
    | none => rfl
    | some process =>
        have hnamed := (hc.created process hcreated).1
        rw [hnone] at hnamed
        cases hnamed
  have hadditions : c.additions = [] := by
    by_contra hbound
    exact hs.bound hbound hnone
  refine ⟨hnone, fun hmatched => hs.matched.mp hmatched hnone, ?_, hcreated⟩
  rw [hcreated, hadditions, correlate_none]

/-- An ingestion that holds its process may bind the references of its event to it. -/
lemma Correlation.Found.persistReferences {c : Correlation} (hc : c.Found e db) {p : UUID}
    (hp : c.processId = some p) :
    ∃ additions, db.persistReferences p e.externalReferences = .ok additions := by
  rw [Database.persistReferences, if_neg]
  · exact ⟨_, rfl⟩
  · simp only [List.any_eq_true, not_exists, not_and, Bool.not_eq_true]
    intro r hr
    obtain hnone | howner := hc.sole p hp r hr
    · rw [hnone]
      rfl
    · simp [howner]

/-- **A step of an ingestion correlates its event.** -/
lemma Step.correlates {i : Ingesting} (h : Step P (.ingesting e b i) x db t' db' obs)
    (hknows : (Stage.ingesting e b i).Knows db) (ht : (Stage.ingesting e b i).Owns db) :
    Correlates e i db t' db' obs := by
  have hpersisted : ∀ c p process, i = .holding c p process →
      ∃ additions, db.persistReferences p e.externalReferences = .ok additions := by
    rintro c p process rfl
    exact Correlation.Found.persistReferences ht hknows.2.2
  have quiet (h : ∀ result, t' = .ended (.ingested result) → result.created = false)
      (hdb : db' = db) (hobs : obs = []) : Correlates e i db t' db' obs := by
    refine ⟨fun result hended hcreated => ?_, fun r hr r' hr' p p' _ _ _ => ⟨hobs, .inl hdb⟩,
      hpersisted⟩
    rw [h result hended] at hcreated
    cases hcreated
  cases h with
  | halt resting other => exact quiet (fun result h => absurd h (other result)) rfl rfl
  | known e b row result found stored =>
      refine quiet (fun result' h => ?_) rfl rfl
      cases h
      exact storedResult_created stored
  | repeated e b c id id' now row result hfree hfound hstored =>
      refine ⟨fun result' h hcreated => ?_, fun r hr r' hr' p p' hp hp' hne => ?_, hpersisted⟩
      · cases h
        rw [storedResult_created hstored] at hcreated
        cases hcreated
      · obtain ⟨-, -, hsame, hnone⟩ := ht.ambiguous hknows hr hr' hp hp' hne
        exact ⟨by simp [hnone], .inl hsame⟩
  | insert e b c id id' now inserted hfree hnew hunused hwritten hkept =>
      refine ⟨fun result h _ hmatched => ?_, fun r hr r' hr' p p' hp hp' hne => ?_, hpersisted⟩
      · cases h
        obtain ⟨p, hp⟩ := Option.ne_none_iff_exists'.mp (hknows.matched.mp hmatched)
        exact ⟨p, hp, ht.owner hp (by rw [hwritten])⟩
      · obtain ⟨hnone, hstatus, hsame, hcreated⟩ := ht.ambiguous hknows hr hr' hp hp' hne
        refine ⟨by simp [hcreated], .inr ⟨e.row c, rfl, hnone, hstatus, ?_⟩⟩
        rw [hwritten, hsame]
  | deliver e b c id id' now inserted processId outboxId outbox hfree hnew hunused hwritten
      hdelivered =>
      obtain ⟨⟨hmatched, -⟩, hp⟩ := Option.ite_none_right_eq_some.mp hdelivered
      refine ⟨fun result h _ _ => ?_, fun r hr r' hr' p p' hp₁ hp₂ hne => ?_, hpersisted⟩
      · cases h
        exact ⟨processId, hp, ht.owner hp (by rw [hwritten])⟩
      · exact absurd hmatched (ht.ambiguous hknows hr hr' hp₁ hp₂ hne).2.1
  | start c resting => cases resting
  | _ => exact quiet (by simp) rfl rfl

/-! ### Triggers that share a reference -/

variable {n : ℕ} {s s' s'' : Pool n Database Stage IngestionEvent} {m : Fin n × CallInput}
  {ms : List (Fin n × CallInput)}

/-- Triggers that share a reference stand at their start.  None of them names a process, and nobody
owns a reference of theirs. -/
structure Contending (s : Pool n Database Stage IngestionEvent) (T : Finset (Fin n))
    (e : Fin n → CanonicalEvent) (r : ExternalReference) : Prop where
  trigger : ∀ i ∈ T, ∃ b, s.calls i = .ingesting (e i) (some b) .opening
  shared : ∀ i ∈ T, r ∈ (e i).externalReferences
  unnamed : ∀ i ∈ T, (e i).processInstanceId = none
  unbound : ∀ i ∈ T, ∀ r' ∈ (e i).externalReferences, s.store.owner r' = none

/-- A step of one of the calls does not start it again, and a step of another call leaves the owners
of their references. -/
def Apart (P : Platform) (T : Finset (Fin n)) (e : Fin n → CanonicalEvent)
    (s : Pool n Database Stage IngestionEvent) (m : Fin n × CallInput) : Prop :=
  if m.1 ∈ T then ∀ c, m.2 ≠ .call c
  else ∀ s', s.step (calls P) m = some s' → ∀ i ∈ T, ∀ r ∈ (e i).externalReferences,
    s'.store.owner r = s.store.owner r

/-- A trigger that may find no owner creates a process, or commits nothing. -/
lemma Step.trigger {b : ProcessBootstrap} {i : Ingesting}
    (h : Step P (.ingesting e (some b) i) x db t' db' obs)
    (ht : (Stage.ingesting e (some b) i).Owns db) (hunnamed : e.processInstanceId = none)
    (hunbound : ∀ r ∈ e.externalReferences, db.owner r = none) :
    (∃ p, .created p e ∈ obs) ∨ db'.correlations = db.correlations ∧
      ∀ result, t' = .ended (.ingested result) → result.created = false := by
  have created {c : Correlation} (hc : c.Bound e (some b) db) :
      ∃ p, .created p e ∈ c.created.toList.map fun process =>
        IngestionEvent.created process.id e := by
    obtain ⟨process, hprocess⟩ :=
      Option.ne_none_iff_exists'.mp (hc.trigger rfl hunnamed hunbound)
    exact ⟨process.id, by simp [hprocess]⟩
  cases h with
  | halt resting other => exact .inr ⟨rfl, fun result h => absurd h (other result)⟩
  | known e b row result found stored =>
      refine .inr ⟨rfl, fun result' h => ?_⟩
      cases h
      exact storedResult_created stored
  | repeated => exact .inl (created ht)
  | insert => exact .inl (created ht)
  | deliver => exact .inl (created ht)
  | start c resting => cases resting
  | _ => exact .inr ⟨rfl, by simp⟩

/-- A trigger stays a trigger until it ends. -/
lemma Step.still {b : ProcessBootstrap} {i : Ingesting}
    (h : Step P (.ingesting e (some b) i) x db t' db' obs) :
    t'.resting = true ∨ ∃ b' i', t' = .ingesting e (some b') i' := by
  cases h with
  | halt resting => exact .inl resting
  | known => exact .inl rfl
  | repeated => exact .inl rfl
  | insert => exact .inl rfl
  | deliver => exact .inl rfl
  | start c resting => cases resting
  | _ => exact .inr ⟨_, _, rfl⟩

/-- While none of the triggers has created a process, nobody owns their references. -/
structure Contended (T : Finset (Fin n)) (e : Fin n → CanonicalEvent) (r : ExternalReference)
    (s : Pool n Database Stage IngestionEvent) : Prop where
  trigger : ∀ i ∈ T, (s.calls i).resting = true ∨ ∃ b j, s.calls i = .ingesting (e i) (some b) j
  open_ : (∃ o ∈ s.log, o.mentions r = true) ∨
    (∀ i ∈ T, ∀ r' ∈ (e i).externalReferences, s.store.owner r' = none) ∧
      ∀ i ∈ T, ∀ result, s.calls i = .ended (.ingested result) → result.created = false

/-- A call that is over does nothing until it is made again. -/
lemma Step.rests (h : Step P t x db t' db' obs) (ht : t.resting = true) (hx : ∀ c, x ≠ .call c) :
    t'.resting = true ∧ db' = db ∧ obs = [] ∧ ∀ result, t' ≠ .ended (.ingested result) := by
  cases t with
  | idle => cases h with
    | halt resting quiet => exact ⟨resting, rfl, rfl, quiet⟩
    | start c => exact absurd rfl (hx c)
  | ended => cases h with
    | halt resting quiet => exact ⟨resting, rfl, rfl, quiet⟩
    | start c => exact absurd rfl (hx c)
  | _ => cases ht

/-! ### Runs -/

/-- Every step keeps the owners unique, and what the calls know. -/
lemma owned_joint : Joint (calls P) (fun _ _ _ _ => True) (fun _ _ _ _ => True)
    (fun db log => Owned db log) (fun t db _ => t.Knows db ∧ t.Owns db) where
  own h _ hdb ht :=
    have hstep := Step.of_next h
    ⟨hstep.owned ht.1 ht.2 hdb, hstep.knows ht.1, hstep.owns ht.1 ht.2⟩
  other h _ _ hlocks _ ht hu :=
    have hstep := Step.of_next h
    ⟨hstep.knows_other hlocks ht.1 hu.1,
      hu.2.mono fun _ hr => hstep.owner_kept ht.1 ht.2 (hlocks _ hr)⟩

/-- The invariant of the runs. -/
abbrev Owning (P : Platform) (s : Pool n Database Stage IngestionEvent) : Prop :=
  Joint.Holds (calls P) (fun db log => Owned db log) (fun t db _ => t.Knows db ∧ t.Owns db) s

lemma owning_noEvents : Owning P (noEvents n) where
  exclusive i j l hi := by cases hi
  common := { keys := keyed_nil, bound := by simp [noEvents], once := by simp [noEvents] }
  calls i := ⟨trivial, trivial⟩

lemma Owning.step (hs : Owning P s) (h : s.step (calls P) m = some s') : Owning P s' :=
  owned_joint.step hs trivial (fun _ _ => trivial) h

lemma Owning.runs {G : Pool n Database Stage IngestionEvent → Fin n × CallInput → Prop}
    (hs : Owning P s) (h : Runs (calls P) G s ms s') : Owning P s' :=
  h.invariant (fun _ _ _ hs _ hstep => hs.step hstep) hs

/-- A reference stays with its owner. -/
lemma Owning.owner_stays {G : Pool n Database Stage IngestionEvent → Fin n × CallInput → Prop}
    (hs : Owning P s) (h : Runs (calls P) G s ms s') {r : ExternalReference} {p : UUID}
    (hr : s.store.owner r = some p) : s'.store.owner r = some p := by
  have hboth : Owning P s' ∧ s'.store.owner r = some p := by
    refine h.invariant (I := fun s => Owning P s ∧ s.store.owner r = some p) ?_ ⟨hs, hr⟩
    rintro s₁ ⟨j, x⟩ s₂ ⟨hs₁, hr₁⟩ - hstep
    refine ⟨hs₁.step hstep, ?_⟩
    obtain ⟨t, db, obs, hnext, -, rfl⟩ := step_eq_some hstep
    exact (Step.of_next hnext).owner_stays (hs₁.calls j).1 (hs₁.calls j).2 hr₁
  exact hboth.2

section

variable {T : Finset (Fin n)} {event : Fin n → CanonicalEvent} {r : ExternalReference}

lemma Contending.contended (h : Contending s T event r) : Contended T event r s where
  trigger i hi := by
    obtain ⟨b, hb⟩ := h.trigger i hi
    exact .inr ⟨b, .opening, hb⟩
  open_ := by
    refine .inr ⟨h.unbound, fun i hi result hended => ?_⟩
    obtain ⟨b, hb⟩ := h.trigger i hi
    rw [hb] at hended
    cases hended

/-- A step keeps the references open until a process is created. -/
lemma Contended.step (hs : Owning P s) (hr : ∀ i ∈ T, r ∈ (event i).externalReferences)
    (hunnamed : ∀ i ∈ T, (event i).processInstanceId = none) (hT : Contended T event r s)
    (hm : Apart P T event s m) (h : s.step (calls P) m = some s') : Contended T event r s' := by
  obtain ⟨j, x⟩ := m
  obtain ⟨t, db, obs, hnext, -, rfl⟩ := id (step_eq_some h)
  have hstep := Step.of_next hnext
  have hlog : (∃ o ∈ s.log, o.mentions r = true) → ∃ o ∈ s.log ++ obs, o.mentions r = true :=
    fun ⟨o, ho, hmentions⟩ => ⟨o, List.mem_append_left _ ho, hmentions⟩
  by_cases hj : j ∈ T
  · rw [Apart, if_pos hj] at hm
    obtain hrest | ⟨b, k, hstage⟩ := hT.trigger j hj
    · obtain ⟨hresting, rfl, rfl, hquiet⟩ := hstep.rests hrest hm
      refine ⟨fun i hi => ?_, hT.open_.imp hlog fun ⟨hunbound, hended⟩ => ⟨hunbound, ?_⟩⟩
      · by_cases hij : i = j
        · subst hij
          exact .inl (by simpa using hresting)
        · simpa [Function.update_of_ne hij] using hT.trigger i hi
      · intro i hi result hi'
        by_cases hij : i = j
        · subst hij
          exact absurd (by simpa using hi') (hquiet result)
        · exact hended i hi result (by simpa [Function.update_of_ne hij] using hi')
    · have howns := (hs.calls j).2
      rw [hstage] at hstep howns
      refine ⟨fun i hi => ?_, ?_⟩
      · by_cases hij : i = j
        · subst hij
          simpa using hstep.still
        · simpa [Function.update_of_ne hij] using hT.trigger i hi
      · obtain hmentioned | ⟨hunbound, hended⟩ := hT.open_
        · exact .inl (hlog hmentioned)
        obtain ⟨p, hp⟩ | ⟨hsame, hquiet⟩ :=
          hstep.trigger howns (hunnamed j hj) (hunbound j hj)
        · refine .inl ⟨_, List.mem_append_right _ hp, ?_⟩
          exact decide_eq_true (hr j hj)
        · refine .inr ⟨fun i hi r' hr' => ?_, fun i hi result hi' => ?_⟩
          · rw [Database.owner, hsame]
            exact hunbound i hi r' hr'
          · by_cases hij : i = j
            · subst hij
              exact hquiet result (by simpa using hi')
            · exact hended i hi result (by simpa [Function.update_of_ne hij] using hi')
  · rw [Apart, if_neg hj] at hm
    have hkept := hm _ h
    have hother (i : Fin n) (hi : i ∈ T) : Function.update s.calls j t i = s.calls i := by
      rw [Function.update_of_ne]
      rintro rfl
      exact hj hi
    refine ⟨fun i hi => ?_, hT.open_.imp hlog fun ⟨hunbound, hended⟩ =>
      ⟨fun i hi r' hr' => ?_, fun i hi result hi' => ?_⟩⟩
    · dsimp only
      rw [hother i hi]
      exact hT.trigger i hi
    · exact (hkept i hi r' hr').trans (hunbound i hi r' hr')
    · dsimp only at hi'
      rw [hother i hi] at hi'
      exact hended i hi result hi'

/-- Triggers that share a reference which nobody owns create one process between them. -/
lemma Owning.created_once (hs : Owning P s) (hT : Contending s T event r)
    (h : Runs (calls P) (Apart P T event) s ms s')
    (hended : ∃ i ∈ T, ∃ result, s'.calls i = .ended (.ingested result) ∧ result.created = true) :
    s'.log.countP (·.mentions r) = 1 := by
  have hboth : Owning P s' ∧ Contended T event r s' := by
    refine h.invariant (I := fun s => Owning P s ∧ Contended T event r s) ?_ ⟨hs, hT.contended⟩
    rintro s₁ m s₂ ⟨hs₁, hT₁⟩ hm hstep
    exact ⟨hs₁.step hstep, hT₁.step hs₁ hT.shared hT.unnamed hm hstep⟩
  obtain ⟨hs', hT'⟩ := hboth
  have hsome : 0 < s'.log.countP (·.mentions r) := by
    rw [List.countP_pos_iff]
    refine hT'.open_.elim id fun hopen => ?_
    obtain ⟨i, hi, result, hresult, hcreated⟩ := hended
    rw [hopen.2 i hi result hresult] at hcreated
    cases hcreated
  have hone := hs'.common.once r
  omega

end

/-- **References belong to one process for ever.**  In every run, a reference has at most one owner,
and keeps it.  An ingestion that has matched leaves the references of its event to its process; one
whose references belong to two processes creates, matches and wakes none; and it finds no other
owner when it persists them.  For each reference at most one process is created; and triggers that
share a reference, name no process, and whose references nobody owns or binds besides, create one
as soon as one of them is stored. -/
theorem reference_ownership (h : Runs (calls P) (fun _ _ => True) (noEvents n) ms s) :
    Keyed CorrelationRow.reference s.store.correlations ∧
    (∀ ms' s', Runs (calls P) (fun _ _ => True) s ms' s' →
      ∀ r p, s.store.owner r = some p → s'.store.owner r = some p) ∧
    (∀ m s', s.step (calls P) m = some s' → ∀ e b i, s.calls m.1 = .ingesting e b i →
      ∃ obs, s'.log = s.log ++ obs ∧ Correlates e i s.store (s'.calls m.1) s'.store obs) ∧
    (∀ r, s.log.countP (·.mentions r) ≤ 1) ∧
    (∀ T event r, Contending s T event r → ∀ ms' s', Runs (calls P) (Apart P T event) s ms' s' →
      (∃ i ∈ T, ∃ result, s'.calls i = .ended (.ingested result) ∧ result.created = true) →
      s'.log.countP (·.mentions r) = 1) := by
  have hs : Owning P s := owning_noEvents.runs h
  refine ⟨hs.common.keys, fun ms' s' hruns r p hr => hs.owner_stays hruns hr, ?_, hs.common.once,
    fun T event r hT ms' s' hruns hended => hs.created_once hT hruns hended⟩
  rintro ⟨j, x⟩ s' hstep e b i hstage
  obtain ⟨t, db, obs, hnext, -, rfl⟩ := step_eq_some hstep
  have hcall := hs.calls j
  dsimp only at hstage ⊢
  rw [hstage] at hnext hcall
  rw [Function.update_self]
  exact ⟨obs, rfl, (Step.of_next hnext).correlates hcall.1 hcall.2⟩

end

/-! ### Two runs -/

/-- Two events that share a reference. -/
def sampleShared (i : Fin 2) : CanonicalEvent :=
  { sampleEvent s!"e{i}" "crm" s!"{i}" "d" with
    externalReferences := [⟨"crm", "deal", "d"⟩, ⟨"crm", "mail", s!"m{i}"⟩] }

/-- A call is answered. -/
def answered {n : ℕ} (i : Fin n) (answers : List Answer) : List (Fin n × CallInput) :=
  answers.map fun x => (i, .answer x)

/-- No call is made. -/
def unmade {n : ℕ} (m : Fin n × CallInput) : Bool :=
  match m.2 with
  | .call _ => false
  | _ => true

/-- Two triggers that share a reference create one process. -/
theorem reference_ownership_shared :
    ∃ (ms ms' : List (Fin 2 × CallInput)) (s s' : Pool 2 Database Stage IngestionEvent)
      (r : ExternalReference),
    Runs (calls samplePlatform) (fun _ _ => True) (noEvents 2) ms s ∧
    Contending s Finset.univ sampleShared r ∧
    Runs (calls samplePlatform) (Apart samplePlatform Finset.univ sampleShared) s ms' s' ∧
    (∃ i result, s'.calls i = .ended (.ingested result) ∧ result.created = true) ∧
    s'.log.countP (·.mentions r) = 1 := by
  let r : ExternalReference := ⟨"crm", "deal", "d"⟩
  let ms : List (Fin 2 × CallInput) :=
    [(0, .call (.ingest (sampleShared 0) (some {}))),
      (1, .call (.ingest (sampleShared 1) (some {})))]
  let ms' : List (Fin 2 × CallInput) := List.flatten
    [answered 1 [.check none, .go, .go], answered 0 (triggerAnswers "p" ++ [.fresh "o" "" 0]),
      answered 1 [.go, .go, .go, .go, .go, .fresh "o'" "" 0]]
  let result : IngestionResult :=
    ⟨"e1", true, .matched, some "single_process_match", some "p", some "o'"⟩
  obtain ⟨s, hruns, hp⟩ := exists_runs (C := calls samplePlatform) (s := noEvents 2)
    (fun _ _ => true) ms
    (fun s => (∀ i, s.calls i = .ingesting (sampleShared i) (some {}) .opening ∧
        ∀ r' ∈ (sampleShared i).externalReferences, s.store.owner r' = none) ∧
      (s.run (calls samplePlatform) (fun _ m => unmade m) ms').any fun s' =>
        s'.calls 1 = .ended (.ingested result)) (by decide +kernel)
  obtain ⟨hstart, hrest⟩ := of_decide_eq_true hp
  obtain ⟨s', hrun, hended⟩ := Option.any_eq_true _ _ |>.mp hrest
  have hruns := hruns.mono (H := fun _ _ => True) fun _ _ _ => trivial
  have hcontending : Contending s Finset.univ sampleShared r :=
    ⟨fun i _ => ⟨{}, (hstart i).1⟩, fun i _ => by simp [sampleShared, r], fun i _ => rfl,
      fun i _ => (hstart i).2⟩
  have hapart : Runs (calls samplePlatform) (Apart samplePlatform Finset.univ sampleShared)
      s ms' s' := by
    refine (runs_of_run hrun).mono fun s m hm => ?_
    rw [Apart, if_pos (Finset.mem_univ m.1)]
    rintro c hcall
    rw [unmade, hcall] at hm
    cases hm
  have hcreated : s'.calls 1 = .ended (.ingested result) := of_decide_eq_true hended
  exact ⟨ms, ms', s, s', r, hruns, hcontending, hapart, ⟨1, result, hcreated, rfl⟩,
    (reference_ownership hruns).2.2.2.2 _ _ r hcontending ms' s' hapart
      ⟨1, Finset.mem_univ 1, result, hcreated, rfl⟩⟩

/-- A trigger that names a process is matched to it, and creates none, although nobody owned its
reference. -/
theorem trigger_without_process :
    ∃ (ms ms' : List (Fin 1 × CallInput)) (s s' : Pool 1 Database Stage IngestionEvent)
      (e : CanonicalEvent) (r : ExternalReference) (result : IngestionResult),
    Runs (calls samplePlatform) (fun _ _ => True) (noEvents 1) ms s ∧
    s.calls 0 = .ingesting e (some {}) .opening ∧ e.externalReferences = [r] ∧
    s.store.owner r = none ∧
    Runs (calls samplePlatform) (fun _ m => unmade m = true) s ms' s' ∧
    s'.calls 0 = .ended (.ingested result) ∧ result.created = true ∧
    result.correlationStatus = .matched ∧ s'.log.countP (·.mentions r) = 0 := by
  let r : ExternalReference := ⟨"crm", "deal", "d'"⟩
  let e : CanonicalEvent := { sampleEvent "e'" "crm" "2" "d'" with processInstanceId := some "p" }
  let ms : List (Fin 1 × CallInput) :=
    moves 0 (.ingest (sampleEvent "e" "crm" "1" "d") (some {}))
      (triggerAnswers "p" ++ [.fresh "o" "" 0]) ++ [(0, .call (.ingest e (some {})))]
  let ms' : List (Fin 1 × CallInput) := answered 0
    [.check none, .go, .go, .go, .go, .go, .go, .go, .fresh "o'" "" 0]
  let result : IngestionResult :=
    ⟨"e'", true, .matched, some "single_process_match", some "p", some "o'"⟩
  obtain ⟨s, hruns, hp⟩ := exists_runs (C := calls samplePlatform) (s := noEvents 1)
    (fun _ _ => true) ms
    (fun s => (s.calls 0 = .ingesting e (some {}) .opening ∧ s.store.owner r = none) ∧
      (s.run (calls samplePlatform) (fun _ m => unmade m) ms').any fun s' =>
        s'.calls 0 = .ended (.ingested result) ∧ s'.log.countP (·.mentions r) = 0)
    (by decide +kernel)
  obtain ⟨⟨hstart, hunbound⟩, hrest⟩ := of_decide_eq_true hp
  obtain ⟨s', hrun, hended⟩ := Option.any_eq_true _ _ |>.mp hrest
  obtain ⟨hended, hcount⟩ := of_decide_eq_true hended
  exact ⟨ms, ms', s, s', e, r, result, hruns.mono fun _ _ _ => trivial, hstart, rfl, hunbound,
    runs_of_run hrun, hended, rfl, rfl, hcount⟩

end TiramisuAgents.Events
