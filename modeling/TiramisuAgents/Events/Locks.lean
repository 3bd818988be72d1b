import TiramisuAgents.Events.Steps
import TiramisuAgents.Library.Locking
import Mathlib.Data.List.Sort
import Mathlib.Data.Prod.Lex
import Mathlib.Data.String.Basic

/-!
The locks of `EventIngestionService.ingest` (`events/ingestion.py`) and of
`QuarantineResolutionService.resolve` (`events/quarantine.py`), taken one by one.

The calls are those of one platform, each for its tenant.  An advisory lock is a number, the hash
of its key, which is a text; so the locks of two keys may be one lock.  Before both of them a call
takes the lock of the tenant's deployment in shared mode, as all these calls do; it stops none of
them and is left out.

* `TenantId`: the canonical text of a tenant's identity.
* `sourceEventKey`, `correlationKeys`, `quarantineCommandKey`: the keys of the advisory locks.
* `LockName`, `DatabaseLock`, `Stage.asks`: what the statements lock, in their order.
* `ingress`: the transactions.
* `keysInUse`: the keys that are held or asked for.
* `ingress_never_deadlocks`: the transactions never wait for each other in a cycle.
-/

namespace TiramisuAgents.Events

open Tables Transactions

/-! ### Tenants -/

/-- The digits of a UUID. -/
def hexDigits : List Char := "0123456789abcdef".toList

/-- `str(uuid)` gives 36 characters, digits and four hyphens. -/
def isCanonical (id : UUID) : Bool :=
  id.toList.length = 36 && id.toList.zipIdx.all fun c =>
    if c.2 ∈ [8, 13, 18, 23] then c.1 = '-' else hexDigits.contains c.1

/-- The identity of a tenant. -/
abbrev TenantId := { id : UUID // isCanonical id = true }

/-- The first characters of an identity are digits. -/
lemma TenantId.digits (tenantId : TenantId) : ∃ a b rest, tenantId.val.toList = a :: b :: rest ∧
    a ∈ hexDigits ∧ b ∈ hexDigits := by
  obtain ⟨id, hid⟩ := tenantId
  rw [isCanonical, Bool.and_eq_true, decide_eq_true_eq] at hid
  obtain ⟨hlength, hall⟩ := hid
  match hlist : id.toList with
  | [] => simp [hlist] at hlength
  | [_] => simp [hlist] at hlength
  | a :: b :: rest =>
      rw [hlist] at hall
      simp only [List.zipIdx_cons, List.all_cons] at hall
      simp at hall
      exact ⟨a, b, rest, rfl, hall.1, hall.2.1⟩

/-! ### Keys -/

/-- The key of `lock_source_event_key`. -/
def sourceEventKey (tenantId : UUID) (event : CanonicalEvent) : String :=
  s!"event:{tenantId}:{event.source}:{event.sourceEventId}"

/-- The key of a reference. -/
def correlationKey (tenantId : UUID) (r : ExternalReference) : String :=
  s!"{tenantId}:{r.provider}:{r.resourceType}:{r.externalId}"

/-- The keys of `lock_correlation_keys`, sorted. -/
def correlationKeys (tenantId : UUID) (references : List ExternalReference) : List String :=
  (references.dedup.map (correlationKey tenantId)).insertionSort (· ≤ ·)

/-- The key of a command. -/
def quarantineCommandKey (tenantId commandId : UUID) : String :=
  s!"quarantine-command:{tenantId}:{commandId}"

/-- The kind of a key, by its first characters: a command, an event, or a reference, which starts
with the tenant. -/
def keyKind (key : String) : ℕ :=
  match key.toList with
  | 'q' :: _ => 0
  | 'e' :: 'v' :: _ => 1
  | _ => 2

lemma keyKind_command (tenantId commandId : UUID) :
    keyKind (quarantineCommandKey tenantId commandId) = 0 := by
  have hkey : quarantineCommandKey tenantId commandId =
      "quarantine-command:" ++ tenantId ++ ":" ++ commandId := rfl
  rw [keyKind, hkey, String.toList_append, String.toList_append, String.toList_append]
  rfl

lemma keyKind_event (tenantId : UUID) (event : CanonicalEvent) :
    keyKind (sourceEventKey tenantId event) = 1 := by
  have hkey : sourceEventKey tenantId event =
      "event:" ++ tenantId ++ ":" ++ event.source ++ ":" ++ event.sourceEventId := rfl
  rw [keyKind, hkey, String.toList_append, String.toList_append, String.toList_append,
    String.toList_append, String.toList_append]
  rfl

/-- A key of a reference starts with digits, so it is no key of a command or of an event. -/
lemma keyKind_reference (tenantId : TenantId) (r : ExternalReference) :
    keyKind (correlationKey tenantId r) = 2 := by
  obtain ⟨a, b, rest, hlist, ha, hb⟩ := tenantId.digits
  have hkey : correlationKey tenantId r =
      tenantId.val ++ ":" ++ r.provider ++ ":" ++ r.resourceType ++ ":" ++ r.externalId := rfl
  have hq : a ≠ 'q' := by
    rintro rfl
    exact absurd ha (by decide)
  have hv : b ≠ 'v' := by
    rintro rfl
    exact absurd hb (by decide)
  rw [keyKind, hkey]
  simp only [String.toList_append, hlist, List.cons_append]
  split
  · simp_all
  · simp_all
  · rfl

/-! ### What the statements lock -/

/-- What a statement locks: an advisory lock under its key, or a row with `FOR UPDATE`. -/
inductive LockName where
  | key (text : String)
  | event (id : UUID)
  | process (id : UUID)
  deriving DecidableEq, Repr

/-- The locks of the database. -/
inductive DatabaseLock where
  | advisory (hash : BitVec 64)
  | event (id : UUID)
  | process (id : UUID)
  deriving DecidableEq, Repr

/-- `pg_advisory_xact_lock(hashtextextended(key, 0))`, and the locks of rows. -/
def LockName.lock (hash : String → BitVec 64) : LockName → DatabaseLock
  | key text => .advisory (hash text)
  | event id => .event id
  | process id => .process id

/-- The key of an advisory lock. -/
def LockName.text : LockName → Option String
  | key text => some text
  | event _ | process _ => none

/-- The kinds of locks: commands, events, references, event rows, process rows. -/
def LockName.kind : LockName → ℕ
  | key text => keyKind text
  | event _ => 3
  | process _ => 4

/-- The order of the locks: by kind, and keys of one kind by their text. -/
def LockName.rank (l : LockName) : ℕ ×ₗ String :=
  toLex (l.kind, l.text.getD "")

/-- The locks that the next statement of a call asks for, in this order. -/
def Stage.asks (tenantId : UUID) : Stage → List LockName
  | .ingesting event _ .admitted => [.key (sourceEventKey tenantId event)]
  | .ingesting event _ .unseen => (correlationKeys tenantId event.externalReferences).map .key
  | .ingesting _ _ (.resolved c) =>
      if c.status = .matched then c.processId.toList.map .process else []
  | .resolving command .admitted => [.key (quarantineCommandKey tenantId command.commandId)]
  | .resolving _ (.loaded event) => [.key (sourceEventKey tenantId event)]
  | .resolving _ (.keyed event) => (correlationKeys tenantId event.externalReferences).map .key
  | .resolving command (.referenced _) => [.event command.eventId]
  | .resolving command (.held _ _) => [.process command.processInstanceId]
  | _ => []

/-- A row that is not there is not locked; a process that the call has created is there. -/
def Stage.lockable (db : Database) : Stage → Bool
  | .ingesting _ _ (.resolved c) => c.processId.any fun id => (c.created.or (db.process id)).isSome
  | .resolving command (.referenced _) => (lookup InboxRow.id command.eventId db.inbox).isSome
  | .resolving command (.held _ _) => (db.process command.processInstanceId).isSome
  | _ => true

/-- No lock of a lower kind is asked for from this stage of an ingestion on. -/
def Ingesting.floor : Ingesting → ℕ
  | .opening | .admitted => 1
  | .keyed | .unseen => 2
  | .referenced | .candidates _ | .resolved _ => 4
  | .holding _ _ _ | .bound _ => 5

/-- No lock of a lower kind is asked for from this stage of a resolution on. -/
def Resolving.floor : Resolving → ℕ
  | .opening | .admitted => 0
  | .commanded | .loading | .loaded _ => 1
  | .keyed _ => 2
  | .referenced _ => 3
  | .held _ _ => 4
  | .holding _ _ _ | .bound _ _ _ _ => 5

/-- No lock of a lower kind is asked for from this stage on. -/
def Stage.floor : Stage → ℕ
  | .ingesting _ _ i => i.floor
  | .resolving _ r => r.floor
  | _ => 0

/-- A statement asks for locks of one kind. -/
lemma Stage.kind_of_asks {tenantId : TenantId} {t : Stage} {l : LockName}
    (h : l ∈ t.asks tenantId) : l.kind = t.floor := by
  have hreferences : ∀ references, l ∈ (correlationKeys tenantId references).map .key →
      l.kind = 2 := by
    intro references hl
    simp only [correlationKeys, List.mem_map, List.mem_insertionSort] at hl
    obtain ⟨text, ⟨r, -, rfl⟩, rfl⟩ := hl
    exact keyKind_reference tenantId r
  unfold Stage.asks at h
  split at h
  · rw [List.mem_singleton.mp h]
    exact keyKind_event _ _
  · exact hreferences _ h
  · split_ifs at h
    · obtain ⟨id, -, rfl⟩ := List.mem_map.mp h
      rfl
    · cases h
  · rw [List.mem_singleton.mp h]
    exact keyKind_command _ _
  · rw [List.mem_singleton.mp h]
    exact keyKind_event _ _
  · exact hreferences _ h
  · rw [List.mem_singleton.mp h]
    rfl
  · rw [List.mem_singleton.mp h]
    rfl
  · cases h

/-- A statement asks for one lock at most, or for those of the references of an event. -/
lemma Stage.asks_cases (tenantId : UUID) (t : Stage) : (t.asks tenantId).length ≤ 1 ∨
    ∃ references, t.asks tenantId = (correlationKeys tenantId references).map .key := by
  unfold Stage.asks
  split
  · exact .inl le_rfl
  · exact .inr ⟨_, rfl⟩
  · refine .inl ?_
    split_ifs
    · rw [List.length_map]
      exact Option.length_toList_le
    · exact Nat.zero_le 1
  · exact .inl le_rfl
  · exact .inl le_rfl
  · exact .inr ⟨_, rfl⟩
  · exact .inl le_rfl
  · exact .inl le_rfl
  · exact .inl (Nat.zero_le 1)

/-- The step lemma: from a statement that asks for locks on, only higher kinds are asked for. -/
lemma Stage.floor_step {P : Platform} {t t' : Stage} {x : CallInput} {db db' : Database}
    {obs : List IngestionEvent} (tenantId : UUID) (h : Step P t x db t' db' obs)
    (hstart : t.resting = false) (hopen : t'.resting = false) :
    t.floor ≤ t'.floor ∧ (t.asks tenantId ≠ [] → t.floor < t'.floor) := by
  cases h with
  | halt hresting => rw [hresting] at hopen; cases hopen
  | start c hresting => rw [hresting] at hstart; cases hstart
  | create e b c id id' now hunmatched =>
      simp [Stage.floor, Ingesting.floor, Stage.asks, hunmatched]
  | _ => simp_all [Stage.floor, Ingesting.floor, Resolving.floor, Stage.asks, Stage.resting]

/-! ### The transactions -/

/-- The tenant of a call, and where the call stands. -/
structure IngressStage where
  tenantId : TenantId
  stage : Stage
  deriving DecidableEq

/-- What happens to a call: it is made for a tenant, or its next statement is answered. -/
inductive IngressInput where
  | ingest (tenantId : TenantId) (event : CanonicalEvent) (bootstrap : Option ProcessBootstrap)
  | resolve (tenantId : TenantId) (command : ResolveQuarantineInput)
  | answer (answer : Answer)
  deriving DecidableEq

/-- The next statement of a call, on the rows of its tenant. -/
def IngressStage.next (t : IngressStage) (x : IngressInput) (dbs : TenantId → Database) :
    Option (IngressStage × (TenantId → Database) × List IngestionEvent) :=
  match x with
  | .ingest tenantId event bootstrap =>
      if t.stage.resting then some (⟨tenantId, (Call.ingest event bootstrap).start⟩, dbs, [])
      else none
  | .resolve tenantId command =>
      if t.stage.resting then some (⟨tenantId, (Call.resolve command).start⟩, dbs, []) else none
  | .answer y => (t.stage.statement ⟨t.tenantId⟩ y (dbs t.tenantId)).map fun r =>
      (⟨t.tenantId, r.1⟩, Function.update dbs t.tenantId r.2.1, r.2.2)

/-- The transactions of `ingest` and `resolve`. -/
def ingress :
    Script (TenantId → Database) IngressStage IngressInput IngestionEvent LockName where
  next t x dbs := t.next x dbs
  asks t := t.stage.asks t.tenantId
  ready t dbs := t.stage.lockable (dbs t.tenantId)
  abort t := { t with stage := .idle }
  opens t := t.stage.resting

/-- Calls that are not made yet. -/
def ingressStart {n : ℕ} (dbs : TenantId → Database) (tenants : Fin n → TenantId) :
    Pool n (TenantId → Database) (Holding IngressStage LockName) IngestionEvent :=
  ⟨dbs, fun i => ⟨⟨tenants i, .idle⟩, []⟩, []⟩

/-- The keys of the advisory locks that a call holds or asks for. -/
def keysInUse {n : ℕ}
    (p : Pool n (TenantId → Database) (Holding IngressStage LockName) IngestionEvent) :
    List String :=
  (List.finRange n).flatMap fun i =>
    ((p.calls i).held ++ (ingress.request (p.calls i) p.store).toList).filterMap LockName.text

lemma not_lt_empty (text : String) : ¬ text < "" := by
  rw [String.lt_iff_toList_lt]
  exact List.not_lt_nil _

/-- The calls take their locks in the order of the ranks. -/
lemma ingress_ranked : ingress.Ranked LockName.rank fun t => toLex (t.stage.floor, "") where
  sorted t := by
    obtain hone | ⟨references, hasks⟩ := t.stage.asks_cases t.tenantId
    · change ((t.stage.asks t.tenantId).Pairwise _)
      match hlist : t.stage.asks t.tenantId with
      | [] => exact .nil
      | [l] => exact List.pairwise_singleton _ l
      | _ :: _ :: _ => simp [hlist] at hone
    · change ((t.stage.asks t.tenantId).Pairwise _)
      have hkind : ∀ l ∈ t.stage.asks t.tenantId, l.kind = t.stage.floor := fun l hl =>
        Stage.kind_of_asks hl
      rw [hasks] at hkind ⊢
      rw [List.pairwise_map]
      refine (List.pairwise_insertionSort (· ≤ ·) _).imp_of_mem fun {k k'} hk hk' hle => ?_
      have hsame : (LockName.key k).kind = (LockName.key k').kind :=
        (hkind _ (List.mem_map_of_mem hk)).trans (hkind _ (List.mem_map_of_mem hk')).symm
      exact Prod.Lex.toLex_le_toLex.mpr (.inr ⟨hsame, hle⟩)
  distinct t l hl l' hl' hrank := by
    change l ∈ t.stage.asks t.tenantId at hl
    change l' ∈ t.stage.asks t.tenantId at hl'
    obtain hone | ⟨references, hasks⟩ := t.stage.asks_cases t.tenantId
    · obtain ⟨k, hk⟩ := List.length_eq_one_iff.mp (le_antisymm hone (List.length_pos_of_mem hl))
      rw [hk, List.mem_singleton] at hl hl'
      rw [hl, hl']
    · rw [hasks] at hl hl'
      obtain ⟨k, -, rfl⟩ := List.mem_map.mp hl
      obtain ⟨k', -, rfl⟩ := List.mem_map.mp hl'
      have htext : k = k' := (Prod.mk.inj (toLex.injective hrank)).2
      rw [htext]
  above t l hl := by
    have hkind : l.kind = t.stage.floor := Stage.kind_of_asks hl
    exact Prod.Lex.toLex_le_toLex.mpr (.inr ⟨hkind.symm, not_lt.mp (not_lt_empty _)⟩)
  rises := by
    intro t y dbs u dbs' obs hnext hopen
    change t.next y dbs = _ at hnext
    change u.stage.resting = false at hopen
    have hrise : t.stage.floor ≤ u.stage.floor ∧
        (t.stage.asks t.tenantId ≠ [] → t.stage.floor < u.stage.floor) := by
      cases hresting : t.stage.resting with
      | true =>
          have hidle : t.stage.floor = 0 ∧ t.stage.asks t.tenantId = [] := by
            cases hstage : t.stage <;> simp_all [Stage.resting, Stage.floor, Stage.asks]
          rw [hidle.1, hidle.2]
          exact ⟨Nat.zero_le _, fun h => absurd rfl h⟩
      | false =>
          unfold IngressStage.next at hnext
          split at hnext
          · simp [hresting] at hnext
          · simp [hresting] at hnext
          · rename_i x
            rw [Option.map_eq_some_iff] at hnext
            obtain ⟨⟨t', db', obs'⟩, hstatement, hu⟩ := hnext
            cases hu
            have hstep := Step.of_next (x := .answer x) hstatement
            exact Stage.floor_step t.tenantId hstep hresting hopen
    refine ⟨Prod.Lex.toLex_mono ⟨hrise.1, le_rfl⟩, fun l hl => ?_⟩
    have hkind : l.kind = t.stage.floor := Stage.kind_of_asks hl
    have hlt : l.kind < u.stage.floor := hkind ▸ hrise.2 (List.ne_nil_of_mem hl)
    exact Prod.Lex.toLex_lt_toLex.mpr (.inl hlt)

/-- **Ingress and quarantine never deadlock.**  In every state that ingestions and resolutions
reach, for whatever tenants, references and processes, no call waits for itself along the wait-for
relation, if the hash separates the keys in use. -/
theorem ingress_never_deadlocks (hash : String → BitVec 64) {n : ℕ} (dbs : TenantId → Database)
    (tenants : Fin n → TenantId) {ms : List (Fin n × Option IngressInput)}
    {p : Pool n (TenantId → Database) (Holding IngressStage LockName) IngestionEvent}
    (h : Runs (ingress.code (LockName.lock hash)) (fun _ _ => True) (ingressStart dbs tenants) ms p)
    (hhash : Set.InjOn hash {key | key ∈ keysInUse p}) (i : Fin n) :
    ¬ Relation.TransGen (WaitsFor (ingress.code (LockName.lock hash)) p) i i := by
  have hused : ∀ i l key, l ∈ (p.calls i).held ++ (ingress.request (p.calls i) p.store).toList →
      l.text = some key → key ∈ keysInUse p := by
    intro i l key hl hkey
    rw [keysInUse, List.mem_flatMap]
    exact ⟨i, List.mem_finRange i, List.mem_filterMap.mpr ⟨l, hl, hkey⟩⟩
  refine ingress_ranked.not_waits h (fun _ => .empty _) (fun i j l l' hl hl' hlock => ?_) i
  have hasked : l ∈ (p.calls i).held ++ (ingress.request (p.calls i) p.store).toList := by
    simp [hl]
  cases l with
  | key text =>
      cases l' with
      | key text' =>
          have hsame : hash text' = hash text := by simpa [LockName.lock] using hlock
          have htext : text' = text := hhash
            (hused j _ text' (List.mem_append_left _ hl') rfl) (hused i _ text hasked rfl) hsame
          rw [htext]
      | event id => cases hlock
      | process id => cases hlock
  | event id =>
      cases l' with
      | event id' => rfl
      | _ => cases hlock
  | process id =>
      cases l' with
      | process id' => rfl
      | _ => cases hlock

/-! ### A call that waits -/

/-- A tenant. -/
def sampleTenant : TenantId := ⟨"0a1b2c3d-0000-4000-8000-000000000001", by decide⟩

/-- A hash of texts. -/
def polynomialHash (text : String) : BitVec 64 :=
  text.toList.foldl (fun h c => h * 31 + BitVec.ofNat 64 c.toNat) 0

/-- An event about two deals. -/
def dealsEvent (eventId sourceEventId : String) (deals : List String) : CanonicalEvent where
  eventId := eventId
  eventType := "deal.opened"
  source := "crm"
  sourceEventId := sourceEventId
  externalReferences := deals.map fun deal => ⟨"crm", "deal", deal⟩

/-- The rows of a tenant with one event in quarantine. -/
def quarantined : Database where
  inbox := [(dealsEvent "e" "1" ["a", "b"]).row
    { processId := none, status := .pending, reason := "no_process_match" }]

/-- A resolution waits for the first of its references while an ingestion holds it and goes on to
the second. -/
theorem ingress_never_deadlocks_waiting :
    ∃ (ms : List (Fin 2 × Option IngressInput))
      (p : Pool 2 (TenantId → Database) (Holding IngressStage LockName) IngestionEvent),
    Runs (ingress.code (LockName.lock polynomialHash)) (fun _ _ => True)
      (ingressStart (fun _ => quarantined) fun _ => sampleTenant) ms p ∧
    WaitsFor (ingress.code (LockName.lock polynomialHash)) p 1 0 ∧
    ∀ i, ¬ Relation.TransGen (WaitsFor (ingress.code (LockName.lock polynomialHash)) p) i i := by
  let C := ingress.code (LockName.lock polynomialHash)
  let answers (i : Fin 2) (xs : List Answer) : List (Fin 2 × Option IngressInput) :=
    xs.map fun x => (i, some (.answer x))
  let ms : List (Fin 2 × Option IngressInput) := List.flatten
    [[(0, some (.ingest sampleTenant (dealsEvent "e'" "2" ["b", "a"]) none))],
      answers 0 [.check none, .go, .go, .go, .go],
      [(1, some (.resolve sampleTenant ⟨"c", "e", "p", "u", "reason", []⟩))],
      answers 1 [.check none, .go, .go, .go, .go, .go, .go]]
  let l : LockName := .key (correlationKey sampleTenant ⟨"crm", "deal", "a"⟩)
  obtain ⟨p, hruns, hlast⟩ := exists_runs (C := C)
    (s := ingressStart (fun _ => quarantined) fun _ => sampleTenant) (fun _ _ => true) ms
    (fun p => decide (ingress.request (p.calls 1) p.store = some l ∧
      l.lock polynomialHash ∉ (p.calls 1).held.map (LockName.lock polynomialHash) ∧
      l.lock polynomialHash ∈ (p.calls 0).held.map (LockName.lock polynomialHash) ∧
      ∀ key ∈ keysInUse p, ∀ key' ∈ keysInUse p,
        polynomialHash key = polynomialHash key' → key = key')) (by decide +kernel)
  obtain ⟨hasked, hnot, hheld, hhash⟩ := of_decide_eq_true hlast
  have hruns := hruns.mono (H := fun _ _ => True) fun _ _ _ => trivial
  exact ⟨ms, p, hruns, Script.waitsFor (.answer .go) (by decide) ⟨hasked, hnot, hheld⟩,
    ingress_never_deadlocks polynomialHash (fun _ => quarantined) (fun _ => sampleTenant) hruns
      fun key hkey key' hkey' => hhash key hkey key' hkey'⟩

end TiramisuAgents.Events
