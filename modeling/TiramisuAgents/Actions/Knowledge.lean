import TiramisuAgents.Actions.Steps

/-!
What the rows of an action satisfy, and what a call knows of them at each stage.

A row that a call has read under a lock is the committed one as long as the call holds the
lock.  What only grows (the revision, the policy, the adapter of the action, that an attempt
exists) is known without one.

* `Database.Consistent`: the rows of the database fit together.
* `Stage.Knows`: what a call knows of the database.
* `sound`, `sound_runs`: both hold in every run.
-/

namespace TiramisuAgents

open Transactions

/-! ### The rows -/

namespace Database

variable (P : Platform) (db : Database)

/-- The idempotency key of the action's revision. -/
def Keyed (key : String) : Prop :=
  ∃ row, db.revision = some row ∧ key = P.executionIdempotencyKey 1 row.payloadHash

/-- The adapter of the action. -/
def adapter : Option ActionAdapter := db.request.bind fun row => P.adapters row.actionType

/-- The rows fit together: they are inserted together, an approval belongs to a policy that
requires it and does not expire, and an attempt has the key of the revision. -/
structure Consistent : Prop where
  absent : db.request = none → db.revision = none ∧ db.policy = none ∧ db.approval = none ∧
    ∀ key, db.attempts key = none
  present : db.request ≠ none → db.revision ≠ none ∧ db.policy ≠ none ∧
    (db.policy = some .requireApproval → db.approval ≠ none)
  approval : ∀ a, db.approval = some a → db.policy = some .requireApproval ∧ a.expiresAt = none
  keyed : ∀ key, db.attempts key ≠ none → db.Keyed P key

/-- What no commit takes back. -/
structure Grows (db db' : Database) : Prop where
  revision : ∀ row, db.revision = some row → db'.revision = some row
  policy : ∀ outcome, db.policy = some outcome → db'.policy = some outcome
  request : ∀ row, db.request = some row → ∃ row', db'.request = some row' ∧
    row'.actionType = row.actionType
  attempts : ∀ key, db.attempts key ≠ none → db'.attempts key ≠ none

variable {P db}

/-- There is one key. -/
lemma Keyed.unique {key key' : String} (h : db.Keyed P key) (h' : db.Keyed P key') :
    key = key' := by
  obtain ⟨row, hrow, rfl⟩ := h
  obtain ⟨row', hrow', rfl⟩ := h'
  rw [Option.some.inj (hrow.symm.trans hrow')]

namespace Grows

variable {db' : Database} {key : String} {a : ActionAdapter}

lemma keyed (h : db.Grows db') (hkey : db.Keyed P key) : db'.Keyed P key := by
  obtain ⟨row, hrow, rfl⟩ := hkey
  exact ⟨row, h.revision row hrow, rfl⟩

lemma adapter_eq (h : db.Grows db') (ha : db.adapter P = some a) : db'.adapter P = some a := by
  obtain ⟨row, hrow, ha⟩ := Option.bind_eq_some_iff.mp ha
  obtain ⟨row', hrow', htype⟩ := h.request row hrow
  rw [adapter, hrow', Option.bind_some, htype, ha]

protected lemma refl : db.Grows db :=
  ⟨fun _ h => h, fun _ h => h, fun row h => ⟨row, h, rfl⟩, fun _ h => h⟩

lemma setRequestStatus (status : ActionRequestStatus) : db.Grows (db.setRequestStatus status) := by
  refine ⟨fun _ h => h, fun _ h => h, fun row h => ?_, fun _ h => h⟩
  exact ⟨{ row with status := status }, by simp [h], rfl⟩

lemma setAttempt (h : db.Grows db') (key : String) (row : AttemptRow) :
    db.Grows (db'.setAttempt key row) := by
  refine ⟨h.revision, h.policy, h.request, fun key' hkey' => ?_⟩
  rw [setAttempt_attempts]
  by_cases heq : key' = key
  · rw [heq, Function.update_self]
    exact Option.some_ne_none row
  · rw [Function.update_of_ne heq]
    exact h.attempts key' hkey'

end Grows

end Database

section

variable {P : Platform} {t t' u : Stage} {x : CallInput} {db db' : Database}
  {obs : List ActionEvent}

/-- No commit takes back what only grows. -/
lemma Step.grows (h : Step P t x db t' db' obs) : db.Grows db' := by
  cases h with
  | insert => exact (Database.Grows.setRequestStatus _).setAttempt _ _
  | reclaim => exact Database.Grows.setRequestStatus _
  | remark => exact Database.Grows.setRequestStatus _
  | mark => exact (Database.Grows.setRequestStatus _).setAttempt _ _
  | record => exact (Database.Grows.setRequestStatus _).setAttempt _ _
  | resolve c attempt =>
      have hstatus : db.Grows (db.setRequestStatus c.resolution.status.toRequest) :=
        Database.Grows.setRequestStatus _
      obtain ⟨hrevision, hpolicy, hrequest, hattempts⟩ :=
        hstatus.setAttempt c.idempotencyKey ((c.kept P.jsonb).apply attempt)
      exact ⟨hrevision, hpolicy, hrequest, hattempts⟩
  | review c approval request write =>
      refine ⟨fun _ h => h, fun _ h => h, fun row h => ?_, fun _ h => h⟩
      exact ⟨{ row with status := write.request.getD row.status }, by simp [Database.review, h],
        rfl⟩
  | persist p =>
      refine ⟨fun _ h => ?_, fun _ h => ?_, fun row h => ⟨row, ?_, rfl⟩, fun _ h => h⟩
      · simp [Database.persist, h]
      · simp [Database.persist, h]
      · simp [Database.persist, h]
  | setStatus => exact ⟨fun _ h => h, fun _ h => h, fun row h => ⟨row, h, rfl⟩, fun _ h => h⟩
  | reviewElsewhere =>
      exact ⟨fun _ h => h, fun _ h => h, fun row h => ⟨row, h, rfl⟩, fun _ h => h⟩
  | _ => exact .refl

/-! ### Calls -/

/-- The selected row is the committed one. -/
structure Loaded.Current (row : Loaded) (db : Database) : Prop where
  request : db.request = some row.request
  revision : db.revision = some row.revision
  policy : db.policy = some row.policy
  process : db.process = row.process

/-- The exact payload is approved. -/
def Loaded.Approved (row : Loaded) (db : Database) : Prop :=
  ∃ a, db.approval = some a ∧ a.payloadHash = row.revision.payloadHash ∧ a.status = .approved

/-- What the policy asks for is there: nothing, or the approval with its decision. -/
def Loaded.Permitted (row : Loaded) (db : Database) : Prop :=
  (row.policy = .allow ∧ (row.request.status = .allowed ∨ row.request.status.retryable = true)) ∨
  (row.policy = .requireApproval ∧ row.Approved db ∧
    db.decision = some ⟨.approved, row.revision.payloadHash⟩ ∧
    (row.request.status = .approved ∨ row.request.status.retryable = true))

/-- The transaction may go on with the row. -/
structure Loaded.Admissible (row : Loaded) (revision : ℕ) : Prop where
  unfenced : row.process.fenced = false
  revision : row.request.currentRevision = revision

/-- What an authorisation knows. -/
def Authorising.Knows (revision : ℕ) (db : Database) : Authorising → Prop
  | .admitting | .selecting => True
  | .loaded row => revision = 1 ∧ row.Current db
  | .approving row =>
      revision = 1 ∧ row.Current db ∧ row.Admissible revision ∧ row.policy = .requireApproval
  | .deciding row =>
      revision = 1 ∧ row.Current db ∧ row.Admissible revision ∧ row.policy = .requireApproval ∧
        row.Approved db
  | .authorised row =>
      revision = 1 ∧ row.Current db ∧ row.Admissible revision ∧ row.Permitted db

/-- What a transaction knows when it starts to load the action. -/
def Phase.Knows (P : Platform) (db : Database) : Phase → Prop
  | .claim | .reconcile => True
  | .fence key adapter isNew =>
      db.attempts key ≠ none ∧ db.adapter P = some adapter ∧
        (isNew = false → adapter.guaranteesIdempotency = true)

/-- What a call knows. -/
def Stage.Knows (P : Platform) (db : Database) : Stage → Prop
  | .authorising phase revision a => phase.Knows P db ∧ a.Knows revision db
  | .claimed _ key adapter existing =>
      db.Keyed P key ∧ db.adapter P = some adapter ∧ db.attempts key = existing
  | .marking key attempt | .marked key attempt =>
      db.attempts key = some attempt ∧ attempt.status.terminal = false
  | .looking (.execute _ adapter) key => db.attempts key ≠ none ∧ db.adapter P = some adapter
  | .looking .reconcile key | .invoking key | .recording key _ => db.attempts key ≠ none
  | .gating revision key row =>
      db.attempts key ≠ none ∧ revision = 1 ∧ row.Current db ∧ row.Admissible revision ∧
        row.Permitted db
  | .recordingAttempt key _ attempt | .recordingBoth key _ attempt => db.attempts key = some attempt
  | .resolvingBoth command attempt => db.attempts command.idempotencyKey = some attempt
  | _ => True

/-- A selected row is the committed one, of revision 1. -/
lemma Database.row_eq_some {revision : ℕ} {row : Loaded} (h : db.row revision = some row) :
    revision = 1 ∧ row.Current db := by
  rw [Database.row] at h
  split_ifs at h with hrevision
  obtain ⟨request, hrequest, h⟩ := Option.bind_eq_some_iff.mp h
  obtain ⟨r, hr, h⟩ := Option.bind_eq_some_iff.mp h
  obtain ⟨policy, hpolicy, rfl⟩ := Option.map_eq_some_iff.mp h
  exact ⟨hrevision, hrequest, hr, hpolicy, rfl⟩

/-- What passes the checks on the row. -/
lemma Loaded.admissible {row : Loaded} {revision : ℕ} (h : row.refusal revision = none) :
    row.Admissible revision := by
  unfold Loaded.refusal at h
  split at h
  · cases h
  rename_i hfenced
  split at h
  · cases h
  rename_i hrevision
  exact ⟨by simpa using hfenced, not_not.mp hrevision⟩

lemma Loaded.permitted_of_allow {row : Loaded} {revision : ℕ} (h : row.refusal revision = none)
    (hpolicy : row.policy ≠ .requireApproval) : row.Permitted db := by
  unfold Loaded.refusal at h
  split at h
  · cases h
  split at h
  · cases h
  split at h
  · split at h
    · exact .inl ⟨‹_›, ‹_›⟩
    · cases h
  · exact absurd ‹_› hpolicy
  · cases h

lemma Loaded.approved_of_check {row : Loaded} {now : Time}
    (h : row.approvalRefusal db.approval now = none) : row.Approved db := by
  unfold Loaded.approvalRefusal at h
  split at h
  · split at h
    · cases h
    rename_i hexact
    rw [not_or, not_not, not_not] at hexact
    exact ⟨_, ‹_›, hexact.1, hexact.2⟩
  · cases h

lemma Loaded.permitted_of_decision {row : Loaded} (h : row.decisionRefusal db.decision = none)
    (hpolicy : row.policy = .requireApproval) (happroved : row.Approved db) :
    row.Permitted db := by
  unfold Loaded.decisionRefusal at h
  split at h
  · cases h
  rename_i hdecision
  split at h
  · exact .inr ⟨hpolicy, happroved, not_not.mp hdecision, ‹_›⟩
  · cases h

/-- A selected row gives the adapter and the key of the action. -/
lemma Loaded.Current.adapter_eq {row : Loaded} (h : row.Current db) :
    db.adapter P = P.adapters row.request.actionType := by
  rw [Database.adapter, h.request, Option.bind_some]

lemma Loaded.Current.keyed {row : Loaded} (h : row.Current db) :
    db.Keyed P (P.executionIdempotencyKey 1 row.revision.payloadHash) :=
  ⟨row.revision, h.revision, rfl⟩

/-! ### A step keeps the rows consistent -/

/-- A commit that inserts no rows but attempts of the revision's key. -/
lemma Database.Consistent.write (hdb : db.Consistent P)
    (hrequest : db'.request = none ↔ db.request = none) (hrevision : db'.revision = db.revision)
    (hpolicy : db'.policy = db.policy)
    (happroval : db'.approval.map ApprovalRow.expiresAt = db.approval.map ApprovalRow.expiresAt)
    (hattempts : ∀ key, db'.attempts key ≠ none → db.Keyed P key) : db'.Consistent P := by
  have hnone : db'.approval = none ↔ db.approval = none := by
    rw [← Option.map_eq_none_iff (f := ApprovalRow.expiresAt), happroval, Option.map_eq_none_iff]
  have hkeyed : ∀ key, db'.attempts key ≠ none → db'.Keyed P key := by
    intro key hkey
    obtain ⟨row, hrow, rfl⟩ := hattempts key hkey
    exact ⟨row, hrevision.trans hrow, rfl⟩
  refine ⟨fun h => ?_, fun h => ?_, fun a ha => ?_, hkeyed⟩
  · obtain ⟨hrev, hpol, happ, -⟩ := hdb.absent (hrequest.mp h)
    refine ⟨hrevision.trans hrev, hpolicy.trans hpol, hnone.mpr happ, fun key => ?_⟩
    by_contra hkey
    obtain ⟨row, hrow, -⟩ := hattempts key hkey
    rw [hrev] at hrow
    cases hrow
  · obtain ⟨hrev, hpol, happ⟩ := hdb.present (fun h' => h (hrequest.mpr h'))
    rw [hrevision, hpolicy]
    exact ⟨hrev, hpol, fun hneeds hnone' => happ hneeds (hnone.mp hnone')⟩
  · rw [ha, Option.map_some] at happroval
    obtain ⟨b, hb, hexpires⟩ := Option.map_eq_some_iff.mp happroval.symm
    obtain ⟨hpol, hnever⟩ := hdb.approval b hb
    exact ⟨hpolicy.trans hpol, hexpires.symm.trans hnever⟩

lemma Database.Consistent.setRequestStatus (hdb : db.Consistent P) (status : ActionRequestStatus) :
    (db.setRequestStatus status).Consistent P :=
  hdb.write (by simp) rfl rfl rfl hdb.keyed

lemma Database.Consistent.setAttempt (hdb : db.Consistent P) {key : String} (hkey : db.Keyed P key)
    (row : AttemptRow) : (db.setAttempt key row).Consistent P := by
  refine hdb.write Iff.rfl rfl rfl rfl fun key' hkey' => ?_
  by_cases heq : key' = key
  · rwa [heq]
  · rw [setAttempt_attempts, Function.update_of_ne heq] at hkey'
    exact hdb.keyed key' hkey'

/-- The gateway inserts all rows, or none. -/
lemma Database.Consistent.persist (hdb : db.Consistent P) (p : Proposal) (payloadHash : String) :
    (db.persist p payloadHash).Consistent P := by
  cases hrequest : db.request with
  | none =>
      obtain ⟨hrevision, hpolicy, happroval, hattempts⟩ := hdb.absent hrequest
      refine ⟨fun h => ?_, fun _ => ⟨?_, ?_, fun h => ?_⟩, fun a ha => ?_, fun key hkey => ?_⟩
      · cases h
      · exact Option.some_ne_none _
      · exact Option.some_ne_none _
      · have houtcome : p.outcome = .requireApproval := by simpa [Database.persist, hpolicy] using h
        simp [Database.persist, hpolicy, houtcome]
      · by_cases houtcome : p.outcome = .requireApproval
        · simp only [Database.persist, hpolicy, happroval, Option.getD_none, houtcome, if_true,
            Option.some.injEq] at ha ⊢
          exact ⟨trivial, by rw [← ha]⟩
        · simp [Database.persist, hpolicy, happroval, houtcome] at ha
      · exact absurd (hattempts key) hkey
  | some request =>
      obtain ⟨hrevision, hpolicy, happroval⟩ := hdb.present (by simp [hrequest])
      obtain ⟨row, hrow⟩ := Option.ne_none_iff_exists'.mp hrevision
      obtain ⟨policy, hpol⟩ := Option.ne_none_iff_exists'.mp hpolicy
      refine hdb.write (by simp [Database.persist, hrequest]) (by simp [Database.persist, hrow])
        (by simp [Database.persist, hpol]) ?_ hdb.keyed
      by_cases hneeds : policy = .requireApproval
      · obtain ⟨a, ha⟩ := Option.ne_none_iff_exists'.mp (happroval (hpol.trans (by rw [hneeds])))
        simp [Database.persist, hpol, hneeds, ha]
      · simp [Database.persist, hpol, hneeds]

/-- No commit breaks the rows. -/
lemma Step.consistent (h : Step P t x db t' db' obs) (hdb : db.Consistent P)
    (ht : t.Knows P db) : db'.Consistent P := by
  have keyed {key : String} {row : AttemptRow} (h : db.attempts key = some row) :
      db.Keyed P key := hdb.keyed key (by simp [h])
  cases h with
  | insert => exact (hdb.setRequestStatus _).setAttempt ht.1 _
  | reclaim => exact hdb.setRequestStatus _
  | remark => exact hdb.setRequestStatus _
  | mark => exact (hdb.setRequestStatus _).setAttempt (keyed ht.1) _
  | record => exact (hdb.setRequestStatus _).setAttempt (keyed ht) _
  | resolve c attempt =>
      obtain ⟨habsent, hpresent, happroval, hkeyed⟩ :=
        (hdb.setRequestStatus c.resolution.status.toRequest).setAttempt (keyed ht)
          ((c.kept P.jsonb).apply attempt)
      exact ⟨habsent, hpresent, happroval, hkeyed⟩
  | review =>
      exact hdb.write (by simp [Database.review]) rfl rfl (by simp [Database.review]; rfl) hdb.keyed
  | persist p => exact hdb.persist p _
  | setStatus => exact ⟨hdb.absent, hdb.present, hdb.approval, hdb.keyed⟩
  | reviewElsewhere => exact ⟨hdb.absent, hdb.present, hdb.approval, hdb.keyed⟩
  | _ => exact hdb

/-! ### A step keeps what the calls know -/

/-- A resting call knows nothing. -/
lemma Stage.knows_of_resting (ht : t.resting = true) : t.Knows P db := by
  cases t with
  | idle => trivial
  | ended outcome => trivial
  | _ => cases ht

lemma Call.start_knows (c : Call) : c.start.Knows P db := by
  cases c with
  | execute => exact ⟨trivial, trivial⟩
  | reconcile => exact ⟨trivial, trivial⟩
  | _ => trivial

/-- What the call that makes the step knows. -/
lemma Step.knows (h : Step P t x db t' db' obs) (ht : t.Knows P db) : t'.Knows P db' := by
  have hgrows := h.grows
  cases h with
  | halt hresting => exact Stage.knows_of_resting hresting
  | start c => exact c.start_knows
  | admitTenant => exact ⟨ht.1, trivial⟩
  | select phase revision row hfound => exact ⟨ht.1, Database.row_eq_some hfound⟩
  | needApproval phase revision row hallowed hpolicy =>
      exact ⟨ht.1, ht.2.1, ht.2.2, Loaded.admissible hallowed, hpolicy⟩
  | allow phase revision row hallowed hpolicy =>
      exact ⟨ht.1, ht.2.1, ht.2.2, Loaded.admissible hallowed,
        Loaded.permitted_of_allow hallowed hpolicy⟩
  | approved phase revision row now hallowed =>
      obtain ⟨hphase, hone, hcurrent, hadmissible, hpolicy⟩ := ht
      exact ⟨hphase, hone, hcurrent, hadmissible, hpolicy, Loaded.approved_of_check hallowed⟩
  | decided phase revision row hallowed =>
      obtain ⟨hphase, hone, hcurrent, hadmissible, hpolicy, happroved⟩ := ht
      exact ⟨hphase, hone, hcurrent, hadmissible,
        Loaded.permitted_of_decision hallowed hpolicy happroved⟩
  | claim revision row adapter hbound =>
      obtain ⟨-, rfl, hcurrent, -⟩ := ht
      exact ⟨hcurrent.keyed, hcurrent.adapter_eq.trans hbound, rfl⟩
  | find revision row attempt hfound hpending => exact ⟨hfound, hpending⟩
  | fence key adapter isNew revision row =>
      obtain ⟨hphase, hauthorised⟩ := ht
      exact ⟨hphase.1, hauthorised⟩
  | insert revision key adapter =>
      refine ⟨⟨by simp, hgrows.adapter_eq ht.2.1, ?_⟩, trivial⟩
      intro hnew
      cases hnew
  | reclaim revision key adapter attempt =>
      exact ⟨hgrows.attempts key (by simp [ht.2.2]), hgrows.adapter_eq ht.2.1⟩
  | flushMark => exact ht
  | remark key attempt => exact hgrows.attempts key (by simp [ht.1])
  | mark key attempt => exact hgrows.attempts key (by simp [ht.1])
  | retry revision key adapter hidempotent => exact ⟨⟨ht.1, ht.2, fun _ => hidempotent⟩, trivial⟩
  | looked lookup key answer outcome =>
      cases lookup with
      | execute revision adapter => exact ht.1
      | reconcile => exact ht
  | block => exact ht.1
  | invoke => exact ht.1
  | answered => exact ht
  | recordAttempt key outcome attempt hfound => exact hfound
  | recordBoth => exact ht
  | resolveBoth c attempt hfound => exact hfound
  | _ => trivial

/-- What a call has selected under the locks of the process and the request stays. -/
lemma Step.current_other {row : Loaded} (h : Step P t x db t' db' obs)
    (hprocess : .process ∉ t.locks) (hrequest : .request ∉ t.locks) (hrow : row.Current db) :
    row.Current db' := by
  obtain ⟨hproc, hrevision, hpolicy, -, -⟩ := h.process_frame hprocess
  exact ⟨(h.request_frame hprocess hrequest).trans hrow.request, hrevision.trans hrow.revision,
    hpolicy.trans hrow.policy, hproc.trans hrow.process⟩

lemma Step.approved_other {row : Loaded} (h : Step P t x db t' db' obs)
    (hprocess : .process ∉ t.locks) (hrow : row.Approved db) : row.Approved db' := by
  obtain ⟨a, ha, hexact⟩ := hrow
  exact ⟨a, (h.process_frame hprocess).2.2.2.1.trans ha, hexact⟩

lemma Step.permitted_other {row : Loaded} (h : Step P t x db t' db' obs)
    (hprocess : .process ∉ t.locks) (hrow : row.Permitted db) : row.Permitted db' := by
  rcases hrow with hallow | ⟨hpolicy, happroved, hdecision, hstatus⟩
  · exact .inl hallow
  · exact .inr ⟨hpolicy, h.approved_other hprocess happroved,
      (h.process_frame hprocess).2.2.2.2.trans hdecision, hstatus⟩

/-- What a bystander knows stays true: its locks protect it, or it only grows. -/
lemma Step.knows_other (h : Step P t x db t' db' obs) (hlocks : ∀ l ∈ u.locks, l ∉ t.locks)
    (ht : t.Knows P db) (hu : u.Knows P db) : u.Knows P db' := by
  have hgrows := h.grows
  cases u with
  | authorising phase revision a =>
      obtain ⟨hphase, ha⟩ := hu
      refine ⟨?_, ?_⟩
      · cases phase with
        | claim => trivial
        | reconcile => trivial
        | fence key adapter isNew =>
            exact ⟨hgrows.attempts key hphase.1, hgrows.adapter_eq hphase.2.1, hphase.2.2⟩
      · cases a with
        | admitting => trivial
        | selecting => trivial
        | loaded row =>
            have hp := hlocks .process (by simp [Stage.locks, Authorising.locks])
            have hr := hlocks .request (by simp [Stage.locks, Authorising.locks])
            exact ⟨ha.1, h.current_other hp hr ha.2⟩
        | approving row =>
            have hp := hlocks .process (by simp [Stage.locks, Authorising.locks])
            have hr := hlocks .request (by simp [Stage.locks, Authorising.locks])
            obtain ⟨hone, hcurrent, hrest⟩ := ha
            exact ⟨hone, h.current_other hp hr hcurrent, hrest⟩
        | deciding row =>
            have hp := hlocks .process (by simp [Stage.locks, Authorising.locks])
            have hr := hlocks .request (by simp [Stage.locks, Authorising.locks])
            obtain ⟨hone, hcurrent, hadmissible, hpolicy, happroved⟩ := ha
            exact ⟨hone, h.current_other hp hr hcurrent, hadmissible, hpolicy,
              h.approved_other hp happroved⟩
        | authorised row =>
            have hp := hlocks .process (by simp [Stage.locks, Authorising.locks])
            have hr := hlocks .request (by simp [Stage.locks, Authorising.locks])
            obtain ⟨hone, hcurrent, hadmissible, hpermitted⟩ := ha
            exact ⟨hone, h.current_other hp hr hcurrent, hadmissible,
              h.permitted_other hp hpermitted⟩
  | claimed revision key adapter existing =>
      have hr := hlocks .request (by simp [Stage.locks])
      exact ⟨hgrows.keyed hu.1, hgrows.adapter_eq hu.2.1,
        (congrFun (h.attempts_frame hr) key).trans hu.2.2⟩
  | marking key attempt =>
      have hr := hlocks .request (by simp [Stage.locks])
      exact ⟨(congrFun (h.attempts_frame hr) key).trans hu.1, hu.2⟩
  | marked key attempt =>
      have hr := hlocks .request (by simp [Stage.locks])
      exact ⟨(congrFun (h.attempts_frame hr) key).trans hu.1, hu.2⟩
  | looking lookup key =>
      cases lookup with
      | execute revision adapter => exact ⟨hgrows.attempts key hu.1, hgrows.adapter_eq hu.2⟩
      | reconcile => exact hgrows.attempts key hu
  | gating revision key row =>
      have hp := hlocks .process (by simp [Stage.locks])
      have hr := hlocks .request (by simp [Stage.locks])
      obtain ⟨hattempt, hone, hcurrent, hadmissible, hpermitted⟩ := hu
      exact ⟨hgrows.attempts key hattempt, hone, h.current_other hp hr hcurrent, hadmissible,
        h.permitted_other hp hpermitted⟩
  | invoking key => exact hgrows.attempts key hu
  | recording key outcome => exact hgrows.attempts key hu
  | recordingAttempt key outcome attempt =>
      refine (h.attempt_frame (hlocks _ (by simp [Stage.locks])) fun revision adapter ht' => ?_).trans hu
      -- an insert would find no attempt of the key
      rw [ht'] at ht
      exact Option.some_ne_none attempt (hu.symm.trans ht.2.2)
  | recordingBoth key outcome attempt =>
      have hr := hlocks .request (by simp [Stage.locks])
      exact (congrFun (h.attempts_frame hr) key).trans hu
  | resolvingBoth c attempt =>
      have hr := hlocks .request (by simp [Stage.locks])
      exact (congrFun (h.attempts_frame hr) c.idempotencyKey).trans hu
  | _ => trivial

end

/-! ### Runs -/

section

variable (P : Platform)

/-- The rows are consistent, and what the calls know is true. -/
lemma sound : Joint (calls P) (fun _ _ _ _ => True) (fun _ _ _ _ => True)
    (fun db _ => db.Consistent P) (fun t db _ => t.Knows P db) where
  own hnext _ hdb ht :=
    have hstep := Step.of_next hnext
    ⟨hstep.consistent hdb ht, hstep.knows ht⟩
  other hnext _ _ hlocks _ ht hu := (Step.of_next hnext).knows_other hlocks ht hu

/-- A process without the action, and no calls. -/
def fresh (n : ℕ) (process : ProcessStatus) : Pool n Database Stage ActionEvent where
  store := { process := process }
  calls := fun _ => .idle
  log := []

/-- The invariant of the pool at the start. -/
lemma fresh_holds {I : Database → List ActionEvent → Prop}
    {K : Stage → Database → List ActionEvent → Prop} (n : ℕ) (process : ProcessStatus)
    (hI : I { process := process } []) (hK : K .idle { process := process } []) :
    Joint.Holds (calls P) I K (fresh n process) :=
  ⟨fun _ _ _ h => absurd h List.not_mem_nil, hI, fun _ => hK⟩

lemma consistent_fresh (process : ProcessStatus) :
    Database.Consistent P { process := process } :=
  ⟨fun _ => ⟨rfl, rfl, rfl, fun _ => rfl⟩, fun h => absurd rfl h,
    fun _ h => absurd h (Option.some_ne_none _).symm, fun _ h => absurd rfl h⟩

variable {P}

/-- **Every run** keeps the rows consistent and what the calls know true. -/
theorem sound_runs {n : ℕ} {process : ProcessStatus} {s : Pool n Database Stage ActionEvent}
    {G : Pool n Database Stage ActionEvent → Fin n × CallInput → Prop}
    {ms : List (Fin n × CallInput)}
    (h : Runs (calls P) G (fresh n process) ms s) :
    Joint.Holds (calls P) (fun db _ => db.Consistent P) (fun t db _ => t.Knows P db) s :=
  (sound P).runs (fun _ _ _ _ => trivial) (fun _ _ _ _ _ _ => trivial) h
    (fresh_holds P n process (consistent_fresh P process) trivial)

end

/-! ### Sample runs -/

/-- A platform with one adapter, whose hash functions are injective. -/
def samplePlatform (idempotent : Bool) : Platform where
  tenantId := "tenant"
  processInstanceId := "process"
  actionRequestId := "action"
  sha256 := fun text => text
  actionPayloadIdentity := fun actionType parameters => actionType ++ parameters.text
  adapters := fun _ => some ⟨"crm", idempotent⟩

/-- The key of the sample action. -/
def sampleKey : String := "tenant:process:action:1:send[]"

/-- The sample action. -/
def sampleProposal (outcome : PermissionOutcome) : Proposal where
  action := ⟨"action", "send", "send", ⟨"[]", 0⟩, ""⟩
  outcome := outcome

/-- The answers a call is given. -/
def answers {n : ℕ} (i : Fin n) (xs : List Answer) : List (Fin n × CallInput) :=
  xs.map fun x => (i, .answer x)

/-- A call with the answers it is given. -/
def moves {n : ℕ} (i : Fin n) (c : Call) (xs : List Answer) : List (Fin n × CallInput) :=
  (i, .call c) :: answers i xs

/-- The gateway persists the sample action. -/
def persisted {n : ℕ} (i : Fin n) (outcome : PermissionOutcome) : List (Fin n × CallInput) :=
  moves i (.persist (sampleProposal outcome)) [.go, .check none]

/-- The answers that authorise an allowed action, and those after them. -/
def allowed (rest : List Answer) : List Answer :=
  .tenant .active :: .go :: .go :: .check none :: rest

/-- The answers that authorise an approved action, and those after them. -/
def approved (rest : List Answer) : List Answer :=
  .tenant .active :: .go :: .go :: .time 0 :: .go :: .check none :: rest

end TiramisuAgents
