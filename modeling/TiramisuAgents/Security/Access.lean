import TiramisuAgents.Security.Trail

/-!
Who is granted access, over every run of the control plane and of requests.

* `Explained`: what is said of an event by those before it.
* `Stage.Knows`: what a call knows of the rows and of the log; its locks keep it true.
* `access_decided`: a credential is told what the trail says of it when it is read, and an identity
  is granted only to a credential that was live then, or to the headers of development.
* `revocation_final`: a revocation is for ever.
* `control_trail`: identities and slugs are unique, and the recorded changes lead from the first
  status and deployment of a tenant to its own.
-/

namespace TiramisuAgents.Security

open Encodings Tables Transactions

section

variable {H : Type} [DecidableEq H]

/-! ### Entitlement -/

/-- The scope that an entry requires. -/
def Entry.scope : Entry → Option CredentialScope
  | .operator scope => scope
  | .eventIngress => some .eventsIngest

/-- An identity has passed the scope and the deployment of an entry. -/
structure Authorised (D : Deployment H) (log : List (AccessEvent H)) (entry : Entry)
    (identity : OperatorIdentity) : Prop where
  scope : ∀ scope, entry.scope = some scope →
    "*" ∈ identity.scopes ∨ scope.value ∈ identity.scopes
  deployment : ∀ deploymentId, D.release = some deploymentId →
    identity.tenantId ∈ D.tenantIds ∧ deploymentIn log identity.tenantId = some deploymentId

/-- Where the identity of a request comes from. -/
def Identified (D : Deployment H) (log : List (AccessEvent H)) (r : Request)
    (identity : OperatorIdentity) : Prop :=
  (∃ authorization presented now, r.authorization = some authorization ∧
    presentedCredential D.characters authorization = .ok presented ∧
    .checked presented now (.ok identity) ∈ log) ∨
  (r.authorization = none ∧ r.withoutBearer D = .ok identity)

/-- What is said of an event by those before it. -/
def Explained (D : Deployment H) (before : List (AccessEvent H)) : AccessEvent H → Prop
  | .revoked id _ _ => revocationIn before id = none
  | .checked presented now result => result = decideBearer D before presented now
  | .granted r identity => Identified D before r identity ∧ Authorised D before r.entry identity
  | _ => True

/-- The rows are those of the trail, and every event is explained. -/
structure Sound (D : Deployment H) (db : Database H) (log : List (AccessEvent H)) : Prop where
  reflects : Reflects db log
  explained : ∀ before o after, log = before ++ o :: after → Explained D before o

variable {D : Deployment H} {db db' : Database H} {log : List (AccessEvent H)} {o : AccessEvent H}

/-- An event that is explained is added. -/
lemma Sound.concat (h : Sound D db log) (hreflects : Reflects db' (log ++ [o]))
    (ho : Explained D log o) : Sound D db' (log ++ [o]) := by
  refine ⟨hreflects, fun before o' after hlog => ?_⟩
  rcases List.append_eq_append_iff.mp hlog with ⟨more, hbefore, hrest⟩ | ⟨more, hlog', hrest⟩
  · cases more with
    | nil =>
        rw [List.append_nil] at hbefore
        rw [List.nil_append] at hrest
        cases hrest
        rw [hbefore]
        exact ho
    | cons o'' more => simp at hrest
  · cases more with
    | nil =>
        rw [List.append_nil] at hlog'
        rw [List.nil_append] at hrest
        cases hrest
        rw [← hlog']
        exact ho
    | cons o'' more =>
        cases hrest
        exact h.explained before o' more hlog'

lemma requireScope_ok {identity : OperatorIdentity} {scope : CredentialScope}
    (h : identity.requireScope scope = .ok ()) :
    "*" ∈ identity.scopes ∨ scope.value ∈ identity.scopes := by
  rw [OperatorIdentity.requireScope] at h
  split_ifs at h with hscope
  rwa [not_and_or, not_not, not_not] at hscope

omit [DecidableEq H] in
lemma requireDeploymentAssignment_ok (hdb : Reflects db log) {identity : OperatorIdentity}
    (h : requireDeploymentAssignment D db identity = .ok ()) {deploymentId : String}
    (hrelease : D.release = some deploymentId) :
    identity.tenantId ∈ D.tenantIds ∧ deploymentIn log identity.tenantId = some deploymentId := by
  rw [requireDeploymentAssignment, hrelease] at h
  dsimp only at h
  split_ifs at h with hlisted hassigned
  rw [hdb.deployment] at hassigned
  exact ⟨hlisted, hassigned⟩

omit [DecidableEq H] in
lemma authorise_ok (hdb : Reflects db log) {entry : Entry} {identity : OperatorIdentity}
    (h : authorise D db entry identity = .ok ()) : Authorised D log entry identity := by
  cases entry with
  | eventIngress =>
      obtain ⟨hscope, hdeployment⟩ := check_bind_iff.mp h
      refine ⟨fun scope hs => ?_, fun _ => requireDeploymentAssignment_ok hdb hdeployment⟩
      cases hs
      exact requireScope_ok hscope
  | operator scope =>
      obtain ⟨hdeployment, hscope⟩ := check_bind_iff.mp h
      refine ⟨fun scope' hs => ?_, fun _ => requireDeploymentAssignment_ok hdb hdeployment⟩
      cases hs
      exact requireScope_ok hscope

omit [DecidableEq H] in
/-- What was explained stays. -/
lemma Identified.append {r : Request} {identity : OperatorIdentity}
    (h : Identified D log r identity) (more : List (AccessEvent H)) :
    Identified D (log ++ more) r identity :=
  h.imp_left fun ⟨authorization, presented, now, hheader, hread, hchecked⟩ =>
    ⟨authorization, presented, now, hheader, hread, List.mem_append_left _ hchecked⟩

/-! ### What calls know -/

/-- What a call knows of the rows and of the log. -/
def Stage.Knows (D : Deployment H) (db : Database H) (log : List (AccessEvent H)) :
    Stage H → Prop
  | .creating _ (.inserted tenant) =>
      (∀ t ∈ db.tenants, t.id ≠ tenant.id ∧ t.slug ≠ tenant.slug) ∧ tenant.status = .active ∧
        tenant.deploymentId = Tenancy.unassigned
  | .issuing c (.reading name roles) => ∃ now, c.check now = .ok (name, roles)
  | .issuing c (.inserting name roles) =>
      (∃ now, c.check now = .ok (name, roles)) ∧ (db.tenant c.tenantId).isSome
  | .issuing _ (.inserted _ credential) =>
      db.credential credential.id = none ∧ credential.Issued ∧
        (db.tenant credential.tenantId).isSome
  | .revoking _ (.held credential) => db.credential credential.id = some credential
  | .revoking _ (.marked credential _) =>
      db.credential credential.id = some credential ∧ credential.status = .active
  | .switching _ (.held _ tenant) => db.tenant tenant.id = some tenant
  | .assigning _ (.held target _ tenant) | .assigning _ (.counted target _ tenant)
  | .assigning _ (.cleared target _ tenant) =>
      db.tenant tenant.id = some tenant ∧ tenant.deploymentId ≠ target
  | .requesting r (.presenting presented) => ∃ authorization, r.authorization = some authorization ∧
      presentedCredential D.characters authorization = .ok presented
  | .requesting r (.identified identity) => Identified D log r identity
  | .ended (.revoked id revokedAt) => ∃ actorId, revocationIn log id = some (revokedAt, actorId)
  | _ => True

lemma Stage.knows_of_plain {t : Stage H} (h : t.plain = true) : t.Knows D db log := by
  cases t with
  | ended o => cases o <;> trivial
  | creating c k => cases k <;> trivial
  | issuing c k => cases k <;> trivial
  | revoking c k => cases k <;> trivial
  | switching c k => cases k <;> trivial
  | assigning c k => cases k <;> trivial
  | requesting r k => cases k <;> trivial
  | _ => trivial

omit [DecidableEq H] in
/-- What `issue` stores has the form that it has checked. -/
lemma IssueInput.issued {c : IssueInput} {now : Time} {name : String} {roles : List String}
    (h : c.check now = .ok (name, roles)) (issued : IssuedCredential H) :
    (c.row name roles issued).Issued := by
  rw [IssueInput.check] at h
  obtain ⟨-, h⟩ := check_bind_iff.mp h
  obtain ⟨-, h⟩ := check_bind_iff.mp h
  obtain ⟨-, h⟩ := check_bind_iff.mp h
  obtain ⟨-, h⟩ := check_bind_iff.mp h
  obtain ⟨hroles, h⟩ := check_bind_iff.mp h
  obtain ⟨-, h⟩ := check_bind_iff.mp h
  cases h
  exact ⟨⟨c.scopes, rfl⟩, requireThat_eq_ok hroles, rfl⟩

variable {t u t' : Stage H} {x : CallInput} {obs : List (AccessEvent H)}

/-- A statement keeps the rows and the trail together. -/
lemma Step.sound (h : Step D t x db t' db' obs) (hdb : Sound D db log)
    (ht : t.Knows D db log) : Sound D db' (log ++ obs) := by
  have hsame : Sound D db (log ++ []) := by
    rw [List.append_nil]
    exact hdb
  cases h with
  | create c tenant =>
      obtain ⟨hfree, hstatus, hdeployment⟩ := ht
      exact hdb.concat (hdb.reflects.created hfree hstatus hdeployment) trivial
  | issue c issued credential =>
      obtain ⟨hfree, hissued, howner⟩ := ht
      exact hdb.concat (hdb.reflects.issue hfree hissued howner) trivial
  | revoke c credential revokedAt =>
      obtain ⟨hfound, hactive⟩ := ht
      obtain ⟨hnone, hreflects⟩ := hdb.reflects.revoke hfound hactive revokedAt c.actorId
      exact hdb.concat hreflects hnone
  | switch c reason tenant hchanged =>
      exact hdb.concat (hdb.reflects.switch (e := ⟨_, _, _, _, _⟩) ht rfl rfl hchanged.symm) trivial
  | move c target reason tenant =>
      obtain ⟨hfound, hchanged⟩ := ht
      refine hdb.concat ?_ trivial
      exact hdb.reflects.move (e := ⟨_, _, _, _, _⟩) hfound rfl rfl hchanged.symm
  | refuse r presented now error hchecked =>
      refine hdb.concat (hdb.reflects.quiet rfl) ?_
      exact hchecked.symm.trans (hdb.reflects.checkBearer_eq D presented now)
  | accept r presented now identity hchecked =>
      refine hdb.concat (hdb.reflects.quiet rfl) ?_
      exact hchecked.symm.trans (hdb.reflects.checkBearer_eq D presented now)
  | grant r identity hauthorised =>
      exact hdb.concat (hdb.reflects.quiet rfl) ⟨ht, authorise_ok hdb.reflects hauthorised⟩
  | _ => exact hsame

/-- What a call knows after its own statement. -/
lemma Step.knows (h : Step D t x db t' db' obs) (hdb : Sound D db log)
    (ht : t.Knows D db log) : t'.Knows D db' (log ++ obs) := by
  cases h with
  | pass hplain => exact Stage.knows_of_plain hplain
  | insertTenant c id slug name hfree => exact ⟨hfree, rfl, rfl⟩
  | checkIssue c now name roles hchecked => exact ⟨now, hchecked⟩
  | admitIssue c name roles tenant hfound => exact ⟨ht, Option.isSome_iff_exists.mpr ⟨_, hfound⟩⟩
  | insertCredential c name roles id entropy hfree =>
      obtain ⟨⟨now, hchecked⟩, howner⟩ := ht
      exact ⟨hfree, IssueInput.issued hchecked _, howner⟩
  | holdCredential c credential hfound =>
      rw [← (lookup_mem hfound).2] at hfound
      exact hfound
  | repeatRevoke c credential now revokedAt hrevoked =>
      obtain ⟨actorId, hrevocation⟩ := hdb.reflects.revocation_of_row ht hrevoked
      exact ⟨actorId, revocationIn_append hrevocation _⟩
  | mark c credential now hactive => exact ⟨ht, hactive⟩
  | revoke c credential revokedAt =>
      obtain ⟨hnone, -⟩ := hdb.reflects.revoke ht.1 ht.2 revokedAt c.actorId
      refine ⟨c.actorId, ?_⟩
      rw [revocationIn_concat, hnone, Option.none_or, AccessEvent.revokes, if_pos rfl]
  | holdTenant c reason tenant hfound =>
      rw [← (lookup_mem hfound).2] at hfound
      exact hfound
  | holdAssign c target reason tenant k hfound hchanged hheld =>
      rw [← (lookup_mem hfound).2] at hfound
      rcases hheld with rfl | rfl
      · exact ⟨hfound, hchanged⟩
      · exact ⟨hfound, hchanged⟩
  | countAssign => exact ht
  | clearAssign => exact ht
  | present r authorization presented hheader hread => exact ⟨authorization, hheader, hread⟩
  | identify r identity hheader hread => exact .inr ⟨hheader, hread⟩
  | accept r presented now identity hchecked =>
      obtain ⟨authorization, hheader, hread⟩ := ht
      exact .inl ⟨authorization, presented, now, hheader, hread,
        List.mem_append_right _ (List.mem_singleton_self _)⟩
  | _ => trivial

/-- What a call knows after the statement of another that holds none of its locks. -/
lemma Step.knows_other (h : Step D t x db t' db' obs) (hlocks : ∀ l ∈ u.locks, l ∉ t.locks)
    (hu : u.Knows D db log) : u.Knows D db' (log ++ obs) := by
  cases u with
  | ended o =>
      cases o with
      | revoked id revokedAt =>
          obtain ⟨actorId, hrevocation⟩ := hu
          exact ⟨actorId, revocationIn_append hrevocation _⟩
      | _ => trivial
  | creating c k =>
      cases k with
      | inserted tenant =>
          obtain ⟨hfree, hstatus, hdeployment⟩ := hu
          exact ⟨h.tenants_free hfree (hlocks _ List.mem_cons_self)
            (hlocks _ (List.mem_cons_of_mem _ (List.mem_singleton_self _))), hstatus, hdeployment⟩
      | _ => trivial
  | issuing c k =>
      cases k with
      | opening => trivial
      | reading name roles => exact hu
      | inserting name roles => exact ⟨hu.1, h.tenant_isSome hu.2⟩
      | inserted issued credential =>
          obtain ⟨hfree, hissued, howner⟩ := hu
          exact ⟨h.credential_free hfree (hlocks _ (List.mem_singleton_self _)), hissued,
            h.tenant_isSome howner⟩
  | revoking c k =>
      cases k with
      | opening => trivial
      | held credential => exact h.credential_kept hu (hlocks _ (List.mem_singleton_self _))
      | marked credential revokedAt =>
          exact ⟨h.credential_kept hu.1 (hlocks _ (List.mem_singleton_self _)), hu.2⟩
  | switching c k =>
      cases k with
      | opening => trivial
      | held reason tenant => exact h.tenant_kept hu (hlocks _ (List.mem_singleton_self _))
  | assigning c k =>
      have hlock : ∀ tenant : TenantRow,
          AccessLock.tenant tenant.id ∈ [.deployment c.tenantId, .tenant tenant.id] := fun _ =>
        List.mem_cons_of_mem _ (List.mem_singleton_self _)
      cases k with
      | opening => trivial
      | locked target reason => trivial
      | held target reason tenant => exact ⟨h.tenant_kept hu.1 (hlocks _ (hlock tenant)), hu.2⟩
      | counted target reason tenant => exact ⟨h.tenant_kept hu.1 (hlocks _ (hlock tenant)), hu.2⟩
      | cleared target reason tenant => exact ⟨h.tenant_kept hu.1 (hlocks _ (hlock tenant)), hu.2⟩
  | requesting r k =>
      cases k with
      | opening => trivial
      | presenting presented => exact hu
      | identified identity => exact hu.append obs
  | _ => trivial

/-! ### Runs -/

/-- No rows, and no call. -/
def freshAccess (n : ℕ) : Pool n (Database H) (Stage H) (AccessEvent H) :=
  { store := {}, calls := fun _ => .idle, log := [] }

/-- The rule for every run. -/
lemma accessJoint : Joint (accessCalls D) (fun _ _ _ _ => True) (fun _ _ _ _ => True) (Sound D)
    (fun t db log => t.Knows D db log) where
  own hnext _ hdb ht := ⟨(Step.of_next hnext).sound hdb ht, (Step.of_next hnext).knows hdb ht⟩
  other hnext _ _ hlocks _ _ hu := (Step.of_next hnext).knows_other hlocks hu

lemma freshAccess_holds (n : ℕ) :
    Joint.Holds (accessCalls D) (Sound D) (fun t db log => t.Knows D db log) (freshAccess n) := by
  refine ⟨?_, ⟨?_, ?_⟩, fun _ => trivial⟩
  · intro i j l hi
    cases hi
  · exact .empty
  · intro before o after hlog
    simp [freshAccess] at hlog

lemma access_runs {n : ℕ} {s s' : Pool n (Database H) (Stage H) (AccessEvent H)}
    {ms : List (Fin n × CallInput)}
    (h : Runs (accessCalls D) (fun _ _ => True) s ms s')
    (hs : Joint.Holds (accessCalls D) (Sound D) (fun t db log => t.Knows D db log) s) :
    Joint.Holds (accessCalls D) (Sound D) (fun t db log => t.Knows D db log) s' :=
  accessJoint.runs (fun _ _ _ _ => trivial) (fun _ _ _ _ _ _ => trivial) h hs

end

/-! ### A run -/

/-- A tenant. -/
def sampleTenantId : Uuid := ⟨7, by decide⟩

/-- An actor. -/
def sampleActorId : Uuid := ⟨8, by decide⟩

/-- A credential. -/
def sampleCredentialId : Uuid := ⟨9, by decide⟩

/-- The bytes of its secret. -/
def sampleEntropy : Entropy := ⟨List.replicate 32 1, rfl⟩

/-- An API of one tenant, in production; the hash of a secret is the secret. -/
def sampleDeployment : Deployment PyString where
  characters := ⟨fun _ => false, fun _ => none⟩
  sha256 := id
  dummySecretHash := codePoints "0"
  settings := ⟨.production, false, fun _ => rfl⟩
  release := some "north"
  tenantIds := [sampleTenantId]
  exempt := false

/-- A request of a reader, with the token of the credential. -/
def sampleRequest : Request where
  entry := requireProcessReader
  authorization := some (codePoints "Bearer " ++ (issueCredential sampleDeployment.sha256
    sampleTenantId sampleActorId sampleCredentialId sampleEntropy).token)
  tenantHeader := none
  actorHeader := none

/-- Answers to a call. -/
def told {n : ℕ} (i : Fin n) (c : Call) (xs : List Answer) : List (Fin n × CallInput) :=
  (i, .call c) :: xs.map fun x => (i, .answer x)

/-- A tenant is created and assigned, a credential is issued, and a request is granted with it. -/
def grantedReader {n : ℕ} (i j : Fin n) : List (Fin n × CallInput) :=
  List.flatten
    [told i (.create ⟨"acme", "Acme", some sampleTenantId⟩)
        [.identity sampleTenantId, .go, .go, .go],
      told i (.assign ⟨sampleTenantId, sampleActorId, "north", "New customer."⟩) [.go, .go, .go],
      told i (.issue ⟨sampleTenantId, sampleActorId, "Reader", [.processesRead], [], none⟩)
        [.time 0, .go, .credential sampleCredentialId sampleEntropy, .go],
      told j (.request sampleRequest) [.go, .time 5, .go]]

/-- The credential is revoked. -/
def revokedReader {n : ℕ} (i : Fin n) : List (Fin n × CallInput) :=
  told i (.revoke ⟨sampleTenantId, sampleCredentialId, sampleActorId⟩) [.go, .time 6, .go]

/-- An event that grants an identity for a token. -/
def AccessEvent.grantsBearer {H : Type} : AccessEvent H → Bool
  | .granted r _ => r.authorization.isSome
  | _ => false

/-! ### What is granted -/

section

variable {H : Type} [DecidableEq H] {D : Deployment H} {log : List (AccessEvent H)}

omit [DecidableEq H] in
/-- The headers of development are read in development. -/
lemma withoutBearer_ok {r : Request} {identity : OperatorIdentity}
    (h : r.withoutBearer D = .ok identity) : D.settings.environment = .development := by
  have hunsafe : D.settings.unsafeHeaders = true := by
    by_contra hne
    rw [Request.withoutBearer] at h
    cases hentry : r.entry with
    | operator scope =>
        rw [hentry] at h
        dsimp only at h
        rw [if_neg hne] at h
        split_ifs at h
    | eventIngress =>
        rw [hentry] at h
        dsimp only at h
        rw [if_neg hne] at h
        split_ifs at h
  rw [Settings.unsafeHeaders, Bool.and_eq_true] at hunsafe
  exact of_decide_eq_true hunsafe.1

omit [DecidableEq H] in
/-- A scope of the list is no wildcard, and neither is a role of the pattern. -/
lemma CredentialRow.Issued.no_wildcard {c : CredentialRow H} (h : c.Issued) :
    "*" ∉ c.scopes ∧ "*" ∉ c.roles := by
  obtain ⟨⟨scopes, hscopes⟩, hroles, -⟩ := h
  constructor
  · rw [hscopes, List.mem_map]
    rintro ⟨scope, -, hscope⟩
    cases scope <;> exact absurd hscope (by decide)
  · intro hmem
    exact absurd (List.all_eq_true.mp hroles _ hmem) (by decide)

/-- What a credential has that is accepted. -/
lemma decideBearer_ok {presented : ParsedCredential} {now : Time} {identity : OperatorIdentity}
    (h : decideBearer D log presented now = .ok identity) :
    ∃ c, issuedIn log presented.credentialId = some c ∧ c.tenantId = presented.tenantId ∧
      D.sha256 presented.secret = c.secretHash ∧ revocationIn log c.id = none ∧
      (∀ expiresAt, c.expiresAt = some expiresAt → now < expiresAt) ∧
      statusIn log c.tenantId = some .active ∧ identity = c.identity := by
  rw [decideBearer] at h
  cases hissued : issuedIn log presented.credentialId with
  | none =>
      rw [hissued] at h
      cases h
  | some c =>
      rw [hissued] at h
      dsimp only at h
      split_ifs at h with hsecret hrevoked hexpired hstatus
      cases h
      rw [not_or, not_not, not_not] at hsecret
      refine ⟨c, rfl, hsecret.1, hsecret.2, Option.not_isSome_iff_eq_none.mp hrevoked, ?_,
        not_not.mp hstatus, rfl⟩
      intro expiresAt hexpires
      rw [hexpires, Option.any_some, decide_eq_true_eq, not_le] at hexpired
      exact hexpired

/-- **Access is decided by the trail.**  In every run of control-plane calls and requests, however
they interleave: what a request is told of its credential is what the trail says when it is read.
An identity that is granted to a request with a bearer token is that of a credential that had been
issued with the hash of the presented secret, and when it was read the credential had not been
revoked and had not expired, and its tenant was active; its scopes have the scope of the entry, and
an API with a release has the tenant on its list and assigned when the identity is granted.  Without
a token an identity is granted only in development. -/
theorem access_decided (D : Deployment H) {n : ℕ}
    {s : Pool n (Database H) (Stage H) (AccessEvent H)} {ms : List (Fin n × CallInput)}
    (h : Runs (accessCalls D) (fun _ _ => True) (freshAccess n) ms s) :
    (∀ before presented now result after,
      s.log = before ++ .checked presented now result :: after →
        result = decideBearer D before presented now) ∧
    (∀ before r identity after authorization,
      s.log = before ++ .granted r identity :: after → r.authorization = some authorization →
        ∃ presented c now read later,
          presentedCredential D.characters authorization = .ok presented ∧
          before = read ++ .checked presented now (.ok identity) :: later ∧
          issuedIn read presented.credentialId = some c ∧ c.tenantId = presented.tenantId ∧
          D.sha256 presented.secret = c.secretHash ∧ revocationIn read c.id = none ∧
          (∀ expiresAt, c.expiresAt = some expiresAt → now < expiresAt) ∧
          statusIn read c.tenantId = some .active ∧
          identity = c.identity ∧ "*" ∉ identity.roles ∧
          (∀ scope, r.entry.scope = some scope → scope.value ∈ identity.scopes) ∧
          ∀ deploymentId, D.release = some deploymentId →
            identity.tenantId ∈ D.tenantIds ∧
              deploymentIn before identity.tenantId = some deploymentId) ∧
    ∀ before r identity after, s.log = before ++ .granted r identity :: after →
      r.authorization = none → D.settings.environment = .development := by
  have hsound : Sound D s.store s.log := (access_runs h (freshAccess_holds n)).common
  refine ⟨fun before presented now result after hlog => hsound.explained before _ after hlog,
    fun before r identity after authorization hlog hheader => ?_,
    fun before r identity after hlog hheader => ?_⟩
  · obtain ⟨hidentified, hauthorised⟩ := hsound.explained before _ after hlog
    obtain ⟨authorization', presented, now, hheader', hread, hchecked⟩ | ⟨hnone, -⟩ := hidentified
    · cases hheader.symm.trans hheader'
      obtain ⟨read, later, hbefore⟩ := List.append_of_mem hchecked
      have hexplained := hsound.explained read (.checked presented now (.ok identity))
        (later ++ .granted r identity :: after) (by rw [hlog, hbefore, List.append_assoc]; rfl)
      obtain ⟨c, hissued, htenant, hsecret, hrevoked, hexpired, hstatus, hidentity⟩ :=
        decideBearer_ok hexplained.symm
      have hmem : .issued c ∈ s.log := by
        rw [hlog, hbefore]
        exact List.mem_append_left _ (List.mem_append_left _ (issuedIn_mem hissued).1)
      obtain ⟨hscopes, hroles⟩ := (hsound.reflects.issued c hmem).1.no_wildcard
      refine ⟨presented, c, now, read, later, hread, hbefore, hissued, htenant, hsecret, hrevoked,
        hexpired, hstatus, hidentity, ?_, fun scope hscope => ?_, hauthorised.deployment⟩
      · rw [hidentity]
        exact fun hmem => hroles (List.mem_toFinset.mp hmem)
      · refine (hauthorised.scope scope hscope).resolve_left fun hmem => hscopes ?_
        rw [hidentity] at hmem
        exact List.mem_toFinset.mp hmem
    · rw [hheader] at hnone
      cases hnone
  · obtain ⟨hidentified, -⟩ := hsound.explained before _ after hlog
    obtain ⟨authorization, presented, now, hheader', -⟩ | ⟨-, hread⟩ := hidentified
    · rw [hheader] at hheader'
      cases hheader'
    · exact withoutBearer_ok hread

/-- A reader is granted access with its token. -/
theorem access_decided_reader :
    ∃ (s : Pool 2 (Database PyString) (Stage PyString) (AccessEvent PyString))
      (before after : List (AccessEvent PyString)) (r : Request) (identity : OperatorIdentity)
      (authorization : PyString),
    Runs (accessCalls sampleDeployment) (fun _ _ => True) (freshAccess 2) (grantedReader 0 1) s ∧
    s.log = before ++ .granted r identity :: after ∧ r.authorization = some authorization ∧
    ∃ presented c now read later,
      presentedCredential sampleDeployment.characters authorization = .ok presented ∧
      before = read ++ .checked presented now (.ok identity) :: later ∧
      issuedIn read presented.credentialId = some c ∧ identity = c.identity := by
  obtain ⟨s, hruns, hp⟩ := exists_runs (C := accessCalls sampleDeployment) (s := freshAccess 2)
    (fun _ _ => true) (grantedReader 0 1) (fun s => s.log.any AccessEvent.grantsBearer)
    (by decide +kernel)
  have h := hruns.mono (H := fun _ _ => True) fun _ _ _ => trivial
  obtain ⟨o, ho, hgrants⟩ := List.any_eq_true.mp hp
  obtain ⟨before, after, hlog⟩ := List.append_of_mem ho
  cases o with
  | granted r identity =>
      obtain ⟨authorization, hheader⟩ := Option.isSome_iff_exists.mp hgrants
      obtain ⟨presented, c, now, read, later, hread, hbefore, hissued, -, -, -, -, -, hidentity,
          -⟩ :=
        (access_decided sampleDeployment h).2.1 before r identity after authorization hlog hheader
      exact ⟨s, before, after, r, identity, authorization, h, hlog, hheader, presented, c, now,
        read, later, hread, hbefore, hissued, hidentity⟩
  | _ => cases hgrants

/-- **A revocation is for ever.**  Once `revoke` has returned for a credential, in every run that
goes on from there: its row stays revoked, with the time that was returned; every later `revoke`
returns the same time and none revokes it again; and no request whose credential is read from then
on is accepted with it.  (A request that was read before may still be granted.) -/
theorem revocation_final (D : Deployment H) {n : ℕ}
    {s s' : Pool n (Database H) (Stage H) (AccessEvent H)} {ms ms' : List (Fin n × CallInput)}
    (h : Runs (accessCalls D) (fun _ _ => True) (freshAccess n) ms s) {i : Fin n} {id : Uuid}
    {revokedAt : Time} (hrevoked : s.calls i = .ended (.revoked id revokedAt))
    (h' : Runs (accessCalls D) (fun _ _ => True) s ms' s') :
    (∃ row actorId, s'.store.credential id = some row ∧ row.status = .revoked ∧
      row.revokedAt = some revokedAt ∧ row.revokedByActorId = some actorId ∧
      .revoked id revokedAt actorId ∈ s.log) ∧
    (∀ j revokedAt', s'.calls j = .ended (.revoked id revokedAt') → revokedAt' = revokedAt) ∧
    ∃ more, s'.log = s.log ++ more ∧ (∀ revokedAt' actorId, .revoked id revokedAt' actorId ∉ more) ∧
      ∀ presented now result, .checked presented now result ∈ more → presented.credentialId = id →
        ∃ error, result = .error error := by
  have hs := access_runs h (freshAccess_holds n)
  have hs' := access_runs h' hs
  have hknows := hs.calls i
  rw [hrevoked] at hknows
  obtain ⟨actorId, hrevocation⟩ := hknows
  obtain ⟨more, hlog, -⟩ := h'.appended (I := fun _ => True) (fun _ => True)
    (fun s₁ m s₂ _ _ hstep => by
      obtain ⟨t, store, obs, -, -, rfl⟩ := step_eq_some hstep
      exact ⟨trivial, obs, rfl, fun _ _ => trivial⟩) trivial
  have hstays : revocationIn s'.log id = some (revokedAt, actorId) := by
    rw [hlog]
    exact revocationIn_append hrevocation more
  have hsplit : ∀ o ∈ more, ∃ before, Explained D before o ∧
      revocationIn before id = some (revokedAt, actorId) := by
    intro o ho
    obtain ⟨between, after, rfl⟩ := List.append_of_mem ho
    exact ⟨s.log ++ between, hs'.common.explained _ o after (by rw [hlog, List.append_assoc]),
      revocationIn_append hrevocation between⟩
  refine ⟨?_, fun j revokedAt' hj => ?_, more, hlog, fun revokedAt' actorId' hmem => ?_,
    fun presented now result hmem hid => ?_⟩
  · obtain ⟨c, hissued⟩ := Option.isSome_iff_exists.mp
      (hs'.common.reflects.revoked id (by rw [hstays]; rfl))
    have hrow := hs'.common.reflects.credential id
    rw [hissued, hstays, Option.map_some] at hrow
    exact ⟨_, actorId, hrow, rfl, rfl, rfl, revocationIn_mem hrevocation⟩
  · have hagain := hs'.calls j
    rw [hj] at hagain
    obtain ⟨actorId', hagain⟩ := hagain
    cases hagain.symm.trans hstays
    rfl
  · obtain ⟨before, hexplained, hbefore⟩ := hsplit _ hmem
    cases hexplained.symm.trans hbefore
  · obtain ⟨before, hexplained, hbefore⟩ := hsplit _ hmem
    cases result with
    | error error => exact ⟨error, rfl⟩
    | ok identity =>
        obtain ⟨c, hissued, -, -, hnone, -⟩ := decideBearer_ok hexplained.symm
        rw [(issuedIn_mem hissued).2, hid] at hnone
        cases hnone.symm.trans hbefore

/-- After the revocation the reader is refused. -/
theorem revocation_final_reader :
    ∃ (s s' : Pool 2 (Database PyString) (Stage PyString) (AccessEvent PyString))
      (more : List (AccessEvent PyString)),
    Runs (accessCalls sampleDeployment) (fun _ _ => True) (freshAccess 2)
      (grantedReader 0 1 ++ revokedReader 0) s ∧
    Runs (accessCalls sampleDeployment) (fun _ _ => True) s
      (told 1 (.request sampleRequest) [.go, .time 7]) s' ∧
    s'.log = s.log ++ more ∧ s'.log.length = s.log.length + 1 ∧
    ∀ presented now result, .checked presented now result ∈ more →
      presented.credentialId = sampleCredentialId → ∃ error, result = .error error := by
  obtain ⟨s, hruns, hp⟩ := exists_runs (C := accessCalls sampleDeployment) (s := freshAccess 2)
    (fun _ _ => true) (grantedReader 0 1 ++ revokedReader 0)
    (fun s => s.calls 0 = .ended (.revoked sampleCredentialId 6) &&
      (s.run (accessCalls sampleDeployment) (fun _ _ => true)
        (told 1 (.request sampleRequest) [.go, .time 7])).any
          fun s' => s'.log.length = s.log.length + 1)
    (by decide +kernel)
  rw [Bool.and_eq_true] at hp
  obtain ⟨s', hruns', hlength⟩ := exists_runs _ _ _ hp.2
  have h := hruns.mono (H := fun _ _ => True) fun _ _ _ => trivial
  have h' := hruns'.mono (H := fun _ _ => True) fun _ _ _ => trivial
  obtain ⟨-, -, more, hlog, -, hrefused⟩ :=
    revocation_final sampleDeployment h (of_decide_eq_true hp.1) h'
  exact ⟨s, s', more, h, h', hlog, of_decide_eq_true hlength, hrefused⟩

/-- **The recorded changes lead to the rows.**  In every run no two tenants have the same identity
or the same slug, and for every tenant the safety transitions and the assignments that are recorded,
each from the value before it to another one, lead from `active` and `unassigned` to its status and
its deployment. -/
theorem control_trail (D : Deployment H) {n : ℕ}
    {s : Pool n (Database H) (Stage H) (AccessEvent H)} {ms : List (Fin n × CallInput)}
    (h : Runs (accessCalls D) (fun _ _ => True) (freshAccess n) ms s) :
    (s.store.tenants.map TenantRow.id).Nodup ∧ (s.store.tenants.map TenantRow.slug).Nodup ∧
    ∀ t ∈ s.store.tenants,
      Leads .active (s.store.safetyChanges t.id) t.status ∧
      Leads Tenancy.unassigned (s.store.deploymentChanges t.id) t.deploymentId ∧
      statusIn s.log t.id = some t.status ∧ deploymentIn s.log t.id = some t.deploymentId := by
  have hdb : Reflects s.store s.log := (access_runs h (freshAccess_holds n)).common.reflects
  refine ⟨hdb.tenants, hdb.slugs, fun t ht => ?_⟩
  have hfound : s.store.tenant t.id = some t := hdb.tenants.lookup_eq_some.mpr ⟨ht, rfl⟩
  exact ⟨hdb.safety _ t hfound, hdb.moves _ t hfound, by rw [← hdb.status, hfound]; rfl,
    by rw [← hdb.deployment, hfound]; rfl⟩

/-- The trail of the reader's tenant. -/
theorem control_trail_reader :
    ∃ (s : Pool 2 (Database PyString) (Stage PyString) (AccessEvent PyString)),
    Runs (accessCalls sampleDeployment) (fun _ _ => True) (freshAccess 2) (grantedReader 0 1) s ∧
    (s.store.tenants.map TenantRow.slug).Nodup ∧
    ∃ t ∈ s.store.tenants, t.deploymentId = "north" ∧
      Leads Tenancy.unassigned (s.store.deploymentChanges t.id) t.deploymentId := by
  obtain ⟨s, hruns, hp⟩ := exists_runs (C := accessCalls sampleDeployment) (s := freshAccess 2)
    (fun _ _ => true) (grantedReader 0 1)
    (fun s => s.store.tenants.any fun t => t.deploymentId = "north") (by decide +kernel)
  have h := hruns.mono (H := fun _ _ => True) fun _ _ _ => trivial
  obtain ⟨t, ht, hnorth⟩ := List.any_eq_true.mp hp
  obtain ⟨-, hslugs, hleads⟩ := control_trail sampleDeployment h
  exact ⟨s, h, hslugs, t, ht, of_decide_eq_true hnorth, (hleads t ht).2.1⟩

end

end TiramisuAgents.Security
