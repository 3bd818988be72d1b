import TiramisuAgents.Security.Calls

/-!
What one statement of the control plane, or of a request, does.

* `Stage.plain`: the stages that know nothing of the rows.
* `Step`, `Step.of_next`: the kinds of statements, with what they have checked.
* `Step.tenant_kept`, `Step.credential_kept`, `Step.tenants_free`, `Step.credential_free`: what a
  statement leaves as it is if its call does not hold the lock.
-/

namespace TiramisuAgents.Security

open Tables

section

variable {H : Type} [DecidableEq H]

/-- A stage that knows nothing of the rows, nor of what was observed. -/
def Stage.plain : Stage H → Bool
  | .idle | .ensuring => true
  | .ended o =>
      match o with
      | .revoked _ _ => false
      | _ => true
  | .creating _ k =>
      match k with
      | .inserted _ => false
      | _ => true
  | .issuing _ k => k = .opening
  | .revoking _ k => k = .opening
  | .switching _ k => k = .opening
  | .assigning _ k =>
      match k with
      | .opening | .locked _ _ => true
      | _ => false
  | .requesting _ k => k = .opening

/-- A step of a call. -/
inductive Step (D : Deployment H) : Stage H → CallInput → Database H → Stage H → Database H →
    List (AccessEvent H) → Prop
  | pass {t t' : Stage H} {x : CallInput} {db : Database H} (plain : t'.plain = true) :
      Step D t x db t' db []
  | insertTenant {db : Database H} (c : CreateInput) (id : Uuid) (slug name : String)
      (free : ∀ t ∈ db.tenants, t.id ≠ id ∧ t.slug ≠ slug) :
      Step D (.creating c (.inserting id slug name)) (.answer .go) db
        (.creating c (.inserted { id := id, slug := slug, name := name })) db []
  | create {db : Database H} (c : CreateInput) (tenant : TenantRow) :
      Step D (.creating c (.inserted tenant)) (.answer .go) db (.ended (.provisioned tenant true))
        { db with tenants := db.tenants ++ [tenant] } [.created tenant]
  | checkIssue {db : Database H} (c : IssueInput) (now : Time) (name : String) (roles : List String)
      (checked : c.check now = .ok (name, roles)) :
      Step D (.issuing c .opening) (.answer (.time now)) db (.issuing c (.reading name roles)) db []
  | admitIssue {db : Database H} (c : IssueInput) (name : String) (roles : List String)
      (tenant : TenantRow) (found : db.tenant c.tenantId = some tenant) :
      Step D (.issuing c (.reading name roles)) (.answer .go) db
        (.issuing c (.inserting name roles)) db []
  | insertCredential {db : Database H} (c : IssueInput) (name : String) (roles : List String)
      (id : Uuid) (entropy : Entropy) (free : db.credential id = none) :
      Step D (.issuing c (.inserting name roles)) (.answer (.credential id entropy)) db
        (.issuing c (.inserted (issueCredential D.sha256 c.tenantId c.actorId id entropy)
          (c.row name roles (issueCredential D.sha256 c.tenantId c.actorId id entropy)))) db []
  | issue {db : Database H} (c : IssueInput) (issued : IssuedCredential H)
      (credential : CredentialRow H) :
      Step D (.issuing c (.inserted issued credential)) (.answer .go) db (.ended (.issued issued))
        { db with credentials := db.credentials ++ [credential] } [.issued credential]
  | holdCredential {db : Database H} (c : RevokeInput) (credential : CredentialRow H)
      (found : db.credential c.credentialId = some credential)
      (seen : D.sees c.tenantId credential.tenantId = true) :
      Step D (.revoking c .opening) (.answer .go) db (.revoking c (.held credential)) db []
  | repeatRevoke {db : Database H} (c : RevokeInput) (credential : CredentialRow H)
      (now revokedAt : Time) (revoked : credential.revokedAt = some revokedAt) :
      Step D (.revoking c (.held credential)) (.answer (.time now)) db
        (.ended (.revoked credential.id revokedAt)) db []
  | mark {db : Database H} (c : RevokeInput) (credential : CredentialRow H) (now : Time)
      (active : credential.status = .active) :
      Step D (.revoking c (.held credential)) (.answer (.time now)) db
        (.revoking c (.marked credential now)) db []
  | revoke {db : Database H} (c : RevokeInput) (credential : CredentialRow H) (revokedAt : Time) :
      Step D (.revoking c (.marked credential revokedAt)) (.answer .go) db
        (.ended (.revoked credential.id revokedAt))
        { db with
          credentials := modify CredentialRow.id credential.id
            (fun r => r.revoke revokedAt c.actorId) db.credentials }
        [.revoked credential.id revokedAt c.actorId]
  | holdTenant {db : Database H} (c : SetStatusInput) (reason : String) (tenant : TenantRow)
      (found : db.tenant c.tenantId = some tenant) :
      Step D (.switching c .opening) (.answer .go) db (.switching c (.held reason tenant)) db []
  | switch {db : Database H} (c : SetStatusInput) (reason : String) (tenant : TenantRow)
      (changed : tenant.status ≠ c.newStatus) :
      Step D (.switching c (.held reason tenant)) (.answer .go) db
        (.ended (.switched tenant.status c.newStatus))
        { db with
          tenants := modify TenantRow.id tenant.id (fun t => { t with status := c.newStatus })
            db.tenants
          safetyEvents := db.safetyEvents ++
            [⟨tenant.id, c.actorId, tenant.status, c.newStatus, reason⟩] }
        [.switched ⟨tenant.id, c.actorId, tenant.status, c.newStatus, reason⟩]
  | holdAssign {db : Database H} (c : AssignInput) (target reason : String) (tenant : TenantRow)
      (k : Assigning) (found : db.tenant c.tenantId = some tenant)
      (changed : tenant.deploymentId ≠ target)
      (held : k = .held target reason tenant ∨ k = .cleared target reason tenant) :
      Step D (.assigning c (.locked target reason)) (.answer .go) db (.assigning c k) db []
  | countAssign {db : Database H} (c : AssignInput) (target reason : String) (tenant : TenantRow) :
      Step D (.assigning c (.held target reason tenant)) (.answer (.count 0)) db
        (.assigning c (.counted target reason tenant)) db []
  | clearAssign {db : Database H} (c : AssignInput) (target reason : String) (tenant : TenantRow) :
      Step D (.assigning c (.counted target reason tenant)) (.answer (.count 0)) db
        (.assigning c (.cleared target reason tenant)) db []
  | move {db : Database H} (c : AssignInput) (target reason : String) (tenant : TenantRow) :
      Step D (.assigning c (.cleared target reason tenant)) (.answer .go) db
        (.ended (.assigned tenant.deploymentId target true))
        { db with
          tenants := modify TenantRow.id tenant.id (fun t => { t with deploymentId := target })
            db.tenants
          deploymentEvents := db.deploymentEvents ++
            [⟨tenant.id, c.actorId, tenant.deploymentId, target, reason⟩] }
        [.moved ⟨tenant.id, c.actorId, tenant.deploymentId, target, reason⟩]
  | present {db : Database H} (r : Request) (authorization : PyString)
      (presented : ParsedCredential) (header : r.authorization = some authorization)
      (read : presentedCredential D.characters authorization = .ok presented) :
      Step D (.requesting r .opening) (.answer .go) db (.requesting r (.presenting presented)) db []
  | identify {db : Database H} (r : Request) (identity : OperatorIdentity)
      (header : r.authorization = none) (read : r.withoutBearer D = .ok identity) :
      Step D (.requesting r .opening) (.answer .go) db (.requesting r (.identified identity)) db []
  | refuse {db : Database H} (r : Request) (presented : ParsedCredential) (now : Time)
      (error : HttpError) (checked : checkBearer D db presented now = .error error) :
      Step D (.requesting r (.presenting presented)) (.answer (.time now)) db
        (.ended (.refused error)) db [.checked presented now (.error error)]
  | accept {db : Database H} (r : Request) (presented : ParsedCredential) (now : Time)
      (identity : OperatorIdentity) (checked : checkBearer D db presented now = .ok identity) :
      Step D (.requesting r (.presenting presented)) (.answer (.time now)) db
        (.requesting r (.identified identity)) db [.checked presented now (.ok identity)]
  | grant {db : Database H} (r : Request) (identity : OperatorIdentity)
      (authorised : authorise D db r.entry identity = .ok ()) :
      Step D (.requesting r (.identified identity)) (.answer .go) db (.ended (.granted identity)) db
        [.granted r identity]

namespace Step

variable {D : Deployment H} {t t' : Stage H} {x : CallInput} {db db' : Database H}
  {obs : List (AccessEvent H)}

lemma of_stop {o : Outcome H} (h : Stage.stop o db = some (t', db', obs))
    (ho : (Stage.ended o).plain = true) : Step D t x db t' db' obs := by
  cases h
  exact .pass ho

lemma of_keep {u : Stage H} (h : u.keep db = some (t', db', obs)) (hu : Step D t x db u db []) :
    Step D t x db t' db' obs := by
  cases h
  exact hu

lemma of_ensuring {y : Answer} (h : ensureStatement D y db = some (t', db', obs)) :
    Step D .ensuring (.answer y) db t' db' obs := by
  unfold ensureStatement at h
  split at h
  · split at h
    · split_ifs at h
      · exact of_stop h rfl
      · exact of_stop h rfl
    · exact of_keep h (.pass rfl)
  · cases h

lemma of_creating {c : CreateInput} {k : Creating} {y : Answer}
    (h : k.statement D c y db = some (t', db', obs)) :
    Step D (.creating c k) (.answer y) db t' db' obs := by
  unfold Creating.statement at h
  split at h
  · split at h
    · exact of_stop h rfl
    · exact of_keep h (.pass rfl)
  · split at h
    · exact of_stop h rfl
    · exact of_keep h (.pass rfl)
  · rename_i id slug name
    split_ifs at h with htaken
    · exact of_stop h rfl
    · refine of_keep h (.insertTenant c id slug name fun t ht => ?_)
      rw [Bool.not_eq_true, List.any_eq_false] at htaken
      simpa using htaken t ht
  · cases h
    exact .create c _
  · cases h

lemma of_issuing {c : IssueInput} {k : Issuing H} {y : Answer}
    (h : k.statement D c y db = some (t', db', obs)) :
    Step D (.issuing c k) (.answer y) db t' db' obs := by
  unfold Issuing.statement at h
  split at h
  · rename_i now
    split at h
    · exact of_stop h rfl
    · rename_i name roles hchecked
      exact of_keep h (.checkIssue c now name roles hchecked)
  · split at h
    · exact of_stop h rfl
    · rename_i tenant hfound
      exact of_keep h (.admitIssue c _ _ tenant hfound)
  · rename_i id entropy
    split_ifs at h with htaken
    · exact of_stop h rfl
    · exact of_keep h (.insertCredential c _ _ id entropy (Option.not_isSome_iff_eq_none.mp htaken))
  · cases h
    exact .issue c _ _
  · cases h

lemma of_revoking {c : RevokeInput} {k : Revoking H} {y : Answer}
    (h : k.statement D c y db = some (t', db', obs)) :
    Step D (.revoking c k) (.answer y) db t' db' obs := by
  unfold Revoking.statement at h
  split at h
  · split at h
    · exact of_stop h rfl
    · rename_i credential hfound
      obtain ⟨hfound, hseen⟩ := Option.filter_eq_some_iff.mp hfound
      exact of_keep h (.holdCredential c credential hfound hseen)
  · rename_i credential now
    split_ifs at h with hstatus
    · split at h
      · exact of_stop h rfl
      · rename_i revokedAt hrevoked
        cases h
        exact .repeatRevoke c credential now revokedAt hrevoked
    · have hactive : credential.status = .active := by
        cases hcase : credential.status with
        | active => rfl
        | revoked => exact absurd hcase hstatus
      exact of_keep h (.mark c credential now hactive)
  · cases h
    exact .revoke c _ _
  · cases h

lemma of_switching {c : SetStatusInput} {k : Switching} {y : Answer}
    (h : k.statement c y db = some (t', db', obs)) :
    Step D (.switching c k) (.answer y) db t' db' obs := by
  unfold Switching.statement at h
  split at h
  · split at h
    · exact of_stop h rfl
    · split at h
      · exact of_stop h rfl
      · rename_i tenant hfound
        exact of_keep h (.holdTenant c _ tenant hfound)
  · split_ifs at h with hsame
    · exact of_stop h rfl
    · cases h
      exact .switch c _ _ hsame
  · cases h

lemma of_assigning {c : AssignInput} {k : Assigning} {y : Answer}
    (h : k.statement c y db = some (t', db', obs)) :
    Step D (.assigning c k) (.answer y) db t' db' obs := by
  unfold Assigning.statement at h
  split at h
  · split at h
    · exact of_stop h rfl
    · exact of_keep h (.pass rfl)
  · split at h
    · exact of_stop h rfl
    · rename_i tenant hfound
      split_ifs at h with hsame
      · exact of_stop h rfl
      · exact of_keep h (.holdAssign c _ _ tenant _ hfound hsame (.inr rfl))
      · exact of_keep h (.holdAssign c _ _ tenant _ hfound hsame (.inl rfl))
  · split_ifs at h with hnone
    · subst hnone
      exact of_keep h (.countAssign c _ _ _)
    · exact of_stop h rfl
  · split_ifs at h with hnone
    · subst hnone
      exact of_keep h (.clearAssign c _ _ _)
    · exact of_stop h rfl
  · cases h
    exact .move c _ _ _
  · cases h

lemma of_requesting {r : Request} {k : Requesting} {y : Answer}
    (h : k.statement D r y db = some (t', db', obs)) :
    Step D (.requesting r k) (.answer y) db t' db' obs := by
  unfold Requesting.statement at h
  split at h
  · split at h
    · rename_i authorization hheader
      split at h
      · exact of_stop h rfl
      · rename_i presented hread
        exact of_keep h (.present r authorization presented hheader hread)
    · rename_i hheader
      split at h
      · exact of_stop h rfl
      · rename_i identity hread
        exact of_keep h (.identify r identity hheader hread)
  · rename_i presented now
    dsimp only at h
    split at h
    · rename_i error hchecked
      cases h
      rw [hchecked]
      exact .refuse r presented now error hchecked
    · rename_i identity hchecked
      cases h
      rw [hchecked]
      exact .accept r presented now identity hchecked
  · split at h
    · exact of_stop h rfl
    · rename_i hauthorised
      cases h
      exact .grant r _ hauthorised
  · cases h

/-- What a step is. -/
lemma of_next (h : next D t x db = some (t', db', obs)) : Step D t x db t' db' obs := by
  cases x with
  | call c =>
      rw [next] at h
      split_ifs at h
      refine of_keep h (.pass ?_)
      cases c <;> rfl
  | crash =>
      cases h
      exact .pass rfl
  | answer y =>
      rw [next] at h
      unfold Stage.statement at h
      split at h
      · exact of_ensuring h
      · exact of_creating h
      · exact of_issuing h
      · exact of_revoking h
      · exact of_switching h
      · exact of_assigning h
      · exact of_requesting h
      · cases h

/-! ### What is left as it is -/

/-- A tenant is rewritten under its lock. -/
lemma tenant_kept (h : Step D t x db t' db' obs) {id : Uuid} {row : TenantRow}
    (hrow : db.tenant id = some row) (hlock : .tenant id ∉ t.locks) :
    db'.tenant id = some row := by
  cases h with
  | create c tenant => exact lookup_append hrow
  | switch c reason tenant =>
      exact lookup_modify_of_ne (fun _ => rfl)
        (fun h => hlock (by rw [h]; exact List.mem_singleton_self _)) hrow
  | move c target reason tenant =>
      exact lookup_modify_of_ne (fun _ => rfl)
        (fun h => hlock (by rw [h]; exact List.mem_cons_of_mem _ (List.mem_singleton_self _))) hrow
  | _ => exact hrow

/-- Tenants stay. -/
lemma tenant_isSome (h : Step D t x db t' db' obs) {id : Uuid}
    (hrow : (db.tenant id).isSome) : (db'.tenant id).isSome := by
  have hmodify : ∀ (id' : Uuid) (f : TenantRow → TenantRow), (∀ t, (f t).id = t.id) →
      (lookup TenantRow.id id (modify TenantRow.id id' f db.tenants)).isSome := by
    intro id' f hf
    rw [lookup_modify hf, Option.isSome_map]
    exact hrow
  obtain ⟨row, hrow⟩ := Option.isSome_iff_exists.mp hrow
  cases h with
  | create c tenant => exact Option.isSome_iff_exists.mpr ⟨row, lookup_append hrow⟩
  | switch => exact hmodify _ _ fun _ => rfl
  | move => exact hmodify _ _ fun _ => rfl
  | _ => exact Option.isSome_iff_exists.mpr ⟨row, hrow⟩

/-- A credential is rewritten under its lock. -/
lemma credential_kept (h : Step D t x db t' db' obs) {id : Uuid} {row : CredentialRow H}
    (hrow : db.credential id = some row) (hlock : .credential id ∉ t.locks) :
    db'.credential id = some row := by
  cases h with
  | issue c issued credential => exact lookup_append hrow
  | revoke c credential revokedAt =>
      exact lookup_modify_of_ne (fun _ => rfl)
        (fun h => hlock (by rw [h]; exact List.mem_singleton_self _)) hrow
  | _ => exact hrow

/-- A tenant is added under the locks of its keys. -/
lemma tenants_free (h : Step D t x db t' db' obs) {id : Uuid} {slug : String}
    (hfree : ∀ t ∈ db.tenants, t.id ≠ id ∧ t.slug ≠ slug) (hid : .tenantKey id ∉ t.locks)
    (hslug : .slugKey slug ∉ t.locks) : ∀ t ∈ db'.tenants, t.id ≠ id ∧ t.slug ≠ slug := by
  have hmodify : ∀ (id' : Uuid) (f : TenantRow → TenantRow),
      (∀ t, (f t).id = t.id) → (∀ t, (f t).slug = t.slug) →
      ∀ t ∈ modify TenantRow.id id' f db.tenants, t.id ≠ id ∧ t.slug ≠ slug := by
    intro id' f hfid hfslug t ht
    rcases mem_modify.mp ht with ⟨t', ht', -, rfl⟩ | ⟨ht, -⟩
    · rw [hfid, hfslug]
      exact hfree t' ht'
    · exact hfree t ht
  cases h with
  | create c tenant =>
      intro t ht
      rcases List.mem_append.mp ht with ht | ht
      · exact hfree t ht
      · obtain rfl := List.mem_singleton.mp ht
        refine ⟨fun h => hid ?_, fun h => hslug ?_⟩
        · rw [← h]
          exact List.mem_cons_self
        · rw [← h]
          exact List.mem_cons_of_mem _ (List.mem_singleton_self _)
  | switch => exact hmodify _ _ (fun _ => rfl) fun _ => rfl
  | move => exact hmodify _ _ (fun _ => rfl) fun _ => rfl
  | _ => exact hfree

/-- A credential is added under the lock of its key. -/
lemma credential_free (h : Step D t x db t' db' obs) {id : Uuid} (hfree : db.credential id = none)
    (hid : .credentialKey id ∉ t.locks) : db'.credential id = none := by
  cases h with
  | issue c issued credential =>
      rw [Database.credential, lookup_concat_of_ne]
      · exact hfree
      · exact fun h => hid (by rw [← h]; exact List.mem_singleton_self _)
  | revoke c credential revokedAt =>
      refine lookup_eq_none.mpr fun r hr => ?_
      rcases mem_modify.mp hr with ⟨r', hr', -, rfl⟩ | ⟨hr, -⟩
      · exact lookup_eq_none.mp hfree r' hr'
      · exact lookup_eq_none.mp hfree r hr
  | _ => exact hfree

end Step

end

end TiramisuAgents.Security
