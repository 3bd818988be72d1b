import TiramisuAgents.Security.Steps

/-!
What the commits of the control plane say about credentials and tenants, without the rows.

The log is read as a trail: a credential is what was issued, it is revoked by the first revocation,
and the status and the deployment of a tenant are those of the last change.

* `issuedIn`, `revocationIn`, `statusIn`, `deploymentIn`: the trail.
* `decideBearer`: what a credential is told, by the trail alone.
* `Leads`, `Leads.concat`: changes one after the other.
* `Reflects`: the rows are those of the trail; `Reflects.checkBearer_eq`, `Reflects.commit`.
-/

namespace TiramisuAgents.Security

open Tables

/-! ### Changes -/

/-- Changes that lead from one value to another, each from the value before it to a new one. -/
def Leads {σ : Type} : σ → List (σ × σ) → σ → Prop
  | start, [], stop => start = stop
  | start, (previous, new) :: changes, stop =>
      previous = start ∧ new ≠ previous ∧ Leads new changes stop

lemma Leads.concat {σ : Type} {start stop new : σ} {changes : List (σ × σ)}
    (h : Leads start changes stop) (hne : new ≠ stop) :
    Leads start (changes ++ [(stop, new)]) new := by
  induction changes generalizing start with
  | nil =>
      rw [Leads] at h
      subst h
      exact ⟨rfl, hne, rfl⟩
  | cons change changes ih =>
      obtain ⟨previous, new'⟩ := change
      obtain ⟨hprevious, hnew, hrest⟩ := h
      exact ⟨hprevious, hnew, ih hrest⟩

/-- The changes that rows of one owner record. -/
def changesOf {ε σ κ : Type} [DecidableEq κ] (owner : ε → κ) (change : ε → σ × σ) (k : κ)
    (rows : List ε) : List (σ × σ) :=
  (rows.filter fun e => owner e = k).map change

section

variable {ε σ κ : Type} [DecidableEq κ] {owner : ε → κ} {change : ε → σ × σ} {k : κ}
  {rows : List ε} {e : ε}

lemma changesOf_eq_nil (h : ∀ e ∈ rows, owner e ≠ k) : changesOf owner change k rows = [] := by
  rw [changesOf, List.filter_eq_nil_iff.mpr, List.map_nil]
  exact fun e he heq => h e he (of_decide_eq_true heq)

lemma changesOf_concat (h : owner e = k) :
    changesOf owner change k (rows ++ [e]) = changesOf owner change k rows ++ [change e] := by
  have hone : [e].filter (fun e => owner e = k) = [e] := by simp [h]
  rw [changesOf, List.filter_append, List.map_append, hone, List.map_singleton, changesOf]

lemma changesOf_concat_of_ne (h : owner e ≠ k) :
    changesOf owner change k (rows ++ [e]) = changesOf owner change k rows := by
  have hnone : [e].filter (fun e => owner e = k) = [] := by simp [h]
  rw [changesOf, List.filter_append, hnone, List.append_nil, changesOf]

end

section

variable {H : Type}

/-! ### The trail -/

/-- The credential that an event issues with an identity. -/
def AccessEvent.issuedAs (id : Uuid) : AccessEvent H → Option (CredentialRow H)
  | .issued c => if c.id = id then some c else none
  | _ => none

/-- The time and the actor of an event that revokes a credential. -/
def AccessEvent.revokes (id : Uuid) : AccessEvent H → Option (Time × Uuid)
  | .revoked id' revokedAt actorId => if id' = id then some (revokedAt, actorId) else none
  | _ => none

/-- The status that an event gives a tenant. -/
def AccessEvent.status (id : Uuid) : AccessEvent H → Option Tenancy.TenantStatus
  | .created t => if t.id = id then some t.status else none
  | .switched e => if e.tenantId = id then some e.newStatus else none
  | _ => none

/-- The deployment that an event gives a tenant. -/
def AccessEvent.deployment (id : Uuid) : AccessEvent H → Option String
  | .created t => if t.id = id then some t.deploymentId else none
  | .moved e => if e.tenantId = id then some e.newDeploymentId else none
  | _ => none

/-- The credential that was issued with an identity. -/
def issuedIn (log : List (AccessEvent H)) (id : Uuid) : Option (CredentialRow H) :=
  log.findSome? (AccessEvent.issuedAs id)

/-- When a credential was revoked first, and by whom. -/
def revocationIn (log : List (AccessEvent H)) (id : Uuid) : Option (Time × Uuid) :=
  log.findSome? (AccessEvent.revokes id)

/-- The status of a tenant. -/
def statusIn (log : List (AccessEvent H)) (id : Uuid) : Option Tenancy.TenantStatus :=
  (log.filterMap (AccessEvent.status id)).getLast?

/-- The deployment of a tenant. -/
def deploymentIn (log : List (AccessEvent H)) (id : Uuid) : Option String :=
  (log.filterMap (AccessEvent.deployment id)).getLast?

/-- The identity of a credential. -/
def CredentialRow.identity (c : CredentialRow H) : OperatorIdentity where
  tenantId := c.tenantId
  actorId := c.actorId
  scopes := c.scopes.toFinset
  roles := c.roles.toFinset
  credentialId := some c.id
  authenticationMethod := "tenant_bearer"

/-- The credential after what the trail has of its revocation. -/
def CredentialRow.after (c : CredentialRow H) : Option (Time × Uuid) → CredentialRow H
  | none => c
  | some (revokedAt, actorId) => c.revoke revokedAt actorId

/-- What a credential is told, by the trail alone. -/
def decideBearer [DecidableEq H] (D : Deployment H) (log : List (AccessEvent H))
    (presented : ParsedCredential) (now : Time) : Except HttpError OperatorIdentity :=
  match issuedIn log presented.credentialId with
  | none => .error (unauthorized "bearer credential is invalid")
  | some c =>
      if c.tenantId ≠ presented.tenantId ∨ D.sha256 presented.secret ≠ c.secretHash then
        .error (unauthorized "bearer credential is invalid")
      else if (revocationIn log c.id).isSome then
        .error (unauthorized "bearer credential is inactive")
      else if c.expiresAt.any (· ≤ now) then .error (unauthorized "bearer credential has expired")
      else if statusIn log c.tenantId ≠ some .active then .error ⟨403, "tenant is suspended"⟩
      else .ok c.identity

variable {log : List (AccessEvent H)} {o : AccessEvent H} {id : Uuid}

lemma issuedIn_concat : issuedIn (log ++ [o]) id = (issuedIn log id).or (o.issuedAs id) := by
  rw [issuedIn, List.findSome?_append, List.findSome?_singleton, issuedIn]

lemma revocationIn_concat :
    revocationIn (log ++ [o]) id = (revocationIn log id).or (o.revokes id) := by
  rw [revocationIn, List.findSome?_append, List.findSome?_singleton, revocationIn]

lemma statusIn_concat : statusIn (log ++ [o]) id = (o.status id).or (statusIn log id) := by
  rw [statusIn, List.filterMap_append, List.getLast?_append, statusIn]
  cases hstatus : o.status id with
  | none => rw [List.filterMap_cons_none hstatus]; rfl
  | some status => rw [List.filterMap_cons_some hstatus]; rfl

lemma deploymentIn_concat :
    deploymentIn (log ++ [o]) id = (o.deployment id).or (deploymentIn log id) := by
  rw [deploymentIn, List.filterMap_append, List.getLast?_append, deploymentIn]
  cases hdeployment : o.deployment id with
  | none => rw [List.filterMap_cons_none hdeployment]; rfl
  | some deployment => rw [List.filterMap_cons_some hdeployment]; rfl

lemma issuedIn_same (h : o.issuedAs id = none) : issuedIn (log ++ [o]) id = issuedIn log id := by
  rw [issuedIn_concat, h, Option.or_none]

lemma revocationIn_same (h : o.revokes id = none) :
    revocationIn (log ++ [o]) id = revocationIn log id := by
  rw [revocationIn_concat, h, Option.or_none]

lemma statusIn_same (h : o.status id = none) : statusIn (log ++ [o]) id = statusIn log id := by
  rw [statusIn_concat, h, Option.none_or]

lemma deploymentIn_same (h : o.deployment id = none) :
    deploymentIn (log ++ [o]) id = deploymentIn log id := by
  rw [deploymentIn_concat, h, Option.none_or]

lemma issuedIn_mem {c : CredentialRow H} (h : issuedIn log id = some c) :
    .issued c ∈ log ∧ c.id = id := by
  obtain ⟨o, ho, hissued⟩ := List.exists_of_findSome?_eq_some h
  cases o with
  | issued c' =>
      rw [AccessEvent.issuedAs] at hissued
      split_ifs at hissued with hid
      cases hissued
      exact ⟨ho, hid⟩
  | _ => cases hissued

lemma revocationIn_mem {revokedAt : Time} {actorId : Uuid}
    (h : revocationIn log id = some (revokedAt, actorId)) :
    .revoked id revokedAt actorId ∈ log := by
  obtain ⟨o, ho, hrevokes⟩ := List.exists_of_findSome?_eq_some h
  cases o with
  | revoked id' revokedAt' actorId' =>
      rw [AccessEvent.revokes] at hrevokes
      split_ifs at hrevokes with hid
      cases hrevokes
      rw [← hid]
      exact ho
  | _ => cases hrevokes

/-- What the trail has of a revocation stays. -/
lemma revocationIn_append {r : Time × Uuid} (h : revocationIn log id = some r)
    (more : List (AccessEvent H)) : revocationIn (log ++ more) id = some r := by
  rw [revocationIn] at h ⊢
  rw [List.findSome?_append, h, Option.some_or]

/-! ### Rows and trail -/

/-- What `issue` stores: scopes of the list, roles of the pattern, and no revocation. -/
structure CredentialRow.Issued (c : CredentialRow H) : Prop where
  scopes : ∃ scopes : List CredentialScope, c.scopes = scopes.map CredentialScope.value
  roles : c.roles.all isRole = true
  active : c.status = .active

/-- The changes of the status of a tenant. -/
def Database.safetyChanges (db : Database H) (id : Uuid) :
    List (Tenancy.TenantStatus × Tenancy.TenantStatus) :=
  changesOf SafetyEventRow.tenantId (fun e => (e.previousStatus, e.newStatus)) id db.safetyEvents

/-- The changes of the deployment of a tenant. -/
def Database.deploymentChanges (db : Database H) (id : Uuid) : List (String × String) :=
  changesOf DeploymentEventRow.tenantId (fun e => (e.previousDeploymentId, e.newDeploymentId)) id
    db.deploymentEvents

/-- The rows are those of the trail. -/
structure Reflects (db : Database H) (log : List (AccessEvent H)) : Prop where
  tenants : Keyed TenantRow.id db.tenants
  slugs : Keyed TenantRow.slug db.tenants
  status : ∀ id, (db.tenant id).map TenantRow.status = statusIn log id
  deployment : ∀ id, (db.tenant id).map TenantRow.deploymentId = deploymentIn log id
  credential : ∀ id, db.credential id = (issuedIn log id).map fun c => c.after (revocationIn log id)
  revoked : ∀ id, (revocationIn log id).isSome → (issuedIn log id).isSome
  issued : ∀ c, .issued c ∈ log → c.Issued ∧ (db.tenant c.tenantId).isSome
  owners : (∀ e ∈ db.safetyEvents, (db.tenant e.tenantId).isSome) ∧
    ∀ e ∈ db.deploymentEvents, (db.tenant e.tenantId).isSome
  safety : ∀ id t, db.tenant id = some t → Leads .active (db.safetyChanges id) t.status
  moves : ∀ id t, db.tenant id = some t →
    Leads Tenancy.unassigned (db.deploymentChanges id) t.deploymentId

/-- An event that changes no rows. -/
def AccessEvent.quiet : AccessEvent H → Bool
  | .checked _ _ _ | .granted _ _ => true
  | _ => false

namespace Reflects

variable {db : Database H}

lemma empty : Reflects ({} : Database H) [] where
  tenants := keyed_nil
  slugs := keyed_nil
  status _ := rfl
  deployment _ := rfl
  credential _ := rfl
  revoked _ h := h
  issued c hc := absurd hc List.not_mem_nil
  owners := ⟨fun e he => absurd he List.not_mem_nil, fun e he => absurd he List.not_mem_nil⟩
  safety id t ht := by cases ht
  moves id t ht := by cases ht

/-- An event that issues nothing leaves the issued credentials. -/
lemma issued_of_none (h : Reflects db log) (ho : ∀ id, o.issuedAs id = none) {c : CredentialRow H}
    (hc : .issued c ∈ log ++ [o]) : c.Issued ∧ (db.tenant c.tenantId).isSome := by
  refine h.issued c ((List.mem_append.mp hc).resolve_right fun hc => ?_)
  rw [← List.mem_singleton.mp hc] at ho
  have hself := ho c.id
  rw [AccessEvent.issuedAs, if_pos rfl] at hself
  cases hself

/-- Requests change nothing. -/
lemma quiet (h : Reflects db log) (ho : o.quiet = true) : Reflects db (log ++ [o]) := by
  have hnone : ∀ id, o.issuedAs id = none ∧ o.revokes id = none ∧ o.status id = none ∧
      o.deployment id = none := by
    cases o with
    | checked => exact fun _ => ⟨rfl, rfl, rfl, rfl⟩
    | granted => exact fun _ => ⟨rfl, rfl, rfl, rfl⟩
    | _ => cases ho
  refine ⟨h.tenants, h.slugs, fun id => ?_, fun id => ?_, fun id => ?_, fun id => ?_,
    fun c hc => h.issued_of_none (fun id => (hnone id).1) hc, h.owners, h.safety, h.moves⟩
  · rw [statusIn_same (hnone id).2.2.1, h.status]
  · rw [deploymentIn_same (hnone id).2.2.2, h.deployment]
  · rw [issuedIn_same (hnone id).1, revocationIn_same (hnone id).2.1, h.credential]
  · rw [issuedIn_same (hnone id).1, revocationIn_same (hnone id).2.1]
    exact h.revoked id

/-- A tenant is created. -/
lemma created (h : Reflects db log) {tenant : TenantRow}
    (hfree : ∀ t ∈ db.tenants, t.id ≠ tenant.id ∧ t.slug ≠ tenant.slug)
    (hstatus : tenant.status = .active) (hdeployment : tenant.deploymentId = Tenancy.unassigned) :
    Reflects { db with tenants := db.tenants ++ [tenant] } (log ++ [.created tenant]) := by
  have hnew : lookup TenantRow.id tenant.id db.tenants = none :=
    lookup_eq_none.mpr fun t ht => (hfree t ht).1
  have hslug : lookup TenantRow.slug tenant.slug db.tenants = none :=
    lookup_eq_none.mpr fun t ht => (hfree t ht).2
  have hself : lookup TenantRow.id tenant.id (db.tenants ++ [tenant]) = some tenant :=
    lookup_concat_self hnew rfl
  have hother : ∀ id, tenant.id ≠ id →
      lookup TenantRow.id id (db.tenants ++ [tenant]) = lookup TenantRow.id id db.tenants :=
    fun id hne => lookup_concat_of_ne hne
  have hstays : ∀ id, (db.tenant id).isSome →
      (lookup TenantRow.id id (db.tenants ++ [tenant])).isSome := fun id hid => by
    obtain ⟨row, hrow⟩ := Option.isSome_iff_exists.mp hid
    exact Option.isSome_iff_exists.mpr ⟨row, lookup_append hrow⟩
  -- no change is of the new tenant yet
  have hnone : ¬ (db.tenant tenant.id).isSome := by
    rw [Database.tenant, hnew]
    exact Bool.false_ne_true
  have hsafety : db.safetyChanges tenant.id = [] :=
    changesOf_eq_nil fun e he heq => hnone (heq ▸ h.owners.1 e he)
  have hmoves : db.deploymentChanges tenant.id = [] :=
    changesOf_eq_nil fun e he heq => hnone (heq ▸ h.owners.2 e he)
  refine ⟨h.tenants.concat hnew, h.slugs.concat hslug, fun id => ?_, fun id => ?_, fun id => ?_,
    fun id => ?_, fun c hc => ?_, ⟨fun e he => hstays _ (h.owners.1 e he), fun e he =>
      hstays _ (h.owners.2 e he)⟩, fun id t ht => ?_, fun id t ht => ?_⟩
  · rw [statusIn_concat, AccessEvent.status]
    by_cases hid : tenant.id = id
    · subst hid
      rw [if_pos rfl, Database.tenant, hself]
      rfl
    · rw [if_neg hid, Database.tenant, hother id hid]
      exact h.status id
  · rw [deploymentIn_concat, AccessEvent.deployment]
    by_cases hid : tenant.id = id
    · subst hid
      rw [if_pos rfl, Database.tenant, hself]
      rfl
    · rw [if_neg hid, Database.tenant, hother id hid]
      exact h.deployment id
  · rw [issuedIn_same rfl, revocationIn_same rfl]
    exact h.credential id
  · rw [issuedIn_same rfl, revocationIn_same rfl]
    exact h.revoked id
  · obtain ⟨hissued, howner⟩ := h.issued_of_none (fun _ => rfl) hc
    exact ⟨hissued, hstays _ howner⟩
  · by_cases hid : tenant.id = id
    · subst hid
      cases hself.symm.trans ht
      rw [hstatus]
      exact hsafety ▸ rfl
    · exact h.safety id t ((hother id hid).symm.trans ht)
  · by_cases hid : tenant.id = id
    · subst hid
      cases hself.symm.trans ht
      rw [hdeployment]
      exact hmoves ▸ rfl
    · exact h.moves id t ((hother id hid).symm.trans ht)

/-- A credential is issued. -/
lemma issue (h : Reflects db log) {c : CredentialRow H} (hfree : db.credential c.id = none)
    (hissued : c.Issued) (howner : (db.tenant c.tenantId).isSome) :
    Reflects { db with credentials := db.credentials ++ [c] } (log ++ [.issued c]) := by
  have hnone : issuedIn log c.id = none := by
    have hrows := h.credential c.id
    rw [hfree, eq_comm, Option.map_eq_none_iff] at hrows
    exact hrows
  have hunrevoked : revocationIn log c.id = none := by
    by_contra hne
    have hsome := h.revoked c.id (Option.isSome_iff_ne_none.mpr hne)
    rw [hnone] at hsome
    cases hsome
  refine ⟨h.tenants, h.slugs, fun id => ?_, fun id => ?_, fun id => ?_, fun id => ?_,
    fun c' hc' => ?_, h.owners, h.safety, h.moves⟩
  · rw [statusIn_same rfl]
    exact h.status id
  · rw [deploymentIn_same rfl]
    exact h.deployment id
  · rw [revocationIn_same rfl, issuedIn_concat, AccessEvent.issuedAs]
    by_cases hid : c.id = id
    · subst hid
      rw [if_pos rfl, hnone, Option.none_or, hunrevoked]
      exact lookup_concat_self hfree rfl
    · rw [if_neg hid, Option.or_none, ← h.credential id]
      exact lookup_concat_of_ne hid
  · rw [revocationIn_same rfl, issuedIn_concat]
    intro hid
    rw [Option.isSome_or, h.revoked id hid, Bool.true_or]
  · rcases List.mem_append.mp hc' with hc' | hc'
    · exact h.issued c' hc'
    · cases List.mem_singleton.mp hc'
      exact ⟨hissued, howner⟩

/-- A credential is revoked. -/
lemma revoke (h : Reflects db log) {c : CredentialRow H} (hfound : db.credential c.id = some c)
    (hactive : c.status = .active) (revokedAt : Time) (actorId : Uuid) :
    revocationIn log c.id = none ∧
    Reflects
      { db with
        credentials := modify CredentialRow.id c.id (fun r => r.revoke revokedAt actorId)
          db.credentials }
      (log ++ [.revoked c.id revokedAt actorId]) := by
  obtain ⟨c', hc', hafter⟩ := Option.map_eq_some_iff.mp ((h.credential c.id).symm.trans hfound)
  have hnone : revocationIn log c.id = none := by
    cases hrevocation : revocationIn log c.id with
    | none => rfl
    | some r =>
        rw [hrevocation] at hafter
        rw [← hafter] at hactive
        cases hactive
  rw [hnone] at hafter
  obtain rfl : c' = c := hafter
  have hkey : ∀ r : CredentialRow H, (r.revoke revokedAt actorId).id = r.id := fun _ => rfl
  refine ⟨hnone, h.tenants, h.slugs, fun id => ?_, fun id => ?_, fun id => ?_, fun id => ?_,
    fun c' hc' => h.issued_of_none (fun _ => rfl) hc', h.owners, h.safety, h.moves⟩
  · rw [statusIn_same rfl]
    exact h.status id
  · rw [deploymentIn_same rfl]
    exact h.deployment id
  · rw [issuedIn_same rfl, revocationIn_concat, AccessEvent.revokes, Database.credential]
    by_cases hid : c'.id = id
    · subst hid
      rw [if_pos rfl, hnone, Option.none_or, hc', Option.map_some]
      exact lookup_modify_self hkey hfound
    · rw [if_neg hid, Option.or_none, ← h.credential id, lookup_modify hkey]
      cases hrow : db.credential id with
      | none =>
          rw [Database.credential] at hrow
          rw [hrow, Option.map_none]
      | some r =>
          have hrid := (lookup_mem hrow).2
          rw [Database.credential] at hrow
          rw [hrow, Option.map_some, if_neg]
          exact fun heq => hid (heq.symm.trans hrid)
  · rw [issuedIn_same rfl, revocationIn_concat, AccessEvent.revokes]
    by_cases hid : c'.id = id
    · subst hid
      intro
      rw [hc']
      rfl
    · rw [if_neg hid, Option.or_none]
      exact h.revoked id

/-- The tenants after one of them is rewritten. -/
lemma tenant_modify {tenant : TenantRow} {f : TenantRow → TenantRow} (hf : ∀ t, (f t).id = t.id)
    (hfound : db.tenant tenant.id = some tenant) (id : Uuid) :
    lookup TenantRow.id id (modify TenantRow.id tenant.id f db.tenants)
      = if id = tenant.id then some (f tenant) else db.tenant id := by
  split_ifs with hid
  · rw [hid]
    exact lookup_modify_self hf hfound
  · cases hrow : db.tenant id with
    | none =>
        rw [Database.tenant] at hrow
        rw [lookup_modify hf, hrow, Option.map_none]
    | some t => exact lookup_modify_of_ne hf hid hrow

/-- The status of a tenant changes. -/
lemma switch (h : Reflects db log) {tenant : TenantRow} {e : SafetyEventRow}
    (hfound : db.tenant tenant.id = some tenant) (howner : e.tenantId = tenant.id)
    (hprevious : e.previousStatus = tenant.status) (hne : e.newStatus ≠ tenant.status) :
    Reflects
      { db with
        tenants := modify TenantRow.id tenant.id (fun t => { t with status := e.newStatus })
          db.tenants
        safetyEvents := db.safetyEvents ++ [e] }
      (log ++ [.switched e]) := by
  have hrow := tenant_modify (f := fun t => { t with status := e.newStatus }) (fun _ => rfl) hfound
  have hstays : ∀ id, (db.tenant id).isSome →
      (lookup TenantRow.id id (modify TenantRow.id tenant.id
        (fun t => { t with status := e.newStatus }) db.tenants)).isSome := fun id hid => by
    rw [hrow]
    split_ifs
    · rfl
    · exact hid
  refine ⟨h.tenants.modify fun _ => rfl, h.slugs.modify fun _ => rfl, fun id => ?_, fun id => ?_,
    fun id => ?_, fun id => ?_, fun c hc => ?_, ⟨fun e' he' => ?_, fun e' he' =>
      hstays _ (h.owners.2 e' he')⟩, fun id t ht => ?_, fun id t ht => ?_⟩
  · rw [statusIn_concat, AccessEvent.status, Database.tenant, hrow, howner]
    by_cases hid : tenant.id = id
    · rw [if_pos hid.symm, if_pos hid]
      rfl
    · rw [if_neg fun h => hid h.symm, if_neg hid]
      exact h.status id
  · rw [deploymentIn_same rfl, ← h.deployment id, Database.tenant, hrow]
    split_ifs with hid
    · rw [hid, hfound]
      rfl
    · rfl
  · rw [issuedIn_same rfl, revocationIn_same rfl]
    exact h.credential id
  · rw [issuedIn_same rfl, revocationIn_same rfl]
    exact h.revoked id
  · obtain ⟨hissued, hexists⟩ := h.issued_of_none (fun _ => rfl) hc
    exact ⟨hissued, hstays _ hexists⟩
  · rcases List.mem_append.mp he' with he' | he'
    · exact hstays _ (h.owners.1 e' he')
    · rw [List.mem_singleton.mp he', howner]
      exact hstays _ (by rw [hfound]; rfl)
  · rw [Database.tenant, hrow] at ht
    split_ifs at ht with hid
    · subst hid
      cases ht
      rw [Database.safetyChanges, changesOf_concat howner, hprevious]
      exact (h.safety _ tenant hfound).concat hne
    · rw [Database.safetyChanges, changesOf_concat_of_ne (howner ▸ Ne.symm hid)]
      exact h.safety id t ht
  · rw [Database.tenant, hrow] at ht
    split_ifs at ht with hid
    · subst hid
      cases ht
      exact h.moves _ tenant hfound
    · exact h.moves id t ht

/-- The deployment of a tenant changes. -/
lemma move (h : Reflects db log) {tenant : TenantRow} {e : DeploymentEventRow}
    (hfound : db.tenant tenant.id = some tenant) (howner : e.tenantId = tenant.id)
    (hprevious : e.previousDeploymentId = tenant.deploymentId)
    (hne : e.newDeploymentId ≠ tenant.deploymentId) :
    Reflects
      { db with
        tenants := modify TenantRow.id tenant.id
          (fun t => { t with deploymentId := e.newDeploymentId }) db.tenants
        deploymentEvents := db.deploymentEvents ++ [e] }
      (log ++ [.moved e]) := by
  have hrow := tenant_modify (f := fun t => { t with deploymentId := e.newDeploymentId })
    (fun _ => rfl) hfound
  have hstays : ∀ id, (db.tenant id).isSome →
      (lookup TenantRow.id id (modify TenantRow.id tenant.id
        (fun t => { t with deploymentId := e.newDeploymentId }) db.tenants)).isSome :=
    fun id hid => by
      rw [hrow]
      split_ifs
      · rfl
      · exact hid
  refine ⟨h.tenants.modify fun _ => rfl, h.slugs.modify fun _ => rfl, fun id => ?_, fun id => ?_,
    fun id => ?_, fun id => ?_, fun c hc => ?_, ⟨fun e' he' => hstays _ (h.owners.1 e' he'),
      fun e' he' => ?_⟩, fun id t ht => ?_, fun id t ht => ?_⟩
  · rw [statusIn_same rfl, ← h.status id, Database.tenant, hrow]
    split_ifs with hid
    · rw [hid, hfound]
      rfl
    · rfl
  · rw [deploymentIn_concat, AccessEvent.deployment, Database.tenant, hrow, howner]
    by_cases hid : tenant.id = id
    · rw [if_pos hid.symm, if_pos hid]
      rfl
    · rw [if_neg fun h => hid h.symm, if_neg hid]
      exact h.deployment id
  · rw [issuedIn_same rfl, revocationIn_same rfl]
    exact h.credential id
  · rw [issuedIn_same rfl, revocationIn_same rfl]
    exact h.revoked id
  · obtain ⟨hissued, hexists⟩ := h.issued_of_none (fun _ => rfl) hc
    exact ⟨hissued, hstays _ hexists⟩
  · rcases List.mem_append.mp he' with he' | he'
    · exact hstays _ (h.owners.2 e' he')
    · rw [List.mem_singleton.mp he', howner]
      exact hstays _ (by rw [hfound]; rfl)
  · rw [Database.tenant, hrow] at ht
    split_ifs at ht with hid
    · subst hid
      cases ht
      exact h.safety _ tenant hfound
    · exact h.safety id t ht
  · rw [Database.tenant, hrow] at ht
    split_ifs at ht with hid
    · subst hid
      cases ht
      rw [Database.deploymentChanges, changesOf_concat howner, hprevious]
      exact (h.moves _ tenant hfound).concat hne
    · rw [Database.deploymentChanges, changesOf_concat_of_ne (howner ▸ Ne.symm hid)]
      exact h.moves id t ht

/-- A credential that is found revoked is revoked in the trail. -/
lemma revocation_of_row (h : Reflects db log) {c : CredentialRow H}
    (hfound : db.credential c.id = some c) {revokedAt : Time}
    (hrevoked : c.revokedAt = some revokedAt) :
    ∃ actorId, revocationIn log c.id = some (revokedAt, actorId) := by
  obtain ⟨c', hc', hafter⟩ := Option.map_eq_some_iff.mp ((h.credential c.id).symm.trans hfound)
  cases hrevocation : revocationIn log c.id with
  | none =>
      rw [hrevocation] at hafter
      obtain rfl : c' = c := hafter
      -- an issued credential is active, so it has no time of a revocation
      have hactive := (h.issued c' (issuedIn_mem hc').1).1.active
      rcases c'.consistent with ⟨-, hnone, -⟩ | ⟨hstatus, -⟩
      · rw [hnone] at hrevoked
        cases hrevoked
      · rw [hactive] at hstatus
        cases hstatus
  | some r =>
      rw [hrevocation] at hafter
      rw [← hafter] at hrevoked
      cases hrevoked
      exact ⟨_, rfl⟩

/-- The row that is read for a credential, by the trail. -/
lemma bearerRow_eq (h : Reflects db log) {presented : ParsedCredential} {c : CredentialRow H}
    (hissued : issuedIn log presented.credentialId = some c) :
    c.Issued ∧ ∃ status, statusIn log c.tenantId = some status ∧
      db.bearerRow presented =
        if c.tenantId = presented.tenantId then some (c.after (revocationIn log c.id), status)
        else none := by
  obtain ⟨hmem, hid⟩ := issuedIn_mem hissued
  obtain ⟨hvalid, howner⟩ := h.issued c hmem
  obtain ⟨tenant, htenant⟩ := Option.isSome_iff_exists.mp howner
  have hkept : (c.after (revocationIn log c.id)).tenantId = c.tenantId := by
    cases revocationIn log c.id <;> rfl
  refine ⟨hvalid, tenant.status, by rw [← h.status, htenant, Option.map_some], ?_⟩
  rw [Database.bearerRow, h.credential, hissued, Option.map_some, ← hid]
  split_ifs with htenantId
  · rw [Option.filter_some, if_pos (decide_eq_true (hkept.trans htenantId)), Option.bind_some,
      hkept, htenant, Option.map_some]
  · rw [Option.filter_some, if_neg, Option.bind_none]
    exact fun heq => htenantId (hkept.symm.trans (of_decide_eq_true heq))

/-- **A credential is told what the trail says of it.** -/
lemma checkBearer_eq [DecidableEq H] (h : Reflects db log) (D : Deployment H)
    (presented : ParsedCredential) (now : Time) :
    checkBearer D db presented now = decideBearer D log presented now := by
  rw [checkBearer, decideBearer]
  cases hissued : issuedIn log presented.credentialId with
  | none =>
      rw [Database.bearerRow, h.credential, hissued]
      rfl
  | some c =>
      obtain ⟨hvalid, status, hstatus, hrow⟩ := h.bearerRow_eq hissued
      rw [hrow]
      by_cases htenantId : c.tenantId = presented.tenantId
      · rw [if_pos htenantId]
        have hhash : (c.after (revocationIn log c.id)).secretHash = c.secretHash := by
          cases revocationIn log c.id <;> rfl
        by_cases hsecret : D.sha256 presented.secret = c.secretHash
        · cases hrevocation : revocationIn log c.id with
          | none =>
              simp [CredentialRow.after, CredentialRow.identity, credentialSecretMatches, hsecret,
                hstatus, hvalid.active, ← htenantId, hrevocation]
          | some r =>
              simp [CredentialRow.after, CredentialRow.revoke, credentialSecretMatches, hsecret,
                ← htenantId, hrevocation]
        · simp [hhash, credentialSecretMatches, hsecret]
      · simp [htenantId]

end Reflects

end

end TiramisuAgents.Security
