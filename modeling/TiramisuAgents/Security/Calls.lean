import TiramisuAgents.Library.Transactions
import TiramisuAgents.Security.Credentials
import TiramisuAgents.Tenancy.Calls

/-!
The control plane and the authentication of requests, statement by statement:
`TenantProvisioningService` (`security/tenant_provisioning.py`), `TenantCredentialService`
(`security/credential_service.py`), `TenantSafetyService` (`security/tenancy.py`),
`TenantDeploymentService` (`security/deployment_assignment.py`) and the dependencies of the routes
(`api/operator_auth.py`).

A call of the control plane is one transaction.  A request has two: the first reads the credential,
the second the deployment of the tenant, and other calls may commit between them.  The counts of
`assign` are answers; `Tenancy.Calls` has the tables that it counts.  The share lock on a tenant
that the foreign key of a new credential takes is left out, so that there are more runs.

* `TenantRow`, `CredentialRow`, `SafetyEventRow`, `DeploymentEventRow`, `Database`: the rows.
* `Deployment`: what is fixed, with whether row-level security binds the role of the control plane.
* `OperatorIdentity`, `Request`, `checkBearer`, `authorise`: what a request is told.
* `Call`, `Stage`, `AccessEvent`: the calls, where they stand, and what is observed.
* `accessCalls`: the code, with the locks of each stage.
-/

namespace TiramisuAgents.Security

open Encodings Tables

/-! ### Rows -/

/-- A row of `tenants`. -/
structure TenantRow where
  id : Uuid
  slug : String
  name : String
  status : Tenancy.TenantStatus := .active
  deploymentId : String := Tenancy.unassigned
  deriving DecidableEq

/-- The value of `tenants.status`. -/
def statusValue : Tenancy.TenantStatus → String
  | .active => "active"
  | .suspended => "suspended"

/-- `tenant_credentials.status`. -/
inductive CredentialStatus where
  | active | revoked
  deriving DecidableEq, Repr

/-- A row of `tenant_credentials`, with the constraint `revocation_state_consistent`. -/
structure CredentialRow (H : Type) where
  id : Uuid
  tenantId : Uuid
  actorId : Uuid
  name : String
  secretHash : H
  scopes : List String
  roles : List String
  expiresAt : Option Time
  status : CredentialStatus
  revokedAt : Option Time
  revokedByActorId : Option Uuid
  consistent : (status = .active ∧ revokedAt = none ∧ revokedByActorId = none) ∨
    (status = .revoked ∧ revokedAt.isSome ∧ revokedByActorId.isSome)
  deriving DecidableEq

/-- The row after a revocation. -/
def CredentialRow.revoke {H : Type} (c : CredentialRow H) (revokedAt : Time) (actorId : Uuid) :
    CredentialRow H :=
  { c with
    status := .revoked
    revokedAt := some revokedAt
    revokedByActorId := some actorId
    consistent := .inr ⟨rfl, rfl, rfl⟩ }

/-- A row of `tenant_safety_events`. -/
structure SafetyEventRow where
  tenantId : Uuid
  actorId : Uuid
  previousStatus : Tenancy.TenantStatus
  newStatus : Tenancy.TenantStatus
  reason : String
  deriving DecidableEq

/-- A row of `tenant_deployment_events`. -/
structure DeploymentEventRow where
  tenantId : Uuid
  actorId : Uuid
  previousDeploymentId : String
  newDeploymentId : String
  reason : String
  deriving DecidableEq

/-- The tables. -/
structure Database (H : Type) where
  tenants : List TenantRow := []
  credentials : List (CredentialRow H) := []
  safetyEvents : List SafetyEventRow := []
  deploymentEvents : List DeploymentEventRow := []

/-- `Settings.environment`. -/
inductive Environment where
  | development | test | staging | production
  deriving DecidableEq, Repr

/-- The settings that authentication reads, with the check
`prevent_development_features_in_deployments`. -/
structure Settings where
  environment : Environment
  allowUnsafeDevelopmentTenantHeader : Bool
  valid : environment ≠ .development → allowUnsafeDevelopmentTenantHeader = false

/-- What is fixed: the hash function, the settings, the release of the API with its tenants, if it
serves one, and whether the role of the control plane is exempt from row-level security. -/
structure Deployment (H : Type) where
  characters : Characters
  sha256 : PyString → H
  dummySecretHash : H
  settings : Settings
  release : Option String
  tenantIds : List Uuid
  exempt : Bool

/-- The identity as `str` writes it. -/
def uuidString (id : Uuid) : UUID := .ofList (id.text.map Char.ofNat)

namespace Database

variable {H : Type} (db : Database H)

/-- The tenant of an identity. -/
def tenant (id : Uuid) : Option TenantRow := lookup TenantRow.id id db.tenants

/-- The credential of an identity. -/
def credential (id : Uuid) : Option (CredentialRow H) := lookup CredentialRow.id id db.credentials

end Database

/-! ### Requests -/

/-- `HTTPException`. -/
structure HttpError where
  status : ℕ
  detail : String
  deriving DecidableEq, Repr

/-- `_unauthorized`. -/
def unauthorized (detail : String) : HttpError := ⟨401, detail⟩

/-- `OperatorIdentity`. -/
structure OperatorIdentity where
  tenantId : Uuid
  actorId : Uuid
  scopes : Finset String
  roles : Finset String
  credentialId : Option Uuid
  authenticationMethod : String
  deriving DecidableEq

/-- `OperatorIdentity.require_scope`. -/
def OperatorIdentity.requireScope (identity : OperatorIdentity) (scope : CredentialScope) :
    Except HttpError Unit :=
  if "*" ∉ identity.scopes ∧ scope.value ∉ identity.scopes then
    .error ⟨403, s!"credential lacks required scope: {scope.value}"⟩
  else .ok ()

/-- `OperatorIdentity.has_role`. -/
def OperatorIdentity.hasRole (identity : OperatorIdentity) (role : String) : Bool :=
  "*" ∈ identity.roles ∨ role ∈ identity.roles

/-- The dependency of a route: `require_operator_identity`, with the scope that the route requires
of it, or `require_event_ingress_identity`. -/
inductive Entry where
  | operator (scope : Option CredentialScope)
  | eventIngress
  deriving DecidableEq, Repr

/-- `require_process_reader`. -/
def requireProcessReader : Entry := .operator (some .processesRead)

/-- `require_review_reader`. -/
def requireReviewReader : Entry := .operator (some .reviewsRead)

/-- A request, with the headers that authentication reads. -/
structure Request where
  entry : Entry
  authorization : Option PyString
  tenantHeader : Option PyString
  actorHeader : Option PyString
  deriving DecidableEq, Repr

/-- `str.lower` of a letter of ASCII; no other letter becomes one of `bearer`. -/
def lowerLetter (c : ℕ) : ℕ := if 65 ≤ c ∧ c ≤ 90 then c + 32 else c

/-- The token of a header: what follows its first space. -/
def bearerToken (authorization : PyString) : Option PyString :=
  let scheme := authorization.takeWhile (· ≠ 32)
  match authorization.dropWhile (· ≠ 32) with
  | [] => none
  | _ :: token =>
      if scheme.map lowerLetter ≠ codePoints "bearer" ∨ token = [] ∨ 32 ∈ token then none
      else some token

/-- What `_authenticate_bearer` reads of the header. -/
def presentedCredential (C : Characters) (authorization : PyString) :
    Except HttpError ParsedCredential :=
  match bearerToken authorization with
  | none => .error (unauthorized "bearer credential is malformed")
  | some token =>
      match parseCredential C token with
      | .error _ => .error (unauthorized "bearer credential is invalid")
      | .ok presented => .ok presented

section

variable {H : Type} [DecidableEq H] (D : Deployment H)

/-- The row that `_authenticate_bearer` reads: the credential, with the status of its tenant. -/
def Database.bearerRow {H : Type} (db : Database H) (presented : ParsedCredential) :
    Option (CredentialRow H × Tenancy.TenantStatus) :=
  ((db.credential presented.credentialId).filter fun c => c.tenantId = presented.tenantId).bind
    fun c => (db.tenant c.tenantId).map fun t => (c, t.status)

/-- What `_authenticate_bearer` finds for a credential. -/
def checkBearer (db : Database H) (presented : ParsedCredential) (now : Time) :
    Except HttpError OperatorIdentity :=
  let row := db.bearerRow presented
  let expectedHash := (row.map fun r => r.1.secretHash).getD D.dummySecretHash
  let secretValid := credentialSecretMatches D.sha256 presented.secret expectedHash
  match row with
  | none => .error (unauthorized "bearer credential is invalid")
  | some (c, status) =>
      if !secretValid then .error (unauthorized "bearer credential is invalid")
      else if c.status ≠ .active then .error (unauthorized "bearer credential is inactive")
      else if c.expiresAt.any (· ≤ now) then .error (unauthorized "bearer credential has expired")
      else if status ≠ .active then .error ⟨403, "tenant is suspended"⟩
      else
        .ok {
          tenantId := c.tenantId
          actorId := c.actorId
          scopes := c.scopes.toFinset
          roles := c.roles.toFinset
          credentialId := some c.id
          authenticationMethod := "tenant_bearer" }

/-- The headers of development are read. -/
def Settings.unsafeHeaders (s : Settings) : Bool :=
  s.environment = .development && s.allowUnsafeDevelopmentTenantHeader

/-- The identity of the headers of development. -/
def unsafeIdentity (tenantId actorId : Uuid) (roles : Finset String) : OperatorIdentity where
  tenantId := tenantId
  actorId := actorId
  scopes := {"*"}
  roles := roles
  credentialId := none
  authenticationMethod := "unsafe_development_headers"

/-- What a request without a credential is told. -/
def Request.withoutBearer (r : Request) : Except HttpError OperatorIdentity :=
  match r.entry with
  | .operator _ =>
      if D.settings.unsafeHeaders then
        match r.tenantHeader, r.actorHeader with
        | some tenantHeader, some actorHeader =>
            match parseUuid D.characters tenantHeader, parseUuid D.characters actorHeader with
            | some tenantId, some actorId => .ok (unsafeIdentity tenantId actorId {"*"})
            | _, _ => .error ⟨400, "operator identity headers must be UUIDs"⟩
        | _, _ => .error ⟨400, "X-Tiramisu-Tenant-ID and X-Tiramisu-Actor-ID are required"⟩
      else if r.tenantHeader.isSome ∨ r.actorHeader.isSome then
        .error ⟨403, "development identity headers are disabled"⟩
      else .error (unauthorized "bearer credential is required")
  | .eventIngress =>
      if D.settings.unsafeHeaders then
        match r.tenantHeader with
        | some tenantHeader =>
            match parseUuid D.characters tenantHeader with
            | some tenantId => .ok (unsafeIdentity tenantId ⟨0, by decide⟩ ∅)
            | none => .error ⟨400, "X-Tiramisu-Tenant-ID must be a UUID"⟩
        | none => .error ⟨400, "X-Tiramisu-Tenant-ID is required"⟩
      else if r.tenantHeader.isSome then
        .error ⟨403, "development identity headers are disabled"⟩
      else .error (unauthorized "bearer credential is required")

/-- `_require_deployment_assignment`, with `require_tenant_deployment`. -/
def requireDeploymentAssignment (db : Database H) (identity : OperatorIdentity) :
    Except HttpError Unit :=
  match D.release with
  | none => .ok ()
  | some deploymentId =>
      if identity.tenantId ∉ D.tenantIds then
        .error ⟨403, "tenant is not in this deployment's allow-list"⟩
      else if (db.tenant identity.tenantId).map TenantRow.deploymentId = some deploymentId then
        .ok ()
      else .error ⟨403, "tenant is not assigned to this deployment"⟩

/-- What an identity still has to pass: `require_event_ingress_identity` asks for the scope before
the deployment, the other routes after it. -/
def authorise (db : Database H) (entry : Entry) (identity : OperatorIdentity) :
    Except HttpError Unit :=
  match entry with
  | .eventIngress => do
      identity.requireScope .eventsIngest
      requireDeploymentAssignment D db identity
  | .operator scope => do
      requireDeploymentAssignment D db identity
      match scope with
      | none => .ok ()
      | some scope => identity.requireScope scope

end

/-! ### Calls -/

/-- The arguments of `TenantProvisioningService.create`. -/
structure CreateInput where
  slug : String
  name : String
  tenantId : Option Uuid := none
  deriving DecidableEq

/-- The arguments of `TenantCredentialService.issue`. -/
structure IssueInput where
  tenantId : Uuid
  actorId : Uuid
  name : String
  scopes : List CredentialScope
  roles : List String := []
  expiresAt : Option Time := none
  deriving DecidableEq

/-- The arguments of `TenantCredentialService.revoke`. -/
structure RevokeInput where
  tenantId : Uuid
  credentialId : Uuid
  actorId : Uuid
  deriving DecidableEq

/-- The arguments of `TenantSafetyService.set_status`. -/
structure SetStatusInput where
  tenantId : Uuid
  actorId : Uuid
  newStatus : Tenancy.TenantStatus
  reason : String
  deriving DecidableEq

/-- The arguments of `TenantDeploymentService.assign`. -/
structure AssignInput where
  tenantId : Uuid
  actorId : Uuid
  deploymentId : String
  reason : String
  deriving DecidableEq

/-- `_normalize_tenant_values`; the pattern of a slug is that of a deployment. -/
def normalizeTenantValues (slug name : String) : Except String (String × String) := do
  let normalizedSlug := String.ofList ((strip slug).toList.map Tenancy.lowerChar)
  let normalizedName := strip name
  requireThat (Tenancy.isDeploymentId normalizedSlug)
    ("tenant slug must contain 1 to 63 lowercase letters, digits, or hyphens, " ++
      "starting with a letter")
  requireThat (normalizedName ≠ "" ∧ normalizedName.length ≤ 255)
    "tenant name must contain 1 to 255 characters"
  return (normalizedSlug, normalizedName)

/-- `_ROLE_PATTERN`. -/
def isRole (role : String) : Bool :=
  match role.toList with
  | [] => false
  | c :: rest =>
      c.isLower && rest.all (fun c => c.isLower || c.isDigit || c ∈ ['_', '.', ':', '-']) &&
        rest.length ≤ 99

/-- The checks of `issue` on its arguments, with the name and the roles it stores. -/
def IssueInput.check (c : IssueInput) (now : Time) : Except String (String × List String) := do
  let normalizedName := strip c.name
  let normalizedRoles := c.roles.map strip
  requireThat (normalizedName ≠ "" ∧ normalizedName.length ≤ 255)
    "credential name must contain 1 to 255 characters"
  requireThat (c.scopes ≠ []) "credential requires at least one scope"
  requireThat c.scopes.Nodup "credential scopes must be unique"
  requireThat normalizedRoles.Nodup "credential roles must be unique"
  requireThat (normalizedRoles.all isRole) "credential role has an invalid identifier"
  requireThat (!c.expiresAt.any (· ≤ now)) "credential expiry must be in the future"
  return (normalizedName, normalizedRoles)

/-- The checks of `set_status` on its arguments, with the reason it stores. -/
def SetStatusInput.check (c : SetStatusInput) : Except String String := do
  requireThat (strip c.reason ≠ "") "a safety transition requires a reason"
  requireThat ((strip c.reason).length ≤ 10000) "safety transition reason is too long"
  return strip c.reason

/-- The checks of `assign` on its arguments, with the deployment and the reason it stores. -/
def AssignInput.check (c : AssignInput) : Except String (String × String) :=
  Tenancy.AssignInput.check ⟨c.deploymentId, uuidString c.actorId, c.reason⟩

/-- `LOCAL_DEVELOPMENT_TENANT_ID`. -/
def localDevelopmentTenantId : Uuid := ⟨1, by decide⟩

/-- What `ensure_local_development_tenant` creates. -/
def localDevelopmentTenant : CreateInput :=
  ⟨"local-fictional", "Local Fictional Tenant", some localDevelopmentTenantId⟩

/-- The calls. -/
inductive Call where
  | create (c : CreateInput)
  | ensureLocal
  | issue (c : IssueInput)
  | revoke (c : RevokeInput)
  | setStatus (c : SetStatusInput)
  | assign (c : AssignInput)
  | request (r : Request)
  deriving DecidableEq

/-- How a call ends. -/
inductive Outcome (H : Type) where
  | provisioned (tenant : TenantRow) (created : Bool)
  | issued (credential : IssuedCredential H)
  | revoked (credentialId : Uuid) (revokedAt : Time)
  | switched (previousStatus newStatus : Tenancy.TenantStatus)
  | assigned (previousDeploymentId deploymentId : String) (changed : Bool)
  | granted (identity : OperatorIdentity)
  | refused (error : HttpError)
  | raised (message : String)
  deriving DecidableEq

/-- Where the creation of a tenant stands. -/
inductive Creating where
  | opening
  | finding (tenantId : Uuid) (slug name : String)
  | inserting (tenantId : Uuid) (slug name : String)
  | inserted (tenant : TenantRow)
  deriving DecidableEq

/-- Where the issue of a credential stands. -/
inductive Issuing (H : Type) where
  | opening
  | reading (name : String) (roles : List String)
  | inserting (name : String) (roles : List String)
  | inserted (issued : IssuedCredential H) (credential : CredentialRow H)
  deriving DecidableEq

/-- Where a revocation stands. -/
inductive Revoking (H : Type) where
  | opening
  | held (credential : CredentialRow H)
  | marked (credential : CredentialRow H) (revokedAt : Time)
  deriving DecidableEq

/-- Where a safety transition stands. -/
inductive Switching where
  | opening
  | held (reason : String) (tenant : TenantRow)
  deriving DecidableEq

/-- Where an assignment stands. -/
inductive Assigning where
  | opening
  | locked (target reason : String)
  | held (target reason : String) (tenant : TenantRow)
  | counted (target reason : String) (tenant : TenantRow)
  | cleared (target reason : String) (tenant : TenantRow)
  deriving DecidableEq

/-- Where a request stands. -/
inductive Requesting where
  | opening
  | presenting (presented : ParsedCredential)
  | identified (identity : OperatorIdentity)
  deriving DecidableEq

/-- Where a call stands. -/
inductive Stage (H : Type) where
  | idle
  | ended (outcome : Outcome H)
  | ensuring
  | creating (c : CreateInput) (k : Creating)
  | issuing (c : IssueInput) (k : Issuing H)
  | revoking (c : RevokeInput) (k : Revoking H)
  | switching (c : SetStatusInput) (k : Switching)
  | assigning (c : AssignInput) (k : Assigning)
  | requesting (r : Request) (k : Requesting)
  deriving DecidableEq

/-- What a statement is told. -/
inductive Answer where
  | go
  | time (now : Time)
  | identity (id : Uuid)
  | credential (id : Uuid) (entropy : Entropy)
  | count (n : ℕ)

/-- What happens to a call. -/
inductive CallInput where
  | call (c : Call)
  | crash
  | answer (x : Answer)

/-- What is observed: the commits of the control plane, what a request is told of a credential, and
the identity it is granted. -/
inductive AccessEvent (H : Type) where
  | created (tenant : TenantRow)
  | issued (credential : CredentialRow H)
  | revoked (credentialId : Uuid) (revokedAt : Time) (actorId : Uuid)
  | switched (event : SafetyEventRow)
  | moved (event : DeploymentEventRow)
  | checked (presented : ParsedCredential) (now : Time) (result : Except HttpError OperatorIdentity)
  | granted (request : Request) (identity : OperatorIdentity)

section

variable {H : Type}

/-- The call is over, or there is none. -/
def Stage.resting : Stage H → Bool
  | .idle | .ended _ => true
  | _ => false

/-- The first stage of a call. -/
def Call.start : Call → Stage H
  | .create c => .creating c .opening
  | .ensureLocal => .ensuring
  | .issue c => .issuing c .opening
  | .revoke c => .revoking c .opening
  | .setStatus c => .switching c .opening
  | .assign c => .assigning c .opening
  | .request r => .requesting r .opening

/-- The stage after a statement, the committed database and what is observed. -/
abbrev Effect (H : Type) := Option (Stage H × Database H × List (AccessEvent H))

/-- A statement that commits nothing. -/
def Stage.keep (t : Stage H) (db : Database H) : Effect H := some (t, db, [])

/-- A call ends. -/
def Stage.stop (o : Outcome H) (db : Database H) : Effect H := (Stage.ended o).keep db

variable (D : Deployment H)

/-- The rows of a tenant are visible to the control plane, in the context of a tenant. -/
def Deployment.sees (context owner : Uuid) : Bool := D.exempt || context = owner

/-- `_find_existing`: the first row that is visible. -/
def findExisting (db : Database H) (tenantId : Uuid) (slug : String) : Option TenantRow :=
  db.tenants.find? fun t => D.sees tenantId t.id && (t.slug = slug || t.id = tenantId)

/-- `create`. -/
def Creating.statement (c : CreateInput) : Creating → Answer → Database H → Effect H
  | .opening, .identity id, db =>
      match normalizeTenantValues c.slug c.name with
      | .error message => Stage.stop (.raised message) db
      | .ok (slug, name) =>
          (Stage.creating c (.finding (c.tenantId.getD id) slug name)).keep db
  | .finding tenantId slug name, .go, db =>
      match findExisting D db tenantId slug with
      | some existing =>
          Stage.stop (.raised (s!"tenant already exists with ID {uuidString existing.id} " ++
            s!"or slug '{existing.slug}'")) db
      | none => (Stage.creating c (.inserting tenantId slug name)).keep db
  | .inserting tenantId slug name, .go, db =>
      if db.tenants.any fun t => t.id = tenantId || t.slug = slug then
        Stage.stop (.raised "tenant already exists with this ID or slug") db
      else (Stage.creating c (.inserted { id := tenantId, slug := slug, name := name })).keep db
  | .inserted tenant, .go, db =>
      some (.ended (.provisioned tenant true), { db with tenants := db.tenants ++ [tenant] },
        [.created tenant])
  | _, _, _ => none

/-- `ensure_local_development_tenant`. -/
def ensureStatement (x : Answer) (db : Database H) : Effect H :=
  match x with
  | .go =>
      match findExisting D db localDevelopmentTenantId localDevelopmentTenant.slug with
      | some existing =>
          if existing.id ≠ localDevelopmentTenantId ∨ existing.slug ≠ localDevelopmentTenant.slug ∨
              existing.name ≠ localDevelopmentTenant.name then
            Stage.stop (.raised ("the local-development tenant ID or slug is already assigned " ++
              "to a different tenant; choose a separate database or resolve the conflict " ++
              "explicitly")) db
          else Stage.stop (.provisioned existing false) db
      | none => (Stage.creating localDevelopmentTenant .opening).keep db
  | _ => none

/-- The row that `issue` stores. -/
def IssueInput.row (c : IssueInput) (name : String) (roles : List String)
    (issued : IssuedCredential H) : CredentialRow H where
  id := issued.credentialId
  tenantId := c.tenantId
  actorId := c.actorId
  name := name
  secretHash := issued.secretHash
  scopes := c.scopes.map CredentialScope.value
  roles := roles
  expiresAt := c.expiresAt
  status := .active
  revokedAt := none
  revokedByActorId := none
  consistent := .inl ⟨rfl, rfl, rfl⟩

/-- `issue`. -/
def Issuing.statement (c : IssueInput) : Issuing H → Answer → Database H → Effect H
  | .opening, .time now, db =>
      match c.check now with
      | .error message => Stage.stop (.raised message) db
      | .ok (name, roles) => (Stage.issuing c (.reading name roles)).keep db
  | .reading name roles, .go, db =>
      match db.tenant c.tenantId with
      | none => Stage.stop (.raised (uuidString c.tenantId)) db
      | some _ => (Stage.issuing c (.inserting name roles)).keep db
  | .inserting name roles, .credential id entropy, db =>
      let issued := issueCredential D.sha256 c.tenantId c.actorId id entropy
      if (db.credential id).isSome then Stage.stop (.raised "IntegrityError") db
      else (Stage.issuing c (.inserted issued (c.row name roles issued))).keep db
  | .inserted issued credential, .go, db =>
      some (.ended (.issued issued), { db with credentials := db.credentials ++ [credential] },
        [.issued credential])
  | _, _, _ => none

/-- `revoke`. -/
def Revoking.statement (c : RevokeInput) : Revoking H → Answer → Database H → Effect H
  | .opening, .go, db =>
      match (db.credential c.credentialId).filter fun r => D.sees c.tenantId r.tenantId with
      | none => Stage.stop (.raised (uuidString c.credentialId)) db
      | some credential => (Stage.revoking c (.held credential)).keep db
  | .held credential, .time now, db =>
      if credential.status = .revoked then
        match credential.revokedAt with
        | none => Stage.stop (.raised "revoked credential is missing its audit timestamp") db
        | some revokedAt => Stage.stop (.revoked credential.id revokedAt) db
      else (Stage.revoking c (.marked credential now)).keep db
  | .marked credential revokedAt, .go, db =>
      some (.ended (.revoked credential.id revokedAt),
        { db with
          credentials := modify CredentialRow.id credential.id
            (fun r => r.revoke revokedAt c.actorId) db.credentials },
        [.revoked credential.id revokedAt c.actorId])
  | _, _, _ => none

/-- `set_status`. -/
def Switching.statement (c : SetStatusInput) : Switching → Answer → Database H → Effect H
  | .opening, .go, db =>
      match c.check with
      | .error message => Stage.stop (.raised message) db
      | .ok reason =>
          match db.tenant c.tenantId with
          | none => Stage.stop (.raised (uuidString c.tenantId)) db
          | some tenant => (Stage.switching c (.held reason tenant)).keep db
  | .held reason tenant, .go, db =>
      if tenant.status = c.newStatus then
        Stage.stop (.raised s!"tenant is already {statusValue c.newStatus}") db
      else
        let event : SafetyEventRow := ⟨tenant.id, c.actorId, tenant.status, c.newStatus, reason⟩
        some (.ended (.switched tenant.status c.newStatus),
          { db with
            tenants := modify TenantRow.id tenant.id (fun t => { t with status := c.newStatus })
              db.tenants
            safetyEvents := db.safetyEvents ++ [event] },
          [.switched event])
  | _, _, _ => none

/-- `assign`; the answers are the processes that are not over, and then the messages that are not
published. -/
def Assigning.statement (c : AssignInput) : Assigning → Answer → Database H → Effect H
  | .opening, .go, db =>
      match c.check with
      | .error message => Stage.stop (.raised message) db
      | .ok (target, reason) => (Stage.assigning c (.locked target reason)).keep db
  | .locked target reason, .go, db =>
      match db.tenant c.tenantId with
      | none => Stage.stop (.raised (uuidString c.tenantId)) db
      | some tenant =>
          if tenant.deploymentId = target then
            Stage.stop (.assigned tenant.deploymentId target false) db
          else if tenant.deploymentId = Tenancy.unassigned then
            (Stage.assigning c (.cleared target reason tenant)).keep db
          else (Stage.assigning c (.held target reason tenant)).keep db
  | .held target reason tenant, .count n, db =>
      if n = 0 then (Stage.assigning c (.counted target reason tenant)).keep db
      else
        Stage.stop (.raised ("tenant has active processes; move requires an audited " ++
          "active-instance migration or terminal completion")) db
  | .counted target reason tenant, .count n, db =>
      if n = 0 then (Stage.assigning c (.cleared target reason tenant)).keep db
      else
        Stage.stop (.raised ("tenant has outstanding deliveries for its current deployment; " ++
          "publish or explicitly resolve them before moving the tenant")) db
  | .cleared target reason tenant, .go, db =>
      let event : DeploymentEventRow := ⟨tenant.id, c.actorId, tenant.deploymentId, target, reason⟩
      some (.ended (.assigned tenant.deploymentId target true),
        { db with
          tenants := modify TenantRow.id tenant.id (fun t => { t with deploymentId := target })
            db.tenants
          deploymentEvents := db.deploymentEvents ++ [event] },
        [.moved event])
  | _, _, _ => none

/-- A request. -/
def Requesting.statement [DecidableEq H] (r : Request) :
    Requesting → Answer → Database H → Effect H
  | .opening, .go, db =>
      match r.authorization with
      | some authorization =>
          match presentedCredential D.characters authorization with
          | .error error => Stage.stop (.refused error) db
          | .ok presented => (Stage.requesting r (.presenting presented)).keep db
      | none =>
          match r.withoutBearer D with
          | .error error => Stage.stop (.refused error) db
          | .ok identity => (Stage.requesting r (.identified identity)).keep db
  | .presenting presented, .time now, db =>
      let result := checkBearer D db presented now
      match result with
      | .error error => some (.ended (.refused error), db, [.checked presented now result])
      | .ok identity =>
          some (.requesting r (.identified identity), db, [.checked presented now result])
  | .identified identity, .go, db =>
      match authorise D db r.entry identity with
      | .error error => Stage.stop (.refused error) db
      | .ok () => some (.ended (.granted identity), db, [.granted r identity])
  | _, _, _ => none

/-- The next statement of a call. -/
def Stage.statement [DecidableEq H] : Stage H → Answer → Database H → Effect H
  | .ensuring, x, db => ensureStatement D x db
  | .creating c k, x, db => k.statement D c x db
  | .issuing c k, x, db => k.statement D c x db
  | .revoking c k, x, db => k.statement D c x db
  | .switching c k, x, db => k.statement c x db
  | .assigning c k, x, db => k.statement c x db
  | .requesting r k, x, db => k.statement D r x db
  | _, _, _ => none

/-- One step of a call. -/
def next [DecidableEq H] (t : Stage H) : CallInput → Database H → Effect H
  | .call c, db => if t.resting then c.start.keep db else none
  | .crash, db => Stage.idle.keep db
  | .answer x, db => t.statement D x db

/-! ### Locks -/

/-- The locks: the keys of rows that are not committed yet, on a tenant, on a credential, and on the
deployment of a tenant. -/
inductive AccessLock where
  | tenantKey (id : Uuid)
  | slugKey (slug : String)
  | credentialKey (id : Uuid)
  | tenant (id : Uuid)
  | credential (id : Uuid)
  | deployment (tenantId : Uuid)
  deriving DecidableEq

/-- The locks of a stage. -/
def Stage.locks : Stage H → List AccessLock
  | .creating _ (.inserted tenant) => [.tenantKey tenant.id, .slugKey tenant.slug]
  | .issuing _ (.inserted _ credential) => [.credentialKey credential.id]
  | .revoking _ (.held credential) | .revoking _ (.marked credential _) =>
      [.credential credential.id]
  | .switching _ (.held _ tenant) => [.tenant tenant.id]
  | .assigning c (.locked _ _) => [.deployment c.tenantId]
  | .assigning c (.held _ _ tenant) | .assigning c (.counted _ _ tenant)
  | .assigning c (.cleared _ _ tenant) => [.deployment c.tenantId, .tenant tenant.id]
  | _ => []

/-- The code of the calls. -/
def accessCalls [DecidableEq H] :
    Transactions.Code (Database H) (Stage H) CallInput (AccessEvent H) AccessLock where
  next := next D
  locks := Stage.locks

end

end TiramisuAgents.Security
