import UniversalAgent.Security.Principal
import UniversalAgent.Foundation.Machine
import UniversalAgent.Foundation.Table

/-!
# Security — Credentials

`InMemoryCredentialStore` (`security/credentials.py`): users, tenants, the memberships that give
a user a role in a tenant, and the credentials issued for them. A token is kept as its hash; its
credential is found under the hash and, to revoke it, under its own id.

`secrets` and SHA-256 are parameters: what is drawn is fresh, and the hash is one to one. Moments
(`created_at`, and the value of `revoked_at`) are left out, since nothing is decided by them.
-/

namespace UniversalAgent.Security

open UniversalAgent.Core UniversalAgent.Foundation

/-! ## Records -/

/-- `PrincipalAlreadyExistsError`, `PrincipalNotFoundError`, and the `ValueError` of a record that
does not pass its own check. -/
inductive PrincipalError where
  | alreadyExists (message : String)
  | notFound (message : String)
  | invalid (message : String)
  | keyError (column : String)
  | database (message : String)
deriving DecidableEq

structure UserAccount where
  userId : String
  email : String
  displayName : Option String
  status : UserAccountStatus
deriving DecidableEq

structure Credential where
  credentialId : String
  tenantId : String
  userId : String
  tokenHash : String
  scope : Scope
  role : Role
  revoked : Bool
deriving DecidableEq

def Credential.active (c : Credential) : Bool := !c.revoked

structure EmailRow where
  email : String
  userId : String
deriving DecidableEq

structure Membership where
  tenantId : String
  userId : String
  role : Role
deriving DecidableEq

abbrev Membership.key (m : Membership) : String × String := (m.tenantId, m.userId)

/-- What the stores take from outside: the tokens and the credential ids of the `n`th call, and
the hash of a token. -/
structure Secrets where
  token : Nat → String
  credentialId : Nat → String
  hashCredential : String → String
  token_injective : Function.Injective token
  credentialId_injective : Function.Injective credentialId
  hash_injective : Function.Injective hashCredential

def plainSecrets : Secrets where
  token n := "token-" ++ toString n
  credentialId n := "cred_" ++ toString n
  hashCredential := id
  token_injective _ _ h := Text.toString_injective (Text.prefix_inj h)
  credentialId_injective _ _ h := Text.toString_injective (Text.prefix_inj h)
  hash_injective := Function.injective_id

/-- `InMemoryCredentialStore`; `calls` is how often it has been called. -/
structure CredentialStore where
  users : Table UserPrincipal.userId
  emails : Table EmailRow.email
  emailByUser : Table EmailRow.userId
  tenants : Table Tenant.tenantId
  memberships : Table Membership.key
  byHash : Table Credential.tokenHash
  byId : Table Credential.credentialId
  calls : Nat

/-! ## Calls and answers -/

inductive CredentialCall where
  | createTenant (tenantId name : String)
  | createUser (userId email : String) (displayName : Option String)
  | setRole (tenantId userId : String) (role : Role)
  | issueCredential (userId tenantId : String) (role : Role)
  | revokeCredential (credentialId : String)
  | removeMember (tenantId userId : String)
  | setUserStatus (userId : String) (status : UserAccountStatus)
  | setTenantStatus (tenantId : String) (status : TenantStatus)
  | resolve (rawToken : String)
deriving DecidableEq

/-- The calls of the in-memory store; `revoke` is what `revoke_credential` calls. -/
inductive AdminCall where
  | store (call : CredentialCall)
  | issue (userId tenantId : String) (role : Role) (scope : Option Scope)
      (displayName tenantName : Option String)
  | registerUser (principal : UserPrincipal)
  | registerTenant (tenant : Tenant)
deriving DecidableEq

inductive CredentialAnswer where
  | raised (error : PrincipalError)
  | done
  | tenant (tenant : Tenant)
  | user (user : UserPrincipal)
  | account (account : UserAccount)
  | issued (rawToken : String) (credential : Credential)
  | flag (result : Bool)
  | resolved (principal : Option RequestPrincipal)
deriving DecidableEq

namespace CredentialStore

def empty : CredentialStore := ⟨.empty, .empty, .empty, .empty, .empty, .empty, .empty, 0⟩

def createTenant (s : CredentialStore) (tenantId name : String) :
    CredentialAnswer × CredentialStore :=
  match s.tenants.get? tenantId with
  | some _ => (.raised (.alreadyExists ("tenant already exists: " ++ tenantId)), s)
  | none =>
    match Tenant.make tenantId name .active with
    | .error message => (.raised (.invalid message), s)
    | .ok tenant => (.tenant tenant, { s with tenants := s.tenants.put tenant })

def createUser (s : CredentialStore) (userId email : String) (displayName : Option String) :
    CredentialAnswer × CredentialStore :=
  match s.users.get? userId with
  | some _ => (.raised (.alreadyExists ("user already exists: " ++ userId)), s)
  | none =>
    match s.emails.get? email with
    | some _ => (.raised (.alreadyExists ("user email already exists: " ++ email)), s)
    | none =>
      match UserPrincipal.make userId displayName .active with
      | .error message => (.raised (.invalid message), s)
      | .ok principal =>
        (.user principal,
          { s with
            users := s.users.put principal
            emails := s.emails.put ⟨email, userId⟩
            emailByUser := s.emailByUser.put ⟨email, userId⟩ })

/-- The checks that `set_role`, `issue_credential` and `remove_member` make first. -/
def missingPrincipal? (s : CredentialStore) (tenantId userId : String) : Option PrincipalError :=
  if s.tenants.get? tenantId = none then some (.notFound ("tenant not found: " ++ tenantId))
  else if s.users.get? userId = none then some (.notFound ("user not found: " ++ userId))
  else none

def setRole (s : CredentialStore) (tenantId userId : String) (role : Role) :
    CredentialAnswer × CredentialStore :=
  match s.missingPrincipal? tenantId userId with
  | some error => (.raised error, s)
  | none => (.done, { s with memberships := s.memberships.put ⟨tenantId, userId, role⟩ })

def ensureUser (s : CredentialStore) (userId : String) (displayName : Option String) :
    Except String CredentialStore :=
  match s.users.get? userId with
  | some _ => .ok s
  | none =>
    match UserPrincipal.make userId displayName .active with
    | .error message => .error message
    | .ok principal => .ok { s with users := s.users.put principal }

def ensureTenant (s : CredentialStore) (tenantId : String) (name : Option String) :
    Except String CredentialStore :=
  match s.tenants.get? tenantId with
  | some _ => .ok s
  | none =>
    let nameOrId := match name with
      | some n => if n = "" then tenantId else n
      | none => tenantId
    match Tenant.make tenantId nameOrId .active with
    | .error message => .error message
    | .ok tenant => .ok { s with tenants := s.tenants.put tenant }

def newCredential (secrets : Secrets) (calls : Nat) (tenantId userId : String) (role : Role)
    (scope : Option Scope) : Credential where
  credentialId := secrets.credentialId calls
  tenantId := tenantId
  userId := userId
  tokenHash := secrets.hashCredential (secrets.token calls)
  scope := scope.getD (roleScope role)
  role := role
  revoked := false

/-- `issue`: unknown users and tenants are registered, and the membership gets the role. -/
def issue (secrets : Secrets) (s : CredentialStore) (userId tenantId : String) (role : Role)
    (scope : Option Scope) (displayName tenantName : Option String) :
    CredentialAnswer × CredentialStore :=
  match s.ensureUser userId displayName with
  | .error message => (.raised (.invalid message), s)
  | .ok s₁ =>
    match s₁.ensureTenant tenantId tenantName with
    | .error message => (.raised (.invalid message), s₁)
    | .ok s₂ =>
      let credential := newCredential secrets s.calls tenantId userId role scope
      (.issued (secrets.token s.calls) credential,
        { s₂ with
          byHash := s₂.byHash.put credential
          byId := s₂.byId.put credential
          memberships := s₂.memberships.put ⟨tenantId, userId, role⟩ })

def issueCredential (secrets : Secrets) (s : CredentialStore) (userId tenantId : String)
    (role : Role) : CredentialAnswer × CredentialStore :=
  match s.missingPrincipal? tenantId userId with
  | some error => (.raised error, s)
  | none => s.issue secrets userId tenantId role none none none

/-- `revoke`, which answers `True` for a credential that is revoked already. -/
def revoke (s : CredentialStore) (credentialId : String) : CredentialAnswer × CredentialStore :=
  match s.byId.get? credentialId with
  | none => (.flag false, s)
  | some credential =>
    let revoked := { credential with revoked := true }
    (.flag true, { s with byId := s.byId.put revoked, byHash := s.byHash.put revoked })

def removeMember (s : CredentialStore) (tenantId userId : String) :
    CredentialAnswer × CredentialStore :=
  match s.missingPrincipal? tenantId userId with
  | some error => (.raised error, s)
  | none =>
    (.flag (s.memberships.get? (tenantId, userId)).isSome,
      { s with memberships := s.memberships.erase (tenantId, userId) })

def setUserStatus (s : CredentialStore) (userId : String) (status : UserAccountStatus) :
    CredentialAnswer × CredentialStore :=
  match s.users.get? userId with
  | none => (.raised (.notFound ("user not found: " ++ userId)), s)
  | some principal =>
    let email := ((s.emailByUser.get? userId).map EmailRow.email).getD ""
    (.account ⟨userId, email, principal.displayName, status⟩,
      { s with users := s.users.put { principal with status := status } })

def setTenantStatus (s : CredentialStore) (tenantId : String) (status : TenantStatus) :
    CredentialAnswer × CredentialStore :=
  match s.tenants.get? tenantId with
  | none => (.raised (.notFound ("tenant not found: " ++ tenantId)), s)
  | some tenant =>
    let updated := { tenant with status := status }
    (.tenant updated, { s with tenants := s.tenants.put updated })

def registerUser (s : CredentialStore) (principal : UserPrincipal) :
    CredentialAnswer × CredentialStore :=
  (.done, { s with users := s.users.put principal })

def registerTenant (s : CredentialStore) (tenant : Tenant) : CredentialAnswer × CredentialStore :=
  (.done, { s with tenants := s.tenants.put tenant })

def resolve (secrets : Secrets) (s : CredentialStore) (rawToken : String) :
    Option RequestPrincipal :=
  match s.byHash.get? (secrets.hashCredential rawToken) with
  | none => none
  | some credential =>
    if !credential.active then none
    else
      match s.users.get? credential.userId with
      | none => none
      | some user =>
        if user.status = .disabled then none
        else
          match s.tenants.get? credential.tenantId with
          | none => none
          | some tenant =>
            if tenant.status = .disabled then none
            else
              match s.memberships.get? (credential.tenantId, credential.userId) with
              | none => none
              | some m => some ⟨user, tenant, m.role, roleScope m.role⟩

def call (secrets : Secrets) (s : CredentialStore) : AdminCall → CredentialAnswer × CredentialStore
  | .store (.createTenant tenantId name) => s.createTenant tenantId name
  | .store (.createUser userId email displayName) => s.createUser userId email displayName
  | .store (.setRole tenantId userId role) => s.setRole tenantId userId role
  | .store (.issueCredential userId tenantId role) =>
    s.issueCredential secrets userId tenantId role
  | .store (.revokeCredential credentialId) => s.revoke credentialId
  | .store (.removeMember tenantId userId) => s.removeMember tenantId userId
  | .store (.setUserStatus userId status) => s.setUserStatus userId status
  | .store (.setTenantStatus tenantId status) => s.setTenantStatus tenantId status
  | .store (.resolve rawToken) => (.resolved (s.resolve secrets rawToken), s)
  | .issue userId tenantId role scope displayName tenantName =>
    s.issue secrets userId tenantId role scope displayName tenantName
  | .registerUser principal => s.registerUser principal
  | .registerTenant tenant => s.registerTenant tenant

end CredentialStore

def credentialMachine (secrets : Secrets) :
    Machine CredentialStore AdminCall CredentialAnswer where
  init := .empty
  step s call :=
    let r := s.call secrets call
    (r.1, { r.2 with calls := s.calls + 1 })

/-- Past the guard, the tenant and the user are there. -/
theorem missingPrincipal?_eq_none {s : CredentialStore} {tenantId userId : String}
    (h : s.missingPrincipal? tenantId userId = none) :
    (∃ t, s.tenants.get? tenantId = some t) ∧ ∃ u, s.users.get? userId = some u := by
  unfold CredentialStore.missingPrincipal? at h
  split at h
  · cases h
  · next ht =>
      split at h
      · cases h
      · next hu => exact ⟨Option.ne_none_iff_exists'.mp ht, Option.ne_none_iff_exists'.mp hu⟩

end UniversalAgent.Security
