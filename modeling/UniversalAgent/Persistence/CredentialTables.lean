import UniversalAgent.Security.Credentials

/-!
# Persistence — CredentialTables

`PostgresCredentialStore` (`persistence/credentials.py`) over the principal tables of
`persistence/postgres.py`. A call is one transaction: what raises inside it leaves the tables as
they were, what raises after it does not. A row has the columns its `SELECT` names.

PostgreSQL does not keep the character of code zero in a text, so a text with it cannot be bound;
tokens' hashes and credential ids are hexadecimal and have none.
-/

namespace UniversalAgent.Persistence

open UniversalAgent.Core UniversalAgent.Foundation UniversalAgent.Security

/-! ## Tables -/

/-- A row of `ua_users`. -/
structure UserRow where
  userId : String
  email : String
  displayName : Option String
  status : String
deriving DecidableEq

/-- A row of `ua_tenants`. -/
structure TenantRow where
  tenantId : String
  name : String
  status : String
deriving DecidableEq

/-- A row of `ua_tenant_memberships`. -/
structure MembershipRow where
  tenantId : String
  userId : String
  role : String
deriving DecidableEq

abbrev MembershipRow.key (m : MembershipRow) : String × String := (m.tenantId, m.userId)

/-- A row of `ua_credentials`; of `revoked_at`, whether it is set. -/
structure CredentialRow where
  credentialId : String
  tenantId : String
  userId : String
  tokenHash : String
  scope : String
  revoked : Bool
deriving DecidableEq

structure PrincipalTables where
  users : Table UserRow.userId
  tenants : Table TenantRow.tenantId
  memberships : Table MembershipRow.key
  credentials : Table CredentialRow.credentialId
  calls : Nat

/-- `_ACTIVE`. -/
def activeStatus : String := "active"

def pgText (s : String) : Bool := s.toList.all fun c => c ≠ Char.ofNat 0

def unboundText : PrincipalError :=
  .database "PostgreSQL text fields cannot contain NUL (0x00) bytes"

namespace PrincipalTables

def empty : PrincipalTables := ⟨.empty, .empty, .empty, .empty, 0⟩

/-! ## Guards -/

def requireTenant (t : PrincipalTables) (tenantId : String) : Except PrincipalError Unit :=
  if pgText tenantId = false then .error unboundText
  else if t.tenants.get? tenantId = none then .error (.notFound ("tenant not found: " ++ tenantId))
  else .ok ()

def requireMemberPrincipals (t : PrincipalTables) (tenantId userId : String) :
    Except PrincipalError Unit :=
  match t.requireTenant tenantId with
  | .error error => .error error
  | .ok () =>
    if pgText userId = false then .error unboundText
    else if t.users.get? userId = none then .error (.notFound ("user not found: " ++ userId))
    else .ok ()

/-! ## Resolution -/

/-- The row that `resolve` selects, by column. -/
def credentialJoin (t : PrincipalTables) (tokenHash : String) :
    Option (List (String × Option String)) := do
  let c ← t.credentials.rows.find? fun c => c.tokenHash = tokenHash
  let m ← t.memberships.get? (c.tenantId, c.userId)
  let user ← t.users.get? c.userId
  let tenant ← t.tenants.get? c.tenantId
  some
    [("revoked_at", if c.revoked then some "now" else none),
      ("role", some m.role),
      ("user_status", some user.status),
      ("display_name", user.displayName),
      ("tenant_status", some tenant.status),
      ("tenant_name", some tenant.name)]

/-- `mapping[column]`. -/
def column (row : List (String × Option String)) (name : String) :
    Except PrincipalError (Option String) :=
  match row.lookup name with
  | some value => .ok value
  | none => .error (.keyError name)

/-- `str(mapping[column])`. -/
def textColumn (row : List (String × Option String)) (name : String) :
    Except PrincipalError String := do
  pure ((← column row name).getD "None")

def resolve (secrets : Secrets) (t : PrincipalTables) (rawToken : String) :
    Except PrincipalError (Option RequestPrincipal) :=
  match t.credentialJoin (secrets.hashCredential rawToken) with
  | none => .ok none
  | some row => do
      let revokedAt ← column row "revoked_at"
      if revokedAt ≠ none then pure none
      else
        let userStatus ← column row "user_status"
        let tenantStatus ← column row "tenant_status"
        if userStatus ≠ some activeStatus ∨ tenantStatus ≠ some activeStatus then pure none
        else
          match StrEnum.ofValue? (α := Role) (← textColumn row "role") with
          | none => pure none
          | some role => do
              let userId ← textColumn row "user_id"
              let displayName ← column row "display_name"
              let user ← (UserPrincipal.make userId displayName .active).mapError .invalid
              let tenantId ← textColumn row "tenant_id"
              let tenantName ← textColumn row "tenant_name"
              let tenant ← (Tenant.make tenantId tenantName .active).mapError .invalid
              pure (some ⟨user, tenant, role, roleScope role⟩)

/-! ## Admin plane -/

/-- `create_tenant`: the row is committed before the record is made. -/
def createTenant (t : PrincipalTables) (tenantId name : String) :
    CredentialAnswer × PrincipalTables :=
  if pgText tenantId = false ∨ pgText name = false then (.raised unboundText, t)
  else if t.tenants.get? tenantId ≠ none then
    (.raised (.alreadyExists ("tenant already exists: " ++ tenantId)), t)
  else
    let committed := { t with tenants := t.tenants.put ⟨tenantId, name, activeStatus⟩ }
    match Tenant.make tenantId name .active with
    | .error message => (.raised (.invalid message), committed)
    | .ok tenant => (.tenant tenant, committed)

/-- `create_user`: the user id is the primary key, and emails are unique. -/
def createUser (t : PrincipalTables) (userId email : String) (displayName : Option String) :
    CredentialAnswer × PrincipalTables :=
  if pgText userId = false ∨ pgText email = false ∨ displayName.any (fun d => !pgText d) then
    (.raised unboundText, t)
  else if t.users.get? userId ≠ none ∨ (t.users.rows.any fun r => r.email = email) = true then
    (.raised (.alreadyExists ("user already exists: " ++ userId)), t)
  else
    let committed := { t with users := t.users.put ⟨userId, email, displayName, activeStatus⟩ }
    match UserPrincipal.make userId displayName .active with
    | .error message => (.raised (.invalid message), committed)
    | .ok user => (.user user, committed)

/-- `INSERT ... ON CONFLICT (tenant_id, user_id) DO UPDATE SET role`. -/
def upsertRole (t : PrincipalTables) (tenantId userId : String) (role : Role) : PrincipalTables :=
  { t with memberships := t.memberships.put ⟨tenantId, userId, StrEnum.value role⟩ }

def setRole (t : PrincipalTables) (tenantId userId : String) (role : Role) :
    CredentialAnswer × PrincipalTables :=
  match t.requireMemberPrincipals tenantId userId with
  | .error error => (.raised error, t)
  | .ok () => (.done, t.upsertRole tenantId userId role)

def issueCredential (secrets : Secrets) (t : PrincipalTables) (userId tenantId : String)
    (role : Role) : CredentialAnswer × PrincipalTables :=
  let rawToken := secrets.token t.calls
  let credentialId := secrets.credentialId t.calls
  let tokenHash := secrets.hashCredential rawToken
  match t.requireMemberPrincipals tenantId userId with
  | .error error => (.raised error, t)
  | .ok () =>
    if t.credentials.get? credentialId ≠ none ∨
        (t.credentials.rows.any fun c => c.tokenHash = tokenHash) = true then
      (.raised (.database "duplicate key value violates unique constraint"), t)
    else
      let inserted := { t with
        credentials := t.credentials.put
          ⟨credentialId, tenantId, userId, tokenHash, StrEnum.value (roleScope role), false⟩ }
      (.issued rawToken ⟨credentialId, tenantId, userId, tokenHash, roleScope role, role, false⟩,
        inserted.upsertRole tenantId userId role)

/-- `revoke_credential`: the update of an unrevoked row, and whether there was one. -/
def revokeCredential (t : PrincipalTables) (credentialId : String) :
    CredentialAnswer × PrincipalTables :=
  if pgText credentialId = false then (.raised unboundText, t)
  else
    match t.credentials.get? credentialId with
    | some c =>
      if c.revoked then (.flag false, t)
      else (.flag true, { t with credentials := t.credentials.put { c with revoked := true } })
    | none => (.flag false, t)

def removeMember (t : PrincipalTables) (tenantId userId : String) :
    CredentialAnswer × PrincipalTables :=
  match t.requireMemberPrincipals tenantId userId with
  | .error error => (.raised error, t)
  | .ok () =>
    (.flag (t.memberships.get? (tenantId, userId)).isSome,
      { t with memberships := t.memberships.erase (tenantId, userId) })

def setUserStatus (t : PrincipalTables) (userId : String) (status : UserAccountStatus) :
    CredentialAnswer × PrincipalTables :=
  if pgText userId = false then (.raised unboundText, t)
  else
    match t.users.get? userId with
    | none => (.raised (.notFound ("user not found: " ++ userId)), t)
    | some row =>
      (.account ⟨userId, row.email, row.displayName, status⟩,
        { t with users := t.users.put { row with status := StrEnum.value status } })

/-- `set_tenant_status`: the record is made after the commit. -/
def setTenantStatus (t : PrincipalTables) (tenantId : String) (status : TenantStatus) :
    CredentialAnswer × PrincipalTables :=
  if pgText tenantId = false then (.raised unboundText, t)
  else
    match t.tenants.get? tenantId with
    | none => (.raised (.notFound ("tenant not found: " ++ tenantId)), t)
    | some row =>
      let updated := { t with tenants := t.tenants.put { row with status := StrEnum.value status } }
      match Tenant.make tenantId row.name status with
      | .error message => (.raised (.invalid message), updated)
      | .ok tenant => (.tenant tenant, updated)

def call (secrets : Secrets) (t : PrincipalTables) :
    CredentialCall → CredentialAnswer × PrincipalTables
  | .createTenant tenantId name => t.createTenant tenantId name
  | .createUser userId email displayName => t.createUser userId email displayName
  | .setRole tenantId userId role => t.setRole tenantId userId role
  | .issueCredential userId tenantId role => t.issueCredential secrets userId tenantId role
  | .revokeCredential credentialId => t.revokeCredential credentialId
  | .removeMember tenantId userId => t.removeMember tenantId userId
  | .setUserStatus userId status => t.setUserStatus userId status
  | .setTenantStatus tenantId status => t.setTenantStatus tenantId status
  | .resolve rawToken =>
    match t.resolve secrets rawToken with
    | .error error => (.raised error, t)
    | .ok principal => (.resolved principal, t)

end PrincipalTables

def postgresCredentials (secrets : Secrets) :
    Machine PrincipalTables CredentialCall CredentialAnswer where
  init := .empty
  step t call :=
    let r := t.call secrets call
    (r.1, { r.2 with calls := t.calls + 1 })

def memoryCredentials (secrets : Secrets) :
    Machine CredentialStore CredentialCall CredentialAnswer where
  init := .empty
  step s call := (credentialMachine secrets).step s (.store call)

end UniversalAgent.Persistence
