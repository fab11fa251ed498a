import UniversalAgent.Core.Models

/-!
# Security — Principal

The identities of the multi-tenant deployment (`security/principal.py`) and the scope of a role
(`security/authorization.py`). What `__post_init__` checks of a tenant and of a user is a field.
-/

namespace UniversalAgent.Security

open UniversalAgent.Core UniversalAgent.Foundation

inductive TenantStatus where
  | active | disabled
deriving DecidableEq, Repr

inductive UserAccountStatus where
  | active | disabled
deriving DecidableEq, Repr

inductive Role where
  | admin | operator | readOnly
deriving DecidableEq, Repr

inductive Scope where
  | readWrite | readOnly
deriving DecidableEq, Repr

instance : StrEnum TenantStatus where
  value
    | .active => "active" | .disabled => "disabled"
  members := [.active, .disabled]
  mem_members a := by cases a <;> simp
  value_injective a b := by cases a <;> cases b <;> simp

instance : StrEnum UserAccountStatus where
  value
    | .active => "active" | .disabled => "disabled"
  members := [.active, .disabled]
  mem_members a := by cases a <;> simp
  value_injective a b := by cases a <;> cases b <;> simp

instance : StrEnum Role where
  value
    | .admin => "admin" | .operator => "operator" | .readOnly => "read_only"
  members := [.admin, .operator, .readOnly]
  mem_members a := by cases a <;> simp
  value_injective a b := by cases a <;> cases b <;> simp

instance : StrEnum Scope where
  value
    | .readWrite => "read_write" | .readOnly => "read_only"
  members := [.readWrite, .readOnly]
  mem_members a := by cases a <;> simp
  value_injective a b := by cases a <;> cases b <;> simp

structure Tenant where
  tenantId : String
  name : String
  status : TenantStatus
  postInit : Text.isBlank tenantId = false ∧ Text.isBlank name = false
deriving DecidableEq

structure UserPrincipal where
  userId : String
  displayName : Option String
  status : UserAccountStatus
  postInit : Text.isBlank userId = false ∧ ∀ d ∈ displayName, Text.isBlank d = false
deriving DecidableEq

structure RequestPrincipal where
  user : UserPrincipal
  tenant : Tenant
  role : Role
  scope : Scope
deriving DecidableEq

/-- `Tenant(...)`, with the text of the `ValueError` it may raise. -/
def Tenant.make (tenantId name : String) (status : TenantStatus) : Except String Tenant :=
  if hi : Text.isBlank tenantId = false then
    if hn : Text.isBlank name = false then .ok ⟨tenantId, name, status, hi, hn⟩
    else .error "tenant name must not be empty"
  else .error "tenant_id must not be empty"

/-- `UserPrincipal(...)`. -/
def UserPrincipal.make (userId : String) (displayName : Option String)
    (status : UserAccountStatus) : Except String UserPrincipal :=
  if hi : Text.isBlank userId = false then
    if hd : ∀ d ∈ displayName, Text.isBlank d = false then
      .ok ⟨userId, displayName, status, hi, hd⟩
    else .error "display_name must not be empty"
  else .error "user_id must not be empty"

def roleScope (role : Role) : Scope :=
  if role = .admin ∨ role = .operator then .readWrite else .readOnly

theorem Tenant.make_eq_ok {tenantId name : String} {status : TenantStatus} {t : Tenant} :
    Tenant.make tenantId name status = .ok t ↔
      t.tenantId = tenantId ∧ t.name = name ∧ t.status = status := by
  unfold Tenant.make
  constructor
  · intro h
    split at h
    · split at h
      · cases h
        exact ⟨rfl, rfl, rfl⟩
      · cases h
    · cases h
  · rintro ⟨rfl, rfl, rfl⟩
    rw [dif_pos t.postInit.1, dif_pos t.postInit.2]

variable {displayName : Option String} {status : UserAccountStatus}

theorem UserPrincipal.make_eq_ok {userId : String}
    {u : UserPrincipal} :
    UserPrincipal.make userId displayName status = .ok u ↔
      u.userId = userId ∧ u.displayName = displayName ∧ u.status = status := by
  unfold UserPrincipal.make
  constructor
  · intro h
    split at h
    · split at h
      · cases h
        exact ⟨rfl, rfl, rfl⟩
      · cases h
    · cases h
  · rintro ⟨rfl, rfl, rfl⟩
    rw [dif_pos u.postInit.1, dif_pos u.postInit.2]

theorem Tenant.invalid_of_error {tenantId name message : String} {status : TenantStatus}
    (h : Tenant.make tenantId name status = .error message) :
    ¬ (Text.isBlank tenantId = false ∧ Text.isBlank name = false) := by
  rintro ⟨hi, hn⟩
  rw [Tenant.make, dif_pos hi, dif_pos hn] at h
  cases h

theorem UserPrincipal.invalid_of_error {userId message : String}
    (h : UserPrincipal.make userId displayName status = .error message) :
    ¬ (Text.isBlank userId = false ∧ ∀ d ∈ displayName, Text.isBlank d = false) := by
  rintro ⟨hi, hd⟩
  rw [UserPrincipal.make, dif_pos hi, dif_pos hd] at h
  cases h

end UniversalAgent.Security
