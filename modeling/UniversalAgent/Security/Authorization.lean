import UniversalAgent.Foundation.CaseMapping
import UniversalAgent.Security.Principal

/-!
# Security — Authorization

The decision on a request of a resolved principal (`security/authorization.py`): every role may read,
a writing method needs a scope that writes.
-/

namespace UniversalAgent.Security

open UniversalAgent.Core UniversalAgent.Foundation

abbrev RequestPrincipal.tenantId (principal : RequestPrincipal) : String := principal.tenant.tenantId

abbrev RequestPrincipal.subject (principal : RequestPrincipal) : String := principal.user.userId

structure AuthorizationDecision where
  allowed : Bool
  reason : Option String
  message : Option String
deriving DecidableEq

def readMethods : List String := ["GET", "HEAD", "OPTIONS"]

def methodIsRead (casing : CaseMapping) (method : String) : Bool :=
  decide (casing.upper method ∈ readMethods)

def authorizeRequest (casing : CaseMapping) (principal : RequestPrincipal) (method : String) :
    AuthorizationDecision :=
  if methodIsRead casing method then ⟨true, none, none⟩
  else if principal.scope = .readWrite then ⟨true, none, none⟩
  else ⟨false, some "rbac", some ("subject " ++ principal.subject ++ " has " ++
    StrEnum.value principal.scope ++ " scope; mutating operations require read_write")⟩

def authorizeTenant (principal : RequestPrincipal) (expectedTenantId : String) :
    AuthorizationDecision :=
  if principal.tenantId = expectedTenantId then ⟨true, none, none⟩
  else ⟨false, some "cross_tenant", some ("subject " ++ principal.subject ++ " belongs to tenant " ++
    principal.tenantId ++ ", not the request tenant " ++ expectedTenantId)⟩

theorem authorizeRequest_allowed {casing : CaseMapping} {principal : RequestPrincipal}
    {method : String} :
    (authorizeRequest casing principal method).allowed = true ↔
      methodIsRead casing method = true ∨ principal.scope = .readWrite := by
  unfold authorizeRequest
  split
  · next hread => exact iff_of_true rfl (.inl hread)
  · next hread =>
      split
      · next hscope => exact iff_of_true rfl (.inr hscope)
      · next hscope =>
          refine iff_of_false (by simp) ?_
          rintro (h | h)
          · exact hread h
          · exact hscope h

end UniversalAgent.Security
