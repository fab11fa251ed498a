import UniversalAgent.Core.Models

/-!
# Domains — Policies

Policy rules and the engine that evaluates the policies of a domain (`policy/engine.py`).
-/

namespace UniversalAgent.Domains

open UniversalAgent.Core

structure CapabilityDefinition where
  name : String
  category : CapabilityCategory
deriving DecidableEq

structure PolicyContext where
  capability : CapabilityDefinition
  risk : RiskLevel
  target : Option String
  arguments : JsonMapping
  environment : JsonMapping
  confirmed : Bool
  goalSuccessCriteria : List SuccessCriterion

structure PolicyResult where
  effect : PolicyEffect
  reason : String
  policyName : String
deriving DecidableEq

abbrev Policy := PolicyContext → Option PolicyResult

structure PolicyRule where
  name : String
  effect : PolicyEffect
  reason : String
  capabilities : List String
  categories : List CapabilityCategory
  risks : List RiskLevel

def PolicyRule.evaluate (rule : PolicyRule) : Policy := fun context =>
  if rule.capabilities ≠ [] ∧ context.capability.name ∉ rule.capabilities then none
  else if rule.categories ≠ [] ∧ context.capability.category ∉ rule.categories then none
  else if rule.risks ≠ [] ∧ context.risk ∉ rule.risks then none
  else some ⟨rule.effect, rule.reason, rule.name⟩

def check (policies : List Policy) (context : PolicyContext) : PolicyResult :=
  let results := policies.filterMap fun policy => policy context
  match results.find? fun r => decide (r.effect = .deny) with
  | some denied => denied
  | none =>
    match results.find? fun r => decide (r.effect = .requireConfirmation) with
    | some confirmation =>
      if context.confirmed then
        ⟨.allow, "user confirmation satisfied", confirmation.policyName⟩
      else confirmation
    | none =>
      match results.find? fun r => decide (r.effect = .allow) with
      | some allowed => allowed
      | none =>
        if context.capability.category = .mutation then
          ⟨.deny, "mutation capability has no explicit allow policy", "mutation-default-deny"⟩
        else ⟨.allow, "read-only capability allowed", "read-only-default"⟩

end UniversalAgent.Domains
