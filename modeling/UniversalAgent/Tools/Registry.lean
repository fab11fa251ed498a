import UniversalAgent.Domains.Policies
import UniversalAgent.Foundation.Table

/-!
# Tools — Registry

Definitions of tools, the registries of tools and capabilities, and how a capability is resolved to the
tool that implements it (`tools/runtime.py`, `capability/registry.py`). Of a tool, its definition: what
an execution does is up to the world.
-/

namespace UniversalAgent.Tools

open UniversalAgent.Core UniversalAgent.Foundation UniversalAgent.Domains

structure ToolDefinition where
  name : String
  capabilities : List String
  requiredArguments : List String := []
  sideEffect : SideEffect := .none
  risk : RiskLevel := .low
  priority : Int := 100
  argumentSchema : JsonMapping := []
deriving DecidableEq

/-- The order of `(priority, name)`. -/
def before (p : Int) (n : String) (q : Int) (m : String) : Bool :=
  p < q || p = q && n ≤ m

/-! ## Tools -/

structure ToolRegistration where
  tool : ToolDefinition
  domainIdentity : Option DomainIdentity
deriving DecidableEq

abbrev ToolRegistration.name (r : ToolRegistration) : String := r.tool.name

inductive RegistryError where
  | emptyCapabilityName
  | duplicateCapability (name : String)
  | emptyToolName
  | noCapability (tool : String)
  | duplicateTool (name : String)
deriving DecidableEq

/-- `ToolRegistry`: the tools by name, in the order of their registration. -/
abbrev ToolRegistry := Table ToolRegistration.name

def ToolRegistry.register (registry : ToolRegistry) (tool : ToolDefinition)
    (domainIdentity : Option DomainIdentity) : Except RegistryError ToolRegistry :=
  if Text.isBlank tool.name then .error .emptyToolName
  else if tool.capabilities = [] then .error (.noCapability tool.name)
  else if (registry.get? tool.name).isSome then .error (.duplicateTool tool.name)
  else .ok (registry.put ⟨tool, domainIdentity⟩)

def ToolRegistry.registrationsForCapability (registry : ToolRegistry) (capability : String) :
    List ToolRegistration :=
  registry.rows.filter fun item => capability ∈ item.tool.capabilities

/-! ## Capabilities -/

structure CapabilityRegistration where
  definition : CapabilityDefinition
  domainIdentity : Option DomainIdentity
deriving DecidableEq

abbrev CapabilityRegistration.name (r : CapabilityRegistration) : String := r.definition.name

abbrev CapabilityRegistry := Table CapabilityRegistration.name

def CapabilityRegistry.register (registry : CapabilityRegistry) (capability : CapabilityDefinition)
    (domainIdentity : Option DomainIdentity) : Except RegistryError CapabilityRegistry :=
  if Text.isBlank capability.name then .error .emptyCapabilityName
  else if (registry.get? capability.name).isSome then .error (.duplicateCapability capability.name)
  else .ok (registry.put ⟨capability, domainIdentity⟩)

/-! ## Resolution -/

/-- The first of the registrations with the least priority and name. -/
def preferred : List ToolRegistration → Option ToolRegistration
  | [] => none
  | item :: items =>
    match preferred items with
    | none => some item
    | some best =>
      if before item.tool.priority item.name best.tool.priority best.name then some item
      else some best

inductive ResolutionError where
  | unknownCapability (message : String)
  | capabilityUnavailable (message : String)
deriving DecidableEq

def ResolutionError.message : ResolutionError → String
  | .unknownCapability message | .capabilityUnavailable message => message

structure CapabilityResolution where
  capability : CapabilityDefinition
  tool : ToolDefinition
  capabilityDomain : Option DomainIdentity
  toolDomain : Option DomainIdentity
deriving DecidableEq

structure CapabilityResolver where
  capabilities : CapabilityRegistry
  tools : ToolRegistry

/-- `name@version`. -/
def identityText (identity : DomainIdentity) : String := identity.name ++ "@" ++ identity.version

def validateDomainMatch (capability : CapabilityRegistration) (tool : ToolRegistration) :
    Except ResolutionError Unit :=
  match capability.domainIdentity, tool.domainIdentity with
  | some capabilityIdentity, some toolIdentity =>
    if capabilityIdentity = toolIdentity then .ok ()
    else .error (.capabilityUnavailable ("capability tool domain mismatch: " ++ capability.name ++
      " belongs to " ++ identityText capabilityIdentity ++ ", but tool " ++ tool.name ++
      " belongs to " ++ identityText toolIdentity))
  | _, _ => .ok ()

def CapabilityResolver.resolveRegistration (resolver : CapabilityResolver) (name : String) :
    Except ResolutionError CapabilityResolution := do
  match resolver.capabilities.get? name with
  | none => throw (.unknownCapability ("unknown capability: " ++ name))
  | some capability =>
    match preferred (resolver.tools.registrationsForCapability name) with
    | none => throw (.capabilityUnavailable ("no tool implements capability: " ++ name))
    | some tool => do
        validateDomainMatch capability tool
        pure ⟨capability.definition, tool.tool, capability.domainIdentity, tool.domainIdentity⟩

theorem preferred_mem {items : List ToolRegistration} {item : ToolRegistration}
    (h : preferred items = some item) : item ∈ items := by
  induction items generalizing item with
  | nil => cases h
  | cons first items ih =>
    rw [preferred] at h
    cases hbest : preferred items with
    | none =>
      rw [hbest] at h
      obtain rfl := Option.some.inj h
      exact List.mem_cons_self
    | some best =>
      rw [hbest] at h
      dsimp only at h
      split at h
      · obtain rfl := Option.some.inj h
        exact List.mem_cons_self
      · obtain rfl := Option.some.inj h
        exact List.mem_cons_of_mem _ (ih hbest)

theorem resolveRegistration_ok {resolver : CapabilityResolver} {name : String}
    {resolution : CapabilityResolution} (h : resolver.resolveRegistration name = .ok resolution) :
    ∃ capability tool, resolver.capabilities.get? name = some capability ∧
      preferred (resolver.tools.registrationsForCapability name) = some tool ∧
      resolution = ⟨capability.definition, tool.tool, capability.domainIdentity,
        tool.domainIdentity⟩ := by
  unfold CapabilityResolver.resolveRegistration at h
  cases hcapability : resolver.capabilities.get? name with
  | none =>
    rw [hcapability] at h
    cases h
  | some capability =>
    rw [hcapability] at h
    cases htool : preferred (resolver.tools.registrationsForCapability name) with
    | none =>
      simp only [htool] at h
      cases h
    | some tool =>
      simp only [htool] at h
      cases hmatch : validateDomainMatch capability tool with
      | error error =>
        rw [hmatch] at h
        cases h
      | ok _ =>
        rw [hmatch] at h
        exact ⟨capability, tool, rfl, rfl, (Except.ok.inj h).symm⟩

end UniversalAgent.Tools
