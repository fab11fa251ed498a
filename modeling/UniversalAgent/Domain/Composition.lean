import UniversalAgent.Memory.Store
import UniversalAgent.Policy.Engine
import UniversalAgent.Recovery.Manager
import UniversalAgent.Runtime.ReplayEngine
import UniversalAgent.World.Model

/-!
# Domain — Composition

Domains as the loader accepts them, compositions of them, and the components of a runtime that is built
of one (`domain/runtime.py`, `domain/builder.py`): registries, policies and recovery rules of all domains
together, what belongs to actions by the domain of the action. Of evaluators and task expanders, what the
loader checks.
-/

namespace UniversalAgent.Domain

open UniversalAgent.Core UniversalAgent.Foundation UniversalAgent.Memory
open UniversalAgent.Domains (CapabilityDefinition)
open UniversalAgent.Policies UniversalAgent.Recovery UniversalAgent.Tools UniversalAgent.World

/-! ## What a domain declares -/

structure DomainManifest where
  apiVersion : String
  kind : String
  name : String
  version : String
  capabilityNames : List String
  evaluatorNames : List String
deriving DecidableEq

structure ActionArgumentContext where
  sessionId : SessionId
  goal : Goal
  task : Task
  decision : Decision
  capability : CapabilityDefinition
  tool : ToolDefinition
  world : WorldSnapshot

structure ActionArgumentProvider where
  name : String
  capabilityNames : List String
  provide : ActionArgumentContext → JsonMapping

structure CapabilityUser where
  name : String
  capabilityNames : List String
deriving DecidableEq

/-- What a `DomainRuntime` declares. -/
structure DomainRuntime where
  manifest : DomainManifest
  capabilities : List CapabilityDefinition
  tools : List ToolDefinition
  policies : List Policy
  evaluators : List String
  taskExpanders : List CapabilityUser
  recoveryRules : List RecoveryRule
  actionArgumentProviders : List ActionArgumentProvider
  actionReconcilers : List CapabilityUser
  memories : List MemoryRecord

/-! ## The loader -/

def sameNames (a b : List String) : Bool := a.all (· ∈ b) && b.all (· ∈ a)

def sortedNames (names : List String) : String :=
  ", ".intercalate (names.dedup.insertionSort (· ≤ ·))

def checkCapabilities (label name : String) (used known : List String) : Except String Unit :=
  let unknown := used.filter (· ∉ known)
  if unknown = [] then .ok ()
  else .error (label ++ " " ++ name ++ " references unknown capabilities: " ++ sortedNames unknown)

/-- A rule may name a capability of the domain only as an alternative. -/
def checkRule (known : List String) (rule : RecoveryRule) : Except String Unit :=
  if rule.strategy = .alternativeCapability ∧ rule.capability.getD "" ∉ known then
    .error ("recovery rule " ++ rule.name ++ " references unknown capability: " ++
      rule.capability.getD "")
  else .ok ()

def checkMemory (record : MemoryRecord) : Except String Unit :=
  if record.kind = .episodic then
    .error ("domain may not declare episodic memory; episodic records are " ++
      "written only by the runtime at a terminal transition")
  else .ok ()

/-- `if c: raise DomainValidationError(message)`. -/
def rejectIf (c : Prop) [Decidable c] (message : String) : Except String Unit :=
  if c then .error message else .ok ()

def validate (d : DomainRuntime) : Except String Unit := do
  let known := d.capabilities.map CapabilityDefinition.name
  rejectIf (d.manifest.apiVersion ≠ "agent.nantian.dev/v1alpha1" ∨ d.manifest.kind ≠ "Domain")
    "unsupported domain apiVersion or kind"
  rejectIf (d.manifest.name = "" ∨ d.manifest.version = "") "domain name and version are required"
  rejectIf (¬known.Nodup) "domain contains duplicate capabilities"
  rejectIf (sameNames known d.manifest.capabilityNames = false)
    "manifest capability references do not match registrations"
  rejectIf (d.evaluators = []) "domain requires at least one evaluator"
  rejectIf (d.manifest.evaluatorNames = []) "domain manifest requires at least one evaluator"
  rejectIf (sameNames d.evaluators d.manifest.evaluatorNames = false)
    "manifest evaluator references do not match registrations"
  d.tools.forM fun tool => checkCapabilities "tool" tool.name tool.capabilities known
  d.taskExpanders.forM fun e => checkCapabilities "task expander" e.name e.capabilityNames known
  d.actionArgumentProviders.forM fun p =>
    checkCapabilities "action argument provider" p.name p.capabilityNames known
  d.actionReconcilers.forM fun r =>
    checkCapabilities "action reconciler" r.name r.capabilityNames known
  d.recoveryRules.forM (checkRule known)
  d.memories.forM checkMemory

/-- `ActiveDomain`: a domain that the loader accepts. -/
structure ActiveDomain extends DomainRuntime where
  loaded : validate toDomainRuntime = .ok ()

def ActiveDomain.identity (domain : ActiveDomain) : DomainIdentity :=
  ⟨domain.manifest.name, domain.manifest.version⟩

def load (d : DomainRuntime) : Except String ActiveDomain :=
  match h : validate d with
  | .ok _ => .ok ⟨d, h⟩
  | .error e => .error e

/-! ## Compositions -/

/-- What is said of names that two domains own, or one domain twice. -/
def conflicts (owned : List (String × DomainIdentity)) : List String :=
  let rec go (owners : List (String × DomainIdentity)) : List (String × DomainIdentity) → List String
    | [] => []
    | (name, identity) :: rest =>
      let conflict := match owners.lookup name with
        | some owner =>
          [name ++ " (" ++ identityText owner ++ ", " ++ identityText identity ++ ")"]
        | none => []
      conflict ++ go ((name, identity) :: owners) rest
  go [] owned

def ownedBy (names : ActiveDomain → List String) (domains : List ActiveDomain) :
    List (String × DomainIdentity) :=
  domains.flatMap fun d => (names d).map fun n => (n, d.identity)

def capabilityNames (d : ActiveDomain) : List String := d.capabilities.map CapabilityDefinition.name

def toolNames (d : ActiveDomain) : List String := d.tools.map ToolDefinition.name

def duplicateValues (values : List String) : List String :=
  (values.filter fun v => 1 < values.count v).dedup.insertionSort (· ≤ ·)

theorem duplicateValues_eq_nil_iff {values : List String} : duplicateValues values = [] ↔ values.Nodup := by
  rw [duplicateValues, List.nodup_iff_count_le_one, ← List.length_eq_zero_iff, List.length_insertionSort,
    List.length_eq_zero_iff, List.dedup_eq_nil, List.filter_eq_nil_iff]
  constructor
  · intro h v
    by_cases hv : v ∈ values
    · simpa using h v hv
    · rw [List.count_eq_zero_of_not_mem hv]
      exact Nat.zero_le 1
  · intro h v _
    simpa using h v

/-- The checks of `DomainComposition.__post_init__`. -/
def validateComposition (domains : List ActiveDomain) : Except String Unit := do
  let duplicates := duplicateValues (domains.map fun d => identityText d.identity)
  let capabilities := conflicts (ownedBy capabilityNames domains)
  let tools := conflicts (ownedBy toolNames domains)
  rejectIf (domains.isEmpty = true) "domain composition requires at least one domain"
  rejectIf (duplicates ≠ []) ("duplicate domain identities: " ++ ", ".intercalate duplicates)
  rejectIf (capabilities ≠ []) ("domain composition contains duplicate capabilities: " ++
    ", ".intercalate (capabilities.insertionSort (· ≤ ·)))
  rejectIf (tools ≠ []) ("domain composition contains duplicate tools: " ++
    ", ".intercalate (tools.insertionSort (· ≤ ·)))

structure DomainComposition where
  domains : List ActiveDomain
  postInit : validateComposition domains = .ok ()

namespace DomainComposition

variable (composition : DomainComposition)

def policies : List Policy := composition.domains.flatMap fun d => d.policies

def recoveryRules : List RecoveryRule := composition.domains.flatMap fun d => d.recoveryRules

def domainFor (identity : DomainIdentity) : Option ActiveDomain :=
  composition.domains.find? fun d => d.identity = identity

/-- `action_argument_providers_for_domain` of the components. -/
def actionArgumentProvidersFor : Option DomainIdentity → List ActionArgumentProvider
  | none => composition.domains.flatMap fun d => d.actionArgumentProviders
  | some identity =>
    ((composition.domainFor identity).map fun d => d.actionArgumentProviders).getD []

/-- `action_reconcilers_for_domain` of the components. -/
def actionReconcilersFor : Option DomainIdentity → List CapabilityUser
  | none => composition.domains.flatMap fun d => d.actionReconcilers
  | some identity => ((composition.domainFor identity).map fun d => d.actionReconcilers).getD []

end DomainComposition

/-! ## The components of a runtime -/

structure RuntimeComponents where
  capabilities : CapabilityRegistry
  tools : ToolRegistry
  policies : List Policy
  recoveryManager : RecoveryManager
  domainComposition : DomainComposition

def RuntimeComponents.resolver (components : RuntimeComponents) : CapabilityResolver :=
  ⟨components.capabilities, components.tools⟩

/-- Everything that the domains own of a kind is registered, one after another. -/
def registerAll {α ρ : Type} (register : ρ → α → Option DomainIdentity → Except RegistryError ρ)
    (items : List (α × DomainIdentity)) (registry : ρ) : Except RegistryError ρ :=
  items.foldlM (fun registry item => register registry item.1 (some item.2)) registry

def build (composition : DomainComposition) (extraPolicies : List Policy := []) :
    Except RegistryError RuntimeComponents := do
  let capabilities ← registerAll CapabilityRegistry.register
    (composition.domains.flatMap fun d => d.capabilities.map fun c => (c, d.identity)) Table.empty
  let tools ← registerAll ToolRegistry.register
    (composition.domains.flatMap fun d => d.tools.map fun t => (t, d.identity)) Table.empty
  pure {
    capabilities := capabilities
    tools := tools
    policies := composition.policies ++ extraPolicies
    recoveryManager := .of composition.recoveryRules
    domainComposition := composition }

end UniversalAgent.Domain
