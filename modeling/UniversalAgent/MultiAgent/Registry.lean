import UniversalAgent.Foundation.Table
import UniversalAgent.MultiAgent.Contracts

/-!
# MultiAgent — Registry

Agent profiles and running instances (`multi_agent/registry.py`): which instances may take a
request, and how an operator changes their status. Of a profile, what eligibility reads; of an
instance, its profile and its status.

The prefixes of mutating permissions are looked for in the lower-case text. They are ASCII, and no
letter outside ASCII has a lower case that could be part of one, so lowering ASCII letters is enough.
-/

namespace UniversalAgent.MultiAgent

open UniversalAgent.Foundation

inductive AgentInstanceStatus where
  | ready | busy | offline | draining
deriving DecidableEq, Repr

@[ext]
structure AgentProfileRecord where
  name : String
  version : String
  permissions : List String
  capabilities : List String
  name_filled : Text.isBlank name = false
  version_filled : Text.isBlank version = false

instance : DecidableEq AgentProfileRecord := fun _ _ =>
  decidable_of_iff _ AgentProfileRecord.ext_iff.symm

def AgentProfileRecord.identity (p : AgentProfileRecord) : String × String := (p.name, p.version)

@[ext]
structure AgentInstanceRecord where
  agentId : AgentId
  profileName : String
  profileVersion : String
  status : AgentInstanceStatus
  id_filled : Text.isBlank agentId = false

instance : DecidableEq AgentInstanceRecord := fun _ _ =>
  decidable_of_iff _ AgentInstanceRecord.ext_iff.symm

def AgentInstanceRecord.profileIdentity (i : AgentInstanceRecord) : String × String :=
  (i.profileName, i.profileVersion)

/-! ## Eligibility -/

def mutatingPermissionPrefixes : List String :=
  ["admin", "apply", "create", "delete", "destructive", "execute", "mutat", "patch", "restart",
    "rollout", "scale", "update", "write"]

def mutatingCapabilityPrefixes : List String :=
  ["apply_", "create_", "delete_", "mutate_", "patch_", "restart_", "rollout_", "scale_", "update_",
    "write_"]

/-- `value.strip().lower().replace("-", "_")`. -/
def normalized (value : String) : List Char :=
  (Text.strip value).toList.map fun c => if c = '-' then '_' else c.toLower

def startsWithAny (prefixes : List String) (text : List Char) : Bool :=
  prefixes.any fun p => p.toList.isPrefixOf text

def looksMutatingPermission (value : String) : Bool :=
  if normalized value = "read_only".toList then false
  else startsWithAny mutatingPermissionPrefixes (normalized value)

def looksMutatingCapability (value : String) : Bool :=
  startsWithAny mutatingCapabilityPrefixes (normalized value)

def profileGrantsMutation (p : AgentProfileRecord) : Bool :=
  p.permissions.any looksMutatingPermission || p.capabilities.any looksMutatingCapability

def profileEligible (p : AgentProfileRecord) (request : AgentTaskRequest) : Bool :=
  if request.constraints.allowedProfiles ≠ [] ∧ p.name ∉ request.constraints.allowedProfiles then
    false
  else if request.constraints.readOnly = true ∧
      ("read_only" ∉ p.permissions ∨ profileGrantsMutation p = true) then false
  else request.constraints.requiredPermissions.all fun permission => p.permissions.contains permission

/-! ## The registry -/

structure AgentRegistry where
  profiles : Table AgentProfileRecord.identity
  instances : Table AgentInstanceRecord.agentId
  profiled : ∀ i ∈ instances, (profiles.get? i.profileIdentity).isSome

namespace AgentRegistry

def empty : AgentRegistry := ⟨.empty, .empty, fun i hi => absurd hi (Table.not_mem_empty i)⟩

def registerProfile (r : AgentRegistry) (p : AgentProfileRecord) :
    Except AgentException AgentRegistry :=
  match r.profiles.get? p.identity with
  | some _ => .error (.registry ("duplicate agent profile: " ++ p.name ++ "@" ++ p.version))
  | none => .ok
      { profiles := r.profiles.put p
        instances := r.instances
        profiled := fun i hi => by
          rw [Table.get?_put]
          split
          · rfl
          · exact r.profiled i hi }

def registerInstance (r : AgentRegistry) (i : AgentInstanceRecord) :
    Except AgentException AgentRegistry :=
  match r.instances.get? i.agentId with
  | some _ => .error (.registry ("duplicate agent instance: " ++ i.agentId))
  | none =>
    if h : (r.profiles.get? i.profileIdentity).isSome then .ok
      { profiles := r.profiles
        instances := r.instances.put i
        profiled := fun j hj => by
          rcases Table.mem_put.mp hj with rfl | ⟨hj, -⟩
          · exact h
          · exact r.profiled j hj }
    else .error (.profileNotRegistered ("agent instance profile not registered: "
      ++ i.profileName ++ "@" ++ i.profileVersion))

def profile (r : AgentRegistry) (name version : String) : Except AgentException AgentProfileRecord :=
  match r.profiles.get? (name, version) with
  | some p => .ok p
  | none => .error (.profileNotRegistered ("agent profile not registered: " ++ name ++ "@" ++ version))

/-- `instance`. -/
def instanceOf (r : AgentRegistry) (id : AgentId) : Except AgentException AgentInstanceRecord :=
  match r.instances.get? id with
  | some i => .ok i
  | none => .error (.instanceNotRegistered ("agent instance not registered: " ++ id))

def updateInstanceStatus (r : AgentRegistry) (id : AgentId) (status : AgentInstanceStatus) :
    Except AgentException AgentRegistry :=
  match h : r.instances.get? id with
  | none => .error (.instanceNotRegistered ("agent instance not registered: " ++ id))
  | some i => .ok
      { profiles := r.profiles
        instances := r.instances.put { i with status := status }
        profiled := fun j hj => by
          rcases Table.mem_put.mp hj with rfl | ⟨hj, -⟩
          · exact r.profiled i (Table.get?_eq_some.mp h).1
          · exact r.profiled j hj }

/-- `all_instances`, sorted by id. -/
def allInstances (r : AgentRegistry) : List AgentInstanceRecord :=
  r.instances.rows.insertionSort fun i j => i.agentId ≤ j.agentId

/-- A ready instance of an eligible profile. A missing profile would raise, but no instance is
without one (`profile_of_mem`). -/
def eligible (r : AgentRegistry) (request : AgentTaskRequest) (i : AgentInstanceRecord) : Bool :=
  decide (i.status = .ready) &&
    match r.profile i.profileName i.profileVersion with
    | .ok p => profileEligible p request
    | .error _ => false

def eligibleInstances (r : AgentRegistry) (request : AgentTaskRequest) : List AgentInstanceRecord :=
  r.allInstances.filter (r.eligible request)

def statusOf (r : AgentRegistry) (id : AgentId) : Option AgentInstanceStatus :=
  (r.instances.get? id).map AgentInstanceRecord.status

/-! ## What the operations do -/

variable {r : AgentRegistry}

theorem mem_allInstances {i : AgentInstanceRecord} : i ∈ r.allInstances ↔ i ∈ r.instances :=
  (List.perm_insertionSort _ _).mem_iff

theorem profile_of_mem {i : AgentInstanceRecord} (hi : i ∈ r.instances) :
    ∃ p, r.profile i.profileName i.profileVersion = .ok p := by
  have hsome := r.profiled i hi
  unfold profile
  cases hp : r.profiles.get? (i.profileName, i.profileVersion) with
  | some p => exact ⟨p, rfl⟩
  | none =>
    rw [AgentInstanceRecord.profileIdentity, hp] at hsome
    cases hsome

theorem updateInstanceStatus_ok {id : AgentId} (h : (r.statusOf id).isSome)
    (status : AgentInstanceStatus) :
    ∃ r', r.updateInstanceStatus id status = .ok r' ∧
      ∀ id', r'.statusOf id' = if id' = id then some status else r.statusOf id' := by
  unfold updateInstanceStatus
  split
  · next hnone =>
      rw [statusOf, hnone] at h
      cases h
  · next i hi =>
      refine ⟨_, rfl, fun id' => ?_⟩
      have hid : i.agentId = id := (Table.get?_eq_some.mp hi).2
      simp only [statusOf, Table.get?_put, hid]
      split <;> rfl

theorem updateInstanceStatus_spec {id : AgentId} {status : AgentInstanceStatus} {r' : AgentRegistry}
    (h : r.updateInstanceStatus id status = .ok r') (id' : AgentId) :
    r'.statusOf id' = if id' = id then some status else r.statusOf id' := by
  have hsome : (r.statusOf id).isSome := by
    unfold updateInstanceStatus at h
    split at h
    · cases h
    · next i hi =>
        rw [statusOf, hi]
        rfl
  obtain ⟨r'', hr'', hstatus⟩ := updateInstanceStatus_ok hsome status
  rw [hr''] at h
  cases h
  exact hstatus id'

end AgentRegistry

/-! ## Calls of others -/

inductive RegistryCall where
  | registerProfile (p : AgentProfileRecord)
  | registerInstance (i : AgentInstanceRecord)
  | updateInstanceStatus (id : AgentId) (status : AgentInstanceStatus)

def AgentRegistry.call (r : AgentRegistry) : RegistryCall → Except AgentException AgentRegistry
  | .registerProfile p => r.registerProfile p
  | .registerInstance i => r.registerInstance i
  | .updateInstanceStatus id status => r.updateInstanceStatus id status

/-- A call leaves the status of an instance alone, or sets it, or brings the instance. -/
theorem AgentRegistry.statusOf_call {r r' : AgentRegistry} {c : RegistryCall}
    (h : r.call c = .ok r') (id : AgentId) :
    r'.statusOf id = r.statusOf id ∨
      (∃ status, c = .updateInstanceStatus id status ∧ r'.statusOf id = some status) ∨
      r.statusOf id = none := by
  cases c with
  | registerProfile p =>
    simp only [call, registerProfile] at h
    split at h
    · cases h
    · cases h
      exact .inl rfl
  | registerInstance i =>
    simp only [call, registerInstance] at h
    split at h
    · cases h
    · next hnone =>
        split at h
        · cases h
          by_cases hid : id = i.agentId
          · subst hid
            exact .inr (.inr (by rw [statusOf, hnone]; rfl))
          · exact .inl (by simp [statusOf, Table.get?_put_ne _ hid])
        · cases h
  | updateInstanceStatus id' status =>
    have hstatus := updateInstanceStatus_spec h id
    by_cases hid : id = id'
    · subst hid
      rw [if_pos rfl] at hstatus
      exact .inr (.inl ⟨status, rfl, hstatus⟩)
    · rw [if_neg hid] at hstatus
      exact .inl hstatus

end UniversalAgent.MultiAgent
