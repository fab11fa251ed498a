import UniversalAgent.MultiAgent.ContractCodec
import UniversalAgent.MultiAgent.Registry

/-!
# MultiAgent — RegistryCodec

The records of the agent registry in full and the snapshot of a registry (`multi_agent/registry.py`), with
the payload it is kept as. The payload models refuse a blank text in fields that the constructors do not
look at: the names and versions of domains, and the session of an instance.
-/

namespace UniversalAgent.MultiAgent.Wire

open UniversalAgent.Core UniversalAgent.Foundation
open UniversalAgent.Persistence (DecodeError field fieldD readStr readMapping readList readOptional readEnum
  writeOptional writeStrs encodeDomainIdentity)

instance : StrEnum AgentInstanceStatus where
  value
    | .ready => "ready" | .busy => "busy" | .offline => "offline" | .draining => "draining"
  members := [.ready, .busy, .offline, .draining]
  mem_members a := by cases a <;> simp
  value_injective a b := by cases a <;> cases b <;> simp

/-! ## Records -/

/-- The arguments of `AgentProfileRecord`. -/
structure ProfileFields where
  name : String
  version : String
  domains : List DomainIdentity
  permissions : List String
  capabilities : List String
  description : String
deriving DecidableEq

def ProfileFields.postInit (f : ProfileFields) : Except WireError Unit := do
  checkFilled f.name "agent profile name"
  checkFilled f.version "agent profile version"
  if f.domains = [] then throw (.value "agent profile domains must not be empty")
  checkAllFilled f.permissions "agent profile permissions"
  checkAllFilled f.capabilities "agent profile capabilities"

structure AgentProfileRecord extends ProfileFields where
  checked : toProfileFields.postInit = .ok ()
deriving DecidableEq

/-- The arguments of `AgentInstanceRecord`. -/
structure InstanceFields where
  agentId : AgentId
  profileName : String
  profileVersion : String
  status : AgentInstanceStatus
  sessionId : Option SessionId
  endpoint : Option String
deriving DecidableEq

/-- `AgentInstanceRecord.__post_init__`. The session is not looked at. -/
def InstanceFields.postInit (f : InstanceFields) : Except WireError Unit := do
  checkFilled f.agentId "agent instance id"
  checkFilled f.profileName "agent instance profile_name"
  checkFilled f.profileVersion "agent instance profile_version"
  match f.endpoint with
  | none => pure ()
  | some endpoint => checkFilled endpoint "agent instance endpoint"

structure AgentInstanceRecord extends InstanceFields where
  checked : toInstanceFields.postInit = .ok ()
deriving DecidableEq

structure AgentRegistrySnapshot where
  profiles : List AgentProfileRecord
  instances : List AgentInstanceRecord
deriving DecidableEq

/-- `AgentProfileRecord(...)`. -/
def AgentProfileRecord.make : ProfileFields → Except WireError AgentProfileRecord :=
  construct ProfileFields.postInit AgentProfileRecord.mk

/-- `AgentInstanceRecord(...)`. -/
def AgentInstanceRecord.make : InstanceFields → Except WireError AgentInstanceRecord :=
  construct InstanceFields.postInit AgentInstanceRecord.mk

/-! ## Payloads -/

def agentProfileRecordPayload (p : AgentProfileRecord) : JsonMapping :=
  [("name", .str p.name), ("version", .str p.version),
    ("domains", .arr (p.domains.map encodeDomainIdentity)), ("permissions", writeStrs p.permissions),
    ("capabilities", writeStrs p.capabilities), ("description", .str p.description)]

def agentInstanceRecordPayload (i : AgentInstanceRecord) : JsonMapping :=
  [("agent_id", .str i.agentId), ("profile_name", .str i.profileName),
    ("profile_version", .str i.profileVersion), ("status", .str (StrEnum.value i.status)),
    ("session_id", writeOptional .str i.sessionId), ("endpoint", writeOptional .str i.endpoint)]

def agentRegistrySnapshotPayload (s : AgentRegistrySnapshot) : JsonMapping :=
  [("profiles", .arr (s.profiles.map fun p => .obj (agentProfileRecordPayload p))),
    ("instances", .arr (s.instances.map fun i => .obj (agentInstanceRecordPayload i)))]

/-! ## Decoders -/

/-- `PydanticNonEmptyString`. -/
def readFilled : Json → Except DecodeError String
  | .str s => if Text.isBlank s then .error .payload else .ok s
  | .null | .bool _ | .int _ | .float _ | .arr _ | .obj _ => .error .payload

/-- `_DomainIdentityPayload`. -/
def readDomainIdentity (v : Json) : Except DecodeError DomainIdentity := do
  pure ⟨← readFilled (← field v "name"), ← readFilled (← field v "version")⟩

/-- `_AgentProfileRecordPayload`. -/
def readProfileRecord (v : Json) : Except DecodeError ProfileFields := do
  pure
    { name := ← readFilled (← field v "name")
      version := ← readFilled (← field v "version")
      domains := ← fieldD v "domains" (readList readDomainIdentity) []
      permissions := ← fieldD v "permissions" (readList readFilled) []
      capabilities := ← fieldD v "capabilities" (readList readFilled) []
      description := ← fieldD v "description" readStr "" }

/-- `_AgentInstanceRecordPayload`. -/
def readInstanceRecord (v : Json) : Except DecodeError InstanceFields := do
  pure
    { agentId := ← readFilled (← field v "agent_id")
      profileName := ← readFilled (← field v "profile_name")
      profileVersion := ← readFilled (← field v "profile_version")
      status := ← fieldD v "status" readEnum .ready
      sessionId := ← fieldD v "session_id" (readOptional readFilled) none
      endpoint := ← fieldD v "endpoint" (readOptional readFilled) none }

/-- `_AgentRegistrySnapshotPayload`. -/
def readRegistrySnapshot (v : Json) : Except DecodeError (List ProfileFields × List InstanceFields) := do
  pure (← fieldD v "profiles" (readList readProfileRecord) [],
    ← fieldD v "instances" (readList readInstanceRecord) [])

def decodeAgentRegistrySnapshot (payload : JsonMapping) : Except WireError AgentRegistrySnapshot := do
  let p ← parsed (readRegistrySnapshot (.obj payload))
  let profiles ← p.1.mapM AgentProfileRecord.make
  let instances ← p.2.mapM AgentInstanceRecord.make
  pure ⟨profiles, instances⟩

/-! ## What the payload models accept -/

def DomainIdentityFilled (d : DomainIdentity) : Prop :=
  Text.isBlank d.name = false ∧ Text.isBlank d.version = false

instance (d : DomainIdentity) : Decidable (DomainIdentityFilled d) := inferInstanceAs (Decidable (_ ∧ _))

structure AgentRegistrySnapshot.Filled (s : AgentRegistrySnapshot) : Prop where
  domains : ∀ p ∈ s.profiles, ∀ d ∈ p.domains, DomainIdentityFilled d
  sessions : ∀ i ∈ s.instances, ∀ sessionId ∈ i.sessionId, Text.isBlank sessionId = false

theorem checkFilled_eq_ok {value name : String} : checkFilled value name = .ok () ↔ Text.isBlank value = false := by
  unfold checkFilled
  cases Text.isBlank value <;> simp

theorem checkAllFilled_eq_ok {values : List String} {name : String} :
    checkAllFilled values name = .ok () ↔ ∀ value ∈ values, Text.isBlank value = false := by
  unfold checkAllFilled
  cases h : values.any Text.isBlank with
  | true =>
    refine iff_of_false nofun fun hall => ?_
    obtain ⟨value, hvalue, hblank⟩ := List.any_eq_true.mp h
    rw [hall value hvalue] at hblank
    cases hblank
  | false =>
    refine iff_of_true rfl fun value hvalue => ?_
    simpa using List.any_eq_false.mp h value hvalue

theorem readFilled_str {s : String} (h : Text.isBlank s = false) : readFilled (.str s) = .ok s := by
  rw [readFilled, h]
  rfl

theorem filled_of_readFilled {s t : String} (h : readFilled (.str s) = .ok t) : Text.isBlank s = false := by
  rw [readFilled] at h
  cases hblank : Text.isBlank s with
  | true =>
    rw [if_pos hblank] at h
    cases h
  | false => rfl

theorem readList_filled {values : List String} (h : ∀ value ∈ values, Text.isBlank value = false) :
    readList readFilled (writeStrs values) = .ok values :=
  Persistence.readList_map fun value hvalue => readFilled_str (h value hvalue)

theorem readOptional_filled {o : Option String} (h : ∀ value ∈ o, Text.isBlank value = false) :
    readOptional readFilled (writeOptional .str o) = .ok o := by
  cases o with
  | none => rfl
  | some value =>
    rw [writeOptional, Persistence.readOptional_present _ _ Json.noConfusion, readFilled_str (h value rfl)]
    rfl

theorem readDomainIdentity_payload {d : DomainIdentity} (h : DomainIdentityFilled d) :
    readDomainIdentity (encodeDomainIdentity d) = .ok d := by
  simp [readDomainIdentity, encodeDomainIdentity, field, Json.field?, List.lookup, readFilled_str h.1,
    readFilled_str h.2, pure, Except.pure]

section Profiles

variable (p : AgentProfileRecord)

theorem AgentProfileRecord.filled : Text.isBlank p.name = false ∧ Text.isBlank p.version = false ∧
    (∀ permission ∈ p.permissions, Text.isBlank permission = false) ∧
    ∀ capability ∈ p.capabilities, Text.isBlank capability = false := by
  have h := p.checked
  unfold ProfileFields.postInit at h
  obtain ⟨⟨⟩, hname, h⟩ := Except.bind_eq_ok.mp h
  obtain ⟨⟨⟩, hversion, h⟩ := Except.bind_eq_ok.mp h
  have hnonempty : p.domains ≠ [] := by
    intro hnil
    rw [if_pos hnil] at h
    cases h
  rw [if_neg hnonempty] at h
  obtain ⟨⟨⟩, hpermissions, hcapabilities⟩ := Except.bind_eq_ok.mp h
  exact ⟨checkFilled_eq_ok.mp hname, checkFilled_eq_ok.mp hversion, checkAllFilled_eq_ok.mp hpermissions,
    checkAllFilled_eq_ok.mp hcapabilities⟩

theorem readProfileRecord_payload (h : ∀ d ∈ p.domains, DomainIdentityFilled d) :
    readProfileRecord (.obj (agentProfileRecordPayload p)) = .ok p.toProfileFields := by
  obtain ⟨hname, hversion, hpermissions, hcapabilities⟩ := p.filled
  have hdomains : readList readDomainIdentity (.arr (p.domains.map encodeDomainIdentity)) = .ok p.domains :=
    Persistence.readList_map fun d hd => readDomainIdentity_payload (h d hd)
  simp [readProfileRecord, agentProfileRecordPayload, field, fieldD, Json.field?, List.lookup,
    readFilled_str hname, readFilled_str hversion, hdomains, readList_filled hpermissions,
    readList_filled hcapabilities, pure, Except.pure]

theorem filled_of_readProfileRecord {f : ProfileFields}
    (h : readProfileRecord (.obj (agentProfileRecordPayload p)) = .ok f) :
    ∀ d ∈ p.domains, DomainIdentityFilled d := by
  unfold readProfileRecord at h
  obtain ⟨_, -, h⟩ := Except.bind_eq_ok.mp h
  obtain ⟨_, -, h⟩ := Except.bind_eq_ok.mp h
  obtain ⟨_, -, h⟩ := Except.bind_eq_ok.mp h
  obtain ⟨_, -, h⟩ := Except.bind_eq_ok.mp h
  obtain ⟨domains, hdomains, -⟩ := Except.bind_eq_ok.mp h
  rw [Persistence.fieldD_obj (v := .arr (p.domains.map encodeDomainIdentity)) rfl] at hdomains
  intro d hd
  obtain ⟨d', -, hread⟩ := Except.exists_of_mapM_eq_ok hdomains _ (List.mem_map_of_mem hd)
  unfold readDomainIdentity at hread
  obtain ⟨name, hname, hread⟩ := Except.bind_eq_ok.mp hread
  obtain rfl := Except.ok.inj ((Persistence.field_obj (v := .str d.name) rfl).symm.trans hname)
  obtain ⟨_, hname, hread⟩ := Except.bind_eq_ok.mp hread
  obtain ⟨version, hversion, hread⟩ := Except.bind_eq_ok.mp hread
  obtain rfl := Except.ok.inj ((Persistence.field_obj (v := .str d.version) rfl).symm.trans hversion)
  obtain ⟨_, hversion, -⟩ := Except.bind_eq_ok.mp hread
  exact ⟨filled_of_readFilled hname, filled_of_readFilled hversion⟩

end Profiles

section Instances

variable (i : AgentInstanceRecord)

theorem AgentInstanceRecord.filled : Text.isBlank i.agentId = false ∧ Text.isBlank i.profileName = false ∧
    Text.isBlank i.profileVersion = false ∧ ∀ endpoint ∈ i.endpoint, Text.isBlank endpoint = false := by
  have h := i.checked
  unfold InstanceFields.postInit at h
  obtain ⟨⟨⟩, hid, h⟩ := Except.bind_eq_ok.mp h
  obtain ⟨⟨⟩, hname, h⟩ := Except.bind_eq_ok.mp h
  obtain ⟨⟨⟩, hversion, hendpoint⟩ := Except.bind_eq_ok.mp h
  refine ⟨checkFilled_eq_ok.mp hid, checkFilled_eq_ok.mp hname, checkFilled_eq_ok.mp hversion, ?_⟩
  intro endpoint hmem
  rw [Option.mem_def.mp hmem] at hendpoint
  exact checkFilled_eq_ok.mp hendpoint

theorem readInstanceRecord_payload (h : ∀ sessionId ∈ i.sessionId, Text.isBlank sessionId = false) :
    readInstanceRecord (.obj (agentInstanceRecordPayload i)) = .ok i.toInstanceFields := by
  obtain ⟨hid, hname, hversion, hendpoint⟩ := i.filled
  simp [readInstanceRecord, agentInstanceRecordPayload, field, fieldD, Json.field?, List.lookup,
    readFilled_str hid, readFilled_str hname, readFilled_str hversion, readOptional_filled hendpoint,
    readOptional_filled h, pure, Except.pure]

theorem filled_of_readInstanceRecord {f : InstanceFields}
    (h : readInstanceRecord (.obj (agentInstanceRecordPayload i)) = .ok f) :
    ∀ sessionId ∈ i.sessionId, Text.isBlank sessionId = false := by
  unfold readInstanceRecord at h
  obtain ⟨_, -, h⟩ := Except.bind_eq_ok.mp h
  obtain ⟨_, -, h⟩ := Except.bind_eq_ok.mp h
  obtain ⟨_, -, h⟩ := Except.bind_eq_ok.mp h
  obtain ⟨_, -, h⟩ := Except.bind_eq_ok.mp h
  obtain ⟨_, -, h⟩ := Except.bind_eq_ok.mp h
  obtain ⟨_, -, h⟩ := Except.bind_eq_ok.mp h
  obtain ⟨_, -, h⟩ := Except.bind_eq_ok.mp h
  obtain ⟨_, hsession, -⟩ := Except.bind_eq_ok.mp h
  rw [Persistence.fieldD_obj (v := writeOptional .str i.sessionId) rfl] at hsession
  intro sessionId hmem
  rw [Option.mem_def.mp hmem, writeOptional, Persistence.readOptional_present _ _ Json.noConfusion] at hsession
  obtain ⟨_, hread, -⟩ := Except.bind_eq_ok.mp hsession
  exact filled_of_readFilled hread

end Instances

/-! ## Snapshots are read back -/

variable (s : AgentRegistrySnapshot)

theorem decode_snapshot_of_filled (h : s.Filled) :
    decodeAgentRegistrySnapshot (agentRegistrySnapshotPayload s) = .ok s := by
  have hprofiles : readList readProfileRecord (.arr (s.profiles.map fun p => .obj (agentProfileRecordPayload p))) =
      .ok (s.profiles.map AgentProfileRecord.toProfileFields) := by
    rw [readList, Except.mapM_eq_ok, List.forall₂_map_left_iff, List.forall₂_map_right_iff, List.forall₂_same]
    exact fun p hp => readProfileRecord_payload p (h.domains p hp)
  have hinstances : readList readInstanceRecord
      (.arr (s.instances.map fun i => .obj (agentInstanceRecordPayload i))) =
        .ok (s.instances.map AgentInstanceRecord.toInstanceFields) := by
    rw [readList, Except.mapM_eq_ok, List.forall₂_map_left_iff, List.forall₂_map_right_iff, List.forall₂_same]
    exact fun i hi => readInstanceRecord_payload i (h.sessions i hi)
  have hread : readRegistrySnapshot (.obj (agentRegistrySnapshotPayload s)) =
      .ok (s.profiles.map AgentProfileRecord.toProfileFields,
        s.instances.map AgentInstanceRecord.toInstanceFields) := by
    simp [readRegistrySnapshot, agentRegistrySnapshotPayload, fieldD, Json.field?, List.lookup, hprofiles,
      hinstances, pure, Except.pure]
  have hmadeProfiles : (s.profiles.map AgentProfileRecord.toProfileFields).mapM AgentProfileRecord.make =
      .ok s.profiles := by
    rw [Except.mapM_eq_ok, List.forall₂_map_left_iff, List.forall₂_same]
    exact fun p _ => construct_ok p.checked
  have hmadeInstances : (s.instances.map AgentInstanceRecord.toInstanceFields).mapM AgentInstanceRecord.make =
      .ok s.instances := by
    rw [Except.mapM_eq_ok, List.forall₂_map_left_iff, List.forall₂_same]
    exact fun i _ => construct_ok i.checked
  unfold decodeAgentRegistrySnapshot
  rw [hread, parsed]
  simp only [Except.ok_bind, hmadeProfiles, hmadeInstances]
  rfl

theorem filled_of_decode_snapshot {s' : AgentRegistrySnapshot}
    (h : decodeAgentRegistrySnapshot (agentRegistrySnapshotPayload s) = .ok s') : s.Filled := by
  unfold decodeAgentRegistrySnapshot at h
  obtain ⟨p, hread, -⟩ := Except.bind_eq_ok.mp h
  have hread := of_parsed hread
  unfold readRegistrySnapshot at hread
  obtain ⟨profiles, hprofiles, hread⟩ := Except.bind_eq_ok.mp hread
  obtain ⟨instances, hinstances, -⟩ := Except.bind_eq_ok.mp hread
  rw [Persistence.fieldD_obj (v := .arr (s.profiles.map fun p => .obj (agentProfileRecordPayload p))) rfl]
    at hprofiles
  rw [Persistence.fieldD_obj (v := .arr (s.instances.map fun i => .obj (agentInstanceRecordPayload i))) rfl]
    at hinstances
  constructor
  · intro p hp
    obtain ⟨f, -, hf⟩ := Except.exists_of_mapM_eq_ok hprofiles _ (List.mem_map_of_mem hp)
    exact filled_of_readProfileRecord p hf
  · intro i hi
    obtain ⟨f, -, hf⟩ := Except.exists_of_mapM_eq_ok hinstances _ (List.mem_map_of_mem hi)
    exact filled_of_readInstanceRecord i hf

/-- A snapshot is read back, as it was, exactly when the payload models accept it. -/
theorem decode_snapshot_iff :
    decodeAgentRegistrySnapshot (agentRegistrySnapshotPayload s) = .ok s ↔ s.Filled :=
  ⟨filled_of_decode_snapshot s, decode_snapshot_of_filled s⟩

end UniversalAgent.MultiAgent.Wire
