import UniversalAgent.Domain.Composition
import UniversalAgent.Evaluation.DatasetRegistry
import UniversalAgent.Foundation.TopologicalSorter

/-!
# Ecosystem — InstallPlan

What `plan_ecosystem_install` makes of a registry manifest (`ecosystem/catalog.py`, `registry_index.py`):
the packages, datasets and profiles that the manifest refers to, loaded and compared with the references,
the packages ordered by their dependencies. The local files are given: where a path leads, digests, and
what loading gives.
-/

namespace UniversalAgent.Ecosystem

open UniversalAgent.Core UniversalAgent.Foundation UniversalAgent.Domain UniversalAgent.Evaluation
open UniversalAgent.Tools (identityText)

structure EcosystemDomainPackageRef where
  name : String
  version : String
  capabilityNames : List String
  requiredTools : List String
  dependencies : List DomainIdentity
  compatibility : DomainPackageCompatibility
  security : JsonMapping
  rootPath : String
  manifestPath : String
  manifestSha256 : String
  entrypoint : Option String
  resources : List String

def EcosystemDomainPackageRef.identity (reference : EcosystemDomainPackageRef) : DomainIdentity :=
  ⟨reference.name, reference.version⟩

structure EcosystemEvaluationDatasetRef where
  name : String
  version : String
  description : String
  author : Option String
  tags : List String
  domains : List DomainIdentity
  suites : List EvaluationDatasetSuiteRef
  rootPath : String
  manifestPath : String
  manifestSha256 : String

def EcosystemEvaluationDatasetRef.text (reference : EcosystemEvaluationDatasetRef) : String :=
  reference.name ++ "@" ++ reference.version

structure EcosystemProfileRef where
  name : String
  version : String
  description : String
  domains : List DomainIdentity
  path : String
  configSha256 : String

def EcosystemProfileRef.text (reference : EcosystemProfileRef) : String :=
  reference.name ++ "@" ++ reference.version

/-- `EcosystemRegistryManifest`. No two references of a kind are to one thing. -/
structure EcosystemRegistryManifest where
  domainPackages : List EcosystemDomainPackageRef
  evaluationDatasets : List EcosystemEvaluationDatasetRef
  profiles : List EcosystemProfileRef
  metadata : JsonMapping
  packages_distinct : (domainPackages.map fun reference => identityText reference.identity).Nodup
  datasets_distinct : (evaluationDatasets.map EcosystemEvaluationDatasetRef.text).Nodup
  profiles_distinct : (profiles.map EcosystemProfileRef.text).Nodup

/-- `AgentProfile`. A configured domain may lack its name or its version. -/
structure AgentProfile where
  name : String
  version : String
  description : String
  configuredDomains : List (Option String × Option String)
deriving DecidableEq

structure ProfileRegistry where
  profiles : List AgentProfile
  names_distinct : (profiles.map AgentProfile.name).Nodup

structure ProfileCatalogEntry where
  profile : AgentProfile
  path : ManifestPath
deriving DecidableEq

structure EcosystemCatalogCheck where
  name : String
  passed : Bool
  message : String
deriving DecidableEq

structure InstallCandidate (ρ α : Type) where
  reference : ρ
  item : α

structure EcosystemInstallPlan where
  domainPackages : List (InstallCandidate EcosystemDomainPackageRef DomainPackage)
  evaluationDatasets : List (InstallCandidate EcosystemEvaluationDatasetRef EvaluationDataset)
  profiles : List (InstallCandidate EcosystemProfileRef ProfileCatalogEntry)

inductive InstallError where
  | trust (text : String)
  | verification (failed : List EcosystemCatalogCheck)
  | artifact (text : String)
  /-- Loading a file raises. -/
  | loading (text : String)
  | missingDependencies (missing : List String)
  | dependencyCycle (cycle : List DomainIdentity)
  | duplicates (text : String)
  | profiles (text : String)
  | package (e : DomainPackageError)
  | dataset (e : EvaluationDatasetError)
deriving DecidableEq

def failedText (failed : List EcosystemCatalogCheck) : String :=
  "; ".intercalate (failed.map fun check => check.name ++ ": " ++ check.message)

def cycleText (cycle : List DomainIdentity) : String := " -> ".intercalate (cycle.map identityText)

def InstallError.text : InstallError → Option String
  | .trust text | .artifact text | .duplicates text | .profiles text => some text
  | .verification failed =>
    some ("ecosystem registry verification failed before package install: " ++ failedText failed)
  | .missingDependencies missing =>
    some ("domain package install plan missing dependencies: " ++ ", ".intercalate missing)
  | .dependencyCycle cycle => some ("domain package dependency cycle in install plan: " ++ cycleText cycle)
  | .loading _ | .package _ | .dataset _ => none

/-- The local files, and the cycle that `graphlib` names when there is one. -/
structure LocalFiles where
  /-- `_resolve_registry_path`: nothing, where the path leads out of the base. -/
  resolve : String → Option ManifestPath
  isFile : ManifestPath → Bool
  isDir : ManifestPath → Bool
  sha256 : ManifestPath → String
  loadDomainPackage : ManifestPath → Except String DomainPackage
  loadEvaluationDataset : ManifestPath → Except String EvaluationDataset
  loadProfile : ManifestPath → Except String ProfileCatalogEntry
  /-- `verify_domain_package(package).checks`. -/
  verifyDomainPackage : DomainPackage → List EcosystemCatalogCheck
  findCycle : Predecessors DomainIdentity → List DomainIdentity

/-! ## Trust -/

structure EcosystemRegistryTrustPolicy where
  allowUnsigned : Bool := false
  allowUnverifiedSignatures : Bool := false

structure SignatureVerification where
  passed : Bool
  verifier : String
  reason : String

def isSignature : Json → Bool
  | .str s => !Text.isBlank s
  | .obj fields => !fields.isEmpty
  | .arr items => !items.isEmpty
  | _ => false

/-- `_registry_declares_signature`. -/
def declaresSignature (metadata : JsonMapping) : Bool :=
  decide (metadata.lookup "signature_required" = some (.bool true)) ||
    ["signature", "signatures", "signature_ref", "signed_by"].any fun key =>
      (metadata.lookup key).any isSignature

def verifyRegistryTrust (manifest : EcosystemRegistryManifest) (policy : EcosystemRegistryTrustPolicy)
    (verifier : Option (EcosystemRegistryManifest → SignatureVerification)) : Except InstallError Unit :=
  if declaresSignature manifest.metadata then
    match verifier with
    | some verify =>
      let verification := verify manifest
      if verification.passed then .ok ()
      else .error (.trust ("ecosystem registry signature verification failed via " ++
        verification.verifier ++ ": " ++ verification.reason))
    | none =>
      if policy.allowUnverifiedSignatures then .ok ()
      else .error (.trust ("ecosystem registry declares signature metadata, but signature verification is " ++
        "not available in the local registry installer; pass a signature verifier or an explicit trust " ++
        "policy allowing unverified signatures only for local trusted registries"))
  else if policy.allowUnsigned then .ok ()
  else .error (.trust "unsigned ecosystem registry rejected by trust policy")

/-! ## The dependencies between packages -/

def knownGraph (g : Predecessors DomainIdentity) : Predecessors DomainIdentity :=
  g.map fun row => (row.1, row.2.filter fun dependency => decide (dependency ∈ g.map Prod.fst))

def dependencyCycles (files : LocalFiles) (g : Predecessors DomainIdentity) : List String :=
  let sorter := (knownGraph g).insertionSort fun a b =>
    toLex (a.1.name, a.1.version) ≤ toLex (b.1.name, b.1.version)
  match TopologicalSorter.staticOrder sorter with
  | none => [cycleText (files.findCycle sorter)]
  | some _ => []

def missingDependencies (g : Predecessors DomainIdentity) : List String :=
  g.flatMap fun row => (row.2.filter fun dependency => decide (dependency ∉ g.map Prod.fst)).map
    fun dependency => row.1.name ++ ":" ++ identityText dependency

def referenceCheck (name : String) (missing : List String) (passedMessage failedPrefix : String) :
    EcosystemCatalogCheck :=
  if missing = [] then ⟨name, true, passedMessage⟩
  else ⟨name, false, failedPrefix ++ ": " ++ ", ".intercalate missing⟩

def EcosystemRegistryManifest.declared (manifest : EcosystemRegistryManifest) :
    Predecessors DomainIdentity :=
  manifest.domainPackages.map fun reference => (reference.identity, reference.dependencies)

def missingDomains (manifest : EcosystemRegistryManifest) (name : String) (domains : List DomainIdentity) :
    List String :=
  (domains.filter fun domain => decide (domain ∉ manifest.domainPackages.map
    EcosystemDomainPackageRef.identity)).map fun domain => name ++ ":" ++ identityText domain

/-- `EcosystemRegistryIndex.verify`. -/
def verifyIndex (files : LocalFiles) (manifest : EcosystemRegistryManifest) : List EcosystemCatalogCheck :=
  [referenceCheck "profile_domains_registered"
      (manifest.profiles.flatMap fun profile => missingDomains manifest profile.name profile.domains)
      "all profile domains are backed by discovered Domain packages"
      "profiles reference missing Domain packages",
    referenceCheck "dataset_domains_registered"
      (manifest.evaluationDatasets.flatMap fun dataset => missingDomains manifest dataset.name dataset.domains)
      "all evaluation dataset domains are backed by discovered Domain packages"
      "evaluation datasets reference missing Domain packages",
    referenceCheck "package_dependencies_registered" (missingDependencies manifest.declared)
      "all Domain package dependencies are present in the catalog"
      "Domain packages reference missing dependencies",
    referenceCheck "package_dependencies_acyclic" (dependencyCycles files manifest.declared)
      "Domain package dependencies are acyclic" "Domain package dependencies contain cycles"]

/-- `_verify_registry_install_source`. -/
def verifyInstallSource (files : LocalFiles) (manifest : EcosystemRegistryManifest) : Except InstallError Unit :=
  let failed := (verifyIndex files manifest).filter fun check => !check.passed
  if failed = [] then .ok () else .error (.verification failed)

def verifySourceIf (verify : Bool) (files : LocalFiles) (manifest : EcosystemRegistryManifest) :
    Except InstallError Unit :=
  if verify then verifyInstallSource files manifest else .ok ()

/-! ## Candidates -/

section Candidates

variable (files : LocalFiles)

/-- `_verify_registry_file_sha256`. -/
def verifyFileSha256 (path : ManifestPath) (expected label : String) : Except InstallError Unit :=
  if expected = "" then .ok ()
  else if !files.isFile path then
    .error (.artifact (label ++ " file not found for sha256 check: " ++ path.text))
  else if files.sha256 path ≠ expected then
    .error (.artifact (label ++ " sha256 mismatch: expected " ++ expected ++ ", got " ++ files.sha256 path))
  else .ok ()

/-- `_domain_package_ref_path` and its like. -/
def referencePath (kind identity value : String) : Except InstallError ManifestPath :=
  if Text.isBlank value then
    .error (.artifact (kind ++ " registry reference has no local path: " ++ identity))
  else match files.resolve value with
    | none => .error (.artifact (kind ++ " " ++ identity ++ " path escapes registry base path: " ++ value))
    | some path => .ok path

/-- `manifest_path or root_path`. -/
def pathOf (manifestPath rootPath : String) : String := if manifestPath = "" then rootPath else manifestPath

def manifestOf (manifest : String) (path : ManifestPath) : ManifestPath :=
  if files.isDir path then path ++ [manifest] else path

def loaded {α : Type} : Except String α → Except InstallError α
  | .error text => .error (.loading text)
  | .ok a => .ok a

/-- The names of the fields in which a reference and what is loaded differ. -/
def rejectMismatches (text : String) (fields : List (Bool × String)) : Except InstallError Unit :=
  let mismatches := (fields.filter Prod.fst).map Prod.snd
  if mismatches = [] then .ok ()
  else .error (.artifact (text ++ " fields " ++ ", ".intercalate mismatches))

/-- `_verify_domain_package_ref_metadata`. -/
def verifyPackageMetadata (reference : EcosystemDomainPackageRef) (package : DomainPackage) :
    Except InstallError Unit :=
  let manifest := package.manifest
  rejectMismatches ("domain package metadata mismatch: " ++ identityText reference.identity)
    [(reference.entrypoint ≠ none && reference.entrypoint ≠ manifest.entrypoint, "entrypoint"),
      (reference.capabilityNames ≠ [] && reference.capabilityNames ≠ manifest.capabilities,
        "capability_names"),
      (reference.requiredTools ≠ [] && reference.requiredTools ≠ manifest.requiredTools, "required_tools"),
      (reference.resources ≠ [] && reference.resources ≠ manifest.resources, "resources"),
      (reference.dependencies ≠ [] && reference.dependencies ≠ manifest.dependencies, "dependencies"),
      (reference.compatibility.runtimeApi ≠ none &&
        reference.compatibility.runtimeApi ≠ manifest.compatibility.runtimeApi, "compatibility.runtime_api"),
      (reference.compatibility.domainApi ≠ none &&
        reference.compatibility.domainApi ≠ manifest.compatibility.domainApi, "compatibility.domain_api"),
      (reference.security ≠ [] && !(Json.obj reference.security).pyEq (.obj manifest.security), "security")]

/-- `_verify_domain_package_local_integrity`. -/
def verifyLocalIntegrity (package : DomainPackage) : Except InstallError Unit :=
  let failed := (files.verifyDomainPackage package).filter fun check => !check.passed
  if failed = [] then .ok ()
  else .error (.artifact ("domain package local verification failed: " ++ failedText failed))

/-- `_domain_package_install_candidate`. -/
def domainPackageCandidate (reference : EcosystemDomainPackageRef) :
    Except InstallError (InstallCandidate EcosystemDomainPackageRef DomainPackage) := do
  let path ← referencePath files "domain package" (identityText reference.identity)
    (pathOf reference.manifestPath reference.rootPath)
  verifyFileSha256 files (manifestOf files "manifest.json" path) reference.manifestSha256
    ("domain package " ++ identityText reference.identity ++ " manifest")
  let package ← loaded (files.loadDomainPackage path)
  if package.identity ≠ reference.identity then
    .error (.artifact ("domain package identity mismatch: registry expected " ++
      identityText reference.identity ++ ", manifest loaded " ++ identityText package.identity))
  else do
    verifyPackageMetadata reference package
    verifyLocalIntegrity files package
    return ⟨reference, package⟩

def datasetText (dataset : EvaluationDataset) : String :=
  dataset.identity.name ++ "@" ++ dataset.identity.version

/-- `_verify_evaluation_dataset_ref_metadata`. -/
def verifyDatasetMetadata (reference : EcosystemEvaluationDatasetRef) (dataset : EvaluationDataset) :
    Except InstallError Unit :=
  let manifest := dataset.manifest
  rejectMismatches ("evaluation dataset metadata mismatch: " ++ reference.text)
    [(reference.description ≠ "" && reference.description ≠ manifest.description, "description"),
      (reference.author ≠ none && reference.author ≠ manifest.author, "author"),
      (reference.tags ≠ [] && reference.tags ≠ manifest.tags, "tags"),
      (reference.domains ≠ [] && reference.domains ≠ manifest.domains, "domains"),
      (reference.suites ≠ [] && reference.suites ≠ manifest.suites, "suites")]

/-- `_evaluation_dataset_install_candidate`. -/
def evaluationDatasetCandidate (reference : EcosystemEvaluationDatasetRef) :
    Except InstallError (InstallCandidate EcosystemEvaluationDatasetRef EvaluationDataset) := do
  let path ← referencePath files "evaluation dataset" reference.text
    (pathOf reference.manifestPath reference.rootPath)
  verifyFileSha256 files (manifestOf files "dataset.json" path) reference.manifestSha256
    ("evaluation dataset " ++ reference.text ++ " manifest")
  let dataset ← loaded (files.loadEvaluationDataset path)
  if (dataset.identity.name, dataset.identity.version) ≠ (reference.name, reference.version) then
    .error (.artifact ("evaluation dataset identity mismatch: registry expected " ++ reference.text ++
      ", manifest loaded " ++ datasetText dataset))
  else do
    verifyDatasetMetadata reference dataset
    return ⟨reference, dataset⟩

def profileDomainIdentities (entry : ProfileCatalogEntry) : List DomainIdentity :=
  entry.profile.configuredDomains.map fun domain => ⟨domain.1.getD "", domain.2.getD ""⟩

/-- `_profile_install_candidate`. -/
def profileCandidate (reference : EcosystemProfileRef) :
    Except InstallError (InstallCandidate EcosystemProfileRef ProfileCatalogEntry) := do
  let path ← referencePath files "profile" reference.text reference.path
  verifyFileSha256 files path reference.configSha256 ("profile " ++ reference.text ++ " config")
  let entry ← loaded (files.loadProfile path)
  if (entry.profile.name, entry.profile.version) ≠ (reference.name, reference.version) then
    .error (.artifact ("profile identity mismatch: registry expected " ++ reference.text ++
      ", config loaded " ++ entry.profile.name ++ "@" ++ entry.profile.version))
  else do
    rejectMismatches ("profile metadata mismatch: " ++ reference.text)
      [(reference.description ≠ "" && reference.description ≠ entry.profile.description, "description"),
        (reference.domains ≠ [] && reference.domains ≠ profileDomainIdentities entry, "domains")]
    return ⟨reference, entry⟩

end Candidates

/-! ## The plan -/

def dependencies (candidates : List (InstallCandidate EcosystemDomainPackageRef DomainPackage)) :
    Predecessors DomainIdentity :=
  candidates.map fun candidate => (candidate.item.identity, candidate.item.manifest.dependencies)

/-- `_verify_domain_package_install_dependencies`. -/
def verifyInstallDependencies (candidates : List (InstallCandidate EcosystemDomainPackageRef DomainPackage)) :
    Except InstallError Unit :=
  let missing := missingDependencies (dependencies candidates)
  if missing = [] then .ok () else .error (.missingDependencies missing)

abbrev byIdentity (candidates : List (InstallCandidate EcosystemDomainPackageRef DomainPackage)) :
    Table fun candidate : InstallCandidate EcosystemDomainPackageRef DomainPackage => candidate.item.identity :=
  candidates.foldl Table.put Table.empty

/-- `_sort_domain_package_install_candidates`. -/
def sortInstallCandidates (files : LocalFiles)
    (candidates : List (InstallCandidate EcosystemDomainPackageRef DomainPackage)) :
    Except InstallError (List (InstallCandidate EcosystemDomainPackageRef DomainPackage)) :=
  let sorter := knownGraph (dependencies candidates)
  match TopologicalSorter.staticOrder sorter with
  | none => .error (.dependencyCycle (files.findCycle sorter))
  | some order => .ok (order.filterMap (byIdentity candidates).get?)

section Plan

variable (files : LocalFiles) (policy : EcosystemRegistryTrustPolicy)
  (verifier : Option (EcosystemRegistryManifest → SignatureVerification))

/-- `plan_ecosystem_domain_package_install`. -/
def planDomainPackageInstall (manifest : EcosystemRegistryManifest) (verify : Bool) :
    Except InstallError (List (InstallCandidate EcosystemDomainPackageRef DomainPackage)) := do
  verifyRegistryTrust manifest policy verifier
  verifySourceIf verify files manifest
  let candidates ← manifest.domainPackages.mapM (domainPackageCandidate files)
  verifyInstallDependencies candidates
  sortInstallCandidates files candidates

def planEcosystemInstall (manifest : EcosystemRegistryManifest) (verify : Bool) :
    Except InstallError EcosystemInstallPlan := do
  verifyRegistryTrust manifest policy verifier
  verifySourceIf verify files manifest
  let domainPackages ← planDomainPackageInstall files policy verifier manifest false
  let evaluationDatasets ← manifest.evaluationDatasets.mapM (evaluationDatasetCandidate files)
  let profiles ← manifest.profiles.mapM (profileCandidate files)
  return ⟨domainPackages, evaluationDatasets, profiles⟩

end Plan

end UniversalAgent.Ecosystem
