import UniversalAgent.Foundation.Registration
import UniversalAgent.Tools.Registry

/-!
# Domain — PackageRegistry

`DomainPackageRegistry` (`domain/package_registry.py`): packages under their identities, in the order of
their registration, and the discovery of those whose manifests lie under a directory. The file system is
given: what lies where, and what comes of loading the manifest at a path.
-/

namespace UniversalAgent.Domain

open UniversalAgent.Core UniversalAgent.Foundation UniversalAgent.Tools

abbrev ManifestPath := List String

def ManifestPath.text (path : ManifestPath) : String := "/".intercalate path

structure ManifestFiles (ε α : Type) where
  isFile : ManifestPath → Bool
  present : ManifestPath → Bool
  rglob : ManifestPath → String → List ManifestPath
  load : ManifestPath → Except ε α

structure DomainPackageCompatibility where
  runtimeApi : Option String
  domainApi : Option String
deriving DecidableEq

/-- `DomainPackageManifest`, the parts that registration and installation read. -/
@[ext]
structure DomainPackageManifest where
  name : String
  version : String
  entrypoint : Option String
  capabilities : List String
  resources : List String
  dependencies : List DomainIdentity
  requiredTools : List String
  compatibility : DomainPackageCompatibility
  security : JsonMapping
  name_filled : Text.isBlank name = false
  version_filled : Text.isBlank version = false

instance : DecidableEq DomainPackageManifest := fun _ _ =>
  decidable_of_iff _ DomainPackageManifest.ext_iff.symm

def DomainPackageManifest.identity (manifest : DomainPackageManifest) : DomainIdentity :=
  ⟨manifest.name, manifest.version⟩

structure DomainPackage where
  manifest : DomainPackageManifest
  rootPath : ManifestPath
  manifestPath : ManifestPath
deriving DecidableEq

def DomainPackage.identity (package : DomainPackage) : DomainIdentity := package.manifest.identity

inductive DomainPackageError where
  | validation (text : String)
  | notFound (text : String)
  /-- Reading a manifest raises something else. -/
  | unreadable (text : String)
deriving DecidableEq

abbrev DomainPackageRegistry := Table DomainPackage.identity

namespace DomainPackageRegistry

def alreadyRegistered (identity : DomainIdentity) : DomainPackageError :=
  .validation ("domain package already registered: " ++ identityText identity)

def register : DomainPackage → EStateM DomainPackageError DomainPackageRegistry DomainPackage :=
  Foundation.register alreadyRegistered

def domainPackageManifests : List String := ["manifest.json", "manifest.yaml", "manifest.yml"]

def manifestPaths (files : ManifestFiles DomainPackageError DomainPackage) (root : ManifestPath) :
    Except DomainPackageError (List ManifestPath) :=
  if files.isFile root then .ok [root]
  else if !files.present root then .error (.notFound ("domain package root not found: " ++ root.text))
  else .ok ((domainPackageManifests.flatMap (files.rglob root)).insertionSort (· ≤ ·))

def found (files : ManifestFiles DomainPackageError DomainPackage) (root : ManifestPath) :
    Except DomainPackageError (List DomainPackage) := do
  let paths ← manifestPaths files root
  paths.mapM files.load

def discover (files : ManifestFiles DomainPackageError DomainPackage) (root : ManifestPath) :
    EStateM DomainPackageError DomainPackageRegistry (List DomainPackage) :=
  registerFound alreadyRegistered (found files root)

end DomainPackageRegistry

end UniversalAgent.Domain
