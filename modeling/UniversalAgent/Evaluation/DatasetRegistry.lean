import UniversalAgent.Domain.PackageRegistry

/-!
# Evaluation — DatasetRegistry

`EvaluationDatasetRegistry` (`evaluation/dataset.py`): datasets under their identities, in the order of
their registration, and the discovery of those whose manifests lie under a directory.
-/

namespace UniversalAgent.Evaluation

open UniversalAgent.Core UniversalAgent.Foundation UniversalAgent.Domain

@[ext]
structure EvaluationDatasetIdentity where
  name : String
  version : String
  name_filled : Text.isBlank name = false
  version_filled : Text.isBlank version = false

instance : DecidableEq EvaluationDatasetIdentity := fun _ _ =>
  decidable_of_iff _ EvaluationDatasetIdentity.ext_iff.symm

structure EvaluationDatasetSuiteRef where
  name : String
  path : String
  description : String
  tags : List String
deriving DecidableEq

/-- `EvaluationDatasetManifest`, the parts that registration and installation read. -/
structure EvaluationDatasetManifest where
  identity : EvaluationDatasetIdentity
  description : String
  author : Option String
  tags : List String
  domains : List DomainIdentity
  suites : List EvaluationDatasetSuiteRef
deriving DecidableEq

structure EvaluationDataset where
  manifest : EvaluationDatasetManifest
  rootPath : ManifestPath
  manifestPath : ManifestPath
deriving DecidableEq

def EvaluationDataset.identity (dataset : EvaluationDataset) : EvaluationDatasetIdentity :=
  dataset.manifest.identity

inductive EvaluationDatasetError where
  | validation (text : String)
  | notFound (text : String)
  /-- Reading a manifest raises something else. -/
  | unreadable (text : String)
deriving DecidableEq

abbrev EvaluationDatasetRegistry := Table EvaluationDataset.identity

namespace EvaluationDatasetRegistry

def alreadyRegistered (identity : EvaluationDatasetIdentity) : EvaluationDatasetError :=
  .validation ("evaluation dataset already registered: " ++ identity.name ++ "@" ++ identity.version)

def register : EvaluationDataset → EStateM EvaluationDatasetError EvaluationDatasetRegistry EvaluationDataset :=
  Foundation.register alreadyRegistered

def evaluationDatasetManifest : String := "dataset.json"

def manifestPaths (files : ManifestFiles EvaluationDatasetError EvaluationDataset) (root : ManifestPath) :
    Except EvaluationDatasetError (List ManifestPath) :=
  if files.isFile root then .ok [root]
  else if !files.present root then .error (.notFound ("evaluation dataset root not found: " ++ root.text))
  else .ok ((files.rglob root evaluationDatasetManifest).insertionSort (· ≤ ·))

def found (files : ManifestFiles EvaluationDatasetError EvaluationDataset) (root : ManifestPath) :
    Except EvaluationDatasetError (List EvaluationDataset) := do
  let paths ← manifestPaths files root
  paths.mapM files.load

def discover (files : ManifestFiles EvaluationDatasetError EvaluationDataset) (root : ManifestPath) :
    EStateM EvaluationDatasetError EvaluationDatasetRegistry (List EvaluationDataset) :=
  registerFound alreadyRegistered (found files root)

end EvaluationDatasetRegistry

end UniversalAgent.Evaluation
