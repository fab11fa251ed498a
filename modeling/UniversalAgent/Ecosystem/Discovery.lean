import UniversalAgent.Evaluation.DatasetRegistry

/-!
# Ecosystem — Discovery

The discovery of packages and of datasets registers one after another what it has loaded: when an identity
is taken, those before it stay registered.
-/

namespace UniversalAgent.Ecosystem

open UniversalAgent.Core UniversalAgent.Foundation UniversalAgent.Domain UniversalAgent.Evaluation

section Condition

variable {ε α κ : Type} {key : α → κ} [DecidableEq κ]

/-- If all the manifests can be loaded, either their identities are new and differ, or the first of them is
registered already. -/
def DiscoverableAtOnce (registry : Table key) (found : Except ε (List α)) : Prop :=
  ∀ items, found = .ok items → Registrable registry items ∨ ∃ a ∈ items.head?, registry.get? (key a) ≠ none

end Condition

/-- **Discovery** changes nothing when it raises, and else adds what is found, if and only if nothing is
registered before the first refusal. -/
theorem discovery_all_or_nothing (packages : ManifestFiles DomainPackageError DomainPackage)
    (packageRoot : ManifestPath) (packageRegistry : DomainPackageRegistry)
    (datasets : ManifestFiles EvaluationDatasetError EvaluationDataset) (datasetRoot : ManifestPath)
    (datasetRegistry : EvaluationDatasetRegistry) :
    (AllOrNothing packageRegistry (DomainPackageRegistry.discover packages packageRoot packageRegistry) ↔
      DiscoverableAtOnce packageRegistry (DomainPackageRegistry.found packages packageRoot)) ∧
    (AllOrNothing datasetRegistry (EvaluationDatasetRegistry.discover datasets datasetRoot datasetRegistry) ↔
      DiscoverableAtOnce datasetRegistry (EvaluationDatasetRegistry.found datasets datasetRoot)) :=
  ⟨registerFound_allOrNothing_iff, registerFound_allOrNothing_iff⟩

theorem versionOne_filled : Text.isBlank "1" = false := by decide

def plainPackage (name : String) (filled : Text.isBlank name = false) : DomainPackage where
  manifest :=
    { name := name, version := "1", entrypoint := none, capabilities := [], resources := [],
      dependencies := [], requiredTools := [], compatibility := ⟨none, none⟩, security := [],
      name_filled := filled, version_filled := versionOne_filled }
  rootPath := [name]
  manifestPath := [name, "manifest.json"]

def twins : ManifestFiles DomainPackageError DomainPackage where
  isFile _ := false
  present _ := true
  rglob _ name := if name = "manifest.json" then [["b", name], ["a", name]] else []
  load _ := .ok (plainPackage "ops" (by decide))

/-- The first of the two is left behind. -/
theorem twins_left : ¬AllOrNothing Table.empty (DomainPackageRegistry.discover twins [] Table.empty) := by
  decide +kernel

end UniversalAgent.Ecosystem
