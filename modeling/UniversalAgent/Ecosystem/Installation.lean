import UniversalAgent.Ecosystem.InstallPlan

/-!
# Ecosystem — Installation

`install_ecosystem` (`ecosystem/catalog.py`): all that can be refused is refused before the first item is
registered. The registries of packages and of datasets are changed in place; a registry of profiles is
immutable, and the result has a new one.
-/

namespace UniversalAgent.Ecosystem

open UniversalAgent.Core UniversalAgent.Foundation UniversalAgent.Domain UniversalAgent.Evaluation
open UniversalAgent.Tools (identityText)

structure Registries where
  domainPackages : DomainPackageRegistry
  evaluationDatasets : EvaluationDatasetRegistry

structure EcosystemInstallResult where
  profiles : ProfileRegistry
  installedDomainPackages : List DomainPackage
  installedEvaluationDatasets : List EvaluationDataset
  installedProfiles : List ProfileCatalogEntry

def rejectDuplicates (message : String) (names taken : List String) : Except InstallError Unit :=
  let duplicates := (duplicateValues names ++ taken).dedup
  if duplicates = [] then .ok ()
  else .error (.duplicates (message ++ ", ".intercalate (duplicates.insertionSort (· ≤ ·))))

/-- `_reject_registry_install_duplicates`. -/
def rejectPackageDuplicates (packages : List DomainPackage) (registry : DomainPackageRegistry) :
    Except InstallError Unit :=
  let identities := packages.map DomainPackage.identity
  rejectDuplicates "domain packages already registered or duplicated in install plan: "
    (identities.map identityText)
    ((identities.filter fun identity => decide (identity ∈ registry.rows.map DomainPackage.identity)).map
      identityText)

/-- `_reject_evaluation_dataset_install_duplicates`. -/
def rejectDatasetDuplicates (datasets : List EvaluationDataset) (registry : EvaluationDatasetRegistry) :
    Except InstallError Unit :=
  let identities := datasets.map datasetText
  rejectDuplicates "evaluation datasets already registered or duplicated in install plan: " identities
    (identities.filter fun identity => decide (identity ∈ registry.rows.map datasetText))

/-- `ProfileRegistry(profiles)`. -/
def makeProfileRegistry (profiles : List AgentProfile) : Except InstallError ProfileRegistry :=
  if h : (profiles.map AgentProfile.name).Nodup then .ok ⟨profiles, h⟩
  else .error (.profiles ("duplicate profiles: " ++
    ", ".intercalate (duplicateValues (profiles.map AgentProfile.name))))

def profileInstallRegistry (entries : List ProfileCatalogEntry) (registry : Option ProfileRegistry) :
    Except InstallError ProfileRegistry := do
  let existing := (registry.map ProfileRegistry.profiles).getD []
  let installed := entries.map ProfileCatalogEntry.profile
  let names := installed.map AgentProfile.name
  rejectDuplicates "profiles already registered or duplicated in install plan: " names
    (names.filter fun name => decide (name ∈ existing.map AgentProfile.name))
  makeProfileRegistry (existing ++ installed)

structure Prepared where
  packages : List DomainPackage
  datasets : List EvaluationDataset
  entries : List ProfileCatalogEntry
  profiles : ProfileRegistry

section Install

variable (files : LocalFiles) (policy : EcosystemRegistryTrustPolicy)
  (verifier : Option (EcosystemRegistryManifest → SignatureVerification))

/-- `install_ecosystem`, up to the first registration. -/
def prepare (manifest : EcosystemRegistryManifest) (verify : Bool) (profiles : Option ProfileRegistry)
    (r : Registries) : Except InstallError Prepared := do
  let plan ← planEcosystemInstall files policy verifier manifest verify
  let packages := plan.domainPackages.map InstallCandidate.item
  let datasets := plan.evaluationDatasets.map InstallCandidate.item
  let entries := plan.profiles.map InstallCandidate.item
  rejectPackageDuplicates packages r.domainPackages
  rejectDatasetDuplicates datasets r.evaluationDatasets
  let profiles ← profileInstallRegistry entries profiles
  return ⟨packages, datasets, entries, profiles⟩

def installEcosystem (manifest : EcosystemRegistryManifest) (verify : Bool)
    (profiles : Option ProfileRegistry) : EStateM InstallError Registries EcosystemInstallResult := fun r =>
  match prepare files policy verifier manifest verify profiles r with
  | .error e => .error e r
  | .ok prepared =>
    match registerAll (fun identity => .package (DomainPackageRegistry.alreadyRegistered identity))
        prepared.packages r.domainPackages with
    | .error e packages => .error e { r with domainPackages := packages }
    | .ok _ packages =>
      match registerAll (fun identity => .dataset (EvaluationDatasetRegistry.alreadyRegistered identity))
          prepared.datasets r.evaluationDatasets with
      | .error e datasets => .error e ⟨packages, datasets⟩
      | .ok _ datasets =>
        .ok ⟨prepared.profiles, prepared.packages, prepared.datasets, prepared.entries⟩
          ⟨packages, datasets⟩

end Install

/-! ## What the checks find -/

theorem rejectDuplicates_ok {message : String} {names taken : List String}
    (h : rejectDuplicates message names taken = .ok ()) : names.Nodup ∧ taken = [] := by
  rw [rejectDuplicates] at h
  split at h
  · next hnone =>
      rw [List.dedup_eq_nil, List.append_eq_nil_iff, duplicateValues_eq_nil_iff] at hnone
      exact hnone
  · cases h

theorem rejectPackageDuplicates_ok {packages : List DomainPackage} {registry : DomainPackageRegistry}
    (h : rejectPackageDuplicates packages registry = .ok ()) : Registrable registry packages := by
  obtain ⟨hnodup, hfree⟩ := rejectDuplicates_ok h
  refine ⟨hnodup.of_map, fun package hpackage => Table.get?_eq_none.mpr fun row hrow heq => ?_⟩
  rw [List.map_eq_nil_iff, List.filter_eq_nil_iff] at hfree
  refine hfree _ (List.mem_map_of_mem hpackage) (decide_eq_true ?_)
  exact List.mem_map.mpr ⟨row, hrow, heq⟩

theorem rejectDatasetDuplicates_ok {datasets : List EvaluationDataset} {registry : EvaluationDatasetRegistry}
    (h : rejectDatasetDuplicates datasets registry = .ok ()) : Registrable registry datasets := by
  obtain ⟨hnodup, hfree⟩ := rejectDuplicates_ok h
  have htext : ∀ d d' : EvaluationDataset, d.identity = d'.identity → datasetText d = datasetText d' := by
    intro d d' heq
    rw [datasetText, heq, datasetText]
  constructor
  · have hnodup' : datasets.Pairwise fun d d' => datasetText d ≠ datasetText d' := List.pairwise_map.mp hnodup
    exact List.pairwise_map.mpr (hnodup'.imp fun hne heq => hne (htext _ _ heq))
  · refine fun dataset hdataset => Table.get?_eq_none.mpr fun row hrow heq => ?_
    rw [List.filter_eq_nil_iff] at hfree
    refine hfree _ (List.mem_map_of_mem hdataset) (decide_eq_true ?_)
    exact List.mem_map.mpr ⟨row, hrow, htext _ _ heq⟩

theorem profileInstallRegistry_ok {entries : List ProfileCatalogEntry} {registry : Option ProfileRegistry}
    {profiles : ProfileRegistry} (h : profileInstallRegistry entries registry = .ok profiles) :
    profiles.profiles = (registry.map ProfileRegistry.profiles).getD [] ++
      entries.map ProfileCatalogEntry.profile := by
  obtain ⟨-, -, h⟩ := Except.bind_eq_ok.mp h
  rw [makeProfileRegistry] at h
  split at h
  · obtain rfl := Except.ok.inj h
    rfl
  · cases h

/-! ## What a candidate is -/

section Candidates

variable {files : LocalFiles}

theorem rejectMismatches_ok {text : String} {fields : List (Bool × String)}
    (h : rejectMismatches text fields = .ok ()) : ∀ field ∈ fields, field.1 = false := by
  rw [rejectMismatches] at h
  split at h
  · next hnone =>
      rw [List.map_eq_nil_iff, List.filter_eq_nil_iff] at hnone
      exact fun field hfield => Bool.eq_false_of_not_eq_true (hnone field hfield)
  · cases h

/-- A package is that of its reference, and depends on what the reference declares. -/
theorem domainPackageCandidate_ok {reference : EcosystemDomainPackageRef}
    {candidate : InstallCandidate EcosystemDomainPackageRef DomainPackage}
    (h : domainPackageCandidate files reference = .ok candidate) :
    candidate.item.identity = reference.identity ∧
      (reference.dependencies = [] ∨ reference.dependencies = candidate.item.manifest.dependencies) := by
  obtain ⟨path, -, h⟩ := Except.bind_eq_ok.mp h
  obtain ⟨-, -, h⟩ := Except.bind_eq_ok.mp h
  obtain ⟨package, -, h⟩ := Except.bind_eq_ok.mp h
  split at h
  · cases h
  · next hidentity =>
      obtain ⟨⟨⟩, hmetadata, h⟩ := Except.bind_eq_ok.mp h
      obtain ⟨-, -, h⟩ := Except.bind_eq_ok.mp h
      obtain rfl := Except.ok.inj h
      refine ⟨not_not.mp hidentity, ?_⟩
      have hsame := rejectMismatches_ok hmetadata
        (reference.dependencies ≠ [] && reference.dependencies ≠ package.manifest.dependencies, "dependencies")
        (by simp)
      rw [Bool.and_eq_false_iff, decide_eq_false_iff_not, decide_eq_false_iff_not, not_not, not_not] at hsame
      exact hsame

theorem evaluationDatasetCandidate_ok {reference : EcosystemEvaluationDatasetRef}
    {candidate : InstallCandidate EcosystemEvaluationDatasetRef EvaluationDataset}
    (h : evaluationDatasetCandidate files reference = .ok candidate) :
    (candidate.item.identity.name, candidate.item.identity.version) = (reference.name, reference.version) := by
  obtain ⟨path, -, h⟩ := Except.bind_eq_ok.mp h
  obtain ⟨-, -, h⟩ := Except.bind_eq_ok.mp h
  obtain ⟨dataset, -, h⟩ := Except.bind_eq_ok.mp h
  split at h
  · cases h
  · next hidentity =>
      obtain ⟨-, -, h⟩ := Except.bind_eq_ok.mp h
      obtain rfl := Except.ok.inj h
      exact not_not.mp hidentity

theorem profileCandidate_ok {reference : EcosystemProfileRef}
    {candidate : InstallCandidate EcosystemProfileRef ProfileCatalogEntry}
    (h : profileCandidate files reference = .ok candidate) :
    (candidate.item.profile.name, candidate.item.profile.version) = (reference.name, reference.version) := by
  obtain ⟨path, -, h⟩ := Except.bind_eq_ok.mp h
  obtain ⟨-, -, h⟩ := Except.bind_eq_ok.mp h
  obtain ⟨entry, -, h⟩ := Except.bind_eq_ok.mp h
  split at h
  · cases h
  · next hidentity =>
      obtain ⟨-, -, h⟩ := Except.bind_eq_ok.mp h
      obtain rfl := Except.ok.inj h
      exact not_not.mp hidentity

/-- The candidates for a list of references, in its order, by what a reference and its candidate share. -/
theorem candidates_map {ρ α β : Type} {candidate : ρ → Except InstallError (InstallCandidate ρ α)}
    {references : List ρ} {candidates : List (InstallCandidate ρ α)} {f : α → β} {g : ρ → β}
    (h : references.mapM candidate = .ok candidates)
    (hshared : ∀ reference c, candidate reference = .ok c → f c.item = g reference) :
    candidates.map (fun c => f c.item) = references.map g := by
  have hpairs := Except.mapM_eq_ok.mp h
  induction hpairs with
  | nil => rfl
  | cons hc _ ih =>
    rw [List.map_cons, List.map_cons, hshared _ _ hc, ih (Except.mapM_eq_ok.mpr ‹_›)]

end Candidates

/-! ## Dependencies -/

def Complete (g : Predecessors DomainIdentity) : Prop :=
  ∀ row ∈ g, ∀ dependency ∈ row.2, dependency ∈ g.map Prod.fst

def Resolvable (g : Predecessors DomainIdentity) : Prop := Complete g ∧ g.Acyclic

section Dependencies

variable {files : LocalFiles} {g : Predecessors DomainIdentity}

theorem missingDependencies_eq_nil_iff : missingDependencies g = [] ↔ Complete g := by
  rw [missingDependencies, List.flatMap_eq_nil_iff]
  refine forall₂_congr fun row _ => ?_
  rw [List.map_eq_nil_iff, List.filter_eq_nil_iff]
  simp only [decide_eq_true_eq, not_not]

theorem knownGraph_eq (h : Complete g) : knownGraph g = g := by
  have hrow : ∀ row ∈ g, (row.1, row.2.filter fun dependency => decide (dependency ∈ g.map Prod.fst)) = row := by
    intro row hrow
    rw [List.filter_eq_self.mpr fun dependency hd => decide_eq_true (h row hrow dependency hd)]
  exact (List.map_congr_left hrow).trans (List.map_id g)

theorem edge_of_subset {g g' : Predecessors DomainIdentity}
    (h : ∀ row ∈ g', ∃ row' ∈ g, row'.1 = row.1 ∧ row.2 ⊆ row'.2) (p n : DomainIdentity)
    (hedge : g'.Edge p n) : g.Edge p n := by
  obtain ⟨ps, hmem, hp⟩ := Predecessors.mem_of.mp hedge
  obtain ⟨⟨n', ps'⟩, hmem', rfl, hsub⟩ := h _ hmem
  exact Predecessors.mem_of.mpr ⟨ps', hmem', hsub hp⟩

theorem dependencyCycles_eq_nil (h : g.Acyclic) : dependencyCycles files g = [] := by
  rw [dependencyCycles]
  split
  · next hnone =>
      refine absurd (h.mono (edge_of_subset fun row hrow => ?_)) (TopologicalSorter.staticOrder_eq_none_iff.mp hnone)
      obtain ⟨row', hrow', rfl⟩ := List.mem_map.mp ((List.mem_insertionSort _).mp hrow)
      exact ⟨row', hrow', rfl, List.filter_sublist.subset⟩
  · rfl

end Dependencies

/-! ## The order of the packages -/

section Sorting

variable {files : LocalFiles} {candidates sorted : List (InstallCandidate EcosystemDomainPackageRef DomainPackage)}

theorem keys_dependencies (candidates : List (InstallCandidate EcosystemDomainPackageRef DomainPackage)) :
    (dependencies candidates).map Prod.fst = candidates.map fun c => c.item.identity := by
  rw [dependencies, List.map_map]
  rfl

theorem get?_byIdentity (hids : (candidates.map fun c => c.item.identity).Nodup)
    {c : InstallCandidate EcosystemDomainPackageRef DomainPackage} (hc : c ∈ candidates) :
    (byIdentity candidates).get? c.item.identity = some c :=
  Table.get?_of_mem ((Table.mem_foldl_put (List.inj_on_of_nodup_map hids)).mpr (.inl hc))

theorem mem_nodes_of_complete {g : Predecessors DomainIdentity} (h : Complete g) {n : DomainIdentity} :
    n ∈ g.nodes ↔ n ∈ g.map Prod.fst := by
  rw [Predecessors.mem_nodes]
  constructor
  · rintro ⟨row, hrow, rfl | hn⟩
    · exact List.mem_map_of_mem hrow
    · exact h row hrow n hn
  · intro hn
    obtain ⟨row, hrow, rfl⟩ := List.mem_map.mp hn
    exact ⟨row, hrow, .inl rfl⟩

/-- The sorted candidates have the identities in the order of the sorter. -/
theorem map_filterMap_byIdentity (hids : (candidates.map fun c => c.item.identity).Nodup)
    {order : List DomainIdentity} (horder : ∀ n ∈ order, n ∈ candidates.map fun c => c.item.identity) :
    (order.filterMap (byIdentity candidates).get?).map (fun c => c.item.identity) = order := by
  induction order with
  | nil => rfl
  | cons n order ih =>
    rw [List.forall_mem_cons] at horder
    obtain ⟨c, hc, rfl⟩ := List.mem_map.mp horder.1
    rw [List.filterMap_cons_some (get?_byIdentity hids hc), List.map_cons, ih horder.2]

theorem sortInstallCandidates_ok (hids : (candidates.map fun c => c.item.identity).Nodup)
    (hcomplete : Complete (dependencies candidates))
    (h : sortInstallCandidates files candidates = .ok sorted) :
    (sorted.map fun c => c.item.identity).Perm (candidates.map fun c => c.item.identity) ∧
      sorted ⊆ candidates ∧
      ∀ before c after, sorted = before ++ c :: after →
        ∀ dependency ∈ c.item.manifest.dependencies, dependency ∈ before.map fun c => c.item.identity := by
  rw [sortInstallCandidates] at h
  cases horder : TopologicalSorter.staticOrder (knownGraph (dependencies candidates)) with
  | none =>
    rw [horder] at h
    cases h
  | some order =>
    rw [horder] at h
    obtain rfl := Except.ok.inj h
    rw [knownGraph_eq hcomplete] at horder
    obtain ⟨hperm, hafter⟩ := TopologicalSorter.staticOrder_spec horder
    have hnodes : ∀ n, n ∈ order ↔ n ∈ candidates.map fun c => c.item.identity := by
      intro n
      rw [hperm.mem_iff, mem_nodes_of_complete hcomplete, keys_dependencies]
    have hmap := map_filterMap_byIdentity hids fun n hn => (hnodes n).mp hn
    have hsubset : order.filterMap (byIdentity candidates).get? ⊆ candidates := by
      intro c hc
      obtain ⟨n, -, hget⟩ := List.mem_filterMap.mp hc
      rcases Table.of_mem_foldl_put (Table.get?_eq_some.mp hget).1 with hmem | hmem
      · exact hmem
      · exact absurd hmem (Table.not_mem_empty c)
    refine ⟨?_, hsubset, fun before c after hsplit dependency hd => ?_⟩
    · rw [hmap]
      refine (List.perm_ext_iff_of_nodup ?_ hids).mpr hnodes
      exact hperm.nodup_iff.mpr (nodup_eraseDups _)
    · have hc : c ∈ candidates := hsubset (hsplit ▸ List.mem_append_right _ List.mem_cons_self)
      rw [hsplit, List.map_append, List.map_cons] at hmap
      refine hafter _ _ _ hmap.symm dependency (Predecessors.mem_of.mpr ⟨_, ?_, hd⟩)
      exact List.mem_map.mpr ⟨c, hc, rfl⟩

theorem sortInstallCandidates_isOk_iff (hcomplete : Complete (dependencies candidates)) :
    (∃ sorted, sortInstallCandidates files candidates = .ok sorted) ↔ (dependencies candidates).Acyclic := by
  rw [sortInstallCandidates, knownGraph_eq hcomplete]
  cases horder : TopologicalSorter.staticOrder (dependencies candidates) with
  | none => exact iff_of_false (fun ⟨_, h⟩ => nomatch h) (TopologicalSorter.staticOrder_eq_none_iff.mp horder)
  | some order =>
    refine iff_of_true ⟨_, rfl⟩ (not_not.mp fun hcyclic => ?_)
    rw [TopologicalSorter.staticOrder_eq_none_iff.mpr hcyclic] at horder
    cases horder

end Sorting

/-! ## What is planned -/

section Planned

variable {files : LocalFiles} {policy : EcosystemRegistryTrustPolicy}
  {verifier : Option (EcosystemRegistryManifest → SignatureVerification)}
  {manifest : EcosystemRegistryManifest} {verify : Bool}

theorem planDomainPackageInstall_ok
    {sorted : List (InstallCandidate EcosystemDomainPackageRef DomainPackage)}
    (h : planDomainPackageInstall files policy verifier manifest verify = .ok sorted) :
    ∃ candidates, manifest.domainPackages.mapM (domainPackageCandidate files) = .ok candidates ∧
      Complete (dependencies candidates) ∧ sortInstallCandidates files candidates = .ok sorted := by
  obtain ⟨-, -, h⟩ := Except.bind_eq_ok.mp h
  obtain ⟨-, -, h⟩ := Except.bind_eq_ok.mp h
  obtain ⟨candidates, hcandidates, h⟩ := Except.bind_eq_ok.mp h
  obtain ⟨⟨⟩, hverified, h⟩ := Except.bind_eq_ok.mp h
  refine ⟨candidates, hcandidates, ?_, h⟩
  rw [verifyInstallDependencies] at hverified
  split at hverified
  · next hnone => exact missingDependencies_eq_nil_iff.mp hnone
  · cases hverified

theorem planEcosystemInstall_ok {plan : EcosystemInstallPlan}
    (h : planEcosystemInstall files policy verifier manifest verify = .ok plan) :
    planDomainPackageInstall files policy verifier manifest false = .ok plan.domainPackages ∧
      manifest.evaluationDatasets.mapM (evaluationDatasetCandidate files) = .ok plan.evaluationDatasets ∧
      manifest.profiles.mapM (profileCandidate files) = .ok plan.profiles := by
  obtain ⟨-, -, h⟩ := Except.bind_eq_ok.mp h
  obtain ⟨-, -, h⟩ := Except.bind_eq_ok.mp h
  obtain ⟨packages, hpackages, h⟩ := Except.bind_eq_ok.mp h
  obtain ⟨datasets, hdatasets, h⟩ := Except.bind_eq_ok.mp h
  obtain ⟨profiles, hprofiles, h⟩ := Except.bind_eq_ok.mp h
  obtain rfl := Except.ok.inj h
  exact ⟨hpackages, hdatasets, hprofiles⟩

/-- The packages have the identities of the references. -/
theorem candidates_identities {candidates : List (InstallCandidate EcosystemDomainPackageRef DomainPackage)}
    (h : manifest.domainPackages.mapM (domainPackageCandidate files) = .ok candidates) :
    candidates.map (fun c => c.item.identity) =
      manifest.domainPackages.map EcosystemDomainPackageRef.identity :=
  candidates_map h fun _ _ hc => (domainPackageCandidate_ok hc).1

theorem candidates_nodup {candidates : List (InstallCandidate EcosystemDomainPackageRef DomainPackage)}
    (h : manifest.domainPackages.mapM (domainPackageCandidate files) = .ok candidates) :
    (candidates.map fun c => c.item.identity).Nodup := by
  have hdistinct : ((manifest.domainPackages.map EcosystemDomainPackageRef.identity).map identityText).Nodup := by
    rw [List.map_map]
    exact manifest.packages_distinct
  rw [candidates_identities h]
  exact hdistinct.of_map

/-- What the references declare is part of what the packages depend on. -/
theorem declared_subset {candidates : List (InstallCandidate EcosystemDomainPackageRef DomainPackage)}
    (h : manifest.domainPackages.mapM (domainPackageCandidate files) = .ok candidates) :
    ∀ row ∈ manifest.declared, ∃ row' ∈ dependencies candidates, row'.1 = row.1 ∧ row.2 ⊆ row'.2 := by
  intro row hrow
  obtain ⟨reference, hreference, rfl⟩ := List.mem_map.mp hrow
  obtain ⟨c, hc, hok⟩ := Except.exists_of_mapM_eq_ok h reference hreference
  obtain ⟨hidentity, hdeclared⟩ := domainPackageCandidate_ok hok
  refine ⟨_, List.mem_map.mpr ⟨c, hc, rfl⟩, hidentity, ?_⟩
  rcases hdeclared with hnone | hsame
  · rw [hnone]
    exact List.nil_subset _
  · rw [hsame]
    exact List.Subset.refl _

/-- A plan is made only where all dependencies can be resolved, those of the packages and those declared. -/
theorem planned_resolvable {sorted : List (InstallCandidate EcosystemDomainPackageRef DomainPackage)}
    (h : planDomainPackageInstall files policy verifier manifest verify = .ok sorted) :
    Resolvable manifest.declared ∧ ∀ candidates,
      manifest.domainPackages.mapM (domainPackageCandidate files) = .ok candidates →
        Resolvable (dependencies candidates) := by
  obtain ⟨candidates, hcandidates, hcomplete, hsorted⟩ := planDomainPackageInstall_ok h
  have hacyclic := (sortInstallCandidates_isOk_iff hcomplete).mp ⟨sorted, hsorted⟩
  have hsub := declared_subset hcandidates
  refine ⟨⟨fun row hrow dependency hd => ?_, hacyclic.mono (edge_of_subset hsub)⟩, fun candidates' h' => ?_⟩
  · obtain ⟨row', hrow', -, hrest⟩ := hsub row hrow
    have hkey := hcomplete row' hrow' dependency (hrest hd)
    rw [keys_dependencies, candidates_identities hcandidates] at hkey
    rw [EcosystemRegistryManifest.declared, List.map_map]
    exact hkey
  · rw [hcandidates] at h'
    obtain rfl := Except.ok.inj h'
    exact ⟨hcomplete, hacyclic⟩

end Planned

/-! ## What is raised -/

def InstallError.BlamesDependencies : InstallError → Prop
  | .missingDependencies _ | .dependencyCycle _ => True
  | .verification failed => ∃ check ∈ failed,
      check.name = "package_dependencies_registered" ∨ check.name = "package_dependencies_acyclic"
  | _ => False

section Blame

variable {files : LocalFiles} {policy : EcosystemRegistryTrustPolicy}
  {verifier : Option (EcosystemRegistryManifest → SignatureVerification)}
  {manifest : EcosystemRegistryManifest} {verify : Bool}

abbrev Blameless {α : Type} (x : Except InstallError α) : Prop :=
  Except.Raises (fun e => ¬e.BlamesDependencies) x

theorem blameless_trust : Blameless (verifyRegistryTrust manifest policy verifier) := by
  unfold verifyRegistryTrust
  refine .ite (fun _ => ?_) fun _ => .ite (fun _ => .ok _) fun _ => .error id
  cases verifier with
  | none => exact .ite (fun _ => .ok _) fun _ => .error id
  | some verify => exact .ite (fun _ => .ok _) fun _ => .error id

theorem blameless_sha256 (path : ManifestPath) (expected label : String) :
    Blameless (verifyFileSha256 files path expected label) :=
  .ite (fun _ => .ok _) fun _ => .ite (fun _ => .error id) fun _ => .ite (fun _ => .error id) fun _ => .ok _

theorem blameless_path (kind identity value : String) : Blameless (referencePath files kind identity value) := by
  refine .ite (fun _ => .error id) fun _ => ?_
  cases files.resolve value with
  | none => exact .error id
  | some path => exact .ok path

theorem blameless_loaded {α : Type} (x : Except String α) : Blameless (loaded x) := by
  cases x with
  | error text => exact .error id
  | ok a => exact .ok a

theorem blameless_mismatches (text : String) (fields : List (Bool × String)) :
    Blameless (rejectMismatches text fields) :=
  .ite (fun _ => .ok _) fun _ => .error id

theorem blameless_package (reference : EcosystemDomainPackageRef) :
    Blameless (domainPackageCandidate files reference) :=
  (blameless_path _ _ _).bind fun _ _ => (blameless_sha256 _ _ _).bind fun _ _ =>
    (blameless_loaded _).bind fun _ _ => .ite (fun _ => .error id) fun _ =>
      (blameless_mismatches _ _).bind fun _ _ =>
        Except.Raises.bind (.ite (fun _ => .ok _) fun _ => .error id) fun _ _ => .ok _

theorem blameless_dataset (reference : EcosystemEvaluationDatasetRef) :
    Blameless (evaluationDatasetCandidate files reference) :=
  (blameless_path _ _ _).bind fun _ _ => (blameless_sha256 _ _ _).bind fun _ _ =>
    (blameless_loaded _).bind fun _ _ => .ite (fun _ => .error id) fun _ =>
      (blameless_mismatches _ _).bind fun _ _ => .ok _

theorem blameless_profile (reference : EcosystemProfileRef) : Blameless (profileCandidate files reference) :=
  (blameless_path _ _ _).bind fun _ _ => (blameless_sha256 _ _ _).bind fun _ _ =>
    (blameless_loaded _).bind fun _ _ => .ite (fun _ => .error id) fun _ =>
      (blameless_mismatches _ _).bind fun _ _ => .ok _

theorem blameless_duplicates (message : String) (names taken : List String) :
    Blameless (rejectDuplicates message names taken) :=
  .ite (fun _ => .ok _) fun _ => .error id

theorem blameless_profiles (entries : List ProfileCatalogEntry) (registry : Option ProfileRegistry) :
    Blameless (profileInstallRegistry entries registry) := by
  refine (blameless_duplicates _ _ _).bind fun _ _ => ?_
  rw [makeProfileRegistry]
  split
  · exact .ok _
  · exact .error id

theorem referenceCheck_name (name : String) (missing : List String) (passedMessage failedPrefix : String) :
    (referenceCheck name missing passedMessage failedPrefix).name = name := by
  rw [referenceCheck]
  split
  · rfl
  · rfl

/-- The check of the references does not blame dependencies that can be resolved. -/
theorem blameless_source (h : Resolvable manifest.declared) : Blameless (verifyInstallSource files manifest) := by
  rw [verifyInstallSource]
  refine .ite (fun _ => .ok _) fun _ => .error ?_
  rintro ⟨check, hcheck, hname⟩
  obtain ⟨hmem, hfailed⟩ := List.mem_filter.mp hcheck
  rw [verifyIndex, missingDependencies_eq_nil_iff.mpr h.1, dependencyCycles_eq_nil h.2] at hmem
  simp only [List.mem_cons, List.not_mem_nil, or_false] at hmem
  rcases hmem with rfl | rfl | rfl | rfl
  · rw [referenceCheck_name] at hname
    exact absurd hname (by decide)
  · rw [referenceCheck_name] at hname
    exact absurd hname (by decide)
  · cases hfailed
  · cases hfailed

theorem blameless_source_if (h : Resolvable manifest.declared) :
    Blameless (verifySourceIf verify files manifest) :=
  .ite (fun _ => blameless_source h) fun _ => .ok _

theorem blameless_plan (h : Resolvable manifest.declared)
    (hloaded : ∀ candidates, manifest.domainPackages.mapM (domainPackageCandidate files) = .ok candidates →
      Resolvable (dependencies candidates)) :
    Blameless (planDomainPackageInstall files policy verifier manifest verify) := by
  refine blameless_trust.bind fun _ _ => (blameless_source_if h).bind fun _ _ =>
    (Except.Raises.mapM blameless_package).bind fun candidates hcandidates => ?_
  obtain ⟨hcomplete, hacyclic⟩ := hloaded candidates hcandidates
  obtain ⟨sorted, hsorted⟩ := (sortInstallCandidates_isOk_iff hcomplete).mpr hacyclic
  rw [verifyInstallDependencies, missingDependencies_eq_nil_iff.mpr hcomplete]
  exact hsorted ▸ .ok _

theorem blameless_prepare {profiles : Option ProfileRegistry} {r : Registries} (h : Resolvable manifest.declared)
    (hloaded : ∀ candidates, manifest.domainPackages.mapM (domainPackageCandidate files) = .ok candidates →
      Resolvable (dependencies candidates)) :
    Blameless (prepare files policy verifier manifest verify profiles r) := by
  refine Except.Raises.bind ?_ fun plan _ => (blameless_duplicates _ _ _).bind fun _ _ =>
    (blameless_duplicates _ _ _).bind fun _ _ => (blameless_profiles _ _).bind fun _ _ => .ok _
  exact blameless_trust.bind fun _ _ => (blameless_source_if h).bind fun _ _ =>
    (blameless_plan h hloaded).bind fun _ _ => (Except.Raises.mapM blameless_dataset).bind fun _ _ =>
      (Except.Raises.mapM blameless_profile).bind fun _ _ => .ok _

end Blame

/-! ## Installation -/

section Installation

variable {files : LocalFiles} {policy : EcosystemRegistryTrustPolicy}
  {verifier : Option (EcosystemRegistryManifest → SignatureVerification)}
  {manifest : EcosystemRegistryManifest} {verify : Bool} {profiles : Option ProfileRegistry} {r : Registries}

/-- Every item of the manifest is installed once, each package after those it depends on. -/
structure Installed (manifest : EcosystemRegistryManifest) (profiles : Option ProfileRegistry)
    (r r' : Registries) (result : EcosystemInstallResult) : Prop where
  packages : r'.domainPackages.rows = r.domainPackages.rows ++ result.installedDomainPackages
  datasets : r'.evaluationDatasets.rows = r.evaluationDatasets.rows ++ result.installedEvaluationDatasets
  profiles : result.profiles.profiles = (profiles.map ProfileRegistry.profiles).getD [] ++
    result.installedProfiles.map ProfileCatalogEntry.profile
  allPackages : (result.installedDomainPackages.map DomainPackage.identity).Perm
    (manifest.domainPackages.map EcosystemDomainPackageRef.identity)
  allDatasets : result.installedEvaluationDatasets.map (fun d => (d.identity.name, d.identity.version)) =
    manifest.evaluationDatasets.map fun reference => (reference.name, reference.version)
  allProfiles : result.installedProfiles.map (fun entry => (entry.profile.name, entry.profile.version)) =
    manifest.profiles.map fun reference => (reference.name, reference.version)
  ordered : ∀ before package after, result.installedDomainPackages = before ++ package :: after →
    ∀ dependency ∈ package.manifest.dependencies, dependency ∈ before.map DomainPackage.identity

/-- What is refused is refused before anything is registered. -/
theorem installEcosystem_eq :
    (∃ e, prepare files policy verifier manifest verify profiles r = .error e ∧
      installEcosystem files policy verifier manifest verify profiles r = .error e r) ∨
    ∃ prepared packages datasets, prepare files policy verifier manifest verify profiles r = .ok prepared ∧
      installEcosystem files policy verifier manifest verify profiles r =
        .ok ⟨prepared.profiles, prepared.packages, prepared.datasets, prepared.entries⟩ ⟨packages, datasets⟩ ∧
      packages.rows = r.domainPackages.rows ++ prepared.packages ∧
      datasets.rows = r.evaluationDatasets.rows ++ prepared.datasets := by
  rw [installEcosystem]
  cases hprepare : prepare files policy verifier manifest verify profiles r with
  | error e => exact .inl ⟨e, rfl, rfl⟩
  | ok prepared =>
    obtain ⟨plan, -, h⟩ := Except.bind_eq_ok.mp hprepare
    obtain ⟨⟨⟩, hpackages, h⟩ := Except.bind_eq_ok.mp h
    obtain ⟨⟨⟩, hdatasets, h⟩ := Except.bind_eq_ok.mp h
    obtain ⟨_, -, h⟩ := Except.bind_eq_ok.mp h
    obtain rfl := Except.ok.inj h
    obtain ⟨packages, hrun, hrows⟩ := registerAll_registrable (rejectPackageDuplicates_ok hpackages)
    obtain ⟨datasets, hrun', hrows'⟩ := registerAll_registrable (rejectDatasetDuplicates_ok hdatasets)
    refine .inr ⟨_, packages, datasets, rfl, ?_, hrows, hrows'⟩
    dsimp only
    rw [hrun]
    dsimp only
    rw [hrun']

theorem prepared_installed {prepared : Prepared} {packages : DomainPackageRegistry}
    {datasets : EvaluationDatasetRegistry}
    (h : prepare files policy verifier manifest verify profiles r = .ok prepared)
    (hpackages : packages.rows = r.domainPackages.rows ++ prepared.packages)
    (hdatasets : datasets.rows = r.evaluationDatasets.rows ++ prepared.datasets) :
    Installed manifest profiles r ⟨packages, datasets⟩
      ⟨prepared.profiles, prepared.packages, prepared.datasets, prepared.entries⟩ := by
  obtain ⟨plan, hplan, h⟩ := Except.bind_eq_ok.mp h
  obtain ⟨-, -, h⟩ := Except.bind_eq_ok.mp h
  obtain ⟨-, -, h⟩ := Except.bind_eq_ok.mp h
  obtain ⟨registry, hregistry, h⟩ := Except.bind_eq_ok.mp h
  obtain rfl := Except.ok.inj h
  obtain ⟨hsorted, hfound, hentries⟩ := planEcosystemInstall_ok hplan
  obtain ⟨candidates, hcandidates, hcomplete, hsorted⟩ := planDomainPackageInstall_ok hsorted
  obtain ⟨hperm, -, hafter⟩ := sortInstallCandidates_ok (candidates_nodup hcandidates) hcomplete hsorted
  constructor
  · exact hpackages
  · exact hdatasets
  · exact profileInstallRegistry_ok hregistry
  · rw [candidates_identities hcandidates] at hperm
    rw [List.map_map]
    exact hperm
  · rw [List.map_map]
    exact @candidates_map _ _ _ _ _ _ (fun d => (d.identity.name, d.identity.version))
      (fun reference => (reference.name, reference.version)) hfound fun _ _ hc => evaluationDatasetCandidate_ok hc
  · rw [List.map_map]
    exact @candidates_map _ _ _ _ _ _ (fun entry => (entry.profile.name, entry.profile.version))
      (fun reference => (reference.name, reference.version)) hentries fun _ _ hc => profileCandidate_ok hc
  · intro before package after hsplit dependency hd
    obtain ⟨before', rest, hsplit', rfl, hrest⟩ := List.map_eq_append_iff.mp hsplit
    obtain ⟨c, after', rfl, rfl, rfl⟩ := List.map_eq_cons_iff.mp hrest
    rw [List.map_map]
    exact hafter before' c after' hsplit' dependency hd

end Installation

/-- **Installation** raises and leaves the registries as they were, or installs every item of the catalog
once, each package after those it depends on. Where a dependency is missing or there is a cycle it raises;
where all can be resolved, the dependencies are not what it raises for. -/
theorem ecosystem_installation (files : LocalFiles) (policy : EcosystemRegistryTrustPolicy)
    (verifier : Option (EcosystemRegistryManifest → SignatureVerification))
    (manifest : EcosystemRegistryManifest) (verify : Bool) (profiles : Option ProfileRegistry) (r : Registries) :
    (match installEcosystem files policy verifier manifest verify profiles r with
      | .ok result r' => Installed manifest profiles r r' result
      | .error _ r' => r' = r) ∧
    ((¬Resolvable manifest.declared ∨ ∃ candidates,
        manifest.domainPackages.mapM (domainPackageCandidate files) = .ok candidates ∧
          ¬Resolvable (dependencies candidates)) →
      ∃ e, installEcosystem files policy verifier manifest verify profiles r = .error e r) ∧
    (Resolvable manifest.declared → (∀ candidates,
        manifest.domainPackages.mapM (domainPackageCandidate files) = .ok candidates →
          Resolvable (dependencies candidates)) →
      ∀ e r', installEcosystem files policy verifier manifest verify profiles r = .error e r' →
        ¬e.BlamesDependencies) := by
  rcases @installEcosystem_eq files policy verifier manifest verify profiles r with
    ⟨e, hprepare, hrun⟩ | ⟨prepared, packages, datasets, hprepare, hrun, hpackages, hdatasets⟩
  · rw [hrun]
    refine ⟨rfl, fun _ => ⟨e, rfl⟩, fun hdeclared hloaded e' r' heq => ?_⟩
    obtain ⟨rfl, -⟩ := EStateM.Result.error.inj heq
    exact blameless_prepare hdeclared hloaded e hprepare
  · rw [hrun]
    refine ⟨prepared_installed hprepare hpackages hdatasets, fun hbroken => ?_, fun _ _ _ _ heq => nomatch heq⟩
    obtain ⟨plan, hplan, -⟩ := Except.bind_eq_ok.mp hprepare
    obtain ⟨hdeclared, hloaded⟩ := planned_resolvable (planEcosystemInstall_ok hplan).1
    rcases hbroken with hbroken | ⟨candidates, hcandidates, hbroken⟩
    · exact absurd hdeclared hbroken
    · exact absurd (hloaded candidates hcandidates) hbroken

end UniversalAgent.Ecosystem
