import UniversalAgent.Foundation.DisjointSets
import UniversalAgent.Foundation.Grouping
import UniversalAgent.World.Model

/-!
# World — Cross domain

The worlds of several domains merged into one (`world/cross_domain.py`). Relations of identity make classes
of entities, each known by its least member; facts, entities and relations are about these, and a fact that
several domains know is chosen among what they say of it. A merge that does not end is `none`.

The moment of the merged snapshot is left out, and the JSON text of a value is a parameter. The facts
of views are taken to be objects of their own, so that one of them `is` another only if it is the same entry's.
-/

namespace UniversalAgent.World

open UniversalAgent.Core UniversalAgent.Foundation

structure DomainWorldView where
  domain : String
  snapshot : WorldSnapshot
deriving DecidableEq

structure CrossDomainConflict where
  subject : String
  claim : String
  values : List Json
  domains : List String
deriving DecidableEq

structure FactDomainSource where
  subject : String
  claim : String
  domains : List String
deriving DecidableEq

structure EntityIdentityMapping where
  canonicalId : String
  aliases : List String
  evidenceIds : List EvidenceId
deriving DecidableEq

structure FactEntry where
  domain : String
  subject : String
  fact : WorldFact
deriving DecidableEq

abbrev FactEntry.key (e : FactEntry) : String × String := (e.subject, e.fact.claim)

inductive WorldFactMergeStrategy where
  | confidenceThenRecency | recencyThenConfidence
deriving DecidableEq

def WorldFactMergeStrategy.value : WorldFactMergeStrategy → String
  | .confidenceThenRecency => "confidence_then_recency"
  | .recencyThenConfidence => "recency_then_confidence"

inductive WorldConflictResolutionStrategy where
  | selectedFact | requireReview | preferDomain
deriving DecidableEq

inductive WorldConflictResolutionStatus where
  | resolved | reviewRequired
deriving DecidableEq

structure WorldConflictResolution where
  subject : String
  claim : String
  status : WorldConflictResolutionStatus
  selectedValue : Json
  selectedDomains : List String
  selectedEvidenceIds : List EvidenceId
  reason : String
deriving DecidableEq

structure WorldMergePolicy where
  identityRelationNames : List String := ["same_as"]
  factStrategy : WorldFactMergeStrategy := .confidenceThenRecency
  conflictStrategy : WorldConflictResolutionStrategy := .selectedFact
  domainPriority : List String := []
deriving DecidableEq

structure MergedWorld where
  snapshot : WorldSnapshot
  conflicts : List CrossDomainConflict
  factDomainSources : List FactDomainSource
  identityMappings : List EntityIdentityMapping
  conflictResolutions : List WorldConflictResolution
deriving DecidableEq

/-- `tuple(sorted(set(texts)))`. -/
def sortedSet (texts : List String) : List String := texts.dedup.insertionSort (· ≤ ·)

/-! ## Identity -/

def identityEdges (names : List String) (relations : List WorldRelation) : List (String × String) :=
  (relations.filter fun r => r.relation ∈ names).map fun r => (r.source, r.target)

/-- The mappings of the classes, as they are come to: each class has its members, and what is found of the
relations tells which are evidence for it. -/
def classMappings (identityRelations : List WorldRelation) :
    List (String × List (String × String)) → Parents String → Option (List EntityIdentityMapping)
  | [], _ => some []
  | (canonicalId, members) :: groups, parents => do
      let aliases := sortedSet (members.map Prod.snd)
      if aliases.length < 2 then classMappings identityRelations groups parents
      else
        let (found, parents) ← parents.findAll WorldRelation.source identityRelations
        let evidence := (found.filter fun pair => pair.1 = canonicalId).flatMap fun pair => pair.2.evidenceIds
        let mappings ← classMappings identityRelations groups parents
        some (⟨canonicalId, aliases, dedupeEvidenceIds evidence⟩ :: mappings)

def buildEntityIdentityMappings (relations : List WorldRelation) (identityRelationNames : List String) :
    Option (List EntityIdentityMapping) := do
  let identityRelations := relations.filter fun r => r.relation ∈ identityRelationNames
  let parents ← Parents.unions (identityEdges identityRelationNames relations)
  let (found, parents) ← parents.findAll id (parents.rows.map Prod.fst)
  let mappings ← classMappings identityRelations (groupBy Prod.fst found) parents
  some (sortedBy (fun m => [m.canonicalId]) mappings)

def allRelations (views : List DomainWorldView) : List WorldRelation :=
  views.flatMap fun view => view.snapshot.relations

def canonicalIdMapping (mappings : List EntityIdentityMapping) : List (String × String) :=
  (mappings.flatMap fun m => m.aliases.map fun a => (a, m.canonicalId)).foldl
    (fun ids item => dictSet ids item.1 item.2) []

def canonicalEntityId (entityId : String) (canonicalIds : List (String × String)) : String :=
  (canonicalIds.lookup entityId).getD entityId

/-! ## Choosing a fact -/

def RankedBelow (strategy : WorldFactMergeStrategy) (a b : WorldFact) : Prop :=
  match strategy with
  | .confidenceThenRecency =>
    a.confidence < b.confidence ∨ a.confidence = b.confidence ∧ a.observedAt < b.observedAt
  | .recencyThenConfidence =>
    a.observedAt < b.observedAt ∨ a.observedAt = b.observedAt ∧ a.confidence < b.confidence

instance (strategy : WorldFactMergeStrategy) : DecidableRel (RankedBelow strategy) := fun a b => by
  cases strategy <;> exact inferInstanceAs (Decidable (_ ∨ _))

def domainPriorityRank (domain : String) (domainPriority : List String) : Nat :=
  if domain ∈ domainPriority then domainPriority.length - domainPriority.idxOf domain else 0

/-- The order of entries by the priority of their domains, then by rank. -/
def PreferredBelow (policy : WorldMergePolicy) (a b : FactEntry) : Prop :=
  domainPriorityRank a.domain policy.domainPriority < domainPriorityRank b.domain policy.domainPriority ∨
    domainPriorityRank a.domain policy.domainPriority = domainPriorityRank b.domain policy.domainPriority ∧
      RankedBelow policy.factStrategy a.fact b.fact

instance (policy : WorldMergePolicy) : DecidableRel (PreferredBelow policy) := fun _ _ =>
  inferInstanceAs (Decidable (_ ∨ _))

def WorldMergePolicy.prefersDomains (policy : WorldMergePolicy) : Prop :=
  policy.conflictStrategy = .preferDomain ∧ policy.domainPriority ≠ []

instance (policy : WorldMergePolicy) : Decidable policy.prefersDomains :=
  inferInstanceAs (Decidable (_ ∧ _))

/-- `_choose_fact_entry`: none of no entries. -/
def chooseFactEntry (policy : WorldMergePolicy) : List FactEntry → Option FactEntry
  | [] => none
  | first :: rest =>
    if policy.prefersDomains then
      some (rest.foldl (fun best e => if PreferredBelow policy best e then e else best) first)
    else
      some (rest.foldl (fun chosen e =>
        if RankedBelow policy.factStrategy chosen.fact e.fact then e else chosen) first)

/-! ## Conflicts -/

section Merging

variable (dumps : Json → String)

/-- Every fact of the views, with its domain and its canonical subject. -/
def factEntries (canonicalIds : List (String × String)) (views : List DomainWorldView) : List FactEntry :=
  views.flatMap fun view => view.snapshot.facts.map fun fact =>
    ⟨view.domain, canonicalEntityId fact.subject canonicalIds, fact⟩

def distinctValues (values : List Json) : List (String × Json) :=
  values.foldl (fun distinct value =>
    if dumps value ∈ distinct.map Prod.fst then distinct else distinct ++ [(dumps value, value)]) []

def conflictOf (subject claim : String) (entries : List FactEntry) : Option CrossDomainConflict :=
  if 1 < (distinctValues dumps (entries.map fun e => e.fact.value)).length then
    some ⟨subject, claim, (distinctValues dumps (entries.map fun e => e.fact.value)).map Prod.snd,
      sortedSet (entries.map FactEntry.domain)⟩
  else none

def groupConflicts (grouped : List ((String × String) × List FactEntry)) : List CrossDomainConflict :=
  sortedBy (fun c => [c.subject, c.claim])
    (grouped.filterMap fun group => conflictOf dumps group.1.1 group.1.2 group.2)

def detectCrossDomainConflicts (views : List DomainWorldView) (policy : WorldMergePolicy) :
    Option (List CrossDomainConflict) := do
  let mappings ← buildEntityIdentityMappings (allRelations views) policy.identityRelationNames
  some (groupConflicts dumps (groupBy FactEntry.key (factEntries (canonicalIdMapping mappings) views)))

def conflictResolutionReason (policy : WorldMergePolicy) (chosen : FactEntry) : String :=
  if policy.conflictStrategy = .requireReview then
    "conflicting values require review; snapshot retains a deterministic " ++ policy.factStrategy.value ++
      " selection from " ++ chosen.domain
  else if policy.prefersDomains then
    if chosen.domain ∈ policy.domainPriority then "selected by domain priority from " ++ chosen.domain
    else "no preferred domain observed the claim; selected by fact strategy " ++ policy.factStrategy.value ++
      " from " ++ chosen.domain
  else "selected by fact strategy " ++ policy.factStrategy.value ++ " from " ++ chosen.domain

def resolveConflict (policy : WorldMergePolicy) (entries : List FactEntry) (conflict : CrossDomainConflict) :
    WorldConflictResolution :=
  match chooseFactEntry policy entries with
  | none =>
    ⟨conflict.subject, conflict.claim, .reviewRequired, .null, conflict.domains, [],
      "no fact entries available for conflicting claim"⟩
  | some chosen =>
    let agreeing := entries.filter fun e => dumps e.fact.value = dumps chosen.fact.value
    { subject := conflict.subject
      claim := conflict.claim
      status := if policy.conflictStrategy = .requireReview then .reviewRequired else .resolved
      selectedValue := chosen.fact.value
      selectedDomains := sortedSet (agreeing.map FactEntry.domain)
      selectedEvidenceIds := dedupeEvidenceIds (agreeing.flatMap fun e => e.fact.evidenceIds)
      reason := conflictResolutionReason policy chosen }

def resolveCrossDomainConflicts (conflicts : List CrossDomainConflict)
    (grouped : List ((String × String) × List FactEntry)) (policy : WorldMergePolicy) :
    List WorldConflictResolution :=
  conflicts.map fun conflict =>
    resolveConflict dumps policy ((grouped.lookup (conflict.subject, conflict.claim)).getD []) conflict

/-! ## Merging -/

def mergedFact (policy : WorldMergePolicy) (group : (String × String) × List FactEntry) : Option WorldFact :=
  (chooseFactEntry policy group.2).map fun chosen =>
    { subject := group.1.1
      claim := group.1.2
      value := chosen.fact.value
      confidence := chosen.fact.confidence
      observedAt := chosen.fact.observedAt
      evidenceIds := dedupeEvidenceIds (group.2.flatMap fun e => e.fact.evidenceIds) }

def mergeEntityKind (existing incoming : String) : String :=
  if existing = "unknown" ∧ incoming ≠ "unknown" then incoming
  else if existing ≠ "" then existing else incoming

def mergeEntity (entities : Table WorldEntity.id) (entity : WorldEntity) : Table WorldEntity.id :=
  match entities.get? entity.id with
  | none => entities.put entity
  | some existing =>
    entities.put
      { id := entity.id
        kind := mergeEntityKind existing.kind entity.kind
        attributes := mergeJsonMappings existing.attributes entity.attributes
        evidenceIds := dedupeEvidenceIds (existing.evidenceIds ++ entity.evidenceIds) }

abbrev WorldRelation.key (r : WorldRelation) : String × String × String := (r.source, r.relation, r.target)

def mergeRelation (relations : Table WorldRelation.key) (r : WorldRelation) : Table WorldRelation.key :=
  match relations.get? r.key with
  | none => relations.put r
  | some existing =>
    relations.put { r with evidenceIds := dedupeEvidenceIds (existing.evidenceIds ++ r.evidenceIds) }

/-- A relation between canonical entities, unless it is of identity or of an entity with itself. -/
def canonicalRelation (names : List String) (canonicalIds : List (String × String)) (r : WorldRelation) :
    Option WorldRelation :=
  let source := canonicalEntityId r.source canonicalIds
  let target := canonicalEntityId r.target canonicalIds
  if r.relation ∈ names ∨ source = target then none else some ⟨source, r.relation, target, r.evidenceIds⟩

def resolveMergePolicy (policy : Option WorldMergePolicy) (identityRelationNames : List String) :
    WorldMergePolicy :=
  policy.getD { identityRelationNames := identityRelationNames }

/-- The merged world, once the entities are mapped and the conflicts are known. -/
def mergeWith (views : List DomainWorldView) (sessionId : Option SessionId) (policy : WorldMergePolicy)
    (mappings : List EntityIdentityMapping) (conflicts : List CrossDomainConflict) : MergedWorld :=
  let canonicalIds := canonicalIdMapping mappings
  let grouped := groupBy FactEntry.key (factEntries canonicalIds views)
  let entities := views.flatMap fun view => view.snapshot.entities.map fun entity =>
    { entity with id := canonicalEntityId entity.id canonicalIds }
  let relations := (allRelations views).filterMap
    (canonicalRelation policy.identityRelationNames canonicalIds)
  { snapshot :=
      { sessionId := sessionId.getD "cross-domain-merged"
        facts := sortedBy (fun f => [f.subject, f.claim]) (grouped.filterMap (mergedFact policy))
        factHistories := []
        entities := sortedBy (fun e => [e.id]) (entities.foldl mergeEntity Table.empty).rows
        relations := sortedBy (fun r => [r.source, r.relation, r.target])
          (relations.foldl mergeRelation Table.empty).rows }
    conflicts := conflicts
    factDomainSources := grouped.map fun group =>
      ⟨group.1.1, group.1.2, sortedSet (group.2.map FactEntry.domain)⟩
    identityMappings := mappings
    conflictResolutions := resolveCrossDomainConflicts dumps conflicts grouped policy }

def mergeWorldViews (views : List DomainWorldView) (sessionId : Option SessionId)
    (policy : Option WorldMergePolicy) (identityRelationNames : List String := ["same_as"]) :
    Option MergedWorld := do
  let policy := resolveMergePolicy policy identityRelationNames
  let mappings ← buildEntityIdentityMappings (allRelations views) policy.identityRelationNames
  let conflicts ← detectCrossDomainConflicts dumps views policy
  some (mergeWith dumps views sessionId policy mappings conflicts)

end Merging

end UniversalAgent.World
