import UniversalAgent.Evidence.Store

/-!
# World — Model

`InMemoryWorldModel` (`world/model.py`): what the evidence says about the world, for every
session of the runtimes that share the model. Facts are buckets of evidence by session, subject
and claim; entities and relations are kept beside them and merged as they arrive.

An entity's attributes are a mapping compared without regard to order, so they are a `Finmap`.
The snapshot cache is left out: every update of a session drops its entry.
-/

namespace UniversalAgent.World

open UniversalAgent.Core UniversalAgent.Foundation UniversalAgent.Evidence

abbrev Attributes := Finmap fun _ : String => Json

structure WorldEntity where
  id : String
  kind : String
  attributes : Attributes
  evidenceIds : List EvidenceId
deriving DecidableEq

/-- `==` of two mappings of attributes. -/
def sameAttributes (a b : Attributes) : Bool :=
  a.keys = b.keys && a.all fun key x => (b.lookup key).any fun y => x.pyEq y

/-- `==` of two entities. -/
def sameEntity (a b : WorldEntity) : Bool :=
  a.id = b.id && a.kind = b.kind && sameAttributes a.attributes b.attributes &&
    a.evidenceIds = b.evidenceIds

/-- What is stored of an entity that is merged: one that is equal to what is there is not. -/
def storedEntity : Option WorldEntity → WorldEntity → WorldEntity
  | none, merged => merged
  | some existing, merged => if sameEntity existing merged then existing else merged

theorem storedEntity_id (existing : Option WorldEntity) (merged : WorldEntity) :
    (storedEntity existing merged).id = merged.id := by
  unfold storedEntity
  split
  · rfl
  · split
    · next h => simpa using (Bool.and_eq_true_iff.mp (Bool.and_eq_true_iff.mp
        (Bool.and_eq_true_iff.mp h).1).1).1
    · rfl

structure WorldRelation where
  source : String
  relation : String
  target : String
  evidenceIds : List EvidenceId
deriving DecidableEq

structure FactBucket where
  sessionId : SessionId
  subject : String
  claim : String
  evidence : List Core.Evidence
deriving DecidableEq

abbrev FactBucket.key (b : FactBucket) : SessionId × String × String :=
  (b.sessionId, b.subject, b.claim)

structure SubjectClaims where
  sessionId : SessionId
  subject : String
  claims : List String
deriving DecidableEq

abbrev SubjectClaims.key (c : SubjectClaims) : SessionId × String := (c.sessionId, c.subject)

structure EntityRow where
  sessionId : SessionId
  entity : WorldEntity
deriving DecidableEq

abbrev EntityRow.key (r : EntityRow) : SessionId × String := (r.sessionId, r.entity.id)

structure RelationRow where
  sessionId : SessionId
  relation : WorldRelation
deriving DecidableEq

abbrev RelationRow.key (r : RelationRow) : SessionId × String × String × String :=
  (r.sessionId, r.relation.source, r.relation.relation, r.relation.target)

/-- `InMemoryWorldModel`. -/
structure WorldModel where
  maxEvidencePerFact : Nat
  facts : Table FactBucket.key
  subjectClaims : Table SubjectClaims.key
  entities : Table EntityRow.key
  relations : Table RelationRow.key
  cap_pos : 0 < maxEvidencePerFact
deriving DecidableEq

def defaultMaxEvidencePerFact : Nat := 32

/-- `InMemoryWorldModel()`. -/
def WorldModel.empty : WorldModel :=
  ⟨defaultMaxEvidencePerFact, .empty, .empty, .empty, .empty, by decide⟩

/-! ## Arbitration -/

/-- The order of `key=lambda item: (item.confidence, item.observed_at, str(item.id))`. -/
def Outranked (a b : Core.Evidence) : Prop :=
  a.confidence < b.confidence ∨ (a.confidence = b.confidence ∧ Observed a b)

instance : DecidableRel Outranked := fun _ _ => inferInstanceAs (Decidable (_ ∨ _))

/-- `max(evidence, key=...)`: the first item that no other outranks. -/
def currentFact? : List Core.Evidence → Option Core.Evidence
  | [] => none
  | e :: rest =>
    some (rest.foldl (fun best item => if Outranked item best then best else item) e)

/-- `_kind_for_subject`'s reading of a fact: the text of the value, stripped. -/
def nonBlankText? : Json → Option String
  | .str s => if Text.isBlank s then none else some (Text.strip s)
  | _ => none

/-- `_trim_fact_bucket`: the current fact, the newest evidence of each distinct value, and the
newest of the rest up to the cap. -/
def trimFactBucket (dumps : Json → String) (cap : Nat) (values : List Core.Evidence) :
    List Core.Evidence :=
  if values.length ≤ cap then values
  else
    let newestFirst := (inOrder values).reverse
    let best := (currentFact? values).map Core.Evidence.id
    let perValue := newestFirst.foldl
      (fun (acc : List String × List EvidenceId) item =>
        if dumps item.value ∈ acc.1 then acc
        else (dumps item.value :: acc.1, item.id :: acc.2)) ([], best.toList)
    let keepIds := perValue.2
    let kept := values.filter fun item => item.id ∈ keepIds
    kept ++ (newestFirst.filter fun item => item.id ∉ keepIds).take (cap - kept.length)

/-- `_merge_json_mappings(older, newer)`: the newer mapping wins. -/
def mergeJsonMappings (older newer : Attributes) : Attributes := newer ∪ older

def dedupeEvidenceIds (ids : List EvidenceId) : List EvidenceId :=
  ids.foldl (fun seen i => if i ∈ seen then seen else seen ++ [i]) []

namespace WorldModel

def factEvidence (w : WorldModel) (sessionId : SessionId) (subject claim : String) :
    List Core.Evidence :=
  ((w.facts.get? (sessionId, subject, claim)).map FactBucket.evidence).getD []

def claimsOf (w : WorldModel) (sessionId : SessionId) (subject : String) : List String :=
  ((w.subjectClaims.get? (sessionId, subject)).map SubjectClaims.claims).getD []

/-- A claim that says something of the entity itself, not its kind or a relation. -/
def isAttributeClaim (claim : String) : Bool := !(claim = "kind" || claim.startsWith "relation:")

/-- `_fact_attributes`: the current value of every attribute claim about the subject. -/
def factAttributes (w : WorldModel) (sessionId : SessionId) (subject : String) : Attributes :=
  (w.claimsOf sessionId subject).foldl
    (fun attributes claim =>
      if isAttributeClaim claim then
        match currentFact? (w.factEvidence sessionId subject claim) with
        | some e => attributes.insert claim e.value
        | none => attributes
      else attributes) ∅

def kindForSubject (w : WorldModel) (sessionId : SessionId) (subject : String) : Option String :=
  (currentFact? (w.factEvidence sessionId subject "kind")).bind fun e => nonBlankText? e.value

/-- `_refresh_entity_attributes`: what the entity already says of itself wins. -/
def refreshEntityAttributes (w : WorldModel) (sessionId : SessionId) (subject : String) :
    WorldModel :=
  match w.entities.get? (sessionId, subject) with
  | none => w
  | some row =>
    let attributes := mergeJsonMappings (w.factAttributes sessionId subject) row.entity.attributes
    let updated := { row.entity with attributes := attributes }
    { w with entities := w.entities.put ⟨sessionId, storedEntity (some row.entity) updated⟩ }

def applyFact (dumps : Json → String) (w : WorldModel) (e : Core.Evidence) : WorldModel :=
  let values := w.factEvidence e.sessionId e.subject e.claim
  if values.any fun item => item.id = e.id then w
  else
    let trimmed := trimFactBucket dumps w.maxEvidencePerFact (values ++ [e])
    let claims := w.claimsOf e.sessionId e.subject
    refreshEntityAttributes
      { w with
        facts := w.facts.put ⟨e.sessionId, e.subject, e.claim, trimmed⟩
        subjectClaims := w.subjectClaims.put
          ⟨e.sessionId, e.subject, if e.claim ∈ claims then claims else claims ++ [e.claim]⟩ }
      e.sessionId e.subject

/-- `apply_entity`, for an entity whose kind is not blank. -/
def applyEntity (w : WorldModel) (sessionId : SessionId) (entity : WorldEntity) : WorldModel :=
  let existing := (w.entities.get? (sessionId, entity.id)).map EntityRow.entity
  let merged : WorldEntity :=
    { id := entity.id
      kind := (w.kindForSubject sessionId entity.id).getD entity.kind
      attributes :=
        mergeJsonMappings
          (mergeJsonMappings (w.factAttributes sessionId entity.id)
            ((existing.map WorldEntity.attributes).getD ∅))
          entity.attributes
      evidenceIds :=
        dedupeEvidenceIds ((existing.map WorldEntity.evidenceIds).getD [] ++ entity.evidenceIds) }
  { w with entities := w.entities.put ⟨sessionId, storedEntity existing merged⟩ }

/-- `apply_relation`, for a relation whose name is not blank. -/
def applyRelation (w : WorldModel) (sessionId : SessionId) (r : WorldRelation) : WorldModel :=
  match w.relations.get? (sessionId, r.source, r.relation, r.target) with
  | none => { w with relations := w.relations.put ⟨sessionId, r⟩ }
  | some row =>
    let merged : WorldRelation :=
      { r with evidenceIds := dedupeEvidenceIds (row.relation.evidenceIds ++ r.evidenceIds) }
    { w with relations := w.relations.put ⟨sessionId, merged⟩ }

def dropSession {α κ : Type} {key : α → κ} (t : Table key) (session : α → SessionId)
    (sessionId : SessionId) : Table key :=
  ⟨t.rows.filter fun a => session a ≠ sessionId, t.nodup.sublist (List.filter_sublist.map _)⟩

/-- `forget`. The claims of the session's subjects stay behind, as in the source. -/
def forget (w : WorldModel) (sessionId : SessionId) : WorldModel :=
  { w with
    facts := dropSession w.facts FactBucket.sessionId sessionId
    entities := dropSession w.entities EntityRow.sessionId sessionId
    relations := dropSession w.relations RelationRow.sessionId sessionId }

end WorldModel

/-! ## The default updater -/

/-- `_entity_from_evidence`. -/
def entityFromEvidence? (e : Core.Evidence) : Option WorldEntity :=
  if e.claim = "kind" then (nonBlankText? e.value).map fun kind => ⟨e.subject, kind, ∅, [e.id]⟩
  else none

def relationTargets : Json → List String
  | .str s => (nonBlankText? (.str s)).toList
  | .arr items => items.filterMap nonBlankText?
  | _ => []

def relationsFromEvidence (e : Core.Evidence) : List WorldRelation :=
  if e.claim.startsWith "relation:" then
    let relation := Text.strip (e.claim.drop "relation:".length).toString
    if relation = "" then []
    else (relationTargets e.value).map fun target => ⟨e.subject, relation, target, [e.id]⟩
  else []

/-- `FactWorldUpdater.apply`. -/
def factWorldUpdater (dumps : Json → String) (w : WorldModel) (e : Core.Evidence) : WorldModel :=
  let facts := w.applyFact dumps e
  let withEntity := match entityFromEvidence? e with
    | some entity => facts.applyEntity e.sessionId entity
    | none => facts
  (relationsFromEvidence e).foldl (fun w r => w.applyRelation e.sessionId r) withEntity

/-! ## Snapshots -/

structure WorldFact where
  subject : String
  claim : String
  value : Json
  confidence : ℚ
  observedAt : Instant
  evidenceIds : List EvidenceId
deriving DecidableEq

structure WorldFactEvidence where
  evidenceId : EvidenceId
  value : Json
  confidence : ℚ
  observedAt : Instant
  source : String
deriving DecidableEq

structure WorldFactHistory where
  subject : String
  claim : String
  current : WorldFact
  candidates : List WorldFactEvidence
  conflicting : Bool
deriving DecidableEq

/-- `WorldSnapshot`, less the moment it was taken at. -/
structure WorldSnapshot where
  sessionId : SessionId
  facts : List WorldFact
  factHistories : List WorldFactHistory
  entities : List WorldEntity
  relations : List WorldRelation
deriving DecidableEq

def KeyLE : List String → List String → Prop
  | [], _ => True
  | _ :: _, [] => False
  | a :: as, b :: bs => a < b ∨ (a = b ∧ KeyLE as bs)

instance decidableKeyLE : ∀ a b, Decidable (KeyLE a b)
  | [], _ => .isTrue trivial
  | _ :: _, [] => .isFalse id
  | a :: as, b :: bs =>
    have := decidableKeyLE as bs
    inferInstanceAs (Decidable (a < b ∨ (a = b ∧ KeyLE as bs)))

/-- `sorted(items, key=...)`. -/
def sortedBy {α : Type} (key : α → List String) (items : List α) : List α :=
  items.insertionSort fun a b => KeyLE (key a) (key b)

def hasConflictingValues (dumps : Json → String) (evidence : List Core.Evidence) : Bool :=
  decide (1 < (evidence.map fun e => dumps e.value).dedup.length)

def FactBucket.history? (dumps : Json → String) (b : FactBucket) : Option WorldFactHistory :=
  let ordered := inOrder b.evidence
  (currentFact? b.evidence).map fun current =>
    { subject := b.subject
      claim := b.claim
      current :=
        ⟨b.subject, b.claim, current.value, current.confidence, current.observedAt,
          ordered.map Core.Evidence.id⟩
      candidates := ordered.map fun e => ⟨e.id, e.value, e.confidence, e.observedAt, e.source⟩
      conflicting := hasConflictingValues dumps ordered }

def WorldModel.snapshot (dumps : Json → String) (w : WorldModel) (sessionId : SessionId) :
    WorldSnapshot :=
  let histories := (w.facts.rows.filter fun b => b.sessionId = sessionId).filterMap
    (FactBucket.history? dumps)
  let ordered := sortedBy (fun h => [h.subject, h.claim]) histories
  { sessionId := sessionId
    facts := ordered.map WorldFactHistory.current
    factHistories := ordered
    entities := sortedBy (fun e => [e.id])
      ((w.entities.rows.filter fun r => r.sessionId = sessionId).map EntityRow.entity)
    relations := sortedBy (fun r => [r.source, r.relation, r.target])
      ((w.relations.rows.filter fun r => r.sessionId = sessionId).map RelationRow.relation) }

end UniversalAgent.World
