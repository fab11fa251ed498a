import UniversalAgent.Foundation.Records
import UniversalAgent.World.Merging

/-!
# World — Cross domain model

`CrossDomainWorldModel` (`world/cross_domain_model.py`): the world of each domain is rebuilt from the evidence
of a session, and these are merged. A fact is rebuilt apart from the in-memory model: only evidence that is
above the fact in confidence and time is taken, and only then is it recorded.
-/

namespace UniversalAgent.World

open UniversalAgent.Core UniversalAgent.Foundation UniversalAgent.Evidence

abbrev claimKey (e : Core.Evidence) : String × String := (e.subject, e.claim)

abbrev WorldFact.key (f : WorldFact) : String × String := (f.subject, f.claim)

def domainKey (e : Core.Evidence) : String × String :=
  (if e.domainName = "" then "default" else e.domainName,
    if e.domainVersion = "" then "1.0.0" else e.domainVersion)

/-- A claim about a subject is asked for; no names ask for everything. -/
def Asked (subjects claims : List String) (k : String × String) : Prop :=
  (subjects = [] ∨ k.1 ∈ subjects) ∧ (claims = [] ∨ k.2 ∈ claims)

instance (subjects claims : List String) (k : String × String) : Decidable (Asked subjects claims k) :=
  inferInstanceAs (Decidable (_ ∧ _))

def factOf (e : Core.Evidence) : WorldFact := ⟨e.subject, e.claim, e.value, e.confidence, e.observedAt, [e.id]⟩

/-- Evidence takes the place of a fact that it is above, and is dropped otherwise. -/
def applyToFacts (facts : Table WorldFact.key) (e : Core.Evidence) : Table WorldFact.key :=
  match facts.get? (claimKey e) with
  | none => facts.put (factOf e)
  | some current =>
    if RankedBelow .confidenceThenRecency current (factOf e) then
      facts.put { factOf e with evidenceIds := dedupeEvidenceIds (current.evidenceIds ++ [e.id]) }
    else facts

/-- A claim of kind names the entity's kind; a claim that is not of a relation is an attribute of it. -/
def applyToEntities (entities : Table WorldEntity.id) (e : Core.Evidence) : Table WorldEntity.id :=
  if e.claim = "kind" then
    match nonBlankText? e.value, entities.get? e.subject with
    | none, _ => entities
    | some kind, none => entities.put ⟨e.subject, kind, ∅, [e.id]⟩
    | some kind, some existing =>
      entities.put ⟨e.subject, kind, existing.attributes, dedupeEvidenceIds (existing.evidenceIds ++ [e.id])⟩
  else if WorldModel.isAttributeClaim e.claim then
    match entities.get? e.subject with
    | none => entities.put ⟨e.subject, "unknown", Finmap.singleton e.claim e.value, [e.id]⟩
    | some existing =>
      entities.put ⟨e.subject, existing.kind,
        mergeJsonMappings existing.attributes (Finmap.singleton e.claim e.value),
        dedupeEvidenceIds (existing.evidenceIds ++ [e.id])⟩
  else entities

/-- The relations of a piece of evidence are merged into those there are. -/
def applyToRelations (relations : Table WorldRelation.key) (e : Core.Evidence) : Table WorldRelation.key :=
  (relationsFromEvidence e).foldl mergeRelation relations

def rebuildDomainSnapshot (sessionId : SessionId) (evidence : List Core.Evidence)
    (subjects claims : List String) : WorldSnapshot :=
  let items := (inOrder evidence).filter fun e => Asked subjects claims (claimKey e)
  { sessionId := sessionId
    facts := sortedBy (fun f => [f.subject, f.claim]) (items.foldl applyToFacts Table.empty).rows
    factHistories := []
    entities := sortedBy (fun e => [e.id]) (items.foldl applyToEntities Table.empty).rows
    relations := sortedBy (fun r => [r.source, r.relation, r.target])
      (items.foldl applyToRelations Table.empty).rows }

def domainViews (sessionId : SessionId) (evidence : List Core.Evidence) (subjects claims : List String) :
    List DomainWorldView :=
  (groupBy domainKey evidence).map fun group =>
    ⟨group.1.1, rebuildDomainSnapshot sessionId group.2 subjects claims⟩

def mergedSnapshot (dumps : Json → String) (store : EvidenceStore) (sessionId : SessionId)
    (subjects claims : List String) (mergePolicy : Option WorldMergePolicy) : Option MergedWorld :=
  let evidence := (store.query sessionId none none).filter fun e => Asked subjects claims (claimKey e)
  mergeWorldViews dumps (domainViews sessionId evidence subjects claims) (some sessionId) mergePolicy

/-! ## Facts that are rebuilt -/

/-- A piece of evidence is above another in confidence, then in time. -/
def Below (a b : Core.Evidence) : Prop := RankedBelow .confidenceThenRecency (factOf a) (factOf b)

instance : DecidableRel Below := fun _ _ => inferInstanceAs (Decidable (RankedBelow _ _ _))

theorem Below.trans {a b c : Core.Evidence} (hab : Below a b) (hbc : Below b c) : Below a c :=
  Then.trans Core.Evidence.confidence (·.observedAt < ·.observedAt) lt_trans hab hbc

instance : IsTrans Core.Evidence Below := ⟨fun _ _ _ => Below.trans⟩

theorem Below.not_outranked {a b : Core.Evidence} (h : Below a b) : ¬Outranked b a := by
  rintro (hlt | ⟨heq, ho⟩)
  · rcases h with h | ⟨h, -⟩
    · exact lt_asymm h hlt
    · exact hlt.ne' h
  · rcases h with h | ⟨-, h⟩
    · exact h.ne' heq
    · rcases ho with ho | ⟨ho, -⟩
      · exact lt_asymm h ho
      · exact h.ne' ho

def advance : Option WorldFact → Core.Evidence → Option WorldFact
  | none, e => some (factOf e)
  | some current, e =>
    if RankedBelow .confidenceThenRecency current (factOf e) then
      some { factOf e with evidenceIds := dedupeEvidenceIds (current.evidenceIds ++ [e.id]) }
    else some current

theorem get?_applyToFacts (facts : Table WorldFact.key) (e : Core.Evidence) (k : String × String) :
    (applyToFacts facts e).get? k = if k = claimKey e then advance (facts.get? k) e else facts.get? k := by
  have hput : ∀ f : WorldFact, f.key = claimKey e →
      (facts.put f).get? k = if k = claimKey e then some f else facts.get? k := by
    intro f hf
    rw [Table.get?_put, hf]
  by_cases hk : k = claimKey e
  · rw [if_pos hk, hk]
    unfold applyToFacts advance
    cases hcurrent : facts.get? (claimKey e) with
    | none => exact hk ▸ (hput (factOf e) rfl).trans (if_pos hk)
    | some current =>
      dsimp only
      split
      · exact hk ▸ (hput _ rfl).trans (if_pos hk)
      · exact hcurrent
  · rw [if_neg hk]
    unfold applyToFacts
    split
    · exact (hput _ rfl).trans (if_neg hk)
    · split
      · exact (hput _ rfl).trans (if_neg hk)
      · rfl

/-- A fact is rebuilt from the evidence of its claim alone. -/
theorem get?_foldl_applyToFacts (items : List Core.Evidence) (facts : Table WorldFact.key)
    (k : String × String) : (items.foldl applyToFacts facts).get? k =
      (items.filter fun e => claimKey e = k).foldl advance (facts.get? k) := by
  induction items generalizing facts with
  | nil => rfl
  | cons e items ih =>
    rw [List.foldl_cons, ih, get?_applyToFacts]
    by_cases hk : k = claimKey e
    · rw [if_pos hk, List.filter_cons_of_pos (by simpa using hk.symm), List.foldl_cons]
    · rw [if_neg hk, List.filter_cons_of_neg (by simpa using Ne.symm hk)]

/-- The best of some records, which are recorded one after the other. -/
def recordedFact (best : Core.Evidence) (ids : List EvidenceId) (rest : List Core.Evidence) : WorldFact :=
  { factOf ((recordsFrom Below best rest).getLastD best) with
    evidenceIds := ids ++ (recordsFrom Below best rest).map Core.Evidence.id }

theorem dedupeEvidenceIds_of_nodup {ids : List EvidenceId} (h : ids.Nodup) : dedupeEvidenceIds ids = ids := by
  induction ids using List.reverseRecOn with
  | nil => rfl
  | append_singleton ids i ih =>
    obtain ⟨hids, -, hnew⟩ := List.nodup_append.mp h
    rw [dedupeEvidenceIds_snoc, ih hids, if_neg fun hi => hnew i hi i (List.mem_singleton_self i) rfl]

theorem foldl_advance {best : Core.Evidence} {ids : List EvidenceId} {rest : List Core.Evidence}
    (hids : (ids ++ rest.map Core.Evidence.id).Nodup) :
    rest.foldl advance (some { factOf best with evidenceIds := ids }) = some (recordedFact best ids rest) := by
  induction rest generalizing best ids with
  | nil => rw [recordedFact, recordsFrom, List.map_nil, List.append_nil]; rfl
  | cons e rest ih =>
    rw [List.map_cons, List.append_cons] at hids
    rw [List.foldl_cons, recordedFact, recordsFrom_cons]
    have hadvance : advance (some { factOf best with evidenceIds := ids }) e =
        if Below best e then some { factOf e with evidenceIds := dedupeEvidenceIds (ids ++ [e.id]) }
        else some { factOf best with evidenceIds := ids } := rfl
    rw [hadvance]
    by_cases hbelow : Below best e
    · rw [if_pos hbelow, if_pos hbelow, dedupeEvidenceIds_of_nodup (List.nodup_append.mp hids).1, ih hids,
        recordedFact, List.getLastD_cons, List.map_cons, List.append_assoc, List.singleton_append]
    · rw [if_neg hbelow, if_neg hbelow]
      refine ih (hids.sublist (List.Sublist.append_right (List.sublist_append_left ids [e.id]) _))

end UniversalAgent.World
