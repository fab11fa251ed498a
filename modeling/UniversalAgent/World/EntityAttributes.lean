import UniversalAgent.World.BoundedHistory

/-!
# World — Entity attributes

Whether the attributes of an entity follow the facts about it. Attributes are merged from the facts, from
what the entity says already and from what it is given, and what is said already wins over the facts.
-/

namespace UniversalAgent.World

open UniversalAgent.Core UniversalAgent.Foundation UniversalAgent.Evidence
open WorldModel (isAttributeClaim)

/-- Each attribute under the name of a claim has the current value of the fact. -/
def Mirrors (w : WorldModel) : Prop :=
  ∀ sessionId id entity, w.entity? sessionId id = some entity →
    ∀ claim, isAttributeClaim claim = true →
      ∀ current, currentFact? (w.factEvidence sessionId id claim) = some current →
        ∀ value, entity.attributes.lookup claim = some value → value = current.value

/-- What a call may say of a fact that an attribute mirrors: evidence leaves the current value as the
attribute has it, and an entity is given the current value. -/
def Agrees (c : CachedWorld) : WorldCall → Prop
  | .applyFact e =>
    (∀ item ∈ c.model.factEvidence e.sessionId e.subject e.claim, item.id ≠ e.id) →
      isAttributeClaim e.claim = true →
        ∀ entity, c.model.entity? e.sessionId e.subject = some entity →
          ∀ value, entity.attributes.lookup e.claim = some value →
            ∀ current, currentFact? (c.model.factEvidence e.sessionId e.subject e.claim ++ [e]) =
              some current → value = current.value
  | .applyEntity sessionId entity =>
    ∀ claim, isAttributeClaim claim = true →
      ∀ current, currentFact? (c.model.factEvidence sessionId entity.id claim) = some current →
        ∀ value, entity.attributes.lookup claim = some value → value = current.value
  | .applyRelation _ _ | .forget _ | .snapshot _ _ _ => True

/-! ## Merged attributes -/

theorem lookup_merge {older newer : Attributes} {claim : String} {value : Json}
    (h : (mergeJsonMappings older newer).lookup claim = some value) :
    newer.lookup claim = some value ∨ older.lookup claim = some value := by
  rcases Finmap.mem_lookup_union.mp h with hnewer | ⟨-, holder⟩
  · exact .inl hnewer
  · exact .inr holder

/-- What is stored has an attribute of what was there or of what was merged. -/
theorem lookup_stored {existing : Option WorldEntity} {merged : WorldEntity} {claim : String} {value : Json}
    (h : (storedEntity existing merged).attributes.lookup claim = some value) :
    (∃ entity, existing = some entity ∧ entity.attributes.lookup claim = some value) ∨
      merged.attributes.lookup claim = some value := by
  cases existing with
  | none => exact .inr h
  | some entity =>
    unfold storedEntity at h
    dsimp only at h
    split at h
    · exact .inl ⟨entity, rfl, h⟩
    · exact .inr h

/-- An attribute that comes from the facts is current. -/
theorem lookup_fact {w : WorldModel} {sessionId : SessionId} {subject claim : String} {value : Json}
    (h : (w.factAttributes sessionId subject).lookup claim = some value) {current : Core.Evidence}
    (hcurrent : currentFact? (w.factEvidence sessionId subject claim) = some current) :
    value = current.value := by
  rw [WorldModel.lookup_factAttributes, hcurrent] at h
  obtain ⟨-, h⟩ := Option.ite_none_right_eq_some.mp h
  exact (Option.some.inj h).symm

/-! ## One call -/

section Calls

variable {dumps : Json → Option String} {c : CachedWorld}

def DistinctItems (w : WorldModel) : Prop :=
  ∀ sessionId subject claim, ((w.factEvidence sessionId subject claim).map Core.Evidence.id).Nodup

variable {e : Core.Evidence} {entity : WorldEntity}

theorem nodup_append_new {w : WorldModel} (hw : DistinctItems w)
    (hnew : ∀ item ∈ w.factEvidence e.sessionId e.subject e.claim, item.id ≠ e.id) :
    ((w.factEvidence e.sessionId e.subject e.claim ++ [e]).map Core.Evidence.id).Nodup := by
  rw [List.map_append, List.nodup_append]
  refine ⟨hw e.sessionId e.subject e.claim, List.nodup_singleton _, fun i hi j hj => ?_⟩
  obtain ⟨item, hitem, rfl⟩ := List.mem_map.mp hi
  rw [List.map_singleton, List.mem_singleton] at hj
  exact hj ▸ hnew item hitem

theorem factEvidence_of_facts {w w' : WorldModel} (h : w'.facts = w.facts) (sessionId : SessionId)
    (subject claim : String) :
    w'.factEvidence sessionId subject claim = w.factEvidence sessionId subject claim := by
  unfold WorldModel.factEvidence
  rw [h]

theorem applyFact_known
    (h : ¬∀ item ∈ c.model.factEvidence e.sessionId e.subject e.claim, item.id ≠ e.id) :
    (c.applyFact dumps e).2 = c := by
  have hany : ((c.model.factEvidence e.sessionId e.subject e.claim).any
      fun item => item.id = e.id) = true := by
    by_contra hnone
    exact h (by simpa using hnone)
  unfold CachedWorld.applyFact
  rw [if_pos hany]

/-- The entities after new evidence: as before, or refreshed. -/
theorem entity?_applyFact {sessionId : SessionId} {id : String}
    (h : (c.applyFact dumps e).2.model.entity? sessionId id = some entity) :
    c.model.entity? sessionId id = some entity ∨
      (sessionId, id) = (e.sessionId, e.subject) ∧
        ∃ before, c.model.entity? sessionId id = some before ∧ ∀ claim value,
          entity.attributes.lookup claim = some value → before.attributes.lookup claim = some value ∨
            ((c.applyFact dumps e).2.model.factAttributes sessionId id).lookup claim = some value := by
  unfold CachedWorld.applyFact at h ⊢
  split at h
  · exact .inl h
  · next hnew =>
    rw [if_neg hnew]
    split at h
    · exact .inl h
    · next htrim =>
      rw [if_neg htrim]
      dsimp only at h ⊢
      rw [WorldModel.applyFact_eq, if_neg hnew] at h ⊢
      rw [WorldModel.entity?_refresh] at h
      split at h
      · next hkey =>
        obtain ⟨before, hbefore, rfl⟩ := Option.map_eq_some_iff.mp h
        refine .inr ⟨Prod.ext hkey.1 hkey.2, before, by rw [hkey.1, hkey.2]; exact hbefore,
          fun claim value hvalue => ?_⟩
        have hfacts : ((c.model.withFact (textOf dumps) e).refreshEntityAttributes e.sessionId
            e.subject).factAttributes sessionId id =
              (c.model.withFact (textOf dumps) e).factAttributes e.sessionId e.subject := by
          rw [hkey.1, hkey.2]
          unfold WorldModel.factAttributes
          simp only [WorldModel.factEvidence_refresh, WorldModel.claimsOf_refresh]
        rw [hfacts]
        rcases lookup_stored hvalue with ⟨_, hsame, hvalue⟩ | hvalue
        · exact .inl (Option.some.inj hsame ▸ hvalue)
        · exact lookup_merge hvalue
      · exact .inl h

theorem Mirrors.applyFact (hc : Mirrors c.model) (hdistinct : DistinctItems c.model)
    (h : Agrees c (.applyFact e)) :
    Mirrors (c.applyFact dumps e).2.model ∧ DistinctItems (c.applyFact dumps e).2.model := by
  by_cases hnew : ∀ item ∈ c.model.factEvidence e.sessionId e.subject e.claim, item.id ≠ e.id
  · obtain ⟨l, hput, hpresent, hnodup, -⟩ :=
      facts_applyFact dumps (nodup_append_new hdistinct hnew)
    have hbucket : ∀ s sub cl, (c.applyFact dumps e).2.model.factEvidence s sub cl =
        if (s, sub, cl) = (e.sessionId, e.subject, e.claim) then l
        else c.model.factEvidence s sub cl := fun s sub cl =>
      (factEvidence_of_facts (w := { c.model with facts := _ }) hput s sub cl).trans
        (factEvidence_put c.model ⟨e.sessionId, e.subject, e.claim, l⟩ s sub cl)
    constructor
    · intro sessionId id entity hentity claim hclaim current hcurrent value hvalue
      -- an attribute of before is of another claim, or the evidence agrees with it
      have hbefore : ∀ before, c.model.entity? sessionId id = some before →
          before.attributes.lookup claim = some value → value = current.value := by
        intro before hentity hvalue
        rw [hbucket] at hcurrent
        by_cases hkey : (sessionId, id, claim) = (e.sessionId, e.subject, e.claim)
        · rw [if_pos hkey, hpresent.current] at hcurrent
          obtain ⟨rfl, rfl, rfl⟩ : sessionId = e.sessionId ∧ id = e.subject ∧ claim = e.claim := by
            simpa using hkey
          exact h hnew hclaim before hentity value hvalue current hcurrent
        · rw [if_neg hkey] at hcurrent
          exact hc sessionId id before hentity claim hclaim current hcurrent value hvalue
      rcases entity?_applyFact hentity with hsame | ⟨-, before, hsame, hattributes⟩
      · exact hbefore entity hsame hvalue
      · rcases hattributes claim value hvalue with hold | hfact
        · exact hbefore before hsame hold
        · exact lookup_fact hfact hcurrent
    · intro s sub cl
      rw [hbucket]
      split
      · exact hnodup
      · exact hdistinct s sub cl
  · rw [applyFact_known hnew]
    exact ⟨hc, hdistinct⟩

/-- An entity that is applied says what it said, or what the facts say, or what it is given. -/
theorem entity?_applyEntity {updated : SessionId} {sessionId : SessionId}
    {id : String} {after : WorldEntity}
    (h : (c.applyEntity updated entity).2.model.entity? sessionId id = some after) :
    c.model.entity? sessionId id = some after ∨
      (sessionId, id) = (updated, entity.id) ∧ ∀ claim value,
        after.attributes.lookup claim = some value →
          entity.attributes.lookup claim = some value ∨
          (∃ before, c.model.entity? sessionId id = some before ∧
            before.attributes.lookup claim = some value) ∨
          (c.model.factAttributes sessionId id).lookup claim = some value := by
  unfold CachedWorld.applyEntity at h
  dsimp only at h
  split at h
  · exact .inl h
  · split at h
    · exact .inl h
    · unfold WorldModel.applyEntity at h
      dsimp only at h
      rw [WorldModel.entity?_put] at h
      split at h
      · next hkey =>
        simp only [EntityRow.key, storedEntity_id] at hkey
        obtain ⟨rfl, rfl⟩ : sessionId = updated ∧ id = entity.id := by simpa using hkey
        refine .inr ⟨rfl, fun claim value hvalue => ?_⟩
        obtain rfl := Option.some.inj h
        rcases lookup_stored hvalue with ⟨before, hbefore, hvalue⟩ | hvalue
        · exact .inr (.inl ⟨before, hbefore, hvalue⟩)
        · rcases lookup_merge hvalue with hgiven | hvalue
          · exact .inl hgiven
          · rcases lookup_merge hvalue with hvalue | hfact
            · cases hexisting : c.model.entity? sessionId entity.id with
              | none =>
                unfold WorldModel.entity? at hexisting
                rw [hexisting] at hvalue
                simp at hvalue
              | some before =>
                refine .inr (.inl ⟨before, rfl, ?_⟩)
                unfold WorldModel.entity? at hexisting
                rw [hexisting] at hvalue
                exact hvalue
            · exact .inr (.inr hfact)
      · exact .inl h

theorem Mirrors.applyEntity (hc : Mirrors c.model) {updated : SessionId}
    (h : Agrees c (.applyEntity updated entity)) :
    Mirrors (c.applyEntity updated entity).2.model := by
  have hfacts := facts_applyEntity c updated entity
  intro sessionId id after hafter claim hclaim current hcurrent value hvalue
  rw [factEvidence_of_facts hfacts] at hcurrent
  rcases entity?_applyEntity hafter with hsame | ⟨hkey, hattributes⟩
  · exact hc sessionId id after hsame claim hclaim current hcurrent value hvalue
  · rcases hattributes claim value hvalue with hgiven | ⟨before, hbefore, hold⟩ | hfact
    · obtain ⟨rfl, rfl⟩ : sessionId = updated ∧ id = entity.id := by simpa using hkey
      exact h claim hclaim current hcurrent value hgiven
    · exact hc sessionId id before hbefore claim hclaim current hcurrent value hold
    · exact lookup_fact hfact hcurrent

/-- Where entities and facts are as before, so is what mirrors what. -/
theorem Mirrors.of_same {w w' : WorldModel} (h : Mirrors w)
    (hentities : ∀ s id, w'.entity? s id = w.entity? s id)
    (hfacts : ∀ s subject claim, w'.factEvidence s subject claim = w.factEvidence s subject claim) :
    Mirrors w' := by
  intro s id entity hentity claim hclaim current hcurrent
  rw [hentities] at hentity
  rw [hfacts] at hcurrent
  exact h s id entity hentity claim hclaim current hcurrent

theorem entity?_applyRelation (c : CachedWorld) (updated : SessionId) (r : WorldRelation) (s : SessionId)
    (id : String) : (c.applyRelation updated r).2.model.entity? s id = c.model.entity? s id := by
  have hentities : (c.model.applyRelation updated r).entity? s id = c.model.entity? s id := by
    unfold WorldModel.applyRelation
    split <;> rfl
  unfold CachedWorld.applyRelation
  dsimp only
  split
  · rfl
  · split
    · rfl
    · exact hentities

theorem model_snapshot (c : CachedWorld) (taken : SessionId) (subjects claims : List String) :
    (c.snapshot dumps taken subjects claims).2.model = c.model := by
  unfold CachedWorld.snapshot
  split
  · rfl
  · split
    · rfl
    · dsimp only
      split <;> rfl

theorem Mirrors.forget {w : WorldModel} (h : Mirrors w) (dropped : SessionId) :
    Mirrors (w.forget dropped) := by
  intro s id entity hentity claim hclaim current hcurrent
  rw [WorldModel.entity?_forget] at hentity
  split at hentity
  · cases hentity
  · next hs =>
    rw [WorldModel.factEvidence_forget, if_neg hs] at hcurrent
    exact h s id entity hentity claim hclaim current hcurrent

/-- **One call**: attributes go on mirroring the facts if it agrees with them. -/
theorem Mirrors.perform (dumps : Json → Option String) (hc : Mirrors c.model) (hdistinct : DistinctItems c.model) {call : WorldCall}
    (h : Agrees c call) :
    Mirrors (World.perform dumps c call).2.model ∧ DistinctItems (World.perform dumps c call).2.model := by
  cases call with
  | applyFact e => exact hc.applyFact hdistinct h
  | applyEntity s entity =>
    have hfacts := factEvidence_of_facts (facts_applyEntity c s entity)
    exact ⟨hc.applyEntity h, fun s' sub cl => (hfacts s' sub cl).symm ▸ hdistinct s' sub cl⟩
  | applyRelation s r =>
    have hfacts := factEvidence_of_facts (facts_applyRelation c s r)
    exact ⟨hc.of_same (entity?_applyRelation c s r) hfacts,
      fun s' sub cl => (hfacts s' sub cl).symm ▸ hdistinct s' sub cl⟩
  | forget s =>
    refine ⟨hc.forget s, fun s' sub cl => ?_⟩
    change (((c.model.forget s).factEvidence s' sub cl).map Core.Evidence.id).Nodup
    rw [WorldModel.factEvidence_forget]
    split
    · exact List.nodup_nil
    · exact hdistinct s' sub cl
  | snapshot s subjects claims =>
    change Mirrors (c.snapshot dumps s subjects claims).2.model ∧
      DistinctItems (c.snapshot dumps s subjects claims).2.model
    rw [model_snapshot]
    exact ⟨hc, hdistinct⟩

end Calls

/-! ## Runs -/

def restarted : WorldM Unit := do
  let _ : Bool ← factUpdates { restarts "evidence-1" (.str "pod") with
    claim := "kind", postInit := by decide +kernel }
  let _ : Bool ← factUpdates (restarts "evidence-2" (.int 1))
  let _ : Bool ← factUpdates { restarts "evidence-3" (.int 2) with observedAt := 1 }
  pure ()

end UniversalAgent.World
