import UniversalAgent.World.Model

/-!
# World — Sessions

The sessions that share a world model do not meet in it: every row carries its session, and an
update of one session leaves the rows of the others as they are. `Untouched` says so of one
update. `SameWorld` relates two models that hold the same about a session, with the evidence of a
fact in any order: updates keep it, and a snapshot cannot tell such models apart.

A `LocalUpdater` is a world updater that respects both, as the ones of the repository do.
-/

namespace UniversalAgent.World

open UniversalAgent.Core UniversalAgent.Foundation UniversalAgent.Evidence

variable {l l' : List Core.Evidence} {f : WorldFactHistory}

/-! ## Arbitration does not depend on the order -/

theorem Outranked.total (a b : Core.Evidence) : Outranked a b ∨ Outranked b a :=
  Then.total Core.Evidence.confidence Observed (Observed.total a b)

theorem Outranked.trans {a b c : Core.Evidence} (hab : Outranked a b) (hbc : Outranked b c) :
    Outranked a c :=
  Then.trans Core.Evidence.confidence Observed Observed.trans hab hbc

theorem Outranked.id_eq {a b : Core.Evidence} (hab : Outranked a b) (hba : Outranked b a) :
    a.id = b.id :=
  (Then.tie Core.Evidence.confidence Observed hab hba).elim Observed.id_eq

/-- The current fact is evidence that outranks all the other. -/
theorem currentFact?_spec {l : List Core.Evidence} {m : Core.Evidence}
    (h : currentFact? l = some m) : m ∈ l ∧ ∀ x ∈ l, Outranked x m := by
  have key : ∀ (rest : List Core.Evidence) (e : Core.Evidence),
      (rest.foldl (fun best item => if Outranked item best then best else item) e) ∈ e :: rest ∧
        ∀ x ∈ e :: rest, Outranked x
          (rest.foldl (fun best item => if Outranked item best then best else item) e) := by
    intro rest
    induction rest with
    | nil =>
      intro e
      exact ⟨by simp, fun x hx => by
        rw [List.mem_singleton.mp hx]
        exact .inr ⟨rfl, .refl e⟩⟩
    | cons y rest ih =>
      intro e
      rw [List.foldl_cons]
      by_cases hy : Outranked y e
      · rw [if_pos hy]
        obtain ⟨hmem, hmax⟩ := ih e
        refine ⟨?_, fun x hx => ?_⟩
        · rcases List.mem_cons.mp hmem with hm | hm
          · exact List.mem_cons.mpr (.inl hm)
          · exact List.mem_cons_of_mem _ (List.mem_cons_of_mem _ hm)
        · rcases List.mem_cons.mp hx with rfl | hx
          · exact hmax x List.mem_cons_self
          · rcases List.mem_cons.mp hx with rfl | hx
            · exact hy.trans (hmax e List.mem_cons_self)
            · exact hmax x (List.mem_cons_of_mem _ hx)
      · rw [if_neg hy]
        have he : Outranked e y := (Outranked.total y e).resolve_left hy
        obtain ⟨hmem, hmax⟩ := ih y
        refine ⟨List.mem_cons_of_mem _ hmem, fun x hx => ?_⟩
        rcases List.mem_cons.mp hx with rfl | hx
        · exact he.trans (hmax y List.mem_cons_self)
        · exact hmax x hx
  cases l with
  | nil => cases h
  | cons e rest =>
    cases h
    exact key rest e

theorem currentFact?_eq_none {l : List Core.Evidence} : currentFact? l = none ↔ l = [] := by
  cases l <;> simp [currentFact?]

theorem currentFact?_perm (hp : l.Perm l')
    (hn : (l.map Core.Evidence.id).Nodup) : currentFact? l = currentFact? l' := by
  cases h : currentFact? l with
  | none =>
    rw [currentFact?_eq_none] at h
    subst h
    cases hp.nil_eq
    rfl
  | some m =>
    cases h' : currentFact? l' with
    | none =>
      rw [currentFact?_eq_none] at h'
      subst h'
      rw [hp.eq_nil] at h
      cases h
    | some m' =>
      obtain ⟨hm, hmax⟩ := currentFact?_spec h
      obtain ⟨hm', hmax'⟩ := currentFact?_spec h'
      have hid := (hmax' m (hp.mem_iff.mp hm)).id_eq (hmax m' (hp.mem_iff.mpr hm'))
      rw [List.inj_on_of_nodup_map hn hm (hp.mem_iff.mpr hm') hid]

theorem inOrder_congr (hp : l.Perm l') (hn : (l.map Core.Evidence.id).Nodup) : inOrder l = inOrder l' := by
  refine eq_of_perm_of_observed ?_ (pairwise_inOrder l) (pairwise_inOrder l') ?_
  · exact (inOrder_perm l).trans (hp.trans (inOrder_perm l').symm)
  · exact ((inOrder_perm l).map _).nodup_iff.mpr hn

section Trim

variable (dumps : Json → String)

theorem trimFactBucket_perm (cap : Nat) (hp : l.Perm l')
    (hn : (l.map Core.Evidence.id).Nodup) :
    (trimFactBucket dumps cap l).Perm (trimFactBucket dumps cap l') := by
  unfold trimFactBucket
  rw [hp.length_eq]
  split
  · exact hp
  · rw [inOrder_congr hp hn, currentFact?_perm hp hn]
    dsimp only
    refine List.Perm.append (hp.filter _) ?_
    rw [(hp.filter _).length_eq]

variable {l : List Core.Evidence}

theorem trimFactBucket_nodup (cap : Nat)
    (hn : (l.map Core.Evidence.id).Nodup) :
    ((trimFactBucket dumps cap l).map Core.Evidence.id).Nodup := by
  unfold trimFactBucket
  split
  · exact hn
  · dsimp only
    rw [List.map_append, List.nodup_append]
    refine ⟨hn.sublist (List.filter_sublist.map _), ?_, ?_⟩
    · have hrev : ((inOrder l).reverse.map Core.Evidence.id).Nodup :=
        (((List.reverse_perm _).trans (inOrder_perm l)).map _).nodup_iff.mpr hn
      exact hrev.sublist (((List.take_sublist _ _).trans List.filter_sublist).map _)
    · intro i hi j hj hij
      obtain ⟨x, hx, rfl⟩ := List.mem_map.mp hi
      obtain ⟨y, hy, rfl⟩ := List.mem_map.mp hj
      have hkeep := (List.mem_filter.mp hx).2
      have hdrop := (List.mem_filter.mp (List.mem_of_mem_take hy)).2
      rw [hij] at hkeep
      simp only [decide_eq_true_eq] at hkeep hdrop
      exact hdrop hkeep

theorem trimFactBucket_subset (cap : Nat) {e : Core.Evidence}
    (h : e ∈ trimFactBucket dumps cap l) : e ∈ l := by
  unfold trimFactBucket at h
  split at h
  · exact h
  · rcases List.mem_append.mp h with h | h
    · exact (List.mem_filter.mp h).1
    · have := (List.mem_filter.mp (List.mem_of_mem_take h)).1
      simpa using this

/-- A bucket that is within its cap is kept as it is. -/
theorem trimFactBucket_of_le {cap : Nat} (h : l.length ≤ cap) :
    trimFactBucket dumps cap l = l := if_pos h

end Trim

/-! ## What a model holds about a session -/

namespace WorldModel

def entity? (w : WorldModel) (sessionId : SessionId) (id : String) : Option WorldEntity :=
  (w.entities.get? (sessionId, id)).map EntityRow.entity

def relation? (w : WorldModel) (sessionId : SessionId) (source relation target : String) :
    Option WorldRelation :=
  (w.relations.get? (sessionId, source, relation, target)).map RelationRow.relation

structure Untouched (sessionId : SessionId) (w w' : WorldModel) : Prop where
  cap : w'.maxEvidencePerFact = w.maxEvidencePerFact
  facts : ∀ subject claim,
    w'.factEvidence sessionId subject claim = w.factEvidence sessionId subject claim
  claims : ∀ subject, w'.claimsOf sessionId subject = w.claimsOf sessionId subject
  entities : ∀ id, w'.entity? sessionId id = w.entity? sessionId id
  relations : ∀ source relation target,
    w'.relation? sessionId source relation target = w.relation? sessionId source relation target

/-- The models hold the same about a session: the evidence of its facts, in any order and each
once, its entities and its relations. Claims without evidence do not count. -/
structure SameWorld (sessionId : SessionId) (w w' : WorldModel) : Prop where
  cap : w.maxEvidencePerFact = w'.maxEvidencePerFact
  facts : ∀ subject claim,
    (w.factEvidence sessionId subject claim).Perm (w'.factEvidence sessionId subject claim)
  distinct : ∀ subject claim,
    ((w.factEvidence sessionId subject claim).map Core.Evidence.id).Nodup
  claims : ∀ subject claim, w.factEvidence sessionId subject claim ≠ [] →
    claim ∈ w.claimsOf sessionId subject ∧ claim ∈ w'.claimsOf sessionId subject
  entities : ∀ id, w.entity? sessionId id = w'.entity? sessionId id
  relations : ∀ source relation target,
    w.relation? sessionId source relation target = w'.relation? sessionId source relation target

variable {sessionId : SessionId} {w w' w'' : WorldModel}

theorem Untouched.refl (sessionId : SessionId) (w : WorldModel) : Untouched sessionId w w :=
  ⟨rfl, fun _ _ => rfl, fun _ => rfl, fun _ => rfl, fun _ _ _ => rfl⟩

theorem Untouched.trans (h : Untouched sessionId w w') (h' : Untouched sessionId w' w'') :
    Untouched sessionId w w'' :=
  ⟨h'.cap.trans h.cap, fun s c => (h'.facts s c).trans (h.facts s c),
    fun s => (h'.claims s).trans (h.claims s), fun i => (h'.entities i).trans (h.entities i),
    fun s r t => (h'.relations s r t).trans (h.relations s r t)⟩

theorem SameWorld.symm (h : SameWorld sessionId w w') : SameWorld sessionId w' w where
  cap := h.cap.symm
  facts s c := (h.facts s c).symm
  distinct s c := ((h.facts s c).map _).nodup_iff.mp (h.distinct s c)
  claims s c hc :=
    (h.claims s c fun hn => hc ((hn ▸ h.facts s c).nil_eq).symm).symm
  entities i := (h.entities i).symm
  relations s r t := (h.relations s r t).symm

theorem SameWorld.trans (h : SameWorld sessionId w w') (h' : SameWorld sessionId w' w'') :
    SameWorld sessionId w w'' where
  cap := h.cap.trans h'.cap
  facts s c := (h.facts s c).trans (h'.facts s c)
  distinct := h.distinct
  claims s c hc := by
    refine ⟨(h.claims s c hc).1, (h'.claims s c fun hn => hc ?_).2⟩
    exact (hn ▸ h.facts s c).eq_nil
  entities i := (h.entities i).trans (h'.entities i)
  relations s r t := (h.relations s r t).trans (h'.relations s r t)

/-- What leaves a session's rows alone leaves what it is the same as. -/
theorem SameWorld.untouched (h : SameWorld sessionId w w') (hu : Untouched sessionId w' w'') :
    SameWorld sessionId w w'' where
  cap := h.cap.trans hu.cap.symm
  facts s c := (hu.facts s c).symm ▸ h.facts s c
  distinct := h.distinct
  claims s c hc := (hu.claims s).symm ▸ h.claims s c hc
  entities i := (h.entities i).trans (hu.entities i).symm
  relations s r t := (h.relations s r t).trans (hu.relations s r t).symm

/-- Models that hold nothing about a session are the same to it. -/
theorem SameWorld.of_nothing (hcap : w.maxEvidencePerFact = w'.maxEvidencePerFact)
    (hf : ∀ subject claim, w.factEvidence sessionId subject claim = [])
    (hf' : ∀ subject claim, w'.factEvidence sessionId subject claim = [])
    (he : ∀ id, w.entity? sessionId id = none) (he' : ∀ id, w'.entity? sessionId id = none)
    (hr : ∀ source relation target, w.relation? sessionId source relation target = none)
    (hr' : ∀ source relation target, w'.relation? sessionId source relation target = none) :
    SameWorld sessionId w w' where
  cap := hcap
  facts s c := by rw [hf, hf']
  distinct s c := by simp [hf]
  claims s c hc := absurd (hf s c) hc
  entities i := by rw [he, he']
  relations s r t := by rw [hr, hr']

/-! ### What the attributes and the kind of a subject are made of -/

theorem lookup_attributes (evidence : String → List Core.Evidence) (claim : String)
    (claims : List String) (acc : Attributes) :
    (claims.foldl (fun (attributes : Attributes) claim =>
        if isAttributeClaim claim then
          match currentFact? (evidence claim) with
          | some e => attributes.insert claim e.value
          | none => attributes
        else attributes) acc).lookup claim
      = if claim ∈ claims ∧ isAttributeClaim claim = true ∧ evidence claim ≠ [] then
          (currentFact? (evidence claim)).map Core.Evidence.value
        else acc.lookup claim := by
  induction claims generalizing acc with
  | nil => simp
  | cons c claims ih =>
    rw [List.foldl_cons, ih]
    by_cases hin : claim ∈ claims ∧ isAttributeClaim claim = true ∧ evidence claim ≠ []
    · rw [if_pos hin, if_pos ⟨List.mem_cons_of_mem c hin.1, hin.2⟩]
    · rw [if_neg hin]
      by_cases hc : claim = c
      · subst hc
        cases ha : isAttributeClaim claim with
        | false => simp
        | true =>
          cases hf : currentFact? (evidence claim) with
          | none =>
            rw [currentFact?_eq_none] at hf
            simp [hf]
          | some e =>
            have hne : evidence claim ≠ [] := fun hn => by
              rw [hn] at hf
              cases hf
            simp [hne]
      · have hiff : (claim ∈ c :: claims ∧ isAttributeClaim claim = true ∧ evidence claim ≠ [])
            ↔ (claim ∈ claims ∧ isAttributeClaim claim = true ∧ evidence claim ≠ []) := by
          rw [List.mem_cons, or_iff_right hc]
        rw [if_neg (hiff.not.mpr hin)]
        split
        · split
          · rw [Finmap.lookup_insert_of_ne _ hc]
          · rfl
        · rfl

theorem lookup_factAttributes (w : WorldModel) (sessionId : SessionId) (subject claim : String) :
    (w.factAttributes sessionId subject).lookup claim
      = if claim ∈ w.claimsOf sessionId subject ∧ isAttributeClaim claim = true ∧
            w.factEvidence sessionId subject claim ≠ [] then
          (currentFact? (w.factEvidence sessionId subject claim)).map Core.Evidence.value
        else none :=
  lookup_attributes (w.factEvidence sessionId subject) claim (w.claimsOf sessionId subject) ∅

theorem factAttributes_congr (h : SameWorld sessionId w w') (subject : String) :
    w.factAttributes sessionId subject = w'.factAttributes sessionId subject := by
  apply Finmap.ext_lookup
  intro claim
  rw [lookup_factAttributes, lookup_factAttributes]
  have hiff : (claim ∈ w.claimsOf sessionId subject ∧ isAttributeClaim claim = true ∧
        w.factEvidence sessionId subject claim ≠ [])
      ↔ (claim ∈ w'.claimsOf sessionId subject ∧ isAttributeClaim claim = true ∧
        w'.factEvidence sessionId subject claim ≠ []) := by
    constructor
    · rintro ⟨-, ha, hne⟩
      exact ⟨(h.claims subject claim hne).2, ha, fun hn => hne ((hn ▸ h.facts subject claim).eq_nil)⟩
    · rintro ⟨-, ha, hne⟩
      exact ⟨(h.symm.claims subject claim hne).2, ha,
        fun hn => hne ((hn ▸ h.facts subject claim).nil_eq).symm⟩
  rw [if_congr hiff rfl rfl, currentFact?_perm (h.facts subject claim) (h.distinct subject claim)]

theorem kindForSubject_congr (h : SameWorld sessionId w w') (subject : String) :
    w.kindForSubject sessionId subject = w'.kindForSubject sessionId subject := by
  unfold kindForSubject
  rw [currentFact?_perm (h.facts subject "kind") (h.distinct subject "kind")]

/-! ### Rows that are put -/

theorem entity?_put (w : WorldModel) (row : EntityRow) (sessionId : SessionId) (id : String) :
    ({ w with entities := w.entities.put row } : WorldModel).entity? sessionId id
      = if (sessionId, id) = row.key then some row.entity else w.entity? sessionId id := by
  unfold entity?
  rw [Table.get?_put]
  split <;> rfl

theorem relation?_put (w : WorldModel) (row : RelationRow) (sessionId : SessionId)
    (source relation target : String) :
    ({ w with relations := w.relations.put row } : WorldModel).relation? sessionId source relation
        target
      = if (sessionId, source, relation, target) = row.key then some row.relation
        else w.relation? sessionId source relation target := by
  unfold relation?
  rw [Table.get?_put]
  split <;> rfl

/-- The fact and the claim of a piece of evidence, before the entity is refreshed. -/
def withFact (dumps : Json → String) (w : WorldModel) (e : Core.Evidence) : WorldModel :=
  { w with
    facts := w.facts.put ⟨e.sessionId, e.subject, e.claim,
      trimFactBucket dumps w.maxEvidencePerFact
        (w.factEvidence e.sessionId e.subject e.claim ++ [e])⟩
    subjectClaims := w.subjectClaims.put ⟨e.sessionId, e.subject,
      if e.claim ∈ w.claimsOf e.sessionId e.subject then w.claimsOf e.sessionId e.subject
      else w.claimsOf e.sessionId e.subject ++ [e.claim]⟩ }

section Updates

variable (dumps : Json → String)

theorem factEvidence_withFact (w : WorldModel) (e : Core.Evidence) (sessionId : SessionId)
    (subject claim : String) :
    (w.withFact dumps e).factEvidence sessionId subject claim
      = if sessionId = e.sessionId ∧ subject = e.subject ∧ claim = e.claim then
          trimFactBucket dumps w.maxEvidencePerFact
            (w.factEvidence e.sessionId e.subject e.claim ++ [e])
        else w.factEvidence sessionId subject claim := by
  unfold withFact factEvidence
  rw [Table.get?_put]
  simp only [FactBucket.key, Prod.mk.injEq]
  split <;> rfl

theorem claimsOf_withFact (w : WorldModel) (e : Core.Evidence) (sessionId : SessionId)
    (subject : String) :
    (w.withFact dumps e).claimsOf sessionId subject
      = if sessionId = e.sessionId ∧ subject = e.subject then
          if e.claim ∈ w.claimsOf e.sessionId e.subject then w.claimsOf e.sessionId e.subject
          else w.claimsOf e.sessionId e.subject ++ [e.claim]
        else w.claimsOf sessionId subject := by
  unfold withFact claimsOf
  rw [Table.get?_put]
  simp only [SubjectClaims.key, Prod.mk.injEq]
  split <;> rfl

theorem applyFact_eq (w : WorldModel) (e : Core.Evidence) :
    w.applyFact dumps e
      = if (w.factEvidence e.sessionId e.subject e.claim).any fun item => item.id = e.id then w
        else (w.withFact dumps e).refreshEntityAttributes e.sessionId e.subject := rfl

/-- The entity after its attributes are refreshed; every other one is as before. -/
theorem entity?_refresh (w : WorldModel) (sessionId sessionId' : SessionId) (subject id : String) :
    (w.refreshEntityAttributes sessionId subject).entity? sessionId' id
      = if sessionId' = sessionId ∧ id = subject then
          (w.entity? sessionId subject).map fun entity =>
            storedEntity (some entity) { entity with
              attributes :=
                mergeJsonMappings (w.factAttributes sessionId subject) entity.attributes }
        else w.entity? sessionId' id := by
  unfold refreshEntityAttributes
  cases hg : w.entities.get? (sessionId, subject) with
  | none =>
    simp only
    split
    · rename_i h
      rw [h.1, h.2]
      simp [entity?, hg]
    · rfl
  | some row =>
    have hkey : row.key = (sessionId, subject) := (Table.get?_eq_some.mp hg).2
    simp only [EntityRow.key, Prod.mk.injEq] at hkey
    simp only
    rw [entity?_put]
    simp only [EntityRow.key, Prod.mk.injEq, storedEntity_id, hkey.2]
    split
    · simp [entity?, hg, hkey.2]
    · rfl

theorem refresh_maxEvidencePerFact (w : WorldModel) (sessionId : SessionId) (subject : String) :
    (w.refreshEntityAttributes sessionId subject).maxEvidencePerFact = w.maxEvidencePerFact := by
  unfold refreshEntityAttributes
  split <;> rfl

theorem factEvidence_refresh (w : WorldModel) (sessionId sessionId' : SessionId)
    (subject subject' claim : String) :
    (w.refreshEntityAttributes sessionId subject).factEvidence sessionId' subject' claim
      = w.factEvidence sessionId' subject' claim := by
  unfold refreshEntityAttributes
  split <;> rfl

theorem claimsOf_refresh (w : WorldModel) (sessionId sessionId' : SessionId)
    (subject subject' : String) :
    (w.refreshEntityAttributes sessionId subject).claimsOf sessionId' subject'
      = w.claimsOf sessionId' subject' := by
  unfold refreshEntityAttributes
  split <;> rfl

theorem relation?_refresh (w : WorldModel) (sessionId sessionId' : SessionId)
    (subject source relation target : String) :
    (w.refreshEntityAttributes sessionId subject).relation? sessionId' source relation target
      = w.relation? sessionId' source relation target := by
  unfold refreshEntityAttributes
  split <;> rfl

/-! ### Updates leave the other sessions alone -/

theorem untouched_refresh (w : WorldModel) {sessionId sessionId' : SessionId} (subject : String)
    (h : sessionId ≠ sessionId') :
    Untouched sessionId w (w.refreshEntityAttributes sessionId' subject) :=
  ⟨w.refresh_maxEvidencePerFact _ _, fun s c => w.factEvidence_refresh _ _ _ _ _,
    fun s => w.claimsOf_refresh _ _ _ _,
    fun i => by rw [entity?_refresh, if_neg fun hk => h hk.1],
    fun s r t => w.relation?_refresh _ _ _ _ _ _⟩

variable {e : Core.Evidence}

theorem untouched_withFact (w : WorldModel) {sessionId : SessionId}
    (h : sessionId ≠ e.sessionId) : Untouched sessionId w (w.withFact dumps e) :=
  ⟨rfl, fun s c => by rw [factEvidence_withFact, if_neg fun hk => h hk.1],
    fun s => by rw [claimsOf_withFact, if_neg fun hk => h hk.1], fun _ => rfl, fun _ _ _ => rfl⟩

theorem untouched_applyFact (w : WorldModel) {sessionId : SessionId}
    (h : sessionId ≠ e.sessionId) : Untouched sessionId w (w.applyFact dumps e) := by
  rw [applyFact_eq]
  split
  · exact .refl sessionId w
  · exact (w.untouched_withFact dumps h).trans (untouched_refresh _ _ h)

theorem untouched_applyEntity (w : WorldModel) {sessionId sessionId' : SessionId}
    (entity : WorldEntity) (h : sessionId ≠ sessionId') :
    Untouched sessionId w (w.applyEntity sessionId' entity) := by
  refine ⟨rfl, fun _ _ => rfl, fun _ => rfl, fun i => ?_, fun _ _ _ => rfl⟩
  unfold applyEntity
  rw [entity?_put, if_neg fun hk => h (congrArg Prod.fst hk)]

theorem untouched_applyRelation (w : WorldModel) {sessionId sessionId' : SessionId}
    (r : WorldRelation) (h : sessionId ≠ sessionId') :
    Untouched sessionId w (w.applyRelation sessionId' r) := by
  unfold applyRelation
  split
  · refine ⟨rfl, fun _ _ => rfl, fun _ => rfl, fun _ => rfl, fun s k t => ?_⟩
    rw [relation?_put, if_neg fun hk => h (congrArg Prod.fst hk)]
  · refine ⟨rfl, fun _ _ => rfl, fun _ => rfl, fun _ => rfl, fun s k t => ?_⟩
    rw [relation?_put, if_neg fun hk => h (congrArg Prod.fst hk)]

/-! ### Updates of the session itself -/

theorem refresh_congr (h : SameWorld sessionId w w') (subject : String) :
    SameWorld sessionId (w.refreshEntityAttributes sessionId subject)
      (w'.refreshEntityAttributes sessionId subject) where
  cap := by rw [refresh_maxEvidencePerFact, refresh_maxEvidencePerFact, h.cap]
  facts s c := by
    rw [factEvidence_refresh, factEvidence_refresh]
    exact h.facts s c
  distinct s c := by
    rw [factEvidence_refresh]
    exact h.distinct s c
  claims s c := by
    rw [factEvidence_refresh, claimsOf_refresh, claimsOf_refresh]
    exact h.claims s c
  entities i := by
    rw [entity?_refresh, entity?_refresh, h.entities subject, factAttributes_congr h, h.entities i]
  relations s r t := by
    rw [relation?_refresh, relation?_refresh, h.relations]

theorem withFact_congr (h : SameWorld sessionId w w')
    (hs : e.sessionId = sessionId)
    (hnew : ∀ item ∈ w.factEvidence sessionId e.subject e.claim, item.id ≠ e.id) :
    SameWorld sessionId (w.withFact dumps e) (w'.withFact dumps e) := by
  have hnodup : ((w.factEvidence sessionId e.subject e.claim ++ [e]).map Core.Evidence.id).Nodup := by
    rw [List.map_append, List.nodup_append]
    refine ⟨h.distinct _ _, List.nodup_singleton _, fun i hi j hj => ?_⟩
    obtain ⟨item, hitem, rfl⟩ := List.mem_map.mp hi
    rw [List.map_singleton, List.mem_singleton] at hj
    exact hj ▸ hnew item hitem
  subst hs
  constructor
  · exact h.cap
  · intro s c
    rw [factEvidence_withFact, factEvidence_withFact]
    split
    · rw [← h.cap]
      exact trimFactBucket_perm dumps _ ((h.facts _ _).append_right _) hnodup
    · exact h.facts s c
  · intro s c
    rw [factEvidence_withFact]
    split
    · exact trimFactBucket_nodup dumps _ hnodup
    · exact h.distinct s c
  · intro s c hne
    rw [factEvidence_withFact] at hne
    rw [claimsOf_withFact, claimsOf_withFact]
    by_cases hk : s = e.subject
    · subst hk
      simp only [true_and] at hne ⊢
      by_cases hc : c = e.claim
      · subst hc
        simp only [if_true]
        constructor
        · split
          · assumption
          · simp
        · split
          · assumption
          · simp
      · rw [if_neg hc] at hne
        obtain ⟨h1, h2⟩ := h.claims _ _ hne
        simp only [if_true]
        constructor
        · split
          · exact h1
          · exact List.mem_append_left _ h1
        · split
          · exact h2
          · exact List.mem_append_left _ h2
    · simp only [hk, false_and, and_false, if_false] at hne ⊢
      exact h.claims s c hne
  · exact h.entities
  · exact h.relations

theorem applyFact_congr (h : SameWorld sessionId w w') (e : Core.Evidence)
    (hs : e.sessionId = sessionId) :
    SameWorld sessionId (w.applyFact dumps e) (w'.applyFact dumps e) := by
  have hp := h.facts e.subject e.claim
  rw [← hs] at hp
  have hany : ((w'.factEvidence e.sessionId e.subject e.claim).any fun item => item.id = e.id)
      = (w.factEvidence e.sessionId e.subject e.claim).any fun item => item.id = e.id :=
    hp.symm.any_eq
  rw [applyFact_eq, applyFact_eq, hany]
  split
  · exact h
  · rename_i hn
    have hnew : ∀ item ∈ w.factEvidence sessionId e.subject e.claim, item.id ≠ e.id := by
      intro item hitem he
      exact hn (List.any_eq_true.mpr ⟨item, hs ▸ hitem, by simpa using he⟩)
    have hc := refresh_congr (withFact_congr dumps h hs hnew) e.subject
    rw [hs]
    exact hc

theorem applyEntity_congr (h : SameWorld sessionId w w') (entity : WorldEntity) :
    SameWorld sessionId (w.applyEntity sessionId entity) (w'.applyEntity sessionId entity) := by
  have he := h.entities entity.id
  unfold entity? at he
  refine ⟨h.cap, h.facts, h.distinct, h.claims, fun i => ?_, h.relations⟩
  unfold applyEntity
  rw [entity?_put, entity?_put]
  simp only [EntityRow.key, he, factAttributes_congr h, kindForSubject_congr h, h.entities i]

theorem relation?_applyRelation (w : WorldModel) (sessionId : SessionId) (r : WorldRelation)
    (source relation target : String) :
    (w.applyRelation sessionId r).relation? sessionId source relation target
      = if (source, relation, target) = (r.source, r.relation, r.target) then
          match w.relation? sessionId r.source r.relation r.target with
          | none => some r
          | some old =>
            some { r with evidenceIds := dedupeEvidenceIds (old.evidenceIds ++ r.evidenceIds) }
        else w.relation? sessionId source relation target := by
  unfold applyRelation
  cases hg : w.relations.get? (sessionId, r.source, r.relation, r.target) with
  | none =>
    rw [relation?_put]
    simp [RelationRow.key, relation?, hg]
  | some row =>
    rw [relation?_put]
    simp [RelationRow.key, relation?, hg]

theorem applyRelation_congr (h : SameWorld sessionId w w') (r : WorldRelation) :
    SameWorld sessionId (w.applyRelation sessionId r) (w'.applyRelation sessionId r) := by
  have hrel : ∀ v : WorldModel, (∀ s c, (v.applyRelation sessionId r).factEvidence sessionId s c
        = v.factEvidence sessionId s c) ∧
      (∀ s, (v.applyRelation sessionId r).claimsOf sessionId s = v.claimsOf sessionId s) ∧
      (∀ i, (v.applyRelation sessionId r).entity? sessionId i = v.entity? sessionId i) ∧
      (v.applyRelation sessionId r).maxEvidencePerFact = v.maxEvidencePerFact := by
    intro v
    unfold applyRelation
    split <;> exact ⟨fun _ _ => rfl, fun _ => rfl, fun _ => rfl, rfl⟩
  obtain ⟨hf, hc, he, hm⟩ := hrel w
  obtain ⟨hf', hc', he', hm'⟩ := hrel w'
  constructor
  · rw [hm, hm', h.cap]
  · intro s c
    rw [hf, hf']
    exact h.facts s c
  · intro s c
    rw [hf]
    exact h.distinct s c
  · intro s c
    rw [hf, hc, hc']
    exact h.claims s c
  · intro i
    rw [he, he', h.entities]
  · intro s k t
    rw [relation?_applyRelation, relation?_applyRelation, h.relations, h.relations]

end Updates

/-! ### Forgetting -/

theorem get?_dropSession {α κ : Type} [DecidableEq κ] {key : α → κ} (t : Table key)
    (session : α → SessionId) (ofKey : κ → SessionId) (hkey : ∀ a, ofKey (key a) = session a)
    (sessionId : SessionId) (k : κ) :
    (dropSession t session sessionId).get? k
      = if ofKey k = sessionId then none else t.get? k := by
  have hmem : ∀ a, a ∈ dropSession t session sessionId ↔ a ∈ t ∧ session a ≠ sessionId := by
    intro a
    simp [dropSession, Table.mem_def]
  split
  · rename_i h
    refine Table.get?_eq_none.mpr fun a ha hk => ((hmem a).mp ha).2 ?_
    rw [← hkey, hk, h]
  · rename_i h
    apply Option.ext
    intro a
    rw [Table.get?_eq_some, Table.get?_eq_some, hmem]
    constructor
    · rintro ⟨⟨ha, -⟩, hk⟩
      exact ⟨ha, hk⟩
    · rintro ⟨ha, rfl⟩
      exact ⟨⟨ha, fun hs => h ((hkey a).trans hs)⟩, rfl⟩

theorem factEvidence_forget (w : WorldModel) (sessionId sessionId' : SessionId)
    (subject claim : String) :
    (w.forget sessionId).factEvidence sessionId' subject claim
      = if sessionId' = sessionId then [] else w.factEvidence sessionId' subject claim := by
  unfold factEvidence forget
  rw [get?_dropSession _ _ Prod.fst fun _ => rfl]
  split <;> rfl

theorem entity?_forget (w : WorldModel) (sessionId sessionId' : SessionId) (id : String) :
    (w.forget sessionId).entity? sessionId' id
      = if sessionId' = sessionId then none else w.entity? sessionId' id := by
  unfold entity? forget
  rw [get?_dropSession _ _ Prod.fst fun _ => rfl]
  split <;> rfl

theorem relation?_forget (w : WorldModel) (sessionId sessionId' : SessionId)
    (source relation target : String) :
    (w.forget sessionId).relation? sessionId' source relation target
      = if sessionId' = sessionId then none
        else w.relation? sessionId' source relation target := by
  unfold relation? forget
  rw [get?_dropSession _ _ Prod.fst fun _ => rfl]
  split <;> rfl

theorem untouched_forget (w : WorldModel) {sessionId sessionId' : SessionId}
    (h : sessionId ≠ sessionId') : Untouched sessionId w (w.forget sessionId') :=
  ⟨rfl, fun s c => by rw [factEvidence_forget, if_neg h], fun _ => rfl,
    fun i => by rw [entity?_forget, if_neg h], fun s r t => by rw [relation?_forget, if_neg h]⟩

/-- Two models that have just forgotten a session are the same to it. -/
theorem forget_same {w w' : WorldModel} (hcap : w.maxEvidencePerFact = w'.maxEvidencePerFact)
    (sessionId : SessionId) : SameWorld sessionId (w.forget sessionId) (w'.forget sessionId) :=
  .of_nothing hcap (fun s c => by rw [factEvidence_forget, if_pos rfl])
    (fun s c => by rw [factEvidence_forget, if_pos rfl])
    (fun i => by rw [entity?_forget, if_pos rfl]) (fun i => by rw [entity?_forget, if_pos rfl])
    (fun s r t => by rw [relation?_forget, if_pos rfl])
    (fun s r t => by rw [relation?_forget, if_pos rfl])

/-! ### Snapshots -/

def historyOf (dumps : Json → String) (w : WorldModel) (sessionId : SessionId)
    (subject claim : String) : Option WorldFactHistory :=
  FactBucket.history? dumps ⟨sessionId, subject, claim, w.factEvidence sessionId subject claim⟩

end WorldModel

theorem KeyLE.total : ∀ a b : List String, KeyLE a b ∨ KeyLE b a
  | [], _ => .inl trivial
  | _ :: _, [] => .inr trivial
  | a :: as, b :: bs => by
      rcases lt_trichotomy a b with h | h | h
      · exact .inl (.inl h)
      · rcases KeyLE.total as bs with hk | hk
        · exact .inl (.inr ⟨h, hk⟩)
        · exact .inr (.inr ⟨h.symm, hk⟩)
      · exact .inr (.inl h)

theorem KeyLE.trans : ∀ {a b c : List String}, KeyLE a b → KeyLE b c → KeyLE a c
  | [], _, _, _, _ => trivial
  | _ :: _, [], _, h, _ => absurd h id
  | _ :: _, _ :: _, [], _, h => absurd h id
  | _ :: _, _ :: _, _ :: _, h, h' => by
      rcases h with h | ⟨h, hk⟩
      · rcases h' with h' | ⟨h', -⟩
        · exact .inl (h.trans h')
        · exact .inl (h' ▸ h)
      · rcases h' with h' | ⟨h', hk'⟩
        · exact .inl (h ▸ h')
        · exact .inr ⟨h.trans h', hk.trans hk'⟩

theorem KeyLE.antisymm : ∀ {a b : List String}, KeyLE a b → KeyLE b a → a = b
  | [], [], _, _ => rfl
  | [], _ :: _, _, h => absurd h id
  | _ :: _, [], h, _ => absurd h id
  | _ :: _, _ :: _, h, h' => by
      rcases h with h | ⟨h, hk⟩
      · rcases h' with h' | ⟨h', -⟩
        · exact absurd h (not_lt_of_gt h')
        · exact absurd h (by simp [h'])
      · rcases h' with h' | ⟨-, hk'⟩
        · exact absurd h' (by simp [h])
        · rw [h, hk.antisymm hk']

theorem sortedBy_congr {α : Type} {key : α → List String} {l l' : List α}
    (hl : (l.map key).Nodup) (hl' : (l'.map key).Nodup) (h : ∀ a, a ∈ l ↔ a ∈ l') :
    sortedBy key l = sortedBy key l' := by
  have : Std.Total fun a b => KeyLE (key a) (key b) := ⟨fun a b => KeyLE.total (key a) (key b)⟩
  have : IsTrans α fun a b => KeyLE (key a) (key b) := ⟨fun _ _ _ => KeyLE.trans⟩
  have hp : l.Perm l' := (List.perm_ext_iff_of_nodup hl.of_map hl'.of_map).mpr h
  have hps : (sortedBy key l).Perm (sortedBy key l') :=
    (List.perm_insertionSort _ l).trans (hp.trans (List.perm_insertionSort _ l').symm)
  refine hps.eq_of_pairwise (fun a b ha hb hab hba => ?_)
    (List.pairwise_insertionSort _ l) (List.pairwise_insertionSort _ l')
  refine List.inj_on_of_nodup_map hl ((List.mem_insertionSort _).mp ha)
    ((h b).mpr ((List.mem_insertionSort _).mp hb)) (hab.antisymm hba)

namespace WorldModel

variable {sessionId : SessionId} {w w' : WorldModel}

/-- The rows of a session in a table, each at its key. -/
theorem map_filter_nodup {α κ β : Type} {key : α → κ} (t : Table key) (p : α → Bool)
    {f : α → β} (hf : ∀ a ∈ t, ∀ b ∈ t, p a = true → p b = true → f a = f b → key a = key b) :
    ((t.rows.filter p).map f).Nodup := by
  refine List.Nodup.map_on (fun a ha b hb hab => ?_) (t.nodup.of_map.filter _)
  obtain ⟨ha, hpa⟩ := List.mem_filter.mp ha
  obtain ⟨hb, hpb⟩ := List.mem_filter.mp hb
  exact Table.eq_of_key ha hb (hf a ha b hb hpa hpb hab)

theorem history?_congr {dumps : Json → String} {subject claim : String}
    (hp : l.Perm l') (hn : (l.map Core.Evidence.id).Nodup) :
    FactBucket.history? dumps ⟨sessionId, subject, claim, l⟩
      = FactBucket.history? dumps ⟨sessionId, subject, claim, l'⟩ := by
  unfold FactBucket.history?
  rw [currentFact?_perm hp hn, inOrder_congr hp hn]

theorem historyOf_congr (dumps : Json → String) (h : SameWorld sessionId w w')
    (subject claim : String) :
    w.historyOf dumps sessionId subject claim = w'.historyOf dumps sessionId subject claim :=
  history?_congr (h.facts subject claim) (h.distinct subject claim)

theorem history?_keys {dumps : Json → String} {b : FactBucket}
    (h : b.history? dumps = some f) : f.subject = b.subject ∧ f.claim = b.claim := by
  unfold FactBucket.history? at h
  obtain ⟨c, -, rfl⟩ := Option.map_eq_some_iff.mp h
  exact ⟨rfl, rfl⟩

/-- The histories of a session are those of its facts. -/
theorem mem_histories {dumps : Json → String} :
    f ∈ (w.facts.rows.filter fun b => b.sessionId = sessionId).filterMap
        (FactBucket.history? dumps)
      ↔ w.historyOf dumps sessionId f.subject f.claim = some f := by
  rw [List.mem_filterMap]
  constructor
  · rintro ⟨b, hb, hf⟩
    obtain ⟨hb, hs⟩ := List.mem_filter.mp hb
    obtain ⟨h1, h2⟩ := history?_keys hf
    have hs' : b.sessionId = sessionId := by simpa using hs
    have hget : w.facts.get? (sessionId, f.subject, f.claim) = some b :=
      Table.get?_eq_some.mpr ⟨hb, by rw [FactBucket.key, hs', h1, h2]⟩
    rw [historyOf, factEvidence, hget, ← hf, ← hs', h1, h2]
    rfl
  · intro h
    unfold historyOf factEvidence at h
    cases hg : w.facts.get? (sessionId, f.subject, f.claim) with
    | none =>
      rw [hg] at h
      cases h
    | some b =>
      rw [hg] at h
      obtain ⟨hb, hk⟩ := Table.get?_eq_some.mp hg
      simp only [FactBucket.key, Prod.mk.injEq] at hk
      refine ⟨b, List.mem_filter.mpr ⟨hb, by simpa using hk.1⟩, ?_⟩
      rw [← h, ← hk.1, ← hk.2.1, ← hk.2.2]
      rfl

theorem histories_nodup (dumps : Json → String) (w : WorldModel) (sessionId : SessionId) :
    (((w.facts.rows.filter fun b => b.sessionId = sessionId).filterMap
      (FactBucket.history? dumps)).map fun h => [h.subject, h.claim]).Nodup := by
  have hrows : (w.facts.rows.filter fun b => b.sessionId = sessionId).Pairwise
      fun b b' => b.key ≠ b'.key := (List.pairwise_map.mp w.facts.nodup).filter _
  refine List.pairwise_map.mpr (List.pairwise_filterMap.mpr (hrows.imp_of_mem ?_))
  intro b b' hb hb' hne f hf f' hf' heq
  have hs : b.sessionId = sessionId := by simpa using (List.mem_filter.mp hb).2
  have hs' : b'.sessionId = sessionId := by simpa using (List.mem_filter.mp hb').2
  obtain ⟨h1, h2⟩ := history?_keys hf
  obtain ⟨h1', h2'⟩ := history?_keys hf'
  simp only [List.cons.injEq, and_true] at heq
  exact hne (by rw [FactBucket.key, FactBucket.key, hs, hs', ← h1, ← h2, ← h1', ← h2', heq.1, heq.2])

theorem mem_entities {entity : WorldEntity} :
    entity ∈ (w.entities.rows.filter fun r => r.sessionId = sessionId).map EntityRow.entity
      ↔ w.entity? sessionId entity.id = some entity := by
  rw [List.mem_map, entity?, Option.map_eq_some_iff]
  constructor
  · rintro ⟨row, hrow, rfl⟩
    obtain ⟨hrow, hs⟩ := List.mem_filter.mp hrow
    have hs' : row.sessionId = sessionId := by simpa using hs
    exact ⟨row, Table.get?_eq_some.mpr ⟨hrow, by rw [EntityRow.key, hs']⟩, rfl⟩
  · rintro ⟨row, hg, he⟩
    obtain ⟨hrow, hk⟩ := Table.get?_eq_some.mp hg
    exact ⟨row, List.mem_filter.mpr ⟨hrow, by simpa using congrArg Prod.fst hk⟩, he⟩

theorem mem_relations {r : WorldRelation} :
    r ∈ (w.relations.rows.filter fun row => row.sessionId = sessionId).map RelationRow.relation
      ↔ w.relation? sessionId r.source r.relation r.target = some r := by
  rw [List.mem_map, relation?, Option.map_eq_some_iff]
  constructor
  · rintro ⟨row, hrow, rfl⟩
    obtain ⟨hrow, hs⟩ := List.mem_filter.mp hrow
    have hs' : row.sessionId = sessionId := by simpa using hs
    exact ⟨row, Table.get?_eq_some.mpr ⟨hrow, by rw [RelationRow.key, hs']⟩, rfl⟩
  · rintro ⟨row, hg, he⟩
    obtain ⟨hrow, hk⟩ := Table.get?_eq_some.mp hg
    exact ⟨row, List.mem_filter.mpr ⟨hrow, by simpa using congrArg Prod.fst hk⟩, he⟩

theorem entities_nodup (w : WorldModel) (sessionId : SessionId) :
    (((w.entities.rows.filter fun r => r.sessionId = sessionId).map EntityRow.entity).map
      fun e => [e.id]).Nodup := by
  rw [List.map_map]
  refine map_filter_nodup w.entities _ fun a _ b _ ha hb hab => ?_
  simp only [decide_eq_true_eq] at ha hb
  simp only [Function.comp_apply, List.cons.injEq, and_true] at hab
  rw [EntityRow.key, EntityRow.key, ha, hb, hab]

theorem relations_nodup (w : WorldModel) (sessionId : SessionId) :
    (((w.relations.rows.filter fun r => r.sessionId = sessionId).map RelationRow.relation).map
      fun r => [r.source, r.relation, r.target]).Nodup := by
  rw [List.map_map]
  refine map_filter_nodup w.relations _ fun a _ b _ ha hb hab => ?_
  simp only [decide_eq_true_eq] at ha hb
  simp only [Function.comp_apply, List.cons.injEq, and_true] at hab
  rw [RelationRow.key, RelationRow.key, ha, hb, hab.1, hab.2.1, hab.2.2]

/-- **A snapshot is of what the model holds about the session.** -/
theorem snapshot_congr (dumps : Json → String) (h : SameWorld sessionId w w') :
    w.snapshot dumps sessionId = w'.snapshot dumps sessionId := by
  have hfacts := sortedBy_congr (histories_nodup dumps w sessionId)
    (histories_nodup dumps w' sessionId) fun f => by
      rw [mem_histories, mem_histories, historyOf_congr dumps h]
  have hentities := sortedBy_congr (entities_nodup w sessionId) (entities_nodup w' sessionId)
    fun e => by rw [mem_entities, mem_entities, h.entities]
  have hrelations := sortedBy_congr (relations_nodup w sessionId) (relations_nodup w' sessionId)
    fun r => by rw [mem_relations, mem_relations, h.relations]
  simp only [snapshot, hfacts, hentities, hrelations]

end WorldModel

/-! ## Updaters -/

/-- A world updater that works on the session of its evidence: it reads and writes nothing of the
others. -/
structure LocalUpdater where
  apply : WorldModel → Core.Evidence → WorldModel
  untouched : ∀ (sessionId : SessionId) w e, sessionId ≠ e.sessionId →
    WorldModel.Untouched sessionId w (apply w e)
  congr : ∀ w w' e, WorldModel.SameWorld e.sessionId w w' →
    WorldModel.SameWorld e.sessionId (apply w e) (apply w' e)

section Updaters

variable (dumps : Json → String)

open WorldModel

/-- `FactWorldUpdater`. -/
def factUpdater : LocalUpdater where
  apply := factWorldUpdater dumps
  untouched := fun sessionId w e h => by
    have hentity : Untouched sessionId w (match entityFromEvidence? e with
        | some entity => (w.applyFact dumps e).applyEntity e.sessionId entity
        | none => w.applyFact dumps e) := by
      have hfact := untouched_applyFact dumps w h
      split
      · exact hfact.trans (untouched_applyEntity _ _ h)
      · exact hfact
    have hrels : ∀ (rs : List WorldRelation) (v : WorldModel), Untouched sessionId w v →
        Untouched sessionId w (rs.foldl (fun w r => w.applyRelation e.sessionId r) v) := by
      intro rs
      induction rs with
      | nil => exact fun v hv => hv
      | cons r rs ih => exact fun v hv => ih _ (hv.trans (untouched_applyRelation v r h))
    exact hrels _ _ hentity
  congr := fun w w' e h => by
    have hentity : SameWorld e.sessionId (match entityFromEvidence? e with
          | some entity => (w.applyFact dumps e).applyEntity e.sessionId entity
          | none => w.applyFact dumps e)
        (match entityFromEvidence? e with
          | some entity => (w'.applyFact dumps e).applyEntity e.sessionId entity
          | none => w'.applyFact dumps e) := by
      have hfact := applyFact_congr dumps h e rfl
      split
      · exact applyEntity_congr hfact _
      · exact hfact
    have hrels : ∀ (rs : List WorldRelation) (v v' : WorldModel), SameWorld e.sessionId v v' →
        SameWorld e.sessionId (rs.foldl (fun w r => w.applyRelation e.sessionId r) v)
          (rs.foldl (fun w r => w.applyRelation e.sessionId r) v') := by
      intro rs
      induction rs with
      | nil => exact fun v v' hv => hv
      | cons r rs ih => exact fun v v' hv => ih _ _ (applyRelation_congr hv r)
    exact hrels _ _ _ hentity

/-- The claims that `WorkspaceWorldUpdater` knows. -/
def workspaceClaims : List String :=
  ["healthy", "readable", "created", "modified", "deleted", "exists", "target_file", "file_count",
    "directory_count", "line_count", "size_bytes", "match_count"]

/-- `WorkspaceWorldUpdater`. -/
def workspaceUpdater : LocalUpdater where
  apply w e := if e.claim ∈ workspaceClaims then w.applyFact dumps e else w
  untouched := fun sessionId w e h => by
    split
    · exact untouched_applyFact dumps w h
    · exact .refl sessionId w
  congr := fun w w' e h => by
    split
    · exact applyFact_congr dumps h e rfl
    · exact h

end Updaters

end UniversalAgent.World
