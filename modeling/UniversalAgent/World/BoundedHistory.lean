import UniversalAgent.World.SnapshotCache

/-!
# World — Bounded history

What a snapshot says of the present of a fact, its value, confidence, time and whether it is disputed,
does not depend on how much of the evidence is retained. `SamePresent` relates two buckets that say the
same of the present: a bucket and what trimming leaves of it, and any two such with the same evidence
added.
-/

namespace UniversalAgent.World

open UniversalAgent.Core UniversalAgent.Foundation UniversalAgent.Evidence

/-! ## Buckets that say the same of the present -/

structure SamePresent (dumps : Json → Option String) (l l' : List Core.Evidence) : Prop where
  current : currentFact? l = currentFact? l'
  texts : ∀ text, text ∈ l.map (fun e => dumps e.value) ↔ text ∈ l'.map fun e => dumps e.value

section Present

variable {dumps : Json → Option String} {l l' l'' : List Core.Evidence}

theorem SamePresent.refl (l : List Core.Evidence) : SamePresent dumps l l := ⟨rfl, fun _ => .rfl⟩

theorem SamePresent.symm (h : SamePresent dumps l l') : SamePresent dumps l' l :=
  ⟨h.current.symm, fun text => (h.texts text).symm⟩

theorem SamePresent.trans (h : SamePresent dumps l l') (h' : SamePresent dumps l' l'') :
    SamePresent dumps l l'' :=
  ⟨h.current.trans h'.current, fun text => (h.texts text).trans (h'.texts text)⟩

/-- One more piece of evidence is weighed against the current fact alone. -/
theorem currentFact?_append (l : List Core.Evidence) (e : Core.Evidence) :
    currentFact? (l ++ [e]) =
      some (((currentFact? l).map fun best => if Outranked e best then best else e).getD e) := by
  cases l with
  | nil => rfl
  | cons first l => simp [currentFact?, List.foldl_append]

theorem SamePresent.append (h : SamePresent dumps l l') (e : Core.Evidence) :
    SamePresent dumps (l ++ [e]) (l' ++ [e]) := by
  refine ⟨by rw [currentFact?_append, currentFact?_append, h.current], fun text => ?_⟩
  rw [List.map_append, List.map_append, List.mem_append, List.mem_append, h.texts]

theorem SamePresent.writable (h : SamePresent dumps l l') : Writable dumps l ↔ Writable dumps l' := by
  have hiff : ∀ l, Writable dumps l ↔ none ∉ l.map fun e => dumps e.value := by
    intro l
    simp [Writable, Option.isSome_iff_ne_none]
  rw [hiff, hiff, h.texts]

/-- Whether a fact is disputed is seen in its texts. -/
theorem hasConflictingValues_congr
    (h : ∀ text, text ∈ l.map (fun e => dumps e.value) ↔ text ∈ l'.map fun e => dumps e.value) :
    hasConflictingValues (textOf dumps) l = hasConflictingValues (textOf dumps) l' := by
  have hmem : ∀ (l : List Core.Evidence) text, text ∈ l.map (fun e => textOf dumps e.value) ↔
      ∃ t ∈ l.map (fun e => dumps e.value), t.getD "" = text := by
    intro l text
    simp [textOf]
  unfold hasConflictingValues
  rw [List.Perm.length_eq ((List.perm_ext_iff_of_nodup (List.nodup_dedup _) (List.nodup_dedup _)).mpr
    fun text => ?_)]
  rw [List.mem_dedup, List.mem_dedup, hmem, hmem]
  simp only [h]

/-! ## Trimming -/

/-- What the walk from the newest evidence keeps: what was kept, and an item for every text. -/
theorem perValue_spec (text : Json → String) (items : List Core.Evidence)
    (acc : List String × List EvidenceId) :
    let kept := items.foldl (fun (acc : List String × List EvidenceId) item =>
      if text item.value ∈ acc.1 then acc else (text item.value :: acc.1, item.id :: acc.2)) acc
    (∀ id ∈ acc.2, id ∈ kept.2) ∧
      ∀ item ∈ items, text item.value ∈ acc.1 ∨
        ∃ other ∈ items, text other.value = text item.value ∧ other.id ∈ kept.2 := by
  induction items generalizing acc with
  | nil => exact ⟨fun _ h => h, nofun⟩
  | cons first items ih =>
    rw [List.foldl_cons]
    by_cases hseen : text first.value ∈ acc.1
    · rw [if_pos hseen]
      obtain ⟨hkept, hitems⟩ := ih acc
      refine ⟨hkept, fun item hitem => ?_⟩
      rcases List.mem_cons.mp hitem with rfl | hitem
      · exact .inl hseen
      · rcases hitems item hitem with hacc | ⟨other, hother, htext, hid⟩
        · exact .inl hacc
        · exact .inr ⟨other, List.mem_cons_of_mem first hother, htext, hid⟩
    · rw [if_neg hseen]
      obtain ⟨hkept, hitems⟩ := ih (text first.value :: acc.1, first.id :: acc.2)
      have hfirst := hkept first.id List.mem_cons_self
      refine ⟨fun id hid => hkept id (List.mem_cons_of_mem _ hid), fun item hitem => ?_⟩
      rcases List.mem_cons.mp hitem with rfl | hitem
      · exact .inr ⟨item, List.mem_cons_self, rfl, hfirst⟩
      · rcases hitems item hitem with hacc | ⟨other, hother, htext, hid⟩
        · rcases List.mem_cons.mp hacc with heq | hacc
          · exact .inr ⟨first, List.mem_cons_self, heq.symm, hfirst⟩
          · exact .inl hacc
        · exact .inr ⟨other, List.mem_cons_of_mem first hother, htext, hid⟩

/-- A trimmed bucket holds the current fact and an item for every text. -/
theorem mem_trimFactBucket (text : Json → String) (cap : Nat) {l : List Core.Evidence} :
    (∀ m, currentFact? l = some m → m ∈ trimFactBucket text cap l) ∧
      ∀ e ∈ l, ∃ other ∈ trimFactBucket text cap l, text other.value = text e.value := by
  unfold trimFactBucket
  split
  · exact ⟨fun m hm => (currentFact?_spec hm).1, fun e he => ⟨e, he, rfl⟩⟩
  · dsimp only
    obtain ⟨hbest, hvalues⟩ := perValue_spec text (inOrder l).reverse
      ([], ((currentFact? l).map Core.Evidence.id).toList)
    refine ⟨fun m hm => List.mem_append_left _ (List.mem_filter.mpr ⟨(currentFact?_spec hm).1, ?_⟩),
      fun e he => ?_⟩
    · exact decide_eq_true (hbest m.id (by simp [hm]))
    · rcases hvalues e (by simpa using he) with hnone | ⟨other, hother, htext, hid⟩
      · cases hnone
      · have hmem : other ∈ l := by simpa using hother
        exact ⟨other, List.mem_append_left _ (List.mem_filter.mpr ⟨hmem, decide_eq_true hid⟩), htext⟩

theorem samePresent_trim (cap : Nat) (hids : (l.map Core.Evidence.id).Nodup) (h : Writable dumps l) :
    SamePresent dumps (trimFactBucket (textOf dumps) cap l) l := by
  obtain ⟨hcurrent, htexts⟩ := mem_trimFactBucket (textOf dumps) cap (l := l)
  constructor
  · cases hm : currentFact? l with
    | none =>
      rw [currentFact?_eq_none] at hm
      subst hm
      exact currentFact?_eq_none.mpr (List.eq_nil_iff_forall_not_mem.mpr fun e he =>
        List.not_mem_nil (trimFactBucket_subset _ _ he))
    | some m =>
      cases hm' : currentFact? (trimFactBucket (textOf dumps) cap l) with
      | none =>
        rw [currentFact?_eq_none] at hm'
        exact absurd (hcurrent m hm) (by simp [hm'])
      | some m' =>
        obtain ⟨hmem, hmax⟩ := currentFact?_spec hm
        obtain ⟨hmem', hmax'⟩ := currentFact?_spec hm'
        have hin := trimFactBucket_subset _ _ hmem'
        rw [List.inj_on_of_nodup_map hids hin hmem ((hmax m' hin).id_eq (hmax' m (hcurrent m hm)))]
  · -- a value of the bucket has a text, so an item with that text has the same one
    have hsome : ∀ e ∈ l, dumps e.value = some (textOf dumps e.value) := fun e he => by
      obtain ⟨text, htext⟩ := Option.isSome_iff_exists.mp (h e he)
      rw [textOf, htext]
      rfl
    intro text
    constructor
    · rintro hmem
      obtain ⟨e, he, rfl⟩ := List.mem_map.mp hmem
      exact List.mem_map_of_mem (trimFactBucket_subset _ _ he)
    · rintro hmem
      obtain ⟨e, he, rfl⟩ := List.mem_map.mp hmem
      obtain ⟨other, hother, htext⟩ := htexts e he
      refine List.mem_map.mpr ⟨other, hother, ?_⟩
      rw [hsome e he, hsome other (trimFactBucket_subset _ _ hother), htext]

end Present

/-! ## What is reported -/

structure Present where
  subject : String
  claim : String
  value : Json
  confidence : ℚ
  observedAt : Instant
  conflicting : Bool
deriving DecidableEq

def WorldFactHistory.present (h : WorldFactHistory) : Present :=
  ⟨h.subject, h.claim, h.current.value, h.current.confidence, h.current.observedAt, h.conflicting⟩

/-- What is reported of the facts of a session, whatever the filters. -/
def report (dumps : Json → Option String) (w : WorldModel) (sessionId : SessionId)
    (subjects claims : List String) : Except WorldError (List Present) :=
  (w.takeSnapshot sessionId dumps subjects claims).map fun taken =>
    taken.factHistories.map WorldFactHistory.present

/-- The updates of a sequence of evidence, each by `FactWorldUpdater`; one that raises ends there. -/
def observe (dumps : Json → Option String) (items : List Core.Evidence) (c : CachedWorld) : CachedWorld :=
  items.foldl (fun c e => ((factUpdates e).runAlone (perform dumps) 0 c).2) c

/-! ## Models that say the same of the present -/

structure SameFacts (dumps : Json → Option String) (w w' : WorldModel) : Prop where
  keys : w.facts.rows.map FactBucket.key = w'.facts.rows.map FactBucket.key
  buckets : ∀ sessionId subject claim, SamePresent dumps (w.factEvidence sessionId subject claim)
    (w'.factEvidence sessionId subject claim)

section Facts

variable {dumps : Json → Option String} {w w' : WorldModel}

/-- A bucket that is put: the keys, and the evidence of each. -/
theorem keys_put (w : WorldModel) (b : FactBucket) :
    (w.facts.put b).rows.map FactBucket.key =
      if b.key ∈ w.facts.rows.map FactBucket.key then w.facts.rows.map FactBucket.key
      else w.facts.rows.map FactBucket.key ++ [b.key] := by
  unfold Table.put
  split
  · exact Table.map_key_replaceRow _ _ _
  · exact List.map_append

theorem factEvidence_put (w : WorldModel) (b : FactBucket) (sessionId : SessionId)
    (subject claim : String) :
    ({ w with facts := w.facts.put b } : WorldModel).factEvidence sessionId subject claim =
      if (sessionId, subject, claim) = b.key then b.evidence
      else w.factEvidence sessionId subject claim := by
  unfold WorldModel.factEvidence
  rw [Table.get?_put]
  split <;> rfl

/-- Buckets that say the same are put under one key. -/
theorem SameFacts.put (h : SameFacts dumps w w') {sessionId : SessionId} {subject claim : String}
    {l l' : List Core.Evidence} (hl : SamePresent dumps l l') :
    SameFacts dumps { w with facts := w.facts.put ⟨sessionId, subject, claim, l⟩ }
      { w' with facts := w'.facts.put ⟨sessionId, subject, claim, l'⟩ } := by
  refine ⟨?_, fun s sub c => ?_⟩
  · rw [keys_put, keys_put, h.keys]
  · rw [factEvidence_put, factEvidence_put]
    by_cases hk : (s, sub, c) = (sessionId, subject, claim)
    · rw [if_pos hk, if_pos hk]
      exact hl
    · rw [if_neg hk, if_neg hk]
      exact h.buckets s sub c

/-- Models with the same facts, whatever else they hold. -/
theorem SameFacts.of_facts {v v' : WorldModel} (h : SameFacts dumps w w') (hv : v.facts = w.facts)
    (hv' : v'.facts = w'.facts) : SameFacts dumps v v' := by
  refine ⟨by rw [hv, hv', h.keys], fun s sub c => ?_⟩
  have hbuckets := h.buckets s sub c
  unfold WorldModel.factEvidence at hbuckets ⊢
  rwa [hv, hv']

/-- A row's evidence is what is found under its key. -/
theorem evidence_of_row {b : FactBucket} (hb : b ∈ w.facts.rows) :
    b.evidence = w.factEvidence b.sessionId b.subject b.claim := by
  have hget : w.facts.get? (b.sessionId, b.subject, b.claim) = some b := Table.get?_of_mem hb
  rw [WorldModel.factEvidence, hget]
  rfl

/-- The buckets of a model, from the keys and the evidence of each. -/
theorem rows_eq (w : WorldModel) : w.facts.rows = (w.facts.rows.map FactBucket.key).map fun k =>
    ⟨k.1, k.2.1, k.2.2, w.factEvidence k.1 k.2.1 k.2.2⟩ := by
  rw [List.map_map]
  refine (List.map_id _).symm.trans (List.map_congr_left fun b hb => ?_)
  rw [Function.comp_apply, ← evidence_of_row hb]
  rfl

/-- What is shown of the buckets, the ones that say the same. -/
theorem SameFacts.rows (h : SameFacts dumps w w') : List.Forall₂
    (fun b b' => b.key = b'.key ∧ SamePresent dumps b.evidence b'.evidence) w.facts.rows w'.facts.rows := by
  rw [rows_eq w, rows_eq w', ← h.keys, List.forall₂_map_left_iff, List.forall₂_map_right_iff]
  exact List.forall₂_same.mpr fun k _ => ⟨rfl, h.buckets k.1 k.2.1 k.2.2⟩

theorem filterMap_congr_of_forall₂ {α β γ : Type} {R : α → β → Prop} {f : α → Option γ} {g : β → Option γ}
    (hfg : ∀ a b, R a b → f a = g b) {l : List α} {l' : List β} (h : List.Forall₂ R l l') :
    l.filterMap f = l'.filterMap g := by
  induction h with
  | nil => rfl
  | cons hab _ ih => rw [List.filterMap_cons, List.filterMap_cons, hfg _ _ hab, ih]

theorem writable_congr {l l' : List FactBucket} (h : List.Forall₂
      (fun b b' => b.key = b'.key ∧ SamePresent dumps b.evidence b'.evidence) l l') :
    (∀ b ∈ l, Writable dumps b.evidence) ↔ ∀ b ∈ l', Writable dumps b.evidence := by
  induction h with
  | nil => exact .rfl
  | cons hb _ ih => rw [List.forall_mem_cons, List.forall_mem_cons, hb.2.writable, ih]

/-- Buckets that say the same of the present have the same present in their histories. -/
theorem present_history? (dumps : Json → Option String) {b b' : FactBucket} (hkey : b.key = b'.key)
    (h : SamePresent dumps b.evidence b'.evidence) :
    (b.history? (textOf dumps)).map WorldFactHistory.present =
      (b'.history? (textOf dumps)).map WorldFactHistory.present := by
  simp only [FactBucket.key, Prod.mk.injEq] at hkey
  have hconflicting : hasConflictingValues (textOf dumps) (inOrder b.evidence) =
      hasConflictingValues (textOf dumps) (inOrder b'.evidence) := by
    refine hasConflictingValues_congr fun text => ?_
    simpa using h.texts text
  simp only [FactBucket.history?, Option.map_map, h.current, Function.comp_def,
    WorldFactHistory.present, hkey.2.1, hkey.2.2, hconflicting]

theorem SameFacts.report (h : SameFacts dumps w w') (sessionId : SessionId)
    (subjects claims : List String) :
    report dumps w sessionId subjects claims = report dumps w' sessionId subjects claims := by
  have hselected : List.Forall₂ (fun b b' => b.key = b'.key ∧ SamePresent dumps b.evidence b'.evidence)
      (WorldModel.selected (w.factRows sessionId) subjects claims)
      (WorldModel.selected (w'.factRows sessionId) subjects claims) := by
    unfold WorldModel.selected WorldModel.factRows
    refine List.rel_filter (fun b b' hb => ?_) (List.rel_filter (fun b b' hb => ?_) h.rows)
    · have hkey := hb.1
      simp only [FactBucket.key, Prod.mk.injEq] at hkey
      simp [hkey.2.1, hkey.2.2]
    · have hkey := hb.1
      simp only [FactBucket.key, Prod.mk.injEq] at hkey
      simp [hkey.1]
  have hwritable : (∀ b ∈ WorldModel.selected (w.factRows sessionId) subjects claims,
      Writable dumps b.evidence) ↔
        ∀ b ∈ WorldModel.selected (w'.factRows sessionId) subjects claims, Writable dumps b.evidence :=
    writable_congr hselected
  have hpresent : ∀ w : WorldModel, (sortedBy (fun h => [h.subject, h.claim])
      ((WorldModel.selected (w.factRows sessionId) subjects claims).filterMap
        (FactBucket.history? (textOf dumps)))).map WorldFactHistory.present =
      sortedBy (fun h => [h.subject, h.claim])
        ((WorldModel.selected (w.factRows sessionId) subjects claims).filterMap fun b =>
          (b.history? (textOf dumps)).map WorldFactHistory.present) := by
    intro w
    rw [← List.map_filterMap]
    exact List.map_insertionSort _ _ _ _ fun _ _ _ _ => Iff.rfl
  have hhistories := filterMap_congr_of_forall₂
    (fun b b' hb => present_history? dumps hb.1 hb.2) hselected
  unfold World.report WorldModel.takeSnapshot WorldModel.snapshotOf
  by_cases hall : ∀ b ∈ WorldModel.selected (w.factRows sessionId) subjects claims,
      Writable dumps b.evidence
  · rw [if_pos hall, if_pos (hwritable.mp hall)]
    change Except.ok (List.map _ _) = Except.ok (List.map _ _)
    rw [hpresent w, hpresent w', hhistories]
  · rw [if_neg hall, if_neg fun hall' => hall (hwritable.mpr hall')]

end Facts

/-! ## Runs -/

def Distinct (seen : List EvidenceId) (w : WorldModel) : Prop :=
  ∀ sessionId subject claim, ((w.factEvidence sessionId subject claim).map Core.Evidence.id).Nodup ∧
    ∀ e ∈ w.factEvidence sessionId subject claim, e.id ∈ seen

section Runs

variable {dumps : Json → Option String}

theorem facts_refresh (w : WorldModel) (sessionId : SessionId) (subject : String) :
    (w.refreshEntityAttributes sessionId subject).facts = w.facts := by
  unfold WorldModel.refreshEntityAttributes
  split <;> rfl

/-- New evidence is put in its bucket, which goes on to say what it would without a cap. -/
theorem facts_applyFact (dumps : Json → Option String) {c : CachedWorld} {e : Core.Evidence}
    (hnodup : ((c.model.factEvidence e.sessionId e.subject e.claim ++ [e]).map Core.Evidence.id).Nodup) :
    ∃ l, (c.applyFact dumps e).2.model.facts = c.model.facts.put ⟨e.sessionId, e.subject, e.claim, l⟩ ∧
      SamePresent dumps l (c.model.factEvidence e.sessionId e.subject e.claim ++ [e]) ∧
      (l.map Core.Evidence.id).Nodup ∧
      ∀ x ∈ l, x ∈ c.model.factEvidence e.sessionId e.subject e.claim ++ [e] := by
  have hnew : ∀ item ∈ c.model.factEvidence e.sessionId e.subject e.claim, item.id ≠ e.id := by
    rw [List.map_append, List.nodup_append] at hnodup
    intro item hitem
    exact hnodup.2.2 item.id (List.mem_map_of_mem hitem) e.id (List.mem_singleton.mpr rfl)
  have hany : ¬((c.model.factEvidence e.sessionId e.subject e.claim).any
      fun item => item.id = e.id) = true := by
    simpa using hnew
  unfold CachedWorld.applyFact
  rw [if_neg hany]
  by_cases htrim : TrimRaises dumps c.model e
  · rw [if_pos htrim]
    exact ⟨_, rfl, .refl _, hnodup, fun x hx => hx⟩
  · rw [if_neg htrim]
    refine ⟨_, ?_, ?_, trimFactBucket_nodup (textOf dumps) c.model.maxEvidencePerFact hnodup,
      fun x hx => trimFactBucket_subset _ _ hx⟩
    · rw [WorldModel.applyFact_eq, if_neg hany, facts_refresh]
      rfl
    · by_cases hlength : (c.model.factEvidence e.sessionId e.subject e.claim ++ [e]).length ≤
          c.model.maxEvidencePerFact
      · rw [trimFactBucket_of_le _ hlength]
        exact .refl _
      · refine samePresent_trim _ hnodup ?_
        by_contra hwritable
        exact htrim ⟨hnew, Nat.lt_of_not_le hlength, hwritable⟩

def UpdatesGraph : WorldCall → Prop
  | .applyEntity _ _ | .applyRelation _ _ => True
  | .applyFact _ | .forget _ | .snapshot _ _ _ => False

theorem facts_applyEntity (c : CachedWorld) (sessionId : SessionId) (entity : WorldEntity) :
    (c.applyEntity sessionId entity).2.model.facts = c.model.facts := by
  unfold CachedWorld.applyEntity
  dsimp only
  split
  · rfl
  · split <;> rfl

theorem facts_applyRelation (c : CachedWorld) (sessionId : SessionId) (r : WorldRelation) :
    (c.applyRelation sessionId r).2.model.facts = c.model.facts := by
  have hfacts : (c.model.applyRelation sessionId r).facts = c.model.facts := by
    unfold WorldModel.applyRelation
    split <;> rfl
  unfold CachedWorld.applyRelation
  dsimp only
  split
  · rfl
  · split
    · rfl
    · exact hfacts

theorem facts_perform (c : CachedWorld) {call : WorldCall} (h : UpdatesGraph call) :
    (perform dumps c call).2.model.facts = c.model.facts := by
  cases call with
  | applyEntity s entity => exact facts_applyEntity c s entity
  | applyRelation s r => exact facts_applyRelation c s r
  | applyFact e => exact h.elim
  | forget s => exact h.elim
  | snapshot s subjects claims => exact h.elim

theorem applyRelations_only (sessionId : SessionId) (relations : List WorldRelation) (changed : Bool) :
    (applyRelations sessionId relations changed).Only UpdatesGraph := by
  induction relations generalizing changed with
  | nil => exact .pure changed
  | cons relation relations ih => exact .bind (call_only trivial) fun applied => ih _

/-- Entities and relations are updated apart from the facts. -/
theorem facts_factUpdates (dumps : Json → Option String) (c : CachedWorld) (e : Core.Evidence) :
    ((factUpdates e).runAlone (perform dumps) 0 c).2.model.facts = (c.applyFact dumps e).2.model.facts := by
  have hrun : ∀ p : WorldM Bool, p.Only UpdatesGraph → ∀ c : CachedWorld,
      (p.runAlone (perform dumps) 0 c).2.model.facts = c.model.facts := by
    intro p hp c
    exact hp.runAlone (fun c c' : CachedWorld => c'.model.facts = c.model.facts) (fun _ => rfl)
      (fun _ _ _ h h' => h'.trans h) (fun c call hcall => facts_perform c hcall) 0 c
  unfold factUpdates call
  rw [Prog.runAlone_op_bind]
  split
  · refine hrun _ ?_ _
    split
    · exact applyRelations_only _ _ _
    · exact .bind (call_only trivial) fun applied => applyRelations_only _ _ _
  · rfl

/-- Two models with the same facts, whose buckets hold what has been seen, observe the same. -/
theorem SameFacts.observe {items : List Core.Evidence} {seen : List EvidenceId} {c c' : CachedWorld}
    (h : SameFacts dumps c.model c'.model) (hc : Distinct seen c.model) (hc' : Distinct seen c'.model)
    (hids : (seen ++ items.map Core.Evidence.id).Nodup) :
    SameFacts dumps (World.observe dumps items c).model (World.observe dumps items c').model := by
  induction items generalizing seen c c' with
  | nil => exact h
  | cons e items ih =>
    have hfresh : e.id ∉ seen := fun hmem =>
      (List.nodup_append.mp hids).2.2 e.id hmem e.id (by simp) rfl
    have happend : ∀ {w : WorldModel}, Distinct seen w →
        ((w.factEvidence e.sessionId e.subject e.claim ++ [e]).map Core.Evidence.id).Nodup := by
      intro w hw
      obtain ⟨hnodup, hseen⟩ := hw e.sessionId e.subject e.claim
      rw [List.map_append, List.nodup_append]
      refine ⟨hnodup, List.nodup_singleton _, fun i hi j hj hij => ?_⟩
      obtain ⟨x, hx, rfl⟩ := List.mem_map.mp hi
      rw [List.map_singleton, List.mem_singleton] at hj
      exact hfresh (hj ▸ hij ▸ hseen x hx)
    have hdistinct : ∀ {w : WorldModel} {l : List Core.Evidence} {v : WorldModel}, Distinct seen w →
        v.facts = w.facts.put ⟨e.sessionId, e.subject, e.claim, l⟩ → (l.map Core.Evidence.id).Nodup →
        (∀ x ∈ l, x ∈ w.factEvidence e.sessionId e.subject e.claim ++ [e]) →
          Distinct (seen ++ [e.id]) v := by
      intro w l v hw hv hnodup hl s sub cl
      have hfact : v.factEvidence s sub cl =
          if (s, sub, cl) = (e.sessionId, e.subject, e.claim) then l
          else w.factEvidence s sub cl := by
        refine Eq.trans ?_ (factEvidence_put w ⟨e.sessionId, e.subject, e.claim, l⟩ s sub cl)
        unfold WorldModel.factEvidence
        rw [hv]
      rw [hfact]
      split
      · refine ⟨hnodup, fun x hx => ?_⟩
        rcases List.mem_append.mp (hl x hx) with hold | hnew
        · exact List.mem_append_left _ ((hw _ _ _).2 x hold)
        · rw [List.mem_singleton.mp hnew]
          exact List.mem_append_right _ (List.mem_singleton.mpr rfl)
      · exact ⟨(hw s sub cl).1, fun x hx => List.mem_append_left _ ((hw s sub cl).2 x hx)⟩
    obtain ⟨l, hput, hpresent, hnodup, hl⟩ := facts_applyFact dumps (happend hc)
    obtain ⟨l', hput', hpresent', hnodup', hl'⟩ := facts_applyFact dumps (happend hc')
    have hfacts := (facts_factUpdates dumps c e).trans hput
    have hfacts' := (facts_factUpdates dumps c' e).trans hput'
    refine @ih (seen ++ [e.id]) _ _ ?_ (hdistinct hc hfacts hnodup hl)
      (hdistinct hc' hfacts' hnodup' hl') (by simpa using hids)
    have hbuckets := hpresent.trans (((h.buckets e.sessionId e.subject e.claim).append e).trans
      hpresent'.symm)
    exact (h.put hbuckets).of_facts hfacts hfacts'

end Runs

end UniversalAgent.World
