import UniversalAgent.Core.Dictionaries
import UniversalAgent.Core.JsonText
import UniversalAgent.World.IdentityMappings

/-!
# World — Merging

`merge_world_views` (`world/cross_domain.py`) keeps what the views say: each claim about an entity once, under
the least of those that are the same, with all its evidence; relations between such entities only; and a
conflict for each claim that is said to be two things. What a conflict is resolved to is what the merged fact
says.
-/

namespace UniversalAgent.World

open UniversalAgent.Core UniversalAgent.Foundation

variable {values : List Json} {ids : List (String × String)} {c : CrossDomainConflict} {names : List String}
  {mappings : List EntityIdentityMapping}

/-! ## Canonical entities -/

section Canonical

variable {edges : List (String × String)} {identityRelations : List WorldRelation}
  {mappings : List EntityIdentityMapping}

def IsCanonicalOf (edges : List (String × String)) (x c : String) : Prop := IsLeast {y | Linked edges x y} c

theorem IsCanonicalOf.of_linked {x y c : String} (h : IsCanonicalOf edges x c) (hxy : Linked edges x y) :
    IsCanonicalOf edges y c := by
  unfold IsCanonicalOf at h ⊢
  rw [← Linked.class_eq hxy]
  exact h

theorem IsCanonicalOf.self {x c : String} (h : IsCanonicalOf edges x c) : IsCanonicalOf edges c c :=
  h.of_linked h.1

theorem lookup_foldl_dictSet {items : List (String × String)} {x c : String} (ids : List (String × String))
    (h : ∀ item ∈ items, item.1 = x → item.2 = c) (hx : (∃ item ∈ items, item.1 = x) ∨ ids.lookup x = some c) :
    (items.foldl (fun ids item => dictSet ids item.1 item.2) ids).lookup x = some c := by
  induction items generalizing ids with
  | nil => exact hx.resolve_left fun ⟨_, hmem, _⟩ => nomatch hmem
  | cons item items ih =>
    refine ih _ (fun i hi => h i (List.mem_cons_of_mem _ hi)) ?_
    by_cases hitem : item.1 = x
    · refine .inr ?_
      rw [← h item List.mem_cons_self hitem, ← hitem]
      exact lookup_dictSet
    · rcases hx with ⟨i, hi, hkey⟩ | hx
      · rcases List.mem_cons.mp hi with rfl | hi
        · exact absurd hkey hitem
        · exact .inl ⟨i, hi, hkey⟩
      · exact .inr ((lookup_dictSet_ne (Ne.symm hitem)).trans hx)

theorem lookup_foldl_dictSet_none {items : List (String × String)} {x : String} (ids : List (String × String))
    (h : ∀ item ∈ items, item.1 ≠ x) :
    (items.foldl (fun ids item => dictSet ids item.1 item.2) ids).lookup x = ids.lookup x := by
  induction items generalizing ids with
  | nil => rfl
  | cons item items ih =>
    rw [List.foldl_cons, ih _ fun i hi => h i (List.mem_cons_of_mem _ hi)]
    exact lookup_dictSet_ne (Ne.symm (h item List.mem_cons_self))

/-- An entity is mapped to the least of those that are the same. -/
theorem canonicalEntityId_isLeast (h : IsIdentityClasses edges identityRelations mappings) (x : String) :
    IsCanonicalOf edges x (canonicalEntityId x (canonicalIdMapping mappings)) := by
  have hitem : ∀ {item}, item ∈ (mappings.flatMap fun m => m.aliases.map fun a => (a, m.canonicalId)) →
      IsCanonicalOf edges item.1 item.2 := by
    intro item hitem
    obtain ⟨m, hm, hitem⟩ := List.mem_flatMap.mp hitem
    obtain ⟨a, ha, rfl⟩ := List.mem_map.mp hitem
    have hlinked := ((h.classes m hm).members a).mp ha
    exact IsCanonicalOf.of_linked (h.canonical hm) hlinked
  unfold canonicalEntityId canonicalIdMapping
  by_cases hx : ∃ item ∈ (mappings.flatMap fun m => m.aliases.map fun a => (a, m.canonicalId)), item.1 = x
  · obtain ⟨item, hmem, rfl⟩ := hx
    rw [lookup_foldl_dictSet [] (fun i hi hkey => ?_) (.inl ⟨item, hmem, rfl⟩)]
    · exact hitem hmem
    · have hi' := hitem hi
      rw [hkey] at hi'
      exact hi'.unique (hitem hmem)
  · rw [lookup_foldl_dictSet_none [] fun i hi hkey => hx ⟨i, hi, hkey⟩]
    refine ⟨.refl x, fun y hy => ?_⟩
    by_cases hne : x = y
    · exact hne.le
    · obtain ⟨m, hm, hxm⟩ := h.complete x y hne hy
      exact absurd ⟨(x, m.canonicalId), List.mem_flatMap.mpr ⟨m, hm, List.mem_map_of_mem hxm⟩, rfl⟩ hx

end Canonical

/-! ## Values of their own -/

section Distinct

variable {dumps : Json → String}

theorem distinctValues_snoc (values : List Json) (v : Json) :
    distinctValues dumps (values ++ [v]) =
      if dumps v ∈ (distinctValues dumps values).map Prod.fst then distinctValues dumps values
      else distinctValues dumps values ++ [(dumps v, v)] := by
  unfold distinctValues
  rw [List.foldl_append]
  rfl

theorem mem_distinctValues {t : String} :
    t ∈ (distinctValues dumps values).map Prod.fst ↔ t ∈ values.map dumps := by
  induction values using List.reverseRecOn with
  | nil => rfl
  | append_singleton values v ih =>
    rw [distinctValues_snoc, List.map_append, List.mem_append, ← ih, List.map_singleton, List.mem_singleton]
    split
    · next hv => exact ⟨.inl, fun h => h.elim id fun he => he ▸ hv⟩
    · rw [List.map_append, List.mem_append, List.map_singleton, List.mem_singleton]

theorem nodup_distinctValues (values : List Json) : ((distinctValues dumps values).map Prod.fst).Nodup := by
  induction values using List.reverseRecOn with
  | nil => exact List.nodup_nil
  | append_singleton values v ih =>
    rw [distinctValues_snoc]
    split
    · exact ih
    · next hv =>
      rw [List.map_append, List.map_singleton]
      exact List.nodup_append.mpr ⟨ih, List.nodup_singleton _, by grind⟩

theorem one_lt_length_iff {α : Type} {l : List α} (h : l.Nodup) :
    1 < l.length ↔ ∃ a ∈ l, ∃ b ∈ l, a ≠ b := by
  match l with
  | [] => simp
  | [a] => simp
  | a :: b :: l =>
    have hne : a ≠ b := by
      rintro rfl
      simp at h
    exact iff_of_true (by simp) ⟨a, by simp, b, by simp, hne⟩

theorem one_lt_distinctValues :
    1 < (distinctValues dumps values).length ↔ ∃ v ∈ values, ∃ w ∈ values, dumps v ≠ dumps w := by
  rw [← List.length_map (f := Prod.fst), one_lt_length_iff (nodup_distinctValues values)]
  constructor
  · rintro ⟨a, ha, b, hb, hne⟩
    obtain ⟨v, hv, rfl⟩ := List.mem_map.mp (mem_distinctValues.mp ha)
    obtain ⟨w, hw, rfl⟩ := List.mem_map.mp (mem_distinctValues.mp hb)
    exact ⟨v, hv, w, hw, hne⟩
  · rintro ⟨v, hv, w, hw, hne⟩
    exact ⟨_, mem_distinctValues.mpr (List.mem_map_of_mem hv), _, mem_distinctValues.mpr (List.mem_map_of_mem hw),
      hne⟩

end Distinct

/-! ## Choices -/

section Choices

variable {policy : WorldMergePolicy} {entries : List FactEntry} {chosen : FactEntry}

theorem foldl_choice_mem {α : Type} {f : α → α → α} (hf : ∀ a b, f a b = a ∨ f a b = b) (first : α)
    (rest : List α) : rest.foldl f first ∈ first :: rest := by
  induction rest generalizing first with
  | nil => exact List.mem_singleton_self first
  | cons a rest ih =>
    rcases hf first a with h | h
    · rw [List.foldl_cons, h]
      rcases List.mem_cons.mp (ih first) with hmem | hmem
      · rw [hmem]
        exact List.mem_cons_self
      · exact List.mem_cons_of_mem _ (List.mem_cons_of_mem _ hmem)
    · rw [List.foldl_cons, h]
      exact List.mem_cons_of_mem _ (ih a)

theorem chooseFactEntry_mem (h : chooseFactEntry policy entries = some chosen) : chosen ∈ entries := by
  cases entries with
  | nil => cases h
  | cons first rest =>
    simp only [chooseFactEntry] at h
    split at h
    · obtain rfl := Option.some.inj h
      exact foldl_choice_mem (fun a b => (ite_eq_or_eq _ b a).symm) first rest
    · obtain rfl := Option.some.inj h
      exact foldl_choice_mem (fun a b => (ite_eq_or_eq _ b a).symm) first rest

theorem chooseFactEntry_isSome (h : entries ≠ []) : ∃ chosen, chooseFactEntry policy entries = some chosen := by
  cases entries with
  | nil => exact absurd rfl h
  | cons first rest =>
    simp only [chooseFactEntry]
    split <;> exact ⟨_, rfl⟩

end Choices

/-! ## Groups -/

section Groups

variable {α β κ : Type}

/-- What is made of groups, each of its own key, has keys of its own. -/
theorem nodup_filterMap_keys {groups : List (κ × α)} {make : κ × α → Option β} {key : β → κ}
    (hgroups : (groups.map Prod.fst).Nodup) (hmake : ∀ g b, make g = some b → key b = g.1) :
    ((groups.filterMap make).map key).Nodup := by
  refine List.Sublist.nodup ?_ hgroups
  clear hgroups
  induction groups with
  | nil => exact .slnil
  | cons g groups ih =>
    cases hg : make g with
    | none =>
      rw [List.filterMap_cons_none hg]
      exact ih.cons _
    | some b =>
      rw [List.filterMap_cons_some hg, List.map_cons, hmake g b hg]
      exact ih.cons_cons _

theorem lookup_of_mem_groups [BEq κ] [LawfulBEq κ] {groups : List (κ × α)}
    (hgroups : (groups.map Prod.fst).Nodup) {g : κ × α} (hg : g ∈ groups) : groups.lookup g.1 = some g.2 := by
  induction groups with
  | nil => cases hg
  | cons first groups ih =>
    rw [List.map_cons, List.nodup_cons] at hgroups
    rcases List.mem_cons.mp hg with rfl | hg
    · exact List.lookup_cons_self
    · have hne : ¬g.1 = first.1 := fun he => hgroups.1 (he ▸ List.mem_map_of_mem hg)
      rw [List.lookup_cons, beq_false_of_ne hne]
      exact ih hgroups.2 hg

/-- A row is put for each item, under the item's key. -/
theorem mem_foldl_keys [DecidableEq κ] {key : α → κ} {put : Table key → α → Table key}
    (hput : ∀ t a, ∃ b, key b = key a ∧ put t a = t.put b) {items : List α} {t : Table key} {k : κ} :
    k ∈ (items.foldl put t).rows.map key ↔ k ∈ t.rows.map key ∨ k ∈ items.map key := by
  induction items generalizing t with
  | nil => simp
  | cons a items ih =>
    obtain ⟨b, hkey, hb⟩ := hput t a
    have hone : k ∈ (t.put b).rows.map key ↔ k ∈ t.rows.map key ∨ k = key a := by
      simp only [List.mem_map, ← Table.mem_def, Table.mem_put]
      constructor
      · rintro ⟨c, rfl | ⟨hc, -⟩, rfl⟩
        · exact .inr hkey
        · exact .inl ⟨c, hc, rfl⟩
      · rintro (⟨c, hc, rfl⟩ | rfl)
        · by_cases hck : key c = key b
          · exact ⟨b, .inl rfl, hck.symm⟩
          · exact ⟨c, .inr ⟨hc, hck⟩, rfl⟩
        · exact ⟨b, .inl rfl, hkey⟩
    rw [List.foldl_cons, ih, hb, hone, List.map_cons, List.mem_cons, or_assoc]

end Groups

theorem mem_sortedBy {α : Type} {key : α → List String} {items : List α} {a : α} :
    a ∈ sortedBy key items ↔ a ∈ items := List.mem_insertionSort _

theorem mergeRelation_put (relations : Table WorldRelation.key) (r : WorldRelation) :
    ∃ r', r'.key = r.key ∧ mergeRelation relations r = relations.put r' := by
  unfold mergeRelation
  split
  · exact ⟨r, rfl, rfl⟩
  · next existing _ =>
    exact ⟨{ r with evidenceIds := dedupeEvidenceIds (existing.evidenceIds ++ r.evidenceIds) }, rfl, rfl⟩

/-! ## What a merge keeps -/

def viewFacts (views : List DomainWorldView) : List WorldFact := views.flatMap fun view => view.snapshot.facts

/-- A fact is about an entity that is the same as one, and makes the claim. -/
def SaidOf (edges : List (String × String)) (subject claim : String) (fact : WorldFact) : Prop :=
  IsCanonicalOf edges fact.subject subject ∧ fact.claim = claim

/-- What a merge keeps of the views, whose entities are the same as the relations of identity have it. -/
structure MergeConserves (views : List DomainWorldView) (names : List String) (edges : List (String × String))
    (merged : MergedWorld) : Prop where
  once : (merged.snapshot.facts.map fun f => (f.subject, f.claim)).Nodup
  facts : ∀ subject claim, (∃ f ∈ merged.snapshot.facts, f.subject = subject ∧ f.claim = claim) ↔
    ∃ fact ∈ viewFacts views, SaidOf edges subject claim fact
  said : ∀ f ∈ merged.snapshot.facts, ∃ fact ∈ viewFacts views, SaidOf edges f.subject f.claim fact ∧
    f.value = fact.value ∧ f.confidence = fact.confidence ∧ f.observedAt = fact.observedAt
  evidence : ∀ f ∈ merged.snapshot.facts, f.evidenceIds.Nodup ∧ ∀ i, i ∈ f.evidenceIds ↔
    ∃ fact ∈ viewFacts views, SaidOf edges f.subject f.claim fact ∧ i ∈ fact.evidenceIds
  relations : ∀ r ∈ merged.snapshot.relations, IsCanonicalOf edges r.source r.source ∧
    IsCanonicalOf edges r.target r.target ∧ r.relation ∉ names ∧ r.source ≠ r.target
  related : ∀ r ∈ allRelations views, r.relation ∉ names → ∀ source target, IsCanonicalOf edges r.source source →
    IsCanonicalOf edges r.target target → source ≠ target →
      ∃ r' ∈ merged.snapshot.relations, r'.key = (source, r.relation, target)
  conflictOnce : (merged.conflicts.map fun c => (c.subject, c.claim)).Nodup
  conflicts : ∀ subject claim, (∃ c ∈ merged.conflicts, c.subject = subject ∧ c.claim = claim) ↔
    ∃ fact ∈ viewFacts views, ∃ fact' ∈ viewFacts views, SaidOf edges subject claim fact ∧
      SaidOf edges subject claim fact' ∧ JsonText.canonical fact.value ≠ JsonText.canonical fact'.value
  resolutions : (merged.conflictResolutions.map fun r => (r.subject, r.claim)) =
    merged.conflicts.map fun c => (c.subject, c.claim)
  selected : ∀ r ∈ merged.conflictResolutions, ∃ f ∈ merged.snapshot.facts,
    f.subject = r.subject ∧ f.claim = r.claim ∧ r.selectedValue = f.value

section Entries

variable {edges : List (String × String)} {identityRelations : List WorldRelation}
  {mappings : List EntityIdentityMapping} {views : List DomainWorldView}

theorem mem_factEntries {e : FactEntry} (h : e ∈ factEntries ids views) :
    e.fact ∈ viewFacts views ∧ e.subject = canonicalEntityId e.fact.subject ids := by
  obtain ⟨view, hview, he⟩ := List.mem_flatMap.mp h
  obtain ⟨fact, hfact, rfl⟩ := List.mem_map.mp he
  exact ⟨List.mem_flatMap.mpr ⟨view, hview, hfact⟩, rfl⟩

theorem exists_factEntry (ids : List (String × String)) {fact : WorldFact} (h : fact ∈ viewFacts views) :
    ∃ e ∈ factEntries ids views, e.fact = fact := by
  obtain ⟨view, hview, hfact⟩ := List.mem_flatMap.mp h
  exact ⟨⟨view.domain, _, fact⟩, List.mem_flatMap.mpr ⟨view, hview, List.mem_map_of_mem hfact⟩, rfl⟩

theorem key_eq_iff (h : IsIdentityClasses edges identityRelations mappings) {e : FactEntry}
    (he : e ∈ factEntries (canonicalIdMapping mappings) views) {subject claim : String} :
    e.key = (subject, claim) ↔ SaidOf edges subject claim e.fact := by
  have hcanonical := canonicalEntityId_isLeast h e.fact.subject
  rw [← (mem_factEntries he).2] at hcanonical
  constructor
  · rintro hkey
    obtain ⟨rfl, rfl⟩ := Prod.mk.inj hkey
    exact ⟨hcanonical, rfl⟩
  · rintro ⟨hsubject, hclaim⟩
    exact Prod.ext (hcanonical.unique hsubject) hclaim

structure GroupOf (edges : List (String × String)) (views : List DomainWorldView)
    (group : (String × String) × List FactEntry) : Prop where
  nonempty : group.2 ≠ []
  facts : ∀ fact, (∃ e ∈ group.2, e.fact = fact) ↔
    fact ∈ viewFacts views ∧ SaidOf edges group.1.1 group.1.2 fact

theorem groupOf_mem (h : IsIdentityClasses edges identityRelations mappings)
    {group : (String × String) × List FactEntry}
    (hgroup : group ∈ groupBy FactEntry.key (factEntries (canonicalIdMapping mappings) views)) :
    GroupOf edges views group := by
  obtain ⟨⟨subject, claim⟩, entries⟩ := group
  obtain ⟨hkey, rfl⟩ := mem_groupBy.mp hgroup
  obtain ⟨first, hfirst, hfirstKey⟩ := List.mem_map.mp hkey
  refine ⟨List.ne_nil_of_mem (List.mem_filter.mpr ⟨hfirst, decide_eq_true hfirstKey⟩), fun fact => ?_⟩
  constructor
  · rintro ⟨e, he, rfl⟩
    obtain ⟨he, hekey⟩ := List.mem_filter.mp he
    exact ⟨(mem_factEntries he).1, (key_eq_iff h he).mp (of_decide_eq_true hekey)⟩
  · rintro ⟨hfact, hsaid⟩
    obtain ⟨e, he, rfl⟩ := exists_factEntry (canonicalIdMapping mappings) hfact
    exact ⟨e, List.mem_filter.mpr ⟨he, decide_eq_true ((key_eq_iff h he).mpr hsaid)⟩, rfl⟩

theorem exists_group_iff (h : IsIdentityClasses edges identityRelations mappings) {subject claim : String} :
    (∃ group ∈ groupBy FactEntry.key (factEntries (canonicalIdMapping mappings) views),
      group.1 = (subject, claim)) ↔ ∃ fact ∈ viewFacts views, SaidOf edges subject claim fact := by
  constructor
  · rintro ⟨group, hgroup, hkey⟩
    have hof := groupOf_mem h hgroup
    obtain ⟨e, he⟩ := List.exists_mem_of_ne_nil _ hof.nonempty
    obtain ⟨hfact, hsaid⟩ := (hof.facts e.fact).mp ⟨e, he, rfl⟩
    rw [hkey] at hsaid
    exact ⟨e.fact, hfact, hsaid⟩
  · rintro ⟨fact, hfact, hsaid⟩
    obtain ⟨e, he, rfl⟩ := exists_factEntry (canonicalIdMapping mappings) hfact
    have hkey := (key_eq_iff h he).mpr hsaid
    exact ⟨_, mem_groupBy.mpr ⟨List.mem_map.mpr ⟨e, he, hkey⟩, rfl⟩, rfl⟩

end Entries

/-! ## The parts of a merge -/

section Parts

variable {edges : List (String × String)} {views : List DomainWorldView} {policy : WorldMergePolicy}
  {group : (String × String) × List FactEntry}

/-- A group has one merged fact, of what one of its facts says, with the evidence of all. -/
theorem mergedFact_spec (h : GroupOf edges views group) :
    ∃ f chosen, mergedFact policy group = some f ∧ chooseFactEntry policy group.2 = some chosen ∧
      chosen ∈ group.2 ∧ (f.subject, f.claim) = group.1 ∧ f.value = chosen.fact.value ∧
      f.confidence = chosen.fact.confidence ∧ f.observedAt = chosen.fact.observedAt ∧
      f.evidenceIds = dedupeEvidenceIds (group.2.flatMap fun e => e.fact.evidenceIds) := by
  obtain ⟨chosen, hchosen⟩ := @chooseFactEntry_isSome policy _ h.nonempty
  refine ⟨⟨group.1.1, group.1.2, chosen.fact.value, chosen.fact.confidence, chosen.fact.observedAt,
    dedupeEvidenceIds (group.2.flatMap fun e => e.fact.evidenceIds)⟩, chosen, ?_, hchosen,
    chooseFactEntry_mem hchosen, rfl, rfl, rfl, rfl, rfl⟩
  rw [mergedFact, hchosen]
  rfl

theorem mergedFact_key {f : WorldFact} (hf : mergedFact policy group = some f) :
    (f.subject, f.claim) = group.1 := by
  obtain ⟨chosen, -, rfl⟩ := Option.map_eq_some_iff.mp hf
  rfl

theorem conflictOf_key {dumps : Json → String}
    (hc : conflictOf dumps group.1.1 group.1.2 group.2 = some c) : (c.subject, c.claim) = group.1 := by
  unfold conflictOf at hc
  split at hc
  · obtain rfl := Option.some.inj hc
    rfl
  · cases hc

/-- A group has a conflict if two of its facts have values of their own. -/
theorem conflictOf_isSome (floats : FloatText) (h : GroupOf edges views group) :
    (∃ c, conflictOf (JsonText.dumps floats) group.1.1 group.1.2 group.2 = some c) ↔
      ∃ fact ∈ viewFacts views, ∃ fact' ∈ viewFacts views, SaidOf edges group.1.1 group.1.2 fact ∧
        SaidOf edges group.1.1 group.1.2 fact' ∧
        JsonText.canonical fact.value ≠ JsonText.canonical fact'.value := by
  have hsome : (∃ c, conflictOf (JsonText.dumps floats) group.1.1 group.1.2 group.2 = some c) ↔
      1 < (distinctValues (JsonText.dumps floats) (group.2.map fun e => e.fact.value)).length := by
    unfold conflictOf
    split
    · next hlength => exact iff_of_true ⟨_, rfl⟩ hlength
    · next hlength => exact iff_of_false (fun ⟨_, hc⟩ => nomatch hc) hlength
  rw [hsome, one_lt_distinctValues]
  constructor
  · rintro ⟨v, hv, w, hw, hne⟩
    obtain ⟨e, he, rfl⟩ := List.mem_map.mp hv
    obtain ⟨e', he', rfl⟩ := List.mem_map.mp hw
    obtain ⟨hfact, hsaid⟩ := (h.facts e.fact).mp ⟨e, he, rfl⟩
    obtain ⟨hfact', hsaid'⟩ := (h.facts e'.fact).mp ⟨e', he', rfl⟩
    exact ⟨_, hfact, _, hfact', hsaid, hsaid', fun heq => hne (JsonText.dumps_eq_iff.mpr heq)⟩
  · rintro ⟨fact, hfact, fact', hfact', hsaid, hsaid', hne⟩
    obtain ⟨e, he, rfl⟩ := (h.facts fact).mpr ⟨hfact, hsaid⟩
    obtain ⟨e', he', rfl⟩ := (h.facts fact').mpr ⟨hfact', hsaid'⟩
    exact ⟨_, List.mem_map_of_mem he, _, List.mem_map_of_mem he',
      fun heq => hne (JsonText.dumps_injective heq)⟩

theorem resolveConflict_key (dumps : Json → String) (entries : List FactEntry) (c : CrossDomainConflict) :
    ((resolveConflict dumps policy entries c).subject, (resolveConflict dumps policy entries c).claim) =
      (c.subject, c.claim) := by
  unfold resolveConflict
  split <;> rfl

theorem resolveConflict_value {dumps : Json → String} {entries : List FactEntry}
    {chosen : FactEntry} (h : chooseFactEntry policy entries = some chosen) :
    (resolveConflict dumps policy entries c).selectedValue = chosen.fact.value := by
  unfold resolveConflict
  rw [h]

theorem canonicalRelation_eq_some {r r' : WorldRelation} :
    canonicalRelation names ids r = some r' ↔ r.relation ∉ names ∧
      canonicalEntityId r.source ids ≠ canonicalEntityId r.target ids ∧
      r' = ⟨canonicalEntityId r.source ids, r.relation, canonicalEntityId r.target ids, r.evidenceIds⟩ := by
  unfold canonicalRelation
  dsimp only
  split
  · next h =>
    refine ⟨fun h' => (nomatch h'), fun ⟨hname, hends, _⟩ => absurd h (not_or.mpr ⟨hname, hends⟩)⟩
  · next h =>
    obtain ⟨hname, hends⟩ := not_or.mp h
    exact ⟨fun h' => ⟨hname, hends, (Option.some.inj h').symm⟩, fun ⟨_, _, h'⟩ => congrArg some h'.symm⟩

/-- The relations that are merged are those between entities that are not the same, by their canonical
entities. -/
theorem mem_mergedRelations {relations : List WorldRelation}
    {key : String × String × String} :
    key ∈ ((relations.filterMap (canonicalRelation names ids)).foldl mergeRelation Table.empty).rows.map
        WorldRelation.key ↔
      ∃ r ∈ relations, r.relation ∉ names ∧
        canonicalEntityId r.source ids ≠ canonicalEntityId r.target ids ∧
        key = (canonicalEntityId r.source ids, r.relation, canonicalEntityId r.target ids) := by
  rw [mem_foldl_keys mergeRelation_put]
  simp only [Table.rows_empty, List.map_nil, List.not_mem_nil, false_or, List.mem_map, List.mem_filterMap]
  constructor
  · rintro ⟨r', ⟨r, hr, hcanonical⟩, rfl⟩
    obtain ⟨hname, hends, rfl⟩ := canonicalRelation_eq_some.mp hcanonical
    exact ⟨r, hr, hname, hends, rfl⟩
  · rintro ⟨r, hr, hname, hends, rfl⟩
    exact ⟨_, ⟨r, hr, canonicalRelation_eq_some.mpr ⟨hname, hends, rfl⟩⟩, rfl⟩

end Parts

theorem mergeWorldViews_eq (dumps : Json → String) (views : List DomainWorldView)
    (sessionId : Option SessionId) {policy : Option WorldMergePolicy}
    (h : buildEntityIdentityMappings (allRelations views) (resolveMergePolicy policy names).identityRelationNames =
      some mappings) :
    mergeWorldViews dumps views sessionId policy names =
      some (mergeWith dumps views sessionId (resolveMergePolicy policy names) mappings
        (groupConflicts dumps (groupBy FactEntry.key (factEntries (canonicalIdMapping mappings) views)))) := by
  simp only [mergeWorldViews, detectCrossDomainConflicts, h, Option.bind_eq_bind, Option.bind_some]

theorem mergeWith_conserves (floats : FloatText) {edges : List (String × String)}
    {identityRelations : List WorldRelation}
    {views : List DomainWorldView} {sessionId : Option SessionId} {policy : WorldMergePolicy}
    (h : IsIdentityClasses edges identityRelations mappings) :
    MergeConserves views policy.identityRelationNames edges
      (mergeWith (JsonText.dumps floats) views sessionId policy mappings
        (groupConflicts (JsonText.dumps floats)
          (groupBy FactEntry.key (factEntries (canonicalIdMapping mappings) views)))) := by
  let grouped := groupBy FactEntry.key (factEntries (canonicalIdMapping mappings) views)
  have hnodup : (grouped.map Prod.fst).Nodup := groupBy_nodup _ _
  have hgroup : ∀ g ∈ grouped, GroupOf edges views g := fun g hg => groupOf_mem h hg
  have hfacts : ∀ f, f ∈ sortedBy (fun f => [f.subject, f.claim]) (grouped.filterMap (mergedFact policy)) ↔
      ∃ g ∈ grouped, mergedFact policy g = some f := fun f => by
    rw [mem_sortedBy, List.mem_filterMap]
  have hconflicts : ∀ c, c ∈ groupConflicts (JsonText.dumps floats) grouped ↔
      ∃ g ∈ grouped, conflictOf (JsonText.dumps floats) g.1.1 g.1.2 g.2 = some c := fun c => by
    rw [groupConflicts, mem_sortedBy, List.mem_filterMap]
  have hcanonical := canonicalEntityId_isLeast h
  refine
    { once := ?once, facts := ?facts, said := ?said, evidence := ?evidence, relations := ?relations
      related := ?related, conflictOnce := ?conflictOnce, conflicts := ?conflicts
      resolutions := ?resolutions, selected := ?selected }
  case once =>
    exact ((List.perm_insertionSort _ _).map _).nodup_iff.mpr
      (nodup_filterMap_keys hnodup fun g f hf => mergedFact_key hf)
  case facts =>
    intro subject claim
    rw [← exists_group_iff h]
    constructor
    · rintro ⟨f, hf, rfl, rfl⟩
      obtain ⟨g, hg, hmerged⟩ := (hfacts f).mp hf
      exact ⟨g, hg, (mergedFact_key hmerged).symm⟩
    · rintro ⟨g, hg, hkey⟩
      obtain ⟨f, -, hmerged, -, -, hfkey, -⟩ := @mergedFact_spec _ _ policy _ (hgroup g hg)
      exact ⟨f, (hfacts f).mpr ⟨g, hg, hmerged⟩, Prod.mk.inj (hfkey.trans hkey)⟩
  case said =>
    intro f hf
    obtain ⟨g, hg, hmerged⟩ := (hfacts f).mp hf
    obtain ⟨f', chosen, hmerged', -, hchosen, hkey, hvalue, hconfidence, hobserved, -⟩ :=
      @mergedFact_spec _ _ policy _ (hgroup g hg)
    obtain rfl := Option.some.inj (hmerged.symm.trans hmerged')
    obtain ⟨hfact, hsaid⟩ := ((hgroup g hg).facts chosen.fact).mp ⟨chosen, hchosen, rfl⟩
    rw [← hkey] at hsaid
    exact ⟨chosen.fact, hfact, hsaid, hvalue, hconfidence, hobserved⟩
  case evidence =>
    intro f hf
    obtain ⟨g, hg, hmerged⟩ := (hfacts f).mp hf
    obtain ⟨f', -, hmerged', -, -, hkey, -, -, -, hevidence⟩ := @mergedFact_spec _ _ policy _ (hgroup g hg)
    obtain rfl := Option.some.inj (hmerged.symm.trans hmerged')
    rw [hevidence]
    refine ⟨nodup_dedupeEvidenceIds _, fun i => ?_⟩
    rw [mem_dedupeEvidenceIds, List.mem_flatMap]
    have hof := (hgroup g hg).facts
    rw [← hkey] at hof
    constructor
    · rintro ⟨e, he, hi⟩
      obtain ⟨hfact, hsaid⟩ := (hof e.fact).mp ⟨e, he, rfl⟩
      exact ⟨e.fact, hfact, hsaid, hi⟩
    · rintro ⟨fact, hfact, hsaid, hi⟩
      obtain ⟨e, he, rfl⟩ := (hof fact).mpr ⟨hfact, hsaid⟩
      exact ⟨e, he, hi⟩
  case relations =>
    intro r hr
    obtain ⟨source, hsource, hname, hends, hkey⟩ :=
      mem_mergedRelations.mp (List.mem_map_of_mem (f := WorldRelation.key) (mem_sortedBy.mp hr))
    obtain ⟨hs, hrest⟩ := Prod.mk.inj hkey
    obtain ⟨hn, ht⟩ := Prod.mk.inj hrest
    rw [hs, hn, ht]
    exact ⟨(hcanonical _).self, (hcanonical _).self, hname, hends⟩
  case related =>
    intro r hr hname source target hs ht hne
    obtain rfl := (hcanonical r.source).unique hs
    obtain rfl := (hcanonical r.target).unique ht
    obtain ⟨r', hr', hkey⟩ := List.mem_map.mp (mem_mergedRelations.mpr ⟨r, hr, hname, hne, rfl⟩)
    exact ⟨r', mem_sortedBy.mpr hr', hkey⟩
  case conflictOnce =>
    exact ((List.perm_insertionSort _ _).map _).nodup_iff.mpr
      (nodup_filterMap_keys hnodup fun g c hc => conflictOf_key hc)
  case conflicts =>
    intro subject claim
    constructor
    · rintro ⟨c, hc, rfl, rfl⟩
      obtain ⟨g, hg, hconflict⟩ := (hconflicts c).mp hc
      have hsome := (conflictOf_isSome floats (hgroup g hg)).mp ⟨c, hconflict⟩
      rw [← conflictOf_key hconflict] at hsome
      exact hsome
    · rintro ⟨fact, hfact, fact', hfact', hsaid, hsaid', hne⟩
      obtain ⟨g, hg, hkey⟩ := (exists_group_iff h).mpr ⟨fact, hfact, hsaid⟩
      obtain ⟨c, hc⟩ := (conflictOf_isSome floats (hgroup g hg)).mpr
        ⟨fact, hfact, fact', hfact', hkey ▸ hsaid, hkey ▸ hsaid', hne⟩
      exact ⟨c, (hconflicts c).mpr ⟨g, hg, hc⟩, Prod.mk.inj ((conflictOf_key hc).trans hkey)⟩
  case resolutions =>
    rw [mergeWith, resolveCrossDomainConflicts, List.map_map]
    exact List.map_congr_left fun c _ => resolveConflict_key _ _ c
  case selected =>
    intro r hr
    obtain ⟨c, hc, rfl⟩ := List.mem_map.mp hr
    obtain ⟨g, hg, hconflict⟩ := (hconflicts c).mp hc
    obtain ⟨f, chosen, hmerged, hchosen, -, hkey, hvalue, -⟩ := @mergedFact_spec _ _ policy _ (hgroup g hg)
    have hckey := conflictOf_key hconflict
    obtain ⟨hsubject, hclaim⟩ := Prod.mk.inj (hkey.trans hckey.symm)
    have hlookup : grouped.lookup (c.subject, c.claim) = some g.2 :=
      hckey ▸ lookup_of_mem_groups hnodup hg
    have hrkey := Prod.mk.inj (@resolveConflict_key policy (JsonText.dumps floats)
      ((grouped.lookup (c.subject, c.claim)).getD []) c)
    refine ⟨f, (hfacts f).mpr ⟨g, hg, hmerged⟩, hsubject.trans hrkey.1.symm, hclaim.trans hrkey.2.symm, ?_⟩
    rw [hvalue]
    exact resolveConflict_value (by rw [hlookup]; exact hchosen)

end UniversalAgent.World
