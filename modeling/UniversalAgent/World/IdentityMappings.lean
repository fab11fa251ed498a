import UniversalAgent.World.CrossDomain
import UniversalAgent.World.Sessions

/-!
# World — Identity mappings

`build_entity_identity_mappings` (`world/cross_domain.py`) always ends, and its mappings are the classes of
at least two entities, each under its least member. In which order the relations come shows in nothing but the
order in which a mapping lists its evidence.
-/

namespace UniversalAgent.World

open UniversalAgent.Core UniversalAgent.Foundation

/-! ## Lists without repetition -/

theorem dedupeEvidenceIds_snoc (ids : List EvidenceId) (i : EvidenceId) :
    dedupeEvidenceIds (ids ++ [i]) =
      if i ∈ dedupeEvidenceIds ids then dedupeEvidenceIds ids else dedupeEvidenceIds ids ++ [i] := by
  unfold dedupeEvidenceIds
  rw [List.foldl_append]
  rfl

@[simp] theorem mem_dedupeEvidenceIds {ids : List EvidenceId} {i : EvidenceId} :
    i ∈ dedupeEvidenceIds ids ↔ i ∈ ids := by
  induction ids using List.reverseRecOn with
  | nil => rfl
  | append_singleton ids j ih =>
    rw [dedupeEvidenceIds_snoc, List.mem_append, List.mem_singleton, ← ih]
    split
    · next hj => exact ⟨.inl, fun h => h.elim id fun he => he ▸ hj⟩
    · rw [List.mem_append, List.mem_singleton]

theorem nodup_dedupeEvidenceIds (ids : List EvidenceId) : (dedupeEvidenceIds ids).Nodup := by
  induction ids using List.reverseRecOn with
  | nil => exact List.nodup_nil
  | append_singleton ids j ih =>
    rw [dedupeEvidenceIds_snoc]
    split
    · exact ih
    · next hj => exact List.nodup_append.mpr ⟨ih, List.nodup_singleton j, by grind⟩

theorem perm_dedupeEvidenceIds {ids ids' : List EvidenceId} (h : ∀ i, i ∈ ids ↔ i ∈ ids') :
    (dedupeEvidenceIds ids).Perm (dedupeEvidenceIds ids') :=
  (List.perm_ext_iff_of_nodup (nodup_dedupeEvidenceIds _) (nodup_dedupeEvidenceIds _)).mpr fun i => by
    rw [mem_dedupeEvidenceIds, mem_dedupeEvidenceIds, h]

@[simp] theorem mem_sortedSet {texts : List String} {t : String} : t ∈ sortedSet texts ↔ t ∈ texts := by
  unfold sortedSet
  rw [List.mem_insertionSort, List.mem_dedup]

theorem sortedSet_lt (texts : List String) : (sortedSet texts).Pairwise (· < ·) := by
  have hle : (sortedSet texts).Pairwise (· ≤ ·) := List.pairwise_insertionSort _ _
  have hnodup : (sortedSet texts).Nodup :=
    (List.perm_insertionSort _ _).nodup_iff.mpr (List.nodup_dedup texts)
  exact hle.imp₂ (fun a b hab hne => lt_of_le_of_ne hab hne) hnodup

theorem eq_of_ascending {l l' : List String} (h : l.Pairwise (· < ·)) (h' : l'.Pairwise (· < ·))
    (hmem : ∀ t, t ∈ l ↔ t ∈ l') : l = l' := by
  refine ((List.perm_ext_iff_of_nodup (h.imp fun hab => hab.ne) (h'.imp fun hab => hab.ne)).mpr hmem).eq_of_pairwise
    (fun a b _ _ hab hba => absurd hab (not_lt_of_gt hba)) h h'

theorem two_le_length {l : List String} {x y : String} (hx : x ∈ l) (hy : y ∈ l) (hne : x ≠ y) :
    2 ≤ l.length := by
  match l with
  | [] => cases hx
  | [a] => exact absurd ((List.mem_singleton.mp hx).trans (List.mem_singleton.mp hy).symm) hne
  | _ :: _ :: _ => simp

/-! ## Classes -/

section Classes

variable {edges : List (String × String)} {identityRelations : List WorldRelation} {p : Parents String}

/-- A mapping of a class: its members in order, at least two, under the least, with the evidence of the
relations between them. -/
structure IsIdentityClass (edges : List (String × String)) (identityRelations : List WorldRelation)
    (m : EntityIdentityMapping) : Prop where
  members : ∀ x, x ∈ m.aliases ↔ Linked edges m.canonicalId x
  ascending : m.aliases.Pairwise (· < ·)
  large : 2 ≤ m.aliases.length
  least : IsLeast {x | x ∈ m.aliases} m.canonicalId
  evidence : m.evidenceIds =
    dedupeEvidenceIds ((identityRelations.filter fun r => r.source ∈ m.aliases).flatMap
      WorldRelation.evidenceIds)

/-- The mappings are the classes of at least two entities, in the order of their least. -/
structure IsIdentityClasses (edges : List (String × String)) (identityRelations : List WorldRelation)
    (mappings : List EntityIdentityMapping) : Prop where
  ordered : (mappings.map EntityIdentityMapping.canonicalId).Pairwise (· < ·)
  classes : ∀ m ∈ mappings, IsIdentityClass edges identityRelations m
  complete : ∀ x y, x ≠ y → Linked edges x y → ∃ m ∈ mappings, x ∈ m.aliases

structure IsClassGroup (edges : List (String × String)) (group : String × List (String × String)) : Prop where
  least : IsLeast {x | Linked edges group.1 x} group.1
  members : ∀ x, x ∈ group.2.map Prod.snd ↔ Linked edges group.1 x

/-- The relations that are found to be of a class are those whose source is a member. -/
theorem evidence_of_found {canonicalId : String} {aliases : List String} {found : List (String × WorldRelation)}
    (hleast : IsLeast {x | Linked edges canonicalId x} canonicalId)
    (haliases : ∀ x, x ∈ aliases ↔ Linked edges canonicalId x)
    (hsnd : found.map Prod.snd = identityRelations)
    (hfound : ∀ pair ∈ found, IsLeast {y | Linked edges pair.2.source y} pair.1) :
    ((found.filter fun pair => pair.1 = canonicalId).flatMap fun pair => pair.2.evidenceIds) =
      (identityRelations.filter fun r => r.source ∈ aliases).flatMap WorldRelation.evidenceIds := by
  have hfilter : (found.filter fun pair => pair.1 = canonicalId) =
      found.filter ((fun r : WorldRelation => decide (r.source ∈ aliases)) ∘ Prod.snd) := by
    refine List.filter_congr fun pair hpair => decide_eq_decide.mpr ?_
    obtain ⟨hlinked, hmin⟩ := hfound pair hpair
    rw [haliases]
    constructor
    · rintro rfl
      exact Linked.symm hlinked
    · intro h
      exact ((Linked.class_eq h).symm ▸ hfound pair hpair : IsLeast {x | Linked edges canonicalId x} pair.1).unique
        hleast
  rw [hfilter, ← hsnd, List.filter_map, List.flatMap_map]

theorem classMappings_spec (h : Parents.Represents edges p)
    (hsources : ∀ r ∈ identityRelations, (p.parent? r.source).isSome = true)
    {groups : List (String × List (String × String))} (hgroups : ∀ g ∈ groups, IsClassGroup edges g) :
    ∃ mappings, classMappings identityRelations groups p = some mappings ∧
      (∀ m ∈ mappings, IsIdentityClass edges identityRelations m) ∧
      (∀ g ∈ groups, 2 ≤ (sortedSet (g.2.map Prod.snd)).length → ∃ m ∈ mappings, m.canonicalId = g.1) ∧
      (mappings.map EntityIdentityMapping.canonicalId).Sublist (groups.map Prod.fst) := by
  induction groups generalizing p with
  | nil => exact ⟨[], rfl, fun _ hm => (nomatch hm), fun _ hg => (nomatch hg), .slnil⟩
  | cons group groups ih =>
    obtain ⟨canonicalId, members⟩ := group
    have hgroup := hgroups _ List.mem_cons_self
    have hrest : ∀ g ∈ groups, IsClassGroup edges g := fun g hg => hgroups g (List.mem_cons_of_mem _ hg)
    by_cases hsmall : (sortedSet (members.map Prod.snd)).length < 2
    · obtain ⟨mappings, hmappings, hclasses, hall, hsub⟩ := ih h hsources hrest
      refine ⟨mappings, by rw [classMappings, if_pos hsmall, hmappings], hclasses, fun g hg hlarge => ?_,
        hsub.cons _⟩
      rcases List.mem_cons.mp hg with rfl | hg
      · exact absurd hlarge (not_le.mpr hsmall)
      · exact hall g hg hlarge
    · obtain ⟨found, p', hfound, h', hsame, hsnd, hleast⟩ := h.findAll hsources
      obtain ⟨mappings, hmappings, hclasses, hall, hsub⟩ := ih h'
        (fun r hr => (hsame.items _).trans (hsources r hr)) hrest
      have haliases : ∀ x, x ∈ sortedSet (members.map Prod.snd) ↔ Linked edges canonicalId x := fun x => by
        rw [mem_sortedSet]
        exact hgroup.members x
      have hevidence := evidence_of_found hgroup.least haliases hsnd hleast
      let evidence := (found.filter fun pair => pair.1 = canonicalId).flatMap fun pair => pair.2.evidenceIds
      have hcons : classMappings identityRelations ((canonicalId, members) :: groups) p =
          some (⟨canonicalId, sortedSet (members.map Prod.snd), dedupeEvidenceIds evidence⟩ :: mappings) := by
        rw [classMappings, if_neg hsmall, hfound]
        simp only [Option.bind_eq_bind, Option.bind_some, hmappings, evidence]
      refine ⟨_, hcons, fun m hm => ?_, fun g hg hlarge => ?_, hsub.cons_cons _⟩
      · rcases List.mem_cons.mp hm with rfl | hm
        · refine ⟨haliases, sortedSet_lt _, not_lt.mp hsmall, ?_, congrArg dedupeEvidenceIds hevidence⟩
          exact ⟨(haliases _).mpr (.refl _), fun x hx => hgroup.least.2 ((haliases x).mp hx)⟩
        · exact hclasses m hm
      · rcases List.mem_cons.mp hg with rfl | hg
        · exact ⟨_, List.mem_cons_self, rfl⟩
        · obtain ⟨m, hm, hkey⟩ := hall g hg hlarge
          exact ⟨m, List.mem_cons_of_mem _ hm, hkey⟩

/-- What is found of every item, grouped, is the classes. -/
theorem isClassGroup_of_found (h : Parents.Represents edges p) {found : List (String × String)}
    (hsnd : found.map Prod.snd = p.rows.map Prod.fst)
    (hleast : ∀ pair ∈ found, IsLeast {y | Linked edges pair.2 y} pair.1)
    {group : String × List (String × String)} (hgroup : group ∈ groupBy Prod.fst found) :
    IsClassGroup edges group := by
  obtain ⟨canonicalId, members⟩ := group
  obtain ⟨hkey, rfl⟩ := mem_groupBy.mp hgroup
  obtain ⟨first, hfirst, rfl⟩ := List.mem_map.mp hkey
  have hitem : ∀ x, (p.parent? x).isSome = true ↔ x ∈ found.map Prod.snd := fun x => by
    rw [hsnd, ← Parents.mem_keys, List.mem_toFinset]
  have hlinked : Linked edges first.2 first.1 := (hleast first hfirst).1
  refine ⟨Linked.class_eq hlinked ▸ hleast first hfirst, fun x => ?_⟩
  constructor
  · intro hx
    obtain ⟨pair, hpair, rfl⟩ := List.mem_map.mp hx
    obtain ⟨hpair, hroot⟩ := List.mem_filter.mp hpair
    have hsame := (hleast pair hpair).1
    rw [of_decide_eq_true hroot] at hsame
    exact Linked.symm hsame
  · intro hx
    have hx' : Linked edges first.2 x := hlinked.trans hx
    obtain ⟨pair, hpair, rfl⟩ := List.mem_map.mp ((hitem x).mp ((h.isSome_iff hx').mp
      ((hitem first.2).mpr (List.mem_map_of_mem hfirst))))
    have hroot : pair.1 = first.1 := (Linked.class_eq hx' ▸ hleast pair hpair).unique (hleast first hfirst)
    exact List.mem_map_of_mem (List.mem_filter.mpr ⟨hpair, decide_eq_true hroot⟩)

end Classes

theorem sortedBy_ascending {α : Type} {key : α → String} {items : List α} (h : (items.map key).Nodup) :
    ((sortedBy (fun a => [key a]) items).map key).Pairwise (· < ·) := by
  have : Std.Total fun a b : α => KeyLE [key a] [key b] := ⟨fun a b => KeyLE.total _ _⟩
  have : IsTrans α fun a b => KeyLE [key a] [key b] := ⟨fun _ _ _ => KeyLE.trans⟩
  have hsorted : (sortedBy (fun a => [key a]) items).Pairwise fun a b => KeyLE [key a] [key b] :=
    List.pairwise_insertionSort _ items
  have hnodup : ((sortedBy (fun a => [key a]) items).map key).Nodup :=
    ((List.perm_insertionSort _ items).map key).nodup_iff.mpr h
  rw [List.pairwise_map]
  refine hsorted.imp₂ (fun a b hab hne => ?_) (List.pairwise_map.mp hnodup)
  rcases hab with hlt | ⟨heq, -⟩
  · exact hlt
  · exact absurd heq hne

section Mappings

variable (names : List String) (relations : List WorldRelation)

/-- The mappings are the classes that the relations of identity make. -/
theorem build_isIdentityClasses :
    ∃ mappings, buildEntityIdentityMappings relations names = some mappings ∧
      IsIdentityClasses (identityEdges names relations) (relations.filter fun r => r.relation ∈ names)
        mappings := by
  obtain ⟨p, hp, h⟩ := Parents.unions_represents (identityEdges names relations)
  have hkeys : ∀ x ∈ p.rows.map Prod.fst, (p.parent? (id x)).isSome = true := fun x hx =>
    Parents.mem_keys.mp (List.mem_toFinset.mpr hx)
  obtain ⟨found, p', hfound, h', hsame, hsnd, hleast⟩ := h.findAll hkeys
  have hgroups : ∀ g ∈ groupBy Prod.fst found, IsClassGroup (identityEdges names relations) g :=
    fun g hg => isClassGroup_of_found h hsnd hleast hg
  have hsources : ∀ r ∈ relations.filter (fun r => decide (r.relation ∈ names)),
      (p'.parent? r.source).isSome = true := fun r hr =>
    (hsame.items _).trans (h.items _ (List.mem_map_of_mem hr)).1
  obtain ⟨mappings, hmappings, hclasses, hall, hsub⟩ := classMappings_spec h' hsources hgroups
  have hmem : ∀ m, m ∈ sortedBy (fun m => [m.canonicalId]) mappings ↔ m ∈ mappings := fun m =>
    List.mem_insertionSort _
  refine ⟨_, ?_, sortedBy_ascending (hsub.nodup (groupBy_nodup _ _)),
    fun m hm => hclasses m ((hmem m).mp hm), fun x y hne hxy => ?_⟩
  · unfold buildEntityIdentityMappings
    simp only [hp, hfound, hmappings, Option.bind_eq_bind, Option.bind_some]
  · have hx : (p.parent? x).isSome = true := by
      by_contra hnone
      have halone := h.alone (Option.not_isSome_iff_eq_none.mp hnone)
      have hy := h.alone (x := y) (by simpa using mt (h.isSome_iff hxy).mpr hnone)
      exact hne (le_antisymm (halone.2 hxy) (hy.2 hxy.symm))
    obtain ⟨pair, hpair, rfl⟩ : ∃ pair ∈ found, pair.2 = x := by
      rw [← List.mem_map, hsnd, ← List.mem_toFinset]
      exact Parents.mem_keys.mpr hx
    have hgroup : (pair.1, found.filter fun q => q.1 = pair.1) ∈ groupBy Prod.fst found :=
      mem_groupBy.mpr ⟨List.mem_map_of_mem hpair, rfl⟩
    have hclass := hgroups _ hgroup
    have hroot : Linked (identityEdges names relations) pair.1 pair.2 := (hleast pair hpair).1.symm
    obtain ⟨m, hm, hkey⟩ := hall _ hgroup (two_le_length (mem_sortedSet.mpr ((hclass.members _).mpr hroot))
      (mem_sortedSet.mpr ((hclass.members _).mpr (hroot.trans hxy))) hne)
    refine ⟨m, (hmem m).mpr hm, ((hclasses m hm).members _).mpr ?_⟩
    rw [hkey]
    exact hroot

end Mappings

structure SameClasses (mappings mappings' : List EntityIdentityMapping) : Prop where
  classes : (mappings.map fun m => (m.canonicalId, m.aliases)) = mappings'.map fun m => (m.canonicalId, m.aliases)
  evidence : ∀ m ∈ mappings, ∀ m' ∈ mappings', m.canonicalId = m'.canonicalId →
    m.evidenceIds.Perm m'.evidenceIds

section Order

variable {edges edges' : List (String × String)} {identityRelations identityRelations' : List WorldRelation}
  {mappings mappings' : List EntityIdentityMapping}

theorem IsIdentityClasses.canonical (h : IsIdentityClasses edges identityRelations mappings)
    {m : EntityIdentityMapping} (hm : m ∈ mappings) : IsLeast {x | Linked edges m.canonicalId x} m.canonicalId := by
  have hclass := h.classes m hm
  exact ⟨.refl _, fun x hx => hclass.least.2 ((hclass.members x).mpr hx)⟩

/-- A class of the one list is a class of the other. -/
theorem IsIdentityClasses.transfer (h : IsIdentityClasses edges identityRelations mappings)
    (h' : IsIdentityClasses edges' identityRelations' mappings')
    (hlinked : ∀ x y, Linked edges x y ↔ Linked edges' x y) {m : EntityIdentityMapping} (hm : m ∈ mappings) :
    ∃ m' ∈ mappings', m'.canonicalId = m.canonicalId ∧ m'.aliases = m.aliases := by
  have hclass := h.classes m hm
  obtain ⟨x, hx, y, hy, hne⟩ : ∃ x ∈ m.aliases, ∃ y ∈ m.aliases, x ≠ y := by
    have hlarge := hclass.large
    have hascending := hclass.ascending
    match haliases : m.aliases with
    | [] => simp [haliases] at hlarge
    | [_] => simp [haliases] at hlarge
    | x :: y :: rest =>
      rw [haliases, List.pairwise_cons] at hascending
      exact ⟨x, by simp, y, by simp, (hascending.1 y (by simp)).ne⟩
  have hxm := (hclass.members x).mp hx
  obtain ⟨m', hm', hxm'⟩ := h'.complete x y hne
    ((hlinked x y).mp (Linked.trans hxm.symm ((hclass.members y).mp hy)))
  have hclass' := h'.classes m' hm'
  have hsets : {z | Linked edges m.canonicalId z} = {z | Linked edges' m'.canonicalId z} := by
    have hx' := (hclass'.members x).mp hxm'
    rw [Linked.class_eq hxm, Linked.class_eq hx']
    exact Set.ext fun z => hlinked x z
  have hkey : m'.canonicalId = m.canonicalId :=
    (h'.canonical hm').unique (hsets ▸ h.canonical hm)
  refine ⟨m', hm', hkey, eq_of_ascending hclass'.ascending hclass.ascending fun z => ?_⟩
  rw [hclass'.members, hclass.members]
  exact (Set.ext_iff.mp hsets z).symm

theorem IsIdentityClasses.same (h : IsIdentityClasses edges identityRelations mappings)
    (h' : IsIdentityClasses edges' identityRelations' mappings')
    (hlinked : ∀ x y, Linked edges x y ↔ Linked edges' x y)
    (hrelations : ∀ r, r ∈ identityRelations ↔ r ∈ identityRelations') : SameClasses mappings mappings' := by
  have hkey : ∀ {l : List EntityIdentityMapping}, (l.map EntityIdentityMapping.canonicalId).Pairwise (· < ·) →
      (l.map fun m => (m.canonicalId, m.aliases)).Pairwise fun a b => a.1 < b.1 := fun hl => by
    rw [List.pairwise_map] at hl ⊢
    exact hl
  have hmem : ∀ {e e'} {rels rels' : List WorldRelation} {l l' : List EntityIdentityMapping},
      IsIdentityClasses e rels l → IsIdentityClasses e' rels' l' → (∀ x y, Linked e x y ↔ Linked e' x y) →
      ∀ pair, pair ∈ l.map (fun m => (m.canonicalId, m.aliases)) →
        pair ∈ l'.map fun m => (m.canonicalId, m.aliases) := by
    intro e e' rels rels' l l' hl hl' hiff pair hpair
    obtain ⟨m, hm, rfl⟩ := List.mem_map.mp hpair
    obtain ⟨m', hm', hid, haliases⟩ := hl.transfer hl' hiff hm
    exact List.mem_map.mpr ⟨m', hm', by rw [hid, haliases]⟩
  refine ⟨?_, fun m hm m' hm' hid => ?_⟩
  · have hperm := (List.perm_ext_iff_of_nodup ((hkey h.ordered).imp fun hab => fun he => hab.ne (he ▸ rfl))
      ((hkey h'.ordered).imp fun hab => fun he => hab.ne (he ▸ rfl))).mpr fun pair =>
        ⟨hmem h h' hlinked pair, hmem h' h (fun x y => (hlinked x y).symm) pair⟩
    exact hperm.eq_of_pairwise (fun a b _ _ hab hba => absurd hab (not_lt_of_gt hba)) (hkey h.ordered)
      (hkey h'.ordered)
  · have hclass := h.classes m hm
    have hclass' := h'.classes m' hm'
    have haliases : ∀ x, x ∈ m.aliases ↔ x ∈ m'.aliases := fun x => by
      rw [hclass.members, hclass'.members, hid, hlinked]
    rw [hclass.evidence, hclass'.evidence]
    refine perm_dedupeEvidenceIds fun i => ?_
    simp only [List.mem_flatMap, List.mem_filter, hrelations, haliases]

end Order

/-- **The identity mappings** are the classes that the relations of identity make, whatever the relations; in
which order these come shows at most in the order of a mapping's evidence; and an item is found in whatever
pointers finds and unions lead to. -/
theorem identity_classes :
    (∀ (names : List String) (relations : List WorldRelation),
      ∃ mappings, buildEntityIdentityMappings relations names = some mappings ∧
        IsIdentityClasses (identityEdges names relations) (relations.filter fun r => r.relation ∈ names)
          mappings) ∧
    (∀ (names : List String) (relations relations' : List WorldRelation), relations.Perm relations' →
      ∃ mappings mappings', buildEntityIdentityMappings relations names = some mappings ∧
        buildEntityIdentityMappings relations' names = some mappings' ∧ SameClasses mappings mappings') ∧
    ∀ (p : Parents String) (x : String), p.Reachable → ∃ r p', p.find x = some (r, p') := by
  refine ⟨build_isIdentityClasses, fun names relations relations' hperm => ?_, fun p x hp => ?_⟩
  · obtain ⟨mappings, hmappings, h⟩ := build_isIdentityClasses names relations
    obtain ⟨mappings', hmappings', h'⟩ := build_isIdentityClasses names relations'
    have hrelations : ∀ r, r ∈ relations.filter (fun r => decide (r.relation ∈ names)) ↔
        r ∈ relations'.filter fun r => decide (r.relation ∈ names) := fun r => (hperm.filter _).mem_iff
    refine ⟨mappings, mappings', hmappings, hmappings', h.same h' (fun x y => ?_) hrelations⟩
    exact linked_congr fun e => ((hperm.filter _).map _).mem_iff
  · obtain ⟨edges, h⟩ := hp.represents
    obtain ⟨r, p', hfind, -⟩ := h.find x
    exact ⟨r, p', hfind⟩

/-- Two relations of identity, the one way round and the other. -/
theorem evidence_in_order :
    ∃ relations relations' : List WorldRelation, relations.Perm relations' ∧
      buildEntityIdentityMappings relations ["same_as"] ≠ buildEntityIdentityMappings relations' ["same_as"] := by
  let first : WorldRelation := ⟨"a", "same_as", "b", ["evidence-1"]⟩
  let second : WorldRelation := ⟨"b", "same_as", "c", ["evidence-2"]⟩
  exact ⟨[first, second], [second, first], List.Perm.swap _ _ _, by decide +kernel⟩

end UniversalAgent.World
