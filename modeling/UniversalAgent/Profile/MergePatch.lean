import UniversalAgent.Security.Audit

/-!
# Profile — MergePatch

`_deep_merge` of `profile/store.py`, and the `MergePatch` function of RFC 7386 that its docstring names. They
differ on an object in the patch that meets no object in the target: the one stores it as it is, the other
without its null members.
-/

namespace UniversalAgent.Profile

open UniversalAgent.Core UniversalAgent.Core.JsonText UniversalAgent.Security

/-! ## The two functions -/

mutual

def mergedValue (target : Option Json) : Json → Json
  | .obj patch => match target with
    | some (.obj nested) => .obj (deepMerge nested patch)
    | _ => .obj patch
  | value => value

/-- `_deep_merge`. -/
def deepMerge (result : JsonMapping) : JsonMapping → JsonMapping
  | [] => result
  | (key, value) :: rest =>
    deepMerge (if value = .null then result.filter fun p => p.1 ≠ key
      else dictSet result key (mergedValue (result.lookup key) value)) rest

end

/-- The members of a target; one that is no object has none. -/
def members : Option Json → JsonMapping
  | some (.obj fields) => fields
  | _ => []

mutual

/-- `MergePatch(Target, Patch)` of RFC 7386. -/
def mergePatch (target : Option Json) : Json → Json
  | .obj patch => .obj (mergeMembers (members target) patch)
  | value => value

def mergeMembers (target : JsonMapping) : JsonMapping → JsonMapping
  | [] => target
  | (name, value) :: rest =>
    mergeMembers (if value = .null then target.filter fun p => p.1 ≠ name
      else dictSet target name (mergePatch (target.lookup name) value)) rest

end

mutual

/-- There is a null member in the value, arrays apart. -/
def nullMember : Json → Bool
  | .obj fields => nullMemberFields fields
  | _ => false

def nullMemberFields : JsonMapping → Bool
  | [] => false
  | (_, value) :: rest => decide (value = .null) || nullMember value || nullMemberFields rest

end

mutual

/-- An object of the patch that has null members meets an object of the target. -/
def meets (target : Option Json) : Json → Bool
  | .obj patch => match target with
    | some (.obj nested) => meetsFields nested patch
    | _ => !nullMember (.obj patch)
  | _ => true

def meetsFields (target : JsonMapping) : JsonMapping → Bool
  | [] => true
  | (name, value) :: rest => meets (target.lookup name) value && meetsFields target rest

end

/-! ## Member by member -/

/-- One turn of the loop over the patch. -/
def mergeMember (merge : Option Json → Json → Json) (result : JsonMapping) (p : String × Json) : JsonMapping :=
  if p.2 = .null then result.filter fun q => q.1 ≠ p.1 else dictSet result p.1 (merge (result.lookup p.1) p.2)

section Members

variable {merge merge' : Option Json → Json → Json} {t patch : JsonMapping} {k : String}

theorem deepMerge_eq : deepMerge t patch = patch.foldl (mergeMember mergedValue) t := by
  induction patch generalizing t with
  | nil => rw [deepMerge, List.foldl_nil]
  | cons p patch ih => rw [deepMerge, ih, List.foldl_cons, mergeMember]

theorem mergeMembers_eq : mergeMembers t patch = patch.foldl (mergeMember mergePatch) t := by
  induction patch generalizing t with
  | nil => rw [mergeMembers, List.foldl_nil]
  | cons p patch ih => rw [mergeMembers, ih, List.foldl_cons, mergeMember]

theorem nullMemberFields_eq : nullMemberFields patch = patch.any fun p => decide (p.2 = .null) || nullMember p.2 := by
  induction patch with
  | nil => rfl
  | cons p patch ih => rw [nullMemberFields, ih, List.any_cons]

theorem meetsFields_eq : meetsFields t patch = patch.all fun p => meets (t.lookup p.1) p.2 := by
  induction patch with
  | nil => rfl
  | cons p patch ih => rw [meetsFields, ih, List.all_cons]

theorem lookup_eq_none (h : k ∉ t.map Prod.fst) : t.lookup k = none := by
  rw [List.lookup_eq_none_iff]
  exact fun q hq => bne_iff_ne.mpr fun he => h (he ▸ List.mem_map_of_mem hq)

theorem lookup_mergeMember_ne {p : String × Json} (h : k ≠ p.1) : (mergeMember merge t p).lookup k = t.lookup k := by
  unfold mergeMember
  split
  · exact lookup_filter_ne h
  · exact lookup_dictSet_ne h

theorem nodup_merged (h : (t.map Prod.fst).Nodup) : ((patch.foldl (mergeMember merge) t).map Prod.fst).Nodup := by
  induction patch generalizing t with
  | nil => exact h
  | cons p patch ih =>
    refine ih ?_
    unfold mergeMember
    split
    · exact nodup_filter_keys h
    · exact nodup_dictSet h

/-- Nothing but the keys of the patch is touched. -/
theorem lookup_merged_ne (h : k ∉ patch.map Prod.fst) : (patch.foldl (mergeMember merge) t).lookup k = t.lookup k := by
  induction patch generalizing t with
  | nil => rfl
  | cons p patch ih =>
    rw [List.map_cons, List.mem_cons, not_or] at h
    rw [List.foldl_cons, ih h.2, lookup_mergeMember_ne h.1]

/-- What is under a key of the patch when all its members are merged. -/
theorem lookup_merged (hkeys : (patch.map Prod.fst).Nodup) {p : String × Json} (hp : p ∈ patch) :
    (patch.foldl (mergeMember merge) t).lookup p.1 =
      if p.2 = .null then none else some (merge (t.lookup p.1) p.2) := by
  induction patch generalizing t with
  | nil => cases hp
  | cons q patch ih =>
    obtain ⟨hfresh, hkeys⟩ := List.nodup_cons.mp hkeys
    rw [List.foldl_cons]
    rcases List.mem_cons.mp hp with rfl | hp
    · rw [lookup_merged_ne hfresh, mergeMember]
      by_cases hnull : p.2 = .null
      · rw [if_pos hnull, if_pos hnull]
        exact lookup_eq_none fun hmem => by simp at hmem
      · rw [if_neg hnull, if_neg hnull, lookup_dictSet]
    · rw [ih hkeys hp, lookup_mergeMember_ne fun he => hfresh (he ▸ List.mem_map_of_mem hp)]

/-- Two ways to merge that agree on the members of the patch. -/
theorem merged_congr (hkeys : (patch.map Prod.fst).Nodup)
    (h : ∀ p ∈ patch, merge (t.lookup p.1) p.2 = merge' (t.lookup p.1) p.2) :
    patch.foldl (mergeMember merge) t = patch.foldl (mergeMember merge') t := by
  induction patch generalizing t with
  | nil => rfl
  | cons p patch ih =>
    obtain ⟨hfresh, hrest⟩ := List.nodup_cons.mp hkeys
    have hhead : mergeMember merge t p = mergeMember merge' t p := by
      rw [mergeMember, mergeMember, h p List.mem_cons_self]
    rw [List.foldl_cons, List.foldl_cons, hhead]
    refine ih hrest fun q hq => ?_
    rw [lookup_mergeMember_ne fun he => hfresh (he ▸ List.mem_map_of_mem hq)]
    exact h q (List.mem_cons_of_mem p hq)

/-- Members without nulls, under new names, are added as they are. -/
theorem merged_fresh (hkeys : ((t ++ patch).map Prod.fst).Nodup)
    (h : ∀ p ∈ patch, p.2 ≠ .null ∧ merge none p.2 = p.2) : patch.foldl (mergeMember merge) t = t ++ patch := by
  induction patch generalizing t with
  | nil => rw [List.foldl_nil, List.append_nil]
  | cons p patch ih =>
    have hnew : p.1 ∉ t.map Prod.fst := by
      rw [List.map_append, List.nodup_append] at hkeys
      exact fun hmem => hkeys.2.2 _ hmem _ List.mem_cons_self rfl
    have hhead : mergeMember merge t p = t ++ [p] := by
      obtain ⟨hnull, hself⟩ := h p List.mem_cons_self
      rw [mergeMember, if_neg hnull, lookup_eq_none hnew, hself, dictSet_fresh hnew]
    have hassoc : t ++ p :: patch = (t ++ [p]) ++ patch := by simp
    rw [hassoc] at hkeys ⊢
    rw [List.foldl_cons, hhead, ih hkeys fun q hq => h q (List.mem_cons_of_mem p hq)]

end Members

/-! ## Value by value -/

/-- Induction on the members of objects. -/
theorem memberInduction {P : Json → Prop} (h : ∀ v, (∀ fields, v = .obj fields → ∀ p ∈ fields, P p.2) → P v)
    (v : Json) : P v := by
  refine h v fun fields hv p hp => ?_
  have hsize : sizeOf p.2 < sizeOf v := by
    have hmem := List.sizeOf_lt_of_mem hp
    obtain ⟨k, x⟩ := p
    subst hv
    simp at hmem ⊢
    omega
  exact memberInduction h p.2
termination_by v

section Values

variable {fields : JsonMapping}

theorem unique_obj (h : (Json.obj fields).uniqueKeys = true) :
    (fields.map Prod.fst).Nodup ∧ ∀ p ∈ fields, p.2.uniqueKeys = true := by
  rw [Json.uniqueKeys, Bool.and_eq_true, Json.uniqueKeysFields_eq_all, List.all_eq_true] at h
  exact ⟨of_decide_eq_true h.1, h.2⟩

/-- A target is an object, or the patch is merged with nothing. -/
theorem target_cases (t : Option Json) (patch : JsonMapping) : (∃ nested, t = some (.obj nested)) ∨
    members t = [] ∧ mergedValue t (.obj patch) = .obj patch ∧ meets t (.obj patch) = !nullMember (.obj patch) := by
  cases t with
  | none => exact .inr ⟨rfl, by rw [mergedValue]; nofun, by rw [meets]; nofun⟩
  | some v =>
    cases v with
    | obj nested => exact .inl ⟨nested, rfl⟩
    | _ => exact .inr ⟨rfl, by rw [mergedValue]; nofun, by rw [meets]; nofun⟩

/-- Without null members, a patch that meets nothing is stored as it is. -/
theorem mergePatch_none (v : Json) (hv : v.uniqueKeys = true) (h : nullMember v = false) : mergePatch none v = v := by
  induction v using memberInduction with
  | h v ih =>
    cases v with
    | obj fields =>
      obtain ⟨hkeys, hunique⟩ := unique_obj hv
      rw [nullMember, nullMemberFields_eq, List.any_eq_false] at h
      rw [mergePatch, mergeMembers_eq, show members none = [] from rfl, merged_fresh (t := []) hkeys, List.nil_append]
      intro p hp
      have hp' := h p hp
      rw [Bool.or_eq_true, not_or, decide_eq_true_eq, Bool.not_eq_true] at hp'
      exact ⟨hp'.1, ih fields rfl p hp (hunique p hp) hp'.2⟩
    | _ => rfl

/-- Only then, up to the order of keys. -/
theorem nullMember_of_none (v : Json) (hv : v.uniqueKeys = true) (h : sortKeys v = sortKeys (mergePatch none v)) :
    nullMember v = false := by
  induction v using memberInduction with
  | h v ih =>
    cases v with
    | obj fields =>
      obtain ⟨hkeys, hunique⟩ := unique_obj hv
      rw [mergePatch, mergeMembers_eq] at h
      have hlookup := lookup_of_sortKeys_eq hkeys (nodup_merged (t := []) List.nodup_nil) h
      rw [nullMember, nullMemberFields_eq, List.any_eq_false]
      intro p hp
      have hsame := hlookup p.1
      rw [lookup_of_mem hkeys hp, lookup_merged hkeys hp] at hsame
      by_cases hnull : p.2 = .null
      · rw [if_pos hnull] at hsame
        cases hsame
      · rw [if_neg hnull] at hsame
        have hp' := ih fields rfl p hp (hunique p hp) (Option.some.inj hsame)
        simp [hnull, hp']
    | _ => rfl

theorem mergedValue_eq (v : Json) (hv : v.uniqueKeys = true) (t : Option Json) (h : meets t v = true) :
    mergedValue t v = mergePatch t v := by
  induction v using memberInduction generalizing t with
  | h v ih =>
    cases v with
    | obj patch =>
      obtain ⟨hkeys, hunique⟩ := unique_obj hv
      rcases target_cases t patch with ⟨nested, rfl⟩ | ⟨hnone, hvalue, hmeets⟩
      · rw [meets, meetsFields_eq, List.all_eq_true] at h
        rw [mergedValue, mergePatch, deepMerge_eq, mergeMembers_eq, members]
        exact congrArg Json.obj (merged_congr hkeys fun p hp => ih patch rfl p hp (hunique p hp) _ (h p hp))
      · rw [hmeets, Bool.not_eq_true'] at h
        rw [hvalue, mergePatch, hnone]
        exact (mergePatch_none _ hv h).symm
    | _ => rfl

theorem meets_of_eq (v : Json) (hv : v.uniqueKeys = true) (t : Option Json) (ht : ∀ w ∈ t, w.uniqueKeys = true)
    (h : sortKeys (mergedValue t v) = sortKeys (mergePatch t v)) : meets t v = true := by
  induction v using memberInduction generalizing t with
  | h v ih =>
    cases v with
    | obj patch =>
      obtain ⟨hkeys, hunique⟩ := unique_obj hv
      rcases target_cases t patch with ⟨nested, rfl⟩ | ⟨hnone, hvalue, hmeets⟩
      · have hnested := ht _ rfl
        have hnodup := (unique_obj hnested).1
        rw [mergedValue, mergePatch, deepMerge_eq, mergeMembers_eq, members] at h
        have hlookup := lookup_of_sortKeys_eq (nodup_merged hnodup) (nodup_merged hnodup) h
        rw [meets, meetsFields_eq, List.all_eq_true]
        intro p hp
        have hsame := hlookup p.1
        rw [lookup_merged hkeys hp, lookup_merged hkeys hp] at hsame
        by_cases hnull : p.2 = .null
        · rw [hnull]
          rfl
        · rw [if_neg hnull, if_neg hnull] at hsame
          exact ih patch rfl p hp (hunique p hp) _ (fun w hw => Json.uniqueKeys_of_lookup hnested hw)
            (Option.some.inj hsame)
      · rw [hvalue, mergePatch, hnone] at h
        rw [hmeets, nullMember_of_none _ hv h, Bool.not_false]
    | _ => rfl

end Values

/-- **Profile patching** is RFC 7386 merge patch (up to the order of keys) if and only if every object of the
patch that has a null member meets an object. -/
theorem merge_patch_iff (base patch : JsonDict) :
    sortKeys (.obj (deepMerge base.fields patch.fields)) =
        sortKeys (mergePatch (some (.obj base.fields)) (.obj patch.fields)) ↔
      meetsFields base.fields patch.fields = true := by
  have hmerged : Json.obj (deepMerge base.fields patch.fields) =
      mergedValue (some (.obj base.fields)) (.obj patch.fields) := by rw [mergedValue]
  have hmeets : meetsFields base.fields patch.fields = meets (some (.obj base.fields)) (.obj patch.fields) := by
    rw [meets]
  rw [hmerged, hmeets]
  constructor
  · intro h
    refine meets_of_eq _ patch.unique _ (fun w hw => ?_) h
    exact Option.some.inj hw ▸ base.unique
  · intro h
    rw [mergedValue_eq _ patch.unique _ h]

/-- A null in an object that is new is stored. -/
example : deepMerge [] [("runtime", .obj [("model", .null)])] = [("runtime", .obj [("model", .null)])] := rfl

end UniversalAgent.Profile
