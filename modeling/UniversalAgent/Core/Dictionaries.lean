import UniversalAgent.Core.Json

/-!
# Core — Dictionaries

A dictionary built item by item, as item lists do it: a later item takes the value of an earlier
one with its key, and the place of none.
-/

namespace UniversalAgent.Core

section Dict

variable {α : Type} {d items : List (String × α)} {key : String} {value : α} {x : String × α}

theorem dictSet_fresh (h : key ∉ d.map Prod.fst) : dictSet d key value = d ++ [(key, value)] := by
  have hany : (d.any fun p => p.1 = key) = false := by
    rw [List.any_eq_false]
    intro p hp
    have : p.1 ≠ key := fun he => h (he ▸ List.mem_map_of_mem hp)
    simpa using this
  rw [dictSet, hany]
  rfl

theorem dictSet_present (h : key ∈ d.map Prod.fst) :
    dictSet d key value = d.map fun p => if p.1 = key then (key, value) else p := by
  obtain ⟨p, hp, rfl⟩ := List.mem_map.mp h
  exact if_pos (List.any_eq_true.mpr ⟨p, hp, by simp⟩)

theorem mem_dictSet : x ∈ dictSet d key value ↔ x = (key, value) ∨ x ∈ d ∧ x.1 ≠ key := by
  by_cases h : key ∈ d.map Prod.fst
  · rw [dictSet_present h, List.mem_map]
    obtain ⟨p, hp, hkey⟩ := List.mem_map.mp h
    constructor
    · rintro ⟨q, hq, rfl⟩
      split
      · exact .inl rfl
      · rename_i hne
        exact .inr ⟨hq, hne⟩
    · rintro (rfl | ⟨hx, hne⟩)
      · exact ⟨p, hp, if_pos hkey⟩
      · exact ⟨x, hx, if_neg hne⟩
  · rw [dictSet_fresh h, List.mem_append, List.mem_singleton]
    constructor
    · rintro (hx | rfl)
      · exact .inr ⟨hx, fun he => h (he ▸ List.mem_map_of_mem hx)⟩
      · exact .inl rfl
    · rintro (rfl | ⟨hx, -⟩)
      · exact .inr rfl
      · exact .inl hx

theorem lookup_of_mem_keys (h : key ∈ d.map Prod.fst) :
    (d.map fun p => if p.1 = key then (key, value) else p).lookup key = some value := by
  induction d with
  | nil => simp at h
  | cons p d ih =>
    by_cases hp : p.1 = key
    · simp [hp]
    · have hd : key ∈ d.map Prod.fst :=
        (List.mem_cons.mp h).resolve_left fun he => hp he.symm
      have hne : (key == p.1) = false := beq_false_of_ne fun he => hp he.symm
      rw [List.map_cons, if_neg hp, List.lookup, hne]
      exact ih hd

theorem lookup_dictSet : (dictSet d key value).lookup key = some value := by
  by_cases h : key ∈ d.map Prod.fst
  · rw [dictSet_present h]
    exact lookup_of_mem_keys h
  · have hnone : d.lookup key = none := by
      rw [List.lookup_eq_none_iff]
      intro p hp
      exact bne_iff_ne.mpr fun he => h (he ▸ List.mem_map_of_mem hp)
    rw [dictSet_fresh h, List.lookup_append, hnone]
    simp

theorem lookup_dictSet_ne {key' : String} (h : key' ≠ key) :
    (dictSet d key value).lookup key' = d.lookup key' := by
  have hne : (key' == key) = false := beq_false_of_ne h
  by_cases hkey : key ∈ d.map Prod.fst
  · rw [dictSet_present hkey]
    clear hkey
    induction d with
    | nil => rfl
    | cons p d ih =>
      rw [List.map_cons, List.lookup_cons, List.lookup_cons, ih]
      by_cases hp : p.1 = key
      · rw [if_pos hp, hp, hne]
      · rw [if_neg hp]
  · rw [dictSet_fresh hkey, List.lookup_append, List.lookup_cons, hne]
    cases d.lookup key' <;> rfl

theorem keys_dictSet (h : key ∈ d.map Prod.fst) :
    (dictSet d key value).map Prod.fst = d.map Prod.fst := by
  rw [dictSet_present h, List.map_map]
  refine List.map_congr_left fun p _ => ?_
  rw [Function.comp_apply]
  split
  · rename_i he
    exact he.symm
  · rfl

theorem nodup_dictSet (h : (d.map Prod.fst).Nodup) :
    ((dictSet d key value).map Prod.fst).Nodup := by
  by_cases hk : key ∈ d.map Prod.fst
  · rw [keys_dictSet hk]
    exact h
  · rw [dictSet_fresh hk, List.map_append, List.nodup_append]
    refine ⟨h, List.nodup_singleton _, fun a ha b hb he => ?_⟩
    rw [List.map_singleton, List.mem_singleton] at hb
    rw [he, hb] at ha
    exact hk ha

/-! ### Keys without repetition -/

theorem mem_keys_of_lookup (h : d.lookup key = some value) : key ∈ d.map Prod.fst := by
  by_contra hmem
  have hnone : d.lookup key = none := by
    rw [List.lookup_eq_none_iff]
    intro p hp
    exact bne_iff_ne.mpr fun he => hmem (he ▸ List.mem_map_of_mem hp)
  rw [hnone] at h
  cases h

theorem lookup_of_mem (h : (d.map Prod.fst).Nodup) (hx : x ∈ d) : d.lookup x.1 = some x.2 := by
  induction d with
  | nil => cases hx
  | cons p d ih =>
    obtain ⟨hfresh, hrest⟩ := List.nodup_cons.mp h
    rcases List.mem_cons.mp hx with rfl | hmem
    · rw [List.lookup_cons, beq_self_eq_true]
    · have hne : (x.1 == p.1) = false :=
        beq_false_of_ne fun he => hfresh (he ▸ List.mem_map_of_mem hmem)
      rw [List.lookup_cons, hne]
      exact ih hrest hmem

theorem nodup_filter_keys {p : String × α → Bool} (h : (d.map Prod.fst).Nodup) :
    ((d.filter p).map Prod.fst).Nodup :=
  h.sublist (List.Sublist.map Prod.fst List.filter_sublist)

theorem length_filter_key (h : (d.map Prod.fst).Nodup) (hx : x ∈ d) :
    (d.filter fun p => p.1 ≠ x.1).length + 1 = d.length := by
  induction d with
  | nil => cases hx
  | cons p d ih =>
    obtain ⟨hfresh, hrest⟩ := List.nodup_cons.mp h
    rcases List.mem_cons.mp hx with rfl | hmem
    · have hall : d.filter (fun p => p.1 ≠ x.1) = d := by
        rw [List.filter_eq_self]
        intro p hp
        have hne : p.1 ≠ x.1 := fun he => hfresh (he ▸ List.mem_map_of_mem hp)
        simpa using hne
      rw [List.filter_cons_of_neg (by simp), hall, List.length_cons]
    · have hne : p.1 ≠ x.1 := fun he => hfresh (he ▸ List.mem_map_of_mem hmem)
      rw [List.filter_cons_of_pos (by simpa using hne), List.length_cons, List.length_cons,
        ih hrest hmem]

theorem lookup_filter_ne {other : String} (h : key ≠ other) :
    (d.filter fun p => p.1 ≠ other).lookup key = d.lookup key := by
  induction d with
  | nil => rfl
  | cons p d ih =>
    by_cases hp : p.1 = other
    · have hne : (key == p.1) = false := beq_false_of_ne (hp ▸ h)
      rw [List.filter_cons_of_neg (by simpa using hp), List.lookup_cons, hne, ih]
    · rw [List.filter_cons_of_pos (by simpa using hp), List.lookup_cons, List.lookup_cons, ih]

def survivors : List (String × α) → List (String × α)
  | [] => []
  | x :: rest => if x.1 ∈ rest.map Prod.fst then survivors rest else x :: survivors rest

theorem mem_survivors_cons {y : String × α} {rest : List (String × α)} :
    x ∈ survivors (y :: rest) ↔
      x = y ∧ x.1 ∉ rest.map Prod.fst ∨ x ∈ survivors rest := by
  rw [survivors]
  split
  · rename_i hy
    constructor
    · exact .inr
    · rintro (⟨rfl, hx⟩ | hx)
      · exact absurd hy hx
      · exact hx
  · rename_i hy
    rw [List.mem_cons]
    constructor
    · rintro (rfl | hx)
      · exact .inl ⟨rfl, hy⟩
      · exact .inr hx
    · rintro (⟨rfl, -⟩ | hx)
      · exact .inl rfl
      · exact .inr hx

theorem survivors_subset (items : List (String × α)) : ∀ x ∈ survivors items, x ∈ items := by
  induction items with
  | nil => exact fun _ h => h
  | cons y rest ih =>
    intro x hx
    rcases mem_survivors_cons.mp hx with ⟨rfl, -⟩ | hx
    · exact List.mem_cons_self
    · exact List.mem_cons_of_mem _ (ih x hx)

/-- Values change nothing about which items survive. -/
theorem survivors_map {β : Type} (f : String × α → β) (items : List (String × α)) :
    survivors (items.map fun p => (p.1, f p)) = (survivors items).map fun p => (p.1, f p) := by
  induction items with
  | nil => rfl
  | cons y rest ih =>
    have hkeys : (rest.map fun p => (p.1, f p)).map Prod.fst = rest.map Prod.fst := by
      rw [List.map_map]
      rfl
    rw [List.map_cons, survivors, survivors, hkeys, ih]
    split <;> rfl

theorem mem_dictUpdate :
    x ∈ dictUpdate d items ↔ x ∈ survivors items ∨ x ∈ d ∧ x.1 ∉ items.map Prod.fst := by
  induction items generalizing d with
  | nil => simp [dictUpdate, survivors]
  | cons y rest ih =>
    have hstep : dictUpdate d (y :: rest) = dictUpdate (dictSet d y.1 y.2) rest := rfl
    rw [hstep, ih, mem_dictSet, mem_survivors_cons, List.map_cons, List.mem_cons, not_or]
    constructor
    · rintro (hx | ⟨rfl | ⟨hx, hne⟩, hrest⟩)
      · exact .inl (.inr hx)
      · exact .inl (.inl ⟨rfl, hrest⟩)
      · exact .inr ⟨hx, hne, hrest⟩
    · rintro ((⟨rfl, hrest⟩ | hx) | ⟨hx, hne, hrest⟩)
      · exact .inr ⟨.inl rfl, hrest⟩
      · exact .inl hx
      · exact .inr ⟨.inr ⟨hx, hne⟩, hrest⟩

/-- The items of a dictionary built from nothing are those that no later one replaces. -/
theorem mem_dictUpdate_nil : x ∈ dictUpdate [] items ↔ x ∈ survivors items := by
  simp [mem_dictUpdate]

theorem nodup_dictUpdate (h : (d.map Prod.fst).Nodup) :
    ((dictUpdate d items).map Prod.fst).Nodup := by
  induction items generalizing d with
  | nil => exact h
  | cons y rest ih => exact ih (nodup_dictSet h)

theorem dictUpdate_fresh (h : ((d ++ items).map Prod.fst).Nodup) :
    dictUpdate d items = d ++ items := by
  induction items generalizing d with
  | nil => exact (List.append_nil d).symm
  | cons y rest ih =>
    have hstep : dictUpdate d (y :: rest) = dictUpdate (dictSet d y.1 y.2) rest := rfl
    have hfresh : y.1 ∉ d.map Prod.fst := by
      rw [List.map_append, List.map_cons, List.nodup_append] at h
      exact fun hy => h.2.2 _ hy _ List.mem_cons_self rfl
    have happ : d ++ y :: rest = d ++ [y] ++ rest := by
      rw [List.append_assoc, List.singleton_append]
    rw [hstep, dictSet_fresh hfresh, happ]
    exact ih (happ ▸ h)

/-- Items with different keys are the items of their dictionary. -/
theorem dictUpdate_nil_of_nodup (h : (items.map Prod.fst).Nodup) : dictUpdate [] items = items :=
  dictUpdate_fresh (by simpa using h)

end Dict

end UniversalAgent.Core
