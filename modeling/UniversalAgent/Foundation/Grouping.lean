import Mathlib

/-!
# Foundation — Grouping

Items grouped by a key, as `groups.setdefault(key, []).append(item)` groups them: a list for each key,
in the order in which the keys first come.
-/

namespace UniversalAgent.Foundation

variable {α κ : Type} [DecidableEq κ]

/-- `groups.setdefault(key, []).append(item)`. -/
def appendTo (groups : List (κ × List α)) (key : κ) (item : α) : List (κ × List α) :=
  if key ∈ groups.map Prod.fst then
    groups.map fun group => if group.1 = key then (key, group.2 ++ [item]) else group
  else groups ++ [(key, [item])]

def groupBy (key : α → κ) (items : List α) : List (κ × List α) :=
  items.foldl (fun groups item => appendTo groups (key item) item) []

variable {key : α → κ}

theorem groupBy_snoc (items : List α) (item : α) :
    groupBy key (items ++ [item]) = appendTo (groupBy key items) (key item) item := by
  rw [groupBy, List.foldl_append]
  rfl

theorem filter_snoc (items : List α) (item : α) (k : κ) :
    (items ++ [item]).filter (fun x => key x = k) =
      items.filter (fun x => key x = k) ++ if key item = k then [item] else [] := by
  rw [List.filter_append]
  by_cases h : key item = k <;> simp [h]

/-- There is a group for each key that an item has, of all the items that have it. -/
theorem mem_groupBy {items : List α} {k : κ} {group : List α} :
    (k, group) ∈ groupBy key items ↔
      k ∈ items.map key ∧ group = items.filter fun x => key x = k := by
  induction items using List.reverseRecOn generalizing k group with
  | nil => simp [groupBy]
  | append_singleton items item ih =>
    have hkeys : ∀ k, k ∈ (groupBy key items).map Prod.fst ↔ k ∈ items.map key := by
      intro k
      constructor
      · intro h
        obtain ⟨⟨k', g⟩, hg, rfl⟩ := List.mem_map.mp h
        exact (ih.mp hg).1
      · intro h
        exact List.mem_map.mpr ⟨(k, _), ih.mpr ⟨h, rfl⟩, rfl⟩
    rw [groupBy_snoc, appendTo, filter_snoc, List.map_append, List.map_singleton, List.mem_append,
      List.mem_singleton]
    by_cases hold : key item ∈ (groupBy key items).map Prod.fst
    · rw [if_pos hold, List.mem_map]
      rw [hkeys] at hold
      constructor
      · rintro ⟨⟨k', g⟩, hg, heq⟩
        obtain ⟨hk', rfl⟩ := ih.mp hg
        by_cases hk : k' = key item
        · rw [if_pos hk, Prod.mk.injEq] at heq
          obtain ⟨rfl, rfl⟩ := heq
          exact ⟨.inr rfl, by rw [if_pos rfl, hk]⟩
        · rw [if_neg hk, Prod.mk.injEq] at heq
          obtain ⟨rfl, rfl⟩ := heq
          exact ⟨.inl hk', by rw [if_neg (Ne.symm hk), List.append_nil]⟩
      · rintro ⟨hk, rfl⟩
        have hk : k ∈ items.map key := hk.elim id fun he => he ▸ hold
        refine ⟨(k, items.filter fun x => key x = k), ih.mpr ⟨hk, rfl⟩, ?_⟩
        by_cases he : k = key item
        · rw [if_pos he, if_pos he.symm, he]
        · rw [if_neg he, if_neg (Ne.symm he), List.append_nil]
    · rw [if_neg hold, List.mem_append, List.mem_singleton, ih]
      rw [hkeys] at hold
      have hnone : items.filter (fun x => key x = key item) = [] := by
        refine List.filter_eq_nil_iff.mpr fun x hx => ?_
        have hne : key x ≠ key item := fun he => hold (he ▸ List.mem_map_of_mem hx)
        simpa using hne
      constructor
      · rintro (⟨hk, rfl⟩ | heq)
        · have hne : key item ≠ k := fun he => hold (he ▸ hk)
          exact ⟨.inl hk, by rw [if_neg hne, List.append_nil]⟩
        · obtain ⟨rfl, rfl⟩ := Prod.mk.inj heq
          exact ⟨.inr rfl, by rw [if_pos rfl, hnone, List.nil_append]⟩
      · rintro ⟨hk | rfl, rfl⟩
        · have hne : key item ≠ k := fun he => hold (he ▸ hk)
          exact .inl ⟨hk, by rw [if_neg hne, List.append_nil]⟩
        · exact .inr (by rw [if_pos rfl, hnone, List.nil_append])

theorem groupBy_nodup (key : α → κ) (items : List α) : ((groupBy key items).map Prod.fst).Nodup := by
  induction items using List.reverseRecOn with
  | nil => exact List.nodup_nil
  | append_singleton items item ih =>
    rw [groupBy_snoc, appendTo]
    split
    · rw [List.map_map]
      refine (List.map_congr_left fun group _ => ?_) ▸ ih
      by_cases hkey : group.1 = key item <;> simp [hkey]
    · next hfresh =>
      rw [List.map_append, List.map_singleton]
      exact List.nodup_append.mpr ⟨ih, List.nodup_singleton _, by grind⟩

theorem groupBy_one {items : List α} {k : κ} (h : ∀ a ∈ items, key a = k) (hne : items ≠ []) :
    groupBy key items = [(k, items)] := by
  induction items using List.reverseRecOn with
  | nil => exact absurd rfl hne
  | append_singleton items item ih =>
    have hitem := h item (List.mem_append_right _ (List.mem_singleton_self item))
    rw [groupBy_snoc, hitem]
    cases items with
    | nil => rfl
    | cons first items =>
      rw [ih (fun a ha => h a (List.mem_append_left _ ha)) (List.cons_ne_nil _ _)]
      simp [appendTo]

theorem groupBy_forall (key : α → κ) (items : List α) {P : List α → Prop} (hnil : P []) :
    (∀ group ∈ groupBy key items, P group.2) ↔ ∀ k, P (items.filter fun x => key x = k) := by
  constructor
  · intro h k
    by_cases hk : k ∈ items.map key
    · exact h (k, _) (mem_groupBy.mpr ⟨hk, rfl⟩)
    · have hnone : items.filter (fun x => key x = k) = [] := by
        refine List.filter_eq_nil_iff.mpr fun x hx => ?_
        have hne : key x ≠ k := fun he => hk (he ▸ List.mem_map_of_mem hx)
        simpa using hne
      rw [hnone]
      exact hnil
  · rintro h ⟨k, group⟩ hg
    rw [(mem_groupBy.mp hg).2]
    exact h k

/-- Items of one key are related exactly when each group is. -/
theorem pairwise_filter_iff {items : List α} {R : α → α → Prop} :
    (∀ k, (items.filter fun x => key x = k).Pairwise R) ↔
      items.Pairwise fun a b => key a = key b → R a b := by
  induction items with
  | nil => simp
  | cons x items ih =>
    rw [List.pairwise_cons, ← ih]
    constructor
    · intro h
      constructor
      · intro y hy he
        have hx := h (key x)
        rw [List.filter_cons_of_pos (by simp), List.pairwise_cons] at hx
        exact hx.1 y (List.mem_filter.mpr ⟨hy, by simpa using he.symm⟩)
      · exact fun k => (h k).sublist ((List.sublist_cons_self x items).filter _)
    · rintro ⟨hx, hrest⟩ k
      by_cases hk : key x = k
      · rw [List.filter_cons_of_pos (by simpa using hk), List.pairwise_cons]
        refine ⟨fun y hy => ?_, hrest k⟩
        obtain ⟨hy, hyk⟩ := List.mem_filter.mp hy
        exact hx y hy (hk.trans (of_decide_eq_true hyk).symm)
      · rw [List.filter_cons_of_neg (by simpa using hk)]
        exact hrest k

end UniversalAgent.Foundation
