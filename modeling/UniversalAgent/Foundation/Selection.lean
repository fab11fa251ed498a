import Mathlib

/-!
# Foundation — Selection

Selecting from a ranked list. Of the items with one face the first stands for all; and items are taken
while their number and their sizes are within two limits.
-/

namespace UniversalAgent.Foundation

variable {α ν : Type}

/-! ## The first of each face -/

section Firsts

variable [DecidableEq ν] {face : α → ν}

/-- The items whose face no earlier item has, nor one that was seen before. -/
def firsts (face : α → ν) : List ν → List α → List α
  | _, [] => []
  | seen, a :: items =>
    if face a ∈ seen then firsts face seen items else a :: firsts face (face a :: seen) items

theorem firsts_cons (seen : List ν) (a : α) (items : List α) : firsts face seen (a :: items) =
    if face a ∈ seen then firsts face seen items else a :: firsts face (face a :: seen) items := rfl

theorem firsts_congr {seen seen' : List ν} (h : ∀ v, v ∈ seen ↔ v ∈ seen') (items : List α) :
    firsts face seen items = firsts face seen' items := by
  induction items generalizing seen seen' with
  | nil => rfl
  | cons a items ih =>
    have hcons : ∀ v, v ∈ face a :: seen ↔ v ∈ face a :: seen' := by
      intro v
      rw [List.mem_cons, List.mem_cons, h]
    rw [firsts_cons, firsts_cons, ih h, ih hcons]
    by_cases ha : face a ∈ seen
    · rw [if_pos ha, if_pos ((h _).mp ha)]
    · rw [if_neg ha, if_neg fun ha' => ha ((h _).mpr ha')]

theorem firsts_append (seen : List ν) (xs ys : List α) :
    firsts face seen (xs ++ ys) = firsts face seen xs ++ firsts face (xs.map face ++ seen) ys := by
  induction xs generalizing seen with
  | nil => rfl
  | cons a xs ih =>
    rw [List.cons_append, firsts_cons, firsts_cons]
    by_cases ha : face a ∈ seen
    · rw [if_pos ha, if_pos ha, ih]
      congr 1
      refine firsts_congr (fun v => ?_) ys
      rw [List.map_cons, List.cons_append, List.mem_cons, List.mem_append]
      constructor
      · exact .inr
      · rintro (rfl | hv)
        · exact .inr ha
        · exact hv
    · rw [if_neg ha, if_neg ha, ih, List.cons_append]
      congr 2
      refine firsts_congr (fun v => ?_) ys
      simp only [List.map_cons, List.cons_append, List.mem_cons, List.mem_append]
      tauto

theorem firsts_sublist (seen : List ν) (items : List α) : (firsts face seen items).Sublist items := by
  induction items generalizing seen with
  | nil => exact List.Sublist.refl _
  | cons a items ih =>
    rw [firsts_cons]
    split
    · exact (ih seen).cons a
    · exact (ih _).cons_cons a

theorem firsts_not_seen {seen : List ν} {items : List α} :
    ∀ a ∈ firsts face seen items, face a ∉ seen := by
  induction items generalizing seen with
  | nil => exact nofun
  | cons b items ih =>
    intro a ha
    rw [firsts_cons] at ha
    split at ha
    · exact ih a ha
    · next hb =>
        rcases List.mem_cons.mp ha with rfl | ha
        · exact hb
        · exact fun hseen => ih a ha (List.mem_cons_of_mem _ hseen)

theorem nodup_firsts (seen : List ν) (items : List α) : ((firsts face seen items).map face).Nodup := by
  induction items generalizing seen with
  | nil => exact List.nodup_nil
  | cons a items ih =>
    rw [firsts_cons]
    split
    · exact ih seen
    · rw [List.map_cons, List.nodup_cons]
      refine ⟨fun ha => ?_, ih _⟩
      obtain ⟨b, hb, hface⟩ := List.mem_map.mp ha
      exact firsts_not_seen b hb (hface ▸ List.mem_cons_self)

/-- Each item has a first of its face, itself or one before it. -/
theorem exists_first {r : α → α → Prop} {seen : List ν} {items : List α} (hs : items.Pairwise r) {a : α}
    (ha : a ∈ items) (hnew : face a ∉ seen) :
    ∃ b ∈ firsts face seen items, face b = face a ∧ (b = a ∨ r b a) := by
  induction items generalizing seen with
  | nil => cases ha
  | cons c items ih =>
    obtain ⟨hc, hs⟩ := List.pairwise_cons.mp hs
    rw [firsts_cons]
    rcases List.mem_cons.mp ha with rfl | hmem
    · rw [if_neg hnew]
      exact ⟨a, List.mem_cons_self, rfl, .inl rfl⟩
    · by_cases hseen : face c ∈ seen
      · rw [if_pos hseen]
        exact ih hs hmem hnew
      · rw [if_neg hseen]
        by_cases hface : face c = face a
        · exact ⟨c, List.mem_cons_self, hface, .inr (hc a hmem)⟩
        · have hnew' : face a ∉ face c :: seen := by
            rw [List.mem_cons, not_or]
            exact ⟨fun h => hface h.symm, hnew⟩
          obtain ⟨b, hb, hrest⟩ := ih hs hmem hnew'
          exact ⟨b, List.mem_cons_of_mem c hb, hrest⟩

theorem firsts_eq_nil {seen : List ν} {items : List α} :
    firsts face seen items = [] ↔ ∀ a ∈ items, face a ∈ seen := by
  constructor
  · intro h a ha
    by_contra hnew
    obtain ⟨b, hb, -⟩ := exists_first (r := fun _ _ => True) (List.pairwise_of_forall fun _ _ => trivial)
      ha hnew
    rw [h] at hb
    cases hb
  · intro h
    rw [List.eq_nil_iff_forall_not_mem]
    intro a ha
    exact firsts_not_seen a ha (h a ((firsts_sublist seen items).subset ha))

/-- Nothing is dropped exactly when no face comes twice. -/
theorem firsts_eq_self {items : List α} : firsts face [] items = items ↔ (items.map face).Nodup := by
  constructor
  · intro h
    rw [← h]
    exact nodup_firsts [] items
  · suffices hgen : ∀ seen, (∀ a ∈ items, face a ∉ seen) → (items.map face).Nodup →
        firsts face seen items = items from hgen [] fun _ _ => List.not_mem_nil
    induction items with
    | nil => exact fun _ _ _ => rfl
    | cons a items ih =>
      intro seen hseen hn
      obtain ⟨hfresh, hn⟩ := List.nodup_cons.mp hn
      rw [firsts_cons, if_neg (hseen a List.mem_cons_self), ih (face a :: seen) ?_ hn]
      intro b hb
      rw [List.mem_cons, not_or]
      exact ⟨fun h => hfresh (h ▸ List.mem_map_of_mem hb), hseen b (List.mem_cons_of_mem a hb)⟩

end Firsts

/-! ## Items within limits -/

section Within

variable (size : α → Nat)

/-- The items that are taken: one more as long as neither limit is used up. -/
def within : Int → Int → List α → List α
  | _, _, [] => []
  | number, total, a :: items =>
    if number ≤ 0 ∨ total ≤ 0 then [] else a :: within (number - 1) (total - size a) items

variable {size} {number total : Int}

theorem within_initial (number total : Int) (items : List α) : within size number total items <+: items := by
  induction items generalizing number total with
  | nil => exact List.prefix_rfl
  | cons a items ih =>
    rw [within]
    split
    · exact List.nil_prefix
    · exact List.cons_prefix_cons.mpr ⟨rfl, ih _ _⟩

/-- **What is within the limits** is what has fewer items before it than the one and less in size than
the other. -/
theorem mem_within {pre post : List α} {a : α} (hn : (pre ++ a :: post).Nodup) :
    a ∈ within size number total (pre ++ a :: post) ↔
      (pre.length : Int) < number ∧ ((pre.map size).sum : Int) < total := by
  induction pre generalizing number total with
  | nil =>
    rw [List.nil_append, within]
    split
    · next h =>
        refine iff_of_false List.not_mem_nil ?_
        rintro ⟨h1, h2⟩
        simp only [List.length_nil, List.map_nil, List.sum_nil, Nat.cast_zero] at h1 h2
        omega
    · next h =>
        refine iff_of_true List.mem_cons_self ?_
        simp only [List.length_nil, List.map_nil, List.sum_nil, Nat.cast_zero]
        omega
  | cons b pre ih =>
    obtain ⟨hb, hn⟩ := List.nodup_cons.mp hn
    have hne : a ≠ b := by
      rintro rfl
      exact hb (by simp)
    rw [List.cons_append, within]
    simp only [List.length_cons, List.map_cons, List.sum_cons, Nat.cast_add, Nat.cast_one]
    split
    · next h =>
        refine iff_of_false List.not_mem_nil ?_
        rintro ⟨h1, h2⟩
        omega
    · next h =>
        rw [List.mem_cons, or_iff_right hne, ih hn]
        omega

end Within

end UniversalAgent.Foundation
