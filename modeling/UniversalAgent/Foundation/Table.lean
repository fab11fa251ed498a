import Mathlib

/-!
# Foundation — Table

A `Table key` is a finite map whose rows carry their own key, kept in insertion order. It
is what a Python `dict` is when every value is stored under a key computed from the value:
writing a row under a present key replaces it in place, writing it under a fresh key
appends it, and iterating gives the rows in that order. At most one row per key is a field
of the structure, so no later proof re-establishes it.

The operations that change a table come each with the one membership law the invariant
proofs use: `mem_put`, `mem_filter` and `mem_erase`.
-/

namespace UniversalAgent.Foundation

universe u v

structure Table {α : Type u} {κ : Type v} (key : α → κ) where
  rows : List α
  nodup : (rows.map key).Nodup

namespace Table

variable {α : Type u} {κ : Type v} {key : α → κ}

instance [DecidableEq α] : DecidableEq (Table key) := fun s t =>
  decidable_of_iff (s.rows = t.rows) ⟨fun h => by cases s; cases t; cases h; rfl, fun h => by rw [h]⟩

instance : Membership α (Table key) := ⟨fun t a => a ∈ t.rows⟩

theorem mem_def {t : Table key} {a : α} : a ∈ t ↔ a ∈ t.rows := Iff.rfl

@[ext] theorem ext {s t : Table key} (h : s.rows = t.rows) : s = t := by
  cases s; cases t; cases h; rfl

def empty : Table key := ⟨[], List.nodup_nil⟩

@[simp] theorem rows_empty : (empty : Table key).rows = [] := rfl

@[simp] theorem not_mem_empty (a : α) : a ∉ (empty : Table key) := List.not_mem_nil

theorem eq_of_key {t : Table key} {a b : α} (ha : a ∈ t) (hb : b ∈ t) (h : key a = key b) :
    a = b :=
  List.inj_on_of_nodup_map t.nodup ha hb h

/-- Two tables with the same rows are permutations of each other: a table holds a row at
most once. -/
theorem perm_of_mem_iff {s t : Table key} (h : ∀ a, a ∈ s ↔ a ∈ t) : s.rows.Perm t.rows :=
  (List.perm_ext_iff_of_nodup s.nodup.of_map t.nodup.of_map).mpr h

def filter (t : Table key) (p : α → Bool) : Table key :=
  ⟨t.rows.filter p, t.nodup.sublist (List.filter_sublist.map key)⟩

theorem mem_filter {t : Table key} {p : α → Bool} {a : α} :
    a ∈ t.filter p ↔ a ∈ t ∧ p a = true := List.mem_filter

variable [DecidableEq κ]

def get? (t : Table key) (k : κ) : Option α := t.rows.find? (fun a => decide (key a = k))

@[simp] theorem get?_empty (k : κ) : (empty : Table key).get? k = none := rfl

theorem get?_eq_some {t : Table key} {k : κ} {a : α} : t.get? k = some a ↔ a ∈ t ∧ key a = k := by
  constructor
  · intro h
    exact ⟨List.mem_of_find?_eq_some h, by simpa using List.find?_some h⟩
  · rintro ⟨ha, rfl⟩
    cases hf : t.get? (key a) with
    | none =>
      have := List.find?_eq_none.mp hf a ha
      simp at this
    | some b =>
      have hb : b ∈ t := List.mem_of_find?_eq_some hf
      have hk : key b = key a := by simpa using List.find?_some hf
      rw [eq_of_key hb ha hk]

theorem get?_eq_none {t : Table key} {k : κ} : t.get? k = none ↔ ∀ a ∈ t, key a ≠ k := by
  simp [get?, mem_def]

theorem get?_of_mem {t : Table key} {a : α} (h : a ∈ t) : t.get? (key a) = some a :=
  get?_eq_some.mpr ⟨h, rfl⟩

def replaceRow (key : α → κ) (a : α) (rows : List α) : List α :=
  rows.map (fun b => if key b = key a then a else b)

theorem map_key_replaceRow (key : α → κ) (a : α) (rows : List α) :
    (replaceRow key a rows).map key = rows.map key := by
  simp only [replaceRow, List.map_map]
  refine List.map_congr_left fun b _ => ?_
  by_cases h : key b = key a <;> simp [h]

/-- `table[key a] = a`: in place when the key is present, appended otherwise. -/
def put (t : Table key) (a : α) : Table key :=
  if h : key a ∈ t.rows.map key then
    ⟨replaceRow key a t.rows, by rw [map_key_replaceRow]; exact t.nodup⟩
  else
    ⟨t.rows ++ [a], by
      rw [List.map_append]
      exact t.nodup.append (List.nodup_singleton _) (by
        intro k hk hk'
        rw [List.map_singleton, List.mem_singleton] at hk'
        exact h (hk' ▸ hk))⟩

theorem rows_put_of_fresh {t : Table key} {a : α} (h : t.get? (key a) = none) :
    (t.put a).rows = t.rows ++ [a] := by
  rw [put, dif_neg]
  intro hmem
  obtain ⟨b, hb, hkey⟩ := List.mem_map.mp hmem
  exact get?_eq_none.mp h b hb hkey

/-- The rows that meet a test are as before, if no row under the key meets it. -/
theorem filter_rows_put {t : Table key} {a : α} {p : α → Bool} (h : ∀ b, key b = key a → p b = false) :
    (t.put a).rows.filter p = t.rows.filter p := by
  have hrows : ∀ rows : List α, (replaceRow key a rows).filter p = rows.filter p := by
    intro rows
    induction rows with
    | nil => rfl
    | cons b rows ih =>
      rw [replaceRow, List.map_cons, List.filter_cons, List.filter_cons]
      by_cases hb : key b = key a
      · rw [if_pos hb, h a rfl, h b hb]
        exact ih
      · rw [if_neg hb]
        split
        · exact congrArg (b :: ·) ih
        · exact ih
  unfold put
  split
  · exact hrows t.rows
  · rw [List.filter_append, List.filter_singleton, h a rfl]
    exact List.append_nil _

theorem mem_put {t : Table key} {a b : α} :
    b ∈ t.put a ↔ b = a ∨ (b ∈ t ∧ key b ≠ key a) := by
  by_cases h : key a ∈ t.rows.map key
  · obtain ⟨c, hc, hk⟩ := List.mem_map.mp h
    simp only [put, h, dif_pos, mem_def, replaceRow, List.mem_map]
    constructor
    · rintro ⟨d, hd, rfl⟩
      by_cases hdk : key d = key a
      · exact .inl (by rw [if_pos hdk])
      · exact .inr (by rw [if_neg hdk]; exact ⟨hd, hdk⟩)
    · rintro (rfl | ⟨hb, hbk⟩)
      · exact ⟨c, hc, by rw [if_pos hk]⟩
      · exact ⟨b, hb, by rw [if_neg hbk]⟩
  · simp only [put, h, dif_neg, not_false_eq_true, mem_def, List.mem_append, List.mem_singleton]
    constructor
    · rintro (hb | rfl)
      · exact .inr ⟨hb, fun hk => h (hk ▸ List.mem_map_of_mem hb)⟩
      · exact .inl rfl
    · rintro (rfl | ⟨hb, -⟩)
      · exact .inr rfl
      · exact .inl hb

theorem mem_put_self (t : Table key) (a : α) : a ∈ t.put a := mem_put.mpr (.inl rfl)

@[simp] theorem get?_put_self (t : Table key) (a : α) : (t.put a).get? (key a) = some a :=
  get?_eq_some.mpr ⟨mem_put_self t a, rfl⟩

theorem get?_put_ne (t : Table key) {a : α} {k : κ} (h : k ≠ key a) :
    (t.put a).get? k = t.get? k := by
  apply Option.ext
  intro b
  simp only [get?_eq_some, mem_put]
  constructor
  · rintro ⟨rfl | ⟨hb, -⟩, hk⟩
    · exact absurd hk.symm h
    · exact ⟨hb, hk⟩
  · rintro ⟨hb, rfl⟩
    exact ⟨.inr ⟨hb, h⟩, rfl⟩

theorem get?_put (t : Table key) (a : α) (k : κ) :
    (t.put a).get? k = if k = key a then some a else t.get? k := by
  by_cases h : k = key a
  · subst h; rw [if_pos rfl, get?_put_self]
  · rw [if_neg h, get?_put_ne t h]

/-- `del table[k]`, and no change when the key is absent. -/
def erase (t : Table key) (k : κ) : Table key :=
  ⟨t.rows.filter (fun a => decide (key a ≠ k)), t.nodup.sublist (List.filter_sublist.map key)⟩

theorem mem_erase {t : Table key} {k : κ} {a : α} : a ∈ t.erase k ↔ a ∈ t ∧ key a ≠ k := by
  simp [erase, mem_def, List.mem_filter]

@[simp] theorem get?_erase_self (t : Table key) (k : κ) : (t.erase k).get? k = none :=
  get?_eq_none.mpr fun _ ha => (mem_erase.mp ha).2

theorem get?_erase_ne (t : Table key) {k k' : κ} (h : k' ≠ k) :
    (t.erase k).get? k' = t.get? k' := by
  apply Option.ext
  intro b
  simp only [get?_eq_some, mem_erase]
  constructor
  · rintro ⟨⟨hb, -⟩, hk⟩; exact ⟨hb, hk⟩
  · rintro ⟨hb, rfl⟩; exact ⟨⟨hb, h⟩, rfl⟩

/-- Two tables with the same rows, whatever the order, answer every lookup alike. -/
theorem get?_congr {s t : Table key} (h : ∀ a, a ∈ s ↔ a ∈ t) (k : κ) : s.get? k = t.get? k := by
  apply Option.ext
  intro b
  simp only [get?_eq_some, h]

/-! ## Several rows -/

section Several

variable {rows : List α} {s t : Table key} {a : α}

theorem of_mem_foldl_put (h : a ∈ rows.foldl put t) : a ∈ rows ∨ a ∈ t := by
  induction rows generalizing t with
  | nil => exact .inr h
  | cons b rows ih =>
    rcases ih h with hmem | hmem
    · exact .inl (.tail b hmem)
    · rcases mem_put.mp hmem with rfl | ⟨hmem, -⟩
      · exact .inl List.mem_cons_self
      · exact .inr hmem

/-- Whether a row is there after others were put does not depend on the other rows of before. -/
theorem mem_foldl_put_congr (rows : List α) (h : a ∈ s ↔ a ∈ t) :
    a ∈ rows.foldl put s ↔ a ∈ rows.foldl put t := by
  induction rows generalizing s t with
  | nil => exact h
  | cons b rows ih => exact ih (by rw [mem_put, mem_put, h])

/-- A row that is not among those put stays, if none of them has its key. -/
theorem mem_foldl_put_other (hrows : a ∉ rows) (hkey : a ∈ t → ∀ b ∈ rows, key b ≠ key a) :
    a ∈ rows.foldl put t ↔ a ∈ t := by
  induction rows generalizing t with
  | nil => exact Iff.rfl
  | cons b rows ih =>
    have hput : a ∈ t.put b ↔ a ∈ t := by
      rw [mem_put]
      constructor
      · rintro (rfl | ⟨h, -⟩)
        · exact absurd List.mem_cons_self hrows
        · exact h
      · exact fun h => .inr ⟨h, fun hk => hkey h b List.mem_cons_self hk.symm⟩
    rw [List.foldl_cons, ih (fun h => hrows (.tail b h)) (fun h c hc => hkey (hput.mp h) c (.tail b hc)),
      hput]

/-- Rows with keys of their own are all there, and the others whose keys they do not have. -/
theorem mem_foldl_put (hkey : ∀ b ∈ rows, ∀ c ∈ rows, key b = key c → b = c) :
    a ∈ rows.foldl put t ↔ a ∈ rows ∨ a ∈ t ∧ ∀ b ∈ rows, key a ≠ key b := by
  induction rows generalizing t with
  | nil => simp
  | cons b rows ih =>
    rw [List.foldl_cons, ih fun c hc d hd => hkey c (.tail b hc) d (.tail b hd), mem_put, List.mem_cons,
      List.forall_mem_cons]
    constructor
    · rintro (ha | ⟨rfl | ⟨ha, hne⟩, hrest⟩)
      · exact .inl (.inr ha)
      · exact .inl (.inl rfl)
      · exact .inr ⟨ha, hne, hrest⟩
    · rintro ((rfl | ha) | ⟨ha, hne, hrest⟩)
      · by_cases hmem : a ∈ rows
        · exact .inl hmem
        · refine .inr ⟨.inl rfl, fun c hc hk => hmem ?_⟩
          rw [hkey a List.mem_cons_self c (.tail a hc) hk]
          exact hc
      · exact .inl ha
      · exact .inr ⟨.inr ⟨ha, hne⟩, hrest⟩

end Several

end Table

end UniversalAgent.Foundation
