import UniversalAgent.Core.Dictionaries
import UniversalAgent.Core.JsonText

/-!
# Core — UniqueKeys

Values as Python has them: the keys of a mapping differ. Sorting the keys makes an equal value, unless there
is a NaN in it: a NaN is equal to nothing.
-/

namespace UniversalAgent.Core

namespace Json

mutual

def uniqueKeys : Json → Bool
  | .null | .bool _ | .int _ | .float _ | .str _ => true
  | .arr items => uniqueKeysItems items
  | .obj fields => decide (fields.map Prod.fst).Nodup && uniqueKeysFields fields

def uniqueKeysItems : List Json → Bool
  | [] => true
  | x :: xs => uniqueKeys x && uniqueKeysItems xs

def uniqueKeysFields : List (String × Json) → Bool
  | [] => true
  | (_, x) :: xs => uniqueKeys x && uniqueKeysFields xs

end

mutual

def hasNaN : Json → Bool
  | .null | .bool _ | .int _ | .str _ => false
  | .float x => decide (x = .nan)
  | .arr items => hasNaNItems items
  | .obj fields => hasNaNFields fields

def hasNaNItems : List Json → Bool
  | [] => false
  | x :: xs => hasNaN x || hasNaNItems xs

def hasNaNFields : List (String × Json) → Bool
  | [] => false
  | (_, x) :: xs => hasNaN x || hasNaNFields xs

end

theorem uniqueKeysFields_eq_all (fields : List (String × Json)) :
    uniqueKeysFields fields = fields.all fun p => p.2.uniqueKeys := by
  induction fields with
  | nil => rfl
  | cons p fields ih =>
    obtain ⟨k, x⟩ := p
    rw [uniqueKeysFields, ih, List.all_cons]

/-- A value in a mapping has the property if the mapping has. -/
theorem uniqueKeys_of_lookup {fields : List (String × Json)} {key : String} {v : Json}
    (h : (Json.obj fields).uniqueKeys = true) (hv : fields.lookup key = some v) : v.uniqueKeys = true := by
  rw [uniqueKeys, Bool.and_eq_true, uniqueKeysFields_eq_all, List.all_eq_true] at h
  obtain ⟨l₁, l₂, rfl, -⟩ := List.lookup_eq_some_iff.mp hv
  exact h.2 (key, v) (List.mem_append_right _ List.mem_cons_self)

end Json

open Json

namespace JsonText

theorem sortFields_eq_map (fields : List (String × Json)) :
    sortFields fields = fields.map fun p => (p.1, sortKeys p.2) := by
  induction fields with
  | nil => rfl
  | cons p fields ih =>
    obtain ⟨k, x⟩ := p
    rw [sortFields, ih, List.map_cons]

def sortedFields (fields : List (String × Json)) : List (String × Json) :=
  (sortFields fields).insertionSort fun a b => a.1 ≤ b.1

theorem sortedFields_perm (fields : List (String × Json)) :
    (sortedFields fields).Perm (fields.map fun p => (p.1, sortKeys p.2)) := by
  rw [← sortFields_eq_map]
  exact List.perm_insertionSort _ _

theorem keys_sortedFields (fields : List (String × Json)) :
    ((sortedFields fields).map Prod.fst).Perm (fields.map Prod.fst) := by
  have hperm := (sortedFields_perm fields).map Prod.fst
  rw [List.map_map] at hperm
  exact hperm

/-- A field has the value it had, with its own keys sorted. -/
theorem lookup_sortedFields_of_mem {fields : List (String × Json)} (h : (fields.map Prod.fst).Nodup)
    {p : String × Json} (hp : p ∈ fields) : (sortedFields fields).lookup p.1 = some (sortKeys p.2) := by
  have hmem : (p.1, sortKeys p.2) ∈ sortedFields fields :=
    (sortedFields_perm fields).mem_iff.mpr (List.mem_map.mpr ⟨p, hp, rfl⟩)
  exact Core.lookup_of_mem ((keys_sortedFields fields).nodup_iff.mpr h) hmem

/-- A key has the value it had, with its own keys sorted. -/
theorem lookup_sortedFields {fields : List (String × Json)} (h : (fields.map Prod.fst).Nodup) (key : String) :
    (sortedFields fields).lookup key = (fields.lookup key).map sortKeys := by
  cases hv : fields.lookup key with
  | none =>
    rw [Option.map_none, List.lookup_eq_none_iff]
    intro p hp
    have hmem := (keys_sortedFields fields).mem_iff.mp (List.mem_map_of_mem hp)
    obtain ⟨q, hq, hkey⟩ := List.mem_map.mp hmem
    rw [← hkey]
    exact List.lookup_eq_none_iff.mp hv q hq
  | some v =>
    obtain ⟨l₁, l₂, rfl, -⟩ := List.lookup_eq_some_iff.mp hv
    exact lookup_sortedFields_of_mem h (List.mem_append_right l₁ List.mem_cons_self)

theorem lookup_settleFields (fields : List (String × Json)) (key : String) :
    (settleFields fields).lookup key = (fields.lookup key).map settle := by
  induction fields with
  | nil => rfl
  | cons p fields ih =>
    obtain ⟨k, x⟩ := p
    rw [settleFields, List.lookup_cons, List.lookup_cons, ih]
    cases key == k <;> rfl

section Lookup

variable {fields fields' : List (String × Json)} (hkeys : (fields.map Prod.fst).Nodup)
  (hkeys' : (fields'.map Prod.fst).Nodup)

include hkeys hkeys'

/-- Two mappings that are equal up to the order of keys have such values under their keys. -/
theorem lookup_of_sortKeys_eq (h : sortKeys (.obj fields) = sortKeys (.obj fields')) (key : String) :
    (fields.lookup key).map sortKeys = (fields'.lookup key).map sortKeys := by
  have hfields : sortedFields fields = sortedFields fields' := Json.obj.inj h
  rw [← lookup_sortedFields hkeys, hfields, lookup_sortedFields hkeys']

/-- Two mappings with one canonical form have canonical values under their keys. -/
theorem lookup_of_canonical_eq (h : canonical (.obj fields) = canonical (.obj fields')) (key : String) :
    (fields.lookup key).map canonical = (fields'.lookup key).map canonical := by
  have hfields : settleFields (sortedFields fields) = settleFields (sortedFields fields') := Json.obj.inj h
  have hlookup := congrArg (fun l => List.lookup key l) hfields
  simp only [lookup_settleFields] at hlookup
  rwa [lookup_sortedFields hkeys, lookup_sortedFields hkeys', Option.map_map, Option.map_map] at hlookup

end Lookup

mutual

theorem uniqueKeys_sortKeys : ∀ v : Json, (sortKeys v).uniqueKeys = v.uniqueKeys
  | .null | .bool _ | .int _ | .float _ | .str _ => rfl
  | .arr items => uniqueKeysItems_sortItems items
  | .obj fields => by
      have hkeys : decide ((sortedFields fields).map Prod.fst).Nodup = decide (fields.map Prod.fst).Nodup :=
        decide_eq_decide.mpr (keys_sortedFields fields).nodup_iff
      have hall : uniqueKeysFields (sortedFields fields) = uniqueKeysFields (sortFields fields) := by
        rw [uniqueKeysFields_eq_all, uniqueKeysFields_eq_all]
        exact (List.perm_insertionSort _ _).all_eq
      change (decide ((sortedFields fields).map Prod.fst).Nodup && uniqueKeysFields (sortedFields fields)) = _
      rw [hall, uniqueKeysFields_sortFields fields, hkeys, uniqueKeys]

theorem uniqueKeysItems_sortItems : ∀ xs : List Json, uniqueKeysItems (sortItems xs) = uniqueKeysItems xs
  | [] => rfl
  | x :: xs => by
      rw [sortItems, uniqueKeysItems, uniqueKeysItems, uniqueKeys_sortKeys x, uniqueKeysItems_sortItems xs]

theorem uniqueKeysFields_sortFields : ∀ xs : List (String × Json),
    uniqueKeysFields (sortFields xs) = uniqueKeysFields xs
  | [] => rfl
  | (k, x) :: xs => by
      rw [sortFields, uniqueKeysFields, uniqueKeysFields, uniqueKeys_sortKeys x, uniqueKeysFields_sortFields xs]

end

theorem sameNumber_self (x : PyFloat) : sameNumber x x = !decide (x = .nan) := by
  cases x <;> simp [sameNumber]

mutual

/-- A value is equal to itself with its keys sorted, unless there is a NaN in it. -/
theorem pyEq_sortKeys : ∀ v : Json, v.uniqueKeys = true → v.pyEq (sortKeys v) = !v.hasNaN
  | .null, _ => rfl
  | .bool b, _ => by cases b <;> rfl
  | .int i, _ => sameNumber_self (.finite i)
  | .float x, _ => sameNumber_self x
  | .str s, _ => by simp [sortKeys, pyEq, hasNaN]
  | .arr items, h => pyEqItems_sortItems items h
  | .obj fields, h => by
      rw [uniqueKeys, Bool.and_eq_true, decide_eq_true_iff] at h
      have hlength : (sortedFields fields).length = fields.length := by
        rw [(sortedFields_perm fields).length_eq, List.length_map]
      change (decide (fields.length = (sortedFields fields).length) && pyEqFields fields (sortedFields fields)) = _
      rw [hlength, decide_eq_true rfl, Bool.true_and]
      exact pyEqFields_sorted fields h.2 _ fun p hp => lookup_sortedFields_of_mem h.1 hp

theorem pyEqItems_sortItems : ∀ xs : List Json, uniqueKeysItems xs = true →
    pyEqItems xs (sortItems xs) = !hasNaNItems xs
  | [], _ => rfl
  | x :: xs, h => by
      rw [uniqueKeysItems, Bool.and_eq_true] at h
      rw [sortItems, pyEqItems, hasNaNItems, pyEq_sortKeys x h.1, pyEqItems_sortItems xs h.2, Bool.not_or]

theorem pyEqFields_sorted : ∀ xs : List (String × Json), uniqueKeysFields xs = true →
    ∀ ys : List (String × Json), (∀ p ∈ xs, ys.lookup p.1 = some (sortKeys p.2)) →
      pyEqFields xs ys = !hasNaNFields xs
  | [], _, _, _ => rfl
  | (k, x) :: xs, h, ys, hys => by
      rw [uniqueKeysFields, Bool.and_eq_true] at h
      rw [List.forall_mem_cons] at hys
      rw [pyEqFields, hasNaNFields, hys.1, Option.any_some, pyEq_sortKeys x h.1,
        pyEqFields_sorted xs h.2 ys hys.2, Bool.not_or]

end

end JsonText

end UniversalAgent.Core
