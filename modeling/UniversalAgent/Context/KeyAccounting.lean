import UniversalAgent.Context.Compression
import UniversalAgent.Runtime.Fingerprints

/-!
# Context — Key accounting

Whether the text of a shortened object accounts for the keys of the object. A key that is dropped is
counted under a key of its own. That key may be one of the object's own, and its value is then taken for
a number of keys that have gone; and the last key of all goes without being counted.
-/

namespace UniversalAgent.Context

open UniversalAgent.Core UniversalAgent.Foundation

section Library

variable {lib : JsonLibrary} {limit : Int} {data fields : JsonMapping}

/-! ## Counting keys -/

structure Counted (lib : JsonLibrary) (original : JsonMapping) (n : Nat) (fields : JsonMapping) : Prop where
  nodup : (fields.map Prod.fst).Nodup
  entries : ∀ p ∈ realFields fields, p ∈ original
  taken : ∀ p ∈ realFields fields, lib.refusesItem p.2 = false
  count : ∃ m : Nat, fields.lookup truncatedKeys = some (.int m) ∧ n = (realFields fields).length + m

structure Miscounted (n : Nat) (fields : JsonMapping) : Prop where
  nodup : (fields.map Prod.fst).Nodup
  fewer : fields.length < n
  count : (∃ m : Int, fields.lookup truncatedKeys = some (.int m) ∧ (n : Int) ≠ (realFields fields).length + m) ∨
    ∃ x, fields.lookup truncatedKeys = some (.float x)

structure Dropped (data data' : JsonMapping) (value : Json) : Prop where
  nodup : (data'.map Prod.fst).Nodup
  marker : data'.lookup truncatedKeys = some value
  real : ∀ p ∈ realFields data', p ∈ realFields data
  fewer : (realFields data').length + 1 = (realFields data).length
  length : data'.length + 1 = data.length

theorem mem_realFields {p : String × Json} : p ∈ realFields data ↔ p ∈ data ∧ p.1 ≠ truncatedKeys := by
  rw [realFields, List.mem_filter, decide_eq_true_eq]

/-- The keys are without repetition: there is a marker, or there is none, besides the real ones. -/
theorem length_realFields (h : (data.map Prod.fst).Nodup) :
    data.length = (realFields data).length + if truncatedKeys ∈ data.map Prod.fst then 1 else 0 := by
  by_cases hmem : truncatedKeys ∈ data.map Prod.fst
  · obtain ⟨p, hp, hkey⟩ := List.mem_map.mp hmem
    rw [if_pos hmem, ← length_filter_key h hp, hkey]
    rfl
  · have hall : realFields data = data := by
      rw [realFields, List.filter_eq_self]
      intro p hp
      have hne : p.1 ≠ truncatedKeys := fun he => hmem (he ▸ List.mem_map_of_mem hp)
      simpa using hne
    rw [if_neg hmem, hall, Nat.add_zero]

theorem getLast_real {last : String × Json} (h : (realFields data).getLast? = some last) :
    last ∈ data ∧ truncatedKeys ≠ last.1 := by
  obtain ⟨hmem, hne⟩ := mem_realFields.mp (List.mem_of_getLast? h)
  exact ⟨hmem, hne.symm⟩

theorem dropLastKey_marker {last : String × Json} {value : Json}
    (hlast : (realFields data).getLast? = some last) (hmarker : data.lookup truncatedKeys = some value) :
    dropLastKey lib data =
      match plusOne lib value with
      | .error e => some (.error e)
      | .ok value' => some (.ok (dictSet (data.filter fun p => p.1 ≠ last.1) truncatedKeys value')) := by
  have hlookup : (data.filter fun p => p.1 ≠ last.1).lookup truncatedKeys = some value := by
    rw [lookup_filter_ne (getLast_real hlast).2, hmarker]
  have hne : (data.filter fun p => p.1 ≠ last.1) ≠ [] := by
    intro hempty
    rw [hempty] at hlookup
    cases hlookup
  unfold dropLastKey
  rw [hlast]
  cases hplus : plusOne lib value with
  | error e => simp only [if_neg hne, hlookup, Option.getD_some, hplus]
  | ok m => simp only [if_neg hne, hlookup, Option.getD_some, hplus]

variable {data' : JsonMapping} {n : Nat}

theorem dropped_of_marker {value : Json} (hn : (data.map Prod.fst).Nodup)
    (hmarker : data.lookup truncatedKeys = some value) (h : dropLastKey lib data = some (.ok data')) :
    ∃ value', plusOne lib value = .ok value' ∧ Dropped data data' value' := by
  obtain ⟨last, hlast, hreal⟩ := realFields_dropLastKey lib h
  rw [dropLastKey_marker hlast hmarker] at h
  cases hvalue : plusOne lib value with
  | error e =>
    rw [hvalue] at h
    cases h
  | ok value' =>
    rw [hvalue] at h
    cases h
    have hlastReal := List.mem_of_getLast? hlast
    have hcount := length_filter_key (nodup_filter_keys hn) hlastReal
    have hnodup : ((dictSet (data.filter fun p => p.1 ≠ last.1) truncatedKeys value').map
        Prod.fst).Nodup := nodup_dictSet (nodup_filter_keys hn)
    have hset : truncatedKeys ∈ (dictSet (data.filter fun p => p.1 ≠ last.1) truncatedKeys
        value').map Prod.fst := mem_keys_of_lookup lookup_dictSet
    refine ⟨value', rfl, hnodup, lookup_dictSet, ?_, ?_, ?_⟩
    · intro p hp
      rw [hreal] at hp
      exact List.mem_of_mem_filter hp
    · rw [hreal]
      exact hcount
    · rw [length_realFields hnodup, length_realFields hn, if_pos hset,
        if_pos (mem_keys_of_lookup hmarker), hreal]
      have hfewer : ((realFields data).filter fun p => p.1 ≠ last.1).length + 1 =
        (realFields data).length := hcount
      omega

theorem Counted.step {original data' : JsonMapping} {n : Nat} (h : Counted lib original n data)
    (hdrop : dropLastKey lib data = some (.ok data')) : Counted lib original n data' := by
  obtain ⟨m, hmarker, hn⟩ := h.count
  obtain ⟨value, hvalue, hd⟩ := dropped_of_marker h.nodup hmarker hdrop
  cases hvalue
  have hfewer := hd.fewer
  exact
    { nodup := hd.nodup
      entries := fun p hp => h.entries p (hd.real p hp)
      taken := fun p hp => h.taken p (hd.real p hp)
      count := ⟨m + 1, hd.marker, by omega⟩ }

theorem Counted.not_refused {original : JsonMapping} (h : Counted lib original n data)
    (hn : n < 2 ^ 63) : lib.refuses (.obj data) = false := by
  obtain ⟨m, hmarker, hm⟩ := h.count
  rw [lib.refuses_obj, List.any_eq_false]
  intro p hp
  rw [Bool.not_eq_true]
  by_cases hkey : p.1 = truncatedKeys
  · have hvalue := lookup_of_mem h.nodup hp
    rw [hkey, hmarker] at hvalue
    rw [← Option.some.inj hvalue, lib.refusesItem_int, Bool.not_eq_false', Json.isInt64, decide_eq_true_eq]
    omega
  · exact h.taken p (mem_realFields.mpr ⟨hp, hkey⟩)

/-- A step raises only where the marker is no number. -/
theorem dropLastKey_no_error {value : Json}
    (hvalue : plusOne lib ((data.lookup truncatedKeys).getD (.int 0)) = .ok value) (e : CompressError) :
    dropLastKey lib data ≠ some (.error e) := by
  intro he
  unfold dropLastKey at he
  cases hlast : (realFields data).getLast? with
  | none =>
    rw [hlast] at he
    cases he
  | some last =>
    rw [hlast] at he
    simp only [lookup_filter_ne (getLast_real hlast).2, hvalue] at he
    split at he <;> cases he

theorem Counted.no_error {original : JsonMapping} (h : Counted lib original n data)
    (e : CompressError) : dropLastKey lib data ≠ some (.error e) := by
  obtain ⟨m, hmarker, -⟩ := h.count
  exact @dropLastKey_no_error _ _ (.int (m + 1)) (by rw [hmarker]; rfl) e

theorem Miscounted.step {data' : JsonMapping} {n : Nat} (h : Miscounted n data)
    (hdrop : dropLastKey lib data = some (.ok data')) : Miscounted n data' := by
  rcases h.count with ⟨m, hmarker, hn⟩ | ⟨x, hmarker⟩
  · obtain ⟨value, hvalue, hd⟩ := dropped_of_marker h.nodup hmarker hdrop
    cases hvalue
    have hfewer := hd.fewer
    have hlength := hd.length
    have hold := h.fewer
    exact ⟨hd.nodup, by omega, .inl ⟨m + 1, hd.marker, by omega⟩⟩
  · obtain ⟨value, hvalue, hd⟩ := dropped_of_marker h.nodup hmarker hdrop
    cases hvalue
    have hlength := hd.length
    have hold := h.fewer
    exact ⟨hd.nodup, by omega, .inr ⟨_, hd.marker⟩⟩

/-! ## Main result -/

/-- The object that is returned accounts for the keys of the object that was given: its entries are
entries of that object, with their values capped, and the keys that are not there are counted under the
marker. A marker's key that the object has of its own is one of its keys as long as none is dropped. -/
structure Accounts (data fields : JsonMapping) : Prop where
  nodup : (fields.map Prod.fst).Nodup
  entries : ∀ p ∈ realFields fields, p ∈ capFields data
  count : fields = capFields data ∨
    ∃ m : Int, fields.lookup truncatedKeys = some (.int m) ∧
      (data.length : Int) = (realFields fields).length + m

structure Accountable (lib : JsonLibrary) (limit : Int) (data : JsonMapping) : Prop where
  /-- `orjson` takes every entry that is kept. -/
  taken : ∀ p ∈ capEntries (capFields data), lib.refusesItem p.2 = false
  /-- More than six entries: the marker's key is none of the first six. -/
  capped : maxItems < data.length → truncatedKeys ∉ (data.take maxItems).map Prod.fst
  /-- The only entry is not dropped. -/
  single : data.length = 1 → truncatedKeys ∉ data.map Prod.fst → Fits lib limit (capFields data)
  /-- Up to six entries, of which one has to be dropped: the marker's key has the value 1, if any. -/
  marked : data.length ≤ maxItems → ¬Fits lib limit (capFields data) →
    ∀ value, data.lookup truncatedKeys = some value → value = .int 1 ∨ value = .bool true

theorem keys_capFields (data : JsonMapping) : (capFields data).map Prod.fst = data.map Prod.fst := by
  rw [capFields_eq_map, List.map_map]
  rfl

theorem length_capFields (data : JsonMapping) : (capFields data).length = data.length := by
  rw [capFields_eq_map, List.length_map]

theorem lookup_capFields (data : JsonMapping) (key : String) :
    (capFields data).lookup key = (data.lookup key).map cap := by
  induction data with
  | nil => rfl
  | cons p data ih =>
    obtain ⟨k, value⟩ := p
    rw [capFields, List.lookup_cons, List.lookup_cons, ih]
    cases key == k <;> rfl

theorem plusOne_cap (value : Json) : plusOne lib (cap value) = plusOne lib value := by
  cases value <;> rfl

theorem capEntries_few (h : data.length ≤ maxItems) : capEntries data = data :=
  if_neg (Nat.not_lt.mpr h)

theorem capEntries_many (h : maxItems < data.length) :
    capEntries data = dictSet (data.take maxItems) truncatedKeys (.int (data.length - maxItems : Nat)) :=
  if_pos h

/-- What capping leaves of an object with many entries. -/
theorem many_counts (hn : (data.map Prod.fst).Nodup) (h : maxItems < data.length) :
    ((capEntries data).map Prod.fst).Nodup ∧
      (capEntries data).lookup truncatedKeys = some (.int (data.length - maxItems : Nat)) ∧
      realFields (capEntries data) = realFields (data.take maxItems) ∧
      maxItems = (realFields (data.take maxItems)).length +
        if truncatedKeys ∈ (data.take maxItems).map Prod.fst then 1 else 0 := by
  have hfirst : ((data.take maxItems).map Prod.fst).Nodup :=
    hn.sublist (List.Sublist.map Prod.fst (List.take_sublist maxItems data))
  rw [capEntries_many h]
  refine ⟨nodup_dictSet hfirst, lookup_dictSet, realFields_dictSet _ _, ?_⟩
  rw [← length_realFields hfirst, List.length_take]
  exact (Nat.min_eq_left (Nat.le_of_lt h)).symm

theorem Counted.accounts (h : Counted lib (capFields data) data.length fields) : Accounts data fields := by
  obtain ⟨m, hmarker, hcount⟩ := h.count
  exact ⟨h.nodup, h.entries, .inr ⟨m, hmarker, by omega⟩⟩

theorem Miscounted.not_accounts (h : Miscounted data.length fields) : ¬Accounts data fields := by
  intro ha
  have hfewer := h.fewer
  rcases ha.count with rfl | ⟨m, hmarker, hcount⟩
  · rw [length_capFields] at hfewer
    exact Nat.lt_irrefl _ hfewer
  · rcases h.count with ⟨m', hmarker', hcount'⟩ | ⟨x, hmarker'⟩
    · rw [hmarker] at hmarker'
      cases hmarker'
      exact hcount' hcount
    · rw [hmarker] at hmarker'
      cases hmarker'

/-- From where the keys are counted, what is returned accounts for them. -/
theorem Counted.shrunk {D : JsonMapping} (h : Counted lib (capFields data) data.length D)
    (hn : data.length < 2 ^ 63) (hsome : shrink lib limit D ≠ .ok none) :
    ∃ fields, shrink lib limit D = .ok (some fields) ∧ Fits lib limit fields ∧ Accounts data fields := by
  obtain ⟨result, hresult⟩ := @shrink_total lib limit _ (Counted lib (capFields data) data.length) (fun _ _ => Counted.step)
    (fun _ h => h.not_refused hn) (fun _ e h => h.no_error e) h
  cases result with
  | none => exact absurd hresult hsome
  | some fields =>
    obtain ⟨hcounted, hfits⟩ := shrink_run (P := Counted lib (capFields data) data.length)
      (fun _ _ => Counted.step) h hresult
    exact ⟨fields, hresult, hfits, hcounted.accounts⟩

/-- The first key that is dropped of an object without a marker. -/
theorem counted_first (hn : (data.map Prod.fst).Nodup)
    (hlength : data.length = n) (htwo : n ≠ 1) (hmarker : truncatedKeys ∉ data.map Prod.fst)
    (htaken : ∀ p ∈ data, lib.refusesItem p.2 = false)
    (h : dropLastKey lib data = some (.ok data')) : Counted lib data n data' := by
  obtain ⟨last, hlast, hcases⟩ := dropLastKey_cases h
  have hreal : realFields data = data := by
    have := length_realFields hn
    rw [if_neg hmarker, Nat.add_zero] at this
    exact (List.filter_sublist.eq_of_length this.symm)
  rw [hreal] at hlast
  have hmem := List.mem_of_getLast? hlast
  have hcount := length_filter_key hn hmem
  obtain ⟨hempty, -⟩ | ⟨value, hvalue, rfl⟩ := hcases
  · rw [hempty, List.length_nil] at hcount
    omega
  · have hfresh : truncatedKeys ∉ (data.filter fun p => p.1 ≠ last.1).map Prod.fst :=
      fun hin => hmarker (List.Sublist.subset (List.Sublist.map Prod.fst List.filter_sublist) hin)
    have hnone : (data.filter fun p => p.1 ≠ last.1).lookup truncatedKeys = none := by
      cases hl : (data.filter fun p => p.1 ≠ last.1).lookup truncatedKeys with
      | none => rfl
      | some v => exact absurd (mem_keys_of_lookup hl) hfresh
    rw [hnone] at hvalue
    cases hvalue
    have hfields : realFields (dictSet (data.filter fun p => p.1 ≠ last.1) truncatedKeys (.int (0 + 1))) =
        data.filter fun p => p.1 ≠ last.1 := by
      rw [realFields_dictSet, realFields_filter, hreal]
    refine ⟨nodup_dictSet (nodup_filter_keys hn), ?_, ?_, 1, lookup_dictSet, ?_⟩
    · intro p hp
      rw [hfields] at hp
      exact List.mem_of_mem_filter hp
    · intro p hp
      rw [hfields] at hp
      exact htaken p (List.mem_of_mem_filter hp)
    · rw [hfields]
      omega

/-- The first key that is dropped of an object whose marker is 1. -/
theorem counted_marked {value : Json} (hn : (data.map Prod.fst).Nodup)
    (hlength : data.length = n) (hmarker : data.lookup truncatedKeys = some value)
    (hvalue : plusOne lib value = .ok (.int 2)) (htaken : ∀ p ∈ data, lib.refusesItem p.2 = false)
    (h : dropLastKey lib data = some (.ok data')) : Counted lib data n data' := by
  obtain ⟨value', hvalue', hd⟩ := dropped_of_marker hn hmarker h
  rw [hvalue] at hvalue'
  cases hvalue'
  have hfewer := hd.fewer
  have hreal := length_realFields hn
  rw [if_pos (mem_keys_of_lookup hmarker)] at hreal
  exact
    { nodup := hd.nodup
      entries := fun p hp => (mem_realFields.mp (hd.real p hp)).1
      taken := fun p hp => htaken p (mem_realFields.mp (hd.real p hp)).1
      count := ⟨2, hd.marker, by omega⟩ }

theorem Accountable.shrunk (h : Accountable lib limit data) (hn : (data.map Prod.fst).Nodup)
    (hlength : data.length < 2 ^ 63) (hsome : shrink lib limit (capEntries (capFields data)) ≠ .ok none) :
    ∃ fields, shrink lib limit (capEntries (capFields data)) = .ok (some fields) ∧
      Fits lib limit fields ∧ Accounts data fields := by
  have hkeys : ((capFields data).map Prod.fst).Nodup := by
    rw [keys_capFields]
    exact hn
  have hrefused : lib.refuses (.obj (capEntries (capFields data))) = false := by
    rw [lib.refuses_obj, List.any_eq_false]
    intro p hp
    rw [h.taken p hp]
    exact Bool.false_ne_true
  by_cases hmany : maxItems < data.length
  · -- capping has left the marker
    obtain ⟨hnodup, hmarker, hreal, hcount⟩ :=
      many_counts hkeys (by rw [length_capFields]; exact hmany)
    have hfirst : truncatedKeys ∉ ((capFields data).take maxItems).map Prod.fst := by
      rw [List.map_take, keys_capFields, ← List.map_take]
      exact h.capped hmany
    rw [if_neg hfirst, Nat.add_zero] at hcount
    refine Counted.shrunk ⟨hnodup, ?_, fun p hp => h.taken p (mem_realFields.mp hp).1, _, hmarker, ?_⟩
      hlength hsome
    · intro p hp
      rw [hreal] at hp
      exact List.mem_of_mem_take (mem_realFields.mp hp).1
    · rw [hreal, ← hcount, length_capFields]
      omega
  · have hfew : data.length ≤ maxItems := Nat.not_lt.mp hmany
    have hcap : capEntries (capFields data) = capFields data :=
      capEntries_few (by rw [length_capFields]; exact hfew)
    have htaken := h.taken
    rw [hcap] at hrefused hsome htaken ⊢
    by_cases hfits : Fits lib limit (capFields data)
    · exact ⟨_, shrink_fits hrefused hfits, hfits, hkeys, fun p hp => (mem_realFields.mp hp).1, .inl rfl⟩
    · rw [shrink_drops hrefused hfits] at hsome ⊢
      obtain ⟨hcounted, value, hvalue⟩ : (∀ data', dropLastKey lib (capFields data) = some (.ok data') →
          Counted lib (capFields data) data.length data') ∧
          ∃ value, plusOne lib (((capFields data).lookup truncatedKeys).getD (.int 0)) = .ok value := by
        rw [lookup_capFields]
        cases hmarker : data.lookup truncatedKeys with
        | none =>
          have hfresh : truncatedKeys ∉ data.map Prod.fst := by
            intro hin
            obtain ⟨p, hp, hkey⟩ := List.mem_map.mp hin
            have hvalue := lookup_of_mem hn hp
            rw [hkey, hmarker] at hvalue
            cases hvalue
          refine ⟨fun data' hdrop => ?_, _, rfl⟩
          exact counted_first hkeys (length_capFields data) (fun h1 => hfits (h.single h1 hfresh))
            (by rw [keys_capFields]; exact hfresh) htaken hdrop
        | some value =>
          have hlookup : (capFields data).lookup truncatedKeys = some (cap value) := by
            rw [lookup_capFields, hmarker, Option.map_some]
          have htwo : plusOne lib (cap value) = .ok (.int 2) := by
            rcases h.marked hfew hfits value hmarker with rfl | rfl <;> rfl
          refine ⟨fun data' hdrop => ?_, _, htwo⟩
          exact counted_marked hkeys (length_capFields data) hlookup htwo htaken hdrop
      cases hdrop : dropLastKey lib (capFields data) with
      | none =>
        rw [hdrop] at hsome
        exact absurd rfl hsome
      | some step =>
        cases step with
        | error e => exact absurd hdrop (dropLastKey_no_error hvalue e)
        | ok data' =>
          rw [hdrop] at hsome
          exact (hcounted data' hdrop).shrunk hlength hsome

theorem accountable_of_shrunk (hn : (data.map Prod.fst).Nodup) (hlimit : 3 < limit)
    (hshrunk : shrink lib limit (capEntries (capFields data)) = .ok (some fields))
    (ha : Accounts data fields) : Accountable lib limit data := by
  have hkeys : ((capFields data).map Prod.fst).Nodup := by
    rw [keys_capFields]
    exact hn
  have hrefused : lib.refuses (.obj (capEntries (capFields data))) = false := by
    cases hr : lib.refuses (.obj (capEntries (capFields data))) with
    | false => rfl
    | true =>
      rw [shrink_refused hr] at hshrunk
      cases hshrunk
  have hstep : ∀ {D : JsonMapping}, Miscounted data.length D → shrink lib limit D ≠ .ok (some fields) :=
    fun hD hD' => (shrink_run (fun _ _ => Miscounted.step) hD hD').1.not_accounts ha
  refine ⟨?_, fun hmany hfirst => ?_, fun hone hfresh => ?_, fun hfew hfits value hmarker => ?_⟩
  · intro p hp
    have hnone := hrefused
    rw [lib.refuses_obj, List.any_eq_false] at hnone
    exact Bool.not_eq_true _ ▸ hnone p hp
  · -- the marker's key is one of the six that are kept, and its entry is gone
    obtain ⟨hnodup, hmarker, hreal, hcount⟩ :=
      many_counts hkeys (by rw [length_capFields]; exact hmany)
    have hkept : truncatedKeys ∈ ((capFields data).take maxItems).map Prod.fst := by
      rw [List.map_take, keys_capFields, ← List.map_take]
      exact hfirst
    rw [if_pos hkept] at hcount
    have hlength := length_realFields hnodup
    rw [if_pos (mem_keys_of_lookup hmarker), hreal] at hlength
    rw [length_capFields] at hmarker
    refine hstep ⟨hnodup, by omega, .inl ⟨_, hmarker, ?_⟩⟩ hshrunk
    rw [hreal]
    omega
  · -- the empty object that would be left has no marker
    by_contra hfits
    obtain ⟨⟨key, value⟩, rfl⟩ := List.length_eq_one_iff.mp hone
    have hne : key ≠ truncatedKeys := fun he => hfresh (by simp [he])
    have hdrop : dropLastKey lib (capFields [(key, value)]) = some (.ok []) := by
      simp [dropLastKey, capFields, realFields, hne]
    have hempty : lib.refuses (.obj []) = false := by rw [lib.refuses_obj, List.any_nil]
    have hshort : Fits lib limit [] := by
      have htext : JsonText.dumps lib.floats (.obj []) = "\x7b\x7d" := rfl
      have htwo : "\x7b\x7d".length = 2 := by decide
      rw [Fits, htext, htwo]
      omega
    rw [capEntries_few (by rw [length_capFields, hone]; decide)] at hshrunk hrefused
    rw [shrink_drops hrefused hfits, hdrop] at hshrunk
    have hnil := (shrink_fits hempty hshort).symm.trans hshrunk
    cases hnil
    rcases ha.count with hall | ⟨m, hmarker, -⟩
    · cases hall
    · cases hmarker
  · have hcap := @capEntries_few (capFields data) (by rw [length_capFields]; exact hfew)
    have hlookup : (capFields data).lookup truncatedKeys = some (cap value) := by
      rw [lookup_capFields, hmarker, Option.map_some]
    rw [hcap] at hshrunk hrefused
    rw [shrink_drops hrefused hfits] at hshrunk
    have hlength := length_realFields hkeys
    rw [if_pos (mem_keys_of_lookup hlookup), length_capFields] at hlength
    cases hdrop : dropLastKey lib (capFields data) with
    | none =>
      rw [hdrop] at hshrunk
      cases hshrunk
    | some step =>
      cases step with
      | error e =>
        rw [hdrop] at hshrunk
        cases hshrunk
      | ok data' =>
        rw [hdrop] at hshrunk
        obtain ⟨value', hvalue, hd⟩ := dropped_of_marker hkeys hlookup hdrop
        have hfewer := hd.fewer
        have hshorter := hd.length
        rw [length_capFields] at hshorter
        rw [plusOne_cap] at hvalue
        cases value with
        | int i =>
          cases hvalue
          by_contra hne
          have hi : i ≠ 1 := fun he => hne (.inl (by rw [he]))
          exact hstep ⟨hd.nodup, by omega, .inl ⟨i + 1, hd.marker, by omega⟩⟩ hshrunk
        | bool b =>
          cases b with
          | true => exact .inr rfl
          | false =>
            cases hvalue
            exact absurd hshrunk
              (hstep ⟨hd.nodup, by omega, .inl ⟨0 + 1, hd.marker, by omega⟩⟩)
        | float x =>
          cases hvalue
          exact absurd hshrunk (hstep ⟨hd.nodup, by omega, .inr ⟨_, hd.marker⟩⟩)
        | null => cases hvalue
        | str s => cases hvalue
        | arr items => cases hvalue
        | obj fields => cases hvalue

theorem compressed_obj {content : String} (hload : lib.loads content = some (.obj data)) :
    compressed lib content limit =
      match shrink lib limit (capEntries (capFields data)) with
      | .error e => .error e
      | .ok result => .ok (result.map .obj) := by
  rw [compressed, hload]
  rfl

/-- The text that is returned is that of the object the loop comes to. -/
theorem compressJson_obj {content : String} (hload : lib.loads content = some (.obj data)) :
    compressJson lib content limit =
      match shrink lib limit (capEntries (capFields data)) with
      | .error e => .error e
      | .ok result => .ok (result.map fun fields => JsonText.dumps lib.floats (.obj fields)) := by
  rw [compressJson, compressed_obj hload]
  cases shrink lib limit (capEntries (capFields data)) with
  | error e => rfl
  | ok result => cases result <;> rfl

/-- **The compression of an object accounts for its keys** exactly when the object is accountable. -/
theorem compression_accounts {content : String} (hload : lib.loads content = some (.obj data))
    (hlimit : 3 < limit) (hsome : compressJson lib content limit ≠ .ok none) :
    (∃ text fields, compressJson lib content limit = .ok (some text) ∧
        text = JsonText.dumps lib.floats (.obj fields) ∧
        compressed lib content limit = .ok (some (.obj fields)) ∧ (text.length : Int) ≤ limit ∧
        Accounts data fields) ↔
      Accountable lib limit data := by
  have hn := lib.loads_keys hload
  have hlength := lib.loads_length hload
  rw [compressJson_obj hload] at hsome ⊢
  rw [compressed_obj hload]
  constructor
  · rintro ⟨text, fields, -, -, hcompressed, -, ha⟩
    cases hshrunk : shrink lib limit (capEntries (capFields data)) with
    | error e =>
      rw [hshrunk] at hcompressed
      cases hcompressed
    | ok result =>
      rw [hshrunk] at hcompressed
      cases result with
      | none => cases hcompressed
      | some fields' =>
        cases hcompressed
        exact accountable_of_shrunk hn hlimit hshrunk ha
  · intro h
    have hne : shrink lib limit (capEntries (capFields data)) ≠ .ok none := by
      intro hnone
      rw [hnone] at hsome
      exact hsome rfl
    obtain ⟨fields, hshrunk, hfits, ha⟩ := h.shrunk hn hlength hne
    rw [hshrunk]
    exact ⟨_, fields, rfl, rfl, rfl, hfits, ha⟩

instance : Decidable (Fits lib limit data) := inferInstanceAs (Decidable (_ ≤ limit))

end Library

/-! ## Three objects -/

/-- The object of the text, for three texts; integers within 64 bits are taken. -/
def threeTexts : JsonLibrary where
  loads text :=
    if text = "\x7b\"a\": 1, \"b\": \"0123456789abcdefghij\"\x7d" then
      some (.obj [("a", .int 1), ("b", .str "0123456789abcdefghij")])
    else if text = "\x7b\"a\": \"0123456789\"\x7d" then some (.obj [("a", .str "0123456789")])
    else if text = "\x7b\"__truncated_keys__\": \"none\", \"a\": \"0123456789\"\x7d" then
      some (.obj [("__truncated_keys__", .str "none"), ("a", .str "0123456789")])
    else none
  floats := Runtime.Actions.plainFloats
  refuses := refusesBeyondInt64
  refusesItem := beyondInt64
  floatSucc x := match x with
    | .finite q => .finite (q + 1)
    | x => x
  loads_keys {text fields} h := by
    split_ifs at h
    all_goals
      cases h
      decide
  loads_length {text fields} h := by
    split_ifs at h
    all_goals
      cases h
      decide
  refuses_obj := refusesBeyondInt64_obj
  refusesItem_int := beyondInt64_int

theorem compression_accounts_two :
    ∃ text fields,
      compressJson threeTexts "\x7b\"a\": 1, \"b\": \"0123456789abcdefghij\"\x7d" 30 = .ok (some text) ∧
        text = JsonText.dumps threeTexts.floats (.obj fields) ∧
        compressed threeTexts "\x7b\"a\": 1, \"b\": \"0123456789abcdefghij\"\x7d" 30 =
          .ok (some (.obj fields)) ∧
        (text.length : Int) ≤ 30 ∧ Accounts [("a", .int 1), ("b", .str "0123456789abcdefghij")] fields := by
  have hshrunk : shrink threeTexts 30
      (capEntries (capFields [("a", .int 1), ("b", .str "0123456789abcdefghij")])) =
        .ok (some [("a", .int 1), (truncatedKeys, .int 1)]) := by
    rw [shrink_drops (by decide) (by decide +kernel)]
    exact shrink_fits (by decide) (by decide +kernel)
  refine (compression_accounts rfl (by decide) ?_).mpr
    ⟨by decide, by decide, by decide, fun _ _ value hvalue => by cases hvalue⟩
  rw [compressJson_obj rfl, hshrunk]
  exact nofun

/-- The only key is dropped without a marker, and a text under the marker's key raises. -/
theorem keys_not_accounted :
    compressJson threeTexts "\x7b\"a\": \"0123456789\"\x7d" 10 = .ok (some "\x7b\x7d") ∧
      compressJson threeTexts "\x7b\"__truncated_keys__\": \"none\", \"a\": \"0123456789\"\x7d" 40 =
        .error .typeError := by
  constructor
  · have hshrunk : shrink threeTexts 10 (capEntries (capFields [("a", .str "0123456789")])) =
        .ok (some []) := by
      rw [shrink_drops (by decide) (by decide +kernel)]
      exact shrink_fits (by decide) (by decide +kernel)
    rw [compressJson_obj rfl, hshrunk]
    rfl
  · have hshrunk : shrink threeTexts 40 (capEntries (capFields
        [("__truncated_keys__", .str "none"), ("a", .str "0123456789")])) = .error .typeError := by
      rw [shrink_drops (by decide) (by decide +kernel)]
      rfl
    rw [compressJson_obj rfl, hshrunk]

end UniversalAgent.Context
