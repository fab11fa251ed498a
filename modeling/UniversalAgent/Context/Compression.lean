import UniversalAgent.Core.Dictionaries
import UniversalAgent.Core.JsonText

/-!
# Context — Compression

Shortening the content of a context fragment (`_compress`, `_compress_json` and
`_cap_json_collections` of `context/compiler.py`). Content that is JSON is shortened by whole entries:
collections are capped, and then the last keys of the outermost object go one by one, their number kept
under a key of its own.
-/

namespace UniversalAgent.Context

open UniversalAgent.Core UniversalAgent.Foundation

def truncatedKeys : String := "__truncated_keys__"

def truncatedItems : String := "__truncated_items__"

inductive CompressError where
  | typeError
  | jsonCodecError
deriving DecidableEq, Repr

/-- What the compression uses of Python's `json`, of `orjson` and of floats. -/
structure JsonLibrary where
  /-- `json.loads`: none is a `ValueError`. -/
  loads : String → Option Json
  floats : FloatText
  /-- `orjson` refuses the value (an integer beyond 64 bits, or too deep a nesting). -/
  refuses : Json → Bool
  /-- It refuses the value as an item of the object that is written. -/
  refusesItem : Json → Bool
  /-- `x + 1` of a float. -/
  floatSucc : PyFloat → PyFloat
  loads_keys : ∀ {text fields}, loads text = some (.obj fields) → (fields.map Prod.fst).Nodup
  /-- No dictionary has more keys than `sys.maxsize`. -/
  loads_length : ∀ {text fields}, loads text = some (.obj fields) → fields.length < 2 ^ 63
  refuses_obj : ∀ fields, refuses (.obj fields) = fields.any fun p => refusesItem p.2
  refusesItem_int : ∀ i, refusesItem (.int i) = !Json.isInt64 i

def beyondInt64 : Json → Bool
  | .int i => !Json.isInt64 i
  | _ => false

def refusesBeyondInt64 : Json → Bool
  | .obj fields => fields.any fun p => beyondInt64 p.2
  | v => beyondInt64 v

theorem beyondInt64_int (i : Int) : beyondInt64 (.int i) = !Json.isInt64 i := rfl

theorem refusesBeyondInt64_obj (fields : JsonMapping) :
    refusesBeyondInt64 (.obj fields) = fields.any fun p => beyondInt64 p.2 := rfl

/-! ## Capping -/

def maxItems : Nat := 6

def capItems (items : List Json) : List Json :=
  if maxItems < items.length then
    items.take maxItems ++ [.obj [(truncatedItems, .int (items.length - maxItems : Nat))]]
  else items

def capEntries (fields : JsonMapping) : JsonMapping :=
  if maxItems < fields.length then
    dictSet (fields.take maxItems) truncatedKeys (.int (fields.length - maxItems : Nat))
  else fields

mutual

/-- `_cap_json_collections`. -/
def cap : Json → Json
  | .obj fields => .obj (capEntries (capFields fields))
  | .arr items => .arr (capItems (capList items))
  | .null => .null
  | .bool b => .bool b
  | .int i => .int i
  | .float x => .float x
  | .str s => .str s

def capFields : List (String × Json) → List (String × Json)
  | [] => []
  | (key, value) :: rest => (key, cap value) :: capFields rest

def capList : List Json → List Json
  | [] => []
  | value :: rest => cap value :: capList rest

end

theorem capFields_eq_map (fields : JsonMapping) :
    capFields fields = fields.map fun p => (p.1, cap p.2) := by
  induction fields with
  | nil => rfl
  | cons p fields ih => rw [capFields, ih, List.map_cons]

/-! ## Shrinking -/

/-- `real_keys`, with their values. -/
def realFields (data : JsonMapping) : JsonMapping := data.filter fun p => p.1 ≠ truncatedKeys

section Library

variable (lib : JsonLibrary)

def dumpsJson (value : Json) : Except CompressError String :=
  if lib.refuses value then .error .jsonCodecError else .ok (JsonText.dumps lib.floats value)

/-- `value + 1`. -/
def plusOne : Json → Except CompressError Json
  | .int i => .ok (.int (i + 1))
  | .bool b => .ok (.int ((if b then 1 else 0) + 1))
  | .float x => .ok (.float (lib.floatSucc x))
  | .null | .str _ | .arr _ | .obj _ => .error .typeError

/-- The object without the last of its keys, and with one more counted; none when there is no key to
drop. -/
def dropLastKey (data : JsonMapping) : Option (Except CompressError JsonMapping) :=
  match (realFields data).getLast? with
  | none => none
  | some last =>
    let remaining := data.filter fun p => p.1 ≠ last.1
    if remaining = [] then some (.ok remaining)
    else
      match plusOne lib ((remaining.lookup truncatedKeys).getD (.int 0)) with
      | .error e => some (.error e)
      | .ok value => some (.ok (dictSet remaining truncatedKeys value))

variable {lib} in
theorem dropLastKey_cases {data data' : JsonMapping} (h : dropLastKey lib data = some (.ok data')) :
    ∃ last, (realFields data).getLast? = some last ∧
      (((data.filter fun p => p.1 ≠ last.1) = [] ∧ data' = []) ∨
        ∃ value, plusOne lib (((data.filter fun p => p.1 ≠ last.1).lookup truncatedKeys).getD (.int 0)) =
          .ok value ∧ data' = dictSet (data.filter fun p => p.1 ≠ last.1) truncatedKeys value) := by
  unfold dropLastKey at h
  cases hlast : (realFields data).getLast? with
  | none =>
    rw [hlast] at h
    cases h
  | some last =>
    rw [hlast] at h
    refine ⟨last, rfl, ?_⟩
    simp only at h
    by_cases hempty : (data.filter fun p => p.1 ≠ last.1) = []
    · rw [if_pos hempty] at h
      cases h
      exact .inl ⟨hempty, hempty⟩
    · rw [if_neg hempty] at h
      cases hvalue : plusOne lib
        (((data.filter fun p => p.1 ≠ last.1).lookup truncatedKeys).getD (.int 0)) with
      | error e =>
        rw [hvalue] at h
        cases h
      | ok value =>
        rw [hvalue] at h
        cases h
        exact .inr ⟨value, rfl, rfl⟩

theorem realFields_filter (data : JsonMapping) (key : String) :
    realFields (data.filter fun p => p.1 ≠ key) = (realFields data).filter fun p => p.1 ≠ key := by
  rw [realFields, realFields, List.filter_filter, List.filter_filter]
  exact List.filter_congr fun p _ => Bool.and_comm _ _

/-- The marker is none of the keys that can be dropped. -/
theorem realFields_dictSet (data : JsonMapping) (value : Json) :
    realFields (dictSet data truncatedKeys value) = realFields data := by
  by_cases h : truncatedKeys ∈ data.map Prod.fst
  · rw [dictSet_present h, realFields, realFields]
    clear h
    induction data with
    | nil => rfl
    | cons p data ih =>
      by_cases hp : p.1 = truncatedKeys
      · simpa [hp] using ih
      · simpa [hp] using ih
  · rw [dictSet_fresh h, realFields, realFields, List.filter_append]
    simp

theorem realFields_dropLastKey {data data' : JsonMapping} (h : dropLastKey lib data = some (.ok data')) :
    ∃ last, (realFields data).getLast? = some last ∧
      realFields data' = (realFields data).filter fun p => p.1 ≠ last.1 := by
  obtain ⟨last, hlast, ⟨hempty, rfl⟩ | ⟨value, -, rfl⟩⟩ := dropLastKey_cases h
  · refine ⟨last, hlast, ?_⟩
    rw [← realFields_filter, hempty]
  · refine ⟨last, hlast, ?_⟩
    rw [realFields_dictSet, realFields_filter]

theorem length_dropLastKey {data data' : JsonMapping} (h : dropLastKey lib data = some (.ok data')) :
    (realFields data').length < (realFields data).length := by
  obtain ⟨last, hlast, hreal⟩ := realFields_dropLastKey lib h
  rw [hreal]
  refine List.length_filter_lt_length_iff_exists.mpr ⟨last, List.mem_of_getLast? hlast, ?_⟩
  simp

/-- The loop of `_compress_json`: the object that is returned, if one is. -/
def shrink (limit : Int) (data : JsonMapping) : Except CompressError (Option JsonMapping) :=
  match dumpsJson lib (.obj data) with
  | .error e => .error e
  | .ok rendered =>
    if (rendered.length : Int) ≤ limit then .ok (some data)
    else
      match _h : dropLastKey lib data with
      | none => .ok none
      | some (.error e) => .error e
      | some (.ok data') => shrink limit data'
termination_by (realFields data).length
decreasing_by exact length_dropLastKey lib _h

/-- What `_compress_json` makes of the content before it is written: none is the fall back to plain
truncation. -/
def compressed (content : String) (limit : Int) : Except CompressError (Option Json) :=
  match lib.loads content with
  | none => .ok none
  | some data =>
    match cap data with
    | .obj fields =>
      match shrink lib limit fields with
      | .error e => .error e
      | .ok result => .ok (result.map .obj)
    | data =>
      match dumpsJson lib data with
      | .error e => .error e
      | .ok rendered => .ok (if (rendered.length : Int) ≤ limit then some data else none)

def compressJson (content : String) (limit : Int) : Except CompressError (Option String) :=
  match compressed lib content limit with
  | .error e => .error e
  | .ok result => .ok (result.map (JsonText.dumps lib.floats))

/-- `content[:n]`. -/
def sliceTo (content : String) (n : Int) : String :=
  String.ofList (content.toList.take (if 0 ≤ n then n.toNat else (content.length + n).toNat))

def looksLikeJson (content : String) : Bool :=
  match (content.toList.dropWhile Text.isSpace).head? with
  | some c => c = '\x7b' || c = '['
  | none => false

def headAndTail (content : String) (limit : Nat) : String :=
  let head := limit / 2
  let tail := limit - head - 1
  if tail = 0 then sliceTo content limit
  else String.ofList (content.toList.take head ++ '…' :: content.toList.drop (content.length - tail))

def compress (enableCompression : Bool) (content : String) (limit : Int) :
    Except CompressError String :=
  if (content.length : Int) ≤ limit then .ok content
  else if limit ≤ 3 then .ok (sliceTo content limit)
  else if enableCompression && looksLikeJson content then
    match compressJson lib content limit with
    | .error e => .error e
    | .ok (some result) => .ok result
    | .ok none => .ok (headAndTail content limit.toNat)
  else .ok (headAndTail content limit.toNat)

/-! ## What the loop keeps -/

variable {lib} {limit : Int} {data fields : JsonMapping}

def Fits (lib : JsonLibrary) (limit : Int) (data : JsonMapping) : Prop :=
  ((JsonText.dumps lib.floats (.obj data)).length : Int) ≤ limit

theorem shrink_eq : shrink lib limit data =
    match dumpsJson lib (.obj data) with
    | .error e => .error e
    | .ok rendered =>
      if (rendered.length : Int) ≤ limit then .ok (some data)
      else
        match dropLastKey lib data with
        | none => .ok none
        | some (.error e) => .error e
        | some (.ok data') => shrink lib limit data' := by
  rw [shrink]
  split
  · rfl
  · split
    · rfl
    · split <;> simp_all

theorem dumpsJson_eq_ok {value : Json} {rendered : String} :
    dumpsJson lib value = .ok rendered ↔
      lib.refuses value = false ∧ rendered = JsonText.dumps lib.floats value := by
  unfold dumpsJson
  cases lib.refuses value <;> simp [eq_comm]

theorem shrink_refused (h : lib.refuses (.obj data) = true) :
    shrink lib limit data = .error .jsonCodecError := by
  rw [shrink_eq, dumpsJson, if_pos h]

theorem shrink_fits (h : lib.refuses (.obj data) = false) (hfits : Fits lib limit data) :
    shrink lib limit data = .ok (some data) := by
  rw [shrink_eq, dumpsJson_eq_ok.mpr ⟨h, rfl⟩]
  exact if_pos hfits

theorem shrink_drops (h : lib.refuses (.obj data) = false) (hfits : ¬Fits lib limit data) :
    shrink lib limit data =
      match dropLastKey lib data with
      | none => .ok none
      | some (.error e) => .error e
      | some (.ok data') => shrink lib limit data' := by
  rw [shrink_eq, dumpsJson_eq_ok.mpr ⟨h, rfl⟩]
  exact if_neg hfits

/-- What is returned fits, and keeps what every step does. -/
theorem shrink_run {P : JsonMapping → Prop}
    (hstep : ∀ data data', P data → dropLastKey lib data = some (.ok data') → P data')
    (hdata : P data) (h : shrink lib limit data = .ok (some fields)) : P fields ∧ Fits lib limit fields := by
  induction hn : (realFields data).length using Nat.strong_induction_on generalizing data with
  | _ n ih =>
    cases hrefused : lib.refuses (.obj data) with
    | true =>
      rw [shrink_refused hrefused] at h
      cases h
    | false =>
      by_cases hfits : Fits lib limit data
      · rw [shrink_fits hrefused hfits] at h
        cases h
        exact ⟨hdata, hfits⟩
      · rw [shrink_drops hrefused hfits] at h
        cases hdrop : dropLastKey lib data with
        | none =>
          rw [hdrop] at h
          cases h
        | some step =>
          rw [hdrop] at h
          cases step with
          | error e => cases h
          | ok data' =>
            have hlt := length_dropLastKey lib hdrop
            exact ih _ (hn ▸ hlt) (hstep data data' hdata hdrop) h rfl

/-- Nothing is raised while what every step keeps lets every step be taken. -/
theorem shrink_total {P : JsonMapping → Prop}
    (hstep : ∀ data data', P data → dropLastKey lib data = some (.ok data') → P data')
    (hdumps : ∀ data, P data → lib.refuses (.obj data) = false)
    (hdrop : ∀ data e, P data → dropLastKey lib data ≠ some (.error e)) (hdata : P data) :
    ∃ result, shrink lib limit data = .ok result := by
  induction hn : (realFields data).length using Nat.strong_induction_on generalizing data with
  | _ n ih =>
    have hrefused := hdumps data hdata
    by_cases hfits : Fits lib limit data
    · exact ⟨_, shrink_fits hrefused hfits⟩
    · rw [shrink_drops hrefused hfits]
      cases hd : dropLastKey lib data with
      | none => exact ⟨none, rfl⟩
      | some step =>
        cases step with
        | error e => exact absurd hd (hdrop data e hdata)
        | ok data' =>
          have hlt := length_dropLastKey lib hd
          exact ih _ (hn ▸ hlt) (hstep data data' hdata hd) rfl

end Library

end UniversalAgent.Context
