import UniversalAgent.Foundation.Except

/-!
# Core — Json

`JsonValue` and the JSON codec (`core/json_codec.py`). A mapping is the list of its items in
insertion order, as Python's `dict` iterates; a float is a number or one of the values that
no JSON text has.

The serializer is `orjson`, which is not part of the repository: `JsonCodec` is what the
program relies on. `to_json_value` sends a value through JSON text and back; that is the
identity on what JSON can hold, and never on a value with a non-finite float or with an
integer beyond 64 bits in it.
-/

namespace UniversalAgent.Core

open UniversalAgent.Foundation

abbrev Instant := Int

inductive PyFloat where
  | finite (q : ℚ)
  | infinite (negative : Bool)
  | nan
deriving DecidableEq

/-- `JsonValue`. -/
inductive Json where
  | null
  | bool (b : Bool)
  | int (i : Int)
  | float (x : PyFloat)
  | str (s : String)
  | arr (items : List Json)
  | obj (fields : List (String × Json))

/-- `JsonMapping`: the items of a mapping with string keys, in order. -/
abbrev JsonMapping := List (String × Json)

namespace Json

mutual

/-- Equality of values is decidable, by recursion along the first one. -/
def decEq : (a b : Json) → Decidable (a = b)
  | .null, b => match b with
      | .null => .isTrue rfl
      | .bool _ | .int _ | .float _ | .str _ | .arr _ | .obj _ => .isFalse nofun
  | .bool x, b => match b with
      | .bool y => decidable_of_iff (x = y) (by simp)
      | .null | .int _ | .float _ | .str _ | .arr _ | .obj _ => .isFalse nofun
  | .int x, b => match b with
      | .int y => decidable_of_iff (x = y) (by simp)
      | .null | .bool _ | .float _ | .str _ | .arr _ | .obj _ => .isFalse nofun
  | .float x, b => match b with
      | .float y => decidable_of_iff (x = y) (by simp)
      | .null | .bool _ | .int _ | .str _ | .arr _ | .obj _ => .isFalse nofun
  | .str x, b => match b with
      | .str y => decidable_of_iff (x = y) (by simp)
      | .null | .bool _ | .int _ | .float _ | .arr _ | .obj _ => .isFalse nofun
  | .arr xs, b => match b with
      | .arr ys => @decidable_of_iff _ (xs = ys) (by simp) (decEqItems xs ys)
      | .null | .bool _ | .int _ | .float _ | .str _ | .obj _ => .isFalse nofun
  | .obj xs, b => match b with
      | .obj ys => @decidable_of_iff _ (xs = ys) (by simp) (decEqFields xs ys)
      | .null | .bool _ | .int _ | .float _ | .str _ | .arr _ => .isFalse nofun

def decEqItems : (xs ys : List Json) → Decidable (xs = ys)
  | [], [] => .isTrue rfl
  | [], _ :: _ => .isFalse nofun
  | _ :: _, [] => .isFalse nofun
  | x :: xs, y :: ys =>
    @decidable_of_iff _ (x = y ∧ xs = ys) (by simp)
      (@instDecidableAnd _ _ (decEq x y) (decEqItems xs ys))

def decEqFields : (xs ys : List (String × Json)) → Decidable (xs = ys)
  | [], [] => .isTrue rfl
  | [], _ :: _ => .isFalse nofun
  | _ :: _, [] => .isFalse nofun
  | (k, x) :: xs, (l, y) :: ys =>
    @decidable_of_iff _ ((k = l ∧ x = y) ∧ xs = ys) (by simp)
      (@instDecidableAnd _ _ (@instDecidableAnd _ _ inferInstance (decEq x y))
        (decEqFields xs ys))

end

instance : DecidableEq Json := decEq

/-! ## What JSON can hold -/

def isInt64 (i : Int) : Bool := decide (-(2 ^ 63) ≤ i ∧ i < 2 ^ 64)

mutual

/-- No non-finite float and no integer beyond 64 bits anywhere in the value. -/
def isPlain : Json → Bool
  | .null | .bool _ | .str _ => true
  | .int i => isInt64 i
  | .float x => match x with
      | .finite _ => true
      | .infinite _ | .nan => false
  | .arr items => arePlain items
  | .obj fields => fieldsPlain fields

def arePlain : List Json → Bool
  | [] => true
  | x :: xs => x.isPlain && arePlain xs

def fieldsPlain : List (String × Json) → Bool
  | [] => true
  | (_, x) :: xs => x.isPlain && fieldsPlain xs

end

/-! ## Equality of Python values -/

def number? : Json → Option PyFloat
  | .bool b => some (.finite (if b then 1 else 0))
  | .int i => some (.finite i)
  | .float x => some x
  | .null | .str _ | .arr _ | .obj _ => none

/-- `==` of two numbers: a NaN is equal to none. -/
def sameNumber : PyFloat → PyFloat → Bool
  | .finite p, .finite q => p = q
  | .infinite s, .infinite t => s = t
  | _, _ => false

mutual

/-- `==`: `1`, `1.0` and `True` are equal, mappings whatever their order. -/
def pyEq : Json → Json → Bool
  | .null, b => b = .null
  | .bool x, b => (b.number?).any (sameNumber (.finite (if x then 1 else 0)))
  | .int i, b => (b.number?).any (sameNumber (.finite i))
  | .float x, b => (b.number?).any (sameNumber x)
  | .str s, b => b = .str s
  | .arr xs, b => match b with
      | .arr ys => pyEqItems xs ys
      | .null | .bool _ | .int _ | .float _ | .str _ | .obj _ => false
  | .obj xs, b => match b with
      | .obj ys => xs.length = ys.length && pyEqFields xs ys
      | .null | .bool _ | .int _ | .float _ | .str _ | .arr _ => false

def pyEqItems : List Json → List Json → Bool
  | [], ys => ys = []
  | x :: xs, ys => match ys with
      | [] => false
      | y :: ys => pyEq x y && pyEqItems xs ys

def pyEqFields : List (String × Json) → List (String × Json) → Bool
  | [], _ => true
  | (k, x) :: xs, ys => (ys.lookup k).any (fun y => pyEq x y) && pyEqFields xs ys

end

/-- The value under a key, if the value is an object with that key. -/
def field? : Json → String → Option Json
  | .obj fields, key => fields.lookup key
  | _, _ => none

end Json

/-! ## Dictionaries as item lists -/

section Dict

variable {α : Type}

/-- `d[key] = value`: in place when the key is present, appended otherwise. -/
def dictSet (d : List (String × α)) (key : String) (value : α) : List (String × α) :=
  if d.any (fun p => p.1 = key) then d.map fun p => if p.1 = key then (key, value) else p
  else d ++ [(key, value)]

/-- `d.update(items)`. -/
def dictUpdate (d items : List (String × α)) : List (String × α) :=
  items.foldl (fun acc p => dictSet acc p.1 p.2) d

end Dict

/-! ## The serializer -/

inductive JsonCodecError where
  | notSerializable
deriving DecidableEq, Repr

structure JsonCodec where
  /-- `to_json_value`: to JSON text and back. -/
  toJsonValue : Json → Except JsonCodecError Json
  /-- `dumps_json`: the text with sorted keys. -/
  dumpsJson : Json → String
  toJsonValue_plain : ∀ v : Json, v.isPlain = true → toJsonValue v = .ok v
  /-- What comes back is plain: a non-finite float comes back as null, an integer beyond 64 bits
  does not come back. -/
  isPlain_toJsonValue : ∀ v w : Json, toJsonValue v = .ok w → w.isPlain = true
  /-- A mapping goes through item by item. -/
  toJsonValue_obj : ∀ fields, toJsonValue (.obj fields) = do
    pure (.obj (← fields.mapM fun p => do pure (p.1, ← toJsonValue p.2)))

namespace JsonCodec

variable (codec : JsonCodec)

theorem toJsonValue_eq_self {v : Json} : codec.toJsonValue v = .ok v ↔ v.isPlain = true :=
  ⟨codec.isPlain_toJsonValue v v, codec.toJsonValue_plain v⟩

end JsonCodec

/-! ## A serializer -/

namespace Json

mutual

/-- The compact text of a plain value, its keys sorted; texts are quoted without escapes. -/
def render : Json → String
  | .null => "null"
  | .bool b => if b then "true" else "false"
  | .int i => toString i
  | .float x => match x with
      | .finite q => toString q
      | .infinite _ | .nan => "null"
  | .str s => "\"" ++ s ++ "\""
  | .arr items => "[" ++ ",".intercalate (renderItems items) ++ "]"
  | .obj fields =>
    "\x7b" ++ ",".intercalate ((renderFields fields).insertionSort (· ≤ ·)) ++ "\x7d"

def renderItems : List Json → List String
  | [] => []
  | x :: xs => x.render :: renderItems xs

def renderFields : List (String × Json) → List String
  | [] => []
  | (k, x) :: xs => ("\"" ++ k ++ "\":" ++ x.render) :: renderFields xs

end

end Json

theorem Json.fieldsPlain_eq_all (fields : JsonMapping) :
    Json.fieldsPlain fields = fields.all fun p => p.2.isPlain := by
  induction fields with
  | nil => rfl
  | cons p fields ih =>
    obtain ⟨k, v⟩ := p
    simp [Json.fieldsPlain, ih]

/-- `toJsonValue` of the serializer that accepts the plain values only. -/
def plainJsonValue (v : Json) : Except JsonCodecError Json :=
  if v.isPlain then .ok v else .error .notSerializable

theorem plainJsonValue_eq_ok {v w : Json} :
    plainJsonValue v = .ok w ↔ w = v ∧ v.isPlain = true := by
  cases hv : v.isPlain <;> simp [plainJsonValue, hv, eq_comm]

theorem plainJsonValue_obj (fields : JsonMapping) :
    plainJsonValue (.obj fields)
      = (do pure (.obj (← fields.mapM fun p => do pure (p.1, ← plainJsonValue p.2)))) := by
  have hitem : ∀ p : String × Json,
      (do pure (p.1, ← plainJsonValue p.2)) = .ok p ↔ p.2.isPlain = true := by
    intro p
    rw [Except.bind_mk_eq_ok (fun v => (p.1, v)) Prod.snd (fun _ => rfl) rfl,
      plainJsonValue_eq_ok, and_iff_right rfl]
  cases hp : Json.fieldsPlain fields with
  | true =>
    have hm := Except.mapM_eq_self.mpr fun p hmem =>
      (hitem p).mpr (List.all_eq_true.mp (Json.fieldsPlain_eq_all fields ▸ hp) p hmem)
    rw [hm, plainJsonValue, Json.isPlain, if_pos hp]
    rfl
  | false =>
    rw [plainJsonValue, Json.isPlain, hp]
    cases hm : (fields.mapM fun p => do pure (p.1, ← plainJsonValue p.2)) with
    | error e =>
      cases e
      rfl
    | ok ys =>
      have hall : (fields.all fun p => p.2.isPlain) = true := by
        refine List.all_eq_true.mpr fun p hmem => ?_
        obtain ⟨y, -, hy⟩ := Except.exists_of_mapM_eq_ok hm p hmem
        obtain ⟨v, hv, -⟩ := Except.bind_eq_ok.mp hy
        exact (plainJsonValue_eq_ok.mp hv).2
      rw [← Json.fieldsPlain_eq_all, hp] at hall
      cases hall

def plainCodec : JsonCodec where
  toJsonValue := plainJsonValue
  dumpsJson := Json.render
  toJsonValue_plain v h := plainJsonValue_eq_ok.mpr ⟨rfl, h⟩
  isPlain_toJsonValue v w h := by
    obtain ⟨rfl, hv⟩ := plainJsonValue_eq_ok.mp h
    exact hv
  toJsonValue_obj := plainJsonValue_obj

/-- `datetime.isoformat` and `parse_iso_datetime` (`core/time.py`, on `dateutil`). -/
structure IsoFormat where
  isoformat : Instant → String
  isoparse : String → Option Instant
  isoparse_isoformat : ∀ t, isoparse (isoformat t) = some t

end UniversalAgent.Core
