import UniversalAgent.Core.Dictionaries
import UniversalAgent.Security.CredentialText

/-!
# Security — Redaction

The redactor and the scanner for secrets (`security/secrets.py`), over arbitrary Python values. The
redactor turns a mapping into JSON: a value under a sensitive key becomes the replacement, text loses
its credentials, and an object that is neither a scalar nor a container becomes its `str`.

That `str` is not redacted, which is the one thing that can go wrong: the scanner finds nothing in
redacted values, and redacting them again changes nothing, exactly when no such object is rendered
to a text with a credential in it.
-/

namespace UniversalAgent.Security

open UniversalAgent.Core UniversalAgent.Foundation

/-! ## Python values -/

/-- A Python value, as far as redactor and scanner tell values apart. Of a key of a mapping they use
its `str`; `other` is an object that is neither a scalar nor a container, by its `str`. -/
inductive PyValue where
  | none
  | bool (b : Bool)
  | int (i : Int)
  | float (x : PyFloat)
  | str (s : String)
  | mapping (items : List (String × PyValue))
  | sequence (items : List PyValue)
  | other (rendered : String)

namespace PyValue

mutual

def ofJson : Json → PyValue
  | .null => .none
  | .bool b => .bool b
  | .int i => .int i
  | .float x => .float x
  | .str s => .str s
  | .arr items => .sequence (ofItems items)
  | .obj fields => .mapping (ofFields fields)

def ofItems : List Json → List PyValue
  | [] => []
  | x :: xs => ofJson x :: ofItems xs

def ofFields : List (String × Json) → List (String × PyValue)
  | [] => []
  | (k, x) :: xs => (k, ofJson x) :: ofFields xs

end

theorem ofItems_eq_map (items : List Json) : ofItems items = items.map ofJson := by
  induction items with
  | nil => rfl
  | cons x xs ih => rw [ofItems, ih, List.map_cons]

theorem ofFields_eq_map (fields : List (String × Json)) :
    ofFields fields = fields.map fun p => (p.1, ofJson p.2) := by
  induction fields with
  | nil => rfl
  | cons p fields ih =>
    obtain ⟨k, x⟩ := p
    rw [ofFields, ih, List.map_cons]

section Induction

variable {P : PyValue → Prop} (onNone : P .none) (onBool : ∀ b, P (.bool b))
variable (onInt : ∀ i, P (.int i)) (onFloat : ∀ x, P (.float x)) (onStr : ∀ s, P (.str s))
variable (onMapping : ∀ items, (∀ p ∈ items, P p.2) → P (.mapping items))
variable (onSequence : ∀ items, (∀ x ∈ items, P x) → P (.sequence items))
variable (onOther : ∀ s, P (.other s))
include onNone onBool onInt onFloat onStr onMapping onSequence onOther

/-- Induction on Python values, with a hypothesis for each value in a container. -/
@[elab_as_elim]
theorem induct (v : PyValue) : P v :=
  @PyValue.rec P (fun items => ∀ p ∈ items, P p.2) (fun items => ∀ x ∈ items, P x)
    (fun p => P p.2) onNone onBool onInt onFloat onStr onMapping onSequence onOther
    (fun _ h => absurd h List.not_mem_nil)
    (fun _ _ hp hps q hq => (List.mem_cons.mp hq).elim (fun he => he ▸ hp) (hps q))
    (fun _ h => absurd h List.not_mem_nil)
    (fun _ _ hx hxs y hy => (List.mem_cons.mp hy).elim (fun he => he ▸ hx) (hxs y))
    (fun _ _ hx => hx) v

end Induction

end PyValue

/-! ## Sensitive keys -/

def redactedSecretValues : List String := ["", "<redacted>", "[REDACTED]", "***"]

def publicTokenKeys : List String :=
  ["cached_tokens", "input_tokens", "model_input_tokens", "model_output_tokens",
    "model_total_tokens", "output_tokens", "total_tokens"]

def secretReferenceContainerKeys : List String :=
  ["secret_ref", "secret_refs", "secret_reference", "secret_references", "secrets"]

def sensitiveKeyParts : List String :=
  ["api_key", "apikey", "access_key", "authorization", "credential", "password", "private_key",
    "secret", "token"]

section Redaction

variable (W : WordClass) (lower : String → String)

/-- `is_sensitive_key`, with `str.lower` as a parameter. -/
def isSensitiveKey (key : String) : Bool :=
  let normalized := (lower key).toList.map fun c => if c = '-' then '_' else c
  if (publicTokenKeys ++ secretReferenceContainerKeys).any fun k => k.toList = normalized then false
  else sensitiveKeyParts.any fun part => decide (part.toList <:+: normalized)

/-! ## The redactor -/

variable (replacement : String)

mutual

def redactSensitiveValue (key : String) (value : PyValue) : Json :=
  if isSensitiveKey lower key then .str replacement
  else
    match value with
    | .str s => .str (redactSensitiveText W replacement s)
    | .none => .null
    | .bool b => .bool b
    | .int i => .int i
    | .float x => .float x
    | .mapping items => .obj (dictUpdate [] (redactFields items))
    | .sequence items => .arr (redactItems key items)
    | .other rendered => .str rendered

def redactItems (key : String) : List PyValue → List Json
  | [] => []
  | x :: xs => redactSensitiveValue key x :: redactItems key xs

def redactFields : List (String × PyValue) → List (String × Json)
  | [] => []
  | (k, x) :: xs => (k, redactSensitiveValue k x) :: redactFields xs

end

def redactSensitiveMapping (values : List (String × PyValue)) : JsonMapping :=
  dictUpdate [] (redactFields W lower replacement values)

section Redactor

variable {W lower replacement}

theorem redactItems_eq_map (key : String) (items : List PyValue) :
    redactItems W lower replacement key items =
      items.map (redactSensitiveValue W lower replacement key) := by
  induction items with
  | nil => rfl
  | cons x xs ih => rw [redactItems, ih, List.map_cons]

theorem redactFields_eq_map (items : List (String × PyValue)) :
    redactFields W lower replacement items =
      items.map fun p => (p.1, redactSensitiveValue W lower replacement p.1 p.2) := by
  induction items with
  | nil => rfl
  | cons p items ih =>
    obtain ⟨k, x⟩ := p
    rw [redactFields, ih, List.map_cons]

/-- The items of a redacted mapping: those that no later one replaces, redacted. -/
theorem mem_redactSensitiveMapping {items : List (String × PyValue)} {p : String × Json} :
    p ∈ redactSensitiveMapping W lower replacement items ↔
      ∃ q ∈ survivors items, (q.1, redactSensitiveValue W lower replacement q.1 q.2) = p := by
  rw [redactSensitiveMapping, redactFields_eq_map, mem_dictUpdate_nil, survivors_map, List.mem_map]

theorem nodup_redactSensitiveMapping (items : List (String × PyValue)) :
    ((redactSensitiveMapping W lower replacement items).map Prod.fst).Nodup :=
  nodup_dictUpdate List.nodup_nil

theorem redactSensitiveValue_secret {key : String} (h : isSensitiveKey lower key = true)
    (value : PyValue) : redactSensitiveValue W lower replacement key value = .str replacement := by
  unfold redactSensitiveValue
  exact if_pos h

theorem redactSensitiveValue_mapping {key : String} (h : isSensitiveKey lower key = false)
    (items : List (String × PyValue)) :
    redactSensitiveValue W lower replacement key (.mapping items) =
      .obj (redactSensitiveMapping W lower replacement items) :=
  if_neg (by simp [h])

theorem redactSensitiveValue_sequence {key : String} (h : isSensitiveKey lower key = false)
    (items : List PyValue) :
    redactSensitiveValue W lower replacement key (.sequence items) =
      .arr (items.map (redactSensitiveValue W lower replacement key)) := by
  rw [← redactItems_eq_map]
  exact if_neg (by simp [h])

theorem redactSensitiveValue_str {key : String} (h : isSensitiveKey lower key = false)
    (s : String) :
    redactSensitiveValue W lower replacement key (.str s) =
      .str (redactSensitiveText W replacement s) :=
  if_neg (by simp [h])

theorem redactSensitiveValue_other {key : String} (h : isSensitiveKey lower key = false)
    (s : String) : redactSensitiveValue W lower replacement key (.other s) = .str s :=
  if_neg (by simp [h])

/-- `None`, a truth value or a number. -/
def IsScalar : Json → Prop
  | .null | .bool _ | .int _ | .float _ => True
  | .str _ | .arr _ | .obj _ => False

theorem redactSensitiveValue_scalar {key : String} (h : isSensitiveKey lower key = false)
    {scalar : Json} (hs : IsScalar scalar) :
    redactSensitiveValue W lower replacement key (.ofJson scalar) = scalar := by
  cases scalar with
  | null | bool | int | float => exact if_neg (by simp [h])
  | str | arr | obj => exact hs.elim

/-! ### Values under sensitive keys -/

mutual

inductive SameButSecrets (lower : String → String) : PyValue → PyValue → Prop where
  | same (v : PyValue) : SameButSecrets lower v v
  | mapping {xs ys : List (String × PyValue)} (h : SameFields lower xs ys) :
      SameButSecrets lower (.mapping xs) (.mapping ys)
  | sequence {xs ys : List PyValue} (h : SameItems lower xs ys) :
      SameButSecrets lower (.sequence xs) (.sequence ys)

inductive SameItems (lower : String → String) : List PyValue → List PyValue → Prop where
  | nil : SameItems lower [] []
  | cons {x y : PyValue} {xs ys : List PyValue} (h : SameButSecrets lower x y)
      (hs : SameItems lower xs ys) : SameItems lower (x :: xs) (y :: ys)

inductive SameFields (lower : String → String) :
    List (String × PyValue) → List (String × PyValue) → Prop where
  | nil : SameFields lower [] []
  | secret {key : String} {x y : PyValue} {xs ys : List (String × PyValue)}
      (h : isSensitiveKey lower key = true) (hs : SameFields lower xs ys) :
      SameFields lower ((key, x) :: xs) ((key, y) :: ys)
  | cons {key : String} {x y : PyValue} {xs ys : List (String × PyValue)}
      (h : SameButSecrets lower x y) (hs : SameFields lower xs ys) :
      SameFields lower ((key, x) :: xs) ((key, y) :: ys)

end

mutual

theorem SameButSecrets.redacted {x y : PyValue} (h : SameButSecrets lower x y) (key : String) :
    redactSensitiveValue W lower replacement key x =
      redactSensitiveValue W lower replacement key y := by
  cases hs : isSensitiveKey lower key with
  | true => rw [redactSensitiveValue_secret hs, redactSensitiveValue_secret hs]
  | false =>
    cases h with
    | same v => rfl
    | mapping h =>
      rw [redactSensitiveValue_mapping hs, redactSensitiveValue_mapping hs,
        redactSensitiveMapping, redactSensitiveMapping, h.redacted]
    | sequence h =>
      rw [redactSensitiveValue_sequence hs, redactSensitiveValue_sequence hs,
        ← redactItems_eq_map, ← redactItems_eq_map, h.redacted]

theorem SameItems.redacted {xs ys : List PyValue} (h : SameItems lower xs ys) (key : String) :
    redactItems W lower replacement key xs = redactItems W lower replacement key ys := by
  cases h with
  | nil => rfl
  | cons h hs => rw [redactItems, redactItems, h.redacted, hs.redacted]

theorem SameFields.redacted {xs ys : List (String × PyValue)} (h : SameFields lower xs ys) :
    redactFields W lower replacement xs = redactFields W lower replacement ys := by
  cases h with
  | nil => rfl
  | secret h hs =>
    rw [redactFields, redactFields, redactSensitiveValue_secret h,
      redactSensitiveValue_secret h, hs.redacted]
  | cons h hs => rw [redactFields, redactFields, h.redacted, hs.redacted]

end

end Redactor

/-! ## The scanner -/

structure SecretFinding where
  path : String
  reason : String
deriving DecidableEq

mutual

def containsUnredactedScalar : PyValue → Bool
  | .none => false
  | .str s => !redactedSecretValues.contains (Text.strip s)
  | .bool _ | .int _ | .float _ => true
  | .mapping items => anyFieldUnredacted items
  | .sequence items => anyItemUnredacted items
  | .other rendered => !(Text.strip rendered == "")

def anyItemUnredacted : List PyValue → Bool
  | [] => false
  | x :: xs => containsUnredactedScalar x || anyItemUnredacted xs

def anyFieldUnredacted : List (String × PyValue) → Bool
  | [] => false
  | (_, x) :: xs => containsUnredactedScalar x || anyFieldUnredacted xs

end

mutual

def scanValue (path : String) : PyValue → List SecretFinding
  | .mapping items => scanFields path items
  | .sequence items => scanItems path 0 items
  | .str s =>
    if redactSensitiveText W redactedMark s ≠ s then
      [⟨path, "text contains unredacted credential"⟩]
    else []
  | .none | .bool _ | .int _ | .float _ | .other _ => []

def scanItems (path : String) (index : Nat) : List PyValue → List SecretFinding
  | [] => []
  | x :: xs =>
    scanValue (path ++ "[" ++ toString index ++ "]") x ++ scanItems path (index + 1) xs

def scanFields (path : String) : List (String × PyValue) → List SecretFinding
  | [] => []
  | (k, x) :: xs =>
    let childPath := if path = "" then k else path ++ "." ++ k
    (if isSensitiveKey lower k && containsUnredactedScalar x then
      [⟨childPath, "sensitive key contains unredacted value"⟩]
    else scanValue childPath x) ++ scanFields path xs

end

def scanForSecrets (value : PyValue) : List SecretFinding := scanValue W lower "$" value

section Redacted

variable {W lower replacement}

/-! ## What the scanner does not report -/

/-- The scanner finds nothing in a value: it reads its text as redacted, and no value under a
sensitive key has a scalar that is not redacted. -/
def Clean (W : WordClass) (lower : String → String) (value : PyValue) : Prop :=
  ∀ path, scanValue W lower path value = []

theorem scanItems_eq_nil {items : List PyValue}
    (h : ∀ x ∈ items, ∀ path, scanValue W lower path x = [] ↔ Clean W lower x) (path : String)
    (index : Nat) : scanItems W lower path index items = [] ↔ ∀ x ∈ items, Clean W lower x := by
  induction items generalizing index with
  | nil => simp [scanItems]
  | cons x xs ih =>
    rw [scanItems, List.append_eq_nil_iff, h x List.mem_cons_self,
      ih fun y hy => h y (List.mem_cons_of_mem _ hy), List.forall_mem_cons]

theorem scanFields_eq_nil {items : List (String × PyValue)}
    (h : ∀ p ∈ items, ∀ path, scanValue W lower path p.2 = [] ↔ Clean W lower p.2) (path : String) :
    scanFields W lower path items = [] ↔ ∀ p ∈ items,
      (isSensitiveKey lower p.1 && containsUnredactedScalar p.2) = false ∧ Clean W lower p.2 := by
  induction items with
  | nil => simp [scanFields]
  | cons p items ih =>
    obtain ⟨k, x⟩ := p
    have hx := h (k, x) List.mem_cons_self
    rw [scanFields, List.append_eq_nil_iff, ih fun q hq => h q (List.mem_cons_of_mem _ hq),
      List.forall_mem_cons]
    refine and_congr_left fun _ => ?_
    cases hs : isSensitiveKey lower k && containsUnredactedScalar x with
    | true => simp
    | false => simp only [Bool.false_eq_true, if_false, true_and, hx]

/-- Whether the scanner reports anything does not depend on where it looks. -/
theorem scanValue_eq_nil (value : PyValue) (path : String) :
    scanValue W lower path value = [] ↔ Clean W lower value := by
  induction value using PyValue.induct generalizing path with
  | onMapping items ih =>
    refine ⟨fun h p => ?_, fun h => h path⟩
    exact (scanFields_eq_nil ih p).mpr ((scanFields_eq_nil ih path).mp h)
  | onSequence items ih =>
    refine ⟨fun h p => ?_, fun h => h path⟩
    exact (scanItems_eq_nil ih p 0).mpr ((scanItems_eq_nil ih path 0).mp h)
  | onStr s =>
    refine ⟨fun h p => ?_, fun h => h path⟩
    by_cases hs : redactSensitiveText W redactedMark s ≠ s
    · cases (if_pos hs).symm.trans h
    · exact if_neg hs
  | onNone => exact ⟨fun _ _ => rfl, fun _ => rfl⟩
  | onBool b => exact ⟨fun _ _ => rfl, fun _ => rfl⟩
  | onInt i => exact ⟨fun _ _ => rfl, fun _ => rfl⟩
  | onFloat x => exact ⟨fun _ _ => rfl, fun _ => rfl⟩
  | onOther s => exact ⟨fun _ _ => rfl, fun _ => rfl⟩

theorem clean_mapping {items : List (String × PyValue)} :
    Clean W lower (.mapping items) ↔ ∀ p ∈ items,
      (isSensitiveKey lower p.1 && containsUnredactedScalar p.2) = false ∧ Clean W lower p.2 := by
  rw [← scanValue_eq_nil _ "$"]
  exact scanFields_eq_nil (fun p _ => scanValue_eq_nil p.2) "$"

theorem clean_sequence {items : List PyValue} :
    Clean W lower (.sequence items) ↔ ∀ x ∈ items, Clean W lower x := by
  rw [← scanValue_eq_nil _ "$"]
  exact scanItems_eq_nil (fun x _ => scanValue_eq_nil x) "$" 0

theorem clean_str {s : String} :
    Clean W lower (.str s) ↔ redactSensitiveText W redactedMark s = s := by
  rw [← scanValue_eq_nil _ "$"]
  show (if redactSensitiveText W redactedMark s ≠ s then _ else _) = [] ↔ _
  split
  · rename_i h
    exact iff_of_false (List.cons_ne_nil _ _) h
  · rename_i h
    exact iff_of_true rfl (not_not.mp h)

/-! ## When redaction is complete -/

mutual

/-- Objects rendered with `str` outside sensitive keys, and not replaced by a later item of their
mapping, are rendered to texts without a credential. -/
def PlainlyRendered (W : WordClass) (lower : String → String) : PyValue → Prop
  | .mapping items => FieldsRendered W lower items
  | .sequence items => ItemsRendered W lower items
  | .other rendered => redactSensitiveText W redactedMark rendered = rendered
  | .none | .bool _ | .int _ | .float _ | .str _ => True

def ItemsRendered (W : WordClass) (lower : String → String) : List PyValue → Prop
  | [] => True
  | x :: xs => PlainlyRendered W lower x ∧ ItemsRendered W lower xs

def FieldsRendered (W : WordClass) (lower : String → String) : List (String × PyValue) → Prop
  | [] => True
  | (k, x) :: xs =>
    (isSensitiveKey lower k = true ∨ k ∈ xs.map Prod.fst ∨ PlainlyRendered W lower x) ∧
      FieldsRendered W lower xs

end

theorem itemsRendered_iff {items : List PyValue} :
    ItemsRendered W lower items ↔ ∀ x ∈ items, PlainlyRendered W lower x := by
  induction items with
  | nil => simp [ItemsRendered]
  | cons x xs ih => rw [ItemsRendered, ih, List.forall_mem_cons]

theorem fieldsRendered_iff {items : List (String × PyValue)} :
    FieldsRendered W lower items ↔
      ∀ p ∈ survivors items, isSensitiveKey lower p.1 = true ∨ PlainlyRendered W lower p.2 := by
  induction items with
  | nil => simp [FieldsRendered, survivors]
  | cons q items ih =>
    obtain ⟨k, x⟩ := q
    rw [FieldsRendered, ih, survivors]
    split
    · rename_i hk
      exact and_iff_right (.inr (.inl hk))
    · rename_i hk
      rw [List.forall_mem_cons]
      refine and_congr_left fun _ => or_congr_right ?_
      exact or_iff_right hk

/-- A property of JSON values that looks at their texts, and at nothing under a sensitive key that
holds the replacement. -/
structure ReadsTexts (W : WordClass) (lower : String → String) (Q : Json → Prop) : Prop where
  scalar : ∀ {scalar}, IsScalar scalar → Q scalar
  str : ∀ s, Q (.str s) ↔ redactSensitiveText W redactedMark s = s
  arr : ∀ items, Q (.arr items) ↔ ∀ x ∈ items, Q x
  obj : ∀ fields : JsonMapping, (fields.map Prod.fst).Nodup →
    (∀ p ∈ fields, isSensitiveKey lower p.1 = true → p.2 = .str redactedMark) →
    (Q (.obj fields) ↔ ∀ p ∈ fields, isSensitiveKey lower p.1 = false → Q p.2)

/-- Such a property of a redacted mapping comes down to the values that it keeps. -/
theorem ReadsTexts.mapping {Q : Json → Prop} (hQ : ReadsTexts W lower Q)
    {items : List (String × PyValue)}
    (ih : ∀ p ∈ items, isSensitiveKey lower p.1 = false →
      (Q (redactSensitiveValue W lower redactedMark p.1 p.2) ↔ PlainlyRendered W lower p.2)) :
    Q (.obj (redactSensitiveMapping W lower redactedMark items)) ↔ FieldsRendered W lower items := by
  have hsecret : ∀ p ∈ redactSensitiveMapping W lower redactedMark items,
      isSensitiveKey lower p.1 = true → p.2 = .str redactedMark := by
    intro p hp hs
    obtain ⟨q, -, rfl⟩ := mem_redactSensitiveMapping.mp hp
    exact redactSensitiveValue_secret hs q.2
  rw [hQ.obj _ (nodup_redactSensitiveMapping items) hsecret, fieldsRendered_iff]
  constructor
  · intro h q hq
    cases hs : isSensitiveKey lower q.1 with
    | true => exact .inl rfl
    | false =>
      have hkept := h _ (mem_redactSensitiveMapping.mpr ⟨q, hq, rfl⟩) hs
      exact .inr ((ih q (survivors_subset items q hq) hs).mp hkept)
  · intro h p hp hs
    obtain ⟨q, hq, rfl⟩ := mem_redactSensitiveMapping.mp hp
    have hplain := (h q hq).resolve_left (by simp [hs])
    exact (ih q (survivors_subset items q hq) hs).mpr hplain

/-- **Such a property holds of a redacted value when everything rendered with `str` in it has no
credential in it, and only then.** -/
theorem ReadsTexts.redacted {Q : Json → Prop} (hQ : ReadsTexts W lower Q) (value : PyValue)
    {key : String} (hkey : isSensitiveKey lower key = false) :
    Q (redactSensitiveValue W lower redactedMark key value) ↔ PlainlyRendered W lower value := by
  have hscalar : ∀ scalar : Json, IsScalar scalar →
      ∀ {key : String}, isSensitiveKey lower key = false →
        Q (redactSensitiveValue W lower redactedMark key (.ofJson scalar)) := by
    intro scalar hs key hkey
    rw [redactSensitiveValue_scalar hkey hs]
    exact hQ.scalar hs
  induction value using PyValue.induct generalizing key with
  | onNone => exact iff_of_true (hscalar .null trivial hkey) trivial
  | onBool b => exact iff_of_true (hscalar (.bool b) trivial hkey) trivial
  | onInt i => exact iff_of_true (hscalar (.int i) trivial hkey) trivial
  | onFloat x => exact iff_of_true (hscalar (.float x) trivial hkey) trivial
  | onStr s =>
    rw [redactSensitiveValue_str hkey, hQ.str]
    exact iff_of_true (redactSensitiveText_idempotent W s) trivial
  | onOther s =>
    rw [redactSensitiveValue_other hkey, hQ.str]
    rfl
  | onSequence items ih =>
    rw [redactSensitiveValue_sequence hkey, hQ.arr, List.forall_mem_map, PlainlyRendered,
      itemsRendered_iff]
    exact forall₂_congr fun x hx => ih x hx hkey
  | onMapping items ih =>
    rw [redactSensitiveValue_mapping hkey, PlainlyRendered]
    exact hQ.mapping fun p hp hs => ih p hp hs

theorem readsTexts_clean : ReadsTexts W lower fun v => Clean W lower (.ofJson v) where
  scalar := by
    intro scalar hs path
    cases scalar with
    | null | bool | int | float => rfl
    | str | arr | obj => exact hs.elim
  str s := clean_str
  arr items := by
    rw [PyValue.ofJson, PyValue.ofItems_eq_map, clean_sequence, List.forall_mem_map]
  obj fields _ hsecret := by
    have hmark : containsUnredactedScalar (.str redactedMark) = false := by decide +kernel
    rw [PyValue.ofJson, PyValue.ofFields_eq_map, clean_mapping, List.forall_mem_map]
    refine forall₂_congr fun p hp => ?_
    cases hs : isSensitiveKey lower p.1 with
    | true =>
      rw [hsecret p hp hs, PyValue.ofJson, hmark]
      exact iff_of_true ⟨rfl, clean_str.mpr (redactSensitiveText_mark W)⟩ nofun
    | false =>
      rw [Bool.false_and]
      exact ⟨fun h _ => h.2, fun h => ⟨rfl, h rfl⟩⟩

/-- Of a key that is not sensitive nothing else matters. -/
theorem redactSensitiveValue_key {key other : String} (hkey : isSensitiveKey lower key = false)
    (hother : isSensitiveKey lower other = false) (value : PyValue) :
    redactSensitiveValue W lower replacement key value =
      redactSensitiveValue W lower replacement other value := by
  have hscalar : ∀ scalar : Json, IsScalar scalar →
      redactSensitiveValue W lower replacement key (.ofJson scalar) =
        redactSensitiveValue W lower replacement other (.ofJson scalar) := fun _ hs =>
    (redactSensitiveValue_scalar hkey hs).trans (redactSensitiveValue_scalar hother hs).symm
  induction value using PyValue.induct with
  | onNone => exact hscalar .null trivial
  | onBool b => exact hscalar (.bool b) trivial
  | onInt i => exact hscalar (.int i) trivial
  | onFloat x => exact hscalar (.float x) trivial
  | onStr s => rw [redactSensitiveValue_str hkey, redactSensitiveValue_str hother]
  | onOther s => rw [redactSensitiveValue_other hkey, redactSensitiveValue_other hother]
  | onMapping items _ =>
    rw [redactSensitiveValue_mapping hkey, redactSensitiveValue_mapping hother]
  | onSequence items ih =>
    rw [redactSensitiveValue_sequence hkey, redactSensitiveValue_sequence hother,
      List.map_congr_left ih]

/-- A mapping whose keys differ is redacted item by item. -/
theorem redactSensitiveMapping_ofFields {fields : JsonMapping}
    (hnodup : (fields.map Prod.fst).Nodup) :
    redactSensitiveMapping W lower replacement (PyValue.ofFields fields) =
      fields.map fun p => (p.1, redactSensitiveValue W lower replacement p.1 (.ofJson p.2)) := by
  rw [redactSensitiveMapping, redactFields_eq_map, PyValue.ofFields_eq_map, List.map_map]
  refine dictUpdate_nil_of_nodup ?_
  rw [List.map_map]
  exact hnodup

theorem map_eq_self_iff {α : Type} (f : α → α) (l : List α) : l.map f = l ↔ ∀ x ∈ l, f x = x := by
  constructor
  · intro h x hx
    exact List.map_eq_map_iff.mp (h.trans (List.map_id l).symm) x hx
  · exact fun h => (List.map_congr_left h).trans (List.map_id l)

theorem readsTexts_again {key : String} (hkey : isSensitiveKey lower key = false) :
    ReadsTexts W lower fun v =>
      redactSensitiveValue W lower redactedMark key (.ofJson v) = v where
  scalar hs := redactSensitiveValue_scalar hkey hs
  str s := by rw [PyValue.ofJson, redactSensitiveValue_str hkey, Json.str.injEq]
  arr items := by
    rw [PyValue.ofJson, redactSensitiveValue_sequence hkey, PyValue.ofItems_eq_map, List.map_map,
      Json.arr.injEq]
    exact map_eq_self_iff _ items
  obj fields hnodup hsecret := by
    rw [PyValue.ofJson, redactSensitiveValue_mapping hkey, Json.obj.injEq,
      redactSensitiveMapping_ofFields hnodup, map_eq_self_iff]
    refine forall₂_congr fun p hp => ?_
    cases hs : isSensitiveKey lower p.1 with
    | true =>
      refine iff_of_true ?_ nofun
      rw [redactSensitiveValue_secret hs, ← hsecret p hp hs]
    | false =>
      rw [redactSensitiveValue_key hs hkey]
      constructor
      · exact fun h _ => congrArg Prod.snd h
      · exact fun h => Prod.ext rfl (h rfl)

end Redacted

end Redaction

/-! ## The result -/

/-- **Redaction, against the scanner.** For a mapping of Python values, the scanner finds nothing in
its redaction, redacting it again changes nothing, and values under sensitive keys do not show,
exactly when every object that is rendered with `str` outside sensitive keys is rendered to a text
without a credential. -/
theorem redaction_sound_iff (W : WordClass) (lower : String → String)
    (m : List (String × PyValue)) :
    (scanForSecrets W lower (.ofJson (.obj (redactSensitiveMapping W lower redactedMark m))) = [] ∧
      redactSensitiveMapping W lower redactedMark
          (PyValue.ofFields (redactSensitiveMapping W lower redactedMark m)) =
        redactSensitiveMapping W lower redactedMark m ∧
      ∀ m', SameFields lower m m' →
        redactSensitiveMapping W lower redactedMark m =
          redactSensitiveMapping W lower redactedMark m') ↔
      FieldsRendered W lower m := by
  have hclean : scanForSecrets W lower
      (.ofJson (.obj (redactSensitiveMapping W lower redactedMark m))) = [] ↔
        FieldsRendered W lower m :=
    (scanValue_eq_nil _ "$").trans
      (readsTexts_clean.mapping fun p _ hs => readsTexts_clean.redacted p.2 hs)
  constructor
  · exact fun h => hclean.mp h.1
  · intro h
    refine ⟨hclean.mpr h, ?_, fun m' hm => ?_⟩
    · rw [redactSensitiveMapping_ofFields (nodup_redactSensitiveMapping m), map_eq_self_iff]
      intro p hp
      obtain ⟨q, hq, rfl⟩ := mem_redactSensitiveMapping.mp hp
      cases hs : isSensitiveKey lower q.1 with
      | true => rw [redactSensitiveValue_secret hs, redactSensitiveValue_secret hs]
      | false =>
        have hplain := (fieldsRendered_iff.mp h q hq).resolve_left (by simp [hs])
        exact Prod.ext rfl (((readsTexts_again hs).redacted q.2 hs).mpr hplain)
    · rw [redactSensitiveMapping, redactSensitiveMapping, hm.redacted]

def asciiWords : WordClass where
  isWord c := c.isAlphanum || c == '_'
  ascii _ _ := rfl
  space c hc := by
    have hcodes : ∀ n ∈ Text.spaceCodes,
        ((Char.ofNat n).isAlphanum || Char.ofNat n == '_') = false := by decide +kernel
    rw [Text.isSpace, List.contains_iff_mem] at hc
    have := hcodes c.toNat hc
    rwa [Char.ofNat_toNat] at this

/-- Bytes are rendered with `str`, and what that shows is not redacted: the scanner finds the
credential in the redacted mapping. -/
theorem rendered_bytes_reported :
    scanForSecrets asciiWords id
        (.ofJson (.obj (redactSensitiveMapping asciiWords id redactedMark
          [("note", .other "b'Bearer abc123'")]))) =
      [⟨"$.note", "text contains unredacted credential"⟩] := by
  decide +kernel

end UniversalAgent.Security
