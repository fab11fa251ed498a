import UniversalAgent.Core.UniqueKeys

/-!
# Security — Audit

Audit events and the recorders of them (`security/audit.py`): a ring in memory, and a file with one line of
JSON for each event. Python's `json` reads back what it has written, a mapping with its keys sorted: a line
is the mapping that is read from it.

Both recorders cut the last events off with a slice from `-limit`, which for a limit of zero is the slice
from the start.
-/

namespace UniversalAgent.Security

open UniversalAgent.Core

/-- A `dict` with JSON values. -/
structure JsonDict where
  fields : JsonMapping
  unique : (Json.obj fields).uniqueKeys = true
deriving DecidableEq

namespace JsonDict

def empty : JsonDict := ⟨[], rfl⟩

def text? (d : JsonDict) (key : String) : Option String :=
  match d.fields.lookup key with
  | some (.str s) => some s
  | _ => none

/-- `loaded.get(key) or {}`. -/
def dict (d : JsonDict) (key : String) : JsonDict :=
  match h : d.fields.lookup key with
  | some (.obj fields) => ⟨fields, Json.uniqueKeys_of_lookup d.unique h⟩
  | _ => empty

/-- `json.loads(json.dumps(d, sort_keys=True))`. -/
def sorted (d : JsonDict) : JsonDict where
  fields := JsonText.sortedFields d.fields
  unique := (JsonText.uniqueKeys_sortKeys (.obj d.fields)).trans d.unique

end JsonDict

structure AuditEvent where
  event : String
  actor : String
  reason : Option String
  tenantId : Option String
  resource : Option String
  details : JsonDict
  occurredAt : String
deriving DecidableEq

namespace AuditEvent

/-- The items of `to_json`. -/
def items (e : AuditEvent) : JsonMapping :=
  [("event", .str e.event), ("actor", .str e.actor), ("occurred_at", .str e.occurredAt)] ++
    (e.reason.toList.map fun reason => ("reason", .str reason)) ++
    (e.tenantId.toList.map fun tenantId => ("tenant_id", .str tenantId)) ++
    (e.resource.toList.map fun resource => ("resource", .str resource)) ++
    (if e.details.fields = [] then [] else [("details", .obj e.details.fields)])

theorem items_unique (e : AuditEvent) : (Json.obj e.items).uniqueKeys = true := by
  have hdetails := e.details.unique
  rw [Json.uniqueKeys, Bool.and_eq_true, decide_eq_true_iff] at hdetails
  rw [Json.uniqueKeys, Json.uniqueKeysFields_eq_all, Bool.and_eq_true, items]
  constructor
  · cases e.reason <;> cases e.tenantId <;> cases e.resource <;> by_cases h : e.details.fields = [] <;>
      simp [h]
  · cases e.reason <;> cases e.tenantId <;> cases e.resource <;> by_cases h : e.details.fields = [] <;>
      simp [h, hdetails, Json.uniqueKeys]

def toJson (e : AuditEvent) : JsonDict := ⟨e.items, e.items_unique⟩

def ofJson (loaded : JsonDict) : AuditEvent where
  event := (loaded.text? "event").getD ""
  actor := (loaded.text? "actor").getD ""
  reason := loaded.text? "reason"
  tenantId := loaded.text? "tenant_id"
  resource := loaded.text? "resource"
  details := loaded.dict "details"
  occurredAt := (loaded.text? "occurred_at").getD ""

/-- `==` of two events. -/
def pyEq (a b : AuditEvent) : Bool :=
  decide (a.event = b.event ∧ a.actor = b.actor ∧ a.reason = b.reason ∧ a.tenantId = b.tenantId ∧
    a.resource = b.resource ∧ a.occurredAt = b.occurredAt) &&
  (Json.obj a.details.fields).pyEq (.obj b.details.fields)

end AuditEvent

/-- `items[start:]`. -/
def sliceFrom {α : Type} (items : List α) (start : Int) : List α :=
  if 0 ≤ start then items.drop start.toNat else items.drop (items.length - (-start).toNat)

/-- The end of `events` of both recorders. -/
def limited {α : Type} (items : List α) : Option Int → List α
  | some limit => if 0 ≤ limit then sliceFrom items (-limit) else items
  | none => items

structure InMemoryAuditRecorder where
  capacity : Nat
  retained : List AuditEvent
deriving DecidableEq

namespace InMemoryAuditRecorder

/-- `record`: a full ring loses its first event. -/
def record (r : InMemoryAuditRecorder) (e : AuditEvent) : InMemoryAuditRecorder :=
  { r with retained := (r.retained ++ [e]).drop (r.retained.length + 1 - r.capacity) }

def events (r : InMemoryAuditRecorder) (limit : Option Int) : List AuditEvent := limited r.retained limit

end InMemoryAuditRecorder

/-- `FileAuditRecorder`: the lines of the file, if there is one. -/
structure FileAuditRecorder where
  lines : Option (List JsonDict)
deriving DecidableEq

namespace FileAuditRecorder

def record (r : FileAuditRecorder) (e : AuditEvent) : FileAuditRecorder :=
  ⟨some (r.lines.getD [] ++ [e.toJson.sorted])⟩

def events (r : FileAuditRecorder) (limit : Option Int) : List AuditEvent :=
  match r.lines with
  | none => []
  | some lines => limited (lines.map AuditEvent.ofJson) limit

end FileAuditRecorder

/-! ## A line -/

namespace JsonDict

variable (d : JsonDict) (key : String)

theorem keys_nodup : (d.fields.map Prod.fst).Nodup := by
  have h := d.unique
  rw [Json.uniqueKeys, Bool.and_eq_true, decide_eq_true_iff] at h
  exact h.1

theorem lookup_sorted : d.sorted.fields.lookup key = (d.fields.lookup key).map JsonText.sortKeys :=
  JsonText.lookup_sortedFields d.keys_nodup key

theorem text?_sorted : d.sorted.text? key = d.text? key := by
  rw [text?, lookup_sorted, text?]
  cases d.fields.lookup key with
  | none => rfl
  | some v => cases v <;> rfl

theorem fields_dict : (d.dict key).fields = match d.fields.lookup key with
    | some (.obj fields) => fields
    | _ => [] := by
  unfold dict
  split
  · next h => simp only [h]
  · next h =>
      cases hv : d.fields.lookup key with
      | none => rfl
      | some v =>
        cases v with
        | obj fields => exact absurd hv (h fields)
        | _ => rfl

theorem dict_sorted : d.sorted.dict key = (d.dict key).sorted := by
  have hfields : (d.sorted.dict key).fields = JsonText.sortedFields (d.dict key).fields := by
    rw [fields_dict, lookup_sorted, fields_dict]
    cases d.fields.lookup key with
    | none => rfl
    | some v => cases v <;> rfl
  generalize d.sorted.dict key = d' at hfields ⊢
  cases d'
  cases hfields
  rfl

theorem ext_fields {d d' : JsonDict} (h : d.fields = d'.fields) : d = d' := by
  cases d
  cases d'
  cases h
  rfl

end JsonDict

namespace AuditEvent

theorem lookup_reason (e : AuditEvent) : e.items.lookup "reason" = e.reason.map .str := by
  rw [items]
  cases e.reason <;> cases e.tenantId <;> cases e.resource <;> by_cases h : e.details.fields = [] <;>
    simp [h, List.lookup_cons]

theorem lookup_tenant (e : AuditEvent) : e.items.lookup "tenant_id" = e.tenantId.map .str := by
  rw [items]
  cases e.reason <;> cases e.tenantId <;> cases e.resource <;> by_cases h : e.details.fields = [] <;>
    simp [h, List.lookup_cons]

theorem lookup_resource (e : AuditEvent) : e.items.lookup "resource" = e.resource.map .str := by
  rw [items]
  cases e.reason <;> cases e.tenantId <;> cases e.resource <;> by_cases h : e.details.fields = [] <;>
    simp [h, List.lookup_cons]

theorem lookup_details (e : AuditEvent) : e.items.lookup "details" =
    if e.details.fields = [] then none else some (.obj e.details.fields) := by
  rw [items]
  cases e.reason <;> cases e.tenantId <;> cases e.resource <;> by_cases h : e.details.fields = [] <;>
    simp [h, List.lookup_cons]

theorem text?_of_option {d : JsonDict} {key : String} {text : Option String}
    (h : d.fields.lookup key = text.map .str) : d.text? key = text := by
  rw [JsonDict.text?, h]
  cases text <;> rfl

theorem ofJson_toJson (e : AuditEvent) : ofJson e.toJson = e := by
  have hdetails : e.toJson.dict "details" = e.details := by
    apply JsonDict.ext_fields
    rw [JsonDict.fields_dict, toJson, lookup_details]
    by_cases h : e.details.fields = []
    · rw [if_pos h, h]
    · rw [if_neg h]
  rw [ofJson, @text?_of_option e.toJson _ _ (lookup_reason e), @text?_of_option e.toJson _ _ (lookup_tenant e),
    @text?_of_option e.toJson _ _ (lookup_resource e), hdetails]
  rfl

/-- Sorted keys make a difference to the details only. -/
theorem ofJson_sorted (d : JsonDict) :
    ofJson d.sorted = { ofJson d with details := (ofJson d).details.sorted } := by
  simp only [ofJson, JsonDict.text?_sorted, JsonDict.dict_sorted]

def readBack (e : AuditEvent) : AuditEvent := ofJson e.toJson.sorted

theorem readBack_eq (e : AuditEvent) : e.readBack = { e with details := e.details.sorted } := by
  rw [readBack, ofJson_sorted, ofJson_toJson]

/-- It is equal to the event, unless there is a NaN in the details. -/
theorem pyEq_readBack (e : AuditEvent) : e.pyEq e.readBack = !(Json.obj e.details.fields).hasNaN := by
  rw [readBack_eq, pyEq, decide_eq_true ⟨rfl, rfl, rfl, rfl, rfl, rfl⟩, Bool.true_and]
  exact JsonText.pyEq_sortKeys (.obj e.details.fields) e.details.unique

end AuditEvent

/-! ## The recorders -/

def lastOf {α : Type} (n : Nat) (items : List α) : List α := items.drop (items.length - n)

def inMemory (capacity : Nat) (recorded : List AuditEvent) : InMemoryAuditRecorder :=
  recorded.foldl InMemoryAuditRecorder.record ⟨capacity, []⟩

def inFile (recorded : List AuditEvent) : FileAuditRecorder := recorded.foldl FileAuditRecorder.record ⟨none⟩

section Recorders

variable {α : Type} {capacity n : Nat} {recorded : List AuditEvent}

theorem inMemory_eq (capacity : Nat) (recorded : List AuditEvent) :
    inMemory capacity recorded = ⟨capacity, lastOf capacity recorded⟩ := by
  induction recorded using List.reverseRecOn with
  | nil =>
    rw [lastOf, List.drop_nil]
    rfl
  | append_singleton recorded e ih =>
    have hdrop : (lastOf capacity recorded ++ [e]).drop ((lastOf capacity recorded).length + 1 - capacity) =
        lastOf capacity (recorded ++ [e]) := by
      rw [lastOf, ← List.drop_append_of_le_length (Nat.sub_le _ _), List.drop_drop, List.length_drop, lastOf,
        List.length_append, List.length_singleton]
      congr 1
      omega
    rw [inMemory, List.foldl_append, ← inMemory, ih, ← hdrop]
    rfl

theorem inFile_eq (recorded : List AuditEvent) : inFile recorded =
    ⟨if recorded = [] then none else some (recorded.map fun e => e.toJson.sorted)⟩ := by
  induction recorded using List.reverseRecOn with
  | nil => rfl
  | append_singleton recorded e ih =>
    have hne : recorded ++ [e] ≠ [] := List.append_ne_nil_of_right_ne_nil _ (List.cons_ne_nil _ _)
    rw [inFile, List.foldl_append, ← inFile, ih, if_neg hne]
    by_cases hnone : recorded = []
    · rw [hnone]
      rfl
    · rw [if_neg hnone, List.map_append]
      rfl

theorem limited_some (items : List α) (n : Nat) :
    limited items (some (n : Int)) = if n = 0 then items else lastOf n items := by
  rw [limited, if_pos (Int.natCast_nonneg n), sliceFrom]
  by_cases hn : n = 0
  · rw [if_pos hn, hn]
    rfl
  · rw [if_neg hn, if_neg (by omega), lastOf]
    congr 1
    omega

theorem events_inFile (recorded : List AuditEvent) (limit : Option Int) :
    (inFile recorded).events limit = limited (recorded.map AuditEvent.readBack) limit := by
  rw [inFile_eq, FileAuditRecorder.events]
  by_cases hnone : recorded = []
  · rw [if_pos hnone, hnone]
    cases limit with
    | none => rfl
    | some limit =>
      rw [limited, sliceFrom, List.map_nil, List.drop_nil, List.drop_nil]
      split_ifs <;> rfl
  · rw [if_neg hnone]
    dsimp only
    rw [List.map_map]
    rfl

theorem lastOf_map {β : Type} (f : α → β) (n : Nat) (items : List α) :
    lastOf n (items.map f) = (lastOf n items).map f := by
  rw [lastOf, List.length_map, lastOf, List.map_drop]

theorem lastOf_min (n : Nat) (items : List α) : lastOf (min n items.length) items = lastOf n items := by
  rw [lastOf, lastOf]
  congr 1
  omega

theorem lastOf_of_le {items : List α} (h : items.length ≤ n) : lastOf n items = items := by
  rw [lastOf, Nat.sub_eq_zero_of_le h, List.drop_zero]

end Recorders

structure ReturnsTail (capacity : Nat) (recorded : List AuditEvent) (n : Nat) : Prop where
  memory : (inMemory capacity recorded).events (some n) =
    lastOf (min n (inMemory capacity recorded).retained.length) (inMemory capacity recorded).retained
  retained : (inMemory capacity recorded).retained = lastOf capacity recorded
  file : List.Forall₂ (fun a b => a.pyEq b = true) (lastOf (min n recorded.length) recorded)
    ((inFile recorded).events (some n))
  agree : recorded.length ≤ capacity → List.Forall₂ (fun a b => a.pyEq b = true)
    ((inMemory capacity recorded).events (some n)) ((inFile recorded).events (some n))

/-- **Audit recorders** return the tail if and only if the limit is not zero or there is nothing to return,
and no event to return has a NaN in its details. -/
theorem audit_tail_iff (capacity : Nat) (recorded : List AuditEvent) (n : Nat) :
    ReturnsTail capacity recorded n ↔
      (n ≠ 0 ∨ recorded = []) ∧ ∀ e ∈ lastOf n recorded, (Json.obj e.details.fields).hasNaN = false := by
  constructor
  · intro h
    have hfile := h.file
    rw [events_inFile, limited_some, lastOf_min] at hfile
    have hzero : n ≠ 0 ∨ recorded = [] := by
      by_contra hnot
      rw [not_or, not_not] at hnot
      obtain ⟨rfl, hne⟩ := hnot
      rw [if_pos rfl] at hfile
      have hlength := hfile.length_eq
      rw [lastOf, Nat.sub_zero, List.drop_length, List.length_map] at hlength
      exact hne (List.length_eq_zero_iff.mp hlength.symm)
    refine ⟨hzero, fun e he => ?_⟩
    have hlimited : (if n = 0 then recorded.map AuditEvent.readBack else lastOf n (recorded.map AuditEvent.readBack)) =
        (lastOf n recorded).map AuditEvent.readBack := by
      rcases hzero with hn | rfl
      · rw [if_neg hn, lastOf_map]
      · rw [List.map_nil, lastOf_of_le (Nat.zero_le n), ite_self]
        rfl
    rw [hlimited, List.forall₂_map_right_iff, List.forall₂_same] at hfile
    have heq := hfile e he
    rw [AuditEvent.pyEq_readBack, Bool.not_eq_true'] at heq
    exact heq
  · rintro ⟨hzero, hnan⟩
    have hlimited : ∀ items : List AuditEvent, (recorded = [] → items = []) →
        (if n = 0 then items else lastOf n items) = lastOf n items := by
      intro items hitems
      rcases hzero with hn | hnone
      · exact if_neg hn
      · rw [hitems hnone, lastOf_of_le (Nat.zero_le n), ite_self]
    have hequal : List.Forall₂ (fun a b => a.pyEq b = true) (lastOf n recorded)
        ((inFile recorded).events (some n)) := by
      rw [events_inFile, limited_some, hlimited _ fun h => by rw [h, List.map_nil], lastOf_map,
        List.forall₂_map_right_iff, List.forall₂_same]
      intro e he
      rw [AuditEvent.pyEq_readBack, hnan e he]
      rfl
    have hmemory : (inMemory capacity recorded).events (some n) = lastOf n (lastOf capacity recorded) := by
      rw [inMemory_eq, InMemoryAuditRecorder.events, limited_some]
      refine hlimited _ fun h => ?_
      rw [h, lastOf_of_le (Nat.zero_le capacity)]
    constructor
    · rw [hmemory, lastOf_min, inMemory_eq]
    · rw [inMemory_eq]
    · rw [lastOf_min]
      exact hequal
    · intro hcapacity
      rw [hmemory, lastOf_of_le hcapacity]
      exact hequal

def denial : AuditEvent := ⟨"denied", "anonymous", some "unauthorized", none, some "/v1/goals", .empty, "t"⟩

/-- Asked for no event, both recorders return all of them. -/
theorem zero_returns_all :
    (inMemory 1000 [denial]).events (some 0) = [denial] ∧ (inFile [denial]).events (some 0) = [denial] ∧
      ¬ReturnsTail 1000 [denial] 0 := by
  refine ⟨by decide +kernel, by decide +kernel, fun h => ?_⟩
  have hlength := h.file.length_eq
  exact absurd hlength (by decide +kernel)

end UniversalAgent.Security
