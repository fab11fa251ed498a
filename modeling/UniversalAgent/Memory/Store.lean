import UniversalAgent.Core.Dictionaries
import UniversalAgent.Core.DateTime
import UniversalAgent.Core.Models
import UniversalAgent.Foundation.Sorting

/-!
# Memory — Store

The records of the memory and the store that keeps them in memory (`memory/models.py`,
`memory/store.py`). A record is valid when it is made; the store keeps one of each id, in the order in
which they were added.
-/

namespace UniversalAgent.Memory

open UniversalAgent.Core UniversalAgent.Foundation.Text

abbrev MemoryId := String

inductive MemoryKind where
  | episodic | semantic | procedural | preference
deriving DecidableEq, Repr

/-- `MemoryRecord`, with what `__post_init__` checks. -/
structure MemoryRecord where
  kind : MemoryKind
  subject : String
  content : String
  scope : String
  confidence : ℚ
  sourceSessionId : Option SessionId
  id : MemoryId
  createdAt : DateTime
  version : Int
  tags : List String
  source : String
  metadata : JsonMapping
  confidence_bounded : 0 ≤ confidence ∧ confidence ≤ 1
  subject_given : isBlank subject = false
  content_given : isBlank content = false
deriving DecidableEq

theorem MemoryRecord.certain_bounded : 0 ≤ (1 : ℚ) ∧ (1 : ℚ) ≤ 1 := by norm_num

structure MemoryQuery where
  kinds : List MemoryKind := []
  subjects : List String := []
  scope : Option String := none
  limit : Option Int := none
deriving DecidableEq

def MemoryQuery.admits (query : MemoryQuery) (record : MemoryRecord) : Bool :=
  (query.kinds.isEmpty || query.kinds.contains record.kind) &&
    (query.subjects.isEmpty || query.subjects.contains record.subject) &&
    (query.scope.isNone || query.scope = some record.scope || record.scope = "")

/-- `(item.created_at, str(item.id))`, compared. -/
def MemoryRecord.SortsBefore (a b : MemoryRecord) : Prop :=
  a.createdAt < b.createdAt ∨ a.createdAt = b.createdAt ∧ a.id ≤ b.id

instance (a b : MemoryRecord) : Decidable (a.SortsBefore b) := inferInstanceAs (Decidable (_ ∨ _))

section Order

variable {a b c : MemoryRecord}

theorem MemoryRecord.SortsBefore.total (a b : MemoryRecord) :
    a.SortsBefore b ∨ b.SortsBefore a :=
  Foundation.Then.total MemoryRecord.createdAt (·.id ≤ ·.id) (le_total _ _)

theorem MemoryRecord.SortsBefore.trans (hab : a.SortsBefore b) (hbc : b.SortsBefore c) :
    a.SortsBefore c :=
  Foundation.Then.trans MemoryRecord.createdAt (·.id ≤ ·.id) le_trans hab hbc

theorem MemoryRecord.SortsBefore.id_eq (hab : a.SortsBefore b) (hba : b.SortsBefore a) :
    a.id = b.id :=
  (Foundation.Then.tie MemoryRecord.createdAt (·.id ≤ ·.id) hab hba).elim le_antisymm

def MemoryRecord.SortsAfter (a b : MemoryRecord) : Prop := b.SortsBefore a

instance (a b : MemoryRecord) : Decidable (a.SortsAfter b) :=
  inferInstanceAs (Decidable (b.SortsBefore a))

instance : Std.Total MemoryRecord.SortsBefore := ⟨MemoryRecord.SortsBefore.total⟩

instance : IsTrans MemoryRecord MemoryRecord.SortsBefore := ⟨fun _ _ _ => .trans⟩

instance : Std.Total MemoryRecord.SortsAfter := ⟨fun a b => MemoryRecord.SortsBefore.total b a⟩

instance : IsTrans MemoryRecord MemoryRecord.SortsAfter :=
  ⟨fun _ _ _ hab hbc => MemoryRecord.SortsBefore.trans hbc hab⟩

end Order

/-- `items[:limit]`. -/
def sliceTo {α : Type} (items : List α) (limit : Int) : List α :=
  if 0 ≤ limit then items.take limit.toNat else items.take (items.length - (-limit).toNat)

/-- How many items are in `items[:limit]`, at most. -/
def sliceLength (limit : Int) (length : Nat) : Nat :=
  if 0 ≤ limit then limit.toNat else length - (-limit).toNat

theorem sliceTo_eq_take {α : Type} (items : List α) (limit : Int) :
    sliceTo items limit = items.take (sliceLength limit items.length) := by
  unfold sliceTo sliceLength
  split_ifs <;> rfl

structure InMemoryMemoryStore where
  records : List MemoryRecord
  nodup : (records.map MemoryRecord.id).Nodup
deriving DecidableEq

namespace InMemoryMemoryStore

def empty : InMemoryMemoryStore := ⟨[], List.nodup_nil⟩

def add (store : InMemoryMemoryStore) (record : MemoryRecord) : Bool × InMemoryMemoryStore :=
  if h : record.id ∈ store.records.map MemoryRecord.id then (false, store)
  else
    (true,
      { records := store.records ++ [record]
        nodup := by
          rw [List.map_append, List.nodup_append]
          refine ⟨store.nodup, List.nodup_singleton _, fun a ha b hb he => ?_⟩
          rw [List.map_singleton, List.mem_singleton] at hb
          exact h (hb ▸ he ▸ ha) })

def get (store : InMemoryMemoryStore) (memoryId : MemoryId) : Option MemoryRecord :=
  store.records.find? fun record => record.id = memoryId

def delete (store : InMemoryMemoryStore) (memoryId : MemoryId) : Bool × InMemoryMemoryStore :=
  (store.records.any fun record => record.id = memoryId,
    { records := store.records.filter fun record => record.id ≠ memoryId
      nodup := store.nodup.sublist (List.filter_sublist.map _) })

/-- `export`. -/
def exported (store : InMemoryMemoryStore) : List MemoryRecord :=
  store.records.insertionSort MemoryRecord.SortsBefore

/-- `query`: the oldest first, or with a limit the latest. -/
def query (store : InMemoryMemoryStore) (query : MemoryQuery) : List MemoryRecord :=
  let found := store.records.filter query.admits
  match query.limit with
  | none => found.insertionSort MemoryRecord.SortsBefore
  | some limit => sliceTo (found.insertionSort fun a b => b.SortsBefore a) limit

variable {store : InMemoryMemoryStore} {record : MemoryRecord}

theorem add_fresh (h : record.id ∉ store.records.map MemoryRecord.id) :
    (store.add record).2.records = store.records ++ [record] := by
  rw [add, dif_neg h]

theorem mem_exported : record ∈ store.exported ↔ record ∈ store.records := List.mem_insertionSort _

theorem mem_sliceTo {α : Type} {items : List α} {limit : Int} {x : α}
    (h : x ∈ sliceTo items limit) : x ∈ items := by
  unfold sliceTo at h
  split_ifs at h <;> exact List.mem_of_mem_take h

/-- A query returns records of the store that its filter admits. -/
theorem mem_of_mem_query {query : MemoryQuery} (h : record ∈ store.query query) :
    record ∈ store.records ∧ query.admits record = true := by
  unfold InMemoryMemoryStore.query at h
  cases hl : query.limit with
  | none =>
    rw [hl] at h
    exact List.mem_filter.mp ((List.mem_insertionSort _).mp h)
  | some limit =>
    rw [hl] at h
    exact List.mem_filter.mp ((List.mem_insertionSort _).mp (mem_sliceTo h))

theorem mem_query_unlimited {query : MemoryQuery} :
    record ∈ store.query { query with limit := none } ↔
      record ∈ store.records ∧ query.admits record = true := by
  refine (List.mem_insertionSort _).trans (List.mem_filter.trans ?_)
  exact Iff.rfl

end InMemoryMemoryStore

end UniversalAgent.Memory
