import UniversalAgent.Foundation.Machine
import UniversalAgent.Foundation.Table
import UniversalAgent.Memory.Store

/-!
# Memory — DatedStore

The in-memory store (`memory/store.py`) for records whose `created_at` is any `datetime`, with a UTC
offset or without. Python does not compare a time that has an offset with one that has none.
-/

namespace UniversalAgent.Memory

open UniversalAgent.Core UniversalAgent.Foundation

/-- A record with the UTC offset of its `created_at`, which is in UTC then, and without one as it
stands. -/
structure DatedRecord extends MemoryRecord where
  utcoffset : Option Int
deriving DecidableEq

inductive MemoryError where
  | typeError
  | invalidLine
  | notSerializable
  | overflow
deriving DecidableEq, Repr

/-- Records by their ids, as a `dict` has them. -/
abbrev Records := Table (fun r : DatedRecord => r.id)

/-! ## Sorting -/

def Comparable (records : List DatedRecord) : Prop :=
  ∀ a ∈ records, ∀ b ∈ records, a.utcoffset.isSome = b.utcoffset.isSome

instance (records : List DatedRecord) : Decidable (Comparable records) :=
  inferInstanceAs (Decidable (∀ a ∈ records, ∀ b ∈ records, _))

/-- `(item.created_at, str(item.id))`, compared. -/
def DatedRecord.SortsBefore (a b : DatedRecord) : Prop :=
  a.toMemoryRecord.SortsBefore b.toMemoryRecord

def DatedRecord.SortsAfter (a b : DatedRecord) : Prop := b.SortsBefore a

instance (a b : DatedRecord) : Decidable (a.SortsBefore b) :=
  inferInstanceAs (Decidable (a.toMemoryRecord.SortsBefore b.toMemoryRecord))

instance (a b : DatedRecord) : Decidable (a.SortsAfter b) :=
  inferInstanceAs (Decidable (b.SortsBefore a))

/-- `sorted(records, key=...)`. -/
def oldestFirst (records : List DatedRecord) : Except MemoryError (List DatedRecord) :=
  if Comparable records then .ok (records.insertionSort DatedRecord.SortsBefore)
  else .error .typeError

/-- With `reverse=True`. -/
def latestFirst (records : List DatedRecord) : Except MemoryError (List DatedRecord) :=
  if Comparable records then .ok (records.insertionSort DatedRecord.SortsAfter)
  else .error .typeError

def selectRecords (query : MemoryQuery) (records : List DatedRecord) :
    Except MemoryError (List DatedRecord) :=
  let found := records.filter fun r => query.admits r.toMemoryRecord
  match query.limit with
  | none => oldestFirst found
  | some limit => do
      let ordered ← latestFirst found
      pure (sliceTo ordered limit)

/-! ## Calls -/

inductive StoreCall where
  | add (record : DatedRecord)
  | get (memoryId : MemoryId)
  | delete (memoryId : MemoryId)
  | exported
  | query (query : MemoryQuery)
deriving DecidableEq

inductive StoreInput where
  | call (call : StoreCall)
  | reopen
deriving DecidableEq

inductive StoreAnswer where
  | added (isNew : Bool)
  | found (record : Option DatedRecord)
  | deleted (existed : Bool)
  | records (records : List DatedRecord)
  | raised (error : MemoryError)
  | nothing
deriving DecidableEq

def StoreAnswer.ofRecords : Except MemoryError (List DatedRecord) → StoreAnswer
  | .ok selected => .records selected
  | .error error => .raised error

namespace DatedStore

/-- `InMemoryMemoryStore`. -/
def call (store : Records) : StoreCall → StoreAnswer × Records
  | .add record =>
    if (store.get? record.id).isSome then (.added false, store)
    else (.added true, store.put record)
  | .get memoryId => (.found (store.get? memoryId), store)
  | .delete memoryId => (.deleted (store.get? memoryId).isSome, store.erase memoryId)
  | .exported => (.ofRecords (oldestFirst store.rows), store)
  | .query query => (.ofRecords (selectRecords query store.rows), store)

def step (store : Records) : StoreInput → StoreAnswer × Records
  | .call c => call store c
  | .reopen => (.nothing, store)

def machine : Machine Records StoreInput StoreAnswer := ⟨.empty, step⟩

end DatedStore

end UniversalAgent.Memory
