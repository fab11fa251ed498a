import UniversalAgent.Memory.DatedStore
import UniversalAgent.State.Session

/-!
# Persistence — SqliteMemory

`SQLiteMemoryStore` (`persistence/sqlite.py`): a row for each record. A row has the text of the time at
which its record was created, and an export is ordered by these texts; a query sorts the records by the
times.
-/

namespace UniversalAgent.Persistence

open UniversalAgent.Core UniversalAgent.Foundation UniversalAgent.Memory UniversalAgent.State

/-- `datetime.isoformat`, of a time and its UTC offset; `fromisoformat` reads the text as both. -/
structure TimeTexts where
  isoformat : DateTime → Option Int → String

namespace SqliteMemory

variable (codec : JsonCodec) (texts : TimeTexts)

def withMetadata (record : MemoryRecord) (metadata : JsonMapping) : MemoryRecord :=
  { record with metadata := metadata }

/-- `_memory_row`, as `_memory_record` reads it: what SQLite's integers cannot hold is refused when the
row is inserted. -/
def memoryRow (record : DatedRecord) : Except MemoryError DatedRecord :=
  match copyMapping codec record.metadata with
  | .ok metadata =>
    if -(2 ^ 63) ≤ record.version ∧ record.version < 2 ^ 63 then
      .ok { record with toMemoryRecord := withMetadata record.toMemoryRecord metadata }
    else .error .overflow
  | .error _ => .error .notSerializable

/-- `ORDER BY created_at, memory_id`. -/
def TextBefore (a b : DatedRecord) : Prop :=
  texts.isoformat a.createdAt a.utcoffset < texts.isoformat b.createdAt b.utcoffset ∨
    texts.isoformat a.createdAt a.utcoffset = texts.isoformat b.createdAt b.utcoffset ∧ a.id ≤ b.id

instance (a b : DatedRecord) : Decidable (TextBefore texts a b) :=
  inferInstanceAs (Decidable (_ ∨ _))

/-- `export`. -/
def exported (table : Records) : List DatedRecord := table.rows.insertionSort (TextBefore texts)

def call (table : Records) : StoreCall → StoreAnswer × Records
  | .add record =>
    if (table.get? record.id).isSome then (.added false, table)
    else
      match memoryRow codec record with
      | .ok row => (.added true, table.put row)
      | .error error => (.raised error, table)
  | .get memoryId => (.found (table.get? memoryId), table)
  | .delete memoryId => (.deleted (table.get? memoryId).isSome, table.erase memoryId)
  | .exported => (.records (exported texts table), table)
  | .query query => (.ofRecords (selectRecords query (exported texts table)), table)

def step (table : Records) : StoreInput → StoreAnswer × Records
  | .call c => call codec texts table c
  | .reopen => (.nothing, table)

def machine : Machine Records StoreInput StoreAnswer := ⟨.empty, step codec texts⟩

end SqliteMemory

end UniversalAgent.Persistence
