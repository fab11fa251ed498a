import UniversalAgent.Foundation.Machine
import UniversalAgent.Foundation.OwnedRows
import UniversalAgent.Memory.Store
import UniversalAgent.Persistence.TenantStore

/-!
# Persistence — PostgresMemory

`PostgresMemoryStore` (`persistence/postgres.py`): the memories of all tenants in one table, whose key
is the memory id alone. Whose a record is, is told by its metadata; only the search for a duplicate
asks for it. A record that is read has the tenant of its row in its metadata.
-/

namespace UniversalAgent.Persistence

open UniversalAgent.Core UniversalAgent.Foundation UniversalAgent.Memory UniversalAgent.State

structure Collation where
  before : MemoryId → MemoryId → Bool
  total : ∀ a b, before a b = true ∨ before b a = true
  trans : ∀ a b c, before a b = true → before b c = true → before a c = true
  antisymm : ∀ a b, before a b = true → before b a = true → a = b

def Collation.byCodePoints : Collation where
  before a b := decide (a ≤ b)
  total a b := by simpa using le_total a b
  trans a b c := by simpa using le_trans
  antisymm a b := by simpa using le_antisymm

inductive MemoryStoreError where
  | notSerializable
  | integrity
deriving DecidableEq, Repr

def memoryTenant (record : MemoryRecord) : TenantId :=
  match record.metadata.lookup "tenant_id" with
  | some (.str tenant) => if Text.isBlank tenant then "default" else tenant
  | _ => "default"

/-- `_memory_row`: the metadata as JSON text holds it. -/
def memoryRow (codec : JsonCodec) (record : MemoryRecord) :
    Except MemoryStoreError MemoryRecord :=
  match copyMapping codec record.metadata with
  | .ok metadata => .ok { record with metadata := metadata }
  | .error _ => .error .notSerializable

def memoryRecord (o : Owned TenantId MemoryRecord) : MemoryRecord :=
  { o.row with metadata := dictSet o.row.metadata "tenant_id" (.str o.owner) }

/-- `ua_memories`, with its primary key. -/
structure MemoryTable where
  rows : List (Owned TenantId MemoryRecord)
  nodup : (rows.map fun o => o.row.id).Nodup

namespace MemoryTable

def empty : MemoryTable := ⟨[], List.nodup_nil⟩

/-- `INSERT`, which the key can forbid. -/
def insert (table : MemoryTable) (tenant : TenantId) (row : MemoryRecord) :
    Except MemoryStoreError MemoryTable :=
  if h : row.id ∈ table.rows.map fun o => o.row.id then .error .integrity
  else
    .ok
      { rows := Owned.insert tenant row table.rows
        nodup := by
          rw [Owned.insert, List.map_append, List.nodup_append]
          refine ⟨table.nodup, List.nodup_singleton _, fun a ha b hb he => h ?_⟩
          rw [List.map_singleton, List.mem_singleton] at hb
          exact hb ▸ he ▸ ha }

def add (codec : JsonCodec) (table : MemoryTable) (record : MemoryRecord) :
    Except MemoryStoreError (Bool × MemoryTable) :=
  let tenant := memoryTenant record
  if record.id ∈ (Owned.rowsOf tenant table.rows).map MemoryRecord.id then .ok (false, table)
  else do
    let row ← memoryRow codec record
    let table ← table.insert tenant row
    pure (true, table)

def get (table : MemoryTable) (memoryId : MemoryId) : Option MemoryRecord :=
  (table.rows.find? fun o => decide (o.row.id = memoryId)).map memoryRecord

def delete (table : MemoryTable) (memoryId : MemoryId) : Bool × MemoryTable :=
  (table.rows.any fun o => decide (o.row.id = memoryId),
    { rows := table.rows.filter fun o => decide (o.row.id ≠ memoryId)
      nodup := table.nodup.sublist (List.filter_sublist.map _) })

/-- `ORDER BY created_at, memory_id`. -/
def RowBefore (collation : Collation) (a b : Owned TenantId MemoryRecord) : Prop :=
  a.row.createdAt < b.row.createdAt ∨
    a.row.createdAt = b.row.createdAt ∧ collation.before a.row.id b.row.id = true

instance (collation : Collation) (a b : Owned TenantId MemoryRecord) :
    Decidable (RowBefore collation a b) := inferInstanceAs (Decidable (_ ∨ _))

/-- `export`. -/
def exported (collation : Collation) (table : MemoryTable) : List MemoryRecord :=
  (table.rows.insertionSort (RowBefore collation)).map memoryRecord

def query (collation : Collation) (table : MemoryTable) (query : MemoryQuery) :
    List MemoryRecord :=
  let found := (table.exported collation).filter query.admits
  match query.limit with
  | none => found.insertionSort MemoryRecord.SortsBefore
  | some limit => sliceTo (found.insertionSort MemoryRecord.SortsAfter) limit

end MemoryTable

/-! ## Calls for tenants -/

inductive MemoryCall where
  | add (record : MemoryRecord)
  | get (tenant : TenantId) (memoryId : MemoryId)
  | delete (tenant : TenantId) (memoryId : MemoryId)
  | exported (tenant : TenantId)
  | query (tenant : TenantId) (query : MemoryQuery)

def MemoryCall.tenant : MemoryCall → TenantId
  | .add record => memoryTenant record
  | .get tenant _ | .delete tenant _ | .exported tenant | .query tenant _ => tenant

inductive MemoryAnswer where
  | added (isNew : Bool)
  | found (record : Option MemoryRecord)
  | deleted (existed : Bool)
  | records (records : List MemoryRecord)
  | raised (error : MemoryStoreError)
deriving DecidableEq

def ofTenant (tenant : TenantId) (record : MemoryRecord) : Bool :=
  decide (record.metadata.lookup "tenant_id" = some (.str tenant))

def ownPart (tenant : TenantId) : MemoryAnswer → MemoryAnswer
  | .found record => .found (record.filter (ofTenant tenant))
  | .records records => .records (records.filter (ofTenant tenant))
  | answer => answer

namespace MemoryTable

variable (codec : JsonCodec) (collation : Collation)

def step (table : MemoryTable) : MemoryCall → MemoryAnswer × MemoryTable
  | .add record =>
    match table.add codec record with
    | .ok (isNew, table) => (.added isNew, table)
    | .error error => (.raised error, table)
  | .get _ memoryId => (.found (table.get memoryId), table)
  | .delete _ memoryId => (.deleted (table.delete memoryId).1, (table.delete memoryId).2)
  | .exported _ => (.records (table.exported collation), table)
  | .query _ query => (.records (table.query collation query), table)

def machine : Machine MemoryTable MemoryCall MemoryAnswer where
  init := .empty
  step := step codec collation

end MemoryTable

end UniversalAgent.Persistence
