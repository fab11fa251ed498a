import UniversalAgent.Memory.DatedStore

/-!
# Memory — FileStore

`FileMemoryStore` (`memory/file_store.py`): a line of JSON for each record. Every call reads the whole
file; a call that changes the records truncates the file and writes it anew. A line that is JSON and no
record is skipped, a line that is no JSON makes the reader raise.

The texts of lines are symbolic. They are written by `json.dumps` and read by `orjson.loads`.
-/

namespace UniversalAgent.Memory

open UniversalAgent.Core UniversalAgent.Foundation

/-- What becomes of a value that `json.dumps` has written and `orjson.loads` reads; none where it
refuses the text. -/
structure LineCodec where
  reread : Json → Option Json
  reread_plain : ∀ v : Json, v.isPlain = true → reread v = some v

inductive MemoryLine where
  | record (record : DatedRecord)
  | other
  | broken
deriving DecidableEq

/-- `int(value)` of a number that was read. -/
def toInt : Json → Option Int
  | .int i => some i
  | .float (.finite q) => some (if 0 ≤ q then ⌊q⌋ else ⌈q⌉)
  | _ => none

/-- `_encode_record`, written to a line that `_decode_record` reads. -/
def writeLine (codec : LineCodec) (record : DatedRecord) : MemoryLine :=
  match codec.reread (.obj record.metadata), codec.reread (.int record.version) with
  | some metadata, some version =>
    match toInt version with
    | some version =>
      .record { record with
        metadata := match metadata with
          | .obj fields => fields
          | _ => []
        version := version }
    | none => .other
  | _, _ => .broken

namespace FileMemory

def recordsOf (lines : List MemoryLine) : List DatedRecord :=
  lines.filterMap fun line =>
    match line with
    | .record record => some record
    | _ => none

def load (lines : List MemoryLine) : Except MemoryError Records :=
  if .broken ∈ lines then .error .invalidLine
  else .ok ((recordsOf lines).foldl Table.put .empty)

section Calls

variable (codec : LineCodec)

/-- The lines that `_save` writes. -/
def save (records : Records) : Except MemoryError (List MemoryLine) := do
  let ordered ← oldestFirst records.rows
  pure (ordered.map (writeLine codec))

/-- What a call writes to the file, if it writes to it, and its answer. -/
def change (lines : List MemoryLine) :
    StoreCall → Except MemoryError (StoreAnswer × Option (List MemoryLine))
  | .add record => do
      let records ← load lines
      if (records.get? record.id).isSome then pure (.added false, none)
      else
        let content ← save codec (records.put record)
        pure (.added true, some content)
  | .get memoryId => do
      let records ← load lines
      pure (.found (records.get? memoryId), none)
  | .delete memoryId => do
      let records ← load lines
      if (records.get? memoryId).isSome then
        let content ← save codec (records.erase memoryId)
        pure (.deleted true, some content)
      else pure (.deleted false, none)
  | .exported => do
      let records ← load lines
      let ordered ← oldestFirst records.rows
      pure (.records ordered, none)
  | .query query => do
      let records ← load lines
      let ordered ← oldestFirst records.rows
      let selected ← selectRecords query ordered
      pure (.records selected, none)

def call (lines : List MemoryLine) (c : StoreCall) : StoreAnswer × List MemoryLine :=
  match change codec lines c with
  | .ok (answer, some content) => (answer, content)
  | .ok (answer, none) => (answer, lines)
  | .error error => (.raised error, lines)

def step (lines : List MemoryLine) : StoreInput → StoreAnswer × List MemoryLine
  | .call c => call codec lines c
  | .reopen => (.nothing, lines)

def machine : Machine (List MemoryLine) StoreInput StoreAnswer := ⟨[], step codec⟩

end Calls

/-! ## Crashes and corruption -/

/-- Where a call crashes: before it truncates the file, or with so many lines written, and perhaps a
part of the next. -/
inductive CrashPoint where
  | untouched
  | within (written : Nat) (part : Bool)
deriving DecidableEq

def leftOf (content : List MemoryLine) (written : Nat) (part : Bool) : List MemoryLine :=
  content.take written ++ if part then [.broken] else []

inductive FileInput where
  | ordinary (input : StoreInput)
  | crash (call : StoreCall) (point : CrashPoint)
  | corrupt (index : Nat) (line : MemoryLine)
deriving DecidableEq

variable (codec : LineCodec)

def written (lines : List MemoryLine) (c : StoreCall) : Option (List MemoryLine) :=
  match change codec lines c with
  | .ok (_, content) => content
  | .error _ => none

def faultyStep (lines : List MemoryLine) : FileInput → StoreAnswer × List MemoryLine
  | .ordinary input => step codec lines input
  | .crash c point =>
    match written codec lines c, point with
    | some content, .within n part => (.nothing, leftOf content n part)
    | _, _ => (.nothing, lines)
  | .corrupt index line => (.nothing, lines.set index line)

/-- The store with processes that crash and lines that are corrupted. -/
def faultyMachine : Machine (List MemoryLine) FileInput StoreAnswer := ⟨[], faultyStep codec⟩

end FileMemory

end UniversalAgent.Memory
