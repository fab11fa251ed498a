import UniversalAgent.Foundation.Grouping
import UniversalAgent.Memory.Store

/-!
# Memory — Consolidator

The consolidator (`memory/consolidator.py`): five stages that read one snapshot of the store and add
records to it, one after the other. No stage removes a record.

The fuzzy matcher is not part of the repository: it is a score for each two texts. Identifiers and the
readings of the clock are drawn from outside, and so is the order in which a set is made a tuple. Every
record that is added is noted with those that it was made of.
-/

namespace UniversalAgent.Memory

open UniversalAgent.Core UniversalAgent.Foundation

structure ConsolidationAction where
  actionType : String
  targetIds : List MemoryId
  reason : String
  metadata : JsonMapping := []
deriving DecidableEq

structure ConsolidationResult where
  actionsApplied : Nat
  recordsMerged : Nat
  recordsArchived : Nat
  conflictsResolved : Nat
  actions : List ConsolidationAction
deriving DecidableEq

/-- `MemoryConsolidator`, with what it takes from outside. -/
structure MemoryConsolidator where
  /-- `fuzz.WRatio` of two texts that `default_process` has gone over. -/
  similarity : String → String → ℚ
  /-- `self._similarity_threshold * 100`. -/
  scoreCutoff : ℚ
  /-- `tuple(set(tags))`. -/
  tupleOfSet : List String → List String
  mem_tupleOfSet : ∀ tags tag, tag ∈ tupleOfSet tags ↔ tag ∈ tags
  isoformat : DateTime → String
  /-- `f"{score:.2f}"`. -/
  twoDecimals : ℚ → String

structure Draws where
  newMemoryId : Nat → MemoryId
  utcNow : Nat → DateTime

structure Addition where
  record : MemoryRecord
  origins : List MemoryRecord

structure Pass where
  store : InMemoryMemoryStore
  drawn : Nat := 0
  readings : Nat := 0
  additions : List Addition := []

/-- `self._store.add(record)`. -/
def Pass.addRecord (p : Pass) (record : MemoryRecord) (origins : List MemoryRecord) : Pass :=
  { p with
    store := (p.store.add record).2
    additions := p.additions ++ [⟨record, origins⟩] }

/-- The float `0.3`. -/
def lowConfidence : ℚ := 5404319552844595 / 18014398509481984

section Stages

variable (C : MemoryConsolidator) (w : Draws)

/-! ## Records that are made -/

/-- `primary` of `_merge_records`. -/
def primaryOf (a b : MemoryRecord) : MemoryRecord := if a.confidence < b.confidence then b else a

def secondaryOf (a b : MemoryRecord) : MemoryRecord := if a.confidence < b.confidence then a else b

/-- `_merge_records`: the metadata reads the clock first, then the id and the time of the record are
drawn. -/
def mergeRecords (a b : MemoryRecord) (p : Pass) : MemoryRecord × Pass :=
  ({ kind := (primaryOf a b).kind
     subject := (primaryOf a b).subject
     content := (primaryOf a b).content
     scope := (primaryOf a b).scope
     confidence := max a.confidence b.confidence
     sourceSessionId := (primaryOf a b).sourceSessionId
     id := w.newMemoryId p.drawn
     createdAt := w.utcNow (p.readings + 1)
     version := max a.version b.version + 1
     tags := C.tupleOfSet (a.tags ++ b.tags)
     source := "consolidator"
     metadata := dictUpdate (dictUpdate a.metadata b.metadata)
       [("merged_from", .str (secondaryOf a b).id),
         ("merge_timestamp", .str (C.isoformat (w.utcNow p.readings)))]
     confidence_bounded := ⟨le_max_of_le_left a.confidence_bounded.1,
       max_le a.confidence_bounded.2 b.confidence_bounded.2⟩
     subject_given := (primaryOf a b).subject_given
     content_given := (primaryOf a b).content_given },
    { p with drawn := p.drawn + 1, readings := p.readings + 2 })

/-- The archived copy of a record, with the version and the metadata that a stage gives it. -/
def archivedCopy (record : MemoryRecord) (version : Int) (metadata : JsonMapping) (p : Pass) :
    MemoryRecord × Pass :=
  ({ record with
     id := w.newMemoryId p.drawn
     createdAt := w.utcNow p.readings
     version := version
     tags := record.tags ++ ["archived"]
     source := "consolidator"
     metadata := dictUpdate record.metadata metadata },
    { p with drawn := p.drawn + 1, readings := p.readings + 1 })

/-! ## The stages -/

/-- `_deduplicate_exact`, from what was `seen` on. -/
def deduplicateExact : List ((String × String) × MemoryRecord) → List MemoryRecord → Pass →
    List ConsolidationAction × Pass
  | _, [], p => ([], p)
  | seen, record :: records, p =>
    match seen.lookup (record.subject, record.content) with
    | some existing =>
      let merged := mergeRecords C w existing record p
      let rest := deduplicateExact seen records
        (merged.2.addRecord merged.1 [existing, record])
      ({ actionType := "deduplicate_exact"
         targetIds := [existing.id, record.id]
         reason := "Exact duplicate merged: " ++ record.subject } :: rest.1, rest.2)
    | none => deduplicateExact (((record.subject, record.content), record) :: seen) records p

def fuzzyCandidates (record : MemoryRecord) (processed : List MemoryId)
    (later : List MemoryRecord) : List MemoryRecord :=
  later.filter fun r =>
    r.id ∉ processed ∧ r.kind = record.kind ∧ r.subject = record.subject ∧
      r.content ≠ record.content

/-- `extract` of rapidfuzz, with the cutoff and a limit of five: the best matches, best first. -/
def extractMatches (content : String) (candidates : List MemoryRecord) :
    List (MemoryRecord × ℚ) :=
  (((candidates.map fun r => (r, C.similarity content r.content)).filter
    fun m => C.scoreCutoff ≤ m.2).insertionSort fun a b => b.2 ≤ a.2).take 5

/-- The loop over the matches of a record, and the ids processed after it. -/
def mergeMatches (record : MemoryRecord) : List MemoryId → List (MemoryRecord × ℚ) → Pass →
    List ConsolidationAction × List MemoryId × Pass
  | processed, [], p => ([], processed, p)
  | processed, (candidate, score) :: rest, p =>
    if candidate.id ∈ processed then mergeMatches record processed rest p
    else
      let merged := mergeRecords C w record candidate p
      let later := mergeMatches record (candidate.id :: processed) rest
        (merged.2.addRecord merged.1 [record, candidate])
      ({ actionType := "deduplicate_fuzzy"
         targetIds := [record.id, candidate.id]
         reason := "Fuzzy duplicate merged (score: " ++ C.twoDecimals (score / 100) ++ "): " ++
           record.subject
         metadata := [("similarity_score", .float (.finite (score / 100)))] } :: later.1, later.2)

/-- `_deduplicate_fuzzy`, from what was `processed` on. -/
def deduplicateFuzzy : List MemoryId → List MemoryRecord → Pass → List ConsolidationAction × Pass
  | _, [], p => ([], p)
  | processed, record :: later, p =>
    if record.id ∈ processed then deduplicateFuzzy processed later p
    else
      let merged := mergeMatches C w record processed
        (extractMatches C record.content (fuzzyCandidates record processed later)) p
      let rest := deduplicateFuzzy merged.2.1 later merged.2.2
      (merged.1 ++ rest.1, rest.2)

/-- The loop of `_merge_related` over a group. Each merge is made of the one before it. -/
def mergeChain (subject : String) (count : Nat) : MemoryRecord → List MemoryRecord →
    List MemoryRecord → Pass → List ConsolidationAction × Pass
  | _, _, [], p => ([], p)
  | primary, origins, secondary :: rest, p =>
    if secondary.confidence < lowConfidence then mergeChain subject count primary origins rest p
    else if secondary.content = primary.content then
      mergeChain subject count primary origins rest p
    else
      let merged := mergeRecords C w primary secondary p
      let later := mergeChain subject count merged.1 (origins ++ [secondary]) rest
        (merged.2.addRecord merged.1 (origins ++ [secondary]))
      ({ actionType := "merge_related"
         targetIds := [merged.1.id]
         reason := "Merged related claims for " ++ subject
         metadata := [("merged_count", .int count)] } :: later.1, later.2)

/-- `group.sort(key=lambda r: r.confidence, reverse=True)`. -/
def byConfidence (group : List MemoryRecord) : List MemoryRecord :=
  group.insertionSort fun a b => b.confidence ≤ a.confidence

/-- `_merge_related`, over the groups. -/
def mergeGroups : List (String × List MemoryRecord) → Pass → List ConsolidationAction × Pass
  | [], p => ([], p)
  | (subject, group) :: groups, p =>
    let merged :=
      if group.length ≤ 1 then ([], p)
      else
        match byConfidence group with
        | [] => ([], p)
        | primary :: rest => mergeChain C w subject group.length primary [primary] rest p
    let later := mergeGroups groups merged.2
    (merged.1 ++ later.1, later.2)

def mergeRelated (records : List MemoryRecord) (p : Pass) : List ConsolidationAction × Pass :=
  mergeGroups C w (groupBy MemoryRecord.subject records) p

/-- The loop of `_resolve_version_conflicts` over a group. -/
def archiveVersions (latest : MemoryRecord) : List MemoryRecord → Pass →
    List ConsolidationAction × Pass
  | [], p => ([], p)
  | old :: rest, p =>
    if latest.version ≤ old.version then archiveVersions latest rest p
    else
      let archived := archivedCopy w old old.version
        [("archived", .bool true), ("archived_reason", .str "version_conflict_resolved"),
          ("replaced_by", .str latest.id)] p
      let later := archiveVersions latest rest (archived.2.addRecord archived.1 [old])
      ({ actionType := "archive_version"
         targetIds := [old.id]
         reason := "Archived old version of " ++ old.subject } :: later.1, later.2)

/-- `group.sort(key=lambda r: r.version, reverse=True)`. -/
def byVersion (group : List MemoryRecord) : List MemoryRecord :=
  group.insertionSort fun a b => b.version ≤ a.version

/-- `_resolve_version_conflicts`, over the groups. -/
def resolveGroups : List ((String × String) × List MemoryRecord) → Pass →
    List ConsolidationAction × Pass
  | [], p => ([], p)
  | (_, group) :: groups, p =>
    let resolved :=
      if group.length ≤ 1 then ([], p)
      else
        match byVersion group with
        | [] => ([], p)
        | latest :: rest => archiveVersions w latest rest p
    let later := resolveGroups groups resolved.2
    (resolved.1 ++ later.1, later.2)

def resolveVersionConflicts (records : List MemoryRecord) (p : Pass) :
    List ConsolidationAction × Pass :=
  resolveGroups w (groupBy (fun r => (r.subject, r.content)) records) p

/-- The loop of `_archive_old`. -/
def archiveBefore (cutoff : DateTime) : List MemoryRecord → Pass → List ConsolidationAction × Pass
  | [], p => ([], p)
  | record :: records, p =>
    if record.createdAt < cutoff ∧ record.confidence < 1 / 2 then
      let archived := archivedCopy w record (record.version + 1)
        [("archived", .bool true), ("archived_reason", .str "old_low_confidence"),
          ("archived_at", .str (C.isoformat (w.utcNow p.readings)))]
        { p with readings := p.readings + 1 }
      let later := archiveBefore cutoff records (archived.2.addRecord archived.1 [record])
      ({ actionType := "archive"
         targetIds := [record.id]
         reason := "Archived old low-confidence record: " ++ record.subject } :: later.1, later.2)
    else archiveBefore cutoff records p

/-- The cutoff of `_archive_old`: the year before that of a second reading, in the place of the year of
the first. -/
def archiveCutoff (readings : Nat) : Option DateTime :=
  (w.utcNow readings).replaceYear ((w.utcNow (readings + 1)).year - 1)

/-- `_archive_old`. There is no 29th of February in the year before. -/
def archiveOld (records : List MemoryRecord) (p : Pass) :
    Except String (List ConsolidationAction) × Pass :=
  match archiveCutoff w p.readings with
  | none => (.error "day is out of range for month", { p with readings := p.readings + 2 })
  | some cutoff =>
    let archived := archiveBefore C w cutoff records { p with readings := p.readings + 2 }
    (.ok archived.1, archived.2)

def inScope (scope : String) (records : List MemoryRecord) : List MemoryRecord :=
  if scope = "" then records else records.filter fun r => r.scope = scope ∨ r.scope = ""

def consolidate (scope : String) (store : InMemoryMemoryStore) :
    Except String ConsolidationResult × Pass :=
  let records := inScope scope store.exported
  let exact := deduplicateExact C w [] records { store := store }
  let fuzzy := deduplicateFuzzy C w [] records exact.2
  let merged := mergeRelated C w records fuzzy.2
  let conflicts := resolveVersionConflicts w records merged.2
  let archived := archiveOld C w records conflicts.2
  match archived.1 with
  | .error message => (.error message, archived.2)
  | .ok archive =>
    let actions := exact.1 ++ fuzzy.1 ++ merged.1 ++ conflicts.1 ++ archive
    (.ok {
      actionsApplied := actions.length
      recordsMerged := exact.1.length + fuzzy.1.length + merged.1.length
      recordsArchived := archive.length
      conflictsResolved := conflicts.1.length
      actions := actions }, archived.2)

end Stages

end UniversalAgent.Memory
