import UniversalAgent.Foundation.Sorting
import UniversalAgent.Memory.FileStore
import UniversalAgent.Persistence.SqliteMemory
import UniversalAgent.State.Copy

/-!
# Memory — Durability

When the durable memory stores answer as the one in memory does, and when the file store keeps its
records through crashes and corrupted lines.
-/

namespace UniversalAgent.Memory

open UniversalAgent.Core UniversalAgent.Foundation

variable {lines : List MemoryLine} {table : Records} {input : StoreInput} {inputs : List StoreInput}

/-! ## Records in any order -/

instance : Std.Total DatedRecord.SortsBefore :=
  ⟨fun a b => MemoryRecord.SortsBefore.total a.toMemoryRecord b.toMemoryRecord⟩

instance : IsTrans DatedRecord DatedRecord.SortsBefore :=
  ⟨fun _ _ _ hab hbc => MemoryRecord.SortsBefore.trans hab hbc⟩

instance : Std.Total DatedRecord.SortsAfter :=
  ⟨fun a b => MemoryRecord.SortsBefore.total b.toMemoryRecord a.toMemoryRecord⟩

instance : IsTrans DatedRecord DatedRecord.SortsAfter :=
  ⟨fun _ _ _ hab hbc => MemoryRecord.SortsBefore.trans hbc hab⟩

section Orders

variable {records records' : List DatedRecord}

theorem Comparable.of_subset (h : Comparable records) (hsub : records' ⊆ records) :
    Comparable records' :=
  fun a ha b hb => h a (hsub ha) b (hsub hb)

theorem comparable_perm (h : records.Perm records') : Comparable records ↔ Comparable records' :=
  ⟨fun hc => hc.of_subset h.symm.subset, fun hc => hc.of_subset h.subset⟩

theorem id_inj (hn : (records.map fun r => r.id).Nodup) {a b : DatedRecord} (ha : a ∈ records)
    (hb : b ∈ records) (h : a.id = b.id) : a = b :=
  List.inj_on_of_nodup_map hn ha hb h

theorem distinct_oldest (hn : (records.map fun r => r.id).Nodup) :
    Distinct DatedRecord.SortsBefore records :=
  fun _ ha _ hb hab hba => id_inj hn ha hb (MemoryRecord.SortsBefore.id_eq hab hba)

theorem distinct_latest (hn : (records.map fun r => r.id).Nodup) :
    Distinct DatedRecord.SortsAfter records :=
  fun _ ha _ hb hab hba => id_inj hn ha hb (MemoryRecord.SortsBefore.id_eq hba hab)

theorem oldestFirst_perm (hn : (records.map fun r => r.id).Nodup) (h : records.Perm records') :
    oldestFirst records = oldestFirst records' := by
  unfold oldestFirst
  rw [insertionSort_eq_of_perm h (distinct_oldest hn)]
  exact if_congr (comparable_perm h) rfl rfl

theorem latestFirst_perm (hn : (records.map fun r => r.id).Nodup) (h : records.Perm records') :
    latestFirst records = latestFirst records' := by
  unfold latestFirst
  rw [insertionSort_eq_of_perm h (distinct_latest hn)]
  exact if_congr (comparable_perm h) rfl rfl

/-- A query does not depend on the order in which it finds the records. -/
theorem selectRecords_perm (hn : (records.map fun r => r.id).Nodup) (h : records.Perm records')
    (query : MemoryQuery) : selectRecords query records = selectRecords query records' := by
  have hfound := h.filter fun r => query.admits r.toMemoryRecord
  have hnodup := hn.sublist ((List.filter_sublist (p := fun r : DatedRecord =>
    query.admits r.toMemoryRecord)).map fun r : DatedRecord => r.id)
  unfold selectRecords
  cases query.limit with
  | none => exact oldestFirst_perm hnodup hfound
  | some limit => simp only [latestFirst_perm hnodup hfound]

theorem selectRecords_comparable (hc : Comparable records) (query : MemoryQuery) :
    ∃ selected, selectRecords query records = .ok selected := by
  have hfound : Comparable (records.filter fun r => query.admits r.toMemoryRecord) :=
    hc.of_subset (List.filter_subset_self _)
  unfold selectRecords
  cases query.limit with
  | none => exact ⟨_, if_pos hfound⟩
  | some limit =>
    simp only [latestFirst, if_pos hfound]
    exact ⟨_, rfl⟩

end Orders

/-! ## Lines -/

namespace FileMemory

def Writable (record : DatedRecord) : Prop :=
  (Json.obj record.metadata).isPlain = true ∧ (Json.int record.version).isPlain = true

instance (record : DatedRecord) : Decidable (Writable record) :=
  inferInstanceAs (Decidable (_ ∧ _))

theorem writeLine_writable {codec : LineCodec} {record : DatedRecord} (h : Writable record) :
    writeLine codec record = .record record := by
  unfold writeLine
  rw [codec.reread_plain _ h.1, codec.reread_plain _ h.2]
  rfl

theorem mem_recordsOf {record : DatedRecord} : record ∈ recordsOf lines ↔ .record record ∈ lines := by
  unfold recordsOf
  rw [List.mem_filterMap]
  constructor
  · rintro ⟨line, hmem, hline⟩
    cases line with
    | record r => exact Option.some.inj hline ▸ hmem
    | other => cases hline
    | broken => cases hline
  · exact fun hmem => ⟨_, hmem, rfl⟩

theorem recordsOf_records (records : List DatedRecord) :
    recordsOf (records.map .record) = records := by
  unfold recordsOf
  rw [List.filterMap_map]
  exact List.filterMap_some

theorem foldl_put_keeps (records : List DatedRecord) {id : MemoryId}
    (h : ∃ r ∈ table, r.id = id) : ∃ r ∈ records.foldl Table.put table, r.id = id := by
  induction records generalizing table with
  | nil => exact h
  | cons r records ih =>
    refine ih ?_
    obtain ⟨r', hmem, hid⟩ := h
    by_cases he : r'.id = r.id
    · exact ⟨r, Table.mem_put_self table r, he.symm.trans hid⟩
    · exact ⟨r', Table.mem_put.mpr (.inr ⟨hmem, he⟩), hid⟩

theorem foldl_put_covers {records : List DatedRecord} {record : DatedRecord}
    (h : record ∈ records) : ∃ r ∈ records.foldl Table.put table, r.id = record.id := by
  induction records generalizing table with
  | nil => cases h
  | cons r records ih =>
    rcases List.mem_cons.mp h with rfl | h
    · exact foldl_put_keeps records ⟨_, Table.mem_put_self table _, rfl⟩
    · exact ih h

theorem foldl_put_nodup {records : List DatedRecord}
    (h : ((table.rows ++ records).map fun r => r.id).Nodup) :
    (records.foldl Table.put table).rows = table.rows ++ records := by
  induction records generalizing table with
  | nil => simp
  | cons r records ih =>
    have hfresh : r.id ∉ table.rows.map fun r => r.id := by
      intro hmem
      rw [List.map_append, List.nodup_append] at h
      exact h.2.2 _ hmem _ (by simp) rfl
    have hput : (table.put r).rows = table.rows ++ [r] :=
      Table.rows_put_of_fresh (Table.get?_eq_none.mpr fun x hx he => hfresh (List.mem_map.mpr ⟨x, hx, he⟩))
    rw [List.foldl_cons, ih (by rw [hput, List.append_assoc]; exact h), hput, List.append_assoc]
    rfl

/-- What every call needs of the file: its lines can be read, and their records be written again and
compared. -/
structure Calm (lines : List MemoryLine) : Prop where
  readable : .broken ∉ lines
  writable : ∀ r ∈ recordsOf lines, Writable r
  comparable : Comparable (recordsOf lines)

theorem calm_records {records : List DatedRecord} (hw : ∀ r ∈ records, Writable r)
    (hc : Comparable records) : Calm (records.map .record) where
  readable := by simp
  writable := by rw [recordsOf_records]; exact hw
  comparable := by rw [recordsOf_records]; exact hc

theorem Calm.load (h : Calm lines) :
    ∃ table, load lines = .ok table ∧ (∀ r ∈ table, r ∈ recordsOf lines) ∧
      ∀ r ∈ recordsOf lines, ∃ r' ∈ table, r'.id = r.id := by
  refine ⟨_, if_neg h.readable, fun r hr => ?_, fun r hr => foldl_put_covers hr⟩
  exact (Table.of_mem_foldl_put hr).resolve_right (Table.not_mem_empty r)

theorem load_records {records : List DatedRecord} (hn : (records.map fun r => r.id).Nodup) :
    FileMemory.load (records.map .record) = .ok ⟨records, hn⟩ := by
  unfold FileMemory.load
  rw [if_neg (by simp), recordsOf_records]
  exact congrArg Except.ok (Table.ext (foldl_put_nodup hn))

/-! ## Calls -/

/-- The record's id is there, or the record can be written and its time be compared with those that are
there. -/
def Addable (lines : List MemoryLine) (record : DatedRecord) : Prop :=
  (∃ r ∈ recordsOf lines, r.id = record.id) ∨
    Writable record ∧ ∀ r ∈ recordsOf lines, r.utcoffset.isSome = record.utcoffset.isSome

instance (lines : List MemoryLine) (record : DatedRecord) : Decidable (Addable lines record) :=
  inferInstanceAs (Decidable (_ ∨ _))

def Sound (lines : List MemoryLine) : StoreInput → Prop
  | .call (.add record) => Addable lines record
  | _ => True

instance (lines : List MemoryLine) : ∀ input, Decidable (Sound lines input)
  | .call (.add record) => inferInstanceAs (Decidable (Addable lines record))
  | .call (.get _) | .call (.delete _) | .call .exported | .call (.query _) | .reopen =>
    .isTrue trivial

def linesOf (table : Records) : List MemoryLine :=
  (table.rows.insertionSort DatedRecord.SortsBefore).map .record

section Specs

variable {codec : LineCodec} {lines : List MemoryLine} {table : Records}

theorem recordsOf_linesOf : recordsOf (linesOf table) =
    table.rows.insertionSort DatedRecord.SortsBefore := recordsOf_records _

theorem mem_recordsOf_linesOf {r : DatedRecord} : r ∈ recordsOf (linesOf table) ↔ r ∈ table := by
  rw [recordsOf_linesOf, List.mem_insertionSort]
  exact Iff.rfl

theorem calm_linesOf (hw : ∀ r ∈ table, Writable r) (hc : Comparable table.rows) :
    Calm (linesOf table) :=
  calm_records (fun r hr => hw r ((List.mem_insertionSort _).mp hr))
    (hc.of_subset fun _ hr => (List.mem_insertionSort _).mp hr)

theorem load_linesOf : ∃ loaded, load (linesOf table) = .ok loaded ∧
    loaded.rows.Perm table.rows := by
  have hperm := List.perm_insertionSort DatedRecord.SortsBefore table.rows
  exact ⟨_, load_records ((hperm.map _).nodup_iff.mpr table.nodup), hperm⟩

theorem save_ok (hw : ∀ r ∈ table, Writable r) (hc : Comparable table.rows) :
    save codec table = .ok (linesOf table) := by
  have hsort : oldestFirst table.rows = .ok (table.rows.insertionSort DatedRecord.SortsBefore) :=
    if_pos hc
  unfold save
  rw [hsort, Except.ok_bind]
  refine congrArg Except.ok (List.map_congr_left fun r hr => ?_)
  exact writeLine_writable (hw r ((List.mem_insertionSort _).mp hr))

theorem loaded_comparable (hc : Calm lines) (ht : ∀ r ∈ table, r ∈ recordsOf lines) :
    Comparable table.rows :=
  hc.comparable.of_subset ht

theorem put_comparable {record : DatedRecord}
    (hr : ∀ r ∈ table, r.utcoffset.isSome = record.utcoffset.isSome) :
    Comparable (table.put record).rows := by
  have hkind : ∀ r ∈ table.put record, r.utcoffset.isSome = record.utcoffset.isSome := by
    intro r hmem
    rcases Table.mem_put.mp hmem with rfl | ⟨hmem, -⟩
    · rfl
    · exact hr r hmem
  exact fun a ha b hb => (hkind a ha).trans (hkind b hb).symm

/-- The answer of a call on the records that it has loaded, and the lines that it writes. -/
def outcome (table : Records) : StoreCall → StoreAnswer × Option (List MemoryLine)
  | .add record =>
    if (table.get? record.id).isSome then (.added false, none)
    else (.added true, some (linesOf (table.put record)))
  | .get memoryId => (.found (table.get? memoryId), none)
  | .delete memoryId =>
    if (table.get? memoryId).isSome then (.deleted true, some (linesOf (table.erase memoryId)))
    else (.deleted false, none)
  | .exported => (.ofRecords (oldestFirst table.rows), none)
  | .query query => (.ofRecords (selectRecords query table.rows), none)

/-- What a call does to lines that are as they should be. -/
theorem change_spec (codec : LineCodec) (hl : load lines = .ok table) (hw : ∀ r ∈ table, Writable r)
    (hc : Comparable table.rows) (call : StoreCall)
    (hadd : ∀ record, call = .add record → table.get? record.id = none →
      Writable record ∧ Comparable (table.put record).rows) :
    change codec lines call = .ok (outcome table call) := by
  have hsort : oldestFirst table.rows = .ok (table.rows.insertionSort DatedRecord.SortsBefore) :=
    if_pos hc
  cases call with
  | add record =>
    simp only [change, outcome, hl, Except.ok_bind]
    by_cases hold : (table.get? record.id).isSome = true
    · rw [if_pos hold, if_pos hold]
      rfl
    · have hnew : table.get? record.id = none := by simpa using hold
      obtain ⟨hwr, hcr⟩ := hadd record rfl hnew
      have hsave : save codec (table.put record) = .ok (linesOf (table.put record)) := by
        refine save_ok (fun r hr => ?_) hcr
        rcases Table.mem_put.mp hr with rfl | ⟨hmem, -⟩
        · exact hwr
        · exact hw r hmem
      rw [if_neg hold, if_neg hold, hsave]
      rfl
  | get memoryId =>
    simp only [change, outcome, hl, Except.ok_bind]
    rfl
  | delete memoryId =>
    simp only [change, outcome, hl, Except.ok_bind]
    by_cases hold : (table.get? memoryId).isSome = true
    · have hsave : save codec (table.erase memoryId) = .ok (linesOf (table.erase memoryId)) :=
        save_ok (fun r hr => hw r (Table.mem_erase.mp hr).1)
          (hc.of_subset fun _ hr => (Table.mem_erase.mp hr).1)
      rw [if_pos hold, if_pos hold, hsave]
      rfl
    · rw [if_neg hold, if_neg hold]
      rfl
  | exported =>
    simp only [change, outcome, hl, Except.ok_bind, hsort]
    rfl
  | query query =>
    have hperm := List.perm_insertionSort DatedRecord.SortsBefore table.rows
    have hselect := selectRecords_perm ((hperm.map _).nodup_iff.mpr table.nodup) hperm query
    obtain ⟨selected, hselected⟩ := selectRecords_comparable hc query
    simp only [change, outcome, hl, Except.ok_bind, hsort, hselect, hselected]
    rfl

end Specs

/-! ## The file store and the store in memory -/

variable {codec : LineCodec}

def Holds (lines : List MemoryLine) (store : Records) : Prop :=
  Calm lines ∧ ∃ table, load lines = .ok table ∧ (∀ r ∈ table, r ∈ recordsOf lines) ∧
    ∀ r, r ∈ table ↔ r ∈ store

theorem holds_linesOf {table store : Records} (hw : ∀ r ∈ table, Writable r)
    (hc : Comparable table.rows) (hsame : ∀ r, r ∈ table ↔ r ∈ store) :
    Holds (linesOf table) store := by
  obtain ⟨loaded, hload, hperm⟩ := load_linesOf
  refine ⟨calm_linesOf hw hc, loaded, hload, fun r hr => ?_, fun r => ?_⟩
  · exact mem_recordsOf_linesOf.mpr (hperm.mem_iff.mp hr)
  · exact (hperm.mem_iff (a := r)).trans (hsame r)

/-- An add that is sound, of a record whose id is new. -/
theorem addable_new {record : DatedRecord}
    (ht : ∀ r ∈ table, r ∈ recordsOf lines)
    (hcovers : ∀ r ∈ recordsOf lines, ∃ r' ∈ table, r'.id = r.id) (hadd : Addable lines record)
    (hnew : table.get? record.id = none) :
    Writable record ∧ Comparable (table.put record).rows := by
  rcases hadd with ⟨r, hr, hid⟩ | ⟨hw, hkind⟩
  · obtain ⟨r', hr', hid'⟩ := hcovers r hr
    exact absurd (hid'.trans hid) (Table.get?_eq_none.mp hnew r' hr')
  · exact ⟨hw, put_comparable fun r hr => hkind r (ht r hr)⟩

theorem step_refines {store : Records}
    (h : Holds lines store) (hs : Sound lines input) :
    (step codec lines input).1 = (DatedStore.step store input).1 ∧
      Holds (step codec lines input).2 (DatedStore.step store input).2 := by
  cases input with
  | reopen => exact ⟨rfl, h⟩
  | call c =>
    obtain ⟨hcalm, table, hload, hmem, hsame⟩ := h
    obtain ⟨loaded, hload', -, hcovers⟩ := hcalm.load
    obtain rfl : table = loaded := Except.ok.inj (hload.symm.trans hload')
    have hw : ∀ r ∈ table, Writable r := fun r hr => hcalm.writable r (hmem r hr)
    have hc := loaded_comparable hcalm hmem
    have hget : ∀ id, table.get? id = store.get? id := fun id => Table.get?_congr hsame id
    have hperm : table.rows.Perm store.rows := Table.perm_of_mem_iff hsame
    have hspec := change_spec codec hload hw hc c (by
      rintro record rfl hnew
      exact addable_new hmem hcovers hs hnew)
    simp only [step, call, hspec, outcome, DatedStore.step]
    cases c with
    | add record =>
      simp only [DatedStore.call, hget]
      by_cases hold : (store.get? record.id).isSome = true
      · rw [if_pos hold, if_pos hold]
        exact ⟨rfl, hcalm, table, hload, hmem, hsame⟩
      · have hnew : table.get? record.id = none := by rw [hget]; simpa using hold
        obtain ⟨hwr, hcr⟩ := addable_new hmem hcovers hs hnew
        rw [if_neg hold, if_neg hold]
        refine ⟨rfl, holds_linesOf (fun r hr => ?_) hcr fun r => ?_⟩
        · rcases Table.mem_put.mp hr with rfl | ⟨hr, -⟩
          · exact hwr
          · exact hw r hr
        · rw [Table.mem_put, Table.mem_put, hsame]
    | get memoryId =>
      simp only [DatedStore.call, hget]
      exact ⟨trivial, hcalm, table, hload, hmem, hsame⟩
    | delete memoryId =>
      simp only [DatedStore.call, hget]
      by_cases hold : (store.get? memoryId).isSome = true
      · rw [if_pos hold]
        refine ⟨by rw [hold], holds_linesOf (fun r hr => hw r (Table.mem_erase.mp hr).1)
          (hc.of_subset fun _ hr => (Table.mem_erase.mp hr).1) fun r => ?_⟩
        rw [Table.mem_erase, Table.mem_erase, hsame]
      · have hnone : store.get? memoryId = none := by simpa using hold
        rw [if_neg hold]
        refine ⟨by simp [hnone], hcalm, table, hload, hmem, fun r => ?_⟩
        rw [hsame, Table.mem_erase]
        exact ⟨fun hr => ⟨hr, Table.get?_eq_none.mp hnone r hr⟩, And.left⟩
    | exported =>
      simp only [DatedStore.call, oldestFirst_perm table.nodup hperm]
      exact ⟨trivial, hcalm, table, hload, hmem, hsame⟩
    | query query =>
      simp only [DatedStore.call, selectRecords_perm table.nodup hperm]
      exact ⟨trivial, hcalm, table, hload, hmem, hsame⟩

theorem holds_nil : Holds [] .empty := by
  refine ⟨⟨by simp, by simp [recordsOf], by simp [Comparable, recordsOf]⟩, .empty, rfl, ?_, ?_⟩
  · exact fun r hr => absurd hr (Table.not_mem_empty r)
  · exact fun r => Iff.rfl

/-- A file store whose adds are sound answers as the store in memory does. -/
theorem file_refines
    (h : (machine codec).Meets (fun _ => Sound) inputs) :
    (machine codec).answers inputs = DatedStore.machine.answers inputs := by
  have hlock := (machine codec).lockstep DatedStore.machine (C := fun _ => Sound)
    (fun _ lines store => Holds lines store) Eq holds_nil
    (fun _ _ _ _ hr hc => step_refines hr hc) h
  exact List.forall₂_eq_eq_eq ▸ hlock.1

/-! ## Crashes and corruption -/

/-- The records whose add has returned true, and that have not been deleted since; a delete that
crashed leaves its record out. -/
def keepLive (live : List DatedRecord) : FileInput × StoreAnswer → List DatedRecord
  | (.ordinary (.call (.add record)), .added true) => live ++ [record]
  | (.ordinary (.call (.delete memoryId)), .deleted true) =>
    live.filter fun r => decide (r.id ≠ memoryId)
  | (.crash (.delete memoryId) _, _) => live.filter fun r => decide (r.id ≠ memoryId)
  | _ => live

def live (history : List (FileInput × StoreAnswer)) : List DatedRecord := history.foldl keepLive []

/-- The lines that a crash leaves hold the records, and no part of one. -/
def LeavesAll (content : List MemoryLine) (point : CrashPoint) (records : List DatedRecord) : Prop :=
  match point with
  | .untouched => True
  | .within n part => part = false ∧ ∀ r ∈ records, .record r ∈ content.take n

instance (content : List MemoryLine) (point : CrashPoint) (records : List DatedRecord) :
    Decidable (LeavesAll content point records) := by
  unfold LeavesAll
  split <;> infer_instance

/-- A corruption that leaves JSON, the records that are live as they are, and no others with their
ids. -/
def Harmless (live : List DatedRecord) (lines : List MemoryLine) (index : Nat)
    (line : MemoryLine) : Prop :=
  line ≠ .broken ∧
    (∀ r ∈ recordsOf [line], Writable r ∧ (∀ r' ∈ live, r'.id = r.id → r' = r) ∧
      ∀ r' ∈ recordsOf lines, r'.utcoffset.isSome = r.utcoffset.isSome) ∧
    ∀ r ∈ live, lines[index]? = some (.record r) → line = .record r

instance (live : List DatedRecord) (lines : List MemoryLine) (index : Nat) (line : MemoryLine) :
    Decidable (Harmless live lines index line) :=
  inferInstanceAs (Decidable (_ ∧ (∀ r ∈ recordsOf [line], _) ∧ ∀ r ∈ live, _))

def Careful (codec : LineCodec) (history : List (FileInput × StoreAnswer))
    (lines : List MemoryLine) : FileInput → Prop
  | .ordinary input => Sound lines input
  | .crash (.add record) point => Sound lines (.call (.add record)) ∧
      ∀ content ∈ written codec lines (.add record), LeavesAll content point (live history)
  | .crash (.delete memoryId) point =>
    ∀ content ∈ written codec lines (.delete memoryId),
      LeavesAll content point ((live history).filter fun r => decide (r.id ≠ memoryId))
  | .crash _ _ => True
  | .corrupt index line => Harmless (live history) lines index line

instance (codec : LineCodec) (history : List (FileInput × StoreAnswer)) (lines : List MemoryLine) :
    ∀ input, Decidable (Careful codec history lines input)
  | .ordinary input => inferInstanceAs (Decidable (Sound lines input))
  | .crash (.add record) _ =>
    inferInstanceAs (Decidable (_ ∧ ∀ content ∈ written codec lines (.add record), _))
  | .crash (.delete memoryId) _ =>
    inferInstanceAs (Decidable (∀ content ∈ written codec lines (.delete memoryId), _))
  | .crash (.get _) _ | .crash .exported _ | .crash (.query _) _ => .isTrue trivial
  | .corrupt index line => inferInstanceAs (Decidable (Harmless (live history) lines index line))

structure Kept (codec : LineCodec) (history : List (FileInput × StoreAnswer))
    (lines : List MemoryLine) : Prop where
  get : ∀ r ∈ live history, (step codec lines (.call (.get r.id))).1 = .found (some r)
  exported : ∃ records, (step codec lines (.call .exported)).1 = .records records ∧
    ∀ r ∈ live history, r ∈ records
  calm : ∀ x ∈ history, ∀ e, x.2 ≠ .raised e

structure Promise (promised : List DatedRecord) (lines : List MemoryLine) : Prop where
  calm : Calm lines
  there : ∀ r ∈ promised, r ∈ recordsOf lines
  only : ∀ r ∈ promised, ∀ r' ∈ recordsOf lines, r'.id = r.id → r' = r

section Promises

variable {promised : List DatedRecord} {lines : List MemoryLine} {table : Records}

theorem Promise.of_subset {fewer : List DatedRecord} (h : Promise promised lines)
    (hsub : fewer ⊆ promised) : Promise fewer lines :=
  ⟨h.calm, fun r hr => h.there r (hsub hr), fun r hr => h.only r (hsub hr)⟩

theorem Promise.load (h : Promise promised lines) :
    ∃ table, load lines = .ok table ∧ (∀ r ∈ table, r ∈ recordsOf lines) ∧
      (∀ r ∈ recordsOf lines, ∃ r' ∈ table, r'.id = r.id) ∧ ∀ r ∈ promised, r ∈ table := by
  obtain ⟨table, hload, hmem, hcovers⟩ := h.calm.load
  refine ⟨table, hload, hmem, hcovers, fun r hr => ?_⟩
  obtain ⟨r', hr', hid⟩ := hcovers r (h.there r hr)
  exact h.only r hr r' (hmem r' hr') hid ▸ hr'

/-- Lines that were written of a table, all or the first of them. -/
theorem promise_take (hw : ∀ r ∈ table, Writable r) (hc : Comparable table.rows) (n : Nat)
    (h : ∀ r ∈ promised, .record r ∈ (linesOf table).take n) :
    Promise promised ((linesOf table).take n) := by
  have hsub : ∀ r ∈ recordsOf ((linesOf table).take n), r ∈ table := fun r hr =>
    mem_recordsOf_linesOf.mp (mem_recordsOf.mpr (List.mem_of_mem_take (mem_recordsOf.mp hr)))
  refine ⟨⟨fun hb => ?_, fun r hr => hw r (hsub r hr), hc.of_subset hsub⟩,
    fun r hr => mem_recordsOf.mpr (h r hr), fun r hr r' hr' hid => ?_⟩
  · exact (calm_linesOf hw hc).readable (List.mem_of_mem_take hb)
  · exact Table.eq_of_key (hsub r' hr') (hsub r (mem_recordsOf.mpr (h r hr))) hid

theorem promise_linesOf (hw : ∀ r ∈ table, Writable r) (hc : Comparable table.rows)
    (h : ∀ r ∈ promised, r ∈ table) : Promise promised (linesOf table) := by
  have htake := promise_take hw hc (linesOf table).length (by
    intro r hr
    rw [List.take_length]
    exact mem_recordsOf.mp (mem_recordsOf_linesOf.mpr (h r hr)))
  rwa [List.take_length] at htake

/-- A corruption that is harmless keeps what was promised. -/
theorem Promise.corrupt (h : Promise promised lines) {index : Nat} {line : MemoryLine}
    (hh : Harmless promised lines index line) : Promise promised (lines.set index line) := by
  obtain ⟨hreadable, hnew, hold⟩ := hh
  have hmem : ∀ r ∈ recordsOf (lines.set index line), r ∈ recordsOf [line] ∨ r ∈ recordsOf lines := by
    intro r hr
    rcases List.mem_or_eq_of_mem_set (mem_recordsOf.mp hr) with hmem | heq
    · exact .inr (mem_recordsOf.mpr hmem)
    · exact .inl (mem_recordsOf.mpr (by simp [heq]))
  refine ⟨⟨fun hb => ?_, fun r hr => ?_, fun a ha b hb => ?_⟩, fun r hr => ?_,
    fun r hr r' hr' hid => ?_⟩
  · rcases List.mem_or_eq_of_mem_set hb with hb | hb
    · exact h.calm.readable hb
    · exact hreadable hb.symm
  · exact (hmem r hr).elim (fun hr => (hnew r hr).1) fun hr => h.calm.writable r hr
  · rcases hmem a ha with ha | ha
    · rcases hmem b hb with hb | hb
      · have hab : a = b := by
          have ha' := mem_recordsOf.mp ha
          have hb' := mem_recordsOf.mp hb
          rw [List.mem_singleton] at ha' hb'
          exact MemoryLine.record.inj (ha'.trans hb'.symm)
        rw [hab]
      · exact ((hnew a ha).2.2 b hb).symm
    · rcases hmem b hb with hb | hb
      · exact (hnew b hb).2.2 a ha
      · exact h.calm.comparable a ha b hb
  · rw [mem_recordsOf]
    obtain ⟨j, hj⟩ := List.getElem?_of_mem (mem_recordsOf.mp (h.there r hr))
    by_cases hij : index = j
    · subst hij
      have hlt : index < lines.length := (List.getElem?_eq_some_iff.mp hj).1
      rw [hold r hr hj]
      exact List.mem_of_getElem? (List.getElem?_set_self hlt)
    · exact List.mem_of_getElem? ((List.getElem?_set_ne hij).trans hj)
  · rcases hmem r' hr' with hr' | hr'
    · exact ((hnew r' hr').2.1 r hr hid.symm).symm
    · exact h.only r hr r' hr' hid

variable {codec : LineCodec}

theorem put_writable {record : DatedRecord} (hw : ∀ r ∈ table, Writable r)
    (hr : Writable record) : ∀ r ∈ table.put record, Writable r := by
  intro r hmem
  rcases Table.mem_put.mp hmem with rfl | ⟨hmem, -⟩
  · exact hr
  · exact hw r hmem

theorem erase_promised {memoryId : MemoryId} (h : ∀ r ∈ promised, r ∈ table) :
    ∀ r ∈ promised.filter fun r => decide (r.id ≠ memoryId), r ∈ table.erase memoryId := by
  intro r hr
  obtain ⟨hr, hne⟩ := List.mem_filter.mp hr
  exact Table.mem_erase.mpr ⟨h r hr, of_decide_eq_true hne⟩

theorem Promise.call (h : Promise promised lines) (hs : Sound lines input) :
    Promise (keepLive promised (.ordinary input, (step codec lines input).1))
        (step codec lines input).2 ∧
      ∀ e, (step codec lines input).1 ≠ .raised e := by
  cases input with
  | reopen => exact ⟨h, by simp [step]⟩
  | call c =>
    obtain ⟨table, hload, hmem, hcovers, hthere⟩ := h.load
    have hw : ∀ r ∈ table, Writable r := fun r hr => h.calm.writable r (hmem r hr)
    have hc := loaded_comparable h.calm hmem
    have hspec := change_spec codec hload hw hc c (by
      rintro record rfl hnew
      exact addable_new hmem hcovers hs hnew)
    simp only [step, FileMemory.call, hspec]
    cases c with
    | add record =>
      by_cases hold : (table.get? record.id).isSome = true
      · simp only [outcome, if_pos hold]
        exact ⟨h, by simp⟩
      · have hnew : table.get? record.id = none := by simpa using hold
        obtain ⟨hwr, hcr⟩ := addable_new hmem hcovers hs hnew
        simp only [outcome, if_neg hold]
        refine ⟨promise_linesOf (put_writable hw hwr) hcr fun r hr => ?_, by simp⟩
        rcases List.mem_append.mp hr with hr | hr
        · exact Table.mem_put.mpr (.inr ⟨hthere r hr, Table.get?_eq_none.mp hnew r (hthere r hr)⟩)
        · exact List.mem_singleton.mp hr ▸ Table.mem_put_self table record
    | get memoryId =>
      simp only [outcome]
      exact ⟨h, by simp⟩
    | delete memoryId =>
      by_cases hold : (table.get? memoryId).isSome = true
      · simp only [outcome, if_pos hold]
        exact ⟨promise_linesOf (fun r hr => hw r (Table.mem_erase.mp hr).1)
          (hc.of_subset fun _ hr => (Table.mem_erase.mp hr).1) (erase_promised hthere), by simp⟩
      · simp only [outcome, if_neg hold]
        exact ⟨h, by simp⟩
    | exported =>
      have hsort : oldestFirst table.rows
          = .ok (table.rows.insertionSort DatedRecord.SortsBefore) := if_pos hc
      simp only [outcome, hsort]
      exact ⟨h, by simp [StoreAnswer.ofRecords]⟩
    | query query =>
      obtain ⟨selected, hselected⟩ := selectRecords_comparable hc query
      simp only [outcome, hselected]
      exact ⟨h, by simp [StoreAnswer.ofRecords]⟩

theorem Promise.crash {history : List (FileInput × StoreAnswer)}
    (h : Promise (live history) lines) {c : StoreCall} {point : CrashPoint}
    (hs : Careful codec history lines (.crash c point)) :
    Promise (keepLive (live history) (.crash c point, .nothing))
      (faultyStep codec lines (.crash c point)).2 := by
  obtain ⟨table, hload, hmem, hcovers, hthere⟩ := h.load
  have hw : ∀ r ∈ table, Writable r := fun r hr => h.calm.writable r (hmem r hr)
  have hc := loaded_comparable h.calm hmem
  have hspec := change_spec codec hload hw hc c (by
    rintro record rfl hnew
    exact addable_new hmem hcovers hs.1 hnew)
  cases c with
  | add record =>
    by_cases hold : (table.get? record.id).isSome = true
    · have hwritten : written codec lines (.add record) = none := by
        unfold written
        rw [hspec, outcome, if_pos hold]
      simp only [faultyStep, hwritten]
      exact h
    · have hnew : table.get? record.id = none := by simpa using hold
      obtain ⟨hwr, hcr⟩ := addable_new hmem hcovers hs.1 hnew
      have hwritten : written codec lines (.add record) = some (linesOf (table.put record)) := by
        unfold written
        rw [hspec, outcome, if_neg hold]
      have hleft := hs.2 _ hwritten
      simp only [faultyStep, hwritten]
      cases point with
      | untouched => exact h
      | within n part =>
        obtain ⟨rfl, hlive⟩ := hleft
        simp only [leftOf, Bool.false_eq_true, if_false, List.append_nil]
        exact promise_take (put_writable hw hwr) hcr n hlive
  | delete memoryId =>
    have hfewer : Promise ((live history).filter fun r => decide (r.id ≠ memoryId)) lines :=
      h.of_subset (List.filter_subset_self _)
    by_cases hold : (table.get? memoryId).isSome = true
    · have hwritten : written codec lines (.delete memoryId)
          = some (linesOf (table.erase memoryId)) := by
        unfold written
        rw [hspec, outcome, if_pos hold]
      have hleft := hs _ hwritten
      simp only [faultyStep, hwritten]
      cases point with
      | untouched => exact hfewer
      | within n part =>
        obtain ⟨rfl, hlive⟩ := hleft
        simp only [leftOf, Bool.false_eq_true, if_false, List.append_nil]
        exact promise_take (fun r hr => hw r (Table.mem_erase.mp hr).1)
          (hc.of_subset fun _ hr => (Table.mem_erase.mp hr).1) n hlive
    · have hwritten : written codec lines (.delete memoryId) = none := by
        unfold written
        rw [hspec, outcome, if_neg hold]
      simp only [faultyStep, hwritten]
      exact hfewer
  | get memoryId =>
    have hwritten : written codec lines (.get memoryId) = none := by
      unfold written
      rw [hspec, outcome]
    simp only [faultyStep, hwritten]
    exact h
  | exported =>
    have hwritten : written codec lines .exported = none := by
      unfold written
      rw [hspec, outcome]
    simp only [faultyStep, hwritten]
    exact h
  | query query =>
    have hwritten : written codec lines (.query query) = none := by
      unfold written
      rw [hspec, outcome]
    simp only [faultyStep, hwritten]
    exact h

theorem live_snoc (history : List (FileInput × StoreAnswer)) (x : FileInput × StoreAnswer) :
    live (history ++ [x]) = keepLive (live history) x := by
  unfold live
  rw [List.foldl_append]
  rfl

theorem promise_step {history : List (FileInput × StoreAnswer)} {input : FileInput}
    (h : Promise (live history) lines) (hs : Careful codec history lines input) :
    Promise (live (history ++ [(input, (faultyStep codec lines input).1)]))
        (faultyStep codec lines input).2 ∧
      ∀ e, (faultyStep codec lines input).1 ≠ .raised e := by
  rw [live_snoc]
  cases input with
  | ordinary input => exact h.call hs
  | crash c point =>
    have hanswer : (faultyStep codec lines (.crash c point)).1 = .nothing := by
      simp only [faultyStep]
      split <;> rfl
    rw [hanswer]
    exact ⟨h.crash hs, by simp⟩
  | corrupt index line => exact ⟨h.corrupt hs, by simp [faultyStep]⟩

theorem promise_run {inputs : List FileInput}
    (h : (faultyMachine codec).Meets (Careful codec) inputs) :
    Promise (live ((faultyMachine codec).history inputs)) ((faultyMachine codec).state inputs) ∧
      ∀ x ∈ (faultyMachine codec).history inputs, ∀ e, x.2 ≠ .raised e := by
  refine (faultyMachine codec).induct (C := Careful codec)
    (fun history lines => Promise (live history) lines ∧ ∀ x ∈ history, ∀ e, x.2 ≠ .raised e)
    ⟨⟨holds_nil.1, by simp [live], by simp [live]⟩, by simp⟩ ?_ h
  rintro history lines input ⟨hp, hcalm⟩ hs
  obtain ⟨hp', hanswer⟩ := promise_step hp hs
  refine ⟨hp', fun x hx => ?_⟩
  rcases List.mem_append.mp hx with hx | hx
  · exact hcalm x hx
  · exact List.mem_singleton.mp hx ▸ hanswer

theorem Promise.kept {history : List (FileInput × StoreAnswer)} (h : Promise (live history) lines)
    (hcalm : ∀ x ∈ history, ∀ e, x.2 ≠ .raised e) : Kept codec history lines := by
  obtain ⟨table, hload, hmem, -, hthere⟩ := h.load
  have hw : ∀ r ∈ table, Writable r := fun r hr => h.calm.writable r (hmem r hr)
  have hc := loaded_comparable h.calm hmem
  have hspec : ∀ c, (∀ record, c ≠ .add record) →
      change codec lines c = .ok (outcome table c) := fun c hne =>
    change_spec codec hload hw hc c fun record he => absurd he (hne record)
  refine ⟨fun r hr => ?_, ?_, hcalm⟩
  · simp only [step, FileMemory.call, hspec (.get r.id) (by simp), outcome]
    rw [Table.get?_of_mem (hthere r hr)]
  · have hsort : oldestFirst table.rows = .ok (table.rows.insertionSort DatedRecord.SortsBefore) :=
      if_pos hc
    refine ⟨table.rows.insertionSort DatedRecord.SortsBefore, ?_, fun r hr => ?_⟩
    · simp only [step, FileMemory.call, hspec .exported (by simp), outcome, hsort]
      rfl
    · exact (List.mem_insertionSort _).mpr (hthere r hr)

end Promises

end FileMemory

end UniversalAgent.Memory

/-! ## The SQLite store -/

namespace UniversalAgent.Persistence.SqliteMemory

open UniversalAgent.Core UniversalAgent.Foundation UniversalAgent.Memory UniversalAgent.State

variable {codec : JsonCodec} {texts : TimeTexts}

/-- JSON text holds the metadata, and an integer of SQLite the version. -/
def Storable (record : DatedRecord) : Prop :=
  Json.fieldsPlain record.metadata = true ∧ -(2 ^ 63) ≤ record.version ∧ record.version < 2 ^ 63

instance (record : DatedRecord) : Decidable (Storable record) :=
  inferInstanceAs (Decidable (_ ∧ _))

/-- A record that is added can be, and an export finds times of one kind, whose texts sort as they
do. -/
def Sound (texts : TimeTexts) (table : Records) : StoreInput → Prop
  | .call (.add record) => (∃ r ∈ table.rows, r.id = record.id) ∨ Storable record
  | .call .exported => Comparable table.rows ∧
      ∀ a ∈ table.rows, ∀ b ∈ table.rows, TextBefore texts a b ↔ a.SortsBefore b
  | _ => True

instance (texts : TimeTexts) (table : Records) : ∀ input, Decidable (Sound texts table input)
  | .call (.add _) => inferInstanceAs (Decidable (_ ∨ _))
  | .call .exported => inferInstanceAs (Decidable (_ ∧ _))
  | .call (.get _) | .call (.delete _) | .call (.query _) | .reopen => .isTrue trivial

theorem exported_perm (texts : TimeTexts) (table : Records) :
    (exported texts table).Perm table.rows :=
  List.perm_insertionSort _ _

theorem step_refines (codec : JsonCodec)
    (hs : Sound texts table input) :
    step codec texts table input = DatedStore.step table input := by
  cases input with
  | reopen => rfl
  | call c =>
    cases c with
    | add record =>
      simp only [step, DatedStore.step, call, DatedStore.call]
      by_cases hold : (table.get? record.id).isSome = true
      · rw [if_pos hold, if_pos hold]
      · have hnew : table.get? record.id = none := by simpa using hold
        rcases hs with ⟨r, hr, hid⟩ | ⟨hplain, hversion⟩
        · exact absurd hid (Table.get?_eq_none.mp hnew r hr)
        · have hrow : memoryRow codec record = .ok record := by
            unfold memoryRow
            rw [(copyMapping_eq_self codec).mpr hplain]
            exact if_pos hversion
          rw [if_neg hold, if_neg hold, hrow]
    | get memoryId => rfl
    | delete memoryId => rfl
    | exported =>
      obtain ⟨hc, horder⟩ := hs
      have hsort : exported texts table
          = table.rows.insertionSort DatedRecord.SortsBefore := by
        have h := List.map_insertionSort (TextBefore texts) DatedRecord.SortsBefore id table.rows
          horder
        rwa [List.map_id, List.map_id] at h
      have holdest : oldestFirst table.rows
          = .ok (table.rows.insertionSort DatedRecord.SortsBefore) := if_pos hc
      simp only [step, DatedStore.step, call, DatedStore.call, hsort, holdest]
      rfl
    | query query =>
      have hperm := exported_perm texts table
      simp only [step, DatedStore.step, call, DatedStore.call,
        selectRecords_perm ((hperm.map _).nodup_iff.mpr table.nodup) hperm query]

theorem sqlite_refines
    (h : (machine codec texts).Meets (fun _ => Sound texts) inputs) :
    (machine codec texts).answers inputs = DatedStore.machine.answers inputs := by
  have hlock := (machine codec texts).lockstep DatedStore.machine (C := fun _ => Sound texts)
    (fun _ table store => table = store) Eq rfl
    (fun _ table _ _ hr hc => by
      obtain rfl := hr
      have hstep := step_refines codec hc
      exact ⟨congrArg Prod.fst hstep, congrArg Prod.snd hstep⟩) h
  exact List.forall₂_eq_eq_eq ▸ hlock.1

end UniversalAgent.Persistence.SqliteMemory

/-! ## The durable stores -/

namespace UniversalAgent.Memory

open UniversalAgent.Core UniversalAgent.Foundation UniversalAgent.Persistence

def plainLines : LineCodec where
  reread v := if v.isPlain then some v else none
  reread_plain _ h := if_pos h

/-- Texts for times in UTC, by the number of microseconds in the day. -/
def dailyTexts : TimeTexts where
  isoformat t _ := toString t.microsecond

theorem deployment_given : Text.isBlank "deployment" = false := by decide

def sampleRecord (id : MemoryId) : DatedRecord where
  kind := .semantic
  subject := "deployment"
  content := "never on a friday"
  scope := ""
  confidence := 1
  sourceSessionId := none
  id := id
  createdAt := ⟨2026, 1, 1, 0, DateTime.newYear_isDate, DateTime.midnight_isTime⟩
  version := 1
  tags := []
  source := "user"
  metadata := []
  confidence_bounded := MemoryRecord.certain_bounded
  subject_given := deployment_given
  content_given := by decide
  utcoffset := some 0

end UniversalAgent.Memory
