import UniversalAgent.Core.Dictionaries
import UniversalAgent.Foundation.Sorting
import UniversalAgent.Persistence.PostgresMemory

/-!
# Persistence — MemoryIsolation

When the tenants of one memory table are isolated from each other: each call is then answered, as far
as it tells a tenant of its own records, as if the other tenants had made no call.
-/

namespace UniversalAgent.Persistence

open UniversalAgent.Core UniversalAgent.Foundation UniversalAgent.Memory UniversalAgent.State

/-! ## The condition -/

def newerCount (records : List MemoryRecord) (x : MemoryRecord) : Nat :=
  countBefore MemoryRecord.SortsAfter records x

/-- The others' records push none of the tenant's out of a cut, or into one. -/
def Uncrowded (tenant : TenantId) (limit : Int) (found : List MemoryRecord) : Prop :=
  ∀ x ∈ found, ofTenant tenant x = true →
    (newerCount found x < sliceLength limit found.length ↔
      newerCount (found.filter (ofTenant tenant)) x <
        sliceLength limit (found.filter (ofTenant tenant)).length)

namespace MemoryTable

def OwnId (table : MemoryTable) (tenant : TenantId) (memoryId : MemoryId) : Prop :=
  ∀ o ∈ table.rows, o.row.id = memoryId → o.owner = tenant

def found (table : MemoryTable) (query : MemoryQuery) : List MemoryRecord :=
  (table.rows.map memoryRecord).filter query.admits

def Apart (codec : JsonCodec) (table : MemoryTable) : MemoryCall → Prop
  | .add record => (∃ e, memoryRow codec record = .error e) ∨
      table.OwnId (memoryTenant record) record.id
  | .delete tenant memoryId => table.OwnId tenant memoryId
  | .query tenant query => ∀ limit, query.limit = some limit →
      Uncrowded tenant limit (table.found query)
  | .get _ _ | .exported _ => True

/-! ## A tenant's part of the table -/

/-- The second table has the rows of the first that are the tenant's. -/
def OwnRows (tenant : TenantId) (s t : MemoryTable) : Prop :=
  t.rows = s.rows.filter fun o => decide (o.owner = tenant)

variable {tenant : TenantId} {s t : MemoryTable} {memoryId : MemoryId}

theorem ofTenant_memoryRecord (o : Owned TenantId MemoryRecord) :
    ofTenant tenant (memoryRecord o) = decide (o.owner = tenant) := by
  have hlookup : (memoryRecord o).metadata.lookup "tenant_id" = some (.str o.owner) :=
    lookup_dictSet
  simp [ofTenant, hlookup]

theorem OwnRows.rowsOf (h : OwnRows tenant s t) :
    Owned.rowsOf tenant t.rows = Owned.rowsOf tenant s.rows := by
  unfold Owned.rowsOf
  rw [h, List.filter_filter]
  simp

theorem OwnRows.mem (h : OwnRows tenant s t) {o : Owned TenantId MemoryRecord} :
    o ∈ t.rows ↔ o ∈ s.rows ∧ o.owner = tenant := by
  rw [h, List.mem_filter]
  simp

theorem row_eq {o o' : Owned TenantId MemoryRecord} (ho : o ∈ s.rows) (ho' : o' ∈ s.rows)
    (h : o.row.id = o'.row.id) : o = o' :=
  List.inj_on_of_nodup_map s.nodup ho ho' h

theorem mem_ids : memoryId ∈ (s.rows.map fun o => o.row.id) ↔ ∃ o ∈ s.rows, o.row.id = memoryId :=
  List.mem_map

theorem mem_ownIds : memoryId ∈ (Owned.rowsOf tenant s.rows).map MemoryRecord.id ↔
    ∃ o ∈ s.rows, o.owner = tenant ∧ o.row.id = memoryId := by
  simp [Owned.rowsOf, and_assoc]

/-! ## Reading -/

theorem get_own (h : OwnRows tenant s t) :
    (s.get memoryId).filter (ofTenant tenant) = t.get memoryId := by
  unfold get
  cases hs : s.rows.find? fun o => decide (o.row.id = memoryId) with
  | none =>
    have ht : (t.rows.find? fun o => decide (o.row.id = memoryId)) = none := by
      rw [List.find?_eq_none] at hs ⊢
      exact fun o ho => hs o (h.mem.mp ho).1
    rw [ht]
    rfl
  | some o =>
    have hid : o.row.id = memoryId := by simpa using List.find?_some hs
    have hmem : o ∈ s.rows := List.mem_of_find?_eq_some hs
    rw [Option.map_some, Option.filter_some, ofTenant_memoryRecord]
    by_cases hown : o.owner = tenant
    · have ht : (t.rows.find? fun o => decide (o.row.id = memoryId)) = some o := by
        cases hf : t.rows.find? fun o => decide (o.row.id = memoryId) with
        | none =>
          rw [List.find?_eq_none] at hf
          exact absurd (decide_eq_true hid) (hf o (h.mem.mpr ⟨hmem, hown⟩))
        | some o' =>
          have hid' : o'.row.id = memoryId := by simpa using List.find?_some hf
          have hmem' := (h.mem.mp (List.mem_of_find?_eq_some hf)).1
          rw [row_eq hmem' hmem (hid'.trans hid.symm)]
      rw [ht, if_pos (decide_eq_true hown)]
      rfl
    · have ht : (t.rows.find? fun o => decide (o.row.id = memoryId)) = none := by
        rw [List.find?_eq_none]
        intro o' ho' hid'
        obtain ⟨hmem', hown'⟩ := h.mem.mp ho'
        have he := row_eq hmem' hmem ((of_decide_eq_true hid').trans hid.symm)
        exact hown (he ▸ hown')
      rw [ht, if_neg (by simpa using hown)]
      rfl

instance (collation : Collation) : Std.Total (RowBefore collation) where
  total _ _ := Then.total (fun a : Owned TenantId MemoryRecord => a.row.createdAt)
    (fun a b => collation.before a.row.id b.row.id = true) (collation.total _ _)

instance (collation : Collation) : IsTrans _ (RowBefore collation) where
  trans _ _ _ := Then.trans (fun a : Owned TenantId MemoryRecord => a.row.createdAt)
    (fun a b => collation.before a.row.id b.row.id = true) (collation.trans _ _ _)

theorem filter_map_memoryRecord (rows : List (Owned TenantId MemoryRecord)) :
    (rows.map memoryRecord).filter (ofTenant tenant) =
      (rows.filter fun o => decide (o.owner = tenant)).map memoryRecord := by
  rw [List.filter_map]
  exact congrArg (List.map memoryRecord) (List.filter_congr fun o _ => ofTenant_memoryRecord o)

/-- The tenant's records of an export are the export of the tenant's part. -/
theorem exported_own (collation : Collation) (h : OwnRows tenant s t) :
    (s.exported collation).filter (ofTenant tenant) = t.exported collation := by
  unfold exported
  rw [filter_map_memoryRecord, filter_insertionSort, ← h]

theorem found_own (h : OwnRows tenant s t) (query : MemoryQuery) :
    (s.found query).filter (ofTenant tenant) = t.found query := by
  unfold found
  rw [List.filter_filter, h, ← filter_map_memoryRecord, List.filter_filter]
  exact List.filter_congr fun x _ => Bool.and_comm _ _

theorem perm_found (collation : Collation) (query : MemoryQuery) :
    ((s.exported collation).filter query.admits).Perm (s.found query) :=
  ((List.perm_insertionSort _ s.rows).map memoryRecord).filter _

theorem found_id_inj {query : MemoryQuery} {x y : MemoryRecord} (hx : x ∈ s.found query)
    (hy : y ∈ s.found query) (h : x.id = y.id) : x = y := by
  obtain ⟨o, ho, rfl⟩ := List.mem_map.mp (List.mem_of_mem_filter hx)
  obtain ⟨o', ho', rfl⟩ := List.mem_map.mp (List.mem_of_mem_filter hy)
  rw [row_eq ho ho' h]

theorem nodup_found (query : MemoryQuery) : (s.found query).Nodup := by
  refine List.Nodup.filter _ (List.Nodup.of_map MemoryRecord.id ?_)
  rw [List.map_map]
  exact s.nodup

theorem distinct_before (query : MemoryQuery) :
    Distinct MemoryRecord.SortsBefore (s.found query) :=
  fun _ ha _ hb hab hba => found_id_inj ha hb (MemoryRecord.SortsBefore.id_eq hab hba)

theorem distinct_after (query : MemoryQuery) : Distinct MemoryRecord.SortsAfter (s.found query) :=
  fun _ ha _ hb hab hba => found_id_inj ha hb (MemoryRecord.SortsBefore.id_eq hba hab)

theorem query_unlimited (collation : Collation) {query : MemoryQuery} (hq : query.limit = none) :
    s.query collation query = (s.found query).insertionSort MemoryRecord.SortsBefore := by
  unfold MemoryTable.query
  rw [hq]
  have hperm := perm_found (s := s) collation query
  exact insertionSort_eq_of_perm hperm ((distinct_before query).of_subset hperm.subset)

theorem query_limited (collation : Collation) {query : MemoryQuery} {limit : Int}
    (hq : query.limit = some limit) :
    s.query collation query = ((s.found query).insertionSort MemoryRecord.SortsAfter).take
      (sliceLength limit (s.found query).length) := by
  unfold MemoryTable.query
  have hperm := perm_found (s := s) collation query
  have hsort := insertionSort_eq_of_perm hperm ((distinct_after query).of_subset hperm.subset)
  rw [hq]
  change sliceTo (((s.exported collation).filter query.admits).insertionSort
    MemoryRecord.SortsAfter) limit = _
  rw [hsort, sliceTo_eq_take, List.length_insertionSort]

theorem query_own (collation : Collation) (h : OwnRows tenant s t) (query : MemoryQuery) :
    (s.query collation query).filter (ofTenant tenant) =
        (t.query collation query).filter (ofTenant tenant) ↔
      ∀ limit, query.limit = some limit → Uncrowded tenant limit (s.found query) := by
  have hown : (t.query collation query).filter (ofTenant tenant) = t.query collation query := by
    refine List.filter_eq_self.mpr fun x hx => ?_
    have hmem : x ∈ t.found query := by
      cases hq : query.limit with
      | none =>
        rw [query_unlimited collation hq] at hx
        exact (List.mem_insertionSort _).mp hx
      | some limit =>
        rw [query_limited collation hq] at hx
        exact (List.mem_insertionSort _).mp (List.mem_of_mem_take hx)
    rw [← found_own h] at hmem
    exact List.of_mem_filter hmem
  rw [hown]
  cases hq : query.limit with
  | none =>
    rw [query_unlimited collation hq, query_unlimited collation hq,
      filter_insertionSort, found_own h]
    simp
  | some limit =>
    have hsorted := List.pairwise_insertionSort MemoryRecord.SortsAfter (s.found query)
    have hnodup := (List.perm_insertionSort MemoryRecord.SortsAfter (s.found query)).nodup_iff.mpr
      (nodup_found query)
    have hdistinct : Distinct MemoryRecord.SortsAfter
        ((s.found query).insertionSort MemoryRecord.SortsAfter) :=
      (distinct_after query).of_subset fun x hx => (List.mem_insertionSort _).mp hx
    rw [query_limited collation hq, query_limited collation hq, ← found_own h,
      ← filter_insertionSort,
      filter_take_eq_iff (fun a => .inr ⟨rfl, le_rfl⟩) hsorted hnodup hdistinct]
    simp only [Option.some.injEq, forall_eq', Uncrowded, newerCount, countBefore_insertionSort,
      filter_insertionSort, List.mem_insertionSort]

/-! ## Writing -/

section Steps

variable (codec : JsonCodec) (collation : Collation) {record : MemoryRecord}

theorem memoryRow_id {row : MemoryRecord} (h : memoryRow codec record = .ok row) :
    row.id = record.id := by
  unfold memoryRow at h
  split at h
  · cases h
    rfl
  · cases h

theorem add_cases (s : MemoryTable) (record : MemoryRecord) :
    (record.id ∈ (Owned.rowsOf (memoryTenant record) s.rows).map MemoryRecord.id ∧
        s.add codec record = .ok (false, s)) ∨
      record.id ∉ (Owned.rowsOf (memoryTenant record) s.rows).map MemoryRecord.id ∧
        ((∃ e, memoryRow codec record = .error e ∧ s.add codec record = .error e) ∨
          ∃ row, memoryRow codec record = .ok row ∧
            ((record.id ∈ (s.rows.map fun o => o.row.id) ∧
                s.add codec record = .error .integrity) ∨
              record.id ∉ (s.rows.map fun o => o.row.id) ∧
                ∃ s', s.add codec record = .ok (true, s') ∧
                  s'.rows = Owned.insert (memoryTenant record) row s.rows)) := by
  by_cases hdup : record.id ∈ (Owned.rowsOf (memoryTenant record) s.rows).map MemoryRecord.id
  · exact .inl ⟨hdup, if_pos hdup⟩
  · refine .inr ⟨hdup, ?_⟩
    have hadd : s.add codec record = (do
        let row ← memoryRow codec record
        let table ← s.insert (memoryTenant record) row
        pure (true, table)) := if_neg hdup
    cases hrow : memoryRow codec record with
    | error e => exact .inl ⟨e, rfl, by rw [hadd, hrow]; rfl⟩
    | ok row =>
      refine .inr ⟨row, rfl, ?_⟩
      rw [hrow, Except.ok_bind] at hadd
      by_cases hkey : row.id ∈ s.rows.map fun o => o.row.id
      · have hinsert : s.insert (memoryTenant record) row = .error .integrity := dif_pos hkey
        refine .inl ⟨memoryRow_id codec hrow ▸ hkey, ?_⟩
        rw [hadd, hinsert]
        rfl
      · refine .inr ⟨memoryRow_id codec hrow ▸ hkey, ?_⟩
        rw [insert, dif_neg hkey, Except.ok_bind] at hadd
        exact ⟨_, hadd, rfl⟩

/-- Another tenant's call that meets no record of the tenant. -/
theorem step_other {call : MemoryCall} (hne : call.tenant ≠ tenant) (h : OwnRows tenant s t)
    (ha : s.Apart codec call) : OwnRows tenant (step codec collation s call).2 t := by
  cases call with
  | add record =>
    simp only [step]
    rcases add_cases codec s record with ⟨-, hadd⟩ |
      ⟨-, ⟨e, -, hadd⟩ | ⟨row, -, ⟨-, hadd⟩ | ⟨-, s', hadd, hrows⟩⟩⟩
    · rw [hadd]
      exact h
    · rw [hadd]
      exact h
    · rw [hadd]
      exact h
    · rw [hadd]
      have hother : memoryTenant record ≠ tenant := hne
      simp [OwnRows, hrows, Owned.insert, hother, h.symm]
  | get owner memoryId => exact h
  | delete owner memoryId =>
    simp only [step, delete, OwnRows, List.filter_filter]
    rw [h]
    refine List.filter_congr fun o ho => ?_
    by_cases hid : o.row.id = memoryId
    · have hother : o.owner ≠ tenant := fun he => hne ((ha o ho hid).symm.trans he)
      simp [hother]
    · simp [hid]
  | exported owner => exact h
  | query owner query => exact h

theorem ownId_iff (hid : memoryId ∉ (Owned.rowsOf tenant s.rows).map MemoryRecord.id) :
    s.OwnId tenant memoryId ↔ memoryId ∉ s.rows.map fun o => o.row.id := by
  constructor
  · intro hown hmem
    obtain ⟨o, ho, he⟩ := mem_ids.mp hmem
    exact hid (mem_ownIds.mpr ⟨o, ho, hown o ho he, he⟩)
  · exact fun hnew o ho he => absurd (mem_ids.mpr ⟨o, ho, he⟩) hnew

/-- An add of a record that is no duplicate, to the tenant's part of the table. -/
theorem add_alone (h : OwnRows (memoryTenant record) s t)
    (hnew : record.id ∉ (Owned.rowsOf (memoryTenant record) s.rows).map MemoryRecord.id) :
    (∃ e, memoryRow codec record = .error e ∧ t.add codec record = .error e) ∨
      ∃ row t', memoryRow codec record = .ok row ∧ t.add codec record = .ok (true, t') ∧
        t'.rows = Owned.insert (memoryTenant record) row t.rows := by
  rcases add_cases codec t record with ⟨hdup, -⟩ |
    ⟨-, ⟨e, hrow, hadd⟩ | ⟨row, hrow, ⟨hkey, -⟩ | ⟨-, t', hadd, hrows⟩⟩⟩
  · exact absurd (h.rowsOf ▸ hdup) hnew
  · exact .inl ⟨e, hrow, hadd⟩
  · obtain ⟨o, ho, hid⟩ := mem_ids.mp hkey
    obtain ⟨hmem, hown⟩ := h.mem.mp ho
    exact absurd (mem_ownIds.mpr ⟨o, hmem, hown, hid⟩) hnew
  · exact .inr ⟨row, t', hrow, hadd, hrows⟩

/-- A call of the tenant itself, and the same call on its part of the table: what becomes of both, and
whether they tell the same. -/
theorem step_own {call : MemoryCall} (hc : call.tenant = tenant) (h : OwnRows tenant s t) :
    (ownPart tenant (step codec collation s call).1 =
        ownPart tenant (step codec collation t call).1 ↔ s.Apart codec call) ∧
      (s.Apart codec call →
        OwnRows tenant (step codec collation s call).2 (step codec collation t call).2) := by
  cases call with
  | add record =>
    obtain rfl : memoryTenant record = tenant := hc
    simp only [step, Apart]
    rcases add_cases codec s record with ⟨hdup, hadd⟩ |
      ⟨hnew, ⟨e, hrow, hadd⟩ | ⟨row, hrow, hkey⟩⟩
    · -- a duplicate: the id is the tenant's own
      have ht : t.add codec record = .ok (false, t) := if_pos (h.rowsOf.symm ▸ hdup)
      obtain ⟨o, ho, hown, hid⟩ := mem_ownIds.mp hdup
      have hapart : s.OwnId (memoryTenant record) record.id :=
        fun o' ho' hid' => row_eq ho' ho (hid'.trans hid.symm) ▸ hown
      rw [hadd, ht]
      exact ⟨iff_of_true rfl (.inr hapart), fun _ => h⟩
    · rcases add_alone codec h hnew with ⟨e', hrow', ht⟩ | ⟨row, t', hrow', -⟩
      · obtain rfl : e = e' := Except.error.inj (hrow.symm.trans hrow')
        rw [hadd, ht]
        exact ⟨iff_of_true rfl (.inl ⟨e, hrow⟩), fun _ => h⟩
      · exact absurd (hrow.symm.trans hrow') (by simp)
    · rcases add_alone codec h hnew with ⟨e, hrow', -⟩ | ⟨row', t', hrow', ht, hrows'⟩
      · exact absurd (hrow.symm.trans hrow') (by simp)
      · obtain rfl : row = row' := Except.ok.inj (hrow.symm.trans hrow')
        rcases hkey with ⟨hkey, hadd⟩ | ⟨hkey, s', hadd, hrows⟩
        · -- the id of another tenant's record
          have hmeets : ¬((∃ e, memoryRow codec record = .error e) ∨
              s.OwnId (memoryTenant record) record.id) := by
            rintro (⟨e, he⟩ | hown)
            · exact absurd (hrow.symm.trans he) (by simp)
            · exact (ownId_iff hnew).mp hown hkey
          rw [hadd, ht]
          exact ⟨iff_of_false (by simp [ownPart]) hmeets, fun ha => absurd ha hmeets⟩
        · rw [hadd, ht]
          refine ⟨iff_of_true rfl (.inr ((ownId_iff hnew).mpr hkey)), fun _ => ?_⟩
          simp [OwnRows, hrows, hrows', Owned.insert, h.symm]
  | get owner memoryId =>
    refine ⟨iff_of_true ?_ trivial, fun _ => h⟩
    have hown : (t.get memoryId).filter (ofTenant tenant) = t.get memoryId := by
      rw [← get_own h, Option.filter_filter]
      simp
    simp only [step, ownPart]
    rw [get_own h, hown]
  | delete owner memoryId =>
    obtain rfl : owner = tenant := hc
    simp only [step, delete, Apart, ownPart, MemoryAnswer.deleted.injEq]
    refine ⟨⟨fun heq o ho hid => ?_, fun hown => ?_⟩, fun _ => ?_⟩
    · have hs : (s.rows.any fun o => decide (o.row.id = memoryId)) = true :=
        List.any_eq_true.mpr ⟨o, ho, decide_eq_true hid⟩
      rw [heq] at hs
      obtain ⟨o', ho', hid'⟩ := List.any_eq_true.mp hs
      obtain ⟨hmem, hown⟩ := h.mem.mp ho'
      exact row_eq ho hmem (hid.trans (of_decide_eq_true hid').symm) ▸ hown
    · rw [Bool.eq_iff_iff, List.any_eq_true, List.any_eq_true]
      constructor
      · rintro ⟨o, ho, hid⟩
        exact ⟨o, h.mem.mpr ⟨ho, hown o ho (of_decide_eq_true hid)⟩, hid⟩
      · rintro ⟨o, ho, hid⟩
        exact ⟨o, (h.mem.mp ho).1, hid⟩
    · simp only [OwnRows, List.filter_filter]
      rw [h, List.filter_filter]
      exact List.filter_congr fun o _ => Bool.and_comm _ _
  | exported owner =>
    refine ⟨iff_of_true ?_ trivial, fun _ => h⟩
    simp only [step, ownPart, ← exported_own collation h, List.filter_filter, Bool.and_self]
  | query owner query =>
    obtain rfl : owner = tenant := hc
    refine ⟨?_, fun _ => h⟩
    simp only [step, ownPart, MemoryAnswer.records.injEq]
    exact query_own collation h query

/-- **When tenants are isolated.** In a run of any calls of any tenants, every call is answered, as far
as its tenant's own records go, as if the other tenants had made none, if and only if no add and no
delete names the id of another tenant's record, and no limited query is crowded. -/
theorem memory_isolation (calls : List MemoryCall) :
    (machine codec collation).Isolated MemoryCall.tenant ownPart calls ↔
      (machine codec collation).Meets (fun _ table call => table.Apart codec call) calls :=
  (machine codec collation).isolated_iff MemoryCall.tenant ownPart OwnRows (fun _ => rfl)
    (fun _ _ _ _ hne h ha => step_other codec collation hne h ha)
    (fun _ _ _ h ha => (step_own codec collation rfl h).2 ha)
    (fun _ _ _ h => (step_own codec collation rfl h).1) calls

end Steps

/-! ## Ids that meet -/

theorem deployment_given : Text.isBlank "deployment" = false := by decide

theorem friday_given : Text.isBlank "never on a friday" = false := by decide

/-- A memory of a tenant with an id that it shares with the other tenants'. -/
def sharedMemory (tenant : TenantId) : MemoryRecord where
  kind := .semantic
  subject := "deployment"
  content := "never on a friday"
  scope := ""
  confidence := 1
  sourceSessionId := none
  id := "memory-1"
  createdAt := ⟨2026, 9, 21, 0, by decide, DateTime.midnight_isTime⟩
  version := 1
  tags := []
  source := "user"
  metadata := [("tenant_id", .str tenant)]
  confidence_bounded := MemoryRecord.certain_bounded
  subject_given := deployment_given
  content_given := friday_given

/-- The second tenant's add raises; and its delete removes the record of the first. -/
theorem shared_memory_id :
    ¬(machine plainCodec .byCodePoints).Isolated MemoryCall.tenant ownPart
        [.add (sharedMemory "a"), .add (sharedMemory "b")] ∧
      ¬(machine plainCodec .byCodePoints).Isolated MemoryCall.tenant ownPart
        [.add (sharedMemory "a"), .delete "b" "memory-1", .get "a" "memory-1"] := by
  constructor
  · intro h
    have hanswers := congrArg (List.map Prod.snd) (h "b")
    revert hanswers
    decide +kernel
  · intro h
    have hanswers := congrArg (List.map Prod.snd) (h "a")
    revert hanswers
    decide +kernel

end MemoryTable

end UniversalAgent.Persistence
