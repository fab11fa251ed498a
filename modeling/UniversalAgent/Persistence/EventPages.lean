import UniversalAgent.Foundation.Pagination
import UniversalAgent.Foundation.Sorting
import UniversalAgent.Runtime.SignalDelivery
import UniversalAgent.State.EventStore

/-!
# Persistence — EventPages

The pages of an event journal: `filter_events` of `eventstream.py` over a journal in memory, and
`SQLiteEventStore.list_events` of `persistence/sqlite.py`, which leaves the selection to the database.

A row holds the event that its payload is read as; the columns of a selection are made from the same
event.
-/

namespace UniversalAgent.Persistence

open UniversalAgent.Core UniversalAgent.Foundation UniversalAgent.Runtime UniversalAgent.State

variable {limit : Option Int} {id : EventId}

/-! ## The table -/

/-- A row of `runtime_events`. -/
structure JournalRow where
  sequence : Nat
  event : RuntimeEvent
deriving DecidableEq

/-- `runtime_events`: `sequence` is its primary key, and `event_id` is unique. -/
structure EventTable where
  rows : List JournalRow
  nodup_sequence : (rows.map JournalRow.sequence).Nodup
  nodup_id : (rows.map fun row => row.event.id).Nodup

/-- What a query raises: an error of its call, or the `OverflowError` of a parameter that is no 64-bit
integer. -/
inductive QueryError (ε : Type) where
  | raised (error : ε)
  | overflow
deriving DecidableEq

/-- The rows of a statement with its `LIMIT`, which is positive. -/
def fetch {α ε : Type} (limit : Option Int) (rows : List α) : Except (QueryError ε) (List α) :=
  match limit with
  | none => .ok rows
  | some n => if 2 ^ 63 ≤ n then .error .overflow else .ok (rows.take n.toNat)

namespace EventTable

variable (table : EventTable)

/-- The rows that meet a condition, `ORDER BY sequence`. -/
def select (p : JournalRow → Bool) : List JournalRow :=
  (table.rows.filter p).insertionSort fun a b => a.sequence ≤ b.sequence

def all : List RuntimeEvent := (table.select fun _ => true).map JournalRow.event

/-- The condition on the type of an event, and the one on its session where there is one. -/
def inScope (sessionId : Option SessionId) (row : JournalRow) : Bool :=
  decide (row.event.type ≠ sessionStateEvent) && inSession sessionId row.event

def eventCursorSequence (sessionId : Option SessionId) (afterEventId : EventId) :
    Except (QueryError EventStreamError) Nat :=
  match table.rows.find? fun row => decide (row.event.id = afterEventId) && inScope sessionId row with
  | none => .error (.raised (.eventCursor ("event cursor not found: " ++ afterEventId)))
  | some row => .ok row.sequence

/-- `_list_events_sync`. -/
def listEvents (sessionId : Option SessionId) (afterEventId : Option EventId) (limit : Option Int) :
    Except (QueryError EventStreamError) (List RuntimeEvent) :=
  if limit.any fun n => decide (n ≤ 0) then
    .error (.raised (.value "event stream limit must be positive"))
  else do
    let cursorSequence ← afterEventId.mapM (table.eventCursorSequence sessionId)
    let rows ← fetch limit (table.select fun row =>
      inScope sessionId row && cursorSequence.all fun n => decide (n < row.sequence))
    pure (rows.map JournalRow.event)

end EventTable

/-! ## Pages in memory -/

def page {α : Type} (limit : Option Int) (items : List α) : List α :=
  match limit with
  | none => items
  | some n => items.take n.toNat

theorem fetch_page {α ε : Type} (hlimit : ∀ n, limit = some n → n < 2 ^ 63)
    (rows : List α) : fetch (ε := ε) limit rows = .ok (page limit rows) := by
  cases limit with
  | none => rfl
  | some n => rw [fetch, if_neg (by have := hlimit n rfl; omega)]; rfl

theorem map_page {α β : Type} (f : α → β) (limit : Option Int) (items : List α) :
    (page limit items).map f = page limit (items.map f) := by
  cases limit with
  | none => rfl
  | some n => exact List.map_take

theorem following_afterId {events : List RuntimeEvent}
    (hid : id ∈ events.map RuntimeEvent.id) :
    following RuntimeEvent.id id events = some (afterId id events) := by
  induction events with
  | nil => cases hid
  | cons event events ih =>
    rw [following, afterId]
    by_cases he : event.id = id
    · rw [if_pos he, if_pos he]
    · rw [if_neg he, if_neg he]
      exact ih ((List.mem_cons.mp hid).resolve_left (Ne.symm he))

/-- `filter_events` is the page of what is behind the cursor in its session. -/
theorem filterEvents_eq (events : List RuntimeEvent) (sessionId : Option SessionId)
    (cursor : Option EventId) (hlimit : ∀ n, limit = some n → 0 < n) :
    filterEvents events sessionId cursor limit =
      match behind RuntimeEvent.id (events.filter (inSession sessionId)) cursor with
      | some rest => .ok (page limit rest)
      | none => .error (.eventCursor ("event cursor not found: " ++ cursor.getD "")) := by
  have hwhole : filterEvents events sessionId cursor none =
      match behind RuntimeEvent.id (events.filter (inSession sessionId)) cursor with
      | some rest => .ok rest
      | none => .error (.eventCursor ("event cursor not found: " ++ cursor.getD "")) := by
    cases cursor with
    | none => exact filterEvents_none sessionId events
    | some id =>
      rw [filterEvents_some, behind]
      by_cases hid : id ∈ (events.filter (inSession sessionId)).map RuntimeEvent.id
      · rw [if_pos hid, following_afterId hid]
      · rw [if_neg hid, following_eq_none.mpr hid]
        rfl
  cases limit with
  | none => exact hwhole
  | some n =>
    rw [filterEvents_limited _ _ (hlimit n rfl), hwhole]
    cases behind RuntimeEvent.id (events.filter (inSession sessionId)) cursor <;> rfl

/-- The pages of `filter_events` are the events of the session. -/
theorem filterEvents_enumerates {events : List RuntimeEvent}
    (hid : (events.map RuntimeEvent.id).Nodup) (sessionId : Option SessionId) {n : Int} (hn : 0 < n) :
    Enumerates RuntimeEvent.id (fun cursor => filterEvents events sessionId cursor (some n)) none
      (events.filter (inSession sessionId)) := by
  have hlimit : ∀ m, some n = some m → 0 < m := fun m hm => Option.some.inj hm ▸ hn
  have hkey : ((events.filter (inSession sessionId)).map RuntimeEvent.id).Nodup :=
    hid.sublist (List.filter_sublist.map _)
  refine enumerates hkey (n := n.toNat) (by omega) (fun cursor rest h => ?_) rfl
  rw [filterEvents_eq events sessionId cursor hlimit, h]
  rfl

/-! ## Pages of the table -/

namespace EventTable

variable {table : EventTable}

theorem sequence_injective {a b : JournalRow} (ha : a ∈ table.rows) (hb : b ∈ table.rows)
    (h : a.sequence = b.sequence) : a = b :=
  List.inj_on_of_nodup_map table.nodup_sequence ha hb h

theorem id_injective {a b : JournalRow} (ha : a ∈ table.rows) (hb : b ∈ table.rows)
    (h : a.event.id = b.event.id) : a = b :=
  List.inj_on_of_nodup_map table.nodup_id ha hb h

theorem mem_select {p : JournalRow → Bool} {row : JournalRow} :
    row ∈ table.select p ↔ row ∈ table.rows ∧ p row = true := by
  rw [select, List.mem_insertionSort, List.mem_filter]

/-- A further condition is a selection among the rows selected. -/
theorem filter_select (p q : JournalRow → Bool) :
    (table.select p).filter q = table.select fun row => p row && q row := by
  have : Std.Total fun a b : JournalRow => a.sequence ≤ b.sequence := ⟨fun _ _ => le_total _ _⟩
  have : IsTrans JournalRow fun a b => a.sequence ≤ b.sequence := ⟨fun _ _ _ => le_trans⟩
  rw [select, select, filter_insertionSort, List.filter_filter]
  simp only [Bool.and_comm]

theorem select_pairwise (p : JournalRow → Bool) :
    (table.select p).Pairwise fun a b => a.sequence < b.sequence := by
  have hle := pairwise_sortByKey JournalRow.sequence (table.rows.filter p)
  have hne : ((table.select p).map JournalRow.sequence).Nodup := by
    have hperm := (List.perm_insertionSort (fun a b : JournalRow => a.sequence ≤ b.sequence)
      (table.rows.filter p)).map JournalRow.sequence
    exact hperm.nodup_iff.mpr (table.nodup_sequence.sublist (List.filter_sublist.map _))
  rw [List.Nodup, List.pairwise_map] at hne
  exact hle.imp₂ (fun a b hab hne => lt_of_le_of_ne hab hne) hne

/-- The events that a session is listed from are those in its scope. -/
theorem filter_visible (sessionId : Option SessionId) :
    (table.all.filter fun event => decide (event.type ≠ sessionStateEvent)).filter (inSession sessionId) =
      (table.select (inScope sessionId)).map JournalRow.event := by
  have hscope : table.select (inScope sessionId) = (table.select fun _ => true).filter (inScope sessionId) := by
    rw [filter_select]
    simp only [Bool.true_and]
  rw [hscope, all, List.filter_filter, List.filter_map]
  congr 2
  funext row
  exact Bool.and_comm _ _

theorem cursor_found {sessionId : Option SessionId} {rest : List JournalRow}
    (h : following (fun row => row.event.id) id (table.select (inScope sessionId)) = some rest) :
    ∃ n, table.eventCursorSequence sessionId id = .ok n ∧
      table.select (fun row => inScope sessionId row && decide (n < row.sequence)) = rest := by
  obtain ⟨row, hrow, hid, hrest⟩ := following_pairwise
    (fun a b hab hba => absurd hab (by omega)) (select_pairwise (inScope sessionId)) h
  obtain ⟨hmem, hscope⟩ := mem_select.mp hrow
  refine ⟨row.sequence, ?_, ?_⟩
  · rw [eventCursorSequence]
    cases hfind : table.rows.find? fun row => decide (row.event.id = id) && inScope sessionId row with
    | none =>
      have hnone := List.find?_eq_none.mp hfind row hmem
      simp [hid, hscope] at hnone
    | some other =>
      have hother := List.find?_some hfind
      simp only [Bool.and_eq_true, decide_eq_true_eq] at hother
      rw [id_injective (List.mem_of_find?_eq_some hfind) hmem (hother.1.trans hid.symm)]
  · rw [← filter_select, hrest]

theorem cursor_missing {sessionId : Option SessionId}
    (h : following (fun row => row.event.id) id (table.select (inScope sessionId)) = none) :
    table.eventCursorSequence sessionId id =
      .error (.raised (.eventCursor ("event cursor not found: " ++ id))) := by
  have hnone : (table.rows.find? fun row => decide (row.event.id = id) && inScope sessionId row) = none := by
    rw [List.find?_eq_none]
    intro row hrow hboth
    simp only [Bool.and_eq_true, decide_eq_true_eq] at hboth
    refine following_eq_none.mp h (List.mem_map.mpr ⟨row, ?_, hboth.1⟩)
    exact mem_select.mpr ⟨hrow, hboth.2⟩
  rw [eventCursorSequence, hnone]

/-- `list_events` is `filter_events` on what it lists. -/
theorem listEvents_eq (table : EventTable) (sessionId : Option SessionId) (afterEventId : Option EventId)
    (hlimit : ∀ n, limit = some n → n < 2 ^ 63) :
    table.listEvents sessionId afterEventId limit =
      (filterEvents (table.all.filter fun event => decide (event.type ≠ sessionStateEvent))
        sessionId afterEventId limit).mapError .raised := by
  by_cases hpos : limit.any fun n => decide (n ≤ 0)
  · rw [listEvents, if_pos hpos, filterEvents, if_pos hpos]
    rfl
  · have hpos' : ∀ n, limit = some n → 0 < n := by
      rintro n rfl
      simpa using hpos
    rw [filterEvents_eq _ _ _ hpos', filter_visible, behind_map, listEvents, if_neg hpos]
    cases afterEventId with
    | none =>
      simp only [Option.mapM_none, pure_bind, Option.all_none, Bool.and_true, fetch_page hlimit]
      simp only [behind, Option.map_some, ← map_page]
      rfl
    | some id =>
      rw [behind, Option.mapM_some]
      cases hfollow : following (fun row => row.event.id) id (table.select (inScope sessionId)) with
      | none =>
        rw [cursor_missing hfollow]
        rfl
      | some rest =>
        obtain ⟨n, hn, hrest⟩ := cursor_found hfollow
        rw [hn]
        simp only [Functor.map, Except.map, bind, Except.bind, Option.all_some, hrest,
          fetch_page hlimit, Option.map_some, ← map_page]
        rfl

end EventTable

/-! ## Event pages -/

def sessionEvent (id type : String) : RuntimeEvent where
  type := type
  sessionId := "s"
  goalId := "g"
  taskId := "t"
  id := id
  actionId := none
  data := []
  occurredAt := 0

def oneEvent (type : String) : EventTable where
  rows := [⟨1, sessionEvent "e" type⟩]
  nodup_sequence := List.nodup_singleton _
  nodup_id := List.nodup_singleton _

end UniversalAgent.Persistence
