import UniversalAgent.Foundation.Stripping
import UniversalAgent.Persistence.Outbox

/-!
# Persistence — Outbox publishing

`publish_outbox_batch` (`persistence/outbox.py`): a batch of events is leased, each is handed to a broker, those
that it took are marked as published, and those that it did not are released to be tried again. A call of the
store that raises, or a cancellation while the broker is waited for, ends the batch there.

What the broker does with each event, what others do to the store, and which calls of the store raise are given.
-/

namespace UniversalAgent.Persistence

open UniversalAgent.Core UniversalAgent.Foundation

variable {i : EventId} {p : Delivery → Bool} {published : List EventId} {failures : List OutboxPublishFailure}

abbrev OutboxTable := Table OutboxRow.eventId

structure BrokerError where
  text : String
  typeName : String
  named : Text.isBlank typeName = false

/-- What becomes of `publish`: it returns, it raises, or what is waiting for it is cancelled. -/
inductive Delivery where
  | returned
  | raised (error : BrokerError)
  | interrupted

structure OutboxPublishFailure where
  eventId : EventId
  reason : String
deriving DecidableEq

structure OutboxPublishResult where
  publisherId : String
  leasedCount : Nat
  publishedCount : Nat
  releasedCount : Nat
  publishedEventIds : List EventId := []
  releasedEventIds : List EventId := []
  failures : List OutboxPublishFailure := []
deriving DecidableEq

/-- The arguments; `now` is the resolved timestamp. -/
structure PublishRequest where
  publisherId : String
  limit : Int
  leaseTtlSeconds : ℚ
  retryDelaySeconds : ℚ
  now : Instant
deriving DecidableEq

def PublishRequest.valid (r : PublishRequest) : Bool :=
  !Text.isBlank r.publisherId && decide (0 < r.limit) && decide (0 < r.leaseTtlSeconds) &&
    decide (0 ≤ r.retryDelaySeconds)

/-- `timestamp + timedelta(seconds=parsed_retry_delay)`. -/
def PublishRequest.retryAt (r : PublishRequest) : Instant :=
  r.now + Distributed.roundHalfEven (r.retryDelaySeconds * 1000000)

/-- Leased events, one row for each, and what the broker does with them. -/
abbrev LeasedBatch := Table fun item : OutboxRow × Delivery => item.1.eventId

/-- The store around a batch: what is leased, the rows that are found when events are marked, what others do
until the rest is released, and which of the three calls raise. -/
structure BatchStore where
  leased : Option LeasedBatch
  atMark : OutboxTable
  markRaises : Bool
  between : OutboxTable → OutboxTable
  releaseRaises : Bool

inductive BatchError where
  | invalid | leaseRaised | interrupted | markRaised | releaseRaised
deriving DecidableEq

/-- What a batch comes to: how the call ends, the rows that it marked and released, and the rows after it. -/
structure BatchRun where
  ended : Except BatchError OutboxPublishResult
  marked : List OutboxRow
  released : List OutboxRow
  rows : OutboxTable

/-! ## Calls of the store -/

/-- `UPDATE`: the rows that meet a condition are changed, each under its own event. -/
def updateRows (rows : OutboxTable) (p : OutboxRow → Bool) (f : OutboxRow → OutboxRow)
    (hf : ∀ r, (f r).eventId = r.eventId) : List OutboxRow × OutboxTable :=
  ((rows.rows.filter p).map f,
    ⟨rows.rows.map fun r => if p r then f r else r, by
      have hkeys : (OutboxRow.eventId ∘ fun r => if p r then f r else r) = OutboxRow.eventId := by
        funext r
        rw [Function.comp_apply]
        split
        · exact hf r
        · rfl
      rw [List.map_map, hkeys]
      exact rows.nodup⟩)

theorem OutboxRow.eventId_markPublished (r : OutboxRow) : r.markPublished.eventId = r.eventId := rfl

theorem OutboxRow.eventId_release (retryAt : Instant) (r : OutboxRow) : (r.release retryAt).eventId = r.eventId :=
  rfl

def markOutboxPublished (rows : OutboxTable) (eventIds : List EventId) (publisherId : Option String) :
    List OutboxRow × OutboxTable :=
  updateRows rows (OutboxRow.markable eventIds publisherId) OutboxRow.markPublished OutboxRow.eventId_markPublished

/-- `release_outbox_events`, which refuses a reason that is blank. -/
def releaseOutboxEvents (rows : OutboxTable) (eventIds : List EventId) (publisherId reason : String)
    (retryAt : Instant) : Option (List OutboxRow × OutboxTable) :=
  if Text.isBlank reason then none
  else some (updateRows rows (OutboxRow.releasable eventIds publisherId) (OutboxRow.release retryAt)
    (OutboxRow.eventId_release retryAt))

/-! ## The batch -/

def exceptionReason (error : BrokerError) : String :=
  if Text.strip error.text ≠ "" then Text.strip error.text else error.typeName

/-- `_release_reason`, of at least one failure. -/
def releaseReason (first : OutboxPublishFailure) : List OutboxPublishFailure → String
  | [] => first.reason
  | rest => toString (rest.length + 1) ++ " outbox publish failures; first: " ++ first.reason

/-- The events are handed to the broker one after the other: those that it took, and the failures. -/
def publishEach : List (OutboxRow × Delivery) → Except BatchError (List EventId × List OutboxPublishFailure)
  | [] => .ok ([], [])
  | (row, .returned) :: batch => do
      let (published, failures) ← publishEach batch
      .ok (row.eventId :: published, failures)
  | (row, .raised error) :: batch => do
      let (published, failures) ← publishEach batch
      .ok (published, ⟨row.eventId, exceptionReason error⟩ :: failures)
  | (_, .interrupted) :: _ => .error .interrupted

def releaseFailures (request : PublishRequest) (store : BatchStore) (rows : OutboxTable) :
    List OutboxPublishFailure → Option (List OutboxRow × OutboxTable)
  | [] => some ([], rows)
  | first :: rest =>
    if store.releaseRaises then none
    else releaseOutboxEvents rows ((first :: rest).map OutboxPublishFailure.eventId) request.publisherId
      (releaseReason first rest) request.retryAt

/-- What was published is marked, if anything was, and the failures are released. -/
def settle (request : PublishRequest) (store : BatchStore) (batch : LeasedBatch) (published : List EventId)
    (failures : List OutboxPublishFailure) : BatchRun :=
  if published ≠ [] ∧ store.markRaises then ⟨.error .markRaised, [], [], store.between store.atMark⟩
  else
    let (marked, rows) :=
      if published ≠ [] then markOutboxPublished store.atMark published (some request.publisherId)
      else ([], store.atMark)
    match releaseFailures request store (store.between rows) failures with
    | none => ⟨.error .releaseRaised, marked, [], store.between rows⟩
    | some (released, rows) =>
      ⟨.ok {
        publisherId := request.publisherId
        leasedCount := batch.rows.length
        publishedCount := marked.length
        releasedCount := released.length
        publishedEventIds := published
        releasedEventIds := failures.map OutboxPublishFailure.eventId
        failures := failures }, marked, released, rows⟩

def publishOutboxBatch (request : PublishRequest) (store : BatchStore) : BatchRun :=
  if request.valid then
    match store.leased with
    | none => ⟨.error .leaseRaised, [], [], store.between store.atMark⟩
    | some batch =>
      if batch.rows = [] then ⟨.ok ⟨request.publisherId, 0, 0, 0, [], [], []⟩, [], [], store.between store.atMark⟩
      else
        match publishEach batch.rows with
        | .error e => ⟨.error e, [], [], store.between store.atMark⟩
        | .ok (published, failures) => settle request store batch published failures
  else ⟨.error .invalid, [], [], store.between store.atMark⟩

/-! ## What the calls do -/

section Calls

variable {rows : OutboxTable} {p : OutboxRow → Bool} {f : OutboxRow → OutboxRow}

theorem updated_ids (hf : ∀ r, (f r).eventId = r.eventId) :
    (updateRows rows p f hf).1.map OutboxRow.eventId = (rows.rows.filter p).map OutboxRow.eventId := by
  have hkeys : OutboxRow.eventId ∘ f = OutboxRow.eventId := funext hf
  rw [updateRows, List.map_map, hkeys]

theorem mem_updated_ids (hf : ∀ r, (f r).eventId = r.eventId) :
    i ∈ (updateRows rows p f hf).1.map OutboxRow.eventId ↔ ∃ r ∈ rows, r.eventId = i ∧ p r = true := by
  rw [updated_ids, List.mem_map]
  constructor
  · rintro ⟨r, hr, rfl⟩
    exact ⟨r, List.mem_of_mem_filter hr, rfl, (List.mem_filter.mp hr).2⟩
  · rintro ⟨r, hr, rfl, hp⟩
    exact ⟨r, List.mem_filter.mpr ⟨hr, hp⟩, rfl⟩

theorem nodup_updated_ids (hf : ∀ r, (f r).eventId = r.eventId) :
    ((updateRows rows p f hf).1.map OutboxRow.eventId).Nodup := by
  rw [updated_ids]
  exact rows.nodup.sublist (List.filter_sublist.map _)

theorem markOutboxPublished_nil (rows : OutboxTable) (publisherId : Option String) :
    markOutboxPublished rows [] publisherId = ([], rows) := by
  have hnone : ∀ r, OutboxRow.markable [] publisherId r = false := fun r => by simp [OutboxRow.markable]
  simp [markOutboxPublished, updateRows, hnone]

def releasedFor (request : PublishRequest) (rows : OutboxTable) (eventIds : List EventId) :
    List OutboxRow × OutboxTable :=
  updateRows rows (OutboxRow.releasable eventIds request.publisherId) (OutboxRow.release request.retryAt)
    (OutboxRow.eventId_release request.retryAt)

theorem releasedFor_nil (request : PublishRequest) (rows : OutboxTable) :
    releasedFor request rows [] = ([], rows) := by
  have hnone : ∀ r, OutboxRow.releasable [] request.publisherId r = false := fun r => by
    simp [OutboxRow.releasable]
  simp [releasedFor, updateRows, hnone]

theorem exceptionReason_not_blank (error : BrokerError) : Text.isBlank (exceptionReason error) = false := by
  unfold exceptionReason
  split
  · next h =>
    refine Text.isBlank_strip ?_
    rwa [← Bool.not_eq_true, Text.isBlank_iff]
  · exact error.named

theorem releaseReason_not_blank {first : OutboxPublishFailure} (h : Text.isBlank first.reason = false)
    (rest : List OutboxPublishFailure) : Text.isBlank (releaseReason first rest) = false := by
  cases rest with
  | nil => exact h
  | cons second rest =>
    rw [← Bool.not_eq_true, Text.isBlank, List.all_eq_true] at h ⊢
    intro hall
    refine h fun c hc => hall c ?_
    rw [releaseReason, String.toList_append]
    exacts [List.mem_append_right _ hc, by simp]

end Calls

/-! ## What a batch comes to -/

def Delivery.taken : Delivery → Bool
  | .returned => true
  | .raised _ => false
  | .interrupted => false

def Delivery.refused : Delivery → Bool
  | .returned => false
  | .raised _ => true
  | .interrupted => false

/-- The events of a batch that the broker took, or that it refused. -/
def eventsOf (p : Delivery → Bool) (batch : List (OutboxRow × Delivery)) : List EventId :=
  (batch.filter fun item => p item.2).map fun item => item.1.eventId

/-- Each event of a batch is marked as published or released, one of the two, and the counts say so. -/
structure Conserves (batch : LeasedBatch) (run : BatchRun) : Prop where
  counts : ∃ result, run.ended = .ok result ∧ result.leasedCount = batch.rows.length ∧
    result.publishedCount + result.releasedCount = result.leasedCount
  settled : ∀ item ∈ batch, Xor (item.1.eventId ∈ run.marked.map OutboxRow.eventId)
    (item.1.eventId ∈ run.released.map OutboxRow.eventId)

def rowsAtRelease (request : PublishRequest) (store : BatchStore) (batch : LeasedBatch) : OutboxTable :=
  store.between (markOutboxPublished store.atMark (eventsOf Delivery.taken batch.rows)
    (some request.publisherId)).2

/-- Nothing comes between: the broker answers, the calls of the store that are made return, and the publisher still
has the lease of each event when it is marked or released. -/
structure Undisturbed (request : PublishRequest) (store : BatchStore) (batch : LeasedBatch) : Prop where
  answered : ∀ item ∈ batch, item.2 ≠ .interrupted
  marks : (∃ item ∈ batch, item.2.taken = true) → store.markRaises = false
  releases : (∃ item ∈ batch, item.2.refused = true) → store.releaseRaises = false
  heldAtMark : ∀ item ∈ batch, item.2.taken = true → ∃ r ∈ store.atMark, r.eventId = item.1.eventId ∧
    r.status ≠ .published ∧ r.lockedBy = some request.publisherId
  heldAtRelease : ∀ item ∈ batch, item.2.refused = true → ∃ r ∈ rowsAtRelease request store batch,
    r.eventId = item.1.eventId ∧ r.status = .publishing ∧ r.lockedBy = some request.publisherId

section Batch

variable {batch : List (OutboxRow × Delivery)} {published : List EventId} {failures : List OutboxPublishFailure}

theorem mem_eventsOf : i ∈ eventsOf p batch ↔ ∃ item ∈ batch, p item.2 = true ∧ item.1.eventId = i := by
  simp only [eventsOf, List.mem_map, List.mem_filter, and_assoc]

/-- A broker that answers each time: what it took, and a failure for each that it refused. -/
theorem publishEach_ok (h : publishEach batch = .ok (published, failures)) :
    published = eventsOf Delivery.taken batch ∧
      failures.map OutboxPublishFailure.eventId = eventsOf Delivery.refused batch ∧
      (∀ item ∈ batch, item.2 ≠ .interrupted) ∧ ∀ f ∈ failures, Text.isBlank f.reason = false := by
  induction batch generalizing published failures with
  | nil =>
    obtain ⟨rfl, rfl⟩ := Prod.mk.inj (Except.ok.inj h)
    exact ⟨rfl, rfl, fun _ hitem => absurd hitem List.not_mem_nil, fun _ hf => absurd hf List.not_mem_nil⟩
  | cons item batch ih =>
    obtain ⟨row, delivery⟩ := item
    cases delivery with
    | interrupted => cases h
    | returned =>
      cases hrest : publishEach batch with
      | error e =>
        rw [publishEach, hrest] at h
        cases h
      | ok found =>
        rw [publishEach, hrest] at h
        obtain ⟨rfl, rfl⟩ := Prod.mk.inj (Except.ok.inj h)
        obtain ⟨hpublished, hfailures, hanswered, hreasons⟩ := ih hrest
        refine ⟨congrArg (row.eventId :: ·) hpublished, hfailures, fun item hitem => ?_, hreasons⟩
        rcases List.mem_cons.mp hitem with rfl | hitem
        · exact nofun
        · exact hanswered item hitem
    | raised error =>
      cases hrest : publishEach batch with
      | error e =>
        rw [publishEach, hrest] at h
        cases h
      | ok found =>
        rw [publishEach, hrest] at h
        obtain ⟨rfl, rfl⟩ := Prod.mk.inj (Except.ok.inj h)
        obtain ⟨hpublished, hfailures, hanswered, hreasons⟩ := ih hrest
        refine ⟨hpublished, congrArg (row.eventId :: ·) hfailures, fun item hitem => ?_, fun f hf => ?_⟩
        · rcases List.mem_cons.mp hitem with rfl | hitem
          · exact nofun
          · exact hanswered item hitem
        · rcases List.mem_cons.mp hf with rfl | hf
          · exact exceptionReason_not_blank error
          · exact hreasons f hf

theorem publishEach_answered (h : ∀ item ∈ batch, item.2 ≠ .interrupted) :
    ∃ published failures, publishEach batch = .ok (published, failures) := by
  induction batch with
  | nil => exact ⟨[], [], rfl⟩
  | cons item batch ih =>
    obtain ⟨published, failures, hrest⟩ := ih fun item hitem => h item (List.mem_cons_of_mem _ hitem)
    obtain ⟨row, delivery⟩ := item
    cases delivery with
    | returned => exact ⟨row.eventId :: published, failures, by rw [publishEach, hrest]; rfl⟩
    | raised error =>
      exact ⟨published, ⟨row.eventId, exceptionReason error⟩ :: failures, by rw [publishEach, hrest]; rfl⟩
    | interrupted => exact absurd rfl (h _ List.mem_cons_self)

theorem releaseFailures_eq (request : PublishRequest) (store : BatchStore) (rows : OutboxTable)
    (hreasons : ∀ f ∈ failures, Text.isBlank f.reason = false) :
    releaseFailures request store rows failures =
      if failures ≠ [] ∧ store.releaseRaises then none
      else some (releasedFor request rows (failures.map OutboxPublishFailure.eventId)) := by
  cases failures with
  | nil => rw [releaseFailures, if_neg (fun h => h.1 rfl), List.map_nil, releasedFor_nil]
  | cons first rest =>
    have hreason := releaseReason_not_blank (hreasons first List.mem_cons_self) rest
    rw [releaseFailures]
    by_cases hraises : store.releaseRaises = true
    · rw [if_pos hraises, if_pos ⟨List.cons_ne_nil _ _, hraises⟩]
    · rw [if_neg hraises, if_neg fun h => hraises h.2, releaseOutboxEvents, hreason, if_neg Bool.false_ne_true]
      rfl

/-- The three ways in which a batch ends, once the broker has answered. -/
theorem settle_eq (request : PublishRequest) (store : BatchStore) (batch : LeasedBatch)
    (hreasons : ∀ f ∈ failures, Text.isBlank f.reason = false) :
    let marked := markOutboxPublished store.atMark published (some request.publisherId)
    let released := releasedFor request (store.between marked.2) (failures.map OutboxPublishFailure.eventId)
    settle request store batch published failures =
      if published ≠ [] ∧ store.markRaises then ⟨.error .markRaised, [], [], store.between store.atMark⟩
      else if failures ≠ [] ∧ store.releaseRaises then
        ⟨.error .releaseRaised, marked.1, [], store.between marked.2⟩
      else
        ⟨.ok ⟨request.publisherId, batch.rows.length, marked.1.length, released.1.length, published,
          failures.map OutboxPublishFailure.eventId, failures⟩, marked.1, released.1, released.2⟩ := by
  intro marked released
  have hmarked : (if published ≠ [] then markOutboxPublished store.atMark published (some request.publisherId)
      else ([], store.atMark)) = marked := by
    split
    · rfl
    · next hnil =>
      rw [not_ne_iff] at hnil
      rw [← markOutboxPublished_nil store.atMark (some request.publisherId), ← hnil]
  unfold settle
  rw [hmarked]
  split
  · rfl
  · dsimp only
    rw [releaseFailures_eq request store _ hreasons]
    by_cases hraises : failures ≠ [] ∧ store.releaseRaises = true
    · rw [if_pos hraises, if_pos hraises]
    · rw [if_neg hraises, if_neg hraises]

end Batch

/-! ## Conservation -/

section Conservation

variable {request : PublishRequest} {store : BatchStore} {batch : LeasedBatch}

/-- The events that are marked: those that the broker took and that are still leased. -/
theorem mem_marked :
    i ∈ (markOutboxPublished store.atMark (eventsOf Delivery.taken batch.rows)
        (some request.publisherId)).1.map OutboxRow.eventId ↔
      ∃ r ∈ store.atMark, r.eventId = i ∧ i ∈ eventsOf Delivery.taken batch.rows ∧ r.status ≠ .published ∧
        r.lockedBy = some request.publisherId := by
  rw [markOutboxPublished, mem_updated_ids]
  simp only [OutboxRow.markable, Bool.and_eq_true, decide_eq_true_eq, Option.all_some]
  constructor
  · rintro ⟨r, hr, rfl, ⟨hi, hstatus⟩, hlocked⟩
    exact ⟨r, hr, rfl, hi, hstatus, hlocked⟩
  · rintro ⟨r, hr, rfl, hi, hstatus, hlocked⟩
    exact ⟨r, hr, rfl, ⟨hi, hstatus⟩, hlocked⟩

/-- The events that are released: those that the broker refused and that are still leased. -/
theorem mem_released :
    i ∈ (releasedFor request (rowsAtRelease request store batch)
        (eventsOf Delivery.refused batch.rows)).1.map OutboxRow.eventId ↔
      ∃ r ∈ rowsAtRelease request store batch, r.eventId = i ∧ i ∈ eventsOf Delivery.refused batch.rows ∧
        r.status = .publishing ∧ r.lockedBy = some request.publisherId := by
  rw [releasedFor, mem_updated_ids]
  simp only [OutboxRow.releasable, Bool.and_eq_true, decide_eq_true_eq]
  constructor
  · rintro ⟨r, hr, rfl, ⟨hi, hstatus⟩, hlocked⟩
    exact ⟨r, hr, rfl, hi, hstatus, hlocked⟩
  · rintro ⟨r, hr, rfl, hi, hstatus, hlocked⟩
    exact ⟨r, hr, rfl, ⟨hi, hstatus⟩, hlocked⟩

/-- An event of a batch is among those of a kind if the broker dealt with it so. -/
theorem mem_eventsOf_iff {item : OutboxRow × Delivery} (hitem : item ∈ batch) :
    item.1.eventId ∈ eventsOf p batch.rows ↔ p item.2 = true := by
  rw [mem_eventsOf]
  constructor
  · rintro ⟨other, hother, hp, hid⟩
    exact Table.eq_of_key hother hitem hid ▸ hp
  · exact fun hp => ⟨item, hitem, hp, rfl⟩

theorem eventsOf_ne_nil : eventsOf p batch.rows ≠ [] ↔ ∃ item ∈ batch, p item.2 = true := by
  constructor
  · intro h
    obtain ⟨i, hi⟩ := List.exists_mem_of_ne_nil _ h
    obtain ⟨item, hitem, hp, -⟩ := mem_eventsOf.mp hi
    exact ⟨item, hitem, hp⟩
  · rintro ⟨item, hitem, hp⟩
    exact List.ne_nil_of_mem ((mem_eventsOf_iff hitem).mpr hp)

theorem not_conserves {e : BatchError} {marked released : List OutboxRow} {rows : OutboxTable} :
    ¬Conserves batch ⟨.error e, marked, released, rows⟩ := by
  rintro ⟨⟨result, hended, -⟩, -⟩
  cases hended

/-- The events of one kind are each once in a batch. -/
theorem nodup_eventsOf (p : Delivery → Bool) : (eventsOf p batch.rows).Nodup :=
  batch.nodup.sublist (List.filter_sublist.map _)

/-- A broker that answers takes an event or refuses it. -/
theorem refused_iff {d : Delivery} (h : d ≠ .interrupted) : d.refused = true ↔ ¬d.taken = true := by
  cases d with
  | returned => simp [Delivery.refused, Delivery.taken]
  | raised error => simp [Delivery.refused, Delivery.taken]
  | interrupted => exact absurd rfl h

theorem length_eventsOf (h : ∀ item ∈ batch, item.2 ≠ .interrupted) :
    (eventsOf Delivery.taken batch.rows).length + (eventsOf Delivery.refused batch.rows).length =
      batch.rows.length := by
  have hrefused : batch.rows.filter (fun item => item.2.refused) = batch.rows.filter fun item => !item.2.taken := by
    refine List.filter_congr fun item hitem => ?_
    have hiff := refused_iff (h item hitem)
    cases htaken : item.2.taken <;> simp [htaken] at hiff <;> simp [hiff]
  rw [eventsOf, eventsOf, List.length_map, List.length_map, hrefused, ← List.length_append]
  exact (List.filter_append_perm _ _).length_eq

/-- What is conserved when every call that is made returns: that each event is still leased. -/
theorem conserves_settled (h : ∀ item ∈ batch, item.2 ≠ .interrupted) (result : OutboxPublishResult)
    (rows : OutboxTable) {marked released : List OutboxRow}
    (hmarked : marked = (markOutboxPublished store.atMark (eventsOf Delivery.taken batch.rows)
      (some request.publisherId)).1)
    (hreleased : released = (releasedFor request (rowsAtRelease request store batch)
      (eventsOf Delivery.refused batch.rows)).1)
    (hcounts : result.leasedCount = batch.rows.length ∧ result.publishedCount = marked.length ∧
      result.releasedCount = released.length) :
    Conserves batch ⟨.ok result, marked, released, rows⟩ ↔
      (∀ item ∈ batch, item.2.taken = true → item.1.eventId ∈ marked.map OutboxRow.eventId) ∧
        ∀ item ∈ batch, item.2.refused = true → item.1.eventId ∈ released.map OutboxRow.eventId := by
  have htaken : ∀ item ∈ batch, item.1.eventId ∈ marked.map OutboxRow.eventId → item.2.taken = true := by
    intro item hitem hmem
    rw [hmarked, mem_marked] at hmem
    obtain ⟨r, -, -, hmem, -⟩ := hmem
    exact (mem_eventsOf_iff hitem).mp hmem
  have hrefused : ∀ item ∈ batch, item.1.eventId ∈ released.map OutboxRow.eventId → item.2.refused = true := by
    intro item hitem hmem
    rw [hreleased, mem_released] at hmem
    obtain ⟨r, -, -, hmem, -⟩ := hmem
    exact (mem_eventsOf_iff hitem).mp hmem
  constructor
  · rintro ⟨-, hsettled⟩
    refine ⟨fun item hitem hdelivery => ?_, fun item hitem hdelivery => ?_⟩
    · rcases hsettled item hitem with ⟨hmem, -⟩ | ⟨hmem, -⟩
      · exact hmem
      · exact absurd hdelivery ((refused_iff (h item hitem)).mp (hrefused item hitem hmem))
    · rcases hsettled item hitem with ⟨hmem, -⟩ | ⟨hmem, -⟩
      · exact absurd (htaken item hitem hmem) ((refused_iff (h item hitem)).mp hdelivery)
      · exact hmem
  · rintro ⟨hall, hrest⟩
    have hmarkedids : (marked.map OutboxRow.eventId).Perm (eventsOf Delivery.taken batch.rows) := by
      refine (List.perm_ext_iff_of_nodup (hmarked ▸ nodup_updated_ids _) (nodup_eventsOf _)).mpr fun i => ?_
      constructor
      · intro hmem
        rw [hmarked, mem_marked] at hmem
        obtain ⟨r, -, -, hmem, -⟩ := hmem
        exact hmem
      · intro hmem
        obtain ⟨item, hitem, hdelivery, rfl⟩ := mem_eventsOf.mp hmem
        exact hall item hitem hdelivery
    have hreleasedids : (released.map OutboxRow.eventId).Perm (eventsOf Delivery.refused batch.rows) := by
      refine (List.perm_ext_iff_of_nodup (hreleased ▸ nodup_updated_ids _) (nodup_eventsOf _)).mpr fun i => ?_
      constructor
      · intro hmem
        rw [hreleased, mem_released] at hmem
        obtain ⟨r, -, -, hmem, -⟩ := hmem
        exact hmem
      · intro hmem
        obtain ⟨item, hitem, hdelivery, rfl⟩ := mem_eventsOf.mp hmem
        exact hrest item hitem hdelivery
    have hlengths := length_eventsOf h
    rw [← hmarkedids.length_eq, ← hreleasedids.length_eq, List.length_map, List.length_map] at hlengths
    refine ⟨⟨result, rfl, hcounts.1, by omega⟩, fun item hitem => ?_⟩
    by_cases hdelivery : item.2.taken = true
    · refine .inl ⟨hall item hitem hdelivery, fun hmem => ?_⟩
      exact (refused_iff (h item hitem)).mp (hrefused item hitem hmem) hdelivery
    · refine .inr ⟨hrest item hitem ((refused_iff (h item hitem)).mpr hdelivery), fun hmem => ?_⟩
      exact hdelivery (htaken item hitem hmem)

/-- How a batch whose events the broker answered for is settled. -/
theorem settled_iff
    (h : publishEach batch.rows = .ok (published, failures)) :
    Conserves batch (settle request store batch published failures) ↔ Undisturbed request store batch := by
  obtain ⟨rfl, hfailures, hanswered, hreasons⟩ := publishEach_ok h
  have hfailed : failures ≠ [] ↔ ∃ item ∈ batch, item.2.refused = true := by
    rw [← eventsOf_ne_nil, ← hfailures, ne_eq, ne_eq, List.map_eq_nil_iff]
  rw [settle_eq request store batch hreasons]
  by_cases hmark : eventsOf Delivery.taken batch.rows ≠ [] ∧ store.markRaises = true
  · rw [if_pos hmark]
    refine iff_of_false not_conserves fun hundisturbed => ?_
    exact Bool.false_ne_true ((hundisturbed.marks (eventsOf_ne_nil.mp hmark.1)).symm.trans hmark.2)
  · rw [if_neg hmark]
    by_cases hrelease : failures ≠ [] ∧ store.releaseRaises = true
    · rw [if_pos hrelease]
      refine iff_of_false not_conserves fun hundisturbed => ?_
      exact Bool.false_ne_true ((hundisturbed.releases (hfailed.mp hrelease.1)).symm.trans hrelease.2)
    · rw [if_neg hrelease, hfailures]
      refine ((@conserves_settled request store) hanswered _ _ rfl rfl
        ⟨rfl, rfl, rfl⟩).trans ?_
      constructor
      · rintro ⟨hall, hrest⟩
        refine ⟨hanswered, fun htaken => ?_, fun hrefused => ?_, fun item hitem htaken => ?_,
          fun item hitem hrefused => ?_⟩
        · exact Bool.eq_false_iff.mpr fun hraises => hmark ⟨eventsOf_ne_nil.mpr htaken, hraises⟩
        · exact Bool.eq_false_iff.mpr fun hraises => hrelease ⟨hfailed.mpr hrefused, hraises⟩
        · obtain ⟨r, hr, hid, -, hheld⟩ := mem_marked.mp (hall item hitem htaken)
          exact ⟨r, hr, hid, hheld⟩
        · obtain ⟨r, hr, hid, -, hheld⟩ := mem_released.mp (hrest item hitem hrefused)
          exact ⟨r, hr, hid, hheld⟩
      · rintro ⟨-, -, -, hmarked, hreleased⟩
        refine ⟨fun item hitem htaken => mem_marked.mpr ?_, fun item hitem hrefused => mem_released.mpr ?_⟩
        · obtain ⟨r, hr, hid, hheld⟩ := hmarked item hitem htaken
          exact ⟨r, hr, hid, (mem_eventsOf_iff hitem).mpr htaken, hheld⟩
        · obtain ⟨r, hr, hid, hheld⟩ := hreleased item hitem hrefused
          exact ⟨r, hr, hid, (mem_eventsOf_iff hitem).mpr hrefused, hheld⟩

/-- What a batch changes, however it ends: events that the broker took are marked, and others are released. -/
structure Changes (request : PublishRequest) (batch : LeasedBatch) (run : BatchRun) : Prop where
  marked : ∀ r ∈ run.marked, r.status = .published ∧ ∃ item ∈ batch, item.1.eventId = r.eventId ∧ item.2 = .returned
  released : ∀ r ∈ run.released, r.status = .pending ∧ r.availableAt = request.retryAt

theorem changes_settle
    (h : publishEach batch.rows = .ok (published, failures)) :
    Changes request batch (settle request store batch published failures) := by
  obtain ⟨rfl, hfailures, -, hreasons⟩ := publishEach_ok h
  have hmarked : ∀ r ∈ (markOutboxPublished store.atMark (eventsOf Delivery.taken batch.rows)
      (some request.publisherId)).1, r.status = .published ∧
        ∃ item ∈ batch, item.1.eventId = r.eventId ∧ item.2 = .returned := by
    intro r hr
    obtain ⟨-, -, -, hmem, -⟩ := mem_marked.mp (List.mem_map_of_mem (f := OutboxRow.eventId) hr)
    obtain ⟨item, hitem, htaken, hid⟩ := mem_eventsOf.mp hmem
    obtain ⟨r', -, rfl⟩ := List.mem_map.mp hr
    refine ⟨rfl, item, hitem, hid, ?_⟩
    cases hdelivery : item.2 with
    | returned => rfl
    | raised error => rw [hdelivery] at htaken; cases htaken
    | interrupted => rw [hdelivery] at htaken; cases htaken
  have hreleased : ∀ rows ids, ∀ r ∈ (releasedFor request rows ids).1,
      r.status = .pending ∧ r.availableAt = request.retryAt := by
    intro rows ids r hr
    obtain ⟨r', -, rfl⟩ := List.mem_map.mp hr
    exact ⟨rfl, rfl⟩
  rw [settle_eq request store batch hreasons]
  split
  · exact ⟨fun _ hr => absurd hr List.not_mem_nil, fun _ hr => absurd hr List.not_mem_nil⟩
  · split
    · exact ⟨hmarked, fun _ hr => absurd hr List.not_mem_nil⟩
    · exact ⟨hmarked, hreleased _ _⟩

/-- **A batch of the outbox is conserved** just when nothing comes between: each event is then published or released,
one of the two, and the counts add up. Whatever happens, only events that the broker took are marked. -/
theorem outbox_batch_conserved (hvalid : request.valid = true) (hleased : store.leased = some batch) :
    (Conserves batch (publishOutboxBatch request store) ↔ Undisturbed request store batch) ∧
      Changes request batch (publishOutboxBatch request store) := by
  unfold publishOutboxBatch
  rw [if_pos hvalid, hleased]
  dsimp only
  by_cases hempty : batch.rows = []
  · rw [if_pos hempty]
    have hnone : ∀ item, item ∉ batch := fun item hitem => by
      rw [Table.mem_def, hempty] at hitem
      cases hitem
    refine ⟨iff_of_true ⟨⟨_, rfl, (congrArg List.length hempty).symm, rfl⟩, fun item hitem => ?_⟩ ?_, nofun, nofun⟩
    · exact absurd hitem (hnone item)
    · exact ⟨fun item hitem => absurd hitem (hnone item), fun ⟨item, hitem, _⟩ => absurd hitem (hnone item),
        fun ⟨item, hitem, _⟩ => absurd hitem (hnone item), fun item hitem => absurd hitem (hnone item),
        fun item hitem => absurd hitem (hnone item)⟩
  · rw [if_neg hempty]
    cases heach : publishEach batch.rows with
    | error e =>
      refine ⟨iff_of_false not_conserves fun hundisturbed => ?_, nofun, nofun⟩
      obtain ⟨published, failures, hok⟩ := publishEach_answered hundisturbed.answered
      cases heach.symm.trans hok
    | ok found => exact ⟨settled_iff heach, changes_settle heach⟩

end Conservation

/-! ## Two events -/

def leasedRow (eventId : EventId) : OutboxRow :=
  ⟨1, ⟨"GoalCreated", "session-1", "goal-1", "task-1", eventId, none, [], 0⟩, .publishing, 1, 0, some "a",
    some 30000000⟩

def twoEvents : LeasedBatch :=
  ⟨[(leasedRow "event-1", .returned), (leasedRow "event-2", .raised ⟨"broker down", "ConnectionError", by decide⟩)],
    by decide⟩

def twoEventStore (markRaises : Bool) : BatchStore :=
  ⟨some twoEvents, ⟨[leasedRow "event-1", leasedRow "event-2"], by decide⟩, markRaises, id, false⟩

def publisherA : PublishRequest := ⟨"a", 10, 30, 5, 0⟩

theorem outbox_batch_conserved_two :
    (Conserves twoEvents (publishOutboxBatch publisherA (twoEventStore false)) ↔
        Undisturbed publisherA (twoEventStore false) twoEvents) ∧
      Changes publisherA twoEvents (publishOutboxBatch publisherA (twoEventStore false)) :=
  outbox_batch_conserved (by decide +kernel) rfl

/-- Marking raises: the event that failed is not released, and the one that was published is not marked. -/
theorem failure_not_released : ¬∀ (request : PublishRequest) (store : BatchStore) (batch : LeasedBatch),
    request.valid = true → store.leased = some batch → Conserves batch (publishOutboxBatch request store) := by
  intro h
  obtain ⟨-, hsettled⟩ := h publisherA (twoEventStore true) twoEvents (by decide +kernel) rfl
  have hneither : (publishOutboxBatch publisherA (twoEventStore true)).marked = [] ∧
      (publishOutboxBatch publisherA (twoEventStore true)).released = [] := by decide +kernel
  rcases hsettled _ (List.mem_cons_of_mem _ List.mem_cons_self) with ⟨hmem, -⟩ | ⟨hmem, -⟩
  · rw [hneither.1] at hmem
    cases hmem
  · rw [hneither.2] at hmem
    cases hmem

end UniversalAgent.Persistence
