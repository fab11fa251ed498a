import UniversalAgent.Distributed.QueueFile

/-!
# Distributed — QueueSqlite

`SQLiteWorkQueue` (`distributed/queue_sqlite.py`): the queue as rows of one table, deleted
and inserted again by every save. Public methods run in a transaction, which is rolled back
when the method raises, unless the error is one the method commits on. `lease` is written
out again, without a fencing token.

`sqliteQueue_refines` shows the queue to be the stored queue of `sqliteBackend`.
-/

namespace UniversalAgent.Distributed

open UniversalAgent.Foundation WorkQueue

variable {π : Type}

/-- A row of `work_queue_items`. -/
structure WorkQueueRow where
  workItemId : String
  kind : String
  status : String
  priority : Int
  attempts : Int
  maxAttempts : Int
  availableAt : String
  leaseExpiresAt : Option String
  idempotencyKey : Option String
  payload : WorkItemPayload
deriving DecidableEq

abbrev SQLiteWorkQueue (π : Type) := DurableQueue (List WorkQueueRow) π

def sqliteRow (c : StorageCodec π) (i : WorkItem π) (payload : WorkItemPayload) : WorkQueueRow where
  workItemId := i.workItemId
  kind := i.kind
  status := i.status.value
  priority := i.priority
  attempts := i.attempts
  maxAttempts := i.maxAttempts
  availableAt := c.isoformat i.availableAt
  leaseExpiresAt := i.lease.map fun l => c.isoformat l.leaseExpiresAt
  idempotencyKey := i.idempotencyKey
  payload := payload

def sqliteWorkItemValues (c : StorageCodec π) (i : WorkItem π) : Except QueueError WorkQueueRow :=
  match encodeWorkItem c i with
  | .error e => .error e
  | .ok payload => .ok (sqliteRow c i payload)

def isSqlInt (n : Int) : Bool := decide (-2 ^ 63 ≤ n ∧ n < 2 ^ 63)

def WorkQueueRow.hasSqlInts (r : WorkQueueRow) : Bool :=
  isSqlInt r.priority && isSqlInt r.attempts && isSqlInt r.maxAttempts

/-- `ORDER BY priority DESC, available_at ASC, work_item_id ASC`. -/
def WorkQueueRow.orderKey (r : WorkQueueRow) : Int ×ₗ String ×ₗ String :=
  toLex (-r.priority, toLex (r.availableAt, r.workItemId))

def WorkItem.rowKey (c : StorageCodec π) (i : WorkItem π) : Int ×ₗ String ×ₗ String :=
  toLex (-i.priority, toLex (c.isoformat i.availableAt, i.workItemId))

/-- `SQLiteWorkQueue._load` and `SQLiteWorkQueue._save`. -/
def sqliteAdapter (c : StorageCodec π) : Adapter (List WorkQueueRow) π where
  empty := []
  read rows :=
    loadItems c "duplicate sqlite work queue item: "
      ((rows.insertionSort fun r r' => r.orderKey ≤ r'.orderKey).map fun r => r.payload) Table.empty
  write items :=
    match items.mapM (sqliteWorkItemValues c) with
    | .error e => .error e
    | .ok rows => if rows.all WorkQueueRow.hasSqlInts then .ok rows else .error .overflowError

namespace SQLiteWorkQueue

/-- `_transaction(commit_on=...)`. -/
def transaction {α : Type} (commitOn : QueueError → Bool) (s : SQLiteWorkQueue π)
    (body : SQLiteWorkQueue π → Outcome (SQLiteWorkQueue π) α) : Outcome (SQLiteWorkQueue π) α :=
  match body s with
  | (.ok x, s') => (.ok x, s')
  | (.error e, s') =>
    if commitOn e then (.error e, s') else (.error e, { s' with data := s.data })

def commitOnNothing : QueueError → Bool := fun _ => false

def commitOnNoWorkAvailable : QueueError → Bool
  | .noWorkAvailable _ => true
  | _ => false

def commitOnLeaseLost : QueueError → Bool
  | .leaseLost _ => true
  | _ => false

/-- The body of `lease`. -/
def leaseBody (c : StorageCodec π) (workerId : String) (ttlSeconds : ℚ) (now : Time)
    (acceptedKinds : Option (List String)) (s : SQLiteWorkQueue π) :
    Outcome (SQLiteWorkQueue π) (WorkItem π) :=
  s.loading (sqliteAdapter c) fun s =>
    match normalizeAcceptedKinds acceptedKinds with
    | .error e => (.error e, s)
    | .ok kindFilter =>
      let (expired, q) := s.queue.expire now
      let s : SQLiteWorkQueue π := { s with queue := q }
      match q.nextLeaseable now kindFilter with
      | none =>
        if expired = [] then (.error (.noWorkAvailable "no work available"), s)
        else
          match s.save (sqliteAdapter c) with
          | .error e => (.error e, s)
          | .ok s => (.error (.noWorkAvailable "no work available"), s)
      | some item =>
        match leaseDeadline now ttlSeconds with
        | .error e => (.error e, s)
        | .ok deadline =>
          match item.withLease ⟨item.nextLeaseId, workerId, now, deadline, now, 0⟩ with
          | .error e => (.error e, s)
          | .ok leased =>
            DurableQueue.saving (sqliteAdapter c)
              (.ok leased, { s with queue := q.setItem leased })

def lease (c : StorageCodec π) (s : SQLiteWorkQueue π) (workerId : String) (ttlSeconds : ℚ)
    (now : Time) (acceptedKinds : Option (List String)) :
    Outcome (SQLiteWorkQueue π) (WorkItem π) :=
  transaction commitOnNoWorkAvailable s (leaseBody c workerId ttlSeconds now acceptedKinds)

def step (c : StorageCodec π) (s : SQLiteWorkQueue π) : QueueOp π → Reply π × SQLiteWorkQueue π
  | .enqueue r =>
    let o := transaction commitOnNothing s fun s => s.enqueue (sqliteAdapter c) r
    (Reply.ofItem o.1, o.2)
  | .lease w ttl now kinds =>
    let o := lease c s w ttl now kinds
    (Reply.ofItem o.1, o.2)
  | .heartbeat l w ttl now =>
    let o := transaction commitOnLeaseLost s fun s => s.heartbeat (sqliteAdapter c) l w ttl now
    (Reply.ofItem o.1, o.2)
  | .complete l w now =>
    let o := transaction commitOnLeaseLost s fun s => s.complete (sqliteAdapter c) l w now
    (Reply.ofItem o.1, o.2)
  | .fail l w reason retry now =>
    let o := transaction commitOnLeaseLost s fun s =>
      s.fail (sqliteAdapter c) l w reason retry now
    (Reply.ofItem o.1, o.2)
  | .cancel id reason now =>
    let o := transaction commitOnNothing s fun s => s.cancel (sqliteAdapter c) id reason now
    (Reply.ofItem o.1, o.2)
  | .expire now =>
    let o := transaction commitOnNothing s fun s => s.expire (sqliteAdapter c) now
    (Reply.ofItems o.1, o.2)
  | .prune before =>
    let o := transaction commitOnNothing s fun s => s.pruneTerminal (sqliteAdapter c) before
    (Reply.ofItems o.1, o.2)
  | .get id => (Reply.ofItem (s.get (sqliteAdapter c) id).1, (s.get (sqliteAdapter c) id).2)
  | .list status =>
    (Reply.ofItems (s.list (sqliteAdapter c) status).1, (s.list (sqliteAdapter c) status).2)
  | .reopen => (Reply.ofUnit (s.reopen (sqliteAdapter c)).1, (s.reopen (sqliteAdapter c)).2)

end SQLiteWorkQueue

def sqliteQueue (c : StorageCodec π) : Machine (SQLiteWorkQueue π) (QueueOp π) (Reply π) where
  init := ⟨WorkQueue.new, []⟩
  step := SQLiteWorkQueue.step c

/-- `lease` as the transaction leaves the queue: the sweep is kept when there is no work and
undone when anything else is wrong, and the lease has the default token. -/
def sqliteLease (q : WorkQueue π) (workerId : String) (ttlSeconds : ℚ) (now : Time)
    (acceptedKinds : Option (List String)) : Outcome (WorkQueue π) (WorkItem π) :=
  match normalizeAcceptedKinds acceptedKinds with
  | .error e => (.error e, q)
  | .ok kindFilter =>
    match (q.expire now).2.nextLeaseable now kindFilter with
    | none => (.error (.noWorkAvailable "no work available"), (q.expire now).2)
    | some item =>
      match leaseDeadline now ttlSeconds with
      | .error e => (.error e, q)
      | .ok deadline =>
        match item.withLease ⟨item.nextLeaseId, workerId, now, deadline, now, 0⟩ with
        | .error e => (.error e, q)
        | .ok leased => (.ok leased, (q.expire now).2.setItem leased)

def sqliteBackend (c : StorageCodec π) : Backend π where
  rowOrder i j := decide (i.rowKey c ≤ j.rowKey c)
  refusal i :=
    match sqliteWorkItemValues c i with
    | .error e => some e
    | .ok row => if row.hasSqlInts then none else some .overflowError
  lease := sqliteLease

variable (c : StorageCodec π)

/-! ## The backend and the adapter -/

/-- An item can be written when the JSON codec can write it and its integers fit a column. -/
theorem sqliteBackend_refusal_none {i : WorkItem π} :
    (sqliteBackend c).refusal i = none ↔ (∃ p, encodeWorkItem c i = .ok p) ∧
      isSqlInt i.priority = true ∧ isSqlInt i.attempts = true ∧ isSqlInt i.maxAttempts = true := by
  simp only [sqliteBackend, sqliteWorkItemValues]
  cases encodeWorkItem c i with
  | error e => simp
  | ok p =>
    simp only [WorkQueueRow.hasSqlInts, sqliteRow, Bool.and_eq_true, and_assoc]
    by_cases h : isSqlInt i.priority = true ∧ isSqlInt i.attempts = true ∧
        isSqlInt i.maxAttempts = true <;> simp [h]

/-- `sqliteLease` grants the default token on the next item, or raises. -/
theorem sqliteLease_cases {q : WorkQueue π} (h : QueueInv q) (w : String) (ttl : ℚ) (now : Time)
    (kinds : Option (List String)) :
    (∃ i j l, (sqliteLease q w ttl now kinds).1 = .ok j ∧ l.workerId = w ∧ l.fencingToken = 0 ∧
        Grant (q.expire now).2 (sqliteLease q w ttl now kinds).2 i j l ∧
        (sqliteLease q w ttl now kinds).2.fencingSequences = q.fencingSequences) ∨
      ∃ e, (sqliteLease q w ttl now kinds).1 = .error e ∧
        Edits q (sqliteLease q w ttl now kinds).2 ∧
        (sqliteLease q w ttl now kinds).2.fencingSequences = q.fencingSequences := by
  unfold sqliteLease
  cases normalizeAcceptedKinds kinds with
  | error e => exact .inr ⟨e, rfl, .refl, rfl⟩
  | ok kindFilter =>
    simp only
    cases hn : (q.expire now).2.nextLeaseable now kindFilter with
    | none => exact .inr ⟨_, rfl, edits_expire q now, expire_fencingSequences q now⟩
    | some i =>
      simp only
      cases leaseDeadline now ttl with
      | error e => exact .inr ⟨e, rfl, .refl, rfl⟩
      | ok deadline =>
        obtain ⟨hi, hs⟩ := nextLeaseable_mem hn
        let l : WorkerLease := ⟨i.nextLeaseId, w, now, deadline, now, 0⟩
        obtain ⟨j, hj⟩ :=
          withLease_ok ((h.edits (edits_expire q now)).left i hi hs) l
        simp only
        rw [hj]
        exact .inl ⟨i, j, l, rfl, rfl, rfl, grant_setItem hi hs rfl hj fun _ => Iff.rfl,
          expire_fencingSequences q now⟩

theorem sqliteBackend_lawful : (sqliteBackend c).Lawful where
  total := fun i j => by simpa [sqliteBackend] using le_total (i.rowKey c) (j.rowKey c)
  trans := fun i j k hij hjk => by
    simp only [sqliteBackend, decide_eq_true_eq] at hij hjk ⊢
    exact hij.trans hjk
  antisymm := fun i j hij hji => by
    simp only [sqliteBackend, decide_eq_true_eq] at hij hji
    have h := congrArg (fun x => (ofLex (ofLex x).2).2) (le_antisymm hij hji)
    simpa [WorkItem.rowKey] using h
  refusal := fun i j hp hpr hm ht hi => by
    rw [sqliteBackend_refusal_none] at hi ⊢
    obtain ⟨he, h1, -, h3⟩ := hi
    have hbound := h3
    rw [← hm] at hbound
    simp only [isSqlInt, decide_eq_true_eq] at hbound
    have hnn := j.wellFormed.attempts_nonneg
    have hle := j.wellFormed.attempts_le
    refine ⟨encodeWorkItem_isOk_of c hp hpr hm ht he, hpr ▸ h1, ?_, hm ▸ h3⟩
    simp only [isSqlInt, decide_eq_true_eq]
    omega
  lease := fun q w ttl now kinds h => by
    rcases sqliteLease_cases h w ttl now kinds with
      ⟨i, j, l, hj, hw, ht, hg, hf⟩ | ⟨e, he, hed, hf⟩
    · refine .inl ⟨(q.expire now).2, i, j, l, hj, hw, edits_expire q now, hg, by omega,
        fun id => ?_⟩
      simp only [sqliteBackend, hf]
      split <;> omega
    · exact .inr ⟨e, he, hed, hf⟩

def encodedItem (i : WorkItem π) : WorkItemPayload := (encodeWorkItem c i).toOption.getD default

theorem encodedItem_spec {i : WorkItem π} (h : ∃ p, encodeWorkItem c i = .ok p) :
    encodeWorkItem c i = .ok (encodedItem c i) := by
  obtain ⟨p, hp⟩ := h
  simp [encodedItem, hp, Except.toOption]

theorem mapM_values_ok {items : List (WorkItem π)}
    (h : ∀ i ∈ items, ∃ p, encodeWorkItem c i = .ok p) :
    items.mapM (sqliteWorkItemValues c) = .ok (items.map fun i => sqliteRow c i (encodedItem c i)) := by
  induction items with
  | nil => rfl
  | cons i items ih =>
    have hi : sqliteWorkItemValues c i = .ok (sqliteRow c i (encodedItem c i)) := by
      rw [sqliteWorkItemValues, encodedItem_spec c (h i List.mem_cons_self)]
    have htl := ih fun j hj => h j (List.mem_cons_of_mem _ hj)
    simp [List.mapM_cons, hi, htl, bind, Except.bind, pure, Except.pure]

/-- Encoding stops at an item that cannot be encoded. -/
theorem mapM_values_error {items : List (WorkItem π)} {j : WorkItem π} {e : QueueError}
    (hj : j ∈ items) (he : encodeWorkItem c j = .error e) :
    items.mapM (sqliteWorkItemValues c) = .error .jsonCodecError := by
  induction items with
  | nil => exact absurd hj List.not_mem_nil
  | cons i items ih =>
    cases hi : encodeWorkItem c i with
    | error e' =>
      simp [List.mapM_cons, sqliteWorkItemValues, hi, encodeWorkItem_error c hi, bind,
        Except.bind]
    | ok p =>
      have hj' : j ∈ items := by
        rcases List.mem_cons.mp hj with rfl | hj'
        · rw [hi] at he; cases he
        · exact hj'
      simp [List.mapM_cons, sqliteWorkItemValues, hi, ih hj', bind, Except.bind]

/-- The order of the rows is the backend's order of the items. -/
theorem sorted_rows (items : List (WorkItem π)) :
    (items.map fun i => sqliteRow c i (encodedItem c i)).insertionSort
        (fun r r' => r.orderKey ≤ r'.orderKey)
      = (items.insertionSort fun i j => i.rowKey c ≤ j.rowKey c).map
          fun i => sqliteRow c i (encodedItem c i) := by
  symm
  exact List.map_insertionSort _ _ _ _ fun _ _ _ _ => Iff.rfl

/-- Sorting by row key is the backend's arrangement, whatever the order before. -/
theorem insertionSort_eq_arrange (t : Items π) :
    (WorkItem.sorted t.rows).insertionSort (fun i j => i.rowKey c ≤ j.rowKey c)
      = (t.arrange (sqliteBackend c).rowOrder).rows := by
  have hp : ((WorkItem.sorted t.rows).insertionSort fun i j => i.rowKey c ≤ j.rowKey c).Perm
      t.rows := (List.perm_insertionSort _ _).trans (WorkItem.sorted_perm t.rows)
  have : Std.Total (fun i j : WorkItem π => i.rowKey c ≤ j.rowKey c) := ⟨fun _ _ => le_total _ _⟩
  have : IsTrans (WorkItem π) (fun i j => i.rowKey c ≤ j.rowKey c) := ⟨fun _ _ _ => le_trans⟩
  refine List.Perm.eq_of_pairwise (fun i j hi hj hij hji => ?_) (List.pairwise_insertionSort _ _)
    (((sqliteBackend_lawful c).pairwise t).imp fun h => by simpa [sqliteBackend] using h)
    (hp.trans (List.perm_insertionSort _ t.rows).symm)
  refine Table.eq_of_key (hp.mem_iff.mp hi) (Items.mem_arrange.mp hj) ?_
  exact (sqliteBackend_lawful c).antisymm i j (by simpa [sqliteBackend] using hij)
    (by simpa [sqliteBackend] using hji)

theorem sqliteAdapter_lawful : (sqliteAdapter c).Lawful (sqliteBackend c) where
  empty := rfl
  write_ok := fun t ht => by
    have hmem : ∀ i ∈ WorkItem.sorted t.rows, (sqliteBackend c).refusal i = none := fun i hi =>
      ht i ((WorkItem.sorted_perm t.rows).mem_iff.mp hi)
    have henc : ∀ i ∈ WorkItem.sorted t.rows, ∃ p, encodeWorkItem c i = .ok p := fun i hi =>
      ((sqliteBackend_refusal_none c).mp (hmem i hi)).1
    have hall : ((WorkItem.sorted t.rows).map fun i => sqliteRow c i (encodedItem c i)).all
        WorkQueueRow.hasSqlInts = true := by
      rw [List.all_map, List.all_eq_true]
      intro i hi
      obtain ⟨-, h1, h2, h3⟩ := (sqliteBackend_refusal_none c).mp (hmem i hi)
      simp [WorkQueueRow.hasSqlInts, sqliteRow, h1, h2, h3]
    refine ⟨(WorkItem.sorted t.rows).map fun i => sqliteRow c i (encodedItem c i),
      by simp only [sqliteAdapter, mapM_values_ok c henc, hall, if_true], ?_⟩
    simp only [sqliteAdapter]
    rw [sorted_rows, insertionSort_eq_arrange, List.map_map]
    refine loadItems_encode c _ ?_ Table.empty _ rfl
    refine List.forall₂_map_right_iff.mpr (List.forall₂_same.mpr fun i hi => ?_)
    refine encodedItem_spec c (henc i ?_)
    exact (WorkItem.sorted_perm t.rows).mem_iff.mpr (Items.mem_arrange.mp hi)
  write_error := fun t j e hj hr hrest => by
    have hj' := (WorkItem.sorted_perm t.rows).mem_iff.mpr hj
    simp only [sqliteBackend, sqliteWorkItemValues] at hr
    cases he : encodeWorkItem c j with
    | error e' =>
      rw [he] at hr
      cases hr
      simp only [sqliteAdapter, mapM_values_error c hj' he, encodeWorkItem_error c he]
    | ok p =>
      rw [he] at hr
      simp only at hr
      have henc : ∀ i ∈ WorkItem.sorted t.rows, ∃ p, encodeWorkItem c i = .ok p := by
        intro i hi
        by_cases hij : i = j
        · exact ⟨p, hij ▸ he⟩
        · exact ((sqliteBackend_refusal_none c).mp
            (hrest i ((WorkItem.sorted_perm t.rows).mem_iff.mp hi) hij)).1
      split at hr
      · cases hr
      · rename_i hints
        cases hr
        have hall : ((WorkItem.sorted t.rows).map fun i => sqliteRow c i (encodedItem c i)).all
            WorkQueueRow.hasSqlInts = false := by
          rw [List.all_map, List.all_eq_false]
          exact ⟨j, hj', hints⟩
        simp only [sqliteAdapter, mapM_values_ok c henc, hall, Bool.false_eq_true, if_false]

/-! ## Transactions -/

namespace SQLiteWorkQueue

open DurableQueue

variable {c}

/-- A transaction simulates what its body does, when an error that rolls back leaves the queue
as it was. -/
theorem transaction_simulates {α : Type} {commitOn : QueueError → Bool} {s : SQLiteWorkQueue π}
    {q : WorkQueue π} {body : SQLiteWorkQueue π → Outcome (SQLiteWorkQueue π) α}
    {r : Outcome (WorkQueue π) α} (h : Stands (sqliteAdapter c) (sqliteBackend c) s q)
    (hs : Simulates (sqliteAdapter c) (sqliteBackend c) (body s) r)
    (hback : ∀ e, r.1 = .error e → commitOn e = false → r.2 = q) :
    Simulates (sqliteAdapter c) (sqliteBackend c) (transaction commitOn s body) r := by
  obtain ⟨hans, hst⟩ := hs
  unfold transaction
  rcases hb : body s with ⟨res, s'⟩
  rw [hb] at hans hst
  cases res with
  | ok x => exact ⟨hans, hst⟩
  | error e =>
    simp only
    split
    · exact ⟨hans, hst⟩
    · rename_i hc
      have hq := hback e hans.symm (by simpa using hc)
      rw [hq, h.stored.canonical] at hst
      refine ⟨hans, ?_⟩
      rw [hq, h.stored.canonical]
      exact ⟨h.stored, h.read, hst.fencing⟩

/-- The error of a call that presents a lease either commits or changed nothing. -/
theorem withLeasedItem_error {q : WorkQueue π} {leaseId w : String} {now : Time}
    {body : WorkItem π → WorkerLease → Outcome (WorkQueue π) (WorkItem π)} {e : QueueError}
    (hbody : ∀ i l e, (body i l).1 = .error e → (body i l).2 = q)
    (he : (q.withLeasedItem leaseId w now body).1 = .error e) (hc : commitOnLeaseLost e = false) :
    (q.withLeasedItem leaseId w now body).2 = q := by
  unfold WorkQueue.withLeasedItem at he ⊢
  split at he
  · exact hbody _ _ e he
  · simp only [LeaseCheck.error, Except.error.injEq] at he
    rw [← he] at hc
    cases hc
  · rfl

theorem lease_simulates {s : SQLiteWorkQueue π} {q : WorkQueue π}
    (h : Stands (sqliteAdapter c) (sqliteBackend c) s q) (w : String) (ttl : ℚ) (now : Time)
    (kinds : Option (List String)) :
    Simulates (sqliteAdapter c) (sqliteBackend c) (lease c s w ttl now kinds)
      (sqliteLease q w ttl now kinds) := by
  have ha := sqliteAdapter_lawful c
  have hb := sqliteBackend_lawful c
  have hsw : Writable (sqliteBackend c) (q.expire now).2 :=
    h.stored.toWritable.edits hb (edits_expire q now) (expire_fencingSequences q now)
  -- the object after a rollback
  have hback : ∀ q' : WorkQueue π, q'.fencingSequences = q.fencingSequences →
      Stands (sqliteAdapter c) (sqliteBackend c) { s with queue := q' } ((sqliteBackend c).reload q) :=
    fun q' hf => by
      rw [h.stored.canonical]
      exact ⟨h.stored, h.read, hf⟩
  unfold lease transaction leaseBody
  rw [h.loading]
  unfold sqliteLease
  cases normalizeAcceptedKinds kinds with
  | error e =>
    cases hc : commitOnNoWorkAvailable e <;> simp only [hc, Bool.false_eq_true, if_true, if_false]
    · exact ⟨rfl, hback q rfl⟩
    · exact ⟨rfl, hback q rfl⟩
  | ok kindFilter =>
    simp only
    -- an error after the sweep, before anything is saved
    have hundone : ∀ e, Simulates (sqliteAdapter c) (sqliteBackend c)
        (if commitOnNoWorkAvailable e then
          ((.error e, { s with queue := (q.expire now).2 }) :
            Outcome (SQLiteWorkQueue π) (WorkItem π))
        else (.error e, { s with queue := (q.expire now).2 })) (.error e, q) := fun e => by
      rw [ite_self]
      exact ⟨rfl, hback _ (expire_fencingSequences q now)⟩
    cases hn : (q.expire now).2.nextLeaseable now kindFilter with
    | none =>
      simp only
      by_cases hnil : (q.expire now).1 = []
      · have hq : (q.expire now).2 = q := expire_of_nil hnil
        simp only [hnil, if_true, commitOnNoWorkAvailable]
        exact ⟨rfl, by rw [hq]; exact hback q rfl⟩
      · obtain ⟨s', hs', -, hst⟩ := save_ok ha hb (s := { s with queue := (q.expire now).2 }) hsw
        simp only [hnil, if_false, hs', commitOnNoWorkAvailable, if_true]
        exact ⟨rfl, hst⟩
    | some i =>
      obtain ⟨hi, hqueued⟩ := nextLeaseable_mem hn
      simp only
      cases leaseDeadline now ttl with
      | error e => exact hundone e
      | ok deadline =>
        simp only
        cases hl : i.withLease ⟨i.nextLeaseId, w, now, deadline, now, 0⟩ with
        | error e => exact hundone e
        | ok j =>
          have hg : Grant (q.expire now).2 ((q.expire now).2.setItem j) i j
              ⟨i.nextLeaseId, w, now, deadline, now, 0⟩ :=
            grant_setItem hi hqueued rfl hl fun _ => Iff.rfl
          have hw : Writable (sqliteBackend c) ((q.expire now).2.setItem j) :=
            hsw.grant hb hg (by simp) fun id => by
              rw [fencingSequences_setItem]
              split <;> omega
          obtain ⟨s', hs', -, hst⟩ :=
            save_ok ha hb (s := { s with queue := (q.expire now).2.setItem j }) hw
          simp only [saving, hs']
          exact ⟨rfl, hst⟩

end SQLiteWorkQueue

open DurableQueue SQLiteWorkQueue

theorem sqliteQueue_step {s : SQLiteWorkQueue π} {q : WorkQueue π}
    (h : Stands (sqliteAdapter c) (sqliteBackend c) s q) (op : QueueOp π) :
    (s.step c op).1 = ((sqliteBackend c).step q op).1 ∧
      Stands (sqliteAdapter c) (sqliteBackend c) (s.step c op).2
        ((sqliteBackend c).step q op).2 := by
  have ha := sqliteAdapter_lawful c
  have hb := sqliteBackend_lawful c
  have item : ∀ {r : Outcome (SQLiteWorkQueue π) (WorkItem π)}
      {r' : Outcome (WorkQueue π) (WorkItem π)},
      Simulates (sqliteAdapter c) (sqliteBackend c) r r' → Reply.ofItem r.1 = Reply.ofItem r'.1 ∧
        Stands (sqliteAdapter c) (sqliteBackend c) r.2 ((sqliteBackend c).reload r'.2) :=
    fun hs => ⟨by rw [hs.answer], hs.stands⟩
  cases op with
  | enqueue r =>
    obtain ⟨hans, hst⟩ := enqueue_simulates ha hb h r
    have hs : Simulates (sqliteAdapter c) (sqliteBackend c) (s.enqueue (sqliteAdapter c) r)
        ((sqliteBackend c).enqueue q r) :=
      ⟨hans, by rwa [hst.stored.canonical]⟩
    have ht : Simulates (sqliteAdapter c) (sqliteBackend c)
        (transaction commitOnNothing s fun s => s.enqueue (sqliteAdapter c) r)
        ((sqliteBackend c).enqueue q r) := transaction_simulates h hs fun e he _ => by
      rcases Backend.enqueue_cases h.stored r with
        ⟨i, k, -, -, hq, -⟩ | ⟨j, q', hq, -⟩ | ⟨e', hq, -⟩
      · rw [hq] at he
        cases he
      · rw [hq] at he
        cases he
      · rw [hq]
    refine ⟨by simp only [SQLiteWorkQueue.step, Backend.step, ht.answer], ?_⟩
    have hst' := ht.stands
    rw [hst.stored.canonical] at hst'
    exact hst'
  | lease w ttl now kinds => exact item (SQLiteWorkQueue.lease_simulates h w ttl now kinds)
  | heartbeat l w ttl now =>
    refine item (transaction_simulates h (heartbeat_simulates ha hb h l w ttl now) ?_)
    exact fun e he hc => withLeasedItem_error (fun _ _ _ => renew_error) he hc
  | complete l w now =>
    refine item (transaction_simulates h (complete_simulates ha hb h l w now) ?_)
    exact fun e he hc => withLeasedItem_error (by simp [finish]) he hc
  | fail l w reason retry now =>
    refine item (transaction_simulates h (fail_simulates ha hb h l w reason retry now) ?_)
    intro e he hc
    unfold WorkQueue.fail at he ⊢
    split at he
    · rfl
    · exact withLeasedItem_error (by simp [giveBack]) he hc
  | cancel id reason now =>
    refine item (transaction_simulates h (cancel_simulates ha hb h id reason now) ?_)
    intro e he _
    unfold WorkQueue.cancel at he ⊢
    split at he
    · rfl
    split at he
    · rfl
    · unfold cancelItem at he ⊢
      split at he <;> cases he
  | get id => exact item (get_simulates h id)
  | expire now =>
    have hs := (expire_simulates ha hb h now).1
    have ht : Simulates (sqliteAdapter c) (sqliteBackend c)
        (transaction commitOnNothing s fun s => s.expire (sqliteAdapter c) now) _ :=
      transaction_simulates h hs (by simp)
    exact ⟨by simp only [SQLiteWorkQueue.step, ht.answer]; rfl, ht.stands⟩
  | prune before =>
    have hs := pruneTerminal_simulates ha hb h before
    have ht : Simulates (sqliteAdapter c) (sqliteBackend c)
        (transaction commitOnNothing s fun s => s.pruneTerminal (sqliteAdapter c) before) _ :=
      transaction_simulates h hs (by simp)
    exact ⟨by simp only [SQLiteWorkQueue.step, ht.answer]; rfl, ht.stands⟩
  | list status =>
    have hs := list_simulates h status
    exact ⟨by simp only [SQLiteWorkQueue.step, hs.answer]; rfl, hs.stands⟩
  | reopen =>
    have hs := reopen_stands hb h
    exact ⟨by simp only [SQLiteWorkQueue.step, hs.1]; rfl, hs.2⟩

/-- **The SQLite queue is the stored queue of its backend.** -/
theorem sqliteQueue_refines (ops : List (QueueOp π)) :
    (sqliteQueue c).history ops = (sqliteBackend c).queue.history ops ∧
      Stands (sqliteAdapter c) (sqliteBackend c) ((sqliteQueue c).state ops)
        ((sqliteBackend c).queue.state ops) :=
  (sqliteQueue c).simulate (sqliteBackend c).queue _
    ⟨(Backend.queue_effectful (sqliteBackend_lawful c)).init, rfl, rfl⟩
    (fun _ _ op h => sqliteQueue_step c h op) ops

/-- The queue's states, as the next call will load them, are those of its backend. -/
theorem sqliteQueue_trace (ops : List (QueueOp π)) :
    currentTrace (sqliteAdapter c) ((sqliteQueue c).trace ops)
      = (sqliteBackend c).queue.trace ops :=
  (sqliteQueue c).simulate_trace (sqliteBackend c).queue _ _ (fun _ _ h => h.current)
    ⟨(Backend.queue_effectful (sqliteBackend_lawful c)).init, rfl, rfl⟩
    (fun _ _ op h => sqliteQueue_step c h op) ops

end UniversalAgent.Distributed
