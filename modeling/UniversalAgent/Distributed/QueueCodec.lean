import UniversalAgent.Distributed.QueueMemory

/-!
# Distributed — QueueCodec

How a work item is written to and read from storage (`distributed/queue_codec.py`). The
records below are the JSON objects of the source; decoding makes the checks in the order the
source makes them.

`StorageCodec` stands for the text formats that come from outside: the JSON codec of the
payload and the ISO format of timestamps. What is relied on is that a text which was written
reads back as the value it was written from. JSON integers are those the codec accepts, 64
bits, signed or not.
-/

namespace UniversalAgent.Distributed

open UniversalAgent.Foundation

/-- The text formats of stored values. `dumps` has no text for a value that is not JSON. -/
structure StorageCodec (π : Type) where
  dumps : π → Option String
  loads : String → Option π
  isoformat : Time → String
  parseDatetime : String → Option Time
  loads_dumps : ∀ p text, dumps p = some text → loads text = some p
  parse_isoformat : ∀ t, parseDatetime (isoformat t) = some t

structure WorkerLeasePayload where
  leaseId : String
  workerId : String
  leasedAt : String
  leaseExpiresAt : String
  heartbeatAt : String
  fencingToken : Int
deriving DecidableEq, Inhabited

structure WorkItemPayload where
  workItemId : String
  kind : String
  payload : String
  sessionId : Option String
  taskId : Option String
  actionId : Option String
  priority : Int
  maxAttempts : Int
  attempts : Int
  status : String
  createdAt : String
  availableAt : String
  lease : Option WorkerLeasePayload
  idempotencyKey : Option String
  completedAt : Option String
  failedAt : Option String
  cancelledAt : Option String
  lastError : Option String
deriving DecidableEq, Inhabited

def isJsonInt (n : Int) : Bool := decide (-2 ^ 63 ≤ n ∧ n < 2 ^ 64)

variable {π : Type} (c : StorageCodec π)

def encodeWorkerLease (l : WorkerLease) : WorkerLeasePayload where
  leaseId := l.leaseId
  workerId := l.workerId
  leasedAt := c.isoformat l.leasedAt
  leaseExpiresAt := c.isoformat l.leaseExpiresAt
  heartbeatAt := c.isoformat l.heartbeatAt
  fencingToken := l.fencingToken

/-- `_encode_work_item`, with the payload's text. -/
def encodeFields (i : WorkItem π) (payload : String) : WorkItemPayload where
  workItemId := i.workItemId
  kind := i.kind
  payload := payload
  sessionId := i.sessionId
  taskId := i.taskId
  actionId := i.actionId
  priority := i.priority
  maxAttempts := i.maxAttempts
  attempts := i.attempts
  status := i.status.value
  createdAt := c.isoformat i.createdAt
  availableAt := c.isoformat i.availableAt
  lease := i.lease.map (encodeWorkerLease c)
  idempotencyKey := i.idempotencyKey
  completedAt := i.completedAt.map c.isoformat
  failedAt := i.failedAt.map c.isoformat
  cancelledAt := i.cancelledAt.map c.isoformat
  lastError := i.lastError

def WorkItemPayload.hasJsonInts (p : WorkItemPayload) : Bool :=
  isJsonInt p.priority && isJsonInt p.maxAttempts && isJsonInt p.attempts &&
    match p.lease with
    | none => true
    | some l => isJsonInt l.fencingToken

/-- `dumps_json(_encode_work_item(item))`. -/
def encodeWorkItem (i : WorkItem π) : Except QueueError WorkItemPayload :=
  match c.dumps i.payload with
  | none => .error .jsonCodecError
  | some text =>
    let p := encodeFields c i text
    if p.hasJsonInts then .ok p else .error .jsonCodecError

def parseDatetimeField (path text : String) : Except QueueError Time :=
  match c.parseDatetime text with
  | some t => .ok t
  | none => .error (.valueError (path ++ " must be an ISO datetime"))

def parseOptionalDatetimeField (path : String) :
    Option String → Except QueueError (Option Time)
  | none => .ok none
  | some text => (parseDatetimeField c path text).map some

def parseLeaseDatetimes : Option WorkerLeasePayload →
    Except QueueError (Option (WorkerLeasePayload × Time × Time × Time))
  | none => .ok none
  | some p => do
      let leasedAt ← parseDatetimeField c "lease.leased_at" p.leasedAt
      let leaseExpiresAt ← parseDatetimeField c "lease.lease_expires_at" p.leaseExpiresAt
      let heartbeatAt ← parseDatetimeField c "lease.heartbeat_at" p.heartbeatAt
      pure (some (p, leasedAt, leaseExpiresAt, heartbeatAt))

/-- `_decode_optional_worker_lease`; `WorkerLease.__post_init__` refuses a negative token. -/
def decodeWorkerLease : Option (WorkerLeasePayload × Time × Time × Time) →
    Except QueueError (Option WorkerLease)
  | none => .ok none
  | some (p, leasedAt, leaseExpiresAt, heartbeatAt) =>
    if p.fencingToken < 0 then .error (.valueError "fencing_token must be non-negative")
    else .ok (some ⟨p.leaseId, p.workerId, leasedAt, leaseExpiresAt, heartbeatAt,
      p.fencingToken.toNat⟩)

/-- `WorkItemStatus(text)`, or its error. -/
def parseStatus (text : String) : Except QueueError WorkItemStatus :=
  match WorkItemStatus.ofValue? text with
  | some s => .ok s
  | none => .error (.valueError ("'" ++ text ++ "' is not a valid WorkItemStatus"))

/-- `_decode_work_item`: the fields are validated first, in their order, then the item is
built. -/
def decodeWorkItem (p : WorkItemPayload) : Except QueueError (WorkItem π) := do
  let payload ← match c.loads p.payload with
    | some v => Except.ok v
    | none => .error .jsonCodecError
  let createdAt ← parseDatetimeField c "created_at" p.createdAt
  let availableAt ← parseDatetimeField c "available_at" p.availableAt
  let leaseTimes ← parseLeaseDatetimes c p.lease
  let completedAt ← parseOptionalDatetimeField c "completed_at" p.completedAt
  let failedAt ← parseOptionalDatetimeField c "failed_at" p.failedAt
  let cancelledAt ← parseOptionalDatetimeField c "cancelled_at" p.cancelledAt
  let status ← parseStatus p.status
  let lease ← decodeWorkerLease leaseTimes
  WorkItem.make
    { workItemId := p.workItemId, kind := p.kind, payload := payload, sessionId := p.sessionId,
      taskId := p.taskId, actionId := p.actionId, priority := p.priority,
      maxAttempts := p.maxAttempts, attempts := p.attempts, status := status,
      createdAt := createdAt, availableAt := availableAt, lease := lease,
      idempotencyKey := p.idempotencyKey, completedAt := completedAt, failedAt := failedAt,
      cancelledAt := cancelledAt, lastError := p.lastError }

/-! ## Round trip -/

theorem parseDatetimeField_isoformat (path : String) (t : Time) :
    parseDatetimeField c path (c.isoformat t) = .ok t := by
  simp only [parseDatetimeField, c.parse_isoformat]

theorem parseOptionalDatetimeField_isoformat (path : String) (t : Option Time) :
    parseOptionalDatetimeField c path (t.map c.isoformat) = .ok t := by
  cases t with
  | none => rfl
  | some t => simp [parseOptionalDatetimeField, parseDatetimeField_isoformat, Except.map]

theorem decodeWorkerLease_encode (l : Option WorkerLease) :
    (parseLeaseDatetimes c (l.map (encodeWorkerLease c)) >>= decodeWorkerLease) = .ok l := by
  cases l with
  | none => rfl
  | some l =>
    simp [parseLeaseDatetimes, encodeWorkerLease, parseDatetimeField_isoformat,
      decodeWorkerLease, bind, Except.bind, pure, Except.pure]

/-- **An item that was written reads back as itself.** -/
theorem decodeWorkItem_encode {i : WorkItem π} {p : WorkItemPayload}
    (h : encodeWorkItem c i = .ok p) : decodeWorkItem c p = .ok i := by
  unfold encodeWorkItem at h
  cases hd : c.dumps i.payload with
  | none => rw [hd] at h; cases h
  | some text =>
    rw [hd] at h
    simp only at h
    split at h
    · cases h
      have hl := decodeWorkerLease_encode c i.lease
      cases ht : parseLeaseDatetimes c (i.lease.map (encodeWorkerLease c)) with
      | error e => rw [ht] at hl; cases hl
      | ok times =>
        rw [ht] at hl
        have hl' : decodeWorkerLease times = .ok i.lease := hl
        simp only [decodeWorkItem, encodeFields, c.loads_dumps _ _ hd,
          parseDatetimeField_isoformat, parseOptionalDatetimeField_isoformat, ht, hl',
          parseStatus, WorkItemStatus.ofValue?_value, bind, Except.bind]
        exact WorkItem.make_wellFormed i.wellFormed
    · cases h

/-! ## Loading a list of records -/

/-- The loop of `_load`: decode the records in order into the dict of items, where `duplicate`
begins the message for a second record of one id. -/
def loadItems (duplicate : String) : List WorkItemPayload → Items π → Except QueueError (Items π)
  | [], items => .ok items
  | p :: ps, items =>
    match decodeWorkItem c p with
    | .error e => .error e
    | .ok i =>
      match items.get? i.workItemId with
      | some _ => .error (.valueError (duplicate ++ i.workItemId))
      | none => loadItems duplicate ps (items.put i)

/-- Records of distinct items load into a table of these items, in their order. -/
theorem loadItems_encode (duplicate : String) {rows : List (WorkItem π)}
    {ps : List WorkItemPayload} (hps : List.Forall₂ (fun i p => encodeWorkItem c i = .ok p) rows ps)
    (items t : Items π) (ht : t.rows = items.rows ++ rows) :
    loadItems c duplicate ps items = .ok t := by
  induction hps generalizing items with
  | nil => rw [loadItems, Table.ext (ht.trans (List.append_nil _))]
  | @cons i p rows ps hi _ ih =>
    have hnd := t.nodup
    rw [ht, List.map_append, List.map_cons, List.nodup_append] at hnd
    have hfree : i.workItemId ∉ items.rows.map fun j => j.workItemId := fun hmem =>
      hnd.2.2 _ hmem _ List.mem_cons_self rfl
    have hnone : items.get? i.workItemId = none :=
      Table.get?_eq_none.mpr fun j hj he => hfree (he ▸ List.mem_map_of_mem hj)
    have hput : (items.put i).rows = items.rows ++ [i] := by
      simp only [Table.put, hfree, dif_neg, not_false_eq_true]
    rw [loadItems, decodeWorkItem_encode c hi]
    simp only [hnone]
    exact ih (items.put i) (by rw [ht, hput, List.append_assoc, List.singleton_append])

/-- The JSON codec accepts an item for its payload and its integers. -/
theorem encodeWorkItem_isOk {i : WorkItem π} :
    (∃ p, encodeWorkItem c i = .ok p) ↔ (∃ text, c.dumps i.payload = some text) ∧
      isJsonInt i.priority = true ∧ isJsonInt i.maxAttempts = true ∧
      isJsonInt i.attempts = true ∧ ∀ l, i.lease = some l → isJsonInt l.fencingToken = true := by
  have hints : ∀ text, (encodeFields c i text).hasJsonInts = true ↔
      isJsonInt i.priority = true ∧ isJsonInt i.maxAttempts = true ∧
        isJsonInt i.attempts = true ∧ ∀ l, i.lease = some l → isJsonInt l.fencingToken = true := by
    intro text
    simp only [WorkItemPayload.hasJsonInts, encodeFields, Bool.and_eq_true, and_assoc]
    cases i.lease with
    | none => simp
    | some l => simp [encodeWorkerLease]
  unfold encodeWorkItem
  cases c.dumps i.payload with
  | none => simp
  | some text =>
    rw [← hints text]
    by_cases h : (encodeFields c i text).hasJsonInts = true <;> simp [h]

/-- What the codec accepts once it accepts again, as long as the attempts and the tokens stay
within their bounds. -/
theorem encodeWorkItem_isOk_of {i j : WorkItem π} (hp : j.payload = i.payload)
    (hpr : j.priority = i.priority) (hm : j.maxAttempts = i.maxAttempts)
    (ht : ∀ l, j.lease = some l → (l.fencingToken : Int) ≤ j.attempts)
    (h : ∃ p, encodeWorkItem c i = .ok p) : ∃ p, encodeWorkItem c j = .ok p := by
  obtain ⟨htext, hpi, hmi, -, -⟩ := (encodeWorkItem_isOk c).mp h
  have hbound := hmi
  rw [← hm] at hbound
  simp only [isJsonInt, decide_eq_true_eq] at hbound
  have h1 := j.wellFormed.attempts_nonneg
  have h2 := j.wellFormed.attempts_le
  refine (encodeWorkItem_isOk c).mpr ⟨hp ▸ htext, hpr ▸ hpi, hm ▸ hmi, ?_, fun l hl => ?_⟩
  · simp only [isJsonInt, decide_eq_true_eq]
    omega
  · have h3 := ht l hl
    simp only [isJsonInt, decide_eq_true_eq]
    omega

theorem encodeWorkItem_error {i : WorkItem π} {e : QueueError} (h : encodeWorkItem c i = .error e) :
    e = .jsonCodecError := by
  unfold encodeWorkItem at h
  split at h
  · cases h; rfl
  · dsimp only at h
    split at h
    · cases h
    · cases h; rfl

/-- Encoding a list of items that can all be encoded. -/
theorem mapM_encode_ok {rows : List (WorkItem π)} (h : ∀ i ∈ rows, ∃ p, encodeWorkItem c i = .ok p) :
    ∃ ps, rows.mapM (encodeWorkItem c) = .ok ps ∧
      List.Forall₂ (fun i p => encodeWorkItem c i = .ok p) rows ps := by
  induction rows with
  | nil => exact ⟨[], rfl, .nil⟩
  | cons i rows ih =>
    obtain ⟨p, hp⟩ := h i List.mem_cons_self
    obtain ⟨ps, hps, hall⟩ := ih fun j hj => h j (List.mem_cons_of_mem _ hj)
    exact ⟨p :: ps, by simp [List.mapM_cons, hp, hps, bind, Except.bind, pure, Except.pure],
      .cons hp hall⟩

/-- Encoding a list with an item that cannot be encoded. -/
theorem mapM_encode_error {rows : List (WorkItem π)} {j : WorkItem π} {e : QueueError}
    (hj : j ∈ rows) (he : encodeWorkItem c j = .error e) :
    rows.mapM (encodeWorkItem c) = .error .jsonCodecError := by
  induction rows with
  | nil => exact absurd hj List.not_mem_nil
  | cons i rows ih =>
    cases hi : encodeWorkItem c i with
    | error e' =>
      simp [List.mapM_cons, hi, encodeWorkItem_error c hi, bind, Except.bind]
    | ok p =>
      have hj' : j ∈ rows := by
        rcases List.mem_cons.mp hj with rfl | hj'
        · rw [hi] at he; cases he
        · exact hj'
      simp [List.mapM_cons, hi, ih hj', bind, Except.bind]

/-! ## A codec -/

def parseInteger (text : String) : Option Int :=
  match text.toList with
  | '-' :: digits => (Text.parseDecimal (String.ofList digits)).map fun n => -(n : Int)
  | _ => (Text.parseDecimal text).map fun n => (n : Int)

theorem parseInteger_toString (t : Int) : parseInteger (toString t) = some t := by
  cases t with
  | ofNat n =>
    have hd : '-' ∉ (toString (Int.ofNat n)).toList := Text.dash_notMem_toString n
    unfold parseInteger
    split
    · rename_i digits h
      rw [h] at hd
      exact absurd List.mem_cons_self hd
    · have h : Text.parseDecimal (toString (Int.ofNat n)) = some n := Text.parseDecimal_toString n
      rw [h]
      rfl
  | negSucc n =>
    have hs : (toString (Int.negSucc n)).toList = '-' :: (toString (n + 1)).toList := by
      change ("-" ++ toString (n + 1)).toList = _
      rw [String.toList_append]
      rfl
    unfold parseInteger
    rw [hs]
    simp only [String.ofList_toList, Text.parseDecimal_toString]
    rfl

/-- A codec for work without payload. The epoch and the instant half a minute after it are in
ISO format, every other instant is its number of microseconds. -/
def epochCodec : StorageCodec Unit where
  dumps _ := some "{}"
  loads text := if text = "{}" then some () else none
  isoformat t :=
    if t = 0 then "1970-01-01T00:00:00+00:00"
    else if t = 30000000 then "1970-01-01T00:00:30+00:00"
    else toString t
  parseDatetime text :=
    if text = "1970-01-01T00:00:00+00:00" then some 0
    else if text = "1970-01-01T00:00:30+00:00" then some 30000000
    else parseInteger text
  loads_dumps := by simp
  parse_isoformat t := by
    have hne : ∀ text, parseInteger text = none → toString t ≠ text := fun text h he => by
      rw [← he, parseInteger_toString] at h
      cases h
    by_cases h0 : t = 0
    · simp [h0]
    · by_cases h30 : t = 30000000
      · subst h30
        simp
      · simp only [h0, h30, if_false, hne _ (by decide : parseInteger "1970-01-01T00:00:00+00:00" = none),
          hne _ (by decide : parseInteger "1970-01-01T00:00:30+00:00" = none), parseInteger_toString]

end UniversalAgent.Distributed
