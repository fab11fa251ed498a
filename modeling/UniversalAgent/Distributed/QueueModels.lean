import UniversalAgent.Foundation.Sorting
import UniversalAgent.Foundation.Table
import UniversalAgent.Foundation.Text

/-!
# Distributed — QueueModels

The records of the work queue (`distributed/queue_models.py`): leases, work items, the
errors the queue raises. A `WorkItem` carries its `__post_init__` check as a field, so an
item that the source could not have constructed cannot be built here either; the code
paths that rebuild an item through `replace` go through `WorkItem.make`, which runs the
check.

Timestamps are instants in microseconds. The payload is a parameter: the queue never looks
into it.
-/

namespace UniversalAgent.Distributed

open UniversalAgent.Foundation

abbrev Time := Int

inductive WorkItemStatus where
  | queued
  | leased
  | completed
  | failed
  | cancelled
deriving DecidableEq, Repr

def WorkItemStatus.value : WorkItemStatus → String
  | .queued => "queued"
  | .leased => "leased"
  | .completed => "completed"
  | .failed => "failed"
  | .cancelled => "cancelled"

/-- `WorkItemStatus(text)`. -/
def WorkItemStatus.ofValue? : String → Option WorkItemStatus
  | "queued" => some .queued
  | "leased" => some .leased
  | "completed" => some .completed
  | "failed" => some .failed
  | "cancelled" => some .cancelled
  | _ => none

@[simp] theorem WorkItemStatus.ofValue?_value (s : WorkItemStatus) : ofValue? s.value = some s := by
  cases s <;> rfl

/-- What queue calls raise. The last two are raised by the durable queues only, when an
item cannot be written. -/
inductive QueueError where
  | noWorkAvailable (message : String)
  | workItemNotFound (message : String)
  | leaseLost (message : String)
  | valueError (message : String)
  | jsonCodecError
  | overflowError
deriving DecidableEq, Repr

/-- `parse_non_empty_string(value, field)`. -/
def parseNonEmptyString (value field : String) : Except QueueError Unit :=
  if Text.isBlank value then .error (.valueError (field ++ " must not be empty")) else .ok ()

structure WorkerLease where
  leaseId : String
  workerId : String
  leasedAt : Time
  leaseExpiresAt : Time
  heartbeatAt : Time
  fencingToken : Nat
deriving DecidableEq, Repr

structure WorkItemFields (π : Type) where
  workItemId : String
  kind : String
  payload : π
  sessionId : Option String
  taskId : Option String
  actionId : Option String
  priority : Int
  maxAttempts : Int
  attempts : Int
  status : WorkItemStatus
  createdAt : Time
  availableAt : Time
  lease : Option WorkerLease
  idempotencyKey : Option String
  completedAt : Option Time
  failedAt : Option Time
  cancelledAt : Option Time
  lastError : Option String
deriving DecidableEq

def WorkItemFields.postInit {π : Type} (f : WorkItemFields π) : Except QueueError Unit := do
  parseNonEmptyString f.workItemId "work_item_id"
  parseNonEmptyString f.kind "work item kind"
  if f.maxAttempts ≤ 0 then throw (.valueError "max_attempts must be positive")
  if f.attempts < 0 then throw (.valueError "attempts must be non-negative")
  if f.maxAttempts < f.attempts then throw (.valueError "attempts must not exceed max_attempts")
  if f.status = .leased ∧ f.lease = none then
    throw (.valueError "leased work items require a lease")
  if f.status ≠ .leased ∧ f.lease ≠ none then
    throw (.valueError "only leased work items may carry a lease")

/-- What `__post_init__` checks, as a statement. -/
structure WorkItemFields.WellFormed {π : Type} (f : WorkItemFields π) : Prop where
  workItemId : Text.isBlank f.workItemId = false
  kind : Text.isBlank f.kind = false
  maxAttempts : 0 < f.maxAttempts
  attempts_nonneg : 0 ≤ f.attempts
  attempts_le : f.attempts ≤ f.maxAttempts
  lease_of_leased : f.status = .leased → f.lease ≠ none
  leased_of_lease : f.lease ≠ none → f.status = .leased

theorem parseNonEmptyString_eq_ok {value field : String} :
    parseNonEmptyString value field = .ok () ↔ Text.isBlank value = false := by
  unfold parseNonEmptyString
  cases Text.isBlank value <;> simp

theorem WorkItemFields.postInit_eq_ok {π : Type} {f : WorkItemFields π} :
    f.postInit = .ok () ↔ f.WellFormed := by
  constructor
  · intro h
    have hid : Text.isBlank f.workItemId = false := by
      cases hb : Text.isBlank f.workItemId with
      | false => rfl
      | true => simp [postInit, parseNonEmptyString, hb, bind, Except.bind] at h
    have hkind : Text.isBlank f.kind = false := by
      cases hb : Text.isBlank f.kind with
      | false => rfl
      | true => simp [postInit, parseNonEmptyString, hid, hb, bind, Except.bind] at h
    simp only [postInit, parseNonEmptyString, hid, hkind, Bool.false_eq_true, if_false, bind,
      Except.bind, throw, throwThe, MonadExceptOf.throw, pure, Except.pure] at h
    split at h
    · cases h
    rename_i hmax
    split at h
    · cases h
    rename_i hnn
    split at h
    · cases h
    rename_i hle
    split at h
    · cases h
    rename_i hl
    split at h
    · cases h
    rename_i hs
    exact ⟨hid, hkind, by omega, by omega, by omega, fun h1 h2 => hl ⟨h1, h2⟩,
      fun h1 => by_contra fun h2 => hs ⟨h2, h1⟩⟩
  · rintro ⟨hid, hkind, hmax, hnn, hle, hl, hs⟩
    have h1 : ¬ f.maxAttempts ≤ 0 := by omega
    have h2 : ¬ f.attempts < 0 := by omega
    have h3 : ¬ f.maxAttempts < f.attempts := by omega
    have h4 : ¬ (f.status = .leased ∧ f.lease = none) := fun h => hl h.1 h.2
    have h5 : ¬ (f.status ≠ .leased ∧ f.lease ≠ none) := fun h => h.1 (hs h.2)
    simp [postInit, parseNonEmptyString, hid, hkind, h1, h2, h3, h4, h5, bind, Except.bind, pure,
      Except.pure]

/-- A work item: fields that passed `__post_init__`. -/
structure WorkItem (π : Type) extends WorkItemFields π where
  wellFormed : toWorkItemFields.WellFormed

instance {π : Type} [DecidableEq π] : DecidableEq (WorkItem π) := fun a b =>
  decidable_of_iff (a.toWorkItemFields = b.toWorkItemFields)
    ⟨fun h => by cases a; cases b; cases h; rfl, fun h => by rw [h]⟩

namespace WorkItem

variable {π : Type}

theorem ext_fields {a b : WorkItem π} (h : a.toWorkItemFields = b.toWorkItemFields) : a = b := by
  cases a; cases b; cases h; rfl

/-- `WorkItem(...)` and `replace(item, ...)`: build an item, or raise what `__post_init__`
raises. -/
def make (f : WorkItemFields π) : Except QueueError (WorkItem π) :=
  match h : f.postInit with
  | .ok () => .ok ⟨f, WorkItemFields.postInit_eq_ok.mp h⟩
  | .error e => .error e

theorem make_wellFormed {f : WorkItemFields π} (h : f.WellFormed) : make f = .ok ⟨f, h⟩ := by
  have hp := WorkItemFields.postInit_eq_ok.mpr h
  unfold make
  split
  · rfl
  · rename_i e he; rw [hp] at he; cases he

theorem make_eq_ok {f : WorkItemFields π} {i : WorkItem π} :
    make f = .ok i ↔ i.toWorkItemFields = f := by
  constructor
  · intro h
    unfold make at h
    split at h
    · cases h; rfl
    · cases h
  · rintro rfl
    exact make_wellFormed i.wellFormed

/-- An item's status is LEASED exactly when it carries a lease. -/
theorem leased_iff (i : WorkItem π) : i.status = .leased ↔ ∃ l, i.lease = some l := by
  rw [← Option.ne_none_iff_exists']
  exact ⟨i.wellFormed.lease_of_leased, i.wellFormed.leased_of_lease⟩

/-- The shape of every `replace` that ends a lease: the attempts stay, the lease goes and
the status is not LEASED. `__post_init__` accepts such fields whatever the rest of the
replacement does. -/
structure EndsLease (i : WorkItem π) (f : WorkItemFields π) : Prop where
  workItemId : f.workItemId = i.workItemId
  kind : f.kind = i.kind
  maxAttempts : f.maxAttempts = i.maxAttempts
  attempts : f.attempts = i.attempts
  status : f.status ≠ .leased
  lease : f.lease = none

/-- `replace(item, ...)` where the replacement ends the lease. -/
def replaceUnleased (i : WorkItem π) (f : WorkItemFields π) (h : i.EndsLease f) : WorkItem π where
  toWorkItemFields := f
  wellFormed :=
    { workItemId := by rw [h.workItemId]; exact i.wellFormed.workItemId
      kind := by rw [h.kind]; exact i.wellFormed.kind
      maxAttempts := by rw [h.maxAttempts]; exact i.wellFormed.maxAttempts
      attempts_nonneg := by rw [h.attempts]; exact i.wellFormed.attempts_nonneg
      attempts_le := by rw [h.attempts, h.maxAttempts]; exact i.wellFormed.attempts_le
      lease_of_leased := fun hs => absurd hs h.status
      leased_of_lease := fun hl => absurd h.lease hl }

def isTerminal (i : WorkItem π) : Bool :=
  i.status = .completed ∨ i.status = .failed ∨ i.status = .cancelled

def terminalAt (i : WorkItem π) : Option Time :=
  match i.status with
  | .completed => i.completedAt
  | .failed => i.failedAt
  | .cancelled => i.cancelledAt
  | _ => none

def isPrunableTerminal (i : WorkItem π) (before : Option Time) : Bool :=
  i.isTerminal &&
    match before with
    | none => true
    | some b => match i.terminalAt with
      | none => false
      | some t => decide (t ≤ b)

/-- `_sort_key`: highest priority first, then longest available, then by id. -/
def sortKey (i : WorkItem π) : Int ×ₗ Int ×ₗ String :=
  toLex (-i.priority, toLex (i.availableAt, i.workItemId))

/-- `sorted(items, key=_sort_key)`. -/
def sorted (items : List (WorkItem π)) : List (WorkItem π) :=
  items.insertionSort (fun a b => a.sortKey ≤ b.sortKey)

theorem not_isTerminal_iff {i : WorkItem π} :
    i.isTerminal = false ↔ i.status = .queued ∨ i.status = .leased := by
  cases h : i.status <;> simp [isTerminal, h]

theorem sortKey_inj {a b : WorkItem π} (h : a.sortKey = b.sortKey) : a.workItemId = b.workItemId := by
  simp only [sortKey] at h
  have h1 := congrArg (fun x => (ofLex (ofLex x).2).2) h
  simpa using h1

theorem sorted_perm (items : List (WorkItem π)) : (sorted items).Perm items :=
  List.perm_insertionSort _ _

theorem sorted_pairwise (items : List (WorkItem π)) :
    (sorted items).Pairwise (fun a b => a.sortKey ≤ b.sortKey) := pairwise_sortByKey sortKey items

/-- Sorting forgets the order the items came in, as long as no two share an id. -/
theorem sorted_eq_of_perm {l₁ l₂ : List (WorkItem π)} (hp : l₁.Perm l₂)
    (hid : ∀ a ∈ l₁, ∀ b ∈ l₁, a.workItemId = b.workItemId → a = b) : sorted l₁ = sorted l₂ :=
  sortByKey_congr sortKey hp fun a ha b hb h => hid a ha b hb (sortKey_inj h)

end WorkItem

end UniversalAgent.Distributed
