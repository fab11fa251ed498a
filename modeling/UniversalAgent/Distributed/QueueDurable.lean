import UniversalAgent.Distributed.QueueStored
import UniversalAgent.Distributed.QueueCodec

/-!
# Distributed — QueueDurable

What `FileWorkQueue` and `SQLiteWorkQueue` share. Both are an in-memory queue with storage:
every public method loads the queue from storage, runs the inherited method, and saves what
it left, where the inherited method itself calls the overridden `expire` and `get`. The two
differ in the storage, an `Adapter`, and in what a failed call does with it.

`Stands s q` says that the object `s` stands for the queue `q` of `QueueStored`: its storage
reads back as the items of `q`. The last section shows that the shared methods act on the
object as the calls of a stored queue act on `q`.
-/

namespace UniversalAgent.Distributed

open UniversalAgent.Foundation WorkQueue

variable {δ π : Type}

/-- Storage of type `δ`: `read` is the part of `_load` that decodes it, `write` the part of
`_save` that encodes the listed items. -/
structure Adapter (δ π : Type) where
  empty : δ
  read : δ → Except QueueError (Items π)
  write : List (WorkItem π) → Except QueueError δ

/-- The object: what it inherits from `InMemoryWorkQueue`, and its storage. -/
structure DurableQueue (δ π : Type) where
  queue : WorkQueue π
  data : δ

namespace DurableQueue

variable (a : Adapter δ π)

def load (s : DurableQueue δ π) : Except QueueError (DurableQueue δ π) :=
  match a.read s.data with
  | .error e => .error e
  | .ok items =>
    .ok { s with
      queue := { s.queue with items := items, sequence := maxSequence items.rows } }

def save (s : DurableQueue δ π) : Except QueueError (DurableQueue δ π) :=
  match a.write (s.queue.list none) with
  | .error e => .error e
  | .ok data => .ok { s with data := data }

/-- A body that starts with `self._load()`. -/
def loading {α : Type} (s : DurableQueue δ π)
    (body : DurableQueue δ π → Outcome (DurableQueue δ π) α) : Outcome (DurableQueue δ π) α :=
  match s.load a with
  | .error e => (.error e, s)
  | .ok s => body s

/-- `self._save()` before the result is returned. -/
def saving {α : Type} : Outcome (DurableQueue δ π) α → Outcome (DurableQueue δ π) α
  | (.error e, s) => (.error e, s)
  | (.ok x, s) =>
    match s.save a with
    | .error e => (.error e, s)
    | .ok s => (.ok x, s)

def inherited {α : Type} (s : DurableQueue δ π) (f : WorkQueue π → Outcome (WorkQueue π) α) :
    Outcome (DurableQueue δ π) α :=
  ((f s.queue).1, { s with queue := (f s.queue).2 })

/-! ## The shared methods -/

def enqueue (s : DurableQueue δ π) (r : EnqueueRequest π) :
    Outcome (DurableQueue δ π) (WorkItem π) :=
  s.loading a fun s => saving a (s.inherited fun q => q.enqueue r)

/-- `expire`: the queue is saved only when something expired. -/
def expire (s : DurableQueue δ π) (now : Time) : Outcome (DurableQueue δ π) (List (WorkItem π)) :=
  s.loading a fun s =>
    let result := s.inherited fun q => (.ok (q.expire now).1, (q.expire now).2)
    if (s.queue.expire now).1 = [] then result else saving a result

def get (s : DurableQueue δ π) (workItemId : String) : Outcome (DurableQueue δ π) (WorkItem π) :=
  s.loading a fun s => (s.queue.get workItemId, s)

def list (s : DurableQueue δ π) (status : Option WorkItemStatus) :
    Outcome (DurableQueue δ π) (List (WorkItem π)) :=
  s.loading a fun s => (.ok (s.queue.list status), s)

/-- `prune_terminal`: saved only when something was pruned. -/
def pruneTerminal (s : DurableQueue δ π) (before : Option Time) :
    Outcome (DurableQueue δ π) (List (WorkItem π)) :=
  s.loading a fun s =>
    let result := s.inherited fun q => (.ok (q.pruneTerminal before).1, (q.pruneTerminal before).2)
    if (s.queue.pruneTerminal before).1 = [] then result else saving a result

/-- `lease`, where it is inherited. -/
def lease (s : DurableQueue δ π) (workerId : String) (ttlSeconds : ℚ) (now : Time)
    (acceptedKinds : Option (List String)) : Outcome (DurableQueue δ π) (WorkItem π) :=
  s.loading a fun s => saving a <|
    match normalizeAcceptedKinds acceptedKinds with
    | .error e => (.error e, s)
    | .ok kindFilter =>
      match s.expire a now with
      | (.error e, s) => (.error e, s)
      | (.ok _, s) => s.inherited fun q => q.grantNext workerId ttlSeconds now kindFilter

/-- `_leased_item`, and `body` on what it returns. -/
def withLeasedItem (s : DurableQueue δ π) (leaseId workerId : String) (now : Time)
    (body : WorkQueue π → WorkItem π → WorkerLease → Outcome (WorkQueue π) (WorkItem π)) :
    Outcome (DurableQueue δ π) (WorkItem π) :=
  match s.queue.checkLease leaseId workerId now with
  | .found i l => s.inherited fun q => body q i l
  | .expired =>
    match s.expire a now with
    | (.error e, s) => (.error e, s)
    | (.ok _, s) => (.error (LeaseCheck.error (π := π) leaseId .expired), s)
  | c => (.error (c.error leaseId), s)

def heartbeat (s : DurableQueue δ π) (leaseId workerId : String) (ttlSeconds : ℚ) (now : Time) :
    Outcome (DurableQueue δ π) (WorkItem π) :=
  s.loading a fun s => saving a <|
    s.withLeasedItem a leaseId workerId now fun q => q.renew ttlSeconds now

def complete (s : DurableQueue δ π) (leaseId workerId : String) (now : Time) :
    Outcome (DurableQueue δ π) (WorkItem π) :=
  s.loading a fun s => saving a <|
    s.withLeasedItem a leaseId workerId now fun q i _ => q.finish now i

def fail (s : DurableQueue δ π) (leaseId workerId reason : String) (retry : Bool) (now : Time) :
    Outcome (DurableQueue δ π) (WorkItem π) :=
  s.loading a fun s => saving a <|
    match parseNonEmptyString reason "failure reason" with
    | .error e => (.error e, s)
    | .ok () => s.withLeasedItem a leaseId workerId now fun q i _ => q.giveBack reason retry now i

def cancel (s : DurableQueue δ π) (workItemId reason : String) (now : Time) :
    Outcome (DurableQueue δ π) (WorkItem π) :=
  s.loading a fun s => saving a <|
    match parseNonEmptyString reason "cancellation reason" with
    | .error e => (.error e, s)
    | .ok () =>
      match s.get a workItemId with
      | (.error e, s) => (.error e, s)
      | (.ok i, s) => s.inherited fun q => q.cancelItem reason now i

/-- Closing the queue and opening it again on its storage: `__init__` loads. -/
def reopen (s : DurableQueue δ π) : Outcome (DurableQueue δ π) Unit :=
  match load a { s with queue := WorkQueue.new } with
  | .error e => (.error e, s)
  | .ok s => (.ok (), s)

def current (s : DurableQueue δ π) : WorkQueue π :=
  match s.load a with
  | .error _ => s.queue
  | .ok s => s.queue

end DurableQueue

/-- A trace of a durable queue, with its states as the next call would load them. -/
def currentTrace (a : Adapter δ π) (trace : List (DurableQueue δ π × QueueOp π × Reply π)) :
    List (WorkQueue π × QueueOp π × Reply π) :=
  trace.map fun x => (x.1.current a, x.2)

/-! ## What an adapter has to meet -/

/-- Writing items that can be written and reading them back gives the items in the order of
the rows; a table in which one item cannot be written is refused for that item. -/
structure Adapter.Lawful (a : Adapter δ π) (b : Backend π) : Prop where
  empty : a.read a.empty = .ok Table.empty
  write_ok : ∀ t : Items π, (∀ i ∈ t, b.refusal i = none) →
    ∃ d, a.write (WorkItem.sorted t.rows) = .ok d ∧ a.read d = .ok (t.arrange b.rowOrder)
  write_error : ∀ (t : Items π) (j : WorkItem π) (e : QueueError), j ∈ t → b.refusal j = some e →
    (∀ i ∈ t, i ≠ j → b.refusal i = none) → a.write (WorkItem.sorted t.rows) = .error e

namespace DurableQueue

variable {a : Adapter δ π} {b : Backend π}

structure Stands (a : Adapter δ π) (b : Backend π) (s : DurableQueue δ π) (q : WorkQueue π) :
    Prop where
  stored : StoredInv b q
  read : a.read s.data = .ok q.items
  fencing : s.queue.fencingSequences = q.fencingSequences

variable {q : WorkQueue π} {s : DurableQueue δ π}

theorem canonical_sequence (h : b.reload q = q) : q.sequence = maxSequence q.items.rows := by
  have hs : (b.reload q).sequence = maxSequence (b.reload q).items.rows := rfl
  rwa [h] at hs

theorem Stands.load (h : Stands a b s q) : s.load a = .ok { s with queue := q } := by
  unfold DurableQueue.load
  rw [h.read]
  simp only [h.fencing, ← canonical_sequence h.stored.canonical]

theorem Stands.current (h : Stands a b s q) : s.current a = q := by
  unfold DurableQueue.current
  rw [h.load]

theorem Stands.loading {α : Type} (h : Stands a b s q)
    (body : DurableQueue δ π → Outcome (DurableQueue δ π) α) :
    s.loading a body = body { s with queue := q } := by
  unfold DurableQueue.loading
  rw [h.load]

theorem Stands.loaded (h : Stands a b s q) :
    Stands a b { s with queue := q } q := ⟨h.stored, h.read, rfl⟩

/-- Saving a writable queue makes the object stand for its reload. -/
theorem save_ok (ha : a.Lawful b) (hb : b.Lawful)
    (h : Writable b s.queue) :
    ∃ s', s.save a = .ok s' ∧ s'.queue = s.queue ∧ Stands a b s' (b.reload s.queue) := by
  obtain ⟨d, hw, hr⟩ := ha.write_ok s.queue.items h.storable
  refine ⟨{ s with data := d }, ?_, rfl, h.reload hb, hr, rfl⟩
  unfold save
  rw [show s.queue.list none = WorkItem.sorted s.queue.items.rows from rfl, hw]

/-- Saving is refused for the one item that cannot be written. -/
theorem save_error (ha : a.Lawful b) {j : WorkItem π} {e : QueueError}
    (hj : j ∈ s.queue.items) (hr : b.refusal j = some e)
    (hrest : ∀ i ∈ s.queue.items, i ≠ j → b.refusal i = none) : s.save a = .error e := by
  unfold save
  rw [show s.queue.list none = WorkItem.sorted s.queue.items.rows from rfl,
    ha.write_error s.queue.items j e hj hr hrest]

/-- What a call on an object does, beside the call on the queue it stands for: the same
answer, and the object stands for what the call leaves. -/
structure Simulates {α : Type} (a : Adapter δ π) (b : Backend π) (r : Outcome (DurableQueue δ π) α)
    (r' : Outcome (WorkQueue π) α) : Prop where
  answer : r.1 = r'.1
  stands : Stands a b r.2 (b.reload r'.2)

/-- The object after a successful call that has not been saved yet, or after a failed one. -/
structure Pending {α : Type} (a : Adapter δ π) (b : Backend π) (r : Outcome (DurableQueue δ π) α)
    (r' : Outcome (WorkQueue π) α) : Prop where
  answer : r.1 = r'.1
  queue : ∀ x, r.1 = .ok x → r.2.queue = r'.2 ∧ Writable b r'.2
  stands : ∀ e, r.1 = .error e → Stands a b r.2 (b.reload r'.2)

theorem Pending.saving {α : Type} (ha : a.Lawful b) (hb : b.Lawful)
    {r : Outcome (DurableQueue δ π) α} {r' : Outcome (WorkQueue π) α} (h : Pending a b r r') :
    Simulates a b (saving a r) r' := by
  obtain ⟨res, s⟩ := r
  cases res with
  | error e => exact ⟨h.answer, h.stands e rfl⟩
  | ok x =>
    obtain ⟨hq, hw⟩ := h.queue x rfl
    simp only at hq
    obtain ⟨s', hs', -, hst⟩ := save_ok ha hb (s := s) (hq ▸ hw)
    simp only [DurableQueue.saving, hs']
    exact ⟨h.answer, hq ▸ hst⟩

/-! ## The shared methods simulate -/

theorem expire_simulates (ha : a.Lawful b) (hb : b.Lawful)
    (h : Stands a b s q) (now : Time) :
    Simulates a b (s.expire a now) (.ok (q.expire now).1, (q.expire now).2) ∧
      (s.expire a now).2.queue = (q.expire now).2 := by
  unfold expire
  rw [h.loading]
  simp only [inherited]
  by_cases hn : (q.expire now).1 = []
  · rw [if_pos hn]
    have hq : (q.expire now).2 = q := expire_of_nil hn
    refine ⟨⟨rfl, ?_⟩, rfl⟩
    simp only [hq]
    rw [h.stored.canonical]
    exact h.loaded
  · rw [if_neg hn]
    have hw : Writable b (q.expire now).2 :=
      h.stored.toWritable.edits hb (edits_expire q now) (expire_fencingSequences q now)
    obtain ⟨s', hs', hq', hst⟩ := save_ok ha hb (s := { s with queue := (q.expire now).2 }) hw
    simp only [saving, hs']
    exact ⟨⟨rfl, hst⟩, hq'⟩

theorem get_simulates (h : Stands a b s q) (id : String) : Simulates a b (s.get a id) (q.get id, q) := by
  unfold get
  rw [h.loading]
  refine ⟨rfl, ?_⟩
  rw [h.stored.canonical]
  exact h.loaded

theorem list_simulates (h : Stands a b s q)
    (status : Option WorkItemStatus) :
    Simulates a b (s.list a status) (.ok (q.list status), q) := by
  unfold list
  rw [h.loading]
  refine ⟨rfl, ?_⟩
  rw [h.stored.canonical]
  exact h.loaded

theorem pruneTerminal_simulates (ha : a.Lawful b) (hb : b.Lawful)
    (h : Stands a b s q) (before : Option Time) :
    Simulates a b (s.pruneTerminal a before)
      (.ok (q.pruneTerminal before).1, (q.pruneTerminal before).2) := by
  unfold pruneTerminal
  rw [h.loading]
  simp only [inherited]
  by_cases hn : (q.pruneTerminal before).1 = []
  · rw [if_pos hn]
    have hq : (q.pruneTerminal before).2 = q := by
      have : (q.pruneTerminal before).2 = (q.pruneTerminal before).1.foldl drop q := rfl
      rw [this, hn]
      rfl
    refine ⟨rfl, ?_⟩
    simp only [hq]
    rw [h.stored.canonical]
    exact h.loaded
  · rw [if_neg hn]
    exact Pending.saving ha hb
      ⟨rfl, fun _ _ => ⟨rfl, h.stored.toWritable.prune before⟩, by simp⟩

/-- The lease check and what follows it, on a loaded object. -/
theorem withLeasedItem_pending (ha : a.Lawful b) (hb : b.Lawful)
    (h : Stands a b s q) {leaseId w : String} {now : Time}
    {body : WorkQueue π → WorkItem π → WorkerLease → Outcome (WorkQueue π) (WorkItem π)}
    (hedits : ∀ i l, i ∈ q.items → i.lease = some l → Edits q (body q i l).2)
    (hfencing : ∀ i l, (body q i l).2.fencingSequences = q.fencingSequences)
    (herror : ∀ i l e, (body q i l).1 = .error e → (body q i l).2 = q) :
    Pending a b ({ s with queue := q }.withLeasedItem a leaseId w now body)
      (q.withLeasedItem leaseId w now (body q)) := by
  unfold withLeasedItem WorkQueue.withLeasedItem
  simp only
  cases hc : q.checkLease leaseId w now with
  | found i l =>
    obtain ⟨hi, hl, -⟩ := checkLease_found hc
    refine ⟨rfl, fun _ _ => ⟨rfl, ?_⟩, fun e he => ?_⟩
    · exact h.stored.toWritable.edits hb (hedits i l hi hl) (hfencing i l)
    · simp only [inherited] at he ⊢
      rw [herror i l e he, h.stored.canonical]
      exact h.loaded
  | expired =>
    obtain ⟨⟨hans, hst⟩, -⟩ := expire_simulates ha hb h.loaded now
    simp only
    rcases hx : DurableQueue.expire a { s with queue := q } now with ⟨res, s'⟩
    rw [hx] at hans hst
    simp only at hans hst
    subst hans
    exact ⟨rfl, by simp, fun _ _ => hst⟩
  | missing =>
    refine ⟨rfl, by simp, fun _ _ => ?_⟩
    simp only
    rw [h.stored.canonical]
    exact h.loaded
  | otherWorker =>
    refine ⟨rfl, by simp, fun _ _ => ?_⟩
    simp only
    rw [h.stored.canonical]
    exact h.loaded

theorem heartbeat_simulates (ha : a.Lawful b) (hb : b.Lawful)
    (h : Stands a b s q) (leaseId w : String) (ttl : ℚ) (now : Time) :
    Simulates a b (s.heartbeat a leaseId w ttl now) (q.heartbeat leaseId w ttl now) := by
  unfold heartbeat
  rw [h.loading]
  refine Pending.saving ha hb (withLeasedItem_pending ha hb h (fun i l hi hl => ?_)
    (renew_fencing q ttl now) (fun i l e he => ?_))
  · exact edits_renew hi hl
  · exact renew_error he

theorem complete_simulates (ha : a.Lawful b) (hb : b.Lawful)
    (h : Stands a b s q) (leaseId w : String) (now : Time) :
    Simulates a b (s.complete a leaseId w now) (q.complete leaseId w now) := by
  unfold complete
  rw [h.loading]
  refine Pending.saving ha hb (withLeasedItem_pending ha hb h (fun i l hi hl => ?_)
    (fun _ _ => rfl) (by simp [finish]))
  exact .single (.replace hi (.complete (i.leased_iff.mpr ⟨l, hl⟩) now))

theorem fail_simulates (ha : a.Lawful b) (hb : b.Lawful)
    (h : Stands a b s q) (leaseId w reason : String) (retry : Bool)
    (now : Time) :
    Simulates a b (s.fail a leaseId w reason retry now) (q.fail leaseId w reason retry now) := by
  unfold fail
  rw [h.loading]
  refine Pending.saving ha hb ?_
  unfold WorkQueue.fail
  cases parseNonEmptyString reason "failure reason" with
  | error e =>
    refine ⟨rfl, by simp, fun _ _ => ?_⟩
    simp only
    rw [h.stored.canonical]
    exact h.loaded
  | ok _ =>
    refine withLeasedItem_pending ha hb h (fun i l hi hl => ?_) (fun _ _ => rfl)
      (by simp [giveBack])
    exact .single (.replace hi (failure_move (i.leased_iff.mpr ⟨l, hl⟩) reason retry now))

theorem cancel_simulates (ha : a.Lawful b) (hb : b.Lawful)
    (h : Stands a b s q) (id reason : String) (now : Time) :
    Simulates a b (s.cancel a id reason now) (q.cancel id reason now) := by
  unfold cancel
  rw [h.loading]
  refine Pending.saving ha hb ?_
  have hed : Edits q (q.cancel id reason now).2 := edits_cancel q id reason now
  have hf := step_fencing q (.cancel id reason now) (by simp) (by simp)
  have hkeep : Stands a b { s with queue := q } (b.reload q) := by
    rw [h.stored.canonical]
    exact h.loaded
  unfold get
  rw [h.loaded.loading]
  simp only [step, WorkQueue.cancel] at hed hf ⊢
  cases hp : parseNonEmptyString reason "cancellation reason" with
  | error e => exact ⟨rfl, by simp, fun _ _ => hkeep⟩
  | ok _ =>
    simp only [hp] at hed hf
    cases hg : q.get id with
    | error e => exact ⟨rfl, by simp, fun _ _ => hkeep⟩
    | ok i =>
      simp only [hg] at hed hf
      refine ⟨rfl, fun _ _ => ⟨rfl, h.stored.toWritable.edits hb hed hf⟩, fun e he => ?_⟩
      simp only [inherited, cancelItem] at he
      split at he <;> cases he

theorem enqueue_simulates (ha : a.Lawful b) (hb : b.Lawful)
    (h : Stands a b s q) (r : EnqueueRequest π) :
    (s.enqueue a r).1 = (b.enqueue q r).1 ∧ Stands a b (s.enqueue a r).2 (b.enqueue q r).2 := by
  have hf : (q.enqueue r).2.fencingSequences = q.fencingSequences :=
    step_fencing q (.enqueue r) (by simp) (by simp)
  unfold enqueue
  rw [h.loading]
  simp only [inherited]
  rcases Backend.enqueue_cases h.stored r with
    ⟨i, k, -, -, he, hq⟩ | ⟨j, q', he, hc, hr, hq⟩ | ⟨e, he, hor⟩
  · obtain ⟨s', hs', -, hst⟩ := save_ok ha hb (s := { s with queue := q }) h.stored.toWritable
    rw [hq, he]
    simp only [saving, hs']
    rw [h.stored.canonical] at hst
    exact ⟨trivial, hst⟩
  · rw [hq] at hf
    have hw : Writable b q' := h.stored.toWritable.create hc hr hf
    obtain ⟨s', hs', -, hst⟩ := save_ok ha hb (s := { s with queue := q' }) hw
    rw [hq, he]
    simp only [saving, hs']
    exact ⟨trivial, hst⟩
  · -- the call raises: what it changed in the object is gone with the next load
    rcases hq : q.enqueue r with ⟨res, q'⟩
    rw [hq] at hf hor
    rw [he]
    have hkeep : Stands a b { s with queue := q' } q := ⟨h.stored, h.read, hf⟩
    rcases hor with hres | ⟨j, hres, hc, hr⟩
    · simp only at hres
      subst hres
      exact ⟨rfl, hkeep⟩
    · simp only at hres
      subst hres
      have hsave : { s with queue := q' }.save a = .error e :=
        save_error ha ((hc.items j).mpr (.inl rfl)) hr fun i hi hne =>
          h.stored.storable i (((hc.items i).mp hi).resolve_left hne)
      simp only [saving, hsave]
      exact ⟨trivial, hkeep⟩

/-- Opening again keeps what is in storage and forgets the fencing counters. -/
theorem reopen_stands (hb : b.Lawful)
    (h : Stands a b s q) :
    (s.reopen a).1 = .ok () ∧
      Stands a b (s.reopen a).2 { q with fencingSequences := Table.empty } := by
  have hst : StoredInv b { q with fencingSequences := Table.empty } :=
    Backend.inv_step hb h.stored .reopen
  have hnew : Stands a b { s with queue := WorkQueue.new }
      { q with fencingSequences := Table.empty } := ⟨hst, h.read, rfl⟩
  unfold reopen
  rw [hnew.load]
  exact ⟨rfl, hnew.loaded⟩

end DurableQueue

end UniversalAgent.Distributed
