import UniversalAgent.Distributed.QueueInvariants

/-!
# Distributed — QueueStored

What the durable queues are for, without their storage: a `WorkQueue` that after every call
is what storage gives back. Reloading keeps the items, in an order of the backend's own, and
starts the id counter again from the items there are; the fencing counters live in the
process and are gone when the queue is opened again. An item that cannot be written is
refused, and a refused call leaves the queue as it was.

`FileWorkQueue` and `SQLiteWorkQueue` are shown to be such queues, each with its `Backend`.
-/

namespace UniversalAgent.Distributed

open UniversalAgent.Foundation WorkQueue

variable {π : Type}

/-! ## Reloading -/

/-- `max((_sequence_from_work_item_id(id) for id in loaded), default=0)`. -/
def maxSequence (rows : List (WorkItem π)) : Nat :=
  rows.foldr (fun i n => max (sequenceFromWorkItemId i.workItemId) n) 0

def Items.arrange (t : Items π) (rowOrder : WorkItem π → WorkItem π → Bool) : Items π :=
  ⟨t.rows.insertionSort (fun a b => rowOrder a b),
    ((List.perm_insertionSort _ _).map _).nodup_iff.mpr t.nodup⟩

theorem Items.mem_arrange {t : Items π} {rowOrder : WorkItem π → WorkItem π → Bool}
    {i : WorkItem π} : i ∈ t.arrange rowOrder ↔ i ∈ t := by
  simp only [Table.mem_def, Items.arrange, List.mem_insertionSort]

/-- What sets one durable queue apart from another: the order its rows load in, the items it
cannot write, and its `lease`. -/
structure Backend (π : Type) where
  rowOrder : WorkItem π → WorkItem π → Bool
  refusal : WorkItem π → Option QueueError
  lease : WorkQueue π → String → ℚ → Time → Option (List String) → Outcome (WorkQueue π) (WorkItem π)

namespace Backend

def reload (b : Backend π) (q : WorkQueue π) : WorkQueue π where
  items := q.items.arrange b.rowOrder
  sequence := maxSequence (q.items.arrange b.rowOrder).rows
  fencingSequences := q.fencingSequences

/-- `enqueue`, when the item has to be written. -/
def enqueue (b : Backend π) (q : WorkQueue π) (r : EnqueueRequest π) :
    Outcome (WorkQueue π) (WorkItem π) :=
  match q.enqueue r with
  | (.error e, _) => (.error e, q)
  | (.ok item, q') =>
    match b.refusal item with
    | some e => (.error e, q)
    | none => (.ok item, b.reload q')

def step (b : Backend π) (q : WorkQueue π) : QueueOp π → Reply π × WorkQueue π
  | .enqueue r => (Reply.ofItem (b.enqueue q r).1, (b.enqueue q r).2)
  | .lease w ttl now kinds =>
    (Reply.ofItem (b.lease q w ttl now kinds).1, b.reload (b.lease q w ttl now kinds).2)
  | .reopen => (.done, { q with fencingSequences := Table.empty })
  | op => ((q.step op).1, b.reload (q.step op).2)

def queue (b : Backend π) : Machine (WorkQueue π) (QueueOp π) (Reply π) where
  init := WorkQueue.new
  step := b.step

/-- What a backend has to meet: its row order tells any two items apart, whether an item can
be written depends on what was asked for, and on its token only within its attempts, and
`lease` grants one lease or raises. -/
structure Lawful (b : Backend π) : Prop where
  total : ∀ i j, b.rowOrder i j ∨ b.rowOrder j i
  trans : ∀ i j k, b.rowOrder i j → b.rowOrder j k → b.rowOrder i k
  antisymm : ∀ i j, b.rowOrder i j → b.rowOrder j i → i.workItemId = j.workItemId
  refusal : ∀ i j : WorkItem π, j.payload = i.payload → j.priority = i.priority →
    j.maxAttempts = i.maxAttempts → (∀ l, j.lease = some l → (l.fencingToken : Int) ≤ j.attempts) →
    b.refusal i = none → b.refusal j = none
  lease : ∀ q w ttl now kinds, QueueInv q →
    (∃ s i j l, (b.lease q w ttl now kinds).1 = .ok j ∧ l.workerId = w ∧ Edits q s ∧
        Grant s (b.lease q w ttl now kinds).2 i j l ∧
        l.fencingToken ≤ q.fencingSequences.count i.workItemId + 1 ∧
        ∀ id, (b.lease q w ttl now kinds).2.fencingSequences.count id ≤
          if id = i.workItemId then q.fencingSequences.count id + 1
          else q.fencingSequences.count id) ∨
      ∃ e, (b.lease q w ttl now kinds).1 = .error e ∧ Edits q (b.lease q w ttl now kinds).2 ∧
        (b.lease q w ttl now kinds).2.fencingSequences = q.fencingSequences

variable {b : Backend π}

@[simp] theorem mem_reload {q : WorkQueue π} {i : WorkItem π} :
    i ∈ (b.reload q).items ↔ i ∈ q.items := Items.mem_arrange

@[simp] theorem reload_fencingSequences (q : WorkQueue π) :
    (b.reload q).fencingSequences = q.fencingSequences := rfl

theorem Lawful.pairwise (hb : b.Lawful) (t : Items π) :
    (t.arrange b.rowOrder).rows.Pairwise (fun i j => b.rowOrder i j) := by
  have : Std.Total (fun i j : WorkItem π => (b.rowOrder i j : Prop)) := ⟨hb.total⟩
  have : IsTrans (WorkItem π) (fun i j => (b.rowOrder i j : Prop)) := ⟨hb.trans⟩
  exact List.pairwise_insertionSort _ _

theorem Lawful.arrange_congr (hb : b.Lawful) {t t' : Items π} (h : ∀ i, i ∈ t ↔ i ∈ t') :
    t.arrange b.rowOrder = t'.arrange b.rowOrder := by
  refine Table.ext (List.Perm.eq_of_pairwise (fun i j hi hj hij hji => ?_) (hb.pairwise t)
    (hb.pairwise t') (Table.perm_of_mem_iff fun i => ?_))
  · refine Table.eq_of_key (t := t) (Items.mem_arrange.mp hi) ?_ (hb.antisymm i j hij hji)
    exact (h j).mpr (Items.mem_arrange.mp hj)
  · rw [Items.mem_arrange, Items.mem_arrange, h]

/-- Reloading looks at which items there are, not at their order. -/
theorem Lawful.reload_congr (hb : b.Lawful) {q q' : WorkQueue π}
    (h : ∀ i, i ∈ q.items ↔ i ∈ q'.items) (hf : q.fencingSequences = q'.fencingSequences) :
    b.reload q = b.reload q' := by
  unfold reload
  rw [hb.arrange_congr h, hf]

theorem Lawful.reload_reload (hb : b.Lawful) (q : WorkQueue π) :
    b.reload (b.reload q) = b.reload q :=
  hb.reload_congr (fun _ => mem_reload) rfl

end Backend

/-! ## The invariant of a durable queue -/

/-- What a durable queue holds can be written: the invariant of queues, no item that the
backend refuses, and no token beyond its item's attempts. -/
structure Writable (b : Backend π) (q : WorkQueue π) : Prop where
  inv : QueueInv q
  storable : ∀ i ∈ q.items, b.refusal i = none
  counted : ∀ i ∈ q.items, (q.fencingSequences.count i.workItemId : Int) ≤ i.attempts
  free : ∀ id, (∀ i ∈ q.items, i.workItemId ≠ id) → q.fencingSequences.count id = 0
  token : ∀ i ∈ q.items, ∀ l, i.lease = some l → (l.fencingToken : Int) ≤ i.attempts

/-- The state of a durable queue between calls: writable, and in the form storage gives
back. -/
structure StoredInv (b : Backend π) (q : WorkQueue π) : Prop extends Writable b q where
  canonical : b.reload q = q

variable {b : Backend π}

variable {q : WorkQueue π}

theorem Writable.reload (hb : b.Lawful) (h : Writable b q) :
    StoredInv b (b.reload q) where
  inv := h.inv.of_subset fun _ => Backend.mem_reload.mp
  canonical := hb.reload_reload q
  storable := fun i hi => h.storable i (Backend.mem_reload.mp hi)
  counted := fun i hi => h.counted i (Backend.mem_reload.mp hi)
  free := fun id hid => h.free id fun i hi => hid i (Backend.mem_reload.mpr hi)
  token := fun i hi => h.token i (Backend.mem_reload.mp hi)

theorem Writable.edits {q q' : WorkQueue π} (hb : b.Lawful) (h : Writable b q) (he : Edits q q')
    (hf : q'.fencingSequences = q.fencingSequences) : Writable b q' := by
  have hk := he.kept
  have htoken : ∀ j ∈ q'.items, ∀ l, j.lease = some l → (l.fencingToken : Int) ≤ j.attempts := by
    intro j hj l hl
    obtain ⟨i, hi, hij⟩ := hk.origin j hj
    obtain ⟨k, hk, hkl⟩ := hij.grant l hl
    rw [hkl.fencingToken, hij.attempts]
    exact h.token i hi k hk
  refine ⟨h.inv.edits he, fun j hj => ?_, fun j hj => ?_, fun id hid => ?_, htoken⟩
  · obtain ⟨i, hi, hij⟩ := hk.origin j hj
    exact hb.refusal i j hij.payload hij.priority hij.maxAttempts (htoken j hj) (h.storable i hi)
  · obtain ⟨i, hi, hij⟩ := hk.origin j hj
    rw [hf, hij.workItemId, hij.attempts]
    exact h.counted i hi
  · rw [hf]
    refine h.free id fun i hi he => ?_
    obtain ⟨j, hj, hji⟩ := (hk.held_iff id).mp ⟨i, hi, he⟩
    exact hid j hj hji

theorem Writable.create {q q' : WorkQueue π} {r : EnqueueRequest π} {j : WorkItem π}
    (h : Writable b q) (hc : Created q q' r j) (hr : b.refusal j = none)
    (hf : q'.fencingSequences = q.fencingSequences) : Writable b q' := by
  refine ⟨h.inv.create hc, fun i hi => ?_, fun i hi => ?_, fun id hid => ?_, fun i hi l hl => ?_⟩
  · rcases (hc.items i).mp hi with rfl | hi
    · exact hr
    · exact h.storable i hi
  · rw [hf]
    rcases (hc.items i).mp hi with rfl | hi
    · rw [h.free _ hc.fresh]
      exact i.wellFormed.attempts_nonneg
    · exact h.counted i hi
  · rw [hf]
    exact h.free id fun i hi => hid i ((hc.items i).mpr (.inr hi))
  · rcases (hc.items i).mp hi with rfl | hi
    · rw [hc.isNew.lease] at hl
      cases hl
    · exact h.token i hi l hl

theorem Writable.grant {q q' : WorkQueue π} {i j : WorkItem π} {l : WorkerLease} (hb : b.Lawful)
    (h : Writable b q) (hg : Grant q q' i j l)
    (ht : l.fencingToken ≤ q.fencingSequences.count i.workItemId + 1)
    (hf : ∀ id, q'.fencingSequences.count id ≤
      if id = i.workItemId then q.fencingSequences.count id + 1
      else q.fencingSequences.count id) : Writable b q' := by
  have hmem : ∀ a, a ∈ q'.items ↔ a = j ∨ (a ∈ q.items ∧ a.workItemId ≠ j.workItemId) :=
    fun a => (hg.items a).trans Table.mem_put
  have hcount := h.counted i hg.mem
  have htoken : ∀ k, j.lease = some k → (k.fencingToken : Int) ≤ j.attempts := by
    intro k hk
    rw [hg.lease] at hk
    cases hk
    rw [hg.attempts]
    omega
  refine ⟨h.inv.grant hg, fun a ha => ?_, fun a ha => ?_, fun id hid => ?_, fun a ha => ?_⟩
  · rcases (hmem a).mp ha with rfl | ⟨ha, -⟩
    · exact hb.refusal i a (by rw [hg.fields]) (by rw [hg.fields]) (by rw [hg.fields]) htoken
        (h.storable i hg.mem)
    · exact h.storable a ha
  · have hle := hf a.workItemId
    rcases (hmem a).mp ha with rfl | ⟨ha, hne⟩
    · rw [hg.workItemId, if_pos rfl] at hle
      rw [hg.workItemId, hg.attempts]
      omega
    · rw [if_neg (by rwa [← hg.workItemId])] at hle
      have := h.counted a ha
      omega
  · have hj : j.workItemId ≠ id := hid j ((hmem j).mpr (.inl rfl))
    have hle := hf id
    rw [if_neg (by rw [← hg.workItemId]; exact hj.symm)] at hle
    have hz := h.free id fun a ha he =>
      hid a ((hmem a).mpr (.inr ⟨ha, fun haj => hj (haj ▸ he)⟩)) he
    omega
  · rcases (hmem a).mp ha with rfl | ⟨ha, -⟩
    · exact htoken
    · exact h.token a ha

theorem Writable.prune {q : WorkQueue π} (h : Writable b q) (before : Option Time) :
    Writable b (q.pruneTerminal before).2 := by
  have hsub : ∀ i ∈ (q.pruneTerminal before).2.items, i ∈ q.items :=
    fun i hi => (mem_pruneTerminal.mp hi).1
  have hcount : ∀ id, (q.pruneTerminal before).2.fencingSequences.count id
      = if (q.pruneTerminal before).1.any (fun j => decide (j.workItemId = id)) then 0
        else q.fencingSequences.count id := count_foldl_drop _ q
  refine ⟨h.inv.of_subset hsub, fun i hi => h.storable i (hsub i hi), fun i hi => ?_,
    fun id hid => ?_, fun i hi => h.token i (hsub i hi)⟩
  · rw [hcount]
    split
    · exact i.wellFormed.attempts_nonneg
    · exact h.counted i (hsub i hi)
  · rw [hcount]
    split
    · rfl
    · rename_i hany
      refine h.free id fun i hi he => ?_
      by_cases hp : i.isPrunableTerminal before = true
      · exact hany (List.any_eq_true.mpr ⟨i, mem_pruned.mpr ⟨hi, hp⟩, by simpa using he⟩)
      · exact hid i (mem_pruneTerminal.mpr ⟨hi, by simpa using hp⟩) he

/-! ## Durable queues have effects -/

/-- Every call but these is a call on the in-memory queue, followed by a reload. -/
theorem Backend.step_eq (b : Backend π) (q : WorkQueue π) {op : QueueOp π}
    (hen : ∀ r, op ≠ .enqueue r) (hl : ∀ w ttl now kinds, op ≠ .lease w ttl now kinds)
    (hr : op ≠ .reopen) : b.step q op = ((q.step op).1, b.reload (q.step op).2) := by
  cases op with
  | enqueue r => exact absurd rfl (hen r)
  | lease w ttl now kinds => exact absurd rfl (hl w ttl now kinds)
  | reopen => exact absurd rfl hr
  | _ => rfl

theorem Backend.enqueue_cases (h : StoredInv b q) (r : EnqueueRequest π) :
    (∃ i k, r.idempotencyKey = some k ∧ q.findIdempotent k = some i ∧
        b.enqueue q r = (.ok i, q) ∧ q.enqueue r = (.ok i, q)) ∨
      (∃ j q', b.enqueue q r = (.ok j, b.reload q') ∧ Created q q' r j ∧
        b.refusal j = none ∧ q.enqueue r = (.ok j, q')) ∨
      (∃ e, b.enqueue q r = (.error e, q) ∧
        ((q.enqueue r).1 = .error e ∨
          ∃ j, (q.enqueue r).1 = .ok j ∧ Created q (q.enqueue r).2 r j ∧
            b.refusal j = some e)) := by
  unfold Backend.enqueue
  rcases WorkQueue.enqueue_cases q r with ⟨i, k, hk, hf, he⟩ | ⟨j, hj, hc⟩ | ⟨e, he, -⟩
  · refine .inl ⟨i, k, hk, hf, ?_, he⟩
    simp only [he, h.storable i (findIdempotent_some hf).1, h.canonical]
  · rcases hq : q.enqueue r with ⟨res, q'⟩
    rw [hq] at hj hc
    simp only at hj hc
    subst hj
    cases hr : b.refusal j with
    | none => exact .inr (.inl ⟨j, q', by simp only [hr], hc, hr, rfl⟩)
    | some e => exact .inr (.inr ⟨e, by simp only [hr], .inr ⟨j, rfl, hc, hr⟩⟩)
  · rcases hq : q.enqueue r with ⟨res, q'⟩
    rw [hq] at he
    simp only at he
    subst he
    exact .inr (.inr ⟨e, rfl, .inl rfl⟩)

theorem Backend.effect_step (hb : b.Lawful) (h : StoredInv b q)
    (op : QueueOp π) : Effect q op (b.step q op).1 (b.step q op).2 := by
  cases op with
  | enqueue r =>
    rcases Backend.enqueue_cases h r with
      ⟨i, k, hk, hf, he, -⟩ | ⟨j, q', he, hc, -⟩ | ⟨e, he, -⟩ <;>
      simp only [Backend.step, he, Reply.ofItem]
    · exact .quiet .refl (by simp) (quiet_enqueue hk hf) (by simp)
    · exact (Effect.create hc).regroup fun _ => mem_reload
    · exact .quiet .refl (by simp) (by simp) (by simp)
  | lease w ttl now kinds =>
    rcases hb.lease q w ttl now kinds h.inv with
      ⟨s, i, j, l, hj, hw, he, hg, -⟩ | ⟨e, he, hed, -⟩
    · simp only [Backend.step, hj, Reply.ofItem]
      exact (Effect.grant he hg hw).regroup fun _ => mem_reload
    · simp only [Backend.step, he, Reply.ofItem]
      exact (Effect.quiet hed (fun _ _ _ _ _ => ⟨e, rfl⟩) (by simp) (by simp)).regroup
        fun _ => mem_reload
  | reopen => exact .quiet (.single (.regroup fun _ => Iff.rfl)) (by simp) (by simp) (by simp)
  | _ =>
    rw [b.step_eq q (by simp) (by simp) (by simp)]
    exact (WorkQueue.effect_step h.inv _).regroup fun _ => mem_reload

theorem Backend.inv_step (hb : b.Lawful) (h : StoredInv b q)
    (op : QueueOp π) : StoredInv b (b.step q op).2 := by
  cases op with
  | enqueue r =>
    rcases Backend.enqueue_cases h r with
      ⟨i, k, -, -, he, -⟩ | ⟨j, q', he, hc, hr, hq⟩ | ⟨e, he, -⟩ <;>
      simp only [Backend.step, he]
    · exact h
    · have hf : q'.fencingSequences = q.fencingSequences := by
        have := step_fencing q (.enqueue r) (by simp) (by simp)
        simpa only [WorkQueue.step, hq] using this
      exact (h.toWritable.create hc hr hf).reload hb
    · exact h
  | lease w ttl now kinds =>
    simp only [Backend.step]
    rcases hb.lease q w ttl now kinds h.inv with
      ⟨s, i, j, l, -, -, he, hg, ht, hf⟩ | ⟨e, -, hed, hf⟩
    · -- the sweep before the grant leaves the counters alone
      let s' : WorkQueue π := { s with fencingSequences := q.fencingSequences }
      have hs' : Edits q s' := he.tail (.regroup fun _ => Iff.rfl)
      have hg' : Grant s' (b.lease q w ttl now kinds).2 i j l :=
        ⟨hg.mem, hg.queued, hg.fields, hg.leaseId, hg.items⟩
      exact ((h.toWritable.edits hb hs' rfl).grant hb hg' ht hf).reload hb
    · exact (h.toWritable.edits hb hed hf).reload hb
  | reopen =>
    exact
      { inv := ⟨h.inv.left, h.inv.leaseId, h.inv.key⟩
        canonical := by
          have hc := h.canonical
          unfold Backend.reload at hc ⊢
          rw [WorkQueue.mk.injEq] at hc ⊢
          exact ⟨hc.1, hc.2.1, rfl⟩
        storable := h.storable
        counted := fun i _ => i.wellFormed.attempts_nonneg
        free := fun _ _ => rfl
        token := h.token }
  | prune before => exact (h.toWritable.prune before).reload hb
  | _ =>
    rw [b.step_eq q (by simp) (by simp) (by simp)]
    refine (h.toWritable.edits hb ?_ (step_fencing q _ (by simp) (by simp))).reload hb
    exact (WorkQueue.effect_step h.inv _).edits_of_ne (by simp) (by simp) (by simp)

theorem Backend.queue_effectful (hb : b.Lawful) : Effectful b.queue (StoredInv b) where
  empty := Table.not_mem_empty
  init :=
    { inv := queueInv_new
      canonical := rfl
      storable := fun _ h => absurd h (Table.not_mem_empty _)
      counted := fun _ h => absurd h (Table.not_mem_empty _)
      free := fun _ _ => rfl
      token := fun _ h => absurd h (Table.not_mem_empty _) }
  effect := fun _ op h => Backend.effect_step hb h op
  inv := fun _ op h => Backend.inv_step hb h op

end UniversalAgent.Distributed
