import UniversalAgent.Distributed.QueueInvariants

/-!
# Distributed — QueueMirror

One queue mirrors another: it holds the same items, in any order, with the fencing tokens of
their leases mapped by a fixed function (`id` for a queue that keeps the tokens, a constant
for one that does not keep them). A mirror answers every call as the queue it mirrors does,
up to the same map on the tokens in the answer, as long as the parts of the queue that are
not items agree where the call looks at them.

This is the whole relation between the durable queues and the in-memory one.
-/

namespace UniversalAgent.Distributed

open UniversalAgent.Foundation

variable {π : Type} (g : Nat → Nat)

/-! ## Mapping tokens -/

def WorkerLease.mapToken (l : WorkerLease) : WorkerLease :=
  { l with fencingToken := g l.fencingToken }

@[simp] theorem WorkerLease.mapToken_workerId (l : WorkerLease) :
    (l.mapToken g).workerId = l.workerId := rfl
@[simp] theorem WorkerLease.mapToken_leaseExpiresAt (l : WorkerLease) :
    (l.mapToken g).leaseExpiresAt = l.leaseExpiresAt := rfl

def WorkItem.mapToken (i : WorkItem π) : WorkItem π where
  toWorkItemFields := { i.toWorkItemFields with lease := i.lease.map (WorkerLease.mapToken g) }
  wellFormed :=
    { workItemId := i.wellFormed.workItemId
      kind := i.wellFormed.kind
      maxAttempts := i.wellFormed.maxAttempts
      attempts_nonneg := i.wellFormed.attempts_nonneg
      attempts_le := i.wellFormed.attempts_le
      lease_of_leased := fun hs => by
        have := i.wellFormed.lease_of_leased hs
        simpa using this
      leased_of_lease := fun hl => i.wellFormed.leased_of_lease (by simpa using hl) }

def Reply.mapToken : Reply π → Reply π
  | .item i => .item (i.mapToken g)
  | .items is => .items (is.map (WorkItem.mapToken g))
  | .done => .done
  | .raised e => .raised e

namespace WorkItem

variable {g}

@[simp] theorem mapToken_workItemId (i : WorkItem π) :
    (i.mapToken g).workItemId = i.workItemId := rfl
@[simp] theorem mapToken_kind (i : WorkItem π) : (i.mapToken g).kind = i.kind := rfl
@[simp] theorem mapToken_status (i : WorkItem π) : (i.mapToken g).status = i.status := rfl
@[simp] theorem mapToken_attempts (i : WorkItem π) : (i.mapToken g).attempts = i.attempts := rfl
@[simp] theorem mapToken_maxAttempts (i : WorkItem π) :
    (i.mapToken g).maxAttempts = i.maxAttempts := rfl
@[simp] theorem mapToken_availableAt (i : WorkItem π) :
    (i.mapToken g).availableAt = i.availableAt := rfl
@[simp] theorem mapToken_idempotencyKey (i : WorkItem π) :
    (i.mapToken g).idempotencyKey = i.idempotencyKey := rfl
@[simp] theorem mapToken_isTerminal (i : WorkItem π) :
    (i.mapToken g).isTerminal = i.isTerminal := rfl
@[simp] theorem mapToken_isPrunableTerminal (i : WorkItem π) (before : Option Time) :
    (i.mapToken g).isPrunableTerminal before = i.isPrunableTerminal before := rfl
@[simp] theorem mapToken_sortKey (i : WorkItem π) : (i.mapToken g).sortKey = i.sortKey := rfl
@[simp] theorem mapToken_nextLeaseId (i : WorkItem π) :
    (i.mapToken g).nextLeaseId = i.nextLeaseId := rfl
@[simp] theorem mapToken_lease (i : WorkItem π) :
    (i.mapToken g).lease = i.lease.map (WorkerLease.mapToken g) := rfl

@[simp] theorem mapToken_completed (i : WorkItem π) (now : Time) :
    (i.completed now).mapToken g = (i.mapToken g).completed now := rfl
@[simp] theorem mapToken_requeued (i : WorkItem π) (reason : String) (now : Time) :
    (i.requeued reason now).mapToken g = (i.mapToken g).requeued reason now := rfl
@[simp] theorem mapToken_failed (i : WorkItem π) (reason : String) (now : Time) :
    (i.failed reason now).mapToken g = (i.mapToken g).failed reason now := rfl
@[simp] theorem mapToken_cancelled (i : WorkItem π) (reason : String) (now : Time) :
    (i.cancelled reason now).mapToken g = (i.mapToken g).cancelled reason now := rfl

theorem mapToken_failure (i : WorkItem π) (reason : String) (retry : Bool) (now : Time) :
    (WorkQueue.failure i reason retry now).mapToken g
      = WorkQueue.failure (i.mapToken g) reason retry now := by
  by_cases h : retry = true ∧ i.attempts < i.maxAttempts
  · rw [WorkQueue.failure, if_pos h, WorkQueue.failure, if_pos (by simpa using h)]
    rfl
  · rw [WorkQueue.failure, if_neg h, WorkQueue.failure, if_neg (by simpa using h)]
    rfl

theorem mapToken_of_unleased {i : WorkItem π} (h : i.lease = none) : i.mapToken g = i :=
  ext_fields (by simp only [mapToken, h, Option.map_none]; rw [← h])

theorem mapToken_expired? (i : WorkItem π) (now : Time) :
    (i.mapToken g).expired? now = (i.expired? now).map (WorkItem.mapToken g) := by
  unfold expired?
  rw [mapToken_status, mapToken_lease]
  cases hs : i.status with
  | leased =>
    cases hl : i.lease with
    | none => rfl
    | some l =>
      simp only [Option.map_some, WorkerLease.mapToken]
      by_cases hx : l.leaseExpiresAt > now
      · simp [hx]
      · by_cases ha : i.attempts < i.maxAttempts <;> simp [hx, ha]
  | _ => rfl

theorem mapToken_swept (i : WorkItem π) (now : Time) :
    (i.swept now).mapToken g = (i.mapToken g).swept now := by
  unfold swept
  rw [mapToken_expired?]
  cases i.expired? now <;> rfl

/-- Building an item looks at its lease only to see whether there is one. -/
theorem make_mapToken {f f' : WorkItemFields π}
    (h : f' = { f with lease := f.lease.map (WorkerLease.mapToken g) }) :
    make f' = (make f).map (WorkItem.mapToken g) := by
  have hpost : f'.postInit = f.postInit := by
    subst h
    unfold WorkItemFields.postInit
    simp
  cases hm : make f with
  | error e => exact make_eq_error.mpr (hpost.trans (make_eq_error.mp hm))
  | ok i =>
    rw [make_eq_ok] at hm
    refine make_eq_ok.mpr ?_
    rw [h, ← hm]
    rfl

theorem sorted_map_mapToken (l : List (WorkItem π)) :
    sorted (l.map (WorkItem.mapToken g)) = (sorted l).map (WorkItem.mapToken g) := by
  symm
  exact List.map_insertionSort _ _ _ _ fun _ _ _ _ => Iff.rfl

end WorkItem

/-! ## Mirrors -/

/-- `v` holds the items of `q`, with their tokens mapped. -/
def Mirrors (q v : WorkQueue π) : Prop :=
  v.items.rows.Perm (q.items.rows.map (WorkItem.mapToken g))

namespace Mirrors

open WorkQueue

variable {g} {q v : WorkQueue π}

theorem mem_iff (h : Mirrors g q v) {a : WorkItem π} :
    a ∈ v.items ↔ ∃ b ∈ q.items, b.mapToken g = a := by
  rw [Table.mem_def, List.Perm.mem_iff h, List.mem_map]
  rfl

theorem of_mem_iff (h : ∀ a, a ∈ v.items ↔ ∃ b ∈ q.items, b.mapToken g = a) :
    Mirrors g q v := by
  have hnd : (q.items.rows.map (WorkItem.mapToken g)).Nodup := by
    refine List.Nodup.of_map (fun i : WorkItem π => i.workItemId) ?_
    rw [List.map_map]
    exact q.items.nodup
  refine (List.perm_ext_iff_of_nodup v.items.nodup.of_map hnd).mpr fun a => ?_
  rw [List.mem_map]
  exact h a

/-- Filtering by what does not depend on tokens, then sorting, commutes with mirroring. -/
theorem sorted_filter (h : Mirrors g q v) (p : WorkItem π → Bool)
    (hp : ∀ i, p (i.mapToken g) = p i) :
    WorkItem.sorted (v.items.rows.filter p)
      = (WorkItem.sorted (q.items.rows.filter p)).map (WorkItem.mapToken g) := by
  rw [← WorkItem.sorted_map_mapToken]
  have hf : (q.items.rows.filter p).map (WorkItem.mapToken g)
      = (q.items.rows.map (WorkItem.mapToken g)).filter p := by
    rw [List.filter_map]
    congr 1
    exact List.filter_congr fun i _ => (hp i).symm
  rw [hf]
  refine WorkItem.sorted_eq_of_perm (List.Perm.filter p h) fun a ha b hb hid => ?_
  exact Table.eq_of_key (List.mem_of_mem_filter ha) (List.mem_of_mem_filter hb) hid

theorem get? (h : Mirrors g q v) (id : String) :
    v.items.get? id = (q.items.get? id).map (WorkItem.mapToken g) := by
  cases hq : q.items.get? id with
  | none =>
    refine Table.get?_eq_none.mpr fun a ha => ?_
    obtain ⟨b, hb, rfl⟩ := h.mem_iff.mp ha
    exact Table.get?_eq_none.mp hq b hb
  | some b =>
    obtain ⟨hb, hid⟩ := Table.get?_eq_some.mp hq
    exact Table.get?_eq_some.mpr ⟨h.mem_iff.mpr ⟨b, hb, rfl⟩, hid⟩

theorem get (h : Mirrors g q v) (id : String) :
    v.get id = (q.get id).map (WorkItem.mapToken g) := by
  unfold WorkQueue.get
  rw [h.get? id]
  cases q.items.get? id <;> rfl

theorem put (h : Mirrors g q v) {q' v' : WorkQueue π} {i : WorkItem π}
    (hq : q'.items = q.items.put i) (hv : v'.items = v.items.put (i.mapToken g)) :
    Mirrors g q' v' := by
  refine of_mem_iff fun a => ?_
  rw [hq, hv]
  simp only [Table.mem_put, h.mem_iff, WorkItem.mapToken_workItemId]
  constructor
  · rintro (rfl | ⟨⟨b, hb, rfl⟩, hne⟩)
    · exact ⟨i, .inl rfl, rfl⟩
    · exact ⟨b, .inr ⟨hb, hne⟩, rfl⟩
  · rintro ⟨b, rfl | ⟨hb, hne⟩, rfl⟩
    · exact .inl rfl
    · exact .inr ⟨⟨b, hb, rfl⟩, hne⟩

/-- What the queues hold beside their items does not matter. -/
theorem congr (h : Mirrors g q v) {q' v' : WorkQueue π} (hq : q'.items = q.items)
    (hv : v'.items.rows.Perm v.items.rows) : Mirrors g q' v' := by
  unfold Mirrors
  rw [hq]
  exact hv.trans h

theorem setItem (h : Mirrors g q v) (i : WorkItem π) :
    Mirrors g (q.setItem i) (v.setItem (i.mapToken g)) := h.put rfl rfl

theorem queueInv (h : Mirrors g q v) (hq : QueueInv q) : QueueInv v := by
  refine ⟨fun a ha => ?_, fun a ha l hl => ?_, fun a ha b hb hta htb k hka hkb => ?_⟩
  · obtain ⟨b, hb, rfl⟩ := h.mem_iff.mp ha
    exact hq.left b hb
  · obtain ⟨b, hb, rfl⟩ := h.mem_iff.mp ha
    rw [WorkItem.mapToken_lease, Option.map_eq_some_iff] at hl
    obtain ⟨l', hl', rfl⟩ := hl
    exact hq.leaseId b hb l' hl'
  · obtain ⟨a', ha', rfl⟩ := h.mem_iff.mp ha
    obtain ⟨b', hb', rfl⟩ := h.mem_iff.mp hb
    rw [hq.key a' ha' b' hb' hta htb k hka hkb]

/-! ### One lemma for each method -/

theorem findIdempotent (h : Mirrors g q v) (hq : QueueInv q) (k : String) :
    v.findIdempotent k = (q.findIdempotent k).map (WorkItem.mapToken g) := by
  cases hf : q.findIdempotent k with
  | none =>
    refine findIdempotent_none.mpr fun a ha hka => ?_
    obtain ⟨b, hb, rfl⟩ := h.mem_iff.mp ha
    exact findIdempotent_none.mp hf b hb hka
  | some b =>
    obtain ⟨hb, hkb, htb⟩ := findIdempotent_some hf
    have hv := h.queueInv hq
    have hbv : b.mapToken g ∈ v.items := h.mem_iff.mpr ⟨b, hb, rfl⟩
    cases hf' : v.findIdempotent k with
    | none =>
      have := findIdempotent_none.mp hf' _ hbv hkb
      rw [WorkItem.mapToken_isTerminal, htb] at this
      cases this
    | some a =>
      obtain ⟨ha, hka, hta⟩ := findIdempotent_some hf'
      rw [hv.key a ha _ hbv hta htb k hka hkb]
      rfl

theorem list (h : Mirrors g q v) (status : Option WorkItemStatus) :
    v.list status = (q.list status).map (WorkItem.mapToken g) := by
  cases status with
  | none =>
    have := h.sorted_filter (fun _ => true) (fun _ => rfl)
    simpa [WorkQueue.list] using this
  | some s => exact h.sorted_filter _ (fun _ => rfl)

theorem nextLeaseable (h : Mirrors g q v) (now : Time) (kinds : Option (List String)) :
    v.nextLeaseable now kinds = (q.nextLeaseable now kinds).map (WorkItem.mapToken g) := by
  simp only [WorkQueue.nextLeaseable, leaseable]
  rw [h.sorted_filter _ (fun _ => rfl), List.head?_map]

theorem expire (h : Mirrors g q v) (now : Time) : Mirrors g (q.expire now).2 (v.expire now).2 := by
  refine of_mem_iff fun a => ?_
  simp only [mem_expire]
  constructor
  · rintro ⟨b, hb, rfl⟩
    obtain ⟨c, hc, rfl⟩ := h.mem_iff.mp hb
    exact ⟨c.swept now, ⟨c, hc, rfl⟩, WorkItem.mapToken_swept c now⟩
  · rintro ⟨b, ⟨c, hc, rfl⟩, rfl⟩
    exact ⟨c.mapToken g, h.mem_iff.mpr ⟨c, hc, rfl⟩, WorkItem.mapToken_swept c now⟩

theorem prune (h : Mirrors g q v) (before : Option Time) :
    (v.pruneTerminal before).1 = (q.pruneTerminal before).1.map (WorkItem.mapToken g) ∧
      Mirrors g (q.pruneTerminal before).2 (v.pruneTerminal before).2 := by
  refine ⟨h.sorted_filter _ (fun _ => rfl), of_mem_iff fun a => ?_⟩
  simp only [mem_pruneTerminal, h.mem_iff]
  constructor
  · rintro ⟨⟨b, hb, rfl⟩, hp⟩
    exact ⟨b, ⟨hb, hp⟩, rfl⟩
  · rintro ⟨b, ⟨hb, hp⟩, rfl⟩
    exact ⟨⟨b, hb, rfl⟩, hp⟩

theorem cancelItem (h : Mirrors g q v) (reason : String) (now : Time) (i : WorkItem π) :
    (v.cancelItem reason now (i.mapToken g)).1
        = (q.cancelItem reason now i).1.map (WorkItem.mapToken g) ∧
      Mirrors g (q.cancelItem reason now i).2 (v.cancelItem reason now (i.mapToken g)).2 := by
  unfold WorkQueue.cancelItem
  by_cases ht : i.isTerminal = true
  · rw [if_pos ht, if_pos (by simpa using ht)]
    exact ⟨rfl, h⟩
  · rw [if_neg ht, if_neg (by simpa using ht)]
    exact ⟨rfl, h.setItem (i.cancelled reason now)⟩

theorem cancel (h : Mirrors g q v) (id reason : String) (now : Time) :
    (v.cancel id reason now).1 = (q.cancel id reason now).1.map (WorkItem.mapToken g) ∧
      Mirrors g (q.cancel id reason now).2 (v.cancel id reason now).2 := by
  unfold WorkQueue.cancel
  cases parseNonEmptyString reason "cancellation reason" with
  | error e => exact ⟨rfl, h⟩
  | ok _ =>
    rw [h.get id]
    cases q.get id with
    | error e => exact ⟨rfl, h⟩
    | ok i => exact h.cancelItem reason now i

/-- The lease lookups agree: no two items are on leases with one id. -/
theorem onLease (h : Mirrors g q v) (hq : QueueInv q) (leaseId : String) :
    v.onLease leaseId
      = (q.onLease leaseId).map fun p => (p.1.mapToken g, p.2.mapToken g) := by
  cases ho : q.onLease leaseId with
  | none =>
    refine onLease_none.mpr fun a ha l hl => ?_
    obtain ⟨b, hb, rfl⟩ := h.mem_iff.mp ha
    rw [WorkItem.mapToken_lease, Option.map_eq_some_iff] at hl
    obtain ⟨k, hk, rfl⟩ := hl
    exact onLease_none.mp ho b hb k hk
  | some p =>
    obtain ⟨i, l⟩ := p
    obtain ⟨hi, hl, hid⟩ := onLease_some ho
    have hiv : i.mapToken g ∈ v.items := h.mem_iff.mpr ⟨i, hi, rfl⟩
    have hlv : (i.mapToken g).lease = some (l.mapToken g) := by simp [hl]
    cases hv : v.onLease leaseId with
    | none => exact absurd hid (onLease_none.mp hv _ hiv (l.mapToken g) hlv)
    | some p' =>
      obtain ⟨a, k⟩ := p'
      obtain ⟨ha, hk, hkid⟩ := onLease_some hv
      have ha' : a = i.mapToken g :=
        (h.queueInv hq).eq_of_leaseId ha hiv hk hlv (hkid.trans hid.symm)
      subst ha'
      rw [hlv] at hk
      cases hk
      rfl

/-- Calls that present a lease act alike when what they do with the leased item does. -/
theorem withLeasedItem (h : Mirrors g q v) (hq : QueueInv q) {leaseId w : String} {now : Time}
    {body body' : WorkItem π → WorkerLease → Outcome (WorkQueue π) (WorkItem π)}
    (hb : ∀ i l, (body' (i.mapToken g) (l.mapToken g)).1 = (body i l).1.map (WorkItem.mapToken g) ∧
      Mirrors g (body i l).2 (body' (i.mapToken g) (l.mapToken g)).2) :
    (v.withLeasedItem leaseId w now body').1
        = (q.withLeasedItem leaseId w now body).1.map (WorkItem.mapToken g) ∧
      Mirrors g (q.withLeasedItem leaseId w now body).2 (v.withLeasedItem leaseId w now body').2 := by
  unfold WorkQueue.withLeasedItem checkLease
  rw [h.onLease hq leaseId]
  cases q.onLease leaseId with
  | none => exact ⟨rfl, h⟩
  | some p =>
    obtain ⟨i, l⟩ := p
    simp only [Option.map_some, WorkerLease.mapToken_workerId,
      WorkerLease.mapToken_leaseExpiresAt]
    by_cases hw : l.workerId = w
    · by_cases hx : l.leaseExpiresAt ≤ now
      · simp only [hw, hx, ne_eq, not_true_eq_false, if_true, if_false]
        exact ⟨rfl, h.expire now⟩
      · simp only [hw, hx, ne_eq, not_true_eq_false, if_false]
        exact hb i l
    · simp only [hw, ne_eq, not_false_eq_true, if_true]
      exact ⟨rfl, h⟩

theorem heartbeat (h : Mirrors g q v) (hq : QueueInv q) (leaseId w : String) (ttl : ℚ)
    (now : Time) :
    (v.heartbeat leaseId w ttl now).1
        = (q.heartbeat leaseId w ttl now).1.map (WorkItem.mapToken g) ∧
      Mirrors g (q.heartbeat leaseId w ttl now).2 (v.heartbeat leaseId w ttl now).2 := by
  refine h.withLeasedItem hq fun i l => ?_
  unfold renew
  cases leaseDeadline now ttl with
  | error e => exact ⟨rfl, h⟩
  | ok deadline =>
    have hm : (i.mapToken g).renewed (l.mapToken g) now deadline
        = (i.renewed l now deadline).map (WorkItem.mapToken g) := WorkItem.make_mapToken rfl
    simp only [hm]
    cases i.renewed l now deadline with
    | error e => exact ⟨rfl, h⟩
    | ok j => exact ⟨rfl, h.setItem j⟩

theorem complete (h : Mirrors g q v) (hq : QueueInv q) (leaseId w : String) (now : Time) :
    (v.complete leaseId w now).1 = (q.complete leaseId w now).1.map (WorkItem.mapToken g) ∧
      Mirrors g (q.complete leaseId w now).2 (v.complete leaseId w now).2 :=
  h.withLeasedItem hq fun i _ => ⟨rfl, h.setItem (i.completed now)⟩

theorem fail (h : Mirrors g q v) (hq : QueueInv q) (leaseId w reason : String) (retry : Bool)
    (now : Time) :
    (v.fail leaseId w reason retry now).1
        = (q.fail leaseId w reason retry now).1.map (WorkItem.mapToken g) ∧
      Mirrors g (q.fail leaseId w reason retry now).2 (v.fail leaseId w reason retry now).2 := by
  unfold WorkQueue.fail
  cases parseNonEmptyString reason "failure reason" with
  | error e => exact ⟨rfl, h⟩
  | ok _ =>
    refine h.withLeasedItem hq fun i _ => ?_
    unfold giveBack
    rw [← WorkItem.mapToken_failure]
    exact ⟨rfl, h.setItem _⟩

/-- Insertions agree when the new item gets the same id. -/
theorem insertNew (h : Mirrors g q v) (r : EnqueueRequest π)
    (hid : (v.chooseWorkItemId r.workItemId).1 = (q.chooseWorkItemId r.workItemId).1) :
    (v.insertNew r).1 = (q.insertNew r).1.map (WorkItem.mapToken g) ∧
      Mirrors g (q.insertNew r).2 (v.insertNew r).2 := by
  obtain ⟨hqi, -⟩ := chooseWorkItemId_items q r.workItemId
  obtain ⟨hvi, -⟩ := chooseWorkItemId_items v r.workItemId
  unfold WorkQueue.insertNew
  rcases hv : v.chooseWorkItemId r.workItemId with ⟨id, v₁⟩
  rcases hqq : q.chooseWorkItemId r.workItemId with ⟨id', q₁⟩
  rw [hv, hqq] at hid
  rw [hv] at hvi
  rw [hqq] at hqi
  cases hid
  have h₁ : Mirrors g q₁ v₁ := h.congr hqi (by rw [hvi])
  simp only
  cases hm : WorkItem.make (newFields r id) with
  | error e => exact ⟨rfl, h₁⟩
  | ok j =>
    have hj : j.mapToken g = j :=
      WorkItem.mapToken_of_unleased (by rw [WorkItem.make_eq_ok.mp hm]; rfl)
    simp only [h₁.get?]
    cases q₁.items.get? j.workItemId with
    | some a => exact ⟨rfl, h₁⟩
    | none =>
      refine ⟨by simp [Except.map, hj], ?_⟩
      have := h₁.setItem j
      rwa [hj] at this

end Mirrors

end UniversalAgent.Distributed
