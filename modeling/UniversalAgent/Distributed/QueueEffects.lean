import UniversalAgent.Distributed.QueueEdits

/-!
# Distributed — QueueEffects

What one call does to a queue, whichever queue it is. A call has one of four `Effect`s: it
edits the items there are, creates one, grants a lease on one, or prunes. Every invariant of
the queues is preserved by effects, so a queue implementation has to say once what the effect
of each of its calls is; for the in-memory queue this is `effect_step`.

`QueueInv` is the invariant of a single state: a queued item has attempts left, a lease's id
is made of its item's id and attempt number, and no two items that are not terminal carry one
idempotency key.
-/

namespace UniversalAgent.Distributed

open UniversalAgent.Foundation

variable {π : Type}

/-- The id of the lease an item is on: its id and the number of the attempt. -/
def WorkItem.heldLeaseId (i : WorkItem π) : String :=
  "lease-" ++ i.workItemId ++ "-" ++ toString i.attempts.toNat

theorem WorkItem.heldLeaseId_inj {i j : WorkItem π} (h : i.heldLeaseId = j.heldLeaseId) :
    i.workItemId = j.workItemId ∧ i.attempts = j.attempts := by
  obtain ⟨hid, hn⟩ := Text.dashed_inj h
  have hi := i.wellFormed.attempts_nonneg
  have hj := j.wellFormed.attempts_nonneg
  exact ⟨hid, by omega⟩

structure QueueInv (q : WorkQueue π) : Prop where
  left : ∀ i ∈ q.items, i.status = .queued → i.attempts < i.maxAttempts
  leaseId : ∀ i ∈ q.items, ∀ l, i.lease = some l → l.leaseId = i.heldLeaseId
  key : ∀ i ∈ q.items, ∀ j ∈ q.items, i.isTerminal = false → j.isTerminal = false →
    ∀ k, i.idempotencyKey = some k → j.idempotencyKey = some k → i = j

namespace WorkQueue

variable {q : WorkQueue π} {i : WorkItem π} {r : EnqueueRequest π} {j : WorkItem π}
  {kinds : Option (List String)} {l : WorkerLease}

theorem findIdempotent_none {k : String} :
    q.findIdempotent k = none ↔
      ∀ i ∈ q.items, i.idempotencyKey = some k → i.isTerminal = true := by
  simp [findIdempotent, List.find?_eq_none, Table.mem_def]

theorem findIdempotent_some {k : String}
    (h : q.findIdempotent k = some i) :
    i ∈ q.items ∧ i.idempotencyKey = some k ∧ i.isTerminal = false := by
  have hp := List.find?_some h
  simp only [Bool.and_eq_true, decide_eq_true_eq, Bool.not_eq_true'] at hp
  exact ⟨List.mem_of_find?_eq_some h, hp⟩

/-! ## Creations -/

theorem chooseWorkItemId_items (q : WorkQueue π) (id : Option String) :
    (q.chooseWorkItemId id).2.items = q.items ∧
      (q.chooseWorkItemId id).2.fencingSequences = q.fencingSequences := by
  unfold chooseWorkItemId nextWorkItemId
  split
  · exact ⟨rfl, rfl⟩
  · split <;> exact ⟨rfl, rfl⟩

/-- Everything a creation is: no active item answers for the request's key, the item is made
of the request, its id was chosen for it and was free, and it is the only new item. -/
structure Created (q q' : WorkQueue π) (r : EnqueueRequest π) (j : WorkItem π) : Prop where
  key : ∀ k, r.idempotencyKey = some k → q.findIdempotent k = none
  workItemId : j.workItemId = (q.chooseWorkItemId r.workItemId).1
  fields : j.toWorkItemFields = newFields r j.workItemId
  fresh : ∀ i ∈ q.items, i.workItemId ≠ j.workItemId
  items : ∀ i, i ∈ q'.items ↔ i = j ∨ i ∈ q.items

theorem Created.isNew {q q' : WorkQueue π} (h : Created q q' r j) : j.IsNew :=
  ⟨by rw [h.fields]; rfl, by rw [h.fields]; rfl, by rw [h.fields]; rfl⟩

theorem insertNew_ok {q q' : WorkQueue π}
    (hk : ∀ k, r.idempotencyKey = some k → q.findIdempotent k = none)
    (h : q.insertNew r = (.ok j, q')) : Created q q' r j := by
  unfold insertNew at h
  obtain ⟨hitems, -⟩ := chooseWorkItemId_items q r.workItemId
  split at h
  rename_i id q₁ hq
  rw [hq] at hitems
  split at h
  · cases h
  rename_i item hmake
  split at h
  · cases h
  rename_i hnone
  cases h
  have hf := WorkItem.make_eq_ok.mp hmake
  have hid : j.workItemId = id := by rw [hf]; rfl
  have hfresh : ∀ i ∈ q.items, i.workItemId ≠ j.workItemId := fun i hi =>
    Table.get?_eq_none.mp hnone i (hitems ▸ hi)
  refine ⟨hk, by rw [hq, hid], by rw [hid]; exact hf, hfresh, fun i => ?_⟩
  rw [items_setItem, Table.mem_put, hitems]
  constructor
  · rintro (rfl | ⟨hi, -⟩)
    · exact .inl rfl
    · exact .inr hi
  · rintro (rfl | hi)
    · exact .inl rfl
    · exact .inr ⟨hi, hfresh i hi⟩

/-- An insertion leaves the fencing counters alone, and one that is refused the items too. -/
theorem insertNew_frame (q : WorkQueue π) (r : EnqueueRequest π) :
    (q.insertNew r).2.fencingSequences = q.fencingSequences ∧
      ∀ e, (q.insertNew r).1 = .error e → (q.insertNew r).2.items = q.items := by
  obtain ⟨hitems, hfencing⟩ := chooseWorkItemId_items q r.workItemId
  unfold insertNew
  rcases hq : q.chooseWorkItemId r.workItemId with ⟨id, q₁⟩
  rw [hq] at hitems hfencing
  simp only
  split
  · exact ⟨hfencing, fun _ _ => hitems⟩
  split
  · exact ⟨hfencing, fun _ _ => hitems⟩
  · exact ⟨hfencing, fun _ he => by cases he⟩

theorem existing_eq_some :
    q.existing r = some i ↔ ∃ k, r.idempotencyKey = some k ∧ q.findIdempotent k = some i := by
  unfold existing
  cases r.idempotencyKey <;> simp

theorem existing_eq_none :
    q.existing r = none ↔ ∀ k, r.idempotencyKey = some k → q.findIdempotent k = none := by
  unfold existing
  cases r.idempotencyKey <;> simp

/-- **What `enqueue` does.** It answers with the active item of the request's key, creates an
item, or is refused. -/
theorem enqueue_cases (q : WorkQueue π) (r : EnqueueRequest π) :
    (∃ i k, r.idempotencyKey = some k ∧ q.findIdempotent k = some i ∧
        q.enqueue r = (.ok i, q)) ∨
      (∃ j, (q.enqueue r).1 = .ok j ∧ Created q (q.enqueue r).2 r j) ∨
      ∃ e, (q.enqueue r).1 = .error e ∧ (q.enqueue r).2.items = q.items := by
  unfold enqueue
  cases hb : q.existing r with
  | some i =>
    obtain ⟨k, hk, hf⟩ := existing_eq_some.mp hb
    exact .inl ⟨i, k, hk, hf, rfl⟩
  | none =>
    have hkey := existing_eq_none.mp hb
    cases h : q.insertNew r with
    | mk res q' =>
      cases res with
      | ok j => exact .inr (.inl ⟨j, rfl, insertNew_ok hkey h⟩)
      | error e =>
        have := (insertNew_frame q r).2 e (by rw [h])
        exact .inr (.inr ⟨e, rfl, by rw [h] at this; exact this⟩)

/-! ## Grants -/

theorem mem_leaseable {now : Time}
    (h : i ∈ q.leaseable now kinds) :
    i ∈ q.items ∧ i.status = .queued ∧ i.availableAt ≤ now := by
  simp only [leaseable, List.mem_filter, Bool.and_eq_true, decide_eq_true_eq] at h
  exact ⟨h.1, h.2.1.1, h.2.1.2⟩

theorem nextLeaseable_mem {now : Time}
    (h : q.nextLeaseable now kinds = some i) :
    i ∈ q.items ∧ i.status = .queued := by
  obtain ⟨hi, hs, -⟩ := mem_leaseable ((WorkItem.sorted_perm _).mem_iff.mp (List.mem_of_mem_head? h))
  exact ⟨hi, hs⟩

/-- Everything a granted lease is: the item it was granted for was queued, the lease got that
item's next lease id, and nothing but the item changed. -/
structure Grant (q q' : WorkQueue π) (i j : WorkItem π) (l : WorkerLease) : Prop where
  mem : i ∈ q.items
  queued : i.status = .queued
  fields : j.toWorkItemFields = { i.toWorkItemFields with
    status := .leased, attempts := i.attempts + 1, lease := some l, lastError := none }
  leaseId : l.leaseId = i.nextLeaseId
  items : ∀ a, a ∈ q'.items ↔ a ∈ q.items.put j

theorem Grant.lease {q q' : WorkQueue π} {i j : WorkItem π}
    (h : Grant q q' i j l) : j.lease = some l := by rw [h.fields]

theorem Grant.workItemId {q q' : WorkQueue π} {i j : WorkItem π}
    (h : Grant q q' i j l) : j.workItemId = i.workItemId := by rw [h.fields]

theorem Grant.attempts {q q' : WorkQueue π} {i j : WorkItem π}
    (h : Grant q q' i j l) : j.attempts = i.attempts + 1 := by rw [h.fields]

theorem Grant.heldLeaseId {q q' : WorkQueue π} {i j : WorkItem π}
    (h : Grant q q' i j l) : l.leaseId = j.heldLeaseId := by
  simp only [h.leaseId, WorkItem.heldLeaseId, WorkItem.nextLeaseId, h.fields]

/-- Granting a lease to an item with attempts left never trips over the attempt limit. -/
theorem withLease_ok (hq : i.attempts < i.maxAttempts) (l : WorkerLease) : ∃ j, i.withLease l = .ok j := by
  have hnn := i.wellFormed.attempts_nonneg
  have hwf : WorkItemFields.WellFormed { i.toWorkItemFields with
      status := .leased, attempts := i.attempts + 1, lease := some l, lastError := none } :=
    { workItemId := i.wellFormed.workItemId
      kind := i.wellFormed.kind
      maxAttempts := i.wellFormed.maxAttempts
      attempts_nonneg := by change 0 ≤ i.attempts + 1; omega
      attempts_le := hq
      lease_of_leased := fun _ => nofun
      leased_of_lease := fun _ => rfl }
  exact ⟨_, WorkItem.make_wellFormed hwf⟩

theorem grant_setItem {q q' : WorkQueue π} {i j : WorkItem π} (hi : i ∈ q.items)
    (hq : i.status = .queued) (hid : l.leaseId = i.nextLeaseId) (hj : i.withLease l = .ok j)
    (hitems : ∀ a, a ∈ q'.items ↔ a ∈ q.items.put j) : Grant q q' i j l :=
  ⟨hi, hq, WorkItem.make_eq_ok.mp hj, hid, hitems⟩

/-- **What `grantNext` does**, on a queue whose queued items have attempts left: it grants a
lease on the next item under that item's next token, or raises and changes nothing. -/
theorem grantNext_cases
    (hleft : ∀ i ∈ q.items, i.status = .queued → i.attempts < i.maxAttempts)
    (w : String) (ttl : ℚ) (now : Time) (kinds : Option (List String)) :
    (∃ i j l, q.nextLeaseable now kinds = some i ∧ (q.grantNext w ttl now kinds).1 = .ok j ∧
        l.workerId = w ∧ Grant q (q.grantNext w ttl now kinds).2 i j l ∧
        l.fencingToken = q.fencingSequences.count i.workItemId + 1 ∧
        (q.grantNext w ttl now kinds).2.fencingSequences
          = q.fencingSequences.put (i.workItemId, l.fencingToken)) ∨
      ∃ e, q.grantNext w ttl now kinds = (.error e, q) ∧
        (e = .noWorkAvailable "no work available" ∨ leaseDeadline now ttl = .error e) := by
  unfold grantNext
  cases hn : q.nextLeaseable now kinds with
  | none => exact .inr ⟨_, rfl, .inl rfl⟩
  | some i =>
    obtain ⟨hi, hs⟩ := nextLeaseable_mem hn
    cases hd : leaseDeadline now ttl with
    | error e => exact .inr ⟨e, rfl, .inr rfl⟩
    | ok deadline =>
      let l : WorkerLease := ⟨i.nextLeaseId, w, now, deadline, now,
        q.fencingSequences.count i.workItemId + 1⟩
      obtain ⟨j, hj⟩ := withLease_ok (hleft i hi hs) l
      simp only [nextFencingToken]
      rw [hj]
      exact .inl ⟨i, j, l, rfl, rfl, rfl, grant_setItem hi hs rfl hj fun a => Iff.rfl, rfl, rfl⟩

/-- The item a `lease` call turns to: the next one after the sweep. -/
def leaseTarget (q : WorkQueue π) (now : Time) (kinds : Option (List String)) :
    Option (WorkItem π) :=
  match normalizeAcceptedKinds kinds with
  | .error _ => none
  | .ok kindFilter => (q.expire now).2.nextLeaseable now kindFilter

/-- A granted lease is on the item the call turned to. -/
theorem lease_target {w : String} {ttl : ℚ} {now : Time}
    (hj : (q.lease w ttl now kinds).1 = .ok j)
    (hleft : ∀ i ∈ (q.expire now).2.items, i.status = .queued → i.attempts < i.maxAttempts) :
    ∃ i, q.leaseTarget now kinds = some i ∧ j.workItemId = i.workItemId := by
  unfold lease at hj
  unfold leaseTarget
  cases hk : normalizeAcceptedKinds kinds with
  | error e =>
    rw [hk] at hj
    cases hj
  | ok kindFilter =>
    rw [hk] at hj
    rcases grantNext_cases hleft w ttl now kindFilter with
      ⟨i, j', l, hi, hj', -, hg, -⟩ | ⟨e, he, -⟩
    · simp only [hj'] at hj
      cases hj
      exact ⟨i, hi, hg.workItemId⟩
    · simp only [he] at hj
      cases hj

/-! ## Pruning -/

theorem mem_foldl_drop {l : List (WorkItem π)} :
    j ∈ (l.foldl drop q).items ↔ j ∈ q.items ∧ ∀ i ∈ l, j.workItemId ≠ i.workItemId := by
  induction l generalizing q with
  | nil => simp
  | cons i l ih =>
    rw [List.foldl_cons, ih]
    simp only [drop, Table.mem_erase, List.mem_cons, forall_eq_or_imp]
    tauto

theorem mem_pruned {before : Option Time} :
    i ∈ (q.pruneTerminal before).1 ↔ i ∈ q.items ∧ i.isPrunableTerminal before = true := by
  simp only [pruneTerminal, (WorkItem.sorted_perm _).mem_iff, List.mem_filter, Table.mem_def]

/-- Pruning removes the prunable items and keeps the others as they are. -/
theorem mem_pruneTerminal {before : Option Time} :
    j ∈ (q.pruneTerminal before).2.items ↔ j ∈ q.items ∧ j.isPrunableTerminal before = false := by
  have h : j ∈ (q.pruneTerminal before).2.items ↔
      j ∈ q.items ∧ ∀ i ∈ (q.pruneTerminal before).1, j.workItemId ≠ i.workItemId := mem_foldl_drop
  rw [h]
  constructor
  · rintro ⟨hj, hall⟩
    refine ⟨hj, ?_⟩
    by_contra hp
    exact hall j (mem_pruned.mpr ⟨hj, by simpa using hp⟩) rfl
  · rintro ⟨hj, hp⟩
    refine ⟨hj, fun i hi hid => ?_⟩
    obtain ⟨hi, hip⟩ := mem_pruned.mp hi
    rw [Table.eq_of_key hj hi hid, hip] at hp
    cases hp

/-! ## Effects -/

inductive Effect (q : WorkQueue π) : QueueOp π → Reply π → WorkQueue π → Prop
  /-- The items there are move on; a `lease` raises, and an `enqueue` that returns an item
  returns the active one of the request's key. -/
  | quiet {op : QueueOp π} {r : Reply π} {q' : WorkQueue π} (edits : Edits q q')
      (lease : ∀ w ttl now kinds, op = .lease w ttl now kinds → ∃ e, r = .raised e)
      (enqueue : ∀ req j, op = .enqueue req → r = .item j →
        q.existing req = some j)
      (prune : ∀ before, op ≠ .prune before) : Effect q op r q'
  | create {req : EnqueueRequest π} {j : WorkItem π} {q' : WorkQueue π}
      (created : Created q q' req j) : Effect q (.enqueue req) (.item j) q'
  /-- A lease is granted after edits: the expiry sweep. -/
  | grant {w : String} {ttl : ℚ} {now : Time} {kinds : Option (List String)} {s q' : WorkQueue π}
      {i j : WorkItem π} {l : WorkerLease} (edits : Edits q s) (granted : Grant s q' i j l)
      (worker : l.workerId = w) : Effect q (.lease w ttl now kinds) (.item j) q'
  | prune {before : Option Time} {js : List (WorkItem π)} {q' : WorkQueue π}
      (pruned : ∀ j, j ∈ js ↔ j ∈ q.items ∧ j.isPrunableTerminal before = true)
      (kept : ∀ j, j ∈ q'.items ↔ j ∈ q.items ∧ j.isPrunableTerminal before = false) :
      Effect q (.prune before) (.items js) q'

theorem quiet_enqueue {k : String}
    (hk : r.idempotencyKey = some k) (hf : q.findIdempotent k = some i) (req : EnqueueRequest π)
    (j : WorkItem π) (hreq : QueueOp.enqueue r = .enqueue req) (hj : Reply.item i = .item j) :
    q.existing req = some j := by
  cases hreq
  cases hj
  exact existing_eq_some.mpr ⟨k, hk, hf⟩

theorem Effect.regroup {q q' q'' : WorkQueue π} {op : QueueOp π} {r : Reply π}
    (h : Effect q op r q') (hitems : ∀ i, i ∈ q''.items ↔ i ∈ q'.items) : Effect q op r q'' := by
  cases h with
  | quiet he hl hen hp => exact .quiet (he.tail (.regroup hitems)) hl hen hp
  | create hc =>
    exact .create ⟨hc.key, hc.workItemId, hc.fields, hc.fresh,
      fun i => (hitems i).trans (hc.items i)⟩
  | grant he hg hw =>
    exact .grant he ⟨hg.mem, hg.queued, hg.fields, hg.leaseId,
      fun i => (hitems i).trans (hg.items i)⟩ hw
  | prune hp hk => exact .prune hp fun i => (hitems i).trans (hk i)

theorem Effect.edits_of_ne {q q' : WorkQueue π} {op : QueueOp π} {r : Reply π}
    (h : Effect q op r q') (hen : ∀ r, op ≠ .enqueue r)
    (hl : ∀ w ttl now kinds, op ≠ .lease w ttl now kinds) (hp : ∀ before, op ≠ .prune before) :
    Edits q q' := by
  cases h with
  | quiet he _ _ _ => exact he
  | create => exact absurd rfl (hen _)
  | grant => exact absurd rfl (hl _ _ _ _)
  | prune => exact absurd rfl (hp _)

end WorkQueue

open WorkQueue

theorem queueInv_new : QueueInv (WorkQueue.new : WorkQueue π) :=
  ⟨fun _ h => absurd h (Table.not_mem_empty _), fun _ h => absurd h (Table.not_mem_empty _),
    fun _ h => absurd h (Table.not_mem_empty _)⟩

variable {q q' : WorkQueue π}

theorem QueueInv.of_subset (h : QueueInv q) (hsub : ∀ i ∈ q'.items, i ∈ q.items) : QueueInv q' :=
  ⟨fun i hi => h.left i (hsub i hi), fun i hi => h.leaseId i (hsub i hi),
    fun i hi j hj => h.key i (hsub i hi) j (hsub j hj)⟩

theorem QueueInv.eq_of_leaseId {q : WorkQueue π} (h : QueueInv q) {i j : WorkItem π}
    {l k : WorkerLease} (hi : i ∈ q.items) (hj : j ∈ q.items) (hl : i.lease = some l)
    (hk : j.lease = some k) (hid : l.leaseId = k.leaseId) : i = j := by
  have hli := h.leaseId i hi l hl
  have hkj := h.leaseId j hj k hk
  exact Table.eq_of_key hi hj
    (WorkItem.heldLeaseId_inj (hli.symm.trans (hid.trans hkj))).1

/-- Storing one item keeps the invariant when the item meets it and shares its key with no
other active item. -/
theorem QueueInv.put (h : QueueInv q) {j : WorkItem π}
    (hmem : ∀ i ∈ q'.items, i = j ∨ (i ∈ q.items ∧ i.workItemId ≠ j.workItemId))
    (hleft : j.status = .queued → j.attempts < j.maxAttempts)
    (hlease : ∀ l, j.lease = some l → l.leaseId = j.heldLeaseId)
    (hkey : j.isTerminal = false → ∀ i ∈ q.items, i.workItemId ≠ j.workItemId →
      i.isTerminal = false → ∀ k, i.idempotencyKey = some k → j.idempotencyKey ≠ some k) :
    QueueInv q' := by
  refine ⟨fun i hi => ?_, fun i hi => ?_, fun a ha b hb hta htb k hka hkb => ?_⟩
  · rcases hmem i hi with rfl | ⟨hi, -⟩
    · exact hleft
    · exact h.left i hi
  · rcases hmem i hi with rfl | ⟨hi, -⟩
    · exact hlease
    · exact h.leaseId i hi
  · rcases hmem a ha with rfl | ⟨ha, hna⟩ <;> rcases hmem b hb with rfl | ⟨hb, hnb⟩
    · rfl
    · exact absurd hka (hkey hta b hb hnb htb k hkb)
    · exact absurd hkb (hkey htb a ha hna hta k hka)
    · exact h.key a ha b hb hta htb k hka hkb

theorem QueueInv.edit (h : QueueInv q) (he : Edit q q') : QueueInv q' := by
  cases he with
  | @replace i j hi hm =>
    refine h.put (fun _ => Table.mem_put.mp) (fun hs => ?_) (fun l hl => ?_)
      (fun _ a ha hne hta k hka hkj => ?_)
    · cases hm with
      | renew hl hf =>
        have hlz : j.lease ≠ none := by rw [hf]; simp
        rw [j.wellFormed.leased_of_lease hlz] at hs
        cases hs
      | requeue _ hlt => exact hlt
      | complete => cases hs
      | fail => cases hs
      | cancel => cases hs
    · cases hm with
      | renew held hf =>
        rw [hf] at hl
        cases hl
        have := h.leaseId i hi _ held
        simpa only [WorkItem.heldLeaseId, hf] using this
      | requeue => cases hl
      | complete => cases hl
      | fail => cases hl
      | cancel => cases hl
    · have hai : a = i := h.key a ha i hi hta hm.active k hka (hm.sameWork.idempotencyKey ▸ hkj)
      exact hne (by rw [hai, hm.workItemId])
  | regroup hr => exact h.of_subset fun i => (hr i).mp

theorem QueueInv.edits (h : QueueInv q) (he : Edits q q') : QueueInv q' := by
  induction he with
  | refl => exact h
  | tail _ he ih => exact ih.edit he

theorem QueueInv.create {q q' : WorkQueue π} {r : EnqueueRequest π} {j : WorkItem π}
    (h : QueueInv q) (hc : Created q q' r j) : QueueInv q' := by
  have hnew := hc.isNew
  have hmem : ∀ i ∈ q'.items, i = j ∨ (i ∈ q.items ∧ i.workItemId ≠ j.workItemId) :=
    fun i hi => ((hc.items i).mp hi).imp id fun hi => ⟨hi, hc.fresh i hi⟩
  refine h.put hmem (fun _ => ?_) (fun l hl => ?_) (fun _ a ha _ hta k hka hkj => ?_)
  · rw [hnew.attempts]
    exact j.wellFormed.maxAttempts
  · rw [hnew.lease] at hl
    cases hl
  · have hkr : r.idempotencyKey = some k := by rw [hc.fields] at hkj; exact hkj
    rw [findIdempotent_none.mp (hc.key k hkr) a ha hka] at hta
    cases hta

theorem QueueInv.grant {q q' : WorkQueue π} {i j : WorkItem π} {l : WorkerLease}
    (h : QueueInv q) (hg : Grant q q' i j l) : QueueInv q' := by
  refine h.put (fun a ha => Table.mem_put.mp ((hg.items a).mp ha)) (fun hs => ?_) (fun k hk => ?_)
    (fun _ a ha hne hta k hka hkj => ?_)
  · rw [j.wellFormed.leased_of_lease (by rw [hg.lease]; simp)] at hs
    cases hs
  · rw [hg.lease] at hk
    cases hk
    exact hg.heldLeaseId
  · have hki : i.idempotencyKey = some k := by rw [hg.fields] at hkj; exact hkj
    have hti : i.isTerminal = false := WorkItem.not_isTerminal_iff.mpr (.inl hg.queued)
    exact hne (by rw [h.key a ha i hg.mem hta hti k hka hki, hg.workItemId])

theorem QueueInv.effect {op : QueueOp π} {r : Reply π} (h : QueueInv q)
    (he : Effect q op r q') : QueueInv q' := by
  cases he with
  | quiet he _ _ _ => exact h.edits he
  | create hc => exact h.create hc
  | grant he hg _ => exact (h.edits he).grant hg
  | prune _ hk => exact h.of_subset fun i hi => ((hk i).mp hi).1

/-! ## The effects of the in-memory queue's calls -/

namespace WorkQueue

theorem effect_step {q : WorkQueue π} (h : QueueInv q) (op : QueueOp π) :
    Effect q op (q.step op).1 (q.step op).2 := by
  -- a call that is neither `enqueue`, `lease` nor `prune` edits
  have quiet : ∀ {op r q'}, Edits q q' → (∀ w ttl now kinds, op ≠ .lease w ttl now kinds) →
      (∀ req, op ≠ .enqueue req) → (∀ before, op ≠ .prune before) → Effect q op r q' :=
    fun he hl hen hp => .quiet he (fun _ _ _ _ ho => absurd ho (hl _ _ _ _))
      (fun _ _ ho _ => absurd ho (hen _)) hp
  cases op with
  | enqueue r =>
    rcases enqueue_cases q r with ⟨i, k, hk, hf, he⟩ | ⟨j, hj, hc⟩ | ⟨e, he, hi⟩
    · simp only [step, he, Reply.ofItem]
      exact .quiet .refl (by simp) (quiet_enqueue hk hf) (by simp)
    · simp only [step, hj, Reply.ofItem]
      exact .create hc
    · simp only [step, he, Reply.ofItem]
      exact .quiet (.single (.regroup fun i => by rw [hi])) (by simp) (by simp) (by simp)
  | lease w ttl now kinds =>
    simp only [step, lease]
    cases normalizeAcceptedKinds kinds with
    | error e => exact .quiet .refl (fun _ _ _ _ _ => ⟨e, rfl⟩) (by simp) (by simp)
    | ok kindFilter =>
      have hs := h.edits (edits_expire q now)
      rcases grantNext_cases hs.left w ttl now kindFilter with
        ⟨i, j, l, -, hj, hw, hg, -⟩ | ⟨e, he, -⟩
      · simp only [hj, Reply.ofItem]
        exact .grant (edits_expire q now) hg hw
      · simp only [he, Reply.ofItem]
        exact .quiet (edits_expire q now) (fun _ _ _ _ _ => ⟨e, rfl⟩) (by simp) (by simp)
  | heartbeat l w ttl now => exact quiet (edits_heartbeat q l w ttl now) (by simp) (by simp) (by simp)
  | complete l w now => exact quiet (edits_complete q l w now) (by simp) (by simp) (by simp)
  | fail l w reason retry now => exact quiet (edits_fail q l w reason retry now) (by simp) (by simp) (by simp)
  | cancel id reason now => exact quiet (edits_cancel q id reason now) (by simp) (by simp) (by simp)
  | expire now => exact quiet (edits_expire q now) (by simp) (by simp) (by simp)
  | prune before => exact .prune (fun _ => mem_pruned) fun _ => mem_pruneTerminal
  | get id => exact quiet .refl (by simp) (by simp) (by simp)
  | list status => exact quiet .refl (by simp) (by simp) (by simp)
  | reopen => exact quiet .refl (by simp) (by simp) (by simp)

end WorkQueue

/-! ## Queues as machines with effects -/

/-- A queue implementation that starts empty, keeps `Inv`, and has an effect for every call
while `Inv` holds. -/
structure Effectful (m : Machine (WorkQueue π) (QueueOp π) (Reply π)) (Inv : WorkQueue π → Prop) :
    Prop where
  empty : ∀ i, i ∉ m.init.items
  init : Inv m.init
  effect : ∀ q op, Inv q → Effect q op (m.step q op).1 (m.step q op).2
  inv : ∀ q op, Inv q → Inv (m.step q op).2

variable {m : Machine (WorkQueue π) (QueueOp π) (Reply π)} {Inv : WorkQueue π → Prop}

/-- **The effect rule.** What holds of an empty queue and is kept by every effect of a step
that meets `C` holds after every run whose steps meet `C`. -/
theorem Effectful.induct
    (hm : Effectful m Inv)
    {C : List (QueueOp π × Reply π) → WorkQueue π → QueueOp π → Prop}
    (I : List (QueueOp π × Reply π) → WorkQueue π → Prop) (h0 : I [] m.init)
    (hs : ∀ h q op r q', I h q → C h q op → Inv q → Effect q op r q' → I (h ++ [(op, r)]) q')
    {ops : List (QueueOp π)} (hc : m.Meets C ops) : I (m.history ops) (m.state ops) :=
  (m.induct (fun h q => I h q ∧ Inv q) ⟨h0, hm.init⟩
    (fun h q op hi hc => ⟨hs h q op _ _ hi.1 hc hi.2 (hm.effect q op hi.2), hm.inv q op hi.2⟩)
    hc).1

theorem Effectful.always
    (hm : Effectful m Inv)
    (I : List (QueueOp π × Reply π) → WorkQueue π → Prop) (h0 : I [] m.init)
    (hs : ∀ h q op r q', I h q → Inv q → Effect q op r q' → I (h ++ [(op, r)]) q')
    (ops : List (QueueOp π)) : I (m.history ops) (m.state ops) :=
  hm.induct (C := fun _ _ _ => True) I h0 (fun h q op r q' hi _ => hs h q op r q' hi)
    fun _ _ _ _ => trivial

theorem Effectful.inv_state (hm : Effectful m Inv) (ops : List (QueueOp π)) : Inv (m.state ops) :=
  m.invariant Inv hm.init hm.inv ops

theorem memoryQueue_effectful : Effectful (memoryQueue π) QueueInv where
  empty := Table.not_mem_empty
  init := queueInv_new
  effect := fun _ op h => effect_step h op
  inv := fun _ op h => h.effect (effect_step h op)

theorem reachable_queueInv (ops : List (QueueOp π)) : QueueInv ((memoryQueue π).state ops) :=
  memoryQueue_effectful.inv_state ops

end UniversalAgent.Distributed
