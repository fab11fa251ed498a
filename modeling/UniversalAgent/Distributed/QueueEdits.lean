import UniversalAgent.Distributed.QueueMemory

/-!
# Distributed — QueueEdits

How calls change the items of the queue. Every method but `enqueue`, `lease` and
`prune_terminal` is a sequence of `Edit`s: an item replaced by a successor (`Move`), or the
items kept in another order. Edits neither add nor remove an item, and what else they keep
is `Kept`.
-/

namespace UniversalAgent.Distributed

open UniversalAgent.Foundation

variable {π : Type}

/-- Two records of one granted lease: a heartbeat changes only when it was last heard of and
when it runs out. -/
structure WorkerLease.SameGrant (k l : WorkerLease) : Prop where
  leaseId : l.leaseId = k.leaseId
  workerId : l.workerId = k.workerId
  leasedAt : l.leasedAt = k.leasedAt
  fencingToken : l.fencingToken = k.fencingToken

theorem WorkerLease.SameGrant.refl (l : WorkerLease) : l.SameGrant l := ⟨rfl, rfl, rfl, rfl⟩

theorem WorkerLease.SameGrant.trans {k l m : WorkerLease} (h : k.SameGrant l)
    (h' : l.SameGrant m) : k.SameGrant m :=
  ⟨h'.leaseId.trans h.leaseId, h'.workerId.trans h.workerId, h'.leasedAt.trans h.leasedAt,
    h'.fencingToken.trans h.fencingToken⟩

/-! ## Fields of the replacements -/

namespace WorkItem

@[simp] theorem completed_workItemId (i : WorkItem π) (t : Time) :
    (i.completed t).workItemId = i.workItemId := rfl
@[simp] theorem requeued_workItemId (i : WorkItem π) (r : String) (t : Time) :
    (i.requeued r t).workItemId = i.workItemId := rfl
@[simp] theorem failed_workItemId (i : WorkItem π) (r : String) (t : Time) :
    (i.failed r t).workItemId = i.workItemId := rfl
@[simp] theorem cancelled_workItemId (i : WorkItem π) (r : String) (t : Time) :
    (i.cancelled r t).workItemId = i.workItemId := rfl

@[simp] theorem completed_status (i : WorkItem π) (t : Time) :
    (i.completed t).status = .completed := rfl
@[simp] theorem requeued_status (i : WorkItem π) (r : String) (t : Time) :
    (i.requeued r t).status = .queued := rfl
@[simp] theorem failed_status (i : WorkItem π) (r : String) (t : Time) :
    (i.failed r t).status = .failed := rfl
@[simp] theorem cancelled_status (i : WorkItem π) (r : String) (t : Time) :
    (i.cancelled r t).status = .cancelled := rfl

@[simp] theorem completed_attempts (i : WorkItem π) (t : Time) :
    (i.completed t).attempts = i.attempts := rfl
@[simp] theorem requeued_attempts (i : WorkItem π) (r : String) (t : Time) :
    (i.requeued r t).attempts = i.attempts := rfl
@[simp] theorem failed_attempts (i : WorkItem π) (r : String) (t : Time) :
    (i.failed r t).attempts = i.attempts := rfl
@[simp] theorem cancelled_attempts (i : WorkItem π) (r : String) (t : Time) :
    (i.cancelled r t).attempts = i.attempts := rfl

/-- One change of an item's record other than a grant. Only a leased item moves, except
that `cancel` moves a queued one too. -/
inductive Move : WorkItem π → WorkItem π → Prop
  | renew {i j : WorkItem π} {l : WorkerLease} {now deadline : Time} (held : i.lease = some l)
      (fields : j.toWorkItemFields = { i.toWorkItemFields with
        lease := some { l with heartbeatAt := now, leaseExpiresAt := deadline } }) : Move i j
  | complete {i : WorkItem π} (leased : i.status = .leased) (now : Time) : Move i (i.completed now)
  | requeue {i : WorkItem π} (leased : i.status = .leased) (left : i.attempts < i.maxAttempts)
      (reason : String) (now : Time) : Move i (i.requeued reason now)
  | fail {i : WorkItem π} (leased : i.status = .leased) (reason : String) (now : Time) :
      Move i (i.failed reason now)
  | cancel {i : WorkItem π} (active : i.isTerminal = false) (reason : String) (now : Time) :
      Move i (i.cancelled reason now)

/-- Two records of one item between two of its leases: what was asked for is the same, as
is the number of attempts, and a lease there is was there before. -/
structure SameWork (i j : WorkItem π) : Prop where
  workItemId : j.workItemId = i.workItemId
  kind : j.kind = i.kind
  payload : j.payload = i.payload
  sessionId : j.sessionId = i.sessionId
  taskId : j.taskId = i.taskId
  actionId : j.actionId = i.actionId
  priority : j.priority = i.priority
  maxAttempts : j.maxAttempts = i.maxAttempts
  attempts : j.attempts = i.attempts
  idempotencyKey : j.idempotencyKey = i.idempotencyKey
  grant : ∀ l, j.lease = some l → ∃ k, i.lease = some k ∧ k.SameGrant l

theorem SameWork.refl (i : WorkItem π) : SameWork i i :=
  ⟨rfl, rfl, rfl, rfl, rfl, rfl, rfl, rfl, rfl, rfl, fun l hl => ⟨l, hl, .refl l⟩⟩

theorem SameWork.trans {i j k : WorkItem π} (h : SameWork i j) (h' : SameWork j k) :
    SameWork i k where
  workItemId := h'.workItemId.trans h.workItemId
  kind := h'.kind.trans h.kind
  payload := h'.payload.trans h.payload
  sessionId := h'.sessionId.trans h.sessionId
  taskId := h'.taskId.trans h.taskId
  actionId := h'.actionId.trans h.actionId
  priority := h'.priority.trans h.priority
  maxAttempts := h'.maxAttempts.trans h.maxAttempts
  attempts := h'.attempts.trans h.attempts
  idempotencyKey := h'.idempotencyKey.trans h.idempotencyKey
  grant := fun l hl => by
    obtain ⟨m, hm, hml⟩ := h'.grant l hl
    obtain ⟨n, hn, hnm⟩ := h.grant m hm
    exact ⟨n, hn, hnm.trans hml⟩

variable {i j : WorkItem π} {now : Time}

theorem sameWork_of_unleased (hl : j.lease = none)
    (h : j.workItemId = i.workItemId ∧ j.kind = i.kind ∧ j.payload = i.payload ∧
      j.sessionId = i.sessionId ∧ j.taskId = i.taskId ∧ j.actionId = i.actionId ∧
      j.priority = i.priority ∧ j.maxAttempts = i.maxAttempts ∧ j.attempts = i.attempts ∧
      j.idempotencyKey = i.idempotencyKey) : SameWork i j := by
  obtain ⟨h1, h2, h3, h4, h5, h6, h7, h8, h9, h10⟩ := h
  exact ⟨h1, h2, h3, h4, h5, h6, h7, h8, h9, h10, fun l hj => by rw [hl] at hj; cases hj⟩

theorem Move.sameWork (h : Move i j) : SameWork i j := by
  cases h with
  | renew hl hf =>
    refine ⟨by rw [hf], by rw [hf], by rw [hf], by rw [hf], by rw [hf], by rw [hf], by rw [hf],
      by rw [hf], by rw [hf], by rw [hf], fun k hk => ⟨_, hl, ?_⟩⟩
    rw [hf] at hk
    cases hk
    exact ⟨rfl, rfl, rfl, rfl⟩
  | complete =>
    exact sameWork_of_unleased rfl ⟨rfl, rfl, rfl, rfl, rfl, rfl, rfl, rfl, rfl, rfl⟩
  | requeue =>
    exact sameWork_of_unleased rfl ⟨rfl, rfl, rfl, rfl, rfl, rfl, rfl, rfl, rfl, rfl⟩
  | fail =>
    exact sameWork_of_unleased rfl ⟨rfl, rfl, rfl, rfl, rfl, rfl, rfl, rfl, rfl, rfl⟩
  | cancel =>
    exact sameWork_of_unleased rfl ⟨rfl, rfl, rfl, rfl, rfl, rfl, rfl, rfl, rfl, rfl⟩

theorem Move.workItemId (h : Move i j) : j.workItemId = i.workItemId :=
  h.sameWork.workItemId

theorem Move.active (h : Move i j) : i.isTerminal = false := by
  cases h with
  | renew hl _ => exact not_isTerminal_iff.mpr (.inr (i.leased_iff.mpr ⟨_, hl⟩))
  | complete hl => exact not_isTerminal_iff.mpr (.inr hl)
  | requeue hl => exact not_isTerminal_iff.mpr (.inr hl)
  | fail hl => exact not_isTerminal_iff.mpr (.inr hl)
  | cancel ha => exact ha

structure IsNew (i : WorkItem π) : Prop where
  status : i.status = .queued
  attempts : i.attempts = 0
  lease : i.lease = none

/-- The sweep changes an item only along a move out of its lease. -/
theorem expired?_move (h : i.expired? now = some j) : Move i j := by
  unfold expired? at h
  split at h
  · rename_i l hs _
    split at h
    · cases h
    · split at h
      · rename_i hlt
        cases h
        exact .requeue hs hlt _ _
      · cases h
        exact .fail hs _ _
  · cases h

theorem expired?_workItemId (h : i.expired? now = some j) :
    j.workItemId = i.workItemId := (expired?_move h).workItemId

theorem swept_workItemId (i : WorkItem π) (now : Time) : (i.swept now).workItemId = i.workItemId := by
  unfold swept
  cases h : i.expired? now with
  | none => rfl
  | some j => exact expired?_workItemId h

theorem expired?_ne_leased (h : i.expired? now = some j) : j.status ≠ .leased := by
  unfold expired? at h
  split at h
  · split at h
    · cases h
    · split at h <;> cases h <;> simp
  · cases h

/-- An item is swept exactly when it is leased and its lease has run out. -/
theorem expired?_isSome {i : WorkItem π} :
    (i.expired? now).isSome ↔ ∃ l, i.lease = some l ∧ l.leaseExpiresAt ≤ now := by
  constructor
  · intro h
    obtain ⟨j, hj⟩ := Option.isSome_iff_exists.mp h
    unfold expired? at hj
    split at hj
    · rename_i l _ hl
      split at hj
      · cases hj
      · rename_i hle
        exact ⟨l, hl, Int.not_lt.mp hle⟩
    · cases hj
  · rintro ⟨l, hl, hle⟩
    have hs := i.leased_iff.mpr ⟨l, hl⟩
    have hgt : ¬ l.leaseExpiresAt > now := Int.not_lt.mpr hle
    simp only [expired?, hs, hl, hgt, if_false]
    split <;> rfl

end WorkItem

/-! ## Edits -/

namespace WorkQueue

@[simp] theorem items_setItem (q : WorkQueue π) (i : WorkItem π) :
    (q.setItem i).items = q.items.put i := rfl
@[simp] theorem sequence_setItem (q : WorkQueue π) (i : WorkItem π) :
    (q.setItem i).sequence = q.sequence := rfl
@[simp] theorem fencingSequences_setItem (q : WorkQueue π) (i : WorkItem π) :
    (q.setItem i).fencingSequences = q.fencingSequences := rfl

/-- One change of the items, other than adding one, granting a lease or forgetting an item.
The counters of the queue are free to change. -/
inductive Edit : WorkQueue π → WorkQueue π → Prop
  | replace {q : WorkQueue π} {i j : WorkItem π} (mem : i ∈ q.items) (move : i.Move j) :
      Edit q (q.setItem j)
  | regroup {q q' : WorkQueue π} (items : ∀ i, i ∈ q'.items ↔ i ∈ q.items) : Edit q q'

abbrev Edits : WorkQueue π → WorkQueue π → Prop := Relation.ReflTransGen Edit

theorem foldl_setItem_items (l : List (WorkItem π)) (q : WorkQueue π) :
    (l.foldl setItem q).sequence = q.sequence ∧
      (l.foldl setItem q).fencingSequences = q.fencingSequences := by
  induction l generalizing q with
  | nil => exact ⟨rfl, rfl⟩
  | cons i l ih => exact ih (q.setItem i)

variable {q : WorkQueue π} {j : WorkItem π} {now : Time} {i : WorkItem π} {l : WorkerLease}

theorem mem_foldl_setItem {l : List (WorkItem π)}
    (hl : (l.map fun i => i.workItemId).Nodup) :
    j ∈ (l.foldl setItem q).items ↔
      j ∈ l ∨ (j ∈ q.items ∧ ∀ i ∈ l, j.workItemId ≠ i.workItemId) := by
  induction l generalizing q with
  | nil => simp
  | cons i l ih =>
    rw [List.map_cons, List.nodup_cons] at hl
    rw [List.foldl_cons, ih hl.2, items_setItem, Table.mem_put]
    constructor
    · rintro (hj | ⟨rfl | ⟨hj, hne⟩, hall⟩)
      · exact .inl (List.mem_cons_of_mem _ hj)
      · exact .inl List.mem_cons_self
      · exact .inr ⟨hj, fun k hk => (List.mem_cons.mp hk).elim (fun h => h ▸ hne) (hall k)⟩
    · rintro (hj | ⟨hj, hall⟩)
      · rcases List.mem_cons.mp hj with rfl | hj
        · exact .inr ⟨.inl rfl, fun k hk he => hl.1 (List.mem_map.mpr ⟨k, hk, he.symm⟩)⟩
        · exact .inl hj
      · exact .inr ⟨.inr ⟨hj, hall i List.mem_cons_self⟩,
          fun k hk => hall k (List.mem_cons_of_mem _ hk)⟩

theorem expired_nodup (q : WorkQueue π) (now : Time) :
    ((q.expire now).1.map fun i => i.workItemId).Nodup := by
  have hsub : ((q.expire now).1.map fun i => i.workItemId).Sublist
      (q.items.rows.map fun i => i.workItemId) := by
    simp only [expire]
    generalize q.items.rows = l
    induction l with
    | nil => exact List.Sublist.refl _
    | cons i l ih =>
      cases h : i.expired? now with
      | none =>
        simp only [List.filterMap_cons, h, List.map_cons]
        exact ih.cons _
      | some j =>
        simp only [List.filterMap_cons, h, List.map_cons, WorkItem.expired?_workItemId h]
        exact ih.cons_cons _
  exact q.items.nodup.sublist hsub

theorem mem_expired : j ∈ (q.expire now).1 ↔ ∃ i ∈ q.items, i.expired? now = some j := by
  simp [expire, List.mem_filterMap, Table.mem_def]

/-- The expiry sweep replaces every item by what it is after the sweep, and nothing else. -/
theorem mem_expire : j ∈ (q.expire now).2.items ↔ ∃ i ∈ q.items, j = i.swept now := by
  have hnd := expired_nodup q now
  have hmem : j ∈ (q.expire now).2.items ↔ j ∈ (q.expire now).1 ∨
      (j ∈ q.items ∧ ∀ i ∈ (q.expire now).1, j.workItemId ≠ i.workItemId) :=
    mem_foldl_setItem hnd
  rw [hmem, mem_expired]
  constructor
  · rintro (⟨i, hi, he⟩ | ⟨hj, hall⟩)
    · exact ⟨i, hi, by simp [WorkItem.swept, he]⟩
    · refine ⟨j, hj, ?_⟩
      cases he : j.expired? now with
      | none => simp [WorkItem.swept, he]
      | some k =>
        exact absurd (WorkItem.expired?_workItemId he).symm (hall k (mem_expired.mpr ⟨j, hj, he⟩))
  · rintro ⟨i, hi, rfl⟩
    cases he : i.expired? now with
    | some k => exact .inl ⟨i, hi, by simp [WorkItem.swept, he]⟩
    | none =>
      right
      simp only [WorkItem.swept, he, Option.getD_none]
      refine ⟨hi, fun k hk hid => ?_⟩
      obtain ⟨a, ha, hak⟩ := mem_expired.mp hk
      have : a = i := Table.eq_of_key ha hi
        (by rw [hid, WorkItem.expired?_workItemId hak])
      rw [this, he] at hak
      cases hak

@[simp] theorem expire_sequence (q : WorkQueue π) (now : Time) :
    (q.expire now).2.sequence = q.sequence := (foldl_setItem_items _ q).1

@[simp] theorem expire_fencingSequences (q : WorkQueue π) (now : Time) :
    (q.expire now).2.fencingSequences = q.fencingSequences := (foldl_setItem_items _ q).2

theorem expire_of_nil (h : (q.expire now).1 = []) : (q.expire now).2 = q := by
  have he : (q.expire now).2 = (q.expire now).1.foldl setItem q := rfl
  rw [he, h]
  rfl

/-- Replacing distinct items one after another is a sequence of edits. -/
theorem edits_foldl_setItem {l : List (WorkItem π)}
    (hl : (l.map fun i => i.workItemId).Nodup)
    (hm : ∀ j ∈ l, ∃ i ∈ q.items, i.Move j) : Edits q (l.foldl setItem q) := by
  induction l generalizing q with
  | nil => exact .refl
  | cons j l ih =>
    rw [List.map_cons, List.nodup_cons] at hl
    obtain ⟨i, hi, hij⟩ := hm j List.mem_cons_self
    refine .head (.replace hi hij) (ih hl.2 fun k hk => ?_)
    obtain ⟨a, ha, hak⟩ := hm k (List.mem_cons_of_mem _ hk)
    refine ⟨a, Table.mem_put.mpr (.inr ⟨ha, fun he => hl.1 (List.mem_map.mpr ⟨k, hk, ?_⟩)⟩), hak⟩
    rw [hak.workItemId, he]

theorem edits_expire (q : WorkQueue π) (now : Time) : Edits q (q.expire now).2 :=
  edits_foldl_setItem (expired_nodup q now) fun _ hj => by
    obtain ⟨i, hi, he⟩ := mem_expired.mp hj
    exact ⟨i, hi, WorkItem.expired?_move he⟩

/-! ## What a lease check finds -/

theorem onLease_some {leaseId : String}
    (h : q.onLease leaseId = some (i, l)) : i ∈ q.items ∧ i.lease = some l ∧ l.leaseId = leaseId := by
  obtain ⟨a, ha, hal⟩ := List.exists_of_findSome?_eq_some h
  split at hal
  · rename_i k _ hk
    split at hal
    · rename_i hid
      cases hal
      exact ⟨ha, hk, hid⟩
    · cases hal
  · cases hal

theorem onLease_none {leaseId : String} :
    q.onLease leaseId = none ↔ ∀ i ∈ q.items, ∀ l, i.lease = some l → l.leaseId ≠ leaseId := by
  unfold onLease
  rw [List.findSome?_eq_none_iff]
  refine forall₂_congr fun i _ => ?_
  cases hl : i.lease with
  | none => cases i.status <;> simp
  | some l =>
    rw [i.leased_iff.mpr ⟨l, hl⟩]
    simp

/-- The item found is on lease to the caller, under the lease id given, and the lease has
not run out. -/
theorem checkLease_found {leaseId w : String}
    (h : q.checkLease leaseId w now = .found i l) :
    i ∈ q.items ∧ i.lease = some l ∧ l.leaseId = leaseId ∧ l.workerId = w ∧
      now < l.leaseExpiresAt := by
  unfold checkLease at h
  split at h
  · cases h
  rename_i a k ha
  split at h
  · cases h
  rename_i hw
  split at h
  · cases h
  rename_i hexp
  cases h
  obtain ⟨hm, hl, hid⟩ := onLease_some ha
  exact ⟨hm, hl, hid, not_not.mp hw, Int.not_le.mp hexp⟩

/-! ## Every method is a sequence of edits -/

theorem edits_withLeasedItem {leaseId w : String}
    {body : WorkItem π → WorkerLease → Outcome (WorkQueue π) (WorkItem π)}
    (h : ∀ i l, i ∈ q.items → i.lease = some l → Edits q (body i l).2) :
    Edits q (q.withLeasedItem leaseId w now body).2 := by
  unfold withLeasedItem
  split
  · rename_i i l hc
    obtain ⟨hm, hl, -⟩ := checkLease_found hc
    exact h i l hm hl
  · exact edits_expire q now
  · exact .refl

theorem edits_renew {ttl : ℚ}
    (hm : i ∈ q.items) (hl : i.lease = some l) : Edits q (q.renew ttl now i l).2 := by
  unfold renew
  split
  · exact .refl
  split
  · exact .refl
  · rename_i j hj
    exact .single (.replace hm (.renew hl (WorkItem.make_eq_ok.mp hj)))

/-- A heartbeat that is refused for its ttl changes nothing. -/
theorem renew_error {ttl : ℚ}
    {e : QueueError} (h : (q.renew ttl now i l).1 = .error e) : (q.renew ttl now i l).2 = q := by
  unfold renew at h ⊢
  split
  · rfl
  · rename_i deadline hd
    simp only [hd] at h
    split
    · rfl
    · rename_i j hj
      simp only [hj] at h
      cases h

theorem edits_heartbeat (q : WorkQueue π) (leaseId w : String) (ttl : ℚ) (now : Time) :
    Edits q (q.heartbeat leaseId w ttl now).2 :=
  edits_withLeasedItem fun _ _ hm hl => edits_renew hm hl

theorem edits_complete (q : WorkQueue π) (leaseId w : String) (now : Time) :
    Edits q (q.complete leaseId w now).2 :=
  edits_withLeasedItem fun i l hm hl =>
    .single (.replace hm (.complete (i.leased_iff.mpr ⟨l, hl⟩) now))

theorem failure_move (h : i.status = .leased) (reason : String) (retry : Bool)
    (now : Time) : i.Move (failure i reason retry now) := by
  unfold failure
  split
  · rename_i hr
    exact .requeue h hr.2 reason now
  · exact .fail h reason now

theorem edits_fail (q : WorkQueue π) (leaseId w reason : String) (retry : Bool) (now : Time) :
    Edits q (q.fail leaseId w reason retry now).2 := by
  unfold fail
  split
  · exact .refl
  · exact edits_withLeasedItem fun i l hm hl =>
      .single (.replace hm (failure_move (i.leased_iff.mpr ⟨l, hl⟩) reason retry now))

theorem get_eq_ok {id : String} : q.get id = .ok i ↔ i ∈ q.items ∧ i.workItemId = id := by
  rw [← Table.get?_eq_some]
  unfold get
  cases q.items.get? id <;> simp

theorem edits_cancel (q : WorkQueue π) (id reason : String) (now : Time) :
    Edits q (q.cancel id reason now).2 := by
  unfold cancel
  split
  · exact .refl
  split
  · exact .refl
  rename_i i hi
  unfold cancelItem
  split
  · exact .refl
  · rename_i ht
    exact .single (.replace (get_eq_ok.mp hi).1 (.cancel (by simpa using ht) reason now))

/-! ## What edits keep -/

structure Kept (q q' : WorkQueue π) : Prop where
  survives : ∀ i ∈ q.items, ∃ j ∈ q'.items, i.SameWork j
  origin : ∀ j ∈ q'.items, ∃ i ∈ q.items, i.SameWork j
  terminal : ∀ i ∈ q.items, i.isTerminal = true → i ∈ q'.items

theorem Edit.kept {q q' : WorkQueue π} (h : Edit q q') : Kept q q' := by
  cases h with
  | @replace i j hi hm =>
    refine ⟨fun a ha => ?_, fun b hb => ?_, fun a ha ht => ?_⟩
    · by_cases hid : a.workItemId = j.workItemId
      · have hai : a = i := Table.eq_of_key ha hi (hid.trans hm.workItemId)
        exact ⟨j, Table.mem_put_self _ _, hai ▸ hm.sameWork⟩
      · exact ⟨a, Table.mem_put.mpr (.inr ⟨ha, hid⟩), .refl a⟩
    · rcases Table.mem_put.mp hb with rfl | ⟨hb, -⟩
      · exact ⟨i, hi, hm.sameWork⟩
      · exact ⟨b, hb, .refl b⟩
    · refine Table.mem_put.mpr (.inr ⟨ha, fun hid => ?_⟩)
      have : a = i := Table.eq_of_key ha hi (hid.trans hm.workItemId)
      rw [this, hm.active] at ht
      cases ht
  | regroup h =>
    exact ⟨fun a ha => ⟨a, (h a).mpr ha, .refl a⟩, fun b hb => ⟨b, (h b).mp hb, .refl b⟩,
      fun a ha _ => (h a).mpr ha⟩

theorem Kept.refl (q : WorkQueue π) : Kept q q :=
  ⟨fun a ha => ⟨a, ha, .refl a⟩, fun b hb => ⟨b, hb, .refl b⟩, fun _ ha _ => ha⟩

theorem Kept.trans {q₁ q₂ q₃ : WorkQueue π} (h : Kept q₁ q₂) (h' : Kept q₂ q₃) : Kept q₁ q₃ := by
  refine ⟨fun a ha => ?_, fun c hc => ?_,
    fun a ha ht => h'.terminal a (h.terminal a ha ht) ht⟩
  · obtain ⟨b, hb, hab⟩ := h.survives a ha
    obtain ⟨c, hc, hbc⟩ := h'.survives b hb
    exact ⟨c, hc, hab.trans hbc⟩
  · obtain ⟨b, hb, hbc⟩ := h'.origin c hc
    obtain ⟨a, ha, hab⟩ := h.origin b hb
    exact ⟨a, ha, hab.trans hbc⟩

theorem Edits.kept {q q' : WorkQueue π} (h : Edits q q') : Kept q q' := by
  induction h with
  | refl => exact Kept.refl q
  | tail _ he ih => exact ih.trans he.kept

theorem Kept.held_iff {q q' : WorkQueue π} (h : Kept q q') (id : String) :
    (∃ i ∈ q.items, i.workItemId = id) ↔ ∃ j ∈ q'.items, j.workItemId = id := by
  constructor
  · rintro ⟨i, hi, rfl⟩
    obtain ⟨j, hj, hij⟩ := h.survives i hi
    exact ⟨j, hj, hij.workItemId⟩
  · rintro ⟨j, hj, rfl⟩
    obtain ⟨i, hi, hij⟩ := h.origin j hj
    exact ⟨i, hi, hij.workItemId.symm⟩

end WorkQueue

end UniversalAgent.Distributed
