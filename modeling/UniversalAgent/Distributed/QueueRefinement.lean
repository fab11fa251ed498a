import UniversalAgent.Distributed.QueueMirror
import UniversalAgent.Distributed.QueueFencing
import UniversalAgent.Distributed.QueueAliasing

/-!
# Distributed — QueueRefinement

When the durable queues answer as the in-memory queue does.

The stored queue of a backend mirrors the in-memory queue as long as every call meets
`Agrees`: a generated id comes from an id counter that stands at the greatest number among
the items there are, the new item can be written, and the items that expire stand in the
order the rows load in. `lease` has conditions of its own.
-/

namespace UniversalAgent.Distributed

open UniversalAgent.Foundation WorkQueue

variable {π : Type} {b : Backend π} {g : Nat → Nat}

/-! ## The conditions on a call -/

/-- The condition on `enqueue`, for a request that no active item answers and that is valid
as to its kind and its attempts. -/
def EnqueueAgrees (b : Backend π) (q : WorkQueue π) (r : EnqueueRequest π) : Prop :=
  (q.existing r).isNone = true → Text.isBlank r.kind = false → 0 < r.maxAttempts →
    (r.workItemId.getD "" = "" → q.sequence = maxSequence q.items.rows) ∧
      ∀ j ∈ (WorkItem.make (newFields r (q.chooseWorkItemId r.workItemId).1)).toOption,
        (q.items.get? j.workItemId).isNone = true → b.refusal j = none

/-- The condition on `expire`. -/
def ExpireAgrees (b : Backend π) (q : WorkQueue π) (now : Time) : Prop :=
  (q.items.rows.filter fun i => (i.expired? now).isSome).Pairwise fun i j => b.rowOrder i j = true

/-- The conditions on the calls other than `lease`. -/
def Agrees (b : Backend π) (q : WorkQueue π) : QueueOp π → Prop
  | .enqueue r => EnqueueAgrees b q r
  | .expire now => ExpireAgrees b q now
  | _ => True

/-- The condition on `lease` for the file queue: the leases of the item it grants one on were
all granted since the queue was last opened. -/
def FileAgrees (c : StorageCodec π) (h : List (QueueOp π × Reply π)) (q : WorkQueue π) :
    QueueOp π → Prop
  | .lease _ ttl now kinds => 0 < ttl → ∀ i ∈ q.leaseTarget now kinds,
      leaseCount i.workItemId h = leaseCountSinceOpen i.workItemId h
  | op => Agrees (fileBackend c) q op

/-- The condition on `lease` for the SQLite queue, tokens apart: where there is an item to
lease and a lease that has run out, the duration is positive. -/
def SqliteAgrees (c : StorageCodec π) (q : WorkQueue π) : QueueOp π → Prop
  | .lease _ ttl now kinds => (q.leaseTarget now kinds).isSome = true →
      (q.items.rows.filter fun i => (i.expired? now).isSome) ≠ [] → 0 < ttl
  | op => Agrees (sqliteBackend c) q op

/-- The condition on `lease` for the SQLite queue to answer the same, tokens included: it
grants nothing. -/
def SqliteGrantsNone (q : WorkQueue π) : QueueOp π → Prop
  | .lease _ ttl now kinds => 0 < ttl → q.leaseTarget now kinds = none
  | _ => True

instance (q : WorkQueue π) (r : EnqueueRequest π) : Decidable (EnqueueAgrees b q r) :=
  inferInstanceAs (Decidable
    ((q.existing r).isNone = true → Text.isBlank r.kind = false → 0 < r.maxAttempts →
      (r.workItemId.getD "" = "" → q.sequence = maxSequence q.items.rows) ∧
        ∀ j ∈ (WorkItem.make (newFields r (q.chooseWorkItemId r.workItemId).1)).toOption,
          (q.items.get? j.workItemId).isNone = true → b.refusal j = none))

instance (q : WorkQueue π) (now : Time) : Decidable (ExpireAgrees b q now) :=
  inferInstanceAs (Decidable ((q.items.rows.filter fun i => (i.expired? now).isSome).Pairwise
    fun i j => b.rowOrder i j = true))

instance (q : WorkQueue π) : ∀ op, Decidable (Agrees b q op)
  | .enqueue r => inferInstanceAs (Decidable (EnqueueAgrees b q r))
  | .expire now => inferInstanceAs (Decidable (ExpireAgrees b q now))
  | .lease .. | .heartbeat .. | .complete .. | .fail .. | .cancel .. | .prune _ | .get _ | .list _
  | .reopen => .isTrue trivial

instance (c : StorageCodec π) (h : List (QueueOp π × Reply π)) (q : WorkQueue π) :
    ∀ op, Decidable (FileAgrees c h q op)
  | .lease _ ttl now kinds => inferInstanceAs (Decidable (0 < ttl →
      ∀ i ∈ q.leaseTarget now kinds, leaseCount i.workItemId h = leaseCountSinceOpen i.workItemId h))
  | .enqueue r => inferInstanceAs (Decidable (Agrees (fileBackend c) q (.enqueue r)))
  | .expire now => inferInstanceAs (Decidable (Agrees (fileBackend c) q (.expire now)))
  | .heartbeat .. | .complete .. | .fail .. | .cancel .. | .prune _ | .get _ | .list _ | .reopen =>
    .isTrue trivial

instance (c : StorageCodec π) (q : WorkQueue π) : ∀ op, Decidable (SqliteAgrees c q op)
  | .lease _ ttl now kinds => inferInstanceAs (Decidable
      ((q.leaseTarget now kinds).isSome = true → _ ≠ [] → 0 < ttl))
  | .enqueue r => inferInstanceAs (Decidable (Agrees (sqliteBackend c) q (.enqueue r)))
  | .expire now => inferInstanceAs (Decidable (Agrees (sqliteBackend c) q (.expire now)))
  | .heartbeat .. | .complete .. | .fail .. | .cancel .. | .prune _ | .get _ | .list _ | .reopen =>
    .isTrue trivial

instance (q : WorkQueue π) : ∀ op, Decidable (SqliteGrantsNone q op)
  | .lease _ ttl now kinds => inferInstanceAs (Decidable (0 < ttl → q.leaseTarget now kinds = none))
  | .enqueue _ | .heartbeat .. | .complete .. | .fail .. | .cancel .. | .expire _ | .prune _
  | .get _ | .list _ | .reopen => .isTrue trivial

/-! ## Answers -/

theorem Reply.mapToken_ofItem (x : Except QueueError (WorkItem π)) :
    (Reply.ofItem x).mapToken g = Reply.ofItem (x.map (WorkItem.mapToken g)) := by
  cases x <;> rfl

theorem WorkItem.mapToken_id (i : WorkItem π) : i.mapToken id = i := by
  refine WorkItem.ext_fields ?_
  have h : i.lease.map (WorkerLease.mapToken id) = i.lease := by
    cases i.lease <;> rfl
  simp only [WorkItem.mapToken, h]

theorem Reply.mapToken_id (r : Reply π) : r.mapToken id = r := by
  cases r with
  | item i => exact congrArg Reply.item i.mapToken_id
  | items is =>
    refine congrArg Reply.items ?_
    rw [show (WorkItem.mapToken id : WorkItem π → WorkItem π) = id from
      funext WorkItem.mapToken_id, List.map_id]
  | done => rfl
  | raised e => rfl

/-! ## One call -/

namespace Mirrors

variable {q v : WorkQueue π}

theorem reload (h : Mirrors g q v) : Mirrors g q (b.reload v) :=
  h.congr rfl (List.perm_insertionSort _ _)

theorem existing (h : Mirrors g q v) (hq : QueueInv q) (r : EnqueueRequest π) :
    v.existing r = (q.existing r).map (WorkItem.mapToken g) := by
  unfold WorkQueue.existing
  cases r.idempotencyKey with
  | none => rfl
  | some k => exact h.findIdempotent hq k

theorem maxSequence_eq (h : Mirrors g q v) : maxSequence v.items.rows = maxSequence q.items.rows := by
  unfold maxSequence
  have hmap : q.items.rows.foldr (fun i n => max (sequenceFromWorkItemId i.workItemId) n) 0
      = (q.items.rows.map (WorkItem.mapToken g)).foldr
          (fun i n => max (sequenceFromWorkItemId i.workItemId) n) 0 := by
    rw [List.foldr_map]
    rfl
  rw [hmap]
  have : LeftCommutative fun (i : WorkItem π) (n : Nat) =>
      max (sequenceFromWorkItemId i.workItemId) n := ⟨fun a b n => max_left_comm _ _ _⟩
  exact List.Perm.foldr_eq h 0

/-- The items that expire, in the order of the rows. -/
theorem expired_eq (hb : b.Lawful)
    (hrow : ∀ i j : WorkItem π, b.rowOrder (i.mapToken g) (j.mapToken g) = b.rowOrder i j)
    (h : Mirrors g q v) (hv : StoredInv b v) {now : Time} (hc : ExpireAgrees b q now) :
    (v.expire now).1 = (q.expire now).1.map (WorkItem.mapToken g) := by
  have hfilter : ∀ l : List (WorkItem π), l.filterMap (fun i => i.expired? now)
      = (l.filter fun i => (i.expired? now).isSome).filterMap fun i => i.expired? now := by
    intro l
    rw [List.filterMap_filter]
    refine List.filterMap_congr fun i _ => ?_
    cases i.expired? now <;> rfl
  have hrows : v.items.rows.filter (fun i => (i.expired? now).isSome)
      = (q.items.rows.filter fun i => (i.expired? now).isSome).map (WorkItem.mapToken g) := by
    have hp : (v.items.rows.filter fun i => (i.expired? now).isSome).Perm
        ((q.items.rows.filter fun i => (i.expired? now).isSome).map (WorkItem.mapToken g)) := by
      have hmap : (q.items.rows.filter fun i => (i.expired? now).isSome).map (WorkItem.mapToken g)
          = (q.items.rows.map (WorkItem.mapToken g)).filter fun i => (i.expired? now).isSome := by
        rw [List.filter_map]
        congr 1
        refine List.filter_congr fun i _ => ?_
        simp only [Function.comp_apply, WorkItem.mapToken_expired?, Option.isSome_map]
      rw [hmap]
      exact List.Perm.filter _ h
    have hcanon : v.items.arrange b.rowOrder = v.items := congrArg WorkQueue.items hv.canonical
    have hv' : (v.items.rows.filter fun i => (i.expired? now).isSome).Pairwise
        fun i j => b.rowOrder i j = true := by
      have := hb.pairwise v.items
      rw [hcanon] at this
      exact this.filter _
    have hq' : ((q.items.rows.filter fun i => (i.expired? now).isSome).map
        (WorkItem.mapToken g)).Pairwise fun i j => b.rowOrder i j = true :=
      List.pairwise_map.mpr (List.Pairwise.imp (fun hij => (hrow _ _).trans hij) hc)
    refine List.Perm.eq_of_pairwise (fun i j hi hj hij hji => ?_) hv' hq' hp
    have hi' : i ∈ v.items := List.mem_of_mem_filter hi
    have hj' : j ∈ v.items := List.mem_of_mem_filter (hp.mem_iff.mpr hj)
    exact Table.eq_of_key hi' hj' (hb.antisymm i j hij hji)
  rw [WorkQueue.expire, WorkQueue.expire]
  simp only
  rw [hfilter v.items.rows, hrows, hfilter q.items.rows, List.filterMap_map, List.map_filterMap]
  exact List.filterMap_congr fun i _ => WorkItem.mapToken_expired? i now

theorem isBlank_generated (n : Nat) : Text.isBlank ("work-" ++ toString n) = false := by
  unfold Text.isBlank
  rw [String.toList_append, List.all_append, show "work-".toList.all Text.isSpace = false by decide,
    Bool.false_and]

/-- A request that is invalid as to its kind or its attempts is refused under every generated
id, with one error. -/
theorem make_invalid {r : EnqueueRequest π} (hr : ¬ (Text.isBlank r.kind = false ∧ 0 < r.maxAttempts)) :
    ∃ e, ∀ n : Nat, WorkItem.make (newFields r ("work-" ++ toString n)) = .error e := by
  have hid : ∀ n : Nat, parseNonEmptyString ("work-" ++ toString n) "work_item_id" = .ok () :=
    fun n => parseNonEmptyString_eq_ok.mpr (isBlank_generated n)
  cases hk : Text.isBlank r.kind with
  | true =>
    refine ⟨.valueError "work item kind must not be empty", fun n =>
      WorkItem.make_eq_error.mpr ?_⟩
    simp only [WorkItemFields.postInit, newFields, hid, bind, Except.bind]
    simp only [parseNonEmptyString, hk, if_true]
    rfl
  | false =>
    have hm : r.maxAttempts ≤ 0 := Int.not_lt.mp fun h => hr ⟨hk, h⟩
    refine ⟨.valueError "max_attempts must be positive", fun n => WorkItem.make_eq_error.mpr ?_⟩
    simp only [WorkItemFields.postInit, newFields, hid, bind, Except.bind]
    simp only [parseNonEmptyString, hk, Bool.false_eq_true, if_false, hm, if_true]
    rfl

/-- The id a request gets: its own, or the next generated one. -/
theorem chooseWorkItemId_cases (q : WorkQueue π) (id : Option String) :
    (id.getD "" = "" ∧ (q.chooseWorkItemId id).1 = "work-" ++ toString (q.sequence + 1)) ∨
      (id.getD "" ≠ "" ∧ (q.chooseWorkItemId id).1 = id.getD "") := by
  unfold chooseWorkItemId nextWorkItemId
  cases id with
  | none => exact .inl ⟨rfl, rfl⟩
  | some id =>
    by_cases h : id = ""
    · exact .inl ⟨h, by simp [h]⟩
    · exact .inr ⟨h, by simp [h]⟩

theorem insertNew_make_error {q : WorkQueue π} {r : EnqueueRequest π} {e : QueueError}
    (h : WorkItem.make (newFields r (q.chooseWorkItemId r.workItemId).1) = .error e) :
    (q.insertNew r).1 = .error e := by
  unfold WorkQueue.insertNew
  rcases hq : q.chooseWorkItemId r.workItemId with ⟨id, q₁⟩
  rw [hq] at h
  simp only [h]

theorem enqueue_agrees (h : Mirrors g q v) (hq : QueueInv q) (hv : StoredInv b v)
    {r : EnqueueRequest π} (hc : EnqueueAgrees b q r) :
    (b.enqueue v r).1 = (q.enqueue r).1.map (WorkItem.mapToken g) ∧
      Mirrors g (q.enqueue r).2 (b.enqueue v r).2 := by
  cases hex : q.existing r with
  | some i =>
    have hexv := h.existing hq r
    rw [hex, Option.map_some] at hexv
    obtain ⟨k, -, hf⟩ := existing_eq_some.mp hexv
    have hqe : q.enqueue r = (.ok i, q) := by simp only [WorkQueue.enqueue, hex]
    have hve : v.enqueue r = (.ok (i.mapToken g), v) := by simp only [WorkQueue.enqueue, hexv]
    simp only [hqe, Backend.enqueue, hve, hv.storable _ (findIdempotent_some hf).1, hv.canonical]
    exact ⟨rfl, h⟩
  | none =>
    have hexv := h.existing hq r
    rw [hex, Option.map_none] at hexv
    have hqe : q.enqueue r = q.insertNew r := by simp only [WorkQueue.enqueue, hex]
    have hve : v.enqueue r = v.insertNew r := by simp only [WorkQueue.enqueue, hexv]
    -- an error leaves both queues their items
    have herror : ∀ e, (q.insertNew r).1 = .error e → (v.insertNew r).1 = .error e →
        (b.enqueue v r).1 = (q.enqueue r).1.map (WorkItem.mapToken g) ∧
          Mirrors g (q.enqueue r).2 (b.enqueue v r).2 := by
      intro e he hev
      have hitems := (insertNew_frame q r).2 e he
      have hb : b.enqueue v r = (.error e, v) := by
        unfold Backend.enqueue
        rcases hvr : v.enqueue r with ⟨res, v'⟩
        rw [hve] at hvr
        rw [hvr] at hev
        simp only at hev
        subst hev
        rfl
      rw [hb, hqe, he]
      exact ⟨rfl, h.congr hitems (.refl _)⟩
    have hc' := hc (by rw [hex]; rfl)
    by_cases hagree : (v.chooseWorkItemId r.workItemId).1 = (q.chooseWorkItemId r.workItemId).1
    · obtain ⟨hres, hmir⟩ := h.insertNew r hagree
      rcases hqi : q.insertNew r with ⟨res, q'⟩
      rw [hqi] at hres hmir
      cases res with
      | error e => exact herror e (by rw [hqi]) hres
      | ok j =>
        have hcr := insertNew_ok (existing_eq_none.mp hex) hqi
        have hj : j.mapToken g = j := WorkItem.mapToken_of_unleased hcr.isNew.lease
        have hmake : WorkItem.make (newFields r (q.chooseWorkItemId r.workItemId).1) = .ok j :=
          WorkItem.make_eq_ok.mpr (hcr.workItemId ▸ hcr.fields)
        have hkind : Text.isBlank r.kind = false := by
          have := j.wellFormed.kind
          rwa [hcr.fields] at this
        have hmax : 0 < r.maxAttempts := by
          have := j.wellFormed.maxAttempts
          rwa [hcr.fields] at this
        have hfree : (q.items.get? j.workItemId).isNone = true := by
          rw [Table.get?_eq_none.mpr hcr.fresh]
          rfl
        have hr : b.refusal j = none :=
          (hc' hkind hmax).2 j (by simp [hmake, Except.toOption]) hfree
        rcases hvi : v.insertNew r with ⟨resv, v'⟩
        rw [hvi] at hres hmir
        simp only [Except.map, hj] at hres
        subst hres
        simp only [Backend.enqueue, hve, hqe, hvi, hqi, hr, Except.map, hj]
        exact ⟨trivial, hmir.reload⟩
    · -- the ids differ, so both are generated and the request is invalid
      rcases chooseWorkItemId_cases q r.workItemId with ⟨hgen, hqid⟩ | ⟨hne, hqid⟩
      · rcases chooseWorkItemId_cases v r.workItemId with ⟨-, hvid⟩ | ⟨hne, -⟩
        · have hinv : ¬ (Text.isBlank r.kind = false ∧ 0 < r.maxAttempts) := by
            rintro ⟨hkind, hmax⟩
            have hseq := (hc' hkind hmax).1 hgen
            apply hagree
            rw [hqid, hvid, hseq, DurableQueue.canonical_sequence hv.canonical, h.maxSequence_eq]
          obtain ⟨e, he⟩ := make_invalid hinv
          exact herror e (insertNew_make_error (hqid ▸ he _)) (insertNew_make_error (hvid ▸ he _))
        · exact absurd hgen hne
      · rcases chooseWorkItemId_cases v r.workItemId with ⟨hgen, -⟩ | ⟨-, hvid⟩
        · exact absurd hgen hne
        · exact absurd (hvid.trans hqid.symm) hagree

/-- **One call other than `lease`** on a stored queue that mirrors the in-memory one. -/
theorem step_agrees (hb : b.Lawful)
    (hrow : ∀ i j : WorkItem π, b.rowOrder (i.mapToken g) (j.mapToken g) = b.rowOrder i j)
    (h : Mirrors g q v) (hq : QueueInv q) (hv : StoredInv b v) {op : QueueOp π}
    (hl : ∀ w ttl now kinds, op ≠ .lease w ttl now kinds) (hc : Agrees b q op) :
    (b.step v op).1 = (q.step op).1.mapToken g ∧ Mirrors g (q.step op).2 (b.step v op).2 := by
  -- a method that answers alike on mirrors
  have item : ∀ {r r' : Outcome (WorkQueue π) (WorkItem π)},
      r'.1 = r.1.map (WorkItem.mapToken g) ∧ Mirrors g r.2 r'.2 →
      Reply.ofItem r'.1 = (Reply.ofItem r.1).mapToken g ∧ Mirrors g r.2 (b.reload r'.2) :=
    fun hr => ⟨by rw [hr.1, Reply.mapToken_ofItem], hr.2.reload⟩
  cases op with
  | enqueue r =>
    obtain ⟨hans, hmir⟩ := h.enqueue_agrees hq hv hc
    exact ⟨by simp only [Backend.step, WorkQueue.step, hans, Reply.mapToken_ofItem], hmir⟩
  | lease w ttl now kinds => exact absurd rfl (hl w ttl now kinds)
  | heartbeat l w ttl now => exact item (h.heartbeat hq l w ttl now)
  | complete l w now => exact item (h.complete hq l w now)
  | fail l w reason retry now => exact item (h.fail hq l w reason retry now)
  | cancel id reason now => exact item (h.cancel id reason now)
  | get id =>
    have hr : (v.get id, v).1 = (q.get id, q).1.map (WorkItem.mapToken g) ∧
      Mirrors g (q.get id, q).2 (v.get id, v).2 := ⟨h.get id, h⟩
    exact item hr
  | expire now =>
    refine ⟨?_, (h.expire now).reload⟩
    change Reply.items (v.expire now).1 = Reply.items ((q.expire now).1.map (WorkItem.mapToken g))
    rw [h.expired_eq hb hrow hv hc]
  | prune before =>
    obtain ⟨hans, hmir⟩ := h.prune before
    exact ⟨congrArg Reply.items hans, hmir.reload⟩
  | list status => exact ⟨congrArg Reply.items (h.list status), h.reload⟩
  | reopen => exact ⟨rfl, h.congr rfl (.refl _)⟩

/-! ## Leases -/

theorem leaseDeadline_isOk {now : Time} {ttl : ℚ} {t : Time} (h : leaseDeadline now ttl = .ok t) :
    0 < ttl := by
  unfold leaseDeadline at h
  split at h
  · cases h
  · rename_i hle
    exact not_le.mp hle

/-- Two leases that differ in the token by `g` put mirroring items on lease. -/
theorem withLease_mapToken (i : WorkItem π) (l : WorkerLease) :
    (i.mapToken g).withLease (l.mapToken g) = (i.withLease l).map (WorkItem.mapToken g) :=
  WorkItem.make_mapToken rfl

/-- The grant of the file queue, when the counters agree on the item it is for. -/
theorem grantNext (h : Mirrors g q v) (w : String) (ttl : ℚ) (now : Time)
    (kinds : Option (List String))
    (ht : 0 < ttl → ∀ i ∈ q.nextLeaseable now kinds,
      v.fencingSequences.count i.workItemId + 1 = g (q.fencingSequences.count i.workItemId + 1)) :
    (v.grantNext w ttl now kinds).1 = (q.grantNext w ttl now kinds).1.map (WorkItem.mapToken g) ∧
      Mirrors g (q.grantNext w ttl now kinds).2 (v.grantNext w ttl now kinds).2 := by
  unfold WorkQueue.grantNext
  rw [h.nextLeaseable]
  cases hn : q.nextLeaseable now kinds with
  | none => exact ⟨rfl, h⟩
  | some i =>
    simp only [Option.map_some]
    cases hd : leaseDeadline now ttl with
    | error e => exact ⟨rfl, h⟩
    | ok deadline =>
      have htok := ht (leaseDeadline_isOk hd) i hn
      have hm := withLease_mapToken (g := g) i
        ⟨i.nextLeaseId, w, now, deadline, now, q.fencingSequences.count i.workItemId + 1⟩
      simp only [nextFencingToken, WorkItem.mapToken_workItemId, WorkItem.mapToken_nextLeaseId,
        htok]
      simp only [WorkerLease.mapToken] at hm
      rw [hm]
      cases i.withLease _ with
      | error e => exact ⟨rfl, h.congr rfl (.refl _)⟩
      | ok j => exact ⟨rfl, h.put rfl rfl⟩

theorem lease_agrees (h : Mirrors g q v) (w : String) (ttl : ℚ) (now : Time)
    (kinds : Option (List String))
    (ht : 0 < ttl → ∀ i ∈ q.leaseTarget now kinds,
      v.fencingSequences.count i.workItemId + 1 = g (q.fencingSequences.count i.workItemId + 1)) :
    (v.lease w ttl now kinds).1 = (q.lease w ttl now kinds).1.map (WorkItem.mapToken g) ∧
      Mirrors g (q.lease w ttl now kinds).2 (v.lease w ttl now kinds).2 := by
  unfold WorkQueue.lease
  unfold leaseTarget at ht
  cases hk : normalizeAcceptedKinds kinds with
  | error e => exact ⟨rfl, h⟩
  | ok kindFilter =>
    rw [hk] at ht
    refine (h.expire now).grantNext w ttl now kindFilter fun hpos i hi => ?_
    rw [expire_fencingSequences, expire_fencingSequences]
    exact ht hpos i hi

/-- The lease of the SQLite queue, where `g` sends the tokens it would be granted under to
the default one. -/
theorem sqliteLease_agrees (h : Mirrors g q v) (hq : QueueInv q) (w : String) (ttl : ℚ) (now : Time)
    (kinds : Option (List String))
    (hback : (q.leaseTarget now kinds).isSome = true →
      (q.items.rows.filter fun i => (i.expired? now).isSome) ≠ [] → 0 < ttl)
    (ht : 0 < ttl → ∀ i ∈ q.leaseTarget now kinds,
      g (q.fencingSequences.count i.workItemId + 1) = 0) :
    (sqliteLease v w ttl now kinds).1 = (q.lease w ttl now kinds).1.map (WorkItem.mapToken g) ∧
      Mirrors g (q.lease w ttl now kinds).2 (sqliteLease v w ttl now kinds).2 := by
  unfold WorkQueue.lease sqliteLease
  unfold leaseTarget at ht hback
  cases hk : normalizeAcceptedKinds kinds with
  | error e => exact ⟨rfl, h⟩
  | ok kindFilter =>
    rw [hk] at ht hback
    simp only at ht hback
    have hx := h.expire now
    simp only [hx.nextLeaseable]
    unfold WorkQueue.grantNext
    cases hn : (q.expire now).2.nextLeaseable now kindFilter with
    | none => exact ⟨rfl, hx⟩
    | some i =>
      simp only [Option.map_some]
      cases hd : leaseDeadline now ttl with
      | error e =>
        -- a refused duration undoes the sweep, which then swept nothing
        have hnil : (q.items.rows.filter fun i => (i.expired? now).isSome) = [] := by
          by_contra hne
          have hpos := hback (by rw [hn]; rfl) hne
          unfold leaseDeadline at hd
          rw [if_neg (not_le.mpr hpos)] at hd
          cases hd
        have hsame : (q.expire now).2 = q := expire_of_nil (by
          rw [WorkQueue.expire]
          simp only
          refine List.filterMap_eq_nil_iff.mpr fun i hi => ?_
          have := List.filter_eq_nil_iff.mp hnil i hi
          simpa using this)
        simp only [hsame]
        exact ⟨rfl, h⟩
      | ok deadline =>
        have htok := ht (leaseDeadline_isOk hd) i hn
        have hm := withLease_mapToken (g := g) i
          ⟨i.nextLeaseId, w, now, deadline, now, q.fencingSequences.count i.workItemId + 1⟩
        simp only [WorkerLease.mapToken, htok] at hm
        simp only [nextFencingToken, WorkItem.mapToken_nextLeaseId,
          expire_fencingSequences, hm]
        obtain ⟨hi, hs⟩ := nextLeaseable_mem hn
        obtain ⟨j, hj⟩ := withLease_ok ((hq.edits (edits_expire q now)).left i hi hs)
          ⟨i.nextLeaseId, w, now, deadline, now, q.fencingSequences.count i.workItemId + 1⟩
        simp only [hj, Except.map]
        exact ⟨trivial, hx.put rfl rfl⟩

end Mirrors

/-! ## Runs -/

/-- The file queue's backend along a run of the in-memory queue that meets the conditions. -/
theorem fileBackend_agrees (c : StorageCodec π) {ops : List (QueueOp π)}
    (hc : (memoryQueue π).Meets (FileAgrees c) ops) :
    (fileBackend c).queue.history ops = (memoryQueue π).history ops ∧
      Mirrors id ((memoryQueue π).state ops) ((fileBackend c).queue.state ops) := by
  induction ops using List.reverseRecOn with
  | nil => exact ⟨rfl, .refl _⟩
  | append_singleton ops op ih =>
    obtain ⟨hc', hop⟩ := Machine.meets_snoc.mp hc
    obtain ⟨hh, hmir⟩ := ih hc'
    have hv := (Backend.queue_effectful (fileBackend_lawful c)).inv_state ops
    have hq := reachable_queueInv (π := π) ops
    have hstep : ((fileBackend c).queue.step ((fileBackend c).queue.state ops) op).1
          = (((memoryQueue π).step ((memoryQueue π).state ops) op).1).mapToken id ∧
        Mirrors id ((memoryQueue π).step ((memoryQueue π).state ops) op).2
          ((fileBackend c).queue.step ((fileBackend c).queue.state ops) op).2 := by
      by_cases hl : ∃ w ttl now kinds, op = .lease w ttl now kinds
      · obtain ⟨w, ttl, now, kinds, rfl⟩ := hl
        obtain ⟨hans, hmir'⟩ := hmir.lease_agrees w ttl now kinds fun hpos i hi => by
          have hcount := hop hpos i hi
          rw [memoryQueue_counting.counter, (fileBackend_counting c).counter, hh, hcount]
          rfl
        refine ⟨?_, hmir'.reload⟩
        change Reply.ofItem (WorkQueue.lease _ w ttl now kinds).1 = _
        rw [hans, ← Reply.mapToken_ofItem]
        rfl
      · have hne : ∀ w ttl now kinds, op ≠ .lease w ttl now kinds := fun w ttl now kinds h =>
          hl ⟨w, ttl, now, kinds, h⟩
        refine hmir.step_agrees (fileBackend_lawful c) (fun _ _ => rfl) hq hv hne ?_
        cases op with
        | lease w ttl now kinds => exact absurd rfl (hne w ttl now kinds)
        | _ => exact hop
    rw [Machine.history_snoc, Machine.history_snoc, Machine.state_snoc, Machine.state_snoc, hh,
      hstep.1, Reply.mapToken_id]
    exact ⟨rfl, hstep.2⟩

/-- The SQLite queue's backend along a run of the in-memory queue that meets the conditions,
where `g` sends the tokens the run grants to the default one. -/
theorem sqliteBackend_agrees (c : StorageCodec π) {ops : List (QueueOp π)}
    (hc : (memoryQueue π).Meets (fun _ => SqliteAgrees c) ops)
    (hg : (memoryQueue π).Meets (fun _ q op => ∀ w ttl now kinds, op = .lease w ttl now kinds →
      0 < ttl → ∀ i ∈ q.leaseTarget now kinds,
        g (q.fencingSequences.count i.workItemId + 1) = 0) ops) :
    (sqliteBackend c).queue.answers ops = ((memoryQueue π).answers ops).map (Reply.mapToken g) ∧
      Mirrors g ((memoryQueue π).state ops) ((sqliteBackend c).queue.state ops) := by
  have hboth : (memoryQueue π).Meets (fun _ q op => SqliteAgrees c q op ∧
      ∀ w ttl now kinds, op = .lease w ttl now kinds → 0 < ttl →
        ∀ i ∈ q.leaseTarget now kinds, g (q.fencingSequences.count i.workItemId + 1) = 0) ops :=
    fun pre op post h => ⟨hc pre op post h, hg pre op post h⟩
  have hrun := (memoryQueue π).lockstep (sqliteBackend c).queue
    (fun _ q v => Mirrors g q v ∧ QueueInv q ∧ StoredInv (sqliteBackend c) v)
    (fun r r' => Reply.mapToken g r = r')
    ⟨.refl _, memoryQueue_effectful.init,
      (Backend.queue_effectful (sqliteBackend_lawful c)).init⟩
    (fun h q v op hR hop => ?_) hboth
  · exact ⟨(List.forall₂_eq_eq_eq ▸ List.forall₂_map_left_iff.mpr hrun.1).symm, hrun.2.1⟩
  · obtain ⟨hmir, hq, hv⟩ := hR
    have hv' := (Backend.queue_effectful (sqliteBackend_lawful c)).inv v op hv
    have hq' := memoryQueue_effectful.inv q op hq
    suffices hs : ((sqliteBackend c).step v op).1 = (q.step op).1.mapToken g ∧
        Mirrors g (q.step op).2 ((sqliteBackend c).step v op).2 from
      ⟨hs.1.symm, hs.2, hq', hv'⟩
    by_cases hl : ∃ w ttl now kinds, op = .lease w ttl now kinds
    · obtain ⟨w, ttl, now, kinds, rfl⟩ := hl
      obtain ⟨hans, hmir'⟩ :=
        hmir.sqliteLease_agrees hq w ttl now kinds hop.1 (hop.2 w ttl now kinds rfl)
      refine ⟨?_, hmir'.reload⟩
      change Reply.ofItem (sqliteLease _ w ttl now kinds).1 = _
      rw [hans, ← Reply.mapToken_ofItem]
      rfl
    · have hne : ∀ w ttl now kinds, op ≠ .lease w ttl now kinds := fun w ttl now kinds h =>
        hl ⟨w, ttl, now, kinds, h⟩
      refine hmir.step_agrees (sqliteBackend_lawful c) (fun _ _ => rfl) hq hv hne ?_
      cases op with
      | lease w ttl now kinds => exact absurd rfl (hne w ttl now kinds)
      | _ => exact hop.1

/-- Work that is leased, given back for another attempt and leased again, the queue being
opened again before it is listed. -/
def sharedRun : List (QueueOp Unit) :=
  [.enqueue (plainRequest "task"), .enqueue (plainRequest "other"), .lease "w" 30 0 (some ["task"]),
    .fail "lease-work-1-1" "w" "again" true 0, .lease "w" 30 0 (some ["task"]),
    .complete "lease-work-1-2" "w" 0, .expire 30000000, .reopen, .list none]

end UniversalAgent.Distributed
