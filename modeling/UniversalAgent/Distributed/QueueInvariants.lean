import UniversalAgent.Distributed.QueueEffects

/-!
# Distributed — QueueInvariants

What holds of the in-memory queue on every run: lease safety and idempotent scheduling.

`LeaseCounts` relates the state to the history: an item has been leased exactly `attempts`
times since it was created. It is kept by every effect, so it holds of any queue whose calls
have effects.
-/

namespace UniversalAgent.Distributed

open UniversalAgent.Foundation WorkQueue

variable {leaseId w : String} {now : Time} {e : QueueError} {g : String × WorkerLease}

variable {π : Type}

/-- The worker may act on the item under this lease: it is the item's current lease, it is
the worker's, and it has not run out. -/
def WorkItem.heldBy (i : WorkItem π) (leaseId workerId : String) (now : Time) : Bool :=
  match i.lease with
  | some l => decide (l.leaseId = leaseId ∧ l.workerId = workerId ∧ now < l.leaseExpiresAt)
  | none => false

theorem WorkItem.heldBy_iff {i : WorkItem π} :
    i.heldBy leaseId w now = true ↔
      ∃ l, i.lease = some l ∧ l.leaseId = leaseId ∧ l.workerId = w ∧ now < l.leaseExpiresAt := by
  unfold heldBy
  cases h : i.lease <;> simp

def grants (h : List (QueueOp π × Reply π)) : List (String × WorkerLease) :=
  h.filterMap fun
    | (.lease .., .item j) => j.lease.map fun l => (j.workItemId, l)
    | _ => none

def countCall (id : String) (n : Nat) : QueueOp π → Reply π → Nat
  | .lease .., .item j => if j.workItemId = id then n + 1 else n
  | .prune _, .items js => if js.any (fun j => decide (j.workItemId = id)) then 0 else n
  | _, _ => n

/-- How often a work item has been leased since it was created: a prune that takes the item
away starts the count again, for an item created later under the same id. -/
def leaseCount (id : String) (h : List (QueueOp π × Reply π)) : Nat :=
  h.foldl (fun n c => countCall id n c.1 c.2) 0

theorem grants_snoc (h : List (QueueOp π × Reply π)) (c : QueueOp π × Reply π) :
    grants (h ++ [c]) = grants h ++ grants [c] := by
  simp only [grants, List.filterMap_append]

/-! ## Counting leases -/

/-- Every item has been leased exactly `attempts` times since it was created, and an id
that is free has no leases to its name. -/
structure LeaseCounts (h : List (QueueOp π × Reply π)) (q : WorkQueue π) : Prop where
  held : ∀ i ∈ q.items, (leaseCount i.workItemId h : Int) = i.attempts
  free : ∀ id, (∀ i ∈ q.items, i.workItemId ≠ id) → leaseCount id h = 0

theorem leaseCount_snoc (id : String) (h : List (QueueOp π × Reply π)) (op : QueueOp π)
    (r : Reply π) : leaseCount id (h ++ [(op, r)]) = countCall id (leaseCount id h) op r := by
  simp only [leaseCount, List.foldl_append, List.foldl_cons, List.foldl_nil]

theorem countCall_quiet {op : QueueOp π} {r : Reply π}
    (hl : ∀ w ttl now kinds, op = .lease w ttl now kinds → ∃ e, r = .raised e)
    (hp : ∀ before, op ≠ .prune before) (id : String) (n : Nat) : countCall id n op r = n := by
  cases op with
  | lease w ttl now kinds =>
    obtain ⟨e, rfl⟩ := hl w ttl now kinds rfl
    rfl
  | prune before => exact absurd rfl (hp before)
  | _ => rfl

/-- Edits move no count: what they keep is what the counts are about. -/
theorem LeaseCounts.kept {h h' : List (QueueOp π × Reply π)} {q q' : WorkQueue π}
    (hc : LeaseCounts h q) (hk : Kept q q') (hh : ∀ id, leaseCount id h' = leaseCount id h) :
    LeaseCounts h' q' := by
  refine ⟨fun j hj => ?_, fun id hid => ?_⟩
  · obtain ⟨i, hi, hij⟩ := hk.origin j hj
    rw [hh, hij.workItemId, hc.held i hi, hij.attempts]
  · rw [hh]
    refine hc.free id fun i hi he => ?_
    obtain ⟨j, hj, hji⟩ := (hk.held_iff id).mp ⟨i, hi, he⟩
    exact hid j hj hji

theorem LeaseCounts.create {h h' : List (QueueOp π × Reply π)} {q q' : WorkQueue π}
    {r : EnqueueRequest π} {j : WorkItem π} (hc : LeaseCounts h q) (hj : Created q q' r j)
    (hh : ∀ id, leaseCount id h' = leaseCount id h) : LeaseCounts h' q' := by
  refine ⟨fun i hi => ?_, fun id hid => ?_⟩
  · rw [hh]
    rcases (hj.items i).mp hi with rfl | hi
    · rw [hc.free _ hj.fresh, hj.isNew.attempts]
      rfl
    · exact hc.held i hi
  · rw [hh]
    exact hc.free id fun i hi => hid i ((hj.items i).mpr (.inr hi))

theorem LeaseCounts.grant {h h' : List (QueueOp π × Reply π)} {q q' : WorkQueue π}
    {i j : WorkItem π} {l : WorkerLease} (hc : LeaseCounts h q) (hg : Grant q q' i j l)
    (hh : ∀ id, leaseCount id h' = if j.workItemId = id then leaseCount id h + 1
      else leaseCount id h) : LeaseCounts h' q' := by
  have hmem : ∀ a, a ∈ q'.items ↔ a = j ∨ (a ∈ q.items ∧ a.workItemId ≠ j.workItemId) :=
    fun a => (hg.items a).trans Table.mem_put
  refine ⟨fun a ha => ?_, fun id hfree => ?_⟩
  · rw [hh]
    rcases (hmem a).mp ha with rfl | ⟨ha, hne⟩
    · rw [if_pos rfl, hg.attempts, ← hc.held i hg.mem, hg.workItemId]
      push_cast
      rfl
    · rw [if_neg (Ne.symm hne)]
      exact hc.held a ha
  · have hj : j.workItemId ≠ id := hfree j ((hmem j).mpr (.inl rfl))
    rw [hh, if_neg hj]
    refine hc.free id fun b hb he => hfree b ((hmem b).mpr (.inr ⟨hb, fun hbj => ?_⟩)) he
    exact hj (hbj ▸ he)

theorem LeaseCounts.prune {h h' : List (QueueOp π × Reply π)} {q q' : WorkQueue π}
    {before : Option Time} {js : List (WorkItem π)} (hc : LeaseCounts h q)
    (hp : ∀ j, j ∈ js ↔ j ∈ q.items ∧ j.isPrunableTerminal before = true)
    (hk : ∀ j, j ∈ q'.items ↔ j ∈ q.items ∧ j.isPrunableTerminal before = false)
    (hh : ∀ id, leaseCount id h' =
      if js.any (fun j => decide (j.workItemId = id)) then 0 else leaseCount id h) :
    LeaseCounts h' q' := by
  refine ⟨fun j hj => ?_, fun id hfree => ?_⟩
  · obtain ⟨hj, hpj⟩ := (hk j).mp hj
    have hany : js.any (fun k => decide (k.workItemId = j.workItemId)) = false := by
      rw [List.any_eq_false]
      intro k hkm
      obtain ⟨hkm, hpk⟩ := (hp k).mp hkm
      simp only [decide_eq_true_eq]
      intro hid
      rw [Table.eq_of_key hkm hj hid, hpj] at hpk
      cases hpk
    rw [hh, hany, if_neg Bool.false_ne_true]
    exact hc.held j hj
  · rw [hh]
    split
    · rfl
    · rename_i hany
      refine hc.free id fun i hi he => ?_
      by_cases hpi : i.isPrunableTerminal before = true
      · exact hany (List.any_eq_true.mpr ⟨i, (hp i).mpr ⟨hi, hpi⟩, by simpa using he⟩)
      · exact hfree i ((hk i).mpr ⟨hi, by simpa using hpi⟩) he

theorem LeaseCounts.effect {h : List (QueueOp π × Reply π)} {q q' : WorkQueue π} {op : QueueOp π}
    {r : Reply π} (hc : LeaseCounts h q) (he : Effect q op r q') :
    LeaseCounts (h ++ [(op, r)]) q' := by
  cases he with
  | quiet he hl _ hp =>
    exact hc.kept he.kept fun id => by rw [leaseCount_snoc, countCall_quiet hl hp]
  | create hj => exact hc.create hj fun id => leaseCount_snoc ..
  | grant he hg _ => exact (hc.kept he.kept fun _ => rfl).grant hg fun id => leaseCount_snoc ..
  | prune hp hk => exact hc.prune hp hk fun id => leaseCount_snoc ..

theorem Effectful.leaseCounts {m : Machine (WorkQueue π) (QueueOp π) (Reply π)}
    {Inv : WorkQueue π → Prop} (hm : Effectful m Inv) (ops : List (QueueOp π)) :
    LeaseCounts (m.history ops) (m.state ops) :=
  hm.always LeaseCounts ⟨fun _ h => absurd h (hm.empty _), fun _ _ => rfl⟩
    (fun _ _ _ _ _ hc _ he => hc.effect he) ops

/-! ## Fencing counters -/

theorem count_put (c : Counters) (k k' : String) (n : Nat) :
    Counters.count (c.put (k, n)) k' = if k' = k then n else c.count k' := by
  unfold Counters.count
  rw [Table.get?_put]
  by_cases h : k' = k <;> simp [h]

theorem count_erase (c : Counters) (k k' : String) :
    Counters.count (c.erase k) k' = if k' = k then 0 else c.count k' := by
  unfold Counters.count
  by_cases h : k' = k
  · rw [h, Table.get?_erase_self, if_pos rfl]
  · rw [Table.get?_erase_ne c h, if_neg h]

namespace WorkQueue

theorem count_foldl_drop (l : List (WorkItem π)) (q : WorkQueue π) (id : String) :
    (l.foldl drop q).fencingSequences.count id
      = if l.any (fun j => decide (j.workItemId = id)) then 0 else q.fencingSequences.count id := by
  induction l generalizing q with
  | nil => simp
  | cons i l ih =>
    rw [List.foldl_cons, ih]
    simp only [drop, count_erase, List.any_cons, Bool.or_eq_true, decide_eq_true_eq]
    by_cases hi : i.workItemId = id
    · simp [hi]
    · simp [hi, Ne.symm hi]

theorem withLeasedItem_fencing {q : WorkQueue π}
    {body : WorkItem π → WorkerLease → Outcome (WorkQueue π) (WorkItem π)}
    (h : ∀ i l, (body i l).2.fencingSequences = q.fencingSequences) :
    (q.withLeasedItem leaseId w now body).2.fencingSequences = q.fencingSequences := by
  unfold withLeasedItem
  split
  · exact h _ _
  · exact expire_fencingSequences q now
  · rfl

theorem renew_fencing (q : WorkQueue π) (ttl : ℚ) (now : Time) (i : WorkItem π) (l : WorkerLease) :
    (q.renew ttl now i l).2.fencingSequences = q.fencingSequences := by
  unfold renew
  split
  · rfl
  · split <;> rfl

/-- Only `lease` and `prune_terminal` touch the fencing counters. -/
theorem step_fencing (q : WorkQueue π) (op : QueueOp π)
    (hl : ∀ w ttl now kinds, op ≠ .lease w ttl now kinds) (hp : ∀ before, op ≠ .prune before) :
    (q.step op).2.fencingSequences = q.fencingSequences := by
  cases op with
  | enqueue r =>
    simp only [step, enqueue]
    split
    · rfl
    · exact (insertNew_frame q r).1
  | lease w ttl now kinds => exact absurd rfl (hl w ttl now kinds)
  | heartbeat l w ttl now => exact withLeasedItem_fencing (renew_fencing q ttl now)
  | complete l w now => exact withLeasedItem_fencing fun _ _ => rfl
  | fail l w reason retry now =>
    simp only [step, fail]
    split
    · rfl
    · exact withLeasedItem_fencing fun _ _ => rfl
  | cancel id reason now =>
    simp only [step, cancel]
    split
    · rfl
    split
    · rfl
    · unfold cancelItem
      split <;> rfl
  | expire now => exact expire_fencingSequences q now
  | prune before => exact absurd rfl (hp before)
  | get id => rfl
  | list status => rfl
  | reopen => rfl

/-- What `lease` does to the fencing counters: the item leased gets the next token, and its
counter is that token. -/
theorem lease_count {q : WorkQueue π} (h : QueueInv q) (w : String) (ttl : ℚ) (now : Time)
    (kinds : Option (List String)) (id : String) :
    (q.lease w ttl now kinds).2.fencingSequences.count id
        = countCall id (q.fencingSequences.count id) (.lease w ttl now kinds)
            (Reply.ofItem (q.lease w ttl now kinds).1) ∧
      ∀ j l, (q.lease w ttl now kinds).1 = .ok j → j.lease = some l →
        l.fencingToken = q.fencingSequences.count j.workItemId + 1 := by
  unfold lease
  cases normalizeAcceptedKinds kinds with
  | error e => exact ⟨rfl, by simp⟩
  | ok kindFilter =>
    have hleft := (h.edits (edits_expire q now)).left
    rcases grantNext_cases hleft w ttl now kindFilter with
      ⟨i, j, l, -, hj, -, hg, ht, hf⟩ | ⟨e, he, -⟩
    · rw [expire_fencingSequences] at ht
      simp only [hj, hf, Reply.ofItem, countCall, count_put, expire_fencingSequences]
      refine ⟨?_, fun a k ha hk => ?_⟩
      · rw [hg.workItemId, ht]
        by_cases hid : id = i.workItemId
        · simp [hid]
        · simp [hid, Ne.symm hid]
      · cases ha
        rw [hg.lease] at hk
        cases hk
        rw [ht, hg.workItemId]
    · simp only [he, Reply.ofItem, countCall, expire_fencingSequences]
      exact ⟨trivial, by simp⟩

/-- **The fencing counter of an id follows the count of its leases.** -/
theorem step_count {q : WorkQueue π} (h : QueueInv q) (op : QueueOp π) (id : String) :
    (q.step op).2.fencingSequences.count id
      = countCall id (q.fencingSequences.count id) op (q.step op).1 := by
  cases op with
  | lease w ttl now kinds => exact (lease_count h w ttl now kinds id).1
  | prune before => exact count_foldl_drop _ q id
  | _ => rw [step_fencing q _ (by simp) (by simp)]; rfl

end WorkQueue

/-! ## Lease safety -/

/-- The lease a call presents: lease id, worker and time, for the calls that act on a leased
item. -/
def QueueOp.presents : QueueOp π → Option (String × String × Time)
  | .heartbeat l w _ now => some (l, w, now)
  | .complete l w now => some (l, w, now)
  | .fail l w _ _ now => some (l, w, now)
  | _ => none

/-- A granted lease is live: the queue still holds the item on it, for its worker, and it
has not run out. -/
def LiveAt (q : WorkQueue π) (now : Time) (l : WorkerLease) : Prop :=
  ∃ i ∈ q.items, i.heldBy l.leaseId l.workerId now = true

structure LeaseSafety (h : List (QueueOp π × Reply π)) (q : WorkQueue π) : Prop where
  /-- Of all the leases ever granted for a work item, at most one is live. -/
  oneLive : ∀ now, ∀ g₁ ∈ grants h, ∀ g₂ ∈ grants h, g₁.1 = g₂.1 →
    LiveAt q now g₁.2 → LiveAt q now g₂.2 →
      g₁.2.leaseId = g₂.2.leaseId ∧ g₁.2.workerId = g₂.2.workerId
  /-- A call that presents a lease touches only the item that the calling worker holds under
  it; when there is none the call raises, and leaves the queue as it was or, where the lease
  presented has run out, as `expire` leaves it. -/
  holderOnly : ∀ op l w now, op.presents = some (l, w, now) →
    (∃ i ∈ q.items, i.heldBy l w now = true ∧
        ∀ j, j.workItemId ≠ i.workItemId → (j ∈ (q.step op).2.items ↔ j ∈ q.items)) ∨
      ∃ e, (q.step op).1 = .raised e ∧
        ((q.step op).2 = q ∨
          (q.step op).2 = (q.expire now).2 ∧
            ∃ i ∈ q.items, ∃ k, i.lease = some k ∧ k.leaseId = l ∧ k.leaseExpiresAt ≤ now)
  /-- A terminal item stays exactly as it is until a prune removes it. -/
  terminal : ∀ op, ∀ i ∈ q.items, i.isTerminal = true →
    i ∈ (q.step op).2.items ∨ ∃ before, op = .prune before ∧ i.isPrunableTerminal before = true
  /-- A queued item has attempts left. -/
  queuedLeft : ∀ i ∈ q.items, i.status = .queued → i.attempts < i.maxAttempts
  /-- `lease` raises only for want of work or because of its own arguments. -/
  leaseRaises : ∀ w ttl now kinds e, (q.lease w ttl now kinds).1 = .error e →
    e = .noWorkAvailable "no work available" ∨ normalizeAcceptedKinds kinds = .error e ∨
      leaseDeadline now ttl = .error e
  /-- An item has been leased `attempts` times in its life, never more than `max_attempts`. -/
  leasedAtMost : ∀ i ∈ q.items,
    (leaseCount i.workItemId h : Int) = i.attempts ∧ i.attempts ≤ i.maxAttempts

namespace WorkQueue

/-- The item's current unexpired lease, presented by its worker, passes the check; nothing
else does. -/
theorem withLeasedItem_cases (q : WorkQueue π) (leaseId w : String) (now : Time)
    (body : WorkItem π → WorkerLease → Outcome (WorkQueue π) (WorkItem π)) :
    (∃ i l, i ∈ q.items ∧ i.lease = some l ∧ i.heldBy leaseId w now = true ∧
        q.withLeasedItem leaseId w now body = body i l) ∨
      ∃ e, (q.withLeasedItem leaseId w now body).1 = .error e ∧
        ((q.withLeasedItem leaseId w now body).2 = q ∨
          (q.withLeasedItem leaseId w now body).2 = (q.expire now).2 ∧
            ∃ i ∈ q.items, ∃ k, i.lease = some k ∧ k.leaseId = leaseId ∧
              k.leaseExpiresAt ≤ now) := by
  unfold withLeasedItem
  split
  · rename_i i l hc
    obtain ⟨hm, hl, hid, hw, hlt⟩ := checkLease_found hc
    exact .inl ⟨i, l, hm, hl, WorkItem.heldBy_iff.mpr ⟨l, hl, hid, hw, hlt⟩, rfl⟩
  · rename_i hc
    refine .inr ⟨_, rfl, .inr ⟨rfl, ?_⟩⟩
    unfold checkLease at hc
    split at hc
    · cases hc
    rename_i i k hik
    split at hc
    · cases hc
    split at hc
    · rename_i hle
      obtain ⟨hm, hl, hid⟩ := onLease_some hik
      exact ⟨i, hm, k, hl, hid, hle⟩
    · cases hc
  · exact .inr ⟨_, rfl, .inl rfl⟩

/-- Storing a successor of an item leaves the other items alone. -/
theorem mem_setItem_of_ne {q : WorkQueue π} {i j : WorkItem π} (h : j.workItemId ≠ i.workItemId) :
    j ∈ (q.setItem i).items ↔ j ∈ q.items := by
  rw [items_setItem, Table.mem_put]
  constructor
  · rintro (rfl | ⟨hj, -⟩)
    · exact absurd rfl h
    · exact hj
  · exact fun hj => .inr ⟨hj, h⟩

theorem renew_frame (q : WorkQueue π) (ttl : ℚ) (now : Time) (i : WorkItem π) (l : WorkerLease)
    {j : WorkItem π} (h : j.workItemId ≠ i.workItemId) :
    j ∈ (q.renew ttl now i l).2.items ↔ j ∈ q.items := by
  unfold renew
  split
  · exact Iff.rfl
  split
  · exact Iff.rfl
  · rename_i k hk
    exact mem_setItem_of_ne (by rw [WorkItem.make_eq_ok.mp hk]; exact h)

theorem failure_workItemId (i : WorkItem π) (reason : String) (retry : Bool) (now : Time) :
    (failure i reason retry now).workItemId = i.workItemId := by
  unfold failure
  split <;> rfl

theorem holderOnly_step (q : WorkQueue π) (op : QueueOp π) {l w : String}
    (h : op.presents = some (l, w, now)) :
    (∃ i ∈ q.items, i.heldBy l w now = true ∧
        ∀ j, j.workItemId ≠ i.workItemId → (j ∈ (q.step op).2.items ↔ j ∈ q.items)) ∨
      ∃ e, (q.step op).1 = .raised e ∧
        ((q.step op).2 = q ∨
          (q.step op).2 = (q.expire now).2 ∧
            ∃ i ∈ q.items, ∃ k, i.lease = some k ∧ k.leaseId = l ∧ k.leaseExpiresAt ≤ now) := by
  cases op with
  | heartbeat l' w' ttl now' =>
    cases h
    simp only [step, heartbeat]
    rcases withLeasedItem_cases q l w now (q.renew ttl now) with
      ⟨i, k, hm, -, hh, heq⟩ | ⟨e, he, hq⟩
    · exact .inl ⟨i, hm, hh, fun j hj => by rw [heq]; exact renew_frame q ttl now i k hj⟩
    · exact .inr ⟨e, by rw [he]; rfl, hq⟩
  | complete l' w' now' =>
    cases h
    simp only [step, complete]
    rcases withLeasedItem_cases q l w now (fun i _ => q.finish now i) with
      ⟨i, k, hm, -, hh, heq⟩ | ⟨e, he, hq⟩
    · exact .inl ⟨i, hm, hh, fun j hj => by rw [heq]; exact mem_setItem_of_ne hj⟩
    · exact .inr ⟨e, by rw [he]; rfl, hq⟩
  | fail l' w' reason retry now' =>
    cases h
    simp only [step, fail]
    split
    · rename_i e _
      exact .inr ⟨e, rfl, .inl rfl⟩
    · rcases withLeasedItem_cases q l w now (fun i _ => q.giveBack reason retry now i) with
        ⟨i, k, hm, -, hh, heq⟩ | ⟨e, he, hq⟩
      · refine .inl ⟨i, hm, hh, fun j hj => ?_⟩
        rw [heq]
        exact mem_setItem_of_ne (by rw [failure_workItemId]; exact hj)
      · exact .inr ⟨e, by rw [he]; rfl, hq⟩
  | _ => cases h

theorem terminal_effect {q q' : WorkQueue π} {op : QueueOp π} {r : Reply π}
    (he : Effect q op r q') {i : WorkItem π} (hi : i ∈ q.items) (ht : i.isTerminal = true) :
    i ∈ q'.items ∨ ∃ before, op = .prune before ∧ i.isPrunableTerminal before = true := by
  cases he with
  | quiet he _ _ _ => exact .inl (he.kept.terminal i hi ht)
  | create hc => exact .inl ((hc.items i).mpr (.inr hi))
  | @grant _ _ _ _ s _ a b l he hg _ =>
    left
    have hi' := he.kept.terminal i hi ht
    refine (hg.items i).mpr (Table.mem_put.mpr (.inr ⟨hi', fun hid => ?_⟩))
    have hia : i = a := Table.eq_of_key hi' hg.mem (hid.trans hg.workItemId)
    rw [hia, WorkItem.not_isTerminal_iff.mpr (.inl hg.queued)] at ht
    cases ht
  | @prune before _ _ _ hk =>
    by_cases hp : i.isPrunableTerminal before = true
    · exact .inr ⟨before, rfl, hp⟩
    · exact .inl ((hk i).mpr ⟨hi, by simpa using hp⟩)

theorem lease_error {q : WorkQueue π} (hinv : QueueInv q) {w : String} {ttl : ℚ}
    {kinds : Option (List String)}
    (h : (q.lease w ttl now kinds).1 = .error e) :
    e = .noWorkAvailable "no work available" ∨ normalizeAcceptedKinds kinds = .error e ∨
      leaseDeadline now ttl = .error e := by
  unfold lease at h
  cases hk : normalizeAcceptedKinds kinds with
  | error e' =>
    rw [hk] at h
    cases h
    exact .inr (.inl rfl)
  | ok kindFilter =>
    rw [hk] at h
    have hleft := (hinv.edits (edits_expire q now)).left
    rcases grantNext_cases hleft w ttl now kindFilter with
      ⟨i, j, l, -, hj, -⟩ | ⟨e', he, hor⟩
    · simp only [hj] at h
      cases h
    · simp only [he] at h
      cases h
      exact hor.imp id .inr

end WorkQueue

theorem mem_grants_snoc {h : List (QueueOp π × Reply π)} {op : QueueOp π} {r : Reply π}
    :
    g ∈ grants (h ++ [(op, r)]) ↔ g ∈ grants h ∨ g ∈ grants [(op, r)] := by
  rw [grants_snoc, List.mem_append]

theorem WorkQueue.Effect.grants_eq {q q' : WorkQueue π} {op : QueueOp π} {r : Reply π}
    (he : Effect q op r q') :
    grants [(op, r)] = [] ∨
      ∃ s i j l, Edits q s ∧ Grant s q' i j l ∧ r = .item j ∧
        grants [(op, r)] = [(j.workItemId, l)] := by
  cases he with
  | @quiet op r _ _ hl _ _ =>
    left
    cases op with
    | lease w ttl now kinds =>
      obtain ⟨e, rfl⟩ := hl w ttl now kinds rfl
      rfl
    | _ => rfl
  | create => exact .inl rfl
  | @grant _ _ _ _ s _ i j l he hg _ =>
    refine .inr ⟨s, i, j, l, he, hg, rfl, ?_⟩
    simp only [grants, List.filterMap_cons, List.filterMap_nil, hg.lease, Option.map_some]
  | prune => exact .inl rfl

/-- Every lease ever granted is named after its item and an attempt of it. -/
theorem Effectful.grants_leaseId {m : Machine (WorkQueue π) (QueueOp π) (Reply π)}
    {Inv : WorkQueue π → Prop} (hm : Effectful m Inv) (ops : List (QueueOp π)) :
    ∀ g ∈ grants (m.history ops),
      ∃ n : Nat, g.2.leaseId = "lease-" ++ g.1 ++ "-" ++ toString n := by
  refine hm.always
    (fun h _ => ∀ g ∈ grants h, ∃ n : Nat, g.2.leaseId = "lease-" ++ g.1 ++ "-" ++ toString n)
    (by simp [grants]) ?_ ops
  intro h q op r q' ih _ he g hg
  rcases mem_grants_snoc.mp hg with hg | hg
  · exact ih g hg
  · rcases he.grants_eq with hnil | ⟨s, i, j, l, -, hgr, -, hone⟩
    · rw [hnil] at hg
      exact absurd hg List.not_mem_nil
    · rw [hone, List.mem_singleton] at hg
      rw [hg]
      exact ⟨_, hgr.heldLeaseId⟩

/-- The item a live lease is on is the item it was granted for. -/
theorem liveAt_workItemId {ops : List (QueueOp π)}
    (hg : g ∈ grants ((memoryQueue π).history ops))
    {i : WorkItem π} (hi : i ∈ ((memoryQueue π).state ops).items)
    (hh : i.heldBy g.2.leaseId g.2.workerId now = true) : i.workItemId = g.1 := by
  obtain ⟨n, hn⟩ := memoryQueue_effectful.grants_leaseId ops g hg
  obtain ⟨l, hl, hid, -, -⟩ := WorkItem.heldBy_iff.mp hh
  have := (reachable_queueInv ops).leaseId i hi l hl
  rw [hid, hn] at this
  exact (Text.dashed_inj this).1.symm

def plainRequest (kind : String) : EnqueueRequest Unit :=
  ⟨kind, (), none, none, none, 0, 3, none, none, none, 0, 0⟩

theorem WorkItem.make_eq_error {f : WorkItemFields π} :
    WorkItem.make f = .error e ↔ f.postInit = .error e := by
  unfold WorkItem.make
  split
  · rename_i h; simp [h]
  · rename_i e' h; simp [h]

/-- Whether an insertion is refused does not depend on the idempotency key. -/
theorem WorkQueue.insertNew_error_key {q : WorkQueue π} {r : EnqueueRequest π}
    (key : Option String) (h : (q.insertNew r).1 = .error e) :
    (q.insertNew { r with idempotencyKey := key }).1 = .error e := by
  unfold insertNew at h ⊢
  rcases hq : q.chooseWorkItemId r.workItemId with ⟨id, q₁⟩
  simp only [hq] at h ⊢
  -- `__post_init__` does not look at the key
  have hpost : (newFields { r with idempotencyKey := key } id).postInit
      = (newFields r id).postInit := rfl
  cases hm : WorkItem.make (newFields r id) with
  | error e' =>
    rw [hm] at h
    have hm' : WorkItem.make (newFields { r with idempotencyKey := key } id) = .error e' :=
      WorkItem.make_eq_error.mpr (hpost.trans (WorkItem.make_eq_error.mp hm))
    rw [hm']
    exact h
  | ok j =>
    rw [hm] at h
    have hj := WorkItem.make_eq_ok.mp hm
    cases hm' : WorkItem.make (newFields { r with idempotencyKey := key } id) with
    | error e' =>
      have hne : WorkItem.make (newFields r id) = .error e' :=
        WorkItem.make_eq_error.mpr (hpost.symm.trans (WorkItem.make_eq_error.mp hm'))
      rw [hm] at hne
      cases hne
    | ok j' =>
      have hj' := WorkItem.make_eq_ok.mp hm'
      have hid : j'.workItemId = j.workItemId := by rw [hj, hj']; rfl
      simp only [hid]
      cases hg : q₁.items.get? j.workItemId with
      | none => simp [hg] at h
      | some a => simpa [hg] using h

/-- **Idempotent scheduling**, in every reachable state of the queue: at most one item that
is not terminal carries a key; enqueueing under such a key returns that item and leaves the
queue as it is; and where every item with the key is terminal, enqueueing under it inserts a
new item, or is refused exactly as the same request without the key is. -/
theorem idempotent_scheduling (ops : List (QueueOp π)) (key : String) :
    let q := (memoryQueue π).state ops
    (∀ i ∈ q.items, ∀ j ∈ q.items, i.isTerminal = false → j.isTerminal = false →
      i.idempotencyKey = some key → j.idempotencyKey = some key → i = j) ∧
    (∀ i ∈ q.items, i.isTerminal = false → i.idempotencyKey = some key →
      ∀ r : EnqueueRequest π, r.idempotencyKey = some key → q.enqueue r = (.ok i, q)) ∧
    ((∀ i ∈ q.items, i.idempotencyKey = some key → i.isTerminal = true) →
      ∀ r : EnqueueRequest π, r.idempotencyKey = some key →
        (∃ j q', q.enqueue r = (.ok j, q') ∧ WorkQueue.Created q q' r j) ∨
          ∃ e, (q.enqueue r).1 = .error e ∧
            (q.enqueue { r with idempotencyKey := none }).1 = .error e) := by
  intro q
  have hinv : QueueInv q := reachable_queueInv ops
  refine ⟨fun i hi j hj hti htj => hinv.key i hi j hj hti htj key, ?_, ?_⟩
  · intro i hi hti hki r hr
    cases hf : q.findIdempotent key with
    | none =>
      rw [WorkQueue.findIdempotent_none.mp hf i hi hki] at hti
      cases hti
    | some a =>
      obtain ⟨ha, hka, hta⟩ := WorkQueue.findIdempotent_some hf
      have hai : a = i := hinv.key a ha i hi hta hti key hka hki
      simp only [WorkQueue.enqueue, WorkQueue.existing, hr, hf, hai]
  · intro hall r hr
    have hf : q.findIdempotent key = none := WorkQueue.findIdempotent_none.mpr hall
    have he : q.enqueue r = q.insertNew r := by
      simp only [WorkQueue.enqueue, WorkQueue.existing, hr, hf]
    cases h : q.insertNew r with
    | mk res q' =>
      cases res with
      | ok j =>
        refine .inl ⟨j, q', by rw [he, h], WorkQueue.insertNew_ok (fun k hk => ?_) h⟩
        rw [hr] at hk
        cases hk
        exact hf
      | error e =>
        refine .inr ⟨e, by rw [he, h], ?_⟩
        simp only [WorkQueue.enqueue, WorkQueue.existing]
        exact WorkQueue.insertNew_error_key none (by rw [h])

end UniversalAgent.Distributed
