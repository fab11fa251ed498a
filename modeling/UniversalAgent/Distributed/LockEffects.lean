import UniversalAgent.Distributed.LockSafety
import UniversalAgent.Foundation.Sorting

/-!
# Distributed — LockEffects

What the methods of the in-memory registry do, one lemma for each: the calls have the effects
that calls may have, and they do not depend on the order in which a registry holds its leases.
-/

namespace UniversalAgent.Distributed

open UniversalAgent.Foundation

variable {μ : Type}

theorem LockOp.now?_of_presented {op : LockOp μ} {leaseId ownerId : String} {now : Time}
    (h : op.presented = some (leaseId, ownerId, now)) : op.now? = some now := by
  cases op <;> cases h <;> rfl

namespace DistributedLockLease

theorem mem_sorted {ls : List (DistributedLockLease μ)} {l : DistributedLockLease μ} :
    l ∈ sorted ls ↔ l ∈ ls := (List.perm_insertionSort _ ls).mem_iff

theorem pairwise_sorted (ls : List (DistributedLockLease μ)) :
    (sorted ls).Pairwise fun l l' => l.lockKey ≤ l'.lockKey :=
  pairwise_sortByKey (fun l : DistributedLockLease μ => l.lockKey) ls

/-- Leases of different locks have one sorted order. -/
theorem sorted_congr {ls ls' : List (DistributedLockLease μ)} (hp : ls.Perm ls')
    (hkey : ∀ l ∈ ls, ∀ l' ∈ ls, l.lockKey = l'.lockKey → l = l') : sorted ls = sorted ls' :=
  sortByKey_congr (fun l : DistributedLockLease μ => l.lockKey) hp hkey

end DistributedLockLease

namespace LockRegistry

open DistributedLockLease

/-! ## Effects -/

theorem expire_sweptTo (r : LockRegistry μ) (now : Time) : SweptTo now r (r.expire now).2 :=
  ⟨fun l => by rw [expire, Table.mem_filter, liveAt_iff], rfl⟩

variable {now : Time} {leaseId ownerId : String} {l : DistributedLockLease μ} {r r' : LockRegistry μ}

theorem expire_of_nil {r : LockRegistry μ} (h : (r.expire now).1 = []) : (r.expire now).2 = r := by
  have hlive : ∀ l ∈ r.leases.rows, l.liveAt now = true := by
    intro l hl
    by_contra hn
    have hmem : l ∈ (r.expire now).1 := mem_sorted.mpr (List.mem_filter.mpr ⟨hl, by simpa using hn⟩)
    rw [h] at hmem
    exact List.not_mem_nil hmem
  have hrows : r.leases.filter (fun l => l.liveAt now) = r.leases :=
    Table.ext (List.filter_eq_self.mpr hlive)
  rw [expire, hrows]

theorem lockDeadline_eq_ok {now deadline : Time} {ttl : ℚ} :
    lockDeadline now ttl = .ok deadline ↔
      0 < ttl ∧ deadline = now + roundHalfEven (ttl * 1000000) := by
  unfold lockDeadline
  split
  · rename_i h
    exact iff_of_false nofun fun h' => absurd h'.1 (not_lt.mpr h)
  · rename_i h
    exact ⟨fun he => ⟨not_le.mp h, (Except.ok.inj he).symm⟩, fun he => by rw [he.2]⟩

/-- `acquire` of a free lock: the lease of the request under the next number, or an error that
uses the number up. -/
theorem grant_cases (r : LockRegistry μ) (a : AcquireRequest μ)
    (hfree : ∀ x ∈ r.leases, x.lockKey ≠ a.lockKey) :
    (∃ deadline, lockDeadline a.now a.ttlSeconds = .ok deadline ∧
        (r.grant a).1 = .ok (leaseFor a ("lock-lease-" ++ toString (r.sequence + 1))
          (r.sequence + 1) deadline) ∧
        Granted r (r.grant a).2 a (leaseFor a ("lock-lease-" ++ toString (r.sequence + 1))
          (r.sequence + 1) deadline)) ∨
      ∃ e, lockDeadline a.now a.ttlSeconds = .error e ∧
        r.grant a = (.error e, { r with sequence := r.sequence + 1 }) := by
  unfold grant nextLeaseId
  cases hd : lockDeadline a.now a.ttlSeconds with
  | error e => exact .inr ⟨e, rfl, rfl⟩
  | ok deadline =>
    refine .inl ⟨deadline, rfl, rfl, hfree, rfl, rfl, rfl, rfl, Nat.lt_succ_self _, fun x => ?_⟩
    refine Table.mem_put.trans (or_congr_right ⟨And.left, fun hx => ⟨hx, hfree x hx⟩⟩)

theorem acquireSwept_effect {r s : LockRegistry μ} {a : AcquireRequest μ}
    (hk : Keeps (some a.now) r s) :
    LockEffect r (.acquire a) (.ofLease (s.acquireSwept a).1) (s.acquireSwept a).2 := by
  unfold acquireSwept
  cases hg : s.leases.get? a.lockKey with
  | some existing =>
    obtain ⟨hmem, hkey⟩ := Table.get?_eq_some.mp hg
    simp only
    split
    · rename_i ho
      exact .reentered hk hmem hkey ho
    · exact .refused hk fun _ _ _ hp => by cases hp
  | none =>
    rcases s.grant_cases a (Table.get?_eq_none.mp hg) with ⟨_, -, hans, hnew⟩ | ⟨e, -, hgr⟩
    · simp only [hans]
      exact .granted hk hnew
    · simp only [hgr]
      exact .refused ⟨hk.subset, hk.lost, hk.sequence.trans (Nat.le_succ _)⟩
        fun _ _ _ hp => by cases hp

theorem acquire_effect (r : LockRegistry μ) (a : AcquireRequest μ) :
    LockEffect r (.acquire a) (.ofLease (r.acquire a).1) (r.acquire a).2 := by
  unfold acquire
  cases a.check with
  | error e => exact .refused ((Same.refl r).keeps _) fun _ _ _ hp => by cases hp
  | ok _ => exact acquireSwept_effect (r.expire_sweptTo a.now).keeps

theorem checkLease_found {r : LockRegistry μ}
    (h : r.checkLease leaseId ownerId now = .found l) :
    l ∈ r.leases ∧ l.leaseId = leaseId ∧ l.ownerId = ownerId ∧ now < l.leaseExpiresAt := by
  unfold checkLease at h
  split at h
  · cases h
  · rename_i l' hf
    split at h
    · cases h
    · rename_i ho
      split at h
      · cases h
      · rename_i hexp
        cases h
        exact ⟨List.mem_of_find?_eq_some hf, by simpa using List.find?_some hf, not_not.mp ho,
          Int.not_le.mp hexp⟩

theorem checkLease_expired {r : LockRegistry μ}
    (h : r.checkLease leaseId ownerId now = .expired) :
    ∃ l ∈ r.leases, l.leaseId = leaseId ∧ l.ownerId = ownerId ∧ l.leaseExpiresAt ≤ now := by
  unfold checkLease at h
  split at h
  · cases h
  · rename_i l hf
    split at h
    · cases h
    · rename_i ho
      split at h
      · rename_i hexp
        exact ⟨l, List.mem_of_find?_eq_some hf, by simpa using List.find?_some hf, not_not.mp ho,
          hexp⟩
      · cases h

/-- A refused presentation of a lease that changes nothing. -/
theorem refused_same {op : LockOp μ} (e : LockError) (hs : r.Same r') : LockEffect r op (.raised e) r' :=
  .refused (hs.keeps _) fun _ _ _ _ => .inl hs

/-- A refused presentation of the caller's own expired lease. -/
theorem refused_expired {op : LockOp μ}
    (hp : op.presented = some (leaseId, ownerId, now)) (e : LockError)
    (hc : r.checkLease leaseId ownerId now = .expired) (hs : SweptTo now r r') :
    LockEffect r op (.raised e) r' := by
  refine .refused (LockOp.now?_of_presented hp ▸ hs.keeps) fun i o n hpr => ?_
  cases hp.symm.trans hpr
  exact .inr ⟨checkLease_expired hc, hs⟩

/-- A call that presents a lease has the effect of its body on the lease it presents. -/
theorem withActiveLease_effect {r : LockRegistry μ} {op : LockOp μ}
    {body : DistributedLockLease μ → LockOutcome (LockRegistry μ) (DistributedLockLease μ)}
    (hp : op.presented = some (leaseId, ownerId, now))
    (hbody : ∀ l ∈ r.leases, l.leaseId = leaseId → l.ownerId = ownerId → now < l.leaseExpiresAt →
      LockEffect r op (.ofLease (body l).1) (body l).2) :
    LockEffect r op (.ofLease (r.withActiveLease leaseId ownerId now body).1)
      (r.withActiveLease leaseId ownerId now body).2 := by
  unfold withActiveLease
  cases requireOwnerId ownerId with
  | error e => exact refused_same e (.refl r)
  | ok _ =>
    cases hc : r.checkLease leaseId ownerId now with
    | found l =>
      obtain ⟨hl, hid, ho, hlive⟩ := checkLease_found hc
      exact hbody l hl hid ho hlive
    | missing => exact refused_same _ (.refl r)
    | otherOwner => exact refused_same _ (.refl r)
    | expired => exact refused_expired hp _ hc (r.expire_sweptTo now)

theorem renew_effect {r : LockRegistry μ} {ttl : ℚ}
    (hl : l ∈ r.leases) (hid : l.leaseId = leaseId)
    (ho : l.ownerId = ownerId) (hlive : now < l.leaseExpiresAt) :
    LockEffect r (.heartbeat leaseId ownerId ttl now) (.ofLease (r.renew ttl now l).1)
      (r.renew ttl now l).2 := by
  unfold renew
  cases lockDeadline now ttl with
  | error e => exact refused_same e (.refl r)
  | ok deadline =>
    refine .renewed hl hid ho hlive (fun x => ?_) rfl
    refine Table.mem_put.trans (or_congr_right (and_congr_right fun hx => not_congr ?_))
    exact ⟨fun hk => Table.eq_of_key hx hl hk, fun hk => hk ▸ rfl⟩

theorem drop_effect {r : LockRegistry μ}
    (hl : l ∈ r.leases) (hid : l.leaseId = leaseId)
    (ho : l.ownerId = ownerId) (hlive : now < l.leaseExpiresAt) :
    LockEffect r (.release leaseId ownerId now) (.ofLease (r.drop l).1) (r.drop l).2 := by
  refine .released hl hid ho hlive (fun x => ?_) rfl
  refine Table.mem_erase.trans (and_congr_right fun hx => not_congr ?_)
  exact ⟨fun hk => Table.eq_of_key hx hl hk, fun hk => hk ▸ rfl⟩

/-- **Every call on the in-memory registry does what a call may do.** -/
theorem step_effect (r : LockRegistry μ) (op : LockOp μ) : LockEffect r op (r.step op).1 (r.step op).2 := by
  cases op with
  | acquire a => exact r.acquire_effect a
  | heartbeat leaseId ownerId ttl now =>
    exact withActiveLease_effect rfl fun l hl hid ho hlive => renew_effect hl hid ho hlive
  | release leaseId ownerId now =>
    exact withActiveLease_effect rfl fun l hl hid ho hlive => drop_effect hl hid ho hlive
  | expire now => exact .listed (r.expire_sweptTo now).keeps rfl
  | active => exact .listed ((Same.refl r).keeps _) rfl
  | reopen => exact .reopened (.refl r)

/-! ## The order of the leases -/

theorem Same.perm (h : r.Same r') : r.leases.rows.Perm r'.leases.rows :=
  Table.perm_of_mem_iff h.mem

theorem active_congr (h : r.Same r') : r.active = r'.active :=
  sorted_congr h.perm fun _ hl _ hl' => Table.eq_of_key hl hl'

theorem expire_congr (h : r.Same r') (now : Time) :
    (r.expire now).1 = (r'.expire now).1 ∧ (r.expire now).2.Same (r'.expire now).2 := by
  constructor
  · refine sorted_congr (h.perm.filter _) fun l hl l' hl' => ?_
    exact Table.eq_of_key (List.mem_filter.mp hl).1 (List.mem_filter.mp hl').1
  · refine ⟨fun l => ?_, h.sequence⟩
    rw [(r.expire_sweptTo now).mem, (r'.expire_sweptTo now).mem, h.mem]

theorem checkLease_congr (hi : LockInv r) (h : r.Same r')
    (leaseId ownerId : String) (now : Time) :
    r.checkLease leaseId ownerId now = r'.checkLease leaseId ownerId now := by
  have hfind : r.leases.rows.find? (fun l => decide (l.leaseId = leaseId))
      = r'.leases.rows.find? fun l => decide (l.leaseId = leaseId) := by
    cases hf : r'.leases.rows.find? fun l => decide (l.leaseId = leaseId) with
    | none =>
      refine List.find?_eq_none.mpr fun l hl => ?_
      exact List.find?_eq_none.mp hf l ((h.mem l).mp hl)
    | some l =>
      have hl : l ∈ r.leases := (h.mem l).mpr (List.mem_of_find?_eq_some hf)
      have hid : l.leaseId = leaseId := by simpa using List.find?_some hf
      cases hf' : r.leases.rows.find? fun l => decide (l.leaseId = leaseId) with
      | none => exact absurd hid (by simpa using List.find?_eq_none.mp hf' l hl)
      | some l' =>
        have hid' : l'.leaseId = leaseId := by simpa using List.find?_some hf'
        rw [hi.eq_of_leaseId (List.mem_of_find?_eq_some hf') hl (hid'.trans hid.symm)]
  rw [checkLease, hfind]
  rfl

theorem Same.put (h : r.Same r') (l : DistributedLockLease μ) (n : Nat) :
    (⟨r.leases.put l, n⟩ : LockRegistry μ).Same ⟨r'.leases.put l, n⟩ :=
  ⟨fun x => by rw [Table.mem_put, Table.mem_put]; exact or_congr_right (and_congr_left' (h.mem x)),
    rfl⟩

theorem Same.erase (h : r.Same r') (key : String) (n : Nat) :
    (⟨r.leases.erase key, n⟩ : LockRegistry μ).Same ⟨r'.leases.erase key, n⟩ :=
  ⟨fun x => by rw [Table.mem_erase, Table.mem_erase]; exact and_congr_left' (h.mem x), rfl⟩

theorem acquireSwept_congr (h : r.Same r') (a : AcquireRequest μ) :
    (r.acquireSwept a).1 = (r'.acquireSwept a).1 ∧
      (r.acquireSwept a).2.Same (r'.acquireSwept a).2 := by
  unfold acquireSwept
  rw [Table.get?_congr h.mem]
  cases r'.leases.get? a.lockKey with
  | some existing =>
    simp only
    split
    · exact ⟨rfl, h⟩
    · exact ⟨rfl, h⟩
  | none =>
    unfold grant nextLeaseId
    rw [h.sequence]
    cases lockDeadline a.now a.ttlSeconds with
    | error e => exact ⟨rfl, h.mem, rfl⟩
    | ok deadline => exact ⟨rfl, h.put _ _⟩

theorem acquire_congr (h : r.Same r') (a : AcquireRequest μ) :
    (r.acquire a).1 = (r'.acquire a).1 ∧ (r.acquire a).2.Same (r'.acquire a).2 := by
  unfold acquire
  cases a.check with
  | error e => exact ⟨rfl, h⟩
  | ok _ => exact acquireSwept_congr (expire_congr h a.now).2 a

theorem withActiveLease_congr (hi : LockInv r) (h : r.Same r')
    {body body' : DistributedLockLease μ → LockOutcome (LockRegistry μ) (DistributedLockLease μ)}
    (hbody : ∀ l, (body l).1 = (body' l).1 ∧ (body l).2.Same (body' l).2) :
    (r.withActiveLease leaseId ownerId now body).1 = (r'.withActiveLease leaseId ownerId now body').1 ∧
      (r.withActiveLease leaseId ownerId now body).2.Same
        (r'.withActiveLease leaseId ownerId now body').2 := by
  unfold withActiveLease
  rw [checkLease_congr hi h]
  cases requireOwnerId ownerId with
  | error e => exact ⟨rfl, h⟩
  | ok _ =>
    cases r'.checkLease leaseId ownerId now with
    | found l => exact hbody l
    | missing => exact ⟨rfl, h⟩
    | otherOwner => exact ⟨rfl, h⟩
    | expired => exact ⟨rfl, (expire_congr h now).2⟩

theorem renew_congr (h : r.Same r') (ttl : ℚ) (now : Time)
    (l : DistributedLockLease μ) :
    (r.renew ttl now l).1 = (r'.renew ttl now l).1 ∧
      (r.renew ttl now l).2.Same (r'.renew ttl now l).2 := by
  unfold renew
  rw [h.sequence]
  cases lockDeadline now ttl with
  | error e => exact ⟨rfl, h⟩
  | ok deadline => exact ⟨rfl, h.put _ _⟩

theorem drop_congr (h : r.Same r') (l : DistributedLockLease μ) :
    (r.drop l).1 = (r'.drop l).1 ∧ (r.drop l).2.Same (r'.drop l).2 := by
  unfold drop
  rw [h.sequence]
  exact ⟨rfl, h.erase _ _⟩

/-- **Calls answer alike whatever the order of the leases.** -/
theorem step_congr (hi : LockInv r) (h : r.Same r') (op : LockOp μ) :
    (r.step op).1 = (r'.step op).1 ∧ (r.step op).2.Same (r'.step op).2 := by
  cases op with
  | acquire a =>
    obtain ⟨hans, hs⟩ := acquire_congr h a
    exact ⟨congrArg LockReply.ofLease hans, hs⟩
  | heartbeat leaseId ownerId ttl now =>
    obtain ⟨hans, hs⟩ := withActiveLease_congr hi h (renew_congr h ttl now)
    exact ⟨congrArg LockReply.ofLease hans, hs⟩
  | release leaseId ownerId now =>
    obtain ⟨hans, hs⟩ := withActiveLease_congr hi h (drop_congr h)
    exact ⟨congrArg LockReply.ofLease hans, hs⟩
  | expire now =>
    obtain ⟨hans, hs⟩ := expire_congr h now
    exact ⟨congrArg LockReply.leases hans, hs⟩
  | active => exact ⟨congrArg LockReply.leases (active_congr h), h⟩
  | reopen => exact ⟨rfl, h⟩

end LockRegistry

theorem memoryLocks_manager : LockManager (memoryLocks μ) id fun _ => True :=
  ⟨trivial, fun l => Table.not_mem_empty l, fun r op _ _ => ⟨r.step_effect op, trivial⟩⟩

end UniversalAgent.Distributed
