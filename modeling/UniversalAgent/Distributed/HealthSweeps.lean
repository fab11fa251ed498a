import UniversalAgent.Distributed.Health
import UniversalAgent.Distributed.QueueEdits

/-!
# Distributed — HealthSweeps

`health` and `expire` of `DistributedRuntimeCoordinator` (`distributed/coordinator.py`). The three stores
compare a deadline with the time of the sweep as it is, the report compares the remaining time after it
rounded it: a lease that has less than half a millisecond left is live for the sweep and expired for the
report.
-/

namespace UniversalAgent.Distributed

open UniversalAgent.Core (PyFloat toFloat roundFloat)
open UniversalAgent.Foundation UniversalAgent.Foundation.Rounding

variable {d now : Int} {l : DistributedExpiringLease}

variable {π μ ν : Type}

structure DistributedMaintenanceResult (π μ ν : Type) where
  ranAt : Time
  expiredWorkItems : List (WorkItem π)
  expiredLocks : List (DistributedLockLease μ)
  expiredWorkers : List (WorkerRecord ν)
  snapshot : DistributedRuntimeSnapshot μ ν
  health : DistributedHealthReport

namespace DistributedRuntimeCoordinator

def health (s : DistributedRuntimeCoordinator π μ ν) (now : Time) (o : HealthThresholds) :
    Except QueueError DistributedHealthReport :=
  buildDistributedHealthReport s.snapshot now o

/-- The stores after the three sweeps of `expire`. -/
def swept (s : DistributedRuntimeCoordinator π μ ν) (now : Time) :
    DistributedRuntimeCoordinator π μ ν where
  queue := (s.queue.expire now).2
  locks := (s.locks.expire now).2
  workers := (s.workers.expire now).2

/-- `expire`. The stores are swept also where the thresholds are refused. -/
def expire (s : DistributedRuntimeCoordinator π μ ν) (now : Time) (o : HealthThresholds) :
    Except QueueError (DistributedMaintenanceResult π μ ν) × DistributedRuntimeCoordinator π μ ν :=
  let snapshot := (s.swept now).snapshot
  let result := (buildDistributedHealthReport snapshot now o).map fun health =>
    { ranAt := now
      expiredWorkItems := (s.queue.expire now).1
      expiredLocks := (s.locks.expire now).1
      expiredWorkers := (s.workers.expire now).1
      snapshot := snapshot
      health := health }
  (result, s.swept now)

/-! ## What the two sides say -/

def sweptLeases (s : DistributedRuntimeCoordinator π μ ν) (now : Time) : List (String × String) :=
  ((s.queue.expire now).1.map fun i => ("work_item", i.workItemId)) ++
    ((s.locks.expire now).1.map fun l => ("distributed_lock", l.lockKey)) ++
    ((s.workers.expire now).1.map fun r => ("worker", r.workerId))

/-- Every deadline in the stores that is still to be met, by a leased item, a lock or a worker in
service, has the property. -/
structure Deadlines (s : DistributedRuntimeCoordinator π μ ν) (P : Time → Prop) : Prop where
  items : ∀ i ∈ s.queue.items, ∀ l, i.lease = some l → P l.leaseExpiresAt
  locks : ∀ l ∈ s.locks.leases, P l.leaseExpiresAt
  workers : ∀ r ∈ s.workers, r.status = .online ∨ r.status = .draining → P r.leaseExpiresAt

end DistributedRuntimeCoordinator

def DistributedHealthReport.expiredLeases (r : DistributedHealthReport) : List (String × String) :=
  (r.expiringLeases.filter DistributedExpiringLease.expired).map fun l => (l.leaseType, l.key)

structure DistributedHealthReport.Fresh (r : DistributedHealthReport) : Prop where
  leases : r.expiredLeases = []
  check : r.checks.leaseFreshness.status ≠ .error
  recommendations : ∀ x ∈ r.recommendations, x.code ≠ "run_expiry_sweep"

/-- Reports and sweeps agree: the report counts as expired what a sweep at that time expires, each lease
once, and the report after a sweep is fresh. -/
structure SweepsAgree (s : DistributedRuntimeCoordinator π μ ν) (now : Time) (o : HealthThresholds) :
    Prop where
  health : ∀ r, s.health now o = .ok r → r.expiredLeases.Perm (s.sweptLeases now)
  expire : ∀ m, (s.expire now o).1 = .ok m → m.health.Fresh

/-! ## The remaining time -/

theorem lt_toFloat_half : (1 : ℚ) / 2000 < toFloat (1 / 2000) := by
  decide +kernel

theorem secondsRemaining_pos (h : now + 500 ≤ d) : 0 < secondsRemaining d now := by
  have hnear := halfEven_nearest
  unfold secondsRemaining roundFloat toFloat
  refine (hnear.toBinary_pos_iff (by decide)).mpr (hnear.toDecimals_pos ?_)
  set x : ℚ := ((d - now : Int) : ℚ) / 1000000 with hx
  rcases eq_or_lt_of_le (show (500 : Int) ≤ d - now by omega) with heq | hlt
  · have hhalf : x = 1 / 2000 := by rw [hx, ← heq]; norm_num
    have hfloat := lt_toFloat_half
    rw [hhalf]
    norm_num at hfloat ⊢
    exact hfloat
  · have hle : (501 : ℚ) ≤ (d - now : Int) := by exact_mod_cast (by omega : (501 : Int) ≤ d - now)
    have hx' : (501 : ℚ) / 1000000 ≤ x := by rw [hx]; gcongr
    have hround := hnear.le_toBinary (p := 53) (x := x) (by linarith)
    have hpart : x / 2 ^ 53 ≤ x / 1000 := by gcongr; norm_num
    norm_num
    linarith

theorem secondsRemaining_le_zero (h : d < now + 500) : secondsRemaining d now ≤ 0 := by
  have hnear := halfEven_nearest
  unfold secondsRemaining roundFloat toFloat
  refine not_lt.mp fun hpos => ?_
  refine absurd ((hnear.toBinary_pos_iff (by decide)).mp hpos) (not_lt.mpr (hnear.toDecimals_nonpos ?_))
  set x : ℚ := ((d - now : Int) : ℚ) / 1000000 with hx
  have hle : ((d - now : Int) : ℚ) ≤ 499 := by exact_mod_cast (by omega : d - now ≤ (499 : Int))
  have hx' : x ≤ 499 / 1000000 := by rw [hx]; gcongr
  rcases le_or_gt 0 x with hnonneg | hneg
  · have hround := hnear.toBinary_le (p := 53) hnonneg
    have hpart : x / 2 ^ 53 ≤ x / 1000 := by gcongr; norm_num
    norm_num
    linarith
  · have hround : ¬ 0 < toBinary halfEven 53 x :=
      fun h' => hneg.not_gt ((hnear.toBinary_pos_iff (by decide)).mp h')
    norm_num
    linarith

/-- What has less than half a millisecond left counts as expired. -/
theorem secondsRemaining_nonpos : secondsRemaining d now ≤ 0 ↔ d < now + 500 := by
  refine ⟨fun h => ?_, secondsRemaining_le_zero⟩
  by_contra hd
  exact absurd h (not_le.mpr (secondsRemaining_pos (by omega)))

theorem DistributedExpiringLease.expired_iff {now : Time}
    (h : l.secondsRemaining = Distributed.secondsRemaining l.leaseExpiresAt now) :
    l.expired = true ↔ l.leaseExpiresAt < now + 500 := by
  rw [expired, decide_eq_true_iff, h, secondsRemaining_nonpos]

/-! ## The leases of the stores -/

def DistributedExpiringLease.name (l : DistributedExpiringLease) : String × String := (l.leaseType, l.key)

def DistributedExpiringLease.due (now : Time) (l : DistributedExpiringLease) : Bool :=
  decide (l.leaseExpiresAt ≤ now)

open DistributedExpiringLease (name due)

variable {now : Time}

/-- What a sweep finds row by row is what is due among the leases, once it is on every row. -/
theorem map_name_filterMap_due {α β : Type} {f : α → Option DistributedExpiringLease} {g : α → Option β}
    {n : β → String × String} (rows : List α)
    (h : ∀ a, ((f a).filter (due now)).map name = (g a).map n) :
    ((rows.filterMap f).filter (due now)).map name = (rows.filterMap g).map n := by
  rw [List.filter_filterMap, List.map_filterMap, List.map_filterMap]
  exact List.filterMap_congr fun a _ => h a

theorem WorkItem.expiringLease?_eq (i : WorkItem π) :
    i.snapshot.expiringLease? now = i.lease.map fun l =>
      ⟨"work_item", i.workItemId, some l.workerId, l.leaseExpiresAt,
        Distributed.secondsRemaining l.leaseExpiresAt now⟩ := by
  unfold WorkItemSnapshot.expiringLease?
  cases hl : i.lease with
  | none => cases hs : i.status <;> simp [WorkItem.snapshot, hl, hs]
  | some l =>
    have hs := i.leased_iff.mpr ⟨l, hl⟩
    simp [WorkItem.snapshot, hl, hs]

/-- The items that a sweep expires are those whose lease is due. -/
theorem workLeases_due (rows : List (WorkItem π)) :
    ((workLeases (rows.map WorkItem.snapshot) now).filter (due now)).map name =
      (rows.filterMap fun i => i.expired? now).map fun i => ("work_item", i.workItemId) := by
  rw [workLeases, List.filterMap_map]
  refine map_name_filterMap_due rows fun i => ?_
  rw [Function.comp_apply, WorkItem.expiringLease?_eq]
  cases he : i.expired? now with
  | some j =>
    obtain ⟨l, hl, hdue⟩ := WorkItem.expired?_isSome.mp (Option.isSome_of_mem he)
    simp [hl, due, hdue, name, WorkItem.expired?_workItemId he]
  | none =>
    cases hl : i.lease with
    | none => rfl
    | some l =>
      have hlive : now < l.leaseExpiresAt := lt_of_not_ge fun hdue => by
        have := WorkItem.expired?_isSome.mpr ⟨l, hl, hdue⟩
        rw [he] at this
        cases this
      simp [due, hlive]

theorem lockLeases_due (rows : List (DistributedLockLease μ)) :
    ((lockLeases (rows.map DistributedLockLease.snapshot) now).filter (due now)).map name =
      (rows.filter fun l => !l.liveAt now).map fun l => ("distributed_lock", l.lockKey) := by
  unfold lockLeases
  rw [List.map_map, ← List.filterMap_eq_map (f := _ ∘ _),
    ← List.filterMap_eq_filter (p := fun l : DistributedLockLease μ => !l.liveAt now)]
  refine map_name_filterMap_due rows fun l => ?_
  rcases le_or_gt l.leaseExpiresAt now with hdue | hlive
  · simp [due, DistributedLockSnapshot.expiringLease, DistributedLockLease.snapshot,
      DistributedLockLease.liveAt, Option.guard, name, hdue]
  · simp [due, DistributedLockSnapshot.expiringLease, DistributedLockLease.snapshot,
      DistributedLockLease.liveAt, Option.guard, hlive]

theorem workerLeases_due (rows : List (WorkerRecord ν)) :
    ((workerLeases (rows.map WorkerRecord.snapshot) now).filter (due now)).map name =
      (rows.filterMap fun r => WorkerRegistry.lost? r now).map fun r => ("worker", r.workerId) := by
  rw [workerLeases, List.filterMap_map]
  refine map_name_filterMap_due rows fun r => ?_
  rw [Function.comp_apply, WorkerSnapshot.expiringLease?, WorkerRegistry.lost?]
  rcases le_or_gt r.leaseExpiresAt now with hdue | hlive
  · cases hs : r.status <;> simp [WorkerRecord.snapshot, hs, due, hdue, not_lt.mpr hdue, name]
  · cases hs : r.status <;> simp [WorkerRecord.snapshot, hs, due, hlive]

/-! ## Deadlines -/

section Members

variable {l : DistributedExpiringLease}

theorem mem_workLeases {rows : List (WorkItem π)} :
    l ∈ workLeases (rows.map WorkItem.snapshot) now ↔ ∃ i ∈ rows, ∃ l', i.lease = some l' ∧
      ⟨"work_item", i.workItemId, some l'.workerId, l'.leaseExpiresAt,
        Distributed.secondsRemaining l'.leaseExpiresAt now⟩ = l := by
  simp only [workLeases, List.filterMap_map, List.mem_filterMap, Function.comp_apply,
    WorkItem.expiringLease?_eq, Option.map_eq_some_iff]

theorem mem_lockLeases {rows : List (DistributedLockLease μ)} :
    l ∈ lockLeases (rows.map DistributedLockLease.snapshot) now ↔
      ∃ l' ∈ rows, l'.snapshot.expiringLease now = l := by
  simp only [lockLeases, List.map_map, List.mem_map, Function.comp_apply]

theorem mem_workerLeases {rows : List (WorkerRecord ν)} :
    l ∈ workerLeases (rows.map WorkerRecord.snapshot) now ↔
      ∃ r ∈ rows, (r.status = .online ∨ r.status = .draining) ∧
        ⟨"worker", r.workerId, some r.workerId, r.leaseExpiresAt,
          Distributed.secondsRemaining r.leaseExpiresAt now⟩ = l := by
  simp only [workerLeases, List.filterMap_map, List.mem_filterMap, Function.comp_apply,
    WorkerSnapshot.expiringLease?, Option.ite_none_right_eq_some, Option.some.injEq]
  rfl

end Members

namespace DistributedRuntimeCoordinator

variable {s : DistributedRuntimeCoordinator π μ ν} {o : HealthThresholds} {P Q : Time → Prop}

theorem allLeases_perm : (allLeases s.snapshot now).Perm
    (workLeases (s.queue.items.rows.map WorkItem.snapshot) now ++
      lockLeases (s.locks.leases.rows.map DistributedLockLease.snapshot) now ++
      workerLeases (s.workers.rows.map WorkerRecord.snapshot) now) :=
  ((items_perm.filterMap _).append (locks_perm.map _)).append (workers_perm.filterMap _)

/-- A sweep expires the leases of the snapshot that are due. -/
theorem sweptLeases_perm :
    (s.sweptLeases now).Perm (((allLeases s.snapshot now).filter (due now)).map name) := by
  refine List.Perm.trans ?_ ((allLeases_perm.filter (due now)).map name).symm
  rw [List.filter_append, List.filter_append, List.map_append, List.map_append, workLeases_due,
    lockLeases_due, workerLeases_due]
  exact ((List.Perm.refl _).append ((List.perm_insertionSort _ _).map _)).append
    ((List.perm_insertionSort _ _).map _)

theorem mem_allLeases : l ∈ allLeases s.snapshot now ↔
    (l ∈ workLeases (s.queue.items.rows.map WorkItem.snapshot) now ∨
      l ∈ lockLeases (s.locks.leases.rows.map DistributedLockLease.snapshot) now) ∨
      l ∈ workerLeases (s.workers.rows.map WorkerRecord.snapshot) now := by
  rw [allLeases_perm.mem_iff, List.mem_append, List.mem_append]

theorem secondsRemaining_of_mem (h : l ∈ allLeases s.snapshot now) :
    l.secondsRemaining = Distributed.secondsRemaining l.leaseExpiresAt now := by
  rcases mem_allLeases.mp h with (h | h) | h
  · obtain ⟨i, -, l', -, rfl⟩ := mem_workLeases.mp h
    rfl
  · obtain ⟨l', -, rfl⟩ := mem_lockLeases.mp h
    rfl
  · obtain ⟨r, -, -, rfl⟩ := mem_workerLeases.mp h
    rfl

/-- The leases of the snapshot are those with deadlines in the stores. -/
theorem forall_allLeases :
    (∀ l ∈ allLeases s.snapshot now, P l.leaseExpiresAt) ↔ s.Deadlines P := by
  constructor
  · intro h
    refine ⟨fun i hi l hl => ?_, fun l hl => ?_, fun r hr hs => ?_⟩
    · exact h _ (mem_allLeases.mpr (.inl (.inl (mem_workLeases.mpr ⟨i, hi, l, hl, rfl⟩))))
    · exact h _ (mem_allLeases.mpr (.inl (.inr (mem_lockLeases.mpr ⟨l, hl, rfl⟩))))
    · exact h _ (mem_allLeases.mpr (.inr (mem_workerLeases.mpr ⟨r, hr, hs, rfl⟩)))
  · rintro ⟨hitems, hlocks, hworkers⟩ l hl
    rcases mem_allLeases.mp hl with (hl | hl) | hl
    · obtain ⟨i, hi, l', hl', rfl⟩ := mem_workLeases.mp hl
      exact hitems i hi l' hl'
    · obtain ⟨l', hl', rfl⟩ := mem_lockLeases.mp hl
      exact hlocks l' hl'
    · obtain ⟨r, hr, hs, rfl⟩ := mem_workerLeases.mp hl
      exact hworkers r hr hs

theorem Deadlines.swept (h : s.Deadlines P) (now : Time) :
    (s.swept now).Deadlines fun d => P d ∧ now < d := by
  refine ⟨fun j hj l hl => ?_, fun l hl => ?_, fun r hr hs => ?_⟩
  · obtain ⟨i, hi, rfl⟩ := WorkQueue.mem_expire.mp hj
    unfold WorkItem.swept at hl
    cases he : i.expired? now with
    | some j =>
      rw [he, Option.getD_some] at hl
      exact absurd (j.leased_iff.mpr ⟨l, hl⟩) (WorkItem.expired?_ne_leased he)
    | none =>
      rw [he, Option.getD_none] at hl
      refine ⟨h.items i hi l hl, lt_of_not_ge fun hdue => ?_⟩
      have := WorkItem.expired?_isSome.mpr ⟨l, hl, hdue⟩
      rw [he] at this
      cases this
  · obtain ⟨hl, hlive⟩ := Table.mem_filter.mp hl
    exact ⟨h.locks l hl, DistributedLockLease.liveAt_iff.mp hlive⟩
  · rcases (Table.mem_foldl_put (WorkerRegistry.expired_key s.workers now)).mp hr with hr | ⟨hr, hkey⟩
    · obtain ⟨r', -, hlost⟩ := List.mem_filterMap.mp hr
      unfold WorkerRegistry.lost? at hlost
      split at hlost
      · cases hlost
      · split at hlost
        · cases hlost
        · cases hlost
          simp at hs
    · refine ⟨h.workers r hr hs, lt_of_not_ge fun hdue => ?_⟩
      have hin : ¬ (r.status = .offline ∨ r.status = .lost) := by
        rcases hs with hs | hs <;> rw [hs] <;> simp
      have hlost : ∃ lost, WorkerRegistry.lost? r now = some lost := by
        unfold WorkerRegistry.lost?
        rw [if_neg hin, if_neg (not_lt.mpr hdue)]
        exact ⟨_, rfl⟩
      obtain ⟨lost, hlost⟩ := hlost
      exact hkey lost (List.mem_filterMap.mpr ⟨r, hr, hlost⟩) (WorkerRegistry.lost_workerId hlost).1.symm

/-! ## Agreement -/

/-- When the two sides agree: no deadline lies less than half a millisecond ahead; where the report warns
about leases below NaN seconds, which is none, no deadline is due. -/
def Distinguished (s : DistributedRuntimeCoordinator π μ ν) (now : Time) (warnSeconds : PyFloat) : Prop :=
  s.Deadlines fun d => if warnSeconds = .nan then now < d else d ≤ now ∨ now + 500 ≤ d

end DistributedRuntimeCoordinator

open DistributedRuntimeCoordinator

variable {s : DistributedRuntimeCoordinator π μ ν} {o : HealthThresholds}

/-- A warning threshold that is accepted shows all that is expired, unless it is NaN. -/
theorem atMost_of_nonpos {seconds : ℚ} (ho : o.check = .ok ()) (h : seconds ≤ 0) :
    atMost seconds o.leaseExpiryWarnSeconds = !decide (o.leaseExpiryWarnSeconds = .nan) := by
  unfold HealthThresholds.check at ho
  obtain ⟨⟨⟩, -, ho⟩ := Except.bind_eq_ok.mp ho
  obtain ⟨⟨⟩, hwarn, -⟩ := Except.bind_eq_ok.mp ho
  unfold parseNonNegativeFloat at hwarn
  cases hw : o.leaseExpiryWarnSeconds with
  | nan => rfl
  | infinite negative => cases negative <;> simp [hw, atMost] at hwarn ⊢
  | finite q =>
    simp only [hw] at hwarn
    split at hwarn
    · cases hwarn
    · rename_i hq
      have hle : seconds ≤ q := h.trans (by simpa using hq)
      simp [atMost, hle]

theorem expiredLeases_perm (ho : o.check = .ok ()) :
    (healthReport s.snapshot now o).expiredLeases.Perm
      (((allLeases s.snapshot now).filter fun l =>
        decide (o.leaseExpiryWarnSeconds ≠ .nan ∧ l.leaseExpiresAt < now + 500)).map name) := by
  refine (((List.perm_insertionSort _ _).filter _).trans ?_).map name
  rw [List.filter_filter]
  refine List.Perm.of_eq (List.filter_congr fun l hl => ?_)
  have hexpired := l.expired_iff (secondsRemaining_of_mem hl)
  by_cases h : l.leaseExpiresAt < now + 500
  · have hl0 : l.secondsRemaining ≤ 0 := by simpa [DistributedExpiringLease.expired] using hexpired.mpr h
    rw [atMost_of_nonpos ho hl0, hexpired.mpr h]
    simp [h]
  · have hnot : l.expired = false := by simpa using mt hexpired.mp h
    rw [hnot]
    simp [h]

/-! ## Fresh reports -/

section Fresh

variable {leases : List DistributedExpiringLease} {checks : DistributedHealthChecks}
  {gaps : List DistributedCapacityGap} {x : DistributedHealthRecommendation}

theorem status_leaseFreshnessCheck (h : expiredCount leases = 0) :
    (leaseFreshnessCheck leases).status ≠ .error := by
  unfold leaseFreshnessCheck
  rw [if_neg (not_not.mpr h)]
  split <;> simp

theorem code_leaseRecommendations (h : expiredCount leases = 0) (hx : x ∈ leaseRecommendations leases) :
    x.code ≠ "run_expiry_sweep" := by
  unfold leaseRecommendations at hx
  rw [if_neg (not_not.mpr h)] at hx
  split at hx
  · obtain rfl := List.mem_singleton.mp hx
    simp
  · cases hx

/-- Only expired leases make a report recommend a sweep. -/
theorem code_recommendations (h : expiredCount leases = 0) (hx : x ∈ recommendations checks gaps leases) :
    x.code ≠ "run_expiry_sweep" := by
  unfold recommendations at hx
  simp only [List.mem_append, List.mem_ite_nil_right, List.mem_singleton] at hx
  rcases hx with ((((⟨-, rfl⟩ | ⟨-, rfl⟩) | hx) | hx) | ⟨-, rfl⟩) | ⟨-, rfl⟩
  · simp
  · simp
  · obtain ⟨gap, -, rfl⟩ := List.mem_map.mp hx
    simp
  · exact code_leaseRecommendations h hx
  · simp
  · simp

end Fresh

/-- A report without expired leases neither shows one nor asks for a sweep. -/
theorem fresh_of_expiredLeases {snapshot : DistributedRuntimeSnapshot μ ν}
    (h : (healthReport snapshot now o).expiredLeases = []) : (healthReport snapshot now o).Fresh := by
  have hcount : expiredCount (expiringLeases snapshot now o.leaseExpiryWarnSeconds) = 0 := by
    rw [expiredCount, List.countP_eq_length_filter, List.length_eq_zero_iff]
    exact List.map_eq_nil_iff.mp h
  exact ⟨h, status_leaseFreshnessCheck hcount, fun x hx => code_recommendations hcount hx⟩

/-! ## Agreement of the two sides -/

theorem buildDistributedHealthReport_eq {snapshot : DistributedRuntimeSnapshot μ ν} (ho : o.check = .ok ()) :
    buildDistributedHealthReport snapshot now o = .ok (healthReport snapshot now o) := by
  unfold buildDistributedHealthReport
  rw [ho]
  rfl

/-- Two filters of which one keeps more keep as many when they keep the same. -/
theorem map_filter_perm_iff {α β : Type} {p q : α → Bool} {f : α → β} (l : List α)
    (hpq : ∀ a, p a = true → q a = true) :
    ((l.filter q).map f).Perm ((l.filter p).map f) ↔ ∀ a ∈ l, q a = true → p a = true := by
  constructor
  · intro h a ha hq
    have hlength : (l.filter p).length = (l.filter q).length := by simpa using h.length_eq.symm
    have hsame := (List.monotone_filter_right l hpq).eq_of_length hlength
    have hmem : a ∈ l.filter p := hsame ▸ List.mem_filter.mpr ⟨ha, hq⟩
    exact (List.mem_filter.mp hmem).2
  · intro h
    refine List.Perm.of_eq (congrArg (List.map f) (List.filter_congr fun a ha => ?_))
    exact Bool.eq_iff_iff.mpr ⟨h a ha, hpq a⟩

/-- The report counts what the sweep expires when the tests of both sides say the same of every lease. -/
theorem expiredLeases_perm_iff (ho : o.check = .ok ()) :
    (healthReport s.snapshot now o).expiredLeases.Perm (s.sweptLeases now) ↔
      s.Distinguished now o.leaseExpiryWarnSeconds := by
  have hreported : (healthReport s.snapshot now o).expiredLeases.Perm _ := expiredLeases_perm ho
  have hswept : (s.sweptLeases now).Perm _ := sweptLeases_perm
  rw [hreported.congr_left, hswept.congr_right, Distinguished, ← @forall_allLeases _ _ _ now]
  set leases := allLeases s.snapshot now
  by_cases hnan : o.leaseExpiryWarnSeconds = .nan
  · simp only [hnan, ne_eq, not_true_eq_false, false_and, decide_false, List.filter_false, List.map_nil,
      List.nil_perm, List.map_eq_nil_iff, List.filter_eq_nil_iff, if_true]
    simp [due]
  · simp only [hnan, ne_eq, not_false_eq_true, true_and, if_false]
    rw [map_filter_perm_iff leases fun l hl => ?_]
    · refine forall₂_congr fun l _ => ?_
      simp only [due, decide_eq_true_iff]
      constructor
      · intro h
        exact (le_or_gt (now + 500) l.leaseExpiresAt).symm.imp h id
      · intro h hlt
        exact h.resolve_right (not_le.mpr hlt)
    · have hdue : l.leaseExpiresAt ≤ now := of_decide_eq_true hl
      exact decide_eq_true (lt_of_le_of_lt hdue (Int.lt_add_of_pos_right now (by decide)))

theorem fresh_swept (ho : o.check = .ok ()) (h : s.Distinguished now o.leaseExpiryWarnSeconds) :
    (healthReport (s.swept now).snapshot now o).Fresh := by
  refine fresh_of_expiredLeases (List.Perm.eq_nil ((expiredLeases_perm ho).trans (List.Perm.of_eq ?_)))
  have hahead := (@forall_allLeases _ _ _ now _ _).mpr (h.swept now)
  rw [List.map_eq_nil_iff, List.filter_eq_nil_iff]
  intro l hl hlt
  obtain ⟨hwarn, hlt⟩ := of_decide_eq_true hlt
  obtain ⟨hfar, hlive⟩ := hahead l hl
  rw [if_neg hwarn] at hfar
  exact hfar.elim (fun hdue => absurd hdue (not_le.mpr hlive)) fun hfar => absurd hlt (not_lt.mpr hfar)

/-- A health report and an expiry sweep agree on which leases have expired exactly when no deadline lies
less than half a millisecond ahead of the time they are made at. -/
theorem sweepsAgree_iff (ho : o.check = .ok ()) :
    SweepsAgree s now o ↔ s.Distinguished now o.leaseExpiryWarnSeconds := by
  have hhealth : s.health now o = .ok (healthReport s.snapshot now o) := buildDistributedHealthReport_eq ho
  constructor
  · intro h
    exact (expiredLeases_perm_iff ho).mp (h.health _ hhealth)
  · intro h
    refine ⟨fun r hr => ?_, fun m hm => ?_⟩
    · rw [hhealth] at hr
      cases hr
      exact (expiredLeases_perm_iff ho).mpr h
    · rw [expire, buildDistributedHealthReport_eq ho] at hm
      cases hm
      exact fresh_swept ho h

def lockedUntil (deadline : Time) : DistributedRuntimeCoordinator Unit Unit Unit where
  queue := WorkQueue.new
  locks := ⟨Table.empty.put ⟨"deploy", "owner-1", "lock-lease-1", 0, deadline, 0, 1, ()⟩, 1⟩
  workers := Table.empty

/-- With exactly half a millisecond left the lock is live on both sides. -/
theorem sweepsAgree_half : SweepsAgree (lockedUntil 500) 0 HealthThresholds.default := by
  refine (sweepsAgree_iff rfl).mpr ⟨fun i hi => absurd hi (Table.not_mem_empty i), fun l hl => ?_,
    fun r hr => absurd hr (Table.not_mem_empty r)⟩
  obtain rfl := List.mem_singleton.mp hl
  decide

/-- With 400 microseconds left it is live for the sweep and expired for the report. -/
theorem lock_reported_early : ¬ SweepsAgree (lockedUntil 400) 0 HealthThresholds.default := by
  intro h
  have hdistinguished := (expiredLeases_perm_iff rfl).mp (h.health _ (buildDistributedHealthReport_eq rfl))
  have hlock := hdistinguished.locks ⟨"deploy", "owner-1", "lock-lease-1", 0, 400, 0, 1, ()⟩
    (List.mem_singleton.mpr rfl)
  revert hlock
  decide

end UniversalAgent.Distributed
