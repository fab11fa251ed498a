import UniversalAgent.Distributed.LocksDurable
import UniversalAgent.Foundation.Except

/-!
# Distributed — LocksRefinement

`FileDistributedLockRegistry` (one JSON document, replaced as a whole by every save) and
`SQLiteDistributedLockRegistry` (rows of a table and a counter, in a transaction that is rolled
back when the method raises, unless the error is one the method commits on).
-/

namespace UniversalAgent.Distributed

open UniversalAgent.Foundation LockRegistry DurableLocks

variable {δ μ : Type}

/-! ## The file -/

/-- `_DistributedLockRegistryPayload`. -/
structure LockRegistryFilePayload where
  version : Int
  sequence : Option Int
  locks : List DistributedLockLeasePayload
deriving DecidableEq

/-- The document, `none` while the file does not exist. -/
abbrev FileDistributedLockRegistry (μ : Type) := DurableLocks (Option LockRegistryFilePayload) μ

/-- `FileDistributedLockRegistry._load` and `FileDistributedLockRegistry._save`. -/
def fileLockAdapter (c : StorageCodec μ) : LockAdapter (Option LockRegistryFilePayload) μ where
  empty := none
  read
    | none => .ok LockRegistry.new
    | some document =>
      if document.version ≠ 1 then
        .error (.valueError
          ("unsupported file distributed lock version: " ++ toString document.version))
      else
        match loadLeases c "duplicate file distributed lock: " document.locks Table.empty with
        | .error e => .error e
        | .ok leases =>
          .ok ⟨leases, max (loadedSequence leases.rows) (document.sequence.getD 0).toNat⟩
  write r :=
    match r.active.mapM (encodeLockLease c) with
    | .error e => .error e
    | .ok locks =>
      if isJsonInt r.sequence then .ok (some ⟨1, some r.sequence, locks⟩)
      else .error .jsonCodecError

def FileDistributedLockRegistry.step (c : StorageCodec μ) (s : FileDistributedLockRegistry μ) :
    LockOp μ → LockReply μ × FileDistributedLockRegistry μ
  | .acquire request =>
    (.ofLease (s.acquire (fileLockAdapter c) request).1,
      (s.acquire (fileLockAdapter c) request).2)
  | .heartbeat l o ttl now =>
    (.ofLease (s.heartbeat (fileLockAdapter c) l o ttl now).1,
      (s.heartbeat (fileLockAdapter c) l o ttl now).2)
  | .release l o now =>
    (.ofLease (s.release (fileLockAdapter c) l o now).1,
      (s.release (fileLockAdapter c) l o now).2)
  | .expire now =>
    (.ofLeases (s.expire (fileLockAdapter c) now).1, (s.expire (fileLockAdapter c) now).2)
  | .active => (.ofLeases (s.active (fileLockAdapter c)).1, (s.active (fileLockAdapter c)).2)
  | .reopen => (.ofUnit (s.reopen (fileLockAdapter c)).1, (s.reopen (fileLockAdapter c)).2)

def fileLocks (c : StorageCodec μ) :
    Machine (FileDistributedLockRegistry μ) (LockOp μ) (LockReply μ) where
  init := ⟨LockRegistry.new, none⟩
  step := FileDistributedLockRegistry.step c

/-! ## The database -/

/-- A row of `distributed_lock_leases`. -/
structure LockLeaseRow where
  lockKey : String
  ownerId : String
  leaseId : String
  leaseExpiresAt : String
  payload : DistributedLockLeasePayload
deriving DecidableEq

/-- The two tables: the leases, and the value under `sequence`. -/
structure LockTables where
  leases : List LockLeaseRow
  sequence : Option String
deriving DecidableEq

abbrev SQLiteDistributedLockRegistry (μ : Type) := DurableLocks LockTables μ

def sqliteLockLeaseValues (c : StorageCodec μ) (l : DistributedLockLease μ) :
    Except LockError LockLeaseRow :=
  match encodeLockLease c l with
  | .error e => .error e
  | .ok payload => .ok ⟨l.lockKey, l.ownerId, l.leaseId, c.isoformat l.leaseExpiresAt, payload⟩

def sqliteLockSequence : Option String → Except LockError Nat
  | none => .ok 0
  | some value =>
    match Text.parseDecimal value with
    | some n => .ok n
    | none =>
      .error (.valueError "sqlite distributed lock sequence must be a decimal string")

/-- `SQLiteDistributedLockRegistry._load` and `SQLiteDistributedLockRegistry._save`. -/
def sqliteLockAdapter (c : StorageCodec μ) : LockAdapter LockTables μ where
  empty := ⟨[], none⟩
  read tables :=
    match loadLeases c "duplicate sqlite distributed lock: "
        ((tables.leases.insertionSort fun x y => x.lockKey ≤ y.lockKey).map fun x => x.payload)
        Table.empty with
    | .error e => .error e
    | .ok leases =>
      match sqliteLockSequence tables.sequence with
      | .error e => .error e
      | .ok stored => .ok ⟨leases, max stored (loadedSequence leases.rows)⟩
  write r :=
    match r.active.mapM (sqliteLockLeaseValues c) with
    | .error e => .error e
    | .ok rows => .ok ⟨rows, some (toString r.sequence)⟩

namespace SQLiteDistributedLockRegistry

/-- `_transaction(commit_on=...)`. -/
def transaction {α : Type} (commitOn : LockError → Bool) (s : SQLiteDistributedLockRegistry μ)
    (body : SQLiteDistributedLockRegistry μ → LockOutcome (SQLiteDistributedLockRegistry μ) α) :
    LockOutcome (SQLiteDistributedLockRegistry μ) α :=
  match body s with
  | (.ok x, s') => (.ok x, s')
  | (.error e, s') => if commitOn e then (.error e, s') else (.error e, { s' with data := s.data })

def commitOnNothing : LockError → Bool := fun _ => false

def commitOnConflict : LockError → Bool
  | .conflict _ => true
  | _ => false

def commitOnLeaseLost : LockError → Bool
  | .leaseLost _ => true
  | _ => false

/-- The body of `acquire`. -/
def acquireBody (c : StorageCodec μ) (request : AcquireRequest μ)
    (s : SQLiteDistributedLockRegistry μ) :
    LockOutcome (SQLiteDistributedLockRegistry μ) (DistributedLockLease μ) :=
  s.loading (sqliteLockAdapter c) fun s =>
    match request.check with
    | .error e => (.error e, s)
    | .ok () =>
      let (expired, r) := s.registry.expire request.now
      let s : SQLiteDistributedLockRegistry μ := { s with registry := r }
      match r.leases.get? request.lockKey with
      | some existing =>
        let saved := if expired = [] then .ok s else s.save (sqliteLockAdapter c)
        match saved with
        | .error e => (.error e, s)
        | .ok s =>
          if existing.ownerId = request.ownerId then (.ok existing, s)
          else (.error (.conflict
            ("lock is owned by " ++ existing.ownerId ++ ": " ++ request.lockKey)), s)
      | none => DurableLocks.saving (sqliteLockAdapter c) (s.inherited fun r => r.grant request)

def acquire (c : StorageCodec μ) (s : SQLiteDistributedLockRegistry μ)
    (request : AcquireRequest μ) :
    LockOutcome (SQLiteDistributedLockRegistry μ) (DistributedLockLease μ) :=
  transaction commitOnConflict s (acquireBody c request)

def step (c : StorageCodec μ) (s : SQLiteDistributedLockRegistry μ) :
    LockOp μ → LockReply μ × SQLiteDistributedLockRegistry μ
  | .acquire request => (.ofLease (acquire c s request).1, (acquire c s request).2)
  | .heartbeat l o ttl now =>
    let result := transaction commitOnLeaseLost s fun s =>
      s.heartbeat (sqliteLockAdapter c) l o ttl now
    (.ofLease result.1, result.2)
  | .release l o now =>
    let result := transaction commitOnLeaseLost s fun s =>
      s.release (sqliteLockAdapter c) l o now
    (.ofLease result.1, result.2)
  | .expire now =>
    let result := transaction commitOnNothing s fun s => s.expire (sqliteLockAdapter c) now
    (.ofLeases result.1, result.2)
  | .active => (.ofLeases (s.active (sqliteLockAdapter c)).1, (s.active (sqliteLockAdapter c)).2)
  | .reopen => (.ofUnit (s.reopen (sqliteLockAdapter c)).1, (s.reopen (sqliteLockAdapter c)).2)

end SQLiteDistributedLockRegistry

def sqliteLocks (c : StorageCodec μ) :
    Machine (SQLiteDistributedLockRegistry μ) (LockOp μ) (LockReply μ) where
  init := ⟨LockRegistry.new, ⟨[], none⟩⟩
  step := SQLiteDistributedLockRegistry.step c

/-! ## The adapters -/

section Adapters

variable (c : StorageCodec μ)

theorem max_loadedSequence {r : LockRegistry μ} (hi : LockInv r) {t : LockLeases μ}
    (hs : ∀ l, l ∈ t ↔ l ∈ r.leases) :
    max (loadedSequence t.rows) r.sequence = r.sequence :=
  max_eq_right (loadedSequence_le hi fun l hl => (hs l).mp hl)

def sortedLeases (t : LockLeases μ) : LockLeases μ :=
  ⟨DistributedLockLease.sorted t.rows,
    ((List.perm_insertionSort _ t.rows).map _).nodup_iff.mpr t.nodup⟩

variable {l : DistributedLockLease μ}

theorem mem_sortedLeases {t : LockLeases μ} :
    l ∈ sortedLeases t ↔ l ∈ t := DistributedLockLease.mem_sorted

/-- A map over leases one of which cannot be encoded. -/
theorem mapM_lease_error {β : Type} {f : DistributedLockLease μ → Except LockError β}
    (hf : ∀ l e, f l = .error e → e = .jsonCodecError) {ls : List (DistributedLockLease μ)}
    (hl : l ∈ ls) (he : f l = .error .jsonCodecError) :
    ls.mapM f = .error .jsonCodecError := by
  cases hm : ls.mapM f with
  | ok ys =>
    obtain ⟨y, -, hy⟩ := Except.exists_of_mapM_eq_ok hm l hl
    rw [he] at hy
    cases hy
  | error e =>
    obtain ⟨x, -, hx⟩ := Except.exists_of_mapM_eq_error hm
    rw [hf x e hx]

theorem encodeLockLease_error {e : LockError} (h : encodeLockLease c l = .error e) : e = .jsonCodecError := by
  by_cases hs : Storable c l
  · obtain ⟨p, hp⟩ := encodeLockLease_of_storable c hs
    rw [hp] at h
    cases h
  · rw [encodeLockLease_of_not_storable c hs] at h
    exact (Except.error.inj h).symm

theorem sqliteLockLeaseValues_eq_ok {row : LockLeaseRow} :
    sqliteLockLeaseValues c l = .ok row ↔
      ∃ payload, encodeLockLease c l = .ok payload ∧
        row = ⟨l.lockKey, l.ownerId, l.leaseId, c.isoformat l.leaseExpiresAt, payload⟩ := by
  unfold sqliteLockLeaseValues
  cases encodeLockLease c l with
  | error e => simp
  | ok payload => simp [eq_comm]

theorem fileLockAdapter_lawful : (fileLockAdapter c).Lawful c where
  empty := rfl
  write_ok := fun r hr => by
    have henc : ∀ l ∈ r.active, ∃ p, encodeLockLease c l = .ok p := fun l hl =>
      encodeLockLease_of_storable c (hr.leases l (DistributedLockLease.mem_sorted.mp hl))
    obtain ⟨ps, hps⟩ := Except.exists_mapM_eq_ok henc
    have hload := loadLeases_encode c "duplicate file distributed lock: "
      (Except.mapM_eq_ok.mp hps) Table.empty (sortedLeases r.leases) rfl
    refine ⟨some ⟨1, some r.sequence, ps⟩, ⟨sortedLeases r.leases, r.sequence⟩, ?_, ?_,
      fun l => mem_sortedLeases.symm, rfl⟩
    · simp only [fileLockAdapter, hps, hr.sequence, if_true]
    · have hmax := max_loadedSequence hr.lockInv (t := sortedLeases r.leases)
        fun l => mem_sortedLeases
      simp only [fileLockAdapter, ne_eq, not_true_eq_false, if_false, hload, Option.getD_some,
        Int.toNat_natCast]
      rw [hmax]
  write_error := fun r l hl hn => by
    have hm := mapM_lease_error (f := encodeLockLease c) (fun l e => encodeLockLease_error c)
      (DistributedLockLease.mem_sorted.mpr hl) (encodeLockLease_of_not_storable c hn)
    simp only [fileLockAdapter, LockRegistry.active, hm]

theorem sqliteLockAdapter_lawful : (sqliteLockAdapter c).Lawful c where
  empty := rfl
  write_ok := fun r hr => by
    have henc : ∀ l ∈ r.active, ∃ row, sqliteLockLeaseValues c l = .ok row := fun l hl => by
      obtain ⟨p, hp⟩ :=
        encodeLockLease_of_storable c (hr.leases l (DistributedLockLease.mem_sorted.mp hl))
      exact ⟨_, (sqliteLockLeaseValues_eq_ok c).mpr ⟨p, hp, rfl⟩⟩
    obtain ⟨rows, hrows⟩ := Except.exists_mapM_eq_ok henc
    have hall := Except.mapM_eq_ok.mp hrows
    -- the rows are in the order in which they are read back
    have hkeys : r.active.map (fun l => l.lockKey) = rows.map fun x => x.lockKey := by
      rw [← List.forall₂_eq_eq_eq, List.forall₂_map_left_iff, List.forall₂_map_right_iff]
      refine hall.imp fun l row h => ?_
      obtain ⟨payload, -, rfl⟩ := (sqliteLockLeaseValues_eq_ok c).mp h
      rfl
    have hsorted : rows.insertionSort (fun x y => x.lockKey ≤ y.lockKey) = rows := by
      refine List.Pairwise.insertionSort_eq (List.pairwise_map.mp ?_)
      rw [← hkeys]
      exact List.pairwise_map.mpr (DistributedLockLease.pairwise_sorted _)
    have hpayload : List.Forall₂ (fun l p => encodeLockLease c l = .ok p) r.active
        (rows.map fun x => x.payload) := by
      refine List.forall₂_map_right_iff.mpr (hall.imp fun l row h => ?_)
      obtain ⟨payload, hp, rfl⟩ := (sqliteLockLeaseValues_eq_ok c).mp h
      exact hp
    have hload := loadLeases_encode c "duplicate sqlite distributed lock: " hpayload Table.empty
      (sortedLeases r.leases) rfl
    have hmax := max_loadedSequence hr.lockInv (t := sortedLeases r.leases)
      fun l => mem_sortedLeases
    refine ⟨⟨rows, some (toString r.sequence)⟩, ⟨sortedLeases r.leases, r.sequence⟩, ?_, ?_,
      fun l => mem_sortedLeases.symm, rfl⟩
    · simp only [sqliteLockAdapter, hrows]
    · simp only [sqliteLockAdapter, hsorted, hload, sqliteLockSequence, Text.parseDecimal_toString]
      rw [max_comm, hmax]
  write_error := fun r l hl hn => by
    have hm := mapM_lease_error (f := sqliteLockLeaseValues c) (fun l e he => ?_)
      (DistributedLockLease.mem_sorted.mpr hl)
      (by rw [sqliteLockLeaseValues, encodeLockLease_of_not_storable c hn])
    · simp only [sqliteLockAdapter, LockRegistry.active, hm]
    · unfold sqliteLockLeaseValues at he
      cases henc : encodeLockLease c l with
      | error e' =>
        rw [henc] at he
        cases he
        exact encodeLockLease_error c henc
      | ok p =>
        rw [henc] at he
        cases he

end Adapters

/-! ## The calls -/

section Calls

variable {c : StorageCodec μ}

theorem fileLocks_stored (c : StorageCodec μ) :
    StoredLocks (fileLockAdapter c) c (fileLocks c) where
  lawful := fileLockAdapter_lawful c
  init := rfl
  step := fun s r op h => by
    have ha := fileLockAdapter_lawful c
    cases op with
    | acquire request => exact serves_acquire (acquire_simulates ha h request)
    | heartbeat l o ttl now =>
      obtain ⟨hans, hst⟩ := heartbeat_simulates ha h l o ttl now
      exact .inl ⟨congrArg LockReply.ofLease hans, hst⟩
    | release l o now =>
      obtain ⟨hans, hst⟩ := release_simulates ha h l o now
      exact .inl ⟨congrArg LockReply.ofLease hans, hst⟩
    | expire now =>
      obtain ⟨hans, hst⟩ := (expire_simulates ha h now).1
      exact .inl ⟨congrArg LockReply.ofLeases hans, hst⟩
    | active =>
      obtain ⟨hans, hst⟩ := active_simulates h
      exact .inl ⟨congrArg LockReply.ofLeases hans, hst⟩
    | reopen =>
      obtain ⟨hans, hst⟩ := reopen_simulates h
      exact .inl ⟨congrArg LockReply.ofUnit hans, hst⟩

namespace SQLiteDistributedLockRegistry

variable {s : SQLiteDistributedLockRegistry μ} {r : LockRegistry μ}

/-- A transaction simulates what its body does, when an error that rolls back leaves the registry
as it was. -/
theorem transaction_simulates {α : Type} {commitOn : LockError → Bool}
    {body : SQLiteDistributedLockRegistry μ → LockOutcome (SQLiteDistributedLockRegistry μ) α}
    {p : LockOutcome (LockRegistry μ) α} (h : Stands (sqliteLockAdapter c) c s r)
    (hs : Simulates (sqliteLockAdapter c) c (body s) p)
    (hback : ∀ e, p.1 = .error e → commitOn e = false → p.2 = r) :
    Simulates (sqliteLockAdapter c) c (transaction commitOn s body) p := by
  obtain ⟨hans, hst⟩ := hs
  unfold transaction
  rcases hb : body s with ⟨res, s'⟩
  rw [hb] at hans hst
  cases res with
  | ok x => exact ⟨hans, hst⟩
  | error e =>
    simp only
    split
    · exact ⟨hans, hst⟩
    · rename_i hc
      have hr := hback e hans.symm (by simpa using hc)
      exact ⟨hans, r, ⟨h.writable, h.read⟩, hr ▸ .refl _⟩

/-- The error of a call that presents a lease either commits or changed nothing. -/
theorem withActiveLease_error {leaseId ownerId : String} {now : Time}
    {body : DistributedLockLease μ → LockOutcome (LockRegistry μ) (DistributedLockLease μ)}
    {e : LockError} (hbody : ∀ l e, (body l).1 = .error e → (body l).2 = r)
    (he : (r.withActiveLease leaseId ownerId now body).1 = .error e)
    (hc : commitOnLeaseLost e = false) :
    (r.withActiveLease leaseId ownerId now body).2 = r := by
  unfold LockRegistry.withActiveLease at he ⊢
  split at he
  · rfl
  · split at he
    · exact hbody _ e he
    · cases he
      cases hc
    · rfl

theorem renew_error {ttl : ℚ} {now : Time} (l : DistributedLockLease μ)
    (e : LockError) (he : (r.renew ttl now l).1 = .error e) : (r.renew ttl now l).2 = r := by
  unfold renew at he ⊢
  split at he
  · rfl
  · cases he

/-- `acquire`, written out again: an error after the sweep rolls it back, except a conflict. -/
theorem acquire_simulates
    (h : Stands (sqliteLockAdapter c) c s r) (request : AcquireRequest μ) :
    Simulates (sqliteLockAdapter c) c (acquire c s request) (r.acquire request) ∨
      Fails (sqliteLockAdapter c) c (acquire c s request) r request := by
  have ha := sqliteLockAdapter_lawful c
  have hw : WritableLocks c (r.expire request.now).2 :=
    h.writable.swept (r.expire_sweptTo request.now)
  unfold acquire transaction acquireBody LockRegistry.acquire acquireSwept
  rw [h.loading]
  cases hc : request.check with
  | error e =>
    simp only
    split
    · exact .inl ⟨rfl, r, h.inMemory r, .refl r⟩
    · exact .inl ⟨rfl, r, h.inMemory r, .refl r⟩
  | ok _ =>
    simp only
    cases hg : (r.expire request.now).2.leases.get? request.lockKey with
    | some existing =>
      -- what is kept is the sweep, saved if it found anything
      obtain ⟨s', hs', hst'⟩ : ∃ s',
          (if (r.expire request.now).1 = [] then
              Except.ok ({ s with registry := (r.expire request.now).2 } :
                SQLiteDistributedLockRegistry μ)
            else DurableLocks.save (sqliteLockAdapter c)
              { s with registry := (r.expire request.now).2 }) = .ok s' ∧
            ∃ r', Stands (sqliteLockAdapter c) c s' r' ∧ (r.expire request.now).2.Same r' := by
        by_cases hnil : (r.expire request.now).1 = []
        · rw [if_pos hnil, expire_of_nil hnil]
          exact ⟨_, rfl, r, h.inMemory r, .refl r⟩
        · rw [if_neg hnil]
          obtain ⟨s', hs', -, hst'⟩ :=
            save_ok ha (s := { s with registry := (r.expire request.now).2 }) hw
          exact ⟨s', hs', hst'⟩
      simp only [hs']
      by_cases ho : existing.ownerId = request.ownerId
      · simp only [ho, if_true]
        exact .inl ⟨rfl, hst'⟩
      · simp only [ho, if_false, commitOnConflict, if_true]
        exact .inl ⟨rfl, hst'⟩
    | none =>
      have hfree := Table.get?_eq_none.mp hg
      simp only [inherited]
      rcases grant_saving ha (s := { s with registry := (r.expire request.now).2 }) hw hfree with
        ⟨⟨l, hl⟩, hans, hst⟩ | ⟨hng, e, hfail⟩
      · rcases hsv : DurableLocks.saving (sqliteLockAdapter c)
          (((r.expire request.now).2.grant request).1,
            ({ s with registry := ((r.expire request.now).2.grant request).2 } :
              SQLiteDistributedLockRegistry μ)) with ⟨res, s'⟩
        rw [hsv] at hans hst
        rw [show res = .ok l from hans.trans hl]
        exact .inl ⟨hl.symm, hst⟩
      · simp only [hfail]
        refine .inr ⟨⟨free_of_swept hc hfree, hng⟩, ?_⟩
        split
        · exact ⟨⟨e, rfl⟩, r, h.inMemory _, (Same.refl r).keeps _⟩
        · exact ⟨⟨e, rfl⟩, r, h.inMemory _, (Same.refl r).keeps _⟩

end SQLiteDistributedLockRegistry

open SQLiteDistributedLockRegistry in
theorem sqliteLocks_stored (c : StorageCodec μ) :
    StoredLocks (sqliteLockAdapter c) c (sqliteLocks c) where
  lawful := sqliteLockAdapter_lawful c
  init := rfl
  step := fun s r op h => by
    have ha := sqliteLockAdapter_lawful c
    cases op with
    | acquire request =>
      exact serves_acquire (SQLiteDistributedLockRegistry.acquire_simulates h request)
    | heartbeat l o ttl now =>
      have hs : Simulates (sqliteLockAdapter c) c
          (transaction commitOnLeaseLost s fun s => s.heartbeat (sqliteLockAdapter c) l o ttl now)
          (r.heartbeat l o ttl now) :=
        transaction_simulates h (heartbeat_simulates ha h l o ttl now)
          fun e he hc => withActiveLease_error renew_error he hc
      exact .inl ⟨congrArg LockReply.ofLease hs.1, hs.2⟩
    | release l o now =>
      have hs : Simulates (sqliteLockAdapter c) c
          (transaction commitOnLeaseLost s fun s => s.release (sqliteLockAdapter c) l o now)
          (r.release l o now) :=
        transaction_simulates h (release_simulates ha h l o now)
          fun e he hc => withActiveLease_error (fun _ _ he => by cases he) he hc
      exact .inl ⟨congrArg LockReply.ofLease hs.1, hs.2⟩
    | expire now =>
      have hs : Simulates (sqliteLockAdapter c) c
          (transaction commitOnNothing s fun s => s.expire (sqliteLockAdapter c) now)
          (.ok (r.expire now).1, (r.expire now).2) :=
        transaction_simulates h (expire_simulates ha h now).1 fun _ he => by cases he
      exact .inl ⟨congrArg LockReply.ofLeases hs.1, hs.2⟩
    | active =>
      obtain ⟨hans, hst⟩ := active_simulates h
      exact .inl ⟨congrArg LockReply.ofLeases hans, hst⟩
    | reopen =>
      obtain ⟨hans, hst⟩ := reopen_simulates h
      exact .inl ⟨congrArg LockReply.ofUnit hans, hst⟩

end Calls

/-! ## The three registries -/

def countCodec : StorageCodec Int where
  dumps n := if isJsonInt n then some (toString n) else none
  loads := parseInteger
  isoformat := epochCodec.isoformat
  parseDatetime := epochCodec.parseDatetime
  loads_dumps n text h := by
    split at h
    · rw [← Option.some.inj h, parseInteger_toString]
    · cases h
  parse_isoformat := epochCodec.parse_isoformat

/-- `acquire` by an owner, on metadata of one integer. -/
def plainAcquire (lockKey ownerId : String) (ttlSeconds : ℚ) (metadata : Int) (now : Time) :
    LockOp Int := .acquire ⟨lockKey, ownerId, ttlSeconds, metadata, now⟩

/-- A lock that is taken, refused to another worker, renewed, left to run out and taken over. -/
def handover : List (LockOp Int) :=
  [plainAcquire "session/1" "worker-a" 10 0 0, plainAcquire "session/1" "worker-b" 10 0 1000000,
    .heartbeat "lock-lease-1" "worker-a" 10 5000000, .reopen,
    plainAcquire "session/1" "worker-b" 10 0 16000000, .release "lock-lease-1" "worker-a" 17000000,
    .active]

def twoLocks : LockRegistry Int :=
  (memoryLocks Int).state
    [plainAcquire "session/1" "worker-a" 5 0 0, plainAcquire "session/2" "worker-b" 5 0 0]

end UniversalAgent.Distributed
