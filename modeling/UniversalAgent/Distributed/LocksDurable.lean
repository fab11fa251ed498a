import UniversalAgent.Distributed.LockEffects
import UniversalAgent.Distributed.QueueCodec

/-!
# Distributed — LocksDurable

What `FileDistributedLockRegistry` and `SQLiteDistributedLockRegistry` share: an in-memory
registry with storage. Every public method loads the registry, runs the inherited method and
saves what it left, where the inherited method itself calls the overridden `expire`.

`Stands a c s r` says that the storage of the object `s` reads back as the registry `r`. The
second half shows the methods to act on the object as those of the in-memory registry act on
`r`, up to the order of the leases. `acquire` is the exception: a grant that fails leaves the
number it took in the in-memory registry only.
-/

namespace UniversalAgent.Distributed

open UniversalAgent.Foundation LockRegistry

variable {now : Time} {leaseId ownerId : String} {α : Type}

variable {δ μ : Type}

/-! ## The stored form -/

structure DistributedLockLeasePayload where
  lockKey : String
  ownerId : String
  leaseId : String
  acquiredAt : String
  leaseExpiresAt : String
  heartbeatAt : String
  fencingToken : Int
  metadata : String
deriving DecidableEq, Inhabited

section Codec

variable (c : StorageCodec μ)

def Storable (l : DistributedLockLease μ) : Prop :=
  (c.dumps l.metadata).isSome = true ∧ isJsonInt l.fencingToken = true

/-- `_encode_distributed_lock_lease`, with the text of the metadata. -/
def leasePayload (l : DistributedLockLease μ) (metadata : String) :
    DistributedLockLeasePayload where
  lockKey := l.lockKey
  ownerId := l.ownerId
  leaseId := l.leaseId
  acquiredAt := c.isoformat l.acquiredAt
  leaseExpiresAt := c.isoformat l.leaseExpiresAt
  heartbeatAt := c.isoformat l.heartbeatAt
  fencingToken := l.fencingToken
  metadata := metadata

/-- `dumps_json(_encode_distributed_lock_lease(lease))`. -/
def encodeLockLease (l : DistributedLockLease μ) : Except LockError DistributedLockLeasePayload :=
  match c.dumps l.metadata with
  | none => .error .jsonCodecError
  | some text =>
    if isJsonInt l.fencingToken then .ok (leasePayload c l text) else .error .jsonCodecError

def parseLockDatetime (path text : String) : Except LockError Time :=
  match c.parseDatetime text with
  | some t => .ok t
  | none => .error (.valueError (path ++ " must be an ISO datetime"))

/-- `_decode_distributed_lock_lease`: the fields, then the check of `__post_init__`. -/
def decodeLockLease (p : DistributedLockLeasePayload) :
    Except LockError (DistributedLockLease μ) := do
  let metadata ← match c.loads p.metadata with
    | some m => Except.ok m
    | none => .error .jsonCodecError
  let acquiredAt ← parseLockDatetime c "acquired_at" p.acquiredAt
  let leaseExpiresAt ← parseLockDatetime c "lease_expires_at" p.leaseExpiresAt
  let heartbeatAt ← parseLockDatetime c "heartbeat_at" p.heartbeatAt
  if p.fencingToken < 0 then throw (.valueError "fencing_token must be non-negative")
  else pure ⟨p.lockKey, p.ownerId, p.leaseId, acquiredAt, leaseExpiresAt, heartbeatAt,
    p.fencingToken.toNat, metadata⟩

/-- The loop of `_load`, where `duplicate` begins the message for a second lease of one key. -/
def loadLeases (duplicate : String) :
    List DistributedLockLeasePayload → LockLeases μ → Except LockError (LockLeases μ)
  | [], leases => .ok leases
  | p :: ps, leases =>
    match decodeLockLease c p with
    | .error e => .error e
    | .ok l =>
      match leases.get? l.lockKey with
      | some _ => .error (.valueError (duplicate ++ l.lockKey))
      | none => loadLeases duplicate ps (leases.put l)

variable {l : DistributedLockLease μ} {p : DistributedLockLeasePayload}

theorem encodeLockLease_eq_ok :
    encodeLockLease c l = .ok p ↔
      ∃ text, c.dumps l.metadata = some text ∧ isJsonInt l.fencingToken = true ∧
        leasePayload c l text = p := by
  unfold encodeLockLease
  cases c.dumps l.metadata with
  | none => simp
  | some text => by_cases h : isJsonInt l.fencingToken = true <;> simp [h]

theorem encodeLockLease_of_storable (h : Storable c l) : ∃ p, encodeLockLease c l = .ok p := by
  obtain ⟨hd, hn⟩ := h
  obtain ⟨text, ht⟩ := Option.isSome_iff_exists.mp hd
  exact ⟨_, (encodeLockLease_eq_ok c).mpr ⟨text, ht, hn, rfl⟩⟩

theorem encodeLockLease_of_not_storable (h : ¬ Storable c l) :
    encodeLockLease c l = .error .jsonCodecError := by
  unfold encodeLockLease
  cases hd : c.dumps l.metadata with
  | none => rfl
  | some text => exact if_neg fun hn => h ⟨Option.isSome_iff_exists.mpr ⟨text, hd⟩, hn⟩

/-- **A lease that was written reads back as itself.** -/
theorem decodeLockLease_encode (h : encodeLockLease c l = .ok p) : decodeLockLease c p = .ok l := by
  obtain ⟨text, ht, -, rfl⟩ := (encodeLockLease_eq_ok c).mp h
  have hn : ¬ (l.fencingToken : Int) < 0 := Int.not_lt.mpr (Int.natCast_nonneg _)
  simp [decodeLockLease, leasePayload, parseLockDatetime, c.loads_dumps _ _ ht, c.parse_isoformat,
    hn, bind, Except.bind, pure, Except.pure]

/-- Leases of distinct keys load into the table of these leases, in their order. -/
theorem loadLeases_encode (duplicate : String) {rows : List (DistributedLockLease μ)}
    {ps : List DistributedLockLeasePayload}
    (hps : List.Forall₂ (fun l p => encodeLockLease c l = .ok p) rows ps)
    (leases t : LockLeases μ) (ht : t.rows = leases.rows ++ rows) :
    loadLeases c duplicate ps leases = .ok t := by
  induction hps generalizing leases with
  | nil => rw [loadLeases, Table.ext (ht.trans (List.append_nil _))]
  | @cons l p rows ps hl _ ih =>
    have hnd := t.nodup
    rw [ht, List.map_append, List.map_cons, List.nodup_append] at hnd
    have hfree : l.lockKey ∉ leases.rows.map fun x => x.lockKey := fun hmem =>
      hnd.2.2 _ hmem _ List.mem_cons_self rfl
    have hnone : leases.get? l.lockKey = none :=
      Table.get?_eq_none.mpr fun x hx he => hfree (he ▸ List.mem_map_of_mem hx)
    have hput : (leases.put l).rows = leases.rows ++ [l] := by
      simp only [Table.put, hfree, dif_neg, not_false_eq_true]
    rw [loadLeases, decodeLockLease_encode c hl]
    simp only [hnone]
    exact ih (leases.put l) (by rw [ht, hput, List.append_assoc, List.singleton_append])

end Codec

def sequenceFromLockLeaseId (leaseId : String) : Nat :=
  let chars := leaseId.toList
  if "lock-lease-".toList.isPrefixOf chars then
    (Text.parseDecimal (String.ofList (chars.drop 11))).getD 0
  else 0

theorem sequenceFromLockLeaseId_numbered (n : Nat) :
    sequenceFromLockLeaseId ("lock-lease-" ++ toString n) = n := by
  have hl : ("lock-lease-" ++ toString n).toList = "lock-lease-".toList ++ (toString n).toList :=
    String.toList_append
  have hp : "lock-lease-".toList.isPrefixOf ("lock-lease-".toList ++ (toString n).toList) = true :=
    List.isPrefixOf_iff_prefix.mpr (List.prefix_append _ _)
  have hd : ("lock-lease-".toList ++ (toString n).toList).drop 11 = (toString n).toList :=
    List.drop_left' rfl
  rw [sequenceFromLockLeaseId]
  simp only [hl, hp, hd, if_true, String.ofList_toList, Text.parseDecimal_toString,
    Option.getD_some]

/-- `max((_sequence_from_lock_lease_id(...) for lease in leases), default=0)`. -/
def loadedSequence (leases : List (DistributedLockLease μ)) : Nat :=
  (leases.map fun l => sequenceFromLockLeaseId l.leaseId).foldl max 0

/-- The counter is above the numbers in the lease ids. -/
theorem loadedSequence_le {r : LockRegistry μ} (hi : LockInv r)
    {leases : List (DistributedLockLease μ)} (hl : ∀ l ∈ leases, l ∈ r.leases) :
    loadedSequence leases ≤ r.sequence := by
  have hfold : ∀ (ns : List Nat) (a : Nat), a ≤ r.sequence → (∀ n ∈ ns, n ≤ r.sequence) →
      ns.foldl max a ≤ r.sequence := by
    intro ns
    induction ns with
    | nil => intro a ha _; exact ha
    | cons n ns ih =>
      intro a ha hns
      exact ih (max a n) (max_le ha (hns n List.mem_cons_self))
        fun k hk => hns k (List.mem_cons_of_mem n hk)
  refine hfold _ 0 (Nat.zero_le _) fun n hn => ?_
  obtain ⟨l, hmem, rfl⟩ := List.mem_map.mp hn
  have hlr := hl l hmem
  rw [hi.leaseId l hlr, sequenceFromLockLeaseId_numbered]
  exact hi.bounded l hlr

/-! ## The object -/

/-- Storage of type `δ`: `read` is the part of `_load` that decodes it, `write` the part of
`_save` that encodes the registry. -/
structure LockAdapter (δ μ : Type) where
  empty : δ
  read : δ → Except LockError (LockRegistry μ)
  write : LockRegistry μ → Except LockError δ

/-- The object: what it inherits from `InMemoryDistributedLockRegistry`, and its storage. -/
structure DurableLocks (δ μ : Type) where
  registry : LockRegistry μ
  data : δ

namespace DurableLocks

variable (a : LockAdapter δ μ)

def load (s : DurableLocks δ μ) : Except LockError (DurableLocks δ μ) :=
  match a.read s.data with
  | .error e => .error e
  | .ok r => .ok { s with registry := r }

def save (s : DurableLocks δ μ) : Except LockError (DurableLocks δ μ) :=
  match a.write s.registry with
  | .error e => .error e
  | .ok data => .ok { s with data := data }

/-- A body that starts with `self._load()`. -/
def loading {α : Type} (s : DurableLocks δ μ)
    (body : DurableLocks δ μ → LockOutcome (DurableLocks δ μ) α) : LockOutcome (DurableLocks δ μ) α :=
  match s.load a with
  | .error e => (.error e, s)
  | .ok s => body s

/-- `self._save()` before the result is returned. -/
def saving {α : Type} : LockOutcome (DurableLocks δ μ) α → LockOutcome (DurableLocks δ μ) α
  | (.error e, s) => (.error e, s)
  | (.ok x, s) =>
    match s.save a with
    | .error e => (.error e, s)
    | .ok s => (.ok x, s)

def inherited {α : Type} (s : DurableLocks δ μ) (f : LockRegistry μ → LockOutcome (LockRegistry μ) α) :
    LockOutcome (DurableLocks δ μ) α :=
  ((f s.registry).1, { s with registry := (f s.registry).2 })

/-- `expire`: the registry is saved only when something expired. -/
def expire (s : DurableLocks δ μ) (now : Time) :
    LockOutcome (DurableLocks δ μ) (List (DistributedLockLease μ)) :=
  s.loading a fun s =>
    let result := s.inherited fun r => (.ok (r.expire now).1, (r.expire now).2)
    if (s.registry.expire now).1 = [] then result else saving a result

def active (s : DurableLocks δ μ) : LockOutcome (DurableLocks δ μ) (List (DistributedLockLease μ)) :=
  s.loading a fun s => (.ok s.registry.active, s)

/-- `acquire`, where it is inherited. -/
def acquire (s : DurableLocks δ μ) (request : AcquireRequest μ) :
    LockOutcome (DurableLocks δ μ) (DistributedLockLease μ) :=
  s.loading a fun s => saving a <|
    match request.check with
    | .error e => (.error e, s)
    | .ok () =>
      match s.expire a request.now with
      | (.error e, s) => (.error e, s)
      | (.ok _, s) => s.inherited fun r => r.acquireSwept request

/-- `_active_lease`, and `body` on what it returns. -/
def withActiveLease (s : DurableLocks δ μ) (leaseId ownerId : String) (now : Time)
    (body : LockRegistry μ → DistributedLockLease μ →
      LockOutcome (LockRegistry μ) (DistributedLockLease μ)) :
    LockOutcome (DurableLocks δ μ) (DistributedLockLease μ) :=
  match requireOwnerId ownerId with
  | .error e => (.error e, s)
  | .ok () =>
    match s.registry.checkLease leaseId ownerId now with
    | .found l => s.inherited fun r => body r l
    | .expired =>
      match s.expire a now with
      | (.error e, s) => (.error e, s)
      | (.ok _, s) => (.error (LockCheck.error (μ := μ) leaseId .expired), s)
    | c => (.error (c.error leaseId), s)

def heartbeat (s : DurableLocks δ μ) (leaseId ownerId : String) (ttlSeconds : ℚ) (now : Time) :
    LockOutcome (DurableLocks δ μ) (DistributedLockLease μ) :=
  s.loading a fun s => saving a <|
    s.withActiveLease a leaseId ownerId now fun r => r.renew ttlSeconds now

def release (s : DurableLocks δ μ) (leaseId ownerId : String) (now : Time) :
    LockOutcome (DurableLocks δ μ) (DistributedLockLease μ) :=
  s.loading a fun s => saving a <|
    s.withActiveLease a leaseId ownerId now fun r => r.drop

/-- Closing the registry and opening it again on its storage: `__init__` loads. -/
def reopen (s : DurableLocks δ μ) : LockOutcome (DurableLocks δ μ) Unit :=
  match load a { s with registry := LockRegistry.new } with
  | .error e => (.error e, s)
  | .ok s => (.ok (), s)

def shown (s : DurableLocks δ μ) : LockRegistry μ :=
  match a.read s.data with
  | .error _ => s.registry
  | .ok r => r

end DurableLocks

/-! ## What an adapter has to meet -/

structure WritableLocks (c : StorageCodec μ) (r : LockRegistry μ) : Prop where
  lockInv : LockInv r
  leases : ∀ l ∈ r.leases, Storable c l
  sequence : isJsonInt r.sequence = true

/-- Writing a registry and reading it back gives its leases and its counter; one with a lease
that JSON cannot hold is refused. -/
structure LockAdapter.Lawful (a : LockAdapter δ μ) (c : StorageCodec μ) : Prop where
  empty : a.read a.empty = .ok LockRegistry.new
  write_ok : ∀ r, WritableLocks c r → ∃ d r', a.write r = .ok d ∧ a.read d = .ok r' ∧ r.Same r'
  write_error : ∀ r : LockRegistry μ, ∀ l ∈ r.leases, ¬ Storable c l →
    a.write r = .error .jsonCodecError

variable {r r' : LockRegistry μ} {l : DistributedLockLease μ}

theorem WritableLocks.same {c : StorageCodec μ} (h : WritableLocks c r)
    (hs : r.Same r') : WritableLocks c r' :=
  ⟨h.lockInv.keeps (hs.keeps none), fun l hl => h.leases l ((hs.mem l).mpr hl),
    hs.sequence ▸ h.sequence⟩

theorem WritableLocks.swept {c : StorageCodec μ}
    (h : WritableLocks c r) (hs : SweptTo now r r') : WritableLocks c r' :=
  ⟨h.lockInv.keeps hs.keeps, fun l hl => h.leases l (hs.keeps.subset l hl), hs.sequence ▸ h.sequence⟩

/-- A registry whose leases all are as storable as those of a writable one. -/
theorem WritableLocks.of_effect {c : StorageCodec μ} {op : LockOp μ}
    {reply : LockReply μ} (h : WritableLocks c r) (he : LockEffect r op reply r')
    (hseq : r'.sequence = r.sequence) (hl : ∀ l ∈ r'.leases, Storable c l) : WritableLocks c r' :=
  ⟨he.lockInv h.lockInv, hl, hseq ▸ h.sequence⟩

theorem renew_writable {c : StorageCodec μ} {r : LockRegistry μ} (h : WritableLocks c r) {ttl : ℚ}
    (hl : r.checkLease leaseId ownerId now = .found l) :
    (∃ x, (r.renew ttl now l).1 = .ok x ∧ WritableLocks c (r.renew ttl now l).2) ∨
      ∃ e, r.renew ttl now l = (.error e, r) := by
  obtain ⟨hmem, hid, ho, hlive⟩ := checkLease_found hl
  have he : LockEffect r (.heartbeat leaseId ownerId ttl now) _ _ := renew_effect hmem hid ho hlive
  unfold renew at he ⊢
  cases hd : lockDeadline now ttl with
  | error e => exact .inr ⟨e, rfl⟩
  | ok deadline =>
    rw [hd] at he
    refine .inl ⟨_, rfl, h.of_effect he rfl fun x hx => ?_⟩
    rcases Table.mem_put.mp hx with rfl | ⟨hx, -⟩
    · exact h.leases l hmem
    · exact h.leases x hx

theorem drop_writable {c : StorageCodec μ} {r : LockRegistry μ} (h : WritableLocks c r)
    (hl : r.checkLease leaseId ownerId now = .found l) :
    (∃ x, (r.drop l).1 = .ok x ∧ WritableLocks c (r.drop l).2) ∨ ∃ e, r.drop l = (.error e, r) := by
  obtain ⟨hmem, hid, ho, hlive⟩ := checkLease_found hl
  exact .inl ⟨l, rfl, h.of_effect (drop_effect hmem hid ho hlive) rfl
    fun x hx => h.leases x (Table.mem_erase.mp hx).1⟩

namespace DurableLocks

variable {a : LockAdapter δ μ} {c : StorageCodec μ}

structure Stands (a : LockAdapter δ μ) (c : StorageCodec μ) (s : DurableLocks δ μ)
    (r : LockRegistry μ) : Prop where
  writable : WritableLocks c r
  read : a.read s.data = .ok r

/-- The object answers as a registry did, and stands for what that registry became. -/
def Simulates {α : Type} (a : LockAdapter δ μ) (c : StorageCodec μ)
    (o : LockOutcome (DurableLocks δ μ) α) (p : LockOutcome (LockRegistry μ) α) : Prop :=
  o.1 = p.1 ∧ ∃ r, Stands a c o.2 r ∧ p.2.Same r

theorem isJsonInt_zero : isJsonInt ((0 : Nat) : Int) = true := by decide

variable {s : DurableLocks δ μ} {r : LockRegistry μ}

theorem Stands.shown (h : Stands a c s r) : s.shown a = r := by
  rw [DurableLocks.shown, h.read]

theorem Stands.load (h : Stands a c s r) : s.load a = .ok { s with registry := r } := by
  rw [DurableLocks.load, h.read]

theorem Stands.loading
    (h : Stands a c s r) (body : DurableLocks δ μ → LockOutcome (DurableLocks δ μ) α) :
    s.loading a body = body { s with registry := r } := by
  rw [DurableLocks.loading, h.load]

/-- What the object holds in memory does not matter. -/
theorem Stands.inMemory (h : Stands a c s r)
    (r' : LockRegistry μ) : Stands a c { s with registry := r' } r := ⟨h.writable, h.read⟩

theorem save_ok (ha : a.Lawful c) (h : WritableLocks c s.registry) :
    ∃ s', s.save a = .ok s' ∧ s'.registry = s.registry ∧
      ∃ r, Stands a c s' r ∧ s.registry.Same r := by
  obtain ⟨d, r, hw, hr, hs⟩ := ha.write_ok s.registry h
  exact ⟨{ s with data := d }, by rw [save, hw], rfl, r, ⟨h.same hs, hr⟩, hs⟩

theorem saving_ok (ha : a.Lawful c) (x : α)
    (h : WritableLocks c s.registry) :
    Simulates a c (saving a (.ok x, s)) (.ok x, s.registry) ∧
      (saving a (Except.ok x, s)).2.registry = s.registry := by
  obtain ⟨s', hs, hreg, r, hst, hsame⟩ := save_ok ha h
  simp only [saving, hs]
  exact ⟨⟨rfl, r, hst, hsame⟩, hreg⟩

theorem saving_error (ha : a.Lawful c) (x : α)
    {l : DistributedLockLease μ} (hl : l ∈ s.registry.leases) (hn : ¬ Storable c l) :
    saving a (.ok x, s) = (.error .jsonCodecError, s) := by
  simp only [saving, save, ha.write_error _ l hl hn]

/-- The sweep: what it returns, what the object then holds, and what it stands for. -/
theorem expire_simulates (ha : a.Lawful c)
    (h : Stands a c s r) (now : Time) :
    Simulates a c (s.expire a now) (.ok (r.expire now).1, (r.expire now).2) ∧
      (s.expire a now).2.registry = (r.expire now).2 := by
  unfold DurableLocks.expire
  rw [h.loading]
  by_cases hnil : (r.expire now).1 = []
  · simp only [hnil, if_true, inherited]
    rw [expire_of_nil hnil]
    exact ⟨⟨rfl, r, h.inMemory r, .refl r⟩, trivial⟩
  · simp only [hnil, if_false, inherited]
    exact saving_ok ha (s := { s with registry := (r.expire now).2 }) _
      (h.writable.swept (r.expire_sweptTo now))

theorem present_simulates (ha : a.Lawful c)
    (h : Stands a c s r)
    {body : LockRegistry μ → DistributedLockLease μ →
      LockOutcome (LockRegistry μ) (DistributedLockLease μ)}
    (hbody : ∀ l, r.checkLease leaseId ownerId now = .found l →
      (∃ x, (body r l).1 = .ok x ∧ WritableLocks c (body r l).2) ∨ ∃ e, body r l = (.error e, r)) :
    Simulates a c
      (s.loading a fun s => saving a (s.withActiveLease a leaseId ownerId now body))
      (r.withActiveLease leaseId ownerId now (body r)) := by
  rw [h.loading]
  unfold DurableLocks.withActiveLease LockRegistry.withActiveLease
  cases requireOwnerId ownerId with
  | error e => exact ⟨rfl, r, h.inMemory r, .refl r⟩
  | ok _ =>
    simp only
    cases hc : r.checkLease leaseId ownerId now with
    | missing => exact ⟨rfl, r, h.inMemory r, .refl r⟩
    | otherOwner => exact ⟨rfl, r, h.inMemory r, .refl r⟩
    | expired =>
      obtain ⟨⟨hans, r', hst, hsame⟩, -⟩ := expire_simulates ha (h.inMemory r) now
      rcases he : DurableLocks.expire a { s with registry := r } now with ⟨res, s'⟩
      rw [he] at hans hst
      cases hans
      exact ⟨rfl, r', hst, hsame⟩
    | found l =>
      simp only [inherited]
      rcases hbody l hc with ⟨x, hx, hw⟩ | ⟨e, he⟩
      · rcases hb : body r l with ⟨res, r'⟩
        rw [hb] at hx hw
        cases hx
        exact (saving_ok ha (s := { s with registry := r' }) x hw).1
      · rw [he]
        exact ⟨rfl, r, h.inMemory r, .refl r⟩

theorem heartbeat_simulates (ha : a.Lawful c)
    (h : Stands a c s r) (leaseId ownerId : String) (ttl : ℚ) (now : Time) :
    Simulates a c (s.heartbeat a leaseId ownerId ttl now) (r.heartbeat leaseId ownerId ttl now) :=
  present_simulates ha h fun _ hc => renew_writable h.writable hc

theorem release_simulates (ha : a.Lawful c)
    (h : Stands a c s r) (leaseId ownerId : String) (now : Time) :
    Simulates a c (s.release a leaseId ownerId now) (r.release leaseId ownerId now) :=
  present_simulates ha h fun _ hc => drop_writable h.writable hc

theorem active_simulates (h : Stands a c s r) : Simulates a c (s.active a) (.ok r.active, r) := by
  rw [DurableLocks.active, h.loading]
  exact ⟨rfl, r, h.inMemory r, .refl r⟩

theorem reopen_simulates (h : Stands a c s r) : Simulates a c (s.reopen a) (.ok (), r) := by
  rw [DurableLocks.reopen, (h.inMemory LockRegistry.new).load]
  exact ⟨rfl, r, h.inMemory r, .refl r⟩

/-! ## `acquire` -/

/-- A lease can be made for the request, and stored: a positive duration, metadata and a token
that JSON can hold. -/
def Grantable (c : StorageCodec μ) (r : LockRegistry μ) (request : AcquireRequest μ) : Prop :=
  0 < request.ttlSeconds ∧ (c.dumps request.metadata).isSome = true ∧
    isJsonInt ((r.sequence + 1 : Nat) : Int) = true

instance (c : StorageCodec μ) (r : LockRegistry μ) (request : AcquireRequest μ) :
    Decidable (Grantable c r request) := inferInstanceAs (Decidable (_ ∧ _ ∧ _))

/-- `acquire` finds its lock free. -/
def Free (r : LockRegistry μ) (request : AcquireRequest μ) : Prop :=
  request.check = .ok () ∧
    ∀ l ∈ r.leases.rows, request.now < l.leaseExpiresAt → l.lockKey ≠ request.lockKey

instance (r : LockRegistry μ) (request : AcquireRequest μ) : Decidable (Free r request) :=
  inferInstanceAs (Decidable (_ ∧ _))

/-- A call of `acquire` on the stored registry that raises with at most a sweep done. -/
def Fails (a : LockAdapter δ μ) (c : StorageCodec μ)
    (o : LockOutcome (DurableLocks δ μ) (DistributedLockLease μ)) (r : LockRegistry μ)
    (request : AcquireRequest μ) : Prop :=
  (Free r request ∧ ¬ Grantable c r request) ∧
    (∃ e, o.1 = .error e) ∧ ∃ r', Stands a c o.2 r' ∧ Keeps (some request.now) r r'

/-- The lease of a grant is storable exactly when the request is grantable, once its duration
is. -/
theorem storable_leaseFor {request : AcquireRequest μ} {deadline : Time}
    (hd : lockDeadline request.now request.ttlSeconds = .ok deadline) {leaseId : String} :
    Storable c (leaseFor request leaseId (r.sequence + 1) deadline) ↔ Grantable c r request :=
  ⟨fun h => ⟨(lockDeadline_eq_ok.mp hd).1, h⟩, fun h => h.2⟩

theorem grant_saving (ha : a.Lawful c) {q : LockRegistry μ}
    (hq : WritableLocks c q) {request : AcquireRequest μ}
    (hfree : ∀ x ∈ q.leases, x.lockKey ≠ request.lockKey) :
    ((∃ l, (q.grant request).1 = .ok l) ∧ Simulates a c
        (saving a ((q.grant request).1, { s with registry := (q.grant request).2 }))
        (q.grant request)) ∨
      (¬ Grantable c q request ∧ ∃ e, (saving a
        ((q.grant request).1, { s with registry := (q.grant request).2 }))
          = (.error e, { s with registry := (q.grant request).2 })) := by
  rcases q.grant_cases request hfree with ⟨deadline, hd, hans, hnew⟩ | ⟨e, hd, hgr⟩
  · rcases hg : q.grant request with ⟨res, g⟩
    rw [hg] at hans hnew
    cases hans
    have hmem := (hnew.mem _).mpr (.inl rfl)
    by_cases hst : Grantable c q request
    · refine .inl ⟨⟨_, rfl⟩, (saving_ok ha (s := { s with registry := g }) _
        ⟨?_, fun l hl => ?_, ?_⟩).1⟩
      · have he : LockEffect q (.acquire request) (.lease _) g :=
          .granted ((Same.refl q).keeps _) hnew
        exact he.lockInv hq.lockInv
      · rcases (hnew.mem l).mp hl with rfl | hl
        · exact (storable_leaseFor hd).mpr hst
        · exact hq.leases l hl
      · have hseq : g.sequence = q.sequence + 1 := hnew.fencingToken.symm
        rw [show ({ s with registry := g } : DurableLocks δ μ).registry.sequence = g.sequence from rfl,
          hseq]
        exact hst.2.2
    · exact .inr ⟨hst, _, saving_error ha (s := { s with registry := g }) _ hmem
        fun hs => hst ((storable_leaseFor hd).mp hs)⟩
  · refine .inr ⟨fun hst => ?_, e, by rw [hgr]; rfl⟩
    rw [lockDeadline_eq_ok.mpr ⟨hst.1, rfl⟩] at hd
    cases hd

theorem free_of_swept {request : AcquireRequest μ}
    (hc : request.check = .ok ())
    (h : ∀ x ∈ (r.expire request.now).2.leases, x.lockKey ≠ request.lockKey) :
    Free r request :=
  ⟨hc, fun l hl hlive => h l (((r.expire_sweptTo request.now).mem l).mpr ⟨hl, hlive⟩)⟩

theorem acquire_simulates (ha : a.Lawful c)
    (h : Stands a c s r) (request : AcquireRequest μ) :
    Simulates a c (s.acquire a request) (r.acquire request) ∨
      Fails a c (s.acquire a request) r request := by
  have hsw := r.expire_sweptTo request.now
  unfold DurableLocks.acquire LockRegistry.acquire
  rw [h.loading]
  cases hc : request.check with
  | error e => exact .inl ⟨rfl, r, h.inMemory r, .refl r⟩
  | ok _ =>
    obtain ⟨⟨hans, r', hst, hsame⟩, hreg⟩ := expire_simulates ha (h.inMemory r) request.now
    rcases he : DurableLocks.expire a { s with registry := r } request.now with ⟨res, s'⟩
    rw [he] at hans hst hreg
    cases hans
    have hw : WritableLocks c (r.expire request.now).2 := h.writable.swept hsw
    simp only [inherited, acquireSwept]
    rw [show s'.registry = (r.expire request.now).2 from hreg]
    cases hg : (r.expire request.now).2.leases.get? request.lockKey with
    | some existing =>
      simp only
      split
      · exact .inl (saving_ok ha (s := { s' with registry := (r.expire request.now).2 }) _ hw).1
      · exact .inl ⟨rfl, r', hst.inMemory _, hsame⟩
    | none =>
      have hfree := Table.get?_eq_none.mp hg
      rcases grant_saving ha (s := s') hw hfree with ⟨-, hsim⟩ | ⟨hng, e, hfail⟩
      · exact .inl hsim
      · refine .inr ⟨⟨free_of_swept hc hfree, hng⟩, ⟨e, ?_⟩, r', ?_, hsw.keeps.trans_same hsame⟩
        · exact congrArg Prod.fst hfail
        · have hst' := hst.inMemory ((r.expire request.now).2.grant request).2
          rwa [show (saving a _).2 = _ from congrArg Prod.snd hfail]

/-! ## Machines on storage -/

/-- One call on the stored registry `r`: it answers as the in-memory registry does and leaves what
that one leaves, or it is an `acquire` that fails. -/
def Serves (a : LockAdapter δ μ) (c : StorageCodec μ) (o : LockReply μ × DurableLocks δ μ)
    (r : LockRegistry μ) (op : LockOp μ) : Prop :=
  (o.1 = (r.step op).1 ∧ ∃ r', Stands a c o.2 r' ∧ (r.step op).2.Same r') ∨
    ∃ request, op = .acquire request ∧ (Free r request ∧ ¬ Grantable c r request) ∧
      (∃ e, o.1 = .raised e) ∧ ∃ r', Stands a c o.2 r' ∧ Keeps (some request.now) r r'

theorem serves_acquire {o : LockOutcome (DurableLocks δ μ) (DistributedLockLease μ)}
    {request : AcquireRequest μ}
    (h : Simulates a c o (r.acquire request) ∨ Fails a c o r request) :
    Serves a c (.ofLease o.1, o.2) r (.acquire request) := by
  rcases h with ⟨hans, hst⟩ | ⟨hfree, ⟨e, he⟩, hst⟩
  · exact .inl ⟨congrArg LockReply.ofLease hans, hst⟩
  · exact .inr ⟨request, rfl, hfree, ⟨e, congrArg LockReply.ofLease he⟩, hst⟩

structure StoredLocks (a : LockAdapter δ μ) (c : StorageCodec μ)
    (m : Machine (DurableLocks δ μ) (LockOp μ) (LockReply μ)) : Prop where
  lawful : a.Lawful c
  init : m.init.data = a.empty
  step : ∀ s r op, Stands a c s r → Serves a c (m.step s op) r op

def GrantsKept (c : StorageCodec μ) (r : LockRegistry μ) : LockOp μ → Prop
  | .acquire request => Free r request → Grantable c r request
  | _ => True

instance (c : StorageCodec μ) (r : LockRegistry μ) (op : LockOp μ) :
    Decidable (GrantsKept c r op) :=
  match op with
  | .acquire _ => inferInstanceAs (Decidable (_ → _))
  | .heartbeat _ _ _ _ | .release _ _ _ | .expire _ | .active | .reopen => .isTrue trivial

theorem GrantsKept.same {r r' : LockRegistry μ} {request : AcquireRequest μ}
    (h : GrantsKept c r (.acquire request)) (hs : r.Same r') :
    GrantsKept c r' (.acquire request) := fun hfree => by
  have hg := h ⟨hfree.1, fun l hl => hfree.2 l ((hs.mem l).mp hl)⟩
  rw [Grantable, hs.sequence] at hg
  exact hg

namespace StoredLocks

variable {m : Machine (DurableLocks δ μ) (LockOp μ) (LockReply μ)}

theorem stands_init (hm : StoredLocks a c m) : Stands a c m.init LockRegistry.new :=
  ⟨⟨lockInv_of_empty fun l => Table.not_mem_empty l, fun l hl => absurd hl (Table.not_mem_empty l),
    isJsonInt_zero⟩, hm.init ▸ hm.lawful.empty⟩

/-- **A registry on storage is a lock manager**, whatever its calls are given. -/
theorem manager (hm : StoredLocks a c m) :
    LockManager m (DurableLocks.shown a) fun s => ∃ r, Stands a c s r := by
  refine ⟨⟨_, hm.stands_init⟩, ?_, ?_⟩
  · rw [hm.stands_init.shown]
    exact fun l => Table.not_mem_empty l
  · rintro s op ⟨r, hst⟩ -
    rw [hst.shown]
    rcases hm.step s r op hst with
      ⟨hans, r', hst', hsame⟩ | ⟨request, rfl, -, ⟨e, he⟩, r', hst', hk⟩
    · rw [hans, hst'.shown]
      exact ⟨(r.step_effect op).trans_same hsame, r', hst'⟩
    · rw [he, hst'.shown]
      exact ⟨.refused hk (fun _ _ _ hp => by cases hp), r', hst'⟩

/-- **A registry on storage answers as the in-memory one** while grants can be made and
stored. -/
theorem answers (hm : StoredLocks a c m) {ops : List (LockOp μ)}
    (h : (memoryLocks μ).Meets (fun _ r op => GrantsKept c r op) ops) :
    m.answers ops = (memoryLocks μ).answers ops := by
  have hrun := (memoryLocks μ).lockstep m
    (fun _ r s => LockInv r ∧ ∃ r', Stands a c s r' ∧ r.Same r') Eq
    ⟨lockInv_of_empty fun l => Table.not_mem_empty l, _, hm.stands_init, .refl _⟩ ?_ h
  · exact (List.forall₂_eq_eq_eq ▸ hrun.1 : (memoryLocks μ).answers ops = m.answers ops).symm
  · rintro - r s op ⟨hi, r', hst, hsame⟩ hkept
    obtain ⟨hans, hsame'⟩ := step_congr hi hsame op
    have hi' := (r.step_effect op).lockInv hi
    rcases hm.step s r' op hst with
      ⟨hans', r'', hst', hsame''⟩ | ⟨request, rfl, ⟨hfree, hng⟩, -⟩
    · exact ⟨hans.trans hans'.symm, hi', r'', hst', hsame'.trans hsame''⟩
    · exact absurd (GrantsKept.same hkept hsame hfree) hng

end StoredLocks

end DurableLocks

end UniversalAgent.Distributed
