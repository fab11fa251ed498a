import UniversalAgent.Distributed.Locks

/-!
# Distributed — LockSafety

What a lock registry is for, whichever of the three it is. `LockEffect r op reply r'` says once
what a call may do to the leases a registry holds: it refuses, lists, returns the holder's own
lease, grants, renews or releases, and what is gone without a release had run out. A
`LockManager` is a machine all of whose steps have such effects on the registry it shows.

`LockManager.safety` derives from this that no two callers hold one lock, that only its holder
renews or releases a lock, and that fencing tokens increase.
-/

namespace UniversalAgent.Distributed

open UniversalAgent.Foundation

variable {μ : Type}

def LockOp.now? : LockOp μ → Option Time
  | .acquire a => some a.now
  | .heartbeat _ _ _ now => some now
  | .release _ _ now => some now
  | .expire now => some now
  | .active => none
  | .reopen => none

/-- The lease id, the owner and the clock reading of a call that presents a lease. -/
def LockOp.presented : LockOp μ → Option (String × String × Time)
  | .heartbeat l o _ now => some (l, o, now)
  | .release l o now => some (l, o, now)
  | _ => none

namespace LockRegistry

structure Same (r r' : LockRegistry μ) : Prop where
  mem : ∀ l, l ∈ r.leases ↔ l ∈ r'.leases
  sequence : r.sequence = r'.sequence

theorem Same.refl (r : LockRegistry μ) : r.Same r := ⟨fun _ => Iff.rfl, rfl⟩

variable {r s t : LockRegistry μ}

theorem Same.trans (h : r.Same s) (h' : s.Same t) : r.Same t :=
  ⟨fun l => (h.mem l).trans (h'.mem l), h.sequence.trans h'.sequence⟩

/-- No lease is new, what is gone had run out at the clock reading of the call, and the counter
does not go back. -/
structure Keeps (now : Option Time) (r r' : LockRegistry μ) : Prop where
  subset : ∀ l ∈ r'.leases, l ∈ r.leases
  lost : ∀ l ∈ r.leases, l ∈ r'.leases ∨ ∃ t, now = some t ∧ l.leaseExpiresAt ≤ t
  sequence : r.sequence ≤ r'.sequence

structure SweptTo (now : Time) (r r' : LockRegistry μ) : Prop where
  mem : ∀ l, l ∈ r'.leases ↔ l ∈ r.leases ∧ now < l.leaseExpiresAt
  sequence : r'.sequence = r.sequence

theorem Same.keeps {r r' : LockRegistry μ} (h : r.Same r') (now : Option Time) : Keeps now r r' :=
  ⟨fun l hl => (h.mem l).mpr hl, fun l hl => .inl ((h.mem l).mp hl), h.sequence.le⟩

theorem SweptTo.keeps {r r' : LockRegistry μ} {now : Time} (h : SweptTo now r r') :
    Keeps (some now) r r' where
  subset := fun l hl => ((h.mem l).mp hl).1
  lost := fun l hl => by
    by_cases hlive : now < l.leaseExpiresAt
    · exact .inl ((h.mem l).mpr ⟨hl, hlive⟩)
    · exact .inr ⟨now, rfl, Int.not_lt.mp hlive⟩
  sequence := h.sequence.ge

theorem Keeps.trans_same {now : Option Time} (h : Keeps now r s)
    (h' : s.Same t) : Keeps now r t where
  subset := fun l hl => h.subset l ((h'.mem l).mpr hl)
  lost := fun l hl => (h.lost l hl).imp_left (h'.mem l).mp
  sequence := h.sequence.trans h'.sequence.le

theorem SweptTo.trans_same {now : Time} (h : SweptTo now r s) (h' : s.Same t) : SweptTo now r t :=
  ⟨fun l => (h'.mem l).symm.trans (h.mem l), h'.sequence.symm.trans h.sequence⟩

def Holder (r : LockRegistry μ) (leaseId ownerId : String) (now : Time) : Prop :=
  ∃ l ∈ r.leases.rows, l.leaseId = leaseId ∧ l.ownerId = ownerId ∧ now < l.leaseExpiresAt

instance (r : LockRegistry μ) (leaseId ownerId : String) (now : Time) :
    Decidable (r.Holder leaseId ownerId now) := inferInstanceAs (Decidable (∃ l ∈ r.leases.rows, _))

/-- What refusing a presented lease does: nothing, except that the expired leases are swept when
the lease is the caller's own and has run out. -/
def Refusal (r : LockRegistry μ) (leaseId ownerId : String) (now : Time) (r' : LockRegistry μ) :
    Prop :=
  r.Same r' ∨
    (∃ l ∈ r.leases, l.leaseId = leaseId ∧ l.ownerId = ownerId ∧ l.leaseExpiresAt ≤ now) ∧
      SweptTo now r r'

theorem Refusal.trans_same {leaseId ownerId : String} {now : Time}
    (h : r.Refusal leaseId ownerId now s) (h' : s.Same t) : r.Refusal leaseId ownerId now t :=
  h.imp (fun hs => hs.trans h') fun hs => ⟨hs.1, hs.2.trans_same h'⟩

/-- Leases are numbered by their tokens, one number each, and the counter has passed them. -/
structure LockInv (r : LockRegistry μ) : Prop where
  leaseId : ∀ l ∈ r.leases, l.leaseId = "lock-lease-" ++ toString l.fencingToken
  bounded : ∀ l ∈ r.leases, l.fencingToken ≤ r.sequence
  distinct : ∀ l ∈ r.leases, ∀ l' ∈ r.leases, l.fencingToken = l'.fencingToken → l = l'

theorem lockInv_of_empty {r : LockRegistry μ} (h : ∀ l, l ∉ r.leases) : LockInv r :=
  ⟨fun l hl => absurd hl (h l), fun l hl => absurd hl (h l), fun l hl => absurd hl (h l)⟩

theorem LockInv.keeps {now : Option Time} {r r' : LockRegistry μ} (h : LockInv r)
    (hk : Keeps now r r') : LockInv r' :=
  ⟨fun l hl => h.leaseId l (hk.subset l hl),
    fun l hl => (h.bounded l (hk.subset l hl)).trans hk.sequence,
    fun l hl l' hl' => h.distinct l (hk.subset l hl) l' (hk.subset l' hl')⟩

theorem LockInv.eq_of_leaseId {r : LockRegistry μ} (h : LockInv r)
    {l l' : DistributedLockLease μ} (hl : l ∈ r.leases) (hl' : l' ∈ r.leases)
    (hid : l.leaseId = l'.leaseId) : l = l' := by
  rw [h.leaseId l hl, h.leaseId l' hl'] at hid
  exact h.distinct l hl l' hl' (Text.toString_injective (Text.prefix_inj hid))

structure Granted (r r' : LockRegistry μ) (a : AcquireRequest μ) (l : DistributedLockLease μ) :
    Prop where
  free : ∀ x ∈ r.leases, x.lockKey ≠ a.lockKey
  lockKey : l.lockKey = a.lockKey
  ownerId : l.ownerId = a.ownerId
  leaseId : l.leaseId = "lock-lease-" ++ toString l.fencingToken
  fencingToken : l.fencingToken = r'.sequence
  sequence : r.sequence < r'.sequence
  mem : ∀ x, x ∈ r'.leases ↔ x = l ∨ x ∈ r.leases

end LockRegistry

open LockRegistry

inductive LockEffect (r : LockRegistry μ) : LockOp μ → LockReply μ → LockRegistry μ → Prop
  | refused {op : LockOp μ} {e : LockError} {r' : LockRegistry μ} (kept : Keeps op.now? r r')
      (presented : ∀ leaseId ownerId now, op.presented = some (leaseId, ownerId, now) →
        r.Refusal leaseId ownerId now r') : LockEffect r op (.raised e) r'
  | listed {op : LockOp μ} {ls : List (DistributedLockLease μ)} {r' : LockRegistry μ}
      (kept : Keeps op.now? r r') (quiet : op.presented = none) : LockEffect r op (.leases ls) r'
  | reopened {r' : LockRegistry μ} (same : r.Same r') : LockEffect r .reopen .done r'
  | reentered {a : AcquireRequest μ} {l : DistributedLockLease μ} {r' : LockRegistry μ}
      (kept : Keeps (some a.now) r r') (mem : l ∈ r'.leases) (lockKey : l.lockKey = a.lockKey)
      (ownerId : l.ownerId = a.ownerId) : LockEffect r (.acquire a) (.lease l) r'
  | granted {a : AcquireRequest μ} {l : DistributedLockLease μ} {s r' : LockRegistry μ}
      (kept : Keeps (some a.now) r s) (new : Granted s r' a l) :
      LockEffect r (.acquire a) (.lease l) r'
  | renewed {leaseId ownerId : String} {ttl : ℚ} {now deadline : Time}
      {l : DistributedLockLease μ} {r' : LockRegistry μ} (held : l ∈ r.leases)
      (id : l.leaseId = leaseId) (owner : l.ownerId = ownerId) (live : now < l.leaseExpiresAt)
      (mem : ∀ x, x ∈ r'.leases ↔ x = l.renewed now deadline ∨ x ∈ r.leases ∧ x ≠ l)
      (sequence : r'.sequence = r.sequence) :
      LockEffect r (.heartbeat leaseId ownerId ttl now) (.lease (l.renewed now deadline)) r'
  | released {leaseId ownerId : String} {now : Time} {l : DistributedLockLease μ}
      {r' : LockRegistry μ} (held : l ∈ r.leases) (id : l.leaseId = leaseId)
      (owner : l.ownerId = ownerId) (live : now < l.leaseExpiresAt)
      (mem : ∀ x, x ∈ r'.leases ↔ x ∈ r.leases ∧ x ≠ l) (sequence : r'.sequence = r.sequence) :
      LockEffect r (.release leaseId ownerId now) (.lease l) r'

namespace LockEffect

variable {reply : LockReply μ}

theorem trans_same {r s t : LockRegistry μ} {op : LockOp μ}
    (h : LockEffect r op reply s) (h' : s.Same t) : LockEffect r op reply t := by
  cases h with
  | refused hk hp =>
    exact .refused (hk.trans_same h') fun i o n hpr => (hp i o n hpr).trans_same h'
  | listed hk hq => exact .listed (hk.trans_same h') hq
  | reopened hs => exact .reopened (hs.trans h')
  | reentered hk hm hkey ho => exact .reentered (hk.trans_same h') ((h'.mem _).mp hm) hkey ho
  | granted hk hg =>
    refine .granted hk ⟨hg.free, hg.lockKey, hg.ownerId, hg.leaseId, ?_, ?_, fun x => ?_⟩
    · rw [hg.fencingToken, h'.sequence]
    · exact h'.sequence ▸ hg.sequence
    · exact (h'.mem x).symm.trans (hg.mem x)
  | renewed hl hid ho hlive hm hs =>
    exact .renewed hl hid ho hlive (fun x => (h'.mem x).symm.trans (hm x))
      (h'.sequence.symm.trans hs)
  | released hl hid ho hlive hm hs =>
    exact .released hl hid ho hlive (fun x => (h'.mem x).symm.trans (hm x))
      (h'.sequence.symm.trans hs)

theorem lockInv {r r' : LockRegistry μ} {op : LockOp μ} (hi : LockInv r)
    (h : LockEffect r op reply r') : LockInv r' := by
  cases h with
  | refused hk _ => exact hi.keeps hk
  | listed hk _ => exact hi.keeps hk
  | reopened hs => exact hi.keeps (hs.keeps none)
  | reentered hk _ _ _ => exact hi.keeps hk
  | @granted a l s _ hk hg =>
    have hs := hi.keeps hk
    -- the new number is above every number in use
    have hnew : ∀ x ∈ s.leases, x.fencingToken < l.fencingToken := fun x hx => by
      rw [hg.fencingToken]
      exact (hs.bounded x hx).trans_lt hg.sequence
    constructor
    · intro x hx
      rcases (hg.mem x).mp hx with rfl | hx
      · exact hg.leaseId
      · exact hs.leaseId x hx
    · intro x hx
      rcases (hg.mem x).mp hx with rfl | hx
      · exact hg.fencingToken.le
      · exact (hs.bounded x hx).trans hg.sequence.le
    · intro x hx y hy hxy
      rcases (hg.mem x).mp hx with rfl | hx <;> rcases (hg.mem y).mp hy with rfl | hy
      · rfl
      · exact absurd hxy (hnew y hy).ne'
      · exact absurd hxy (hnew x hx).ne
      · exact hs.distinct x hx y hy hxy
  | @renewed _ _ _ now deadline l _ hl _ _ _ hm hs =>
    constructor
    · intro x hx
      rcases (hm x).mp hx with rfl | hx
      · exact hi.leaseId l hl
      · exact hi.leaseId x hx.1
    · intro x hx
      rw [hs]
      rcases (hm x).mp hx with rfl | hx
      · exact hi.bounded l hl
      · exact hi.bounded x hx.1
    · intro x hx y hy hxy
      rcases (hm x).mp hx with rfl | ⟨hx, hxl⟩ <;> rcases (hm y).mp hy with rfl | ⟨hy, hyl⟩
      · rfl
      · exact absurd (hi.distinct l hl y hy hxy).symm hyl
      · exact absurd (hi.distinct x hx l hl hxy) hxl
      · exact hi.distinct x hx y hy hxy
  | released _ _ _ _ hm hs =>
    exact ⟨fun x hx => hi.leaseId x ((hm x).mp hx).1,
      fun x hx => hs ▸ hi.bounded x ((hm x).mp hx).1,
      fun x hx y hy => hi.distinct x ((hm x).mp hx).1 y ((hm y).mp hy).1⟩

/-- A lease presented by anyone but the holder of its lock is refused. -/
theorem refused_of_not_holder {r r' : LockRegistry μ} {op : LockOp μ}
    (h : LockEffect r op reply r') {leaseId ownerId : String} {now : Time}
    (hp : op.presented = some (leaseId, ownerId, now)) (hn : ¬ r.Holder leaseId ownerId now) :
    (∃ e, reply = .raised e) ∧ r.Refusal leaseId ownerId now r' := by
  cases h with
  | @refused _ e _ _ hr => exact ⟨⟨e, rfl⟩, hr _ _ _ hp⟩
  | listed _ hq =>
    rw [hq] at hp
    cases hp
  | reopened => cases hp
  | reentered => cases hp
  | granted => cases hp
  | renewed hl hid ho hlive _ _ =>
    cases hp
    exact absurd ⟨_, hl, hid, ho, hlive⟩ hn
  | released hl hid ho hlive _ _ =>
    cases hp
    exact absurd ⟨_, hl, hid, ho, hlive⟩ hn

end LockEffect

/-! ## What callers see -/

def clockReadings (h : List (LockOp μ × LockReply μ)) : List Time := h.filterMap fun p => p.1.now?

/-- What an answer makes of the leases callers hold: a lease that is returned replaces the one of
its id, and a released one is gone. -/
def noteLease (held : List (DistributedLockLease μ)) :
    LockOp μ × LockReply μ → List (DistributedLockLease μ)
  | (.release _ _ _, .lease l) => held.filter fun x => decide (x.leaseId ≠ l.leaseId)
  | (_, .lease l) => l :: held.filter fun x => decide (x.leaseId ≠ l.leaseId)
  | _ => held

/-- The leases callers were handed and did not release, as last renewed. -/
def handedOut (h : List (LockOp μ × LockReply μ)) : List (DistributedLockLease μ) :=
  h.foldl noteLease []

/-- The leases `acquire` returned, in order. -/
def acquisitions (h : List (LockOp μ × LockReply μ)) : List (DistributedLockLease μ) :=
  h.filterMap fun
    | (.acquire _, .lease l) => some l
    | _ => none

/-- An acquisition of a lock and a later one of the same lock: its holder gets its lease again, a
new lease has a greater token. -/
def Precedes (l l' : DistributedLockLease μ) : Prop :=
  l.lockKey = l'.lockKey →
    (l'.leaseId = l.leaseId ∧ l'.ownerId = l.ownerId ∧ l'.fencingToken = l.fencingToken) ∨
      l.fencingToken < l'.fencingToken

theorem Precedes.refl (l : DistributedLockLease μ) : Precedes l l :=
  fun _ => .inl ⟨rfl, rfl, rfl⟩

variable {l l' : DistributedLockLease μ}

theorem Precedes.of_lt (h : l.fencingToken < l'.fencingToken) :
    Precedes l l' := fun _ => .inr h

theorem Precedes.of_ne (h : l.lockKey ≠ l'.lockKey) :
    Precedes l l' := fun hk => absurd hk h

structure LockSafety {σ : Type} (m : Machine σ (LockOp μ) (LockReply μ))
    (shown : σ → LockRegistry μ) (ops : List (LockOp μ)) : Prop where
  /-- One unexpired lease a lock, in the registry. -/
  oneLease : ∀ t, ∀ l ∈ (shown (m.state ops)).leases, ∀ l' ∈ (shown (m.state ops)).leases,
    t < l.leaseExpiresAt → t < l'.leaseExpiresAt → l.lockKey = l'.lockKey → l = l'
  /-- One unexpired lease a lock among those that callers hold, at any time the clock has not yet
  passed. -/
  oneHolder : ∀ t, (∀ now ∈ clockReadings (m.history ops), now ≤ t) →
    ∀ l ∈ handedOut (m.history ops), ∀ l' ∈ handedOut (m.history ops),
      t < l.leaseExpiresAt → t < l'.leaseExpiresAt → l.lockKey = l'.lockKey → l = l'
  /-- Renewing and releasing are for the holder. -/
  holderOnly : ∀ op leaseId ownerId now, op.presented = some (leaseId, ownerId, now) →
    ¬ (shown (m.state ops)).Holder leaseId ownerId now →
      (∃ e, (m.step (m.state ops) op).1 = .raised e) ∧
        (shown (m.state ops)).Refusal leaseId ownerId now (shown (m.step (m.state ops) op).2)
  tokens : (acquisitions (m.history ops)).Pairwise Precedes

/-! ## Machines with such effects -/

structure LockManager {σ : Type} (m : Machine σ (LockOp μ) (LockReply μ))
    (shown : σ → LockRegistry μ) (Inv : σ → Prop) : Prop where
  init : Inv m.init
  empty : ∀ l, l ∉ (shown m.init).leases
  step : ∀ s op, Inv s → LockInv (shown s) →
    LockEffect (shown s) op (m.step s op).1 (shown (m.step s op).2) ∧ Inv (m.step s op).2

namespace LockManager

variable {σ : Type} {m : Machine σ (LockOp μ) (LockReply μ)} {shown : σ → LockRegistry μ}
  {Inv : σ → Prop}

theorem always (hm : LockManager m shown Inv)
    (P : List (LockOp μ × LockReply μ) → LockRegistry μ → Prop)
    (h0 : ∀ r : LockRegistry μ, (∀ l, l ∉ r.leases) → P [] r)
    (hs : ∀ h r op reply r', P h r → LockInv r → LockEffect r op reply r' →
      P (h ++ [(op, reply)]) r')
    (ops : List (LockOp μ)) :
    P (m.history ops) (shown (m.state ops)) ∧ LockInv (shown (m.state ops)) ∧
      Inv (m.state ops) := by
  refine m.induct (C := fun _ _ _ => True)
    (fun h s => P h (shown s) ∧ LockInv (shown s) ∧ Inv s)
    ⟨h0 _ hm.empty, lockInv_of_empty hm.empty, hm.init⟩ ?_ (fun _ _ _ _ => trivial)
  rintro h s op ⟨hp, hi, hinv⟩ -
  obtain ⟨he, hinv'⟩ := hm.step s op hinv hi
  exact ⟨hs h _ op _ _ hp hi he, he.lockInv hi, hinv'⟩

variable {h : List (LockOp μ × LockReply μ)} {p : LockOp μ × LockReply μ} {r r' : LockRegistry μ}

theorem mem_clockReadings_snoc
    {t : Time} : t ∈ clockReadings (h ++ [p]) ↔ t ∈ clockReadings h ∨ p.1.now? = some t := by
  simp [clockReadings, List.filterMap_append, List.filterMap_cons]
  cases p.1.now? <;> simp [eq_comm]

/-- Callers' leases are in the registry until the clock has passed them. -/
def Backed (h : List (LockOp μ × LockReply μ)) (r : LockRegistry μ) : Prop :=
  ∀ l ∈ handedOut h, l ∈ r.leases ∨ ∃ t ∈ clockReadings h, l.leaseExpiresAt ≤ t

theorem backed_step {op : LockOp μ}
    {reply : LockReply μ} (hb : Backed h r) (he : LockEffect r op reply r') :
    Backed (h ++ [(op, reply)]) r' := by
  have hfold : handedOut (h ++ [(op, reply)]) = noteLease (handedOut h) (op, reply) := by
    simp [handedOut, List.foldl_append]
  -- a lease that stays until the clock passes it, as long as the call leaves it
  have stays : ∀ l ∈ handedOut h,
      (l ∈ r.leases → l ∈ r'.leases ∨ ∃ t, op.now? = some t ∧ l.leaseExpiresAt ≤ t) →
      l ∈ r'.leases ∨ ∃ t ∈ clockReadings (h ++ [(op, reply)]), l.leaseExpiresAt ≤ t := by
    intro l hl hkeep
    rcases hb l hl with hr | ⟨t, ht, hexp⟩
    · rcases hkeep hr with hr' | ⟨t, ht, hexp⟩
      · exact .inl hr'
      · exact .inr ⟨t, mem_clockReadings_snoc.mpr (.inr ht), hexp⟩
    · exact .inr ⟨t, mem_clockReadings_snoc.mpr (.inl ht), hexp⟩
  intro l hl
  rw [hfold] at hl
  cases he with
  | refused hk _ =>
    cases op <;> exact stays l hl (hk.lost l)
  | listed hk _ =>
    cases op <;> exact stays l hl (hk.lost l)
  | reopened hs => exact stays l hl ((hs.keeps none).lost l)
  | reentered hk hmem _ _ =>
    rcases List.mem_cons.mp hl with rfl | hl
    · exact .inl hmem
    · exact stays l (List.mem_filter.mp hl).1 (hk.lost l)
  | granted hk hg =>
    rcases List.mem_cons.mp hl with rfl | hl
    · exact .inl ((hg.mem l).mpr (.inl rfl))
    · exact stays l (List.mem_filter.mp hl).1 fun hr =>
        (hk.lost l hr).imp_left fun hs => (hg.mem l).mpr (.inr hs)
  | renewed hheld hid _ _ hmem _ =>
    rcases List.mem_cons.mp hl with rfl | hl
    · exact .inl ((hmem _).mpr (.inl rfl))
    · obtain ⟨hl, hne⟩ := List.mem_filter.mp hl
      refine stays l hl fun hr => .inl ((hmem l).mpr (.inr ⟨hr, ?_⟩))
      rintro rfl
      simp [DistributedLockLease.renewed] at hne
  | released hheld hid _ _ hmem _ =>
    obtain ⟨hl, hne⟩ := List.mem_filter.mp hl
    refine stays l hl fun hr => .inl ((hmem l).mpr ⟨hr, ?_⟩)
    rintro rfl
    simp at hne

structure Fenced (h : List (LockOp μ × LockReply μ)) (r : LockRegistry μ) : Prop where
  pairwise : (acquisitions h).Pairwise Precedes
  bounded : ∀ l ∈ acquisitions h, l.fencingToken ≤ r.sequence
  current : ∀ l ∈ acquisitions h, ∀ x ∈ r.leases, Precedes l x

/-- A call that acquires nothing and leaves the keys, ids, owners and tokens of the leases. -/
theorem Fenced.of_subset
    (hf : Fenced h r) (hp : acquisitions [p] = [])
    (hseq : r.sequence ≤ r'.sequence)
    (hsub : ∀ x ∈ r'.leases, ∃ y ∈ r.leases, ∀ l, Precedes l y → Precedes l x) :
    Fenced (h ++ [p]) r' := by
  have hacq : acquisitions (h ++ [p]) = acquisitions h := by
    rw [acquisitions, List.filterMap_append]
    exact (congrArg (acquisitions h ++ ·) hp).trans (List.append_nil _)
  refine ⟨hacq ▸ hf.pairwise, fun l hl => ?_, fun l hl x hx => ?_⟩
  · exact (hf.bounded l (hacq ▸ hl)).trans hseq
  · obtain ⟨y, hy, hxy⟩ := hsub x hx
    exact hxy l (hf.current l (hacq ▸ hl) y hy)

theorem Fenced.acquire
    (hf : Fenced h r) {a : AcquireRequest μ} {l : DistributedLockLease μ}
    (hseq : r.sequence ≤ r'.sequence) (hl : l.fencingToken ≤ r'.sequence)
    (hnew : ∀ x ∈ acquisitions h, Precedes x l)
    (hsub : ∀ x ∈ r'.leases, x = l ∨ x ∈ r.leases)
    (hcur : ∀ x ∈ r'.leases, Precedes l x) :
    Fenced (h ++ [(.acquire a, .lease l)]) r' := by
  have hacq : acquisitions (h ++ [(.acquire a, .lease l)]) = acquisitions h ++ [l] := by
    simp [acquisitions, List.filterMap_append]
  constructor
  · rw [hacq, List.pairwise_append]
    refine ⟨hf.pairwise, List.pairwise_singleton _ _, fun x hx y hy => ?_⟩
    rw [List.mem_singleton.mp hy]
    exact hnew x hx
  · intro x hx
    rw [hacq] at hx
    rcases List.mem_append.mp hx with hx | hx
    · exact (hf.bounded x hx).trans hseq
    · rw [List.mem_singleton.mp hx]
      exact hl
  · intro x hx y hy
    rw [hacq] at hx
    rcases List.mem_append.mp hx with hx | hx
    · rcases hsub y hy with hyl | hy
      · exact hyl ▸ hnew x hx
      · exact hf.current x hx y hy
    · rw [List.mem_singleton.mp hx]
      exact hcur y hy

theorem fenced_step {op : LockOp μ}
    {reply : LockReply μ} (hi : LockInv r) (hf : Fenced h r) (he : LockEffect r op reply r') :
    Fenced (h ++ [(op, reply)]) r' := by
  cases he with
  | refused hk _ =>
    exact hf.of_subset (by cases op <;> rfl) hk.sequence
      fun x hx => ⟨x, hk.subset x hx, fun _ => id⟩
  | listed hk _ =>
    exact hf.of_subset (by cases op <;> rfl) hk.sequence
      fun x hx => ⟨x, hk.subset x hx, fun _ => id⟩
  | reopened hs =>
    exact hf.of_subset rfl hs.sequence.le fun x hx => ⟨x, (hs.mem x).mpr hx, fun _ => id⟩
  | @reentered _ l _ hk hmem hkey _ =>
    have hl := hk.subset l hmem
    refine hf.acquire hk.sequence ((hi.bounded l hl).trans hk.sequence)
      (fun x hx => hf.current x hx l hl) (fun x hx => .inr (hk.subset x hx)) fun x hx hlx => ?_
    rw [Table.eq_of_key hmem hx hlx]
    exact .inl ⟨rfl, rfl, rfl⟩
  | @granted _ l s _ hk hg =>
    have hlt : r.sequence < l.fencingToken := by
      rw [hg.fencingToken]
      exact hk.sequence.trans_lt hg.sequence
    refine hf.acquire (hk.sequence.trans hg.sequence.le) hg.fencingToken.le
      (fun x hx => .of_lt ((hf.bounded x hx).trans_lt hlt))
      (fun x hx => ((hg.mem x).mp hx).imp_right (hk.subset x)) fun x hx => ?_
    rcases (hg.mem x).mp hx with rfl | hx
    · exact .refl x
    · exact .of_ne fun he => hg.free x hx (he.symm.trans hg.lockKey)
  | renewed hheld _ _ _ hmem hseq =>
    refine hf.of_subset rfl hseq.ge fun x hx => ?_
    rcases (hmem x).mp hx with rfl | ⟨hx, -⟩
    · exact ⟨_, hheld, fun _ => id⟩
    · exact ⟨x, hx, fun _ => id⟩
  | released _ _ _ _ hmem hseq =>
    exact hf.of_subset rfl hseq.ge fun x hx => ⟨x, ((hmem x).mp hx).1, fun _ => id⟩

/-- **Lock safety**, on every run of a lock registry. -/
theorem safety (hm : LockManager m shown Inv) (ops : List (LockOp μ)) : LockSafety m shown ops := by
  obtain ⟨hb, hi, hinv⟩ := hm.always Backed
    (fun r _ l hl => absurd hl List.not_mem_nil) (fun _ _ _ _ _ hb _ he => backed_step hb he) ops
  obtain ⟨hf, -, -⟩ := hm.always Fenced
    (fun r _ => ⟨.nil, fun _ hl => absurd hl List.not_mem_nil, fun _ hl => absurd hl List.not_mem_nil⟩)
    (fun _ _ _ _ _ hf hi he => fenced_step hi hf he) ops
  constructor
  · intro t l hl l' hl' _ _ hk
    exact Table.eq_of_key hl hl' hk
  · intro t ht l hl l' hl' hlive hlive' hk
    have hin : ∀ x ∈ handedOut (m.history ops), t < x.leaseExpiresAt →
        x ∈ (shown (m.state ops)).leases := by
      intro x hx hlive
      rcases hb x hx with hr | ⟨now, hnow, hexp⟩
      · exact hr
      · exact absurd hlive (Int.not_lt.mpr (hexp.trans (ht now hnow)))
    exact Table.eq_of_key (hin l hl hlive) (hin l' hl' hlive') hk
  · intro op leaseId ownerId now hp hn
    exact (hm.step _ op hinv hi).1.refused_of_not_holder hp hn
  · exact hf.pairwise

end LockManager

end UniversalAgent.Distributed
