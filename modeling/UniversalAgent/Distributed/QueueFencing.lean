import UniversalAgent.Distributed.QueueSqlite

/-!
# Distributed — QueueFencing

Whether the fencing tokens of the leases granted under one work item id increase.

They do as long as the queue's counter knows every lease granted under the id so far. The
in-memory queue forgets the counter of an item it prunes; the file queue keeps the counters
in the process and forgets all of them when it is opened again; the SQLite queue counts
nothing and gives every lease the token 0. `LeasesKnown` is the condition on a `lease` call
in these terms, and `fencing_tokens_increase` is about the runs all of whose calls meet it.
-/

namespace UniversalAgent.Distributed

open UniversalAgent.Foundation WorkQueue

variable {π : Type}

/-- The tokens of the leases granted under a work item id, in order. -/
def tokensOf (id : String) (h : List (QueueOp π × Reply π)) : List Nat :=
  (grants h).filterMap fun g => if g.1 = id then some g.2.fencingToken else none

def TokensIncrease (h : List (QueueOp π × Reply π)) : Prop :=
  ∀ id, (tokensOf id h).Pairwise (· < ·)

def timesLeased (id : String) (h : List (QueueOp π × Reply π)) : Nat := (tokensOf id h).length

/-- The count of an item's leases after one more call, where opening the queue again starts
the count again. -/
def countOpenCall (id : String) (n : Nat) : QueueOp π → Reply π → Nat
  | .reopen, _ => 0
  | op, r => countCall id n op r

/-- How often a work item has been leased since it was created and since the queue was last
opened. -/
def leaseCountSinceOpen (id : String) (h : List (QueueOp π × Reply π)) : Nat :=
  h.foldl (fun n c => countOpenCall id n c.1 c.2) 0

/-- The condition on a call, given what `count` knows of the leases granted so far: a `lease`
turns only to an item all of whose earlier leases are known. -/
def LeasesKnown (count : String → List (QueueOp π × Reply π) → Nat)
    (h : List (QueueOp π × Reply π)) (q : WorkQueue π) : QueueOp π → Prop
  | .lease _ _ now kinds => ∀ i ∈ q.leaseTarget now kinds,
      timesLeased i.workItemId h = count i.workItemId h
  | _ => True

instance (count : String → List (QueueOp π × Reply π) → Nat) (h : List (QueueOp π × Reply π))
    (q : WorkQueue π) : ∀ op, Decidable (LeasesKnown count h q op)
  | .lease _ _ now kinds => inferInstanceAs (Decidable (∀ i ∈ q.leaseTarget now kinds,
      timesLeased i.workItemId h = count i.workItemId h))
  | .enqueue _ | .heartbeat .. | .complete .. | .fail .. | .cancel .. | .expire _ | .prune _
  | .get _ | .list _ | .reopen => .isTrue trivial

/-! ## One call -/

theorem tokensOf_snoc (id : String) (h : List (QueueOp π × Reply π)) (op : QueueOp π)
    (r : Reply π) : tokensOf id (h ++ [(op, r)]) = tokensOf id h ++ tokensOf id [(op, r)] := by
  simp only [tokensOf, grants_snoc, List.filterMap_append]

theorem leaseCountSinceOpen_snoc (id : String) (h : List (QueueOp π × Reply π)) (op : QueueOp π)
    (r : Reply π) : leaseCountSinceOpen id (h ++ [(op, r)])
      = countOpenCall id (leaseCountSinceOpen id h) op r := by
  simp only [leaseCountSinceOpen, List.foldl_append, List.foldl_cons, List.foldl_nil]

/-- The token a call grants under an id, if it grants one. -/
theorem tokensOf_effect {q q' : WorkQueue π} {op : QueueOp π} {r : Reply π}
    (he : Effect q op r q') (id : String) :
    (tokensOf id [(op, r)] = [] ∧ ∀ n, countCall id n op r ≤ n) ∨
      ∃ w ttl now kinds j l, op = .lease w ttl now kinds ∧ r = .item j ∧ j.lease = some l ∧
        j.workItemId = id ∧ tokensOf id [(op, r)] = [l.fencingToken] ∧
        ∀ n, countCall id n op r = n + 1 := by
  cases he with
  | @quiet op r _ _ hl _ hp =>
    have hg : grants [(op, r)] = [] := by
      cases op with
      | lease w ttl now kinds =>
        obtain ⟨e, rfl⟩ := hl w ttl now kinds rfl
        rfl
      | _ => rfl
    exact .inl ⟨by simp [tokensOf, hg], fun n => (countCall_quiet hl hp id n).le⟩
  | create => exact .inl ⟨rfl, fun _ => le_rfl⟩
  | @grant w ttl now kinds s _ i j l _ hg _ =>
    have hgr : grants [(QueueOp.lease w ttl now kinds, Reply.item j)] = [(j.workItemId, l)] := by
      simp only [grants, List.filterMap_cons, List.filterMap_nil, hg.lease, Option.map_some]
    by_cases hid : j.workItemId = id
    · refine .inr ⟨w, ttl, now, kinds, j, l, rfl, rfl, hg.lease, hid, ?_, fun n => ?_⟩
      · simp [tokensOf, hgr, hid]
      · simp [countCall, hid]
    · exact .inl ⟨by simp [tokensOf, hgr, hid], fun n => by simp [countCall, hid]⟩
  | prune =>
    refine .inl ⟨rfl, fun n => ?_⟩
    simp only [countCall]
    split <;> omega

/-! ## Queues that count -/

/-- A queue that counts its leases: the fencing counter of an id is `count` of the history,
which never exceeds the number of leases, and a granted lease carries the next number. -/
structure Counting (m : Machine (WorkQueue π) (QueueOp π) (Reply π)) (Inv : WorkQueue π → Prop)
    (count : String → List (QueueOp π × Reply π) → Nat) : Prop where
  effectful : Effectful m Inv
  counter : ∀ ops id, (m.state ops).fencingSequences.count id = count id (m.history ops)
  bound : ∀ ops id, count id (m.history ops) ≤ timesLeased id (m.history ops)
  token : ∀ q w ttl now kinds j l, Inv q → (m.step q (.lease w ttl now kinds)).1 = .item j →
    j.lease = some l → l.fencingToken = q.fencingSequences.count j.workItemId + 1 ∧
      ∃ i ∈ q.leaseTarget now kinds, j.workItemId = i.workItemId

variable {m : Machine (WorkQueue π) (QueueOp π) (Reply π)} {Inv : WorkQueue π → Prop}

/-- On a counting queue the tokens of an id increase while its leases are known. -/
theorem Counting.tokensIncrease
    {count : String → List (QueueOp π × Reply π) → Nat}
    (hm : Counting m Inv count) {ops : List (QueueOp π)}
    (hc : m.Meets (LeasesKnown count) ops) : TokensIncrease (m.history ops) := by
  -- no token exceeds the number of leases granted so far
  suffices h : ∀ id, (tokensOf id (m.history ops)).Pairwise (· < ·) ∧
      ∀ t ∈ tokensOf id (m.history ops), t ≤ timesLeased id (m.history ops) from
    fun id => (h id).1
  intro id
  induction ops using List.reverseRecOn with
  | nil => exact ⟨.nil, by simp [tokensOf, grants]⟩
  | append_singleton ops op ih =>
    obtain ⟨hc', hop⟩ := Machine.meets_snoc.mp hc
    obtain ⟨hpair, hle⟩ := ih hc'
    have hinv := hm.effectful.inv_state ops
    rw [Machine.history_snoc]
    simp only [timesLeased, tokensOf_snoc]
    rcases tokensOf_effect (hm.effectful.effect _ op hinv) id with
      ⟨hnil, -⟩ | ⟨w, ttl, now, kinds, j, l, rfl, hr, hl, hid, htok, -⟩
    · rw [hnil, List.append_nil]
      exact ⟨hpair, hle⟩
    · obtain ⟨ht, i, hi, hji⟩ := hm.token _ w ttl now kinds j l hinv hr hl
      have hknown : timesLeased id (m.history ops) = count id (m.history ops) := by
        rw [← hid, hji]
        exact hop i hi
      have hnew : l.fencingToken = timesLeased id (m.history ops) + 1 := by
        rw [ht, hm.counter, hid, hknown]
      rw [htok]
      refine ⟨List.pairwise_append.mpr ⟨hpair, List.pairwise_singleton _ _, fun t ht' u hu => ?_⟩,
        fun t ht' => ?_⟩
      · rw [List.mem_singleton.mp hu, hnew]
        exact Nat.lt_succ_of_le (hle t ht')
      · rw [List.length_append, List.length_singleton]
        rcases List.mem_append.mp ht' with ht' | ht'
        · exact (hle t ht').trans (Nat.le_succ _)
        · rw [List.mem_singleton.mp ht', hnew]
          rfl

/-- A count that grows by at most what a call grants never exceeds the number of leases. -/
theorem Effectful.count_le
    (hm : Effectful m Inv)
    {count : String → List (QueueOp π × Reply π) → Nat} (h0 : ∀ id, count id [] = 0)
    (hs : ∀ id h op r, count id (h ++ [(op, r)]) ≤ countCall id (count id h) op r)
    (ops : List (QueueOp π)) (id : String) :
    count id (m.history ops) ≤ timesLeased id (m.history ops) := by
  refine hm.always (fun h _ => count id h ≤ timesLeased id h) (by rw [h0]; exact Nat.zero_le _)
    (fun h q op r q' hle _ he => ?_) ops
  have hstep := hs id h op r
  rw [timesLeased, tokensOf_snoc, List.length_append]
  rcases tokensOf_effect he id with ⟨hnil, hcall⟩ | ⟨w, ttl, now, kinds, j, l, -, -, -, -, htok, hcall⟩
  · rw [hnil]
    exact hstep.trans ((hcall _).trans hle)
  · rw [htok]
    rw [hcall] at hstep
    exact hstep.trans (Nat.succ_le_succ hle)

theorem memoryQueue_counting : Counting (memoryQueue π) QueueInv leaseCount where
  effectful := memoryQueue_effectful
  counter := fun ops id => by
    induction ops using List.reverseRecOn with
    | nil => rfl
    | append_singleton ops op ih =>
      rw [Machine.history_snoc, Machine.state_snoc, leaseCount_snoc, ← ih]
      exact step_count (reachable_queueInv ops) op id
  bound := memoryQueue_effectful.count_le (fun _ => rfl) fun _ _ _ _ => (leaseCount_snoc ..).le
  token := fun q w ttl now kinds j l hinv hj hl => by
    have hj' : (q.lease w ttl now kinds).1 = .ok j := by
      change Reply.ofItem (q.lease w ttl now kinds).1 = .item j at hj
      cases he : (q.lease w ttl now kinds).1 with
      | error e => rw [he] at hj; cases hj
      | ok i => rw [he] at hj; cases hj; rfl
    exact ⟨(lease_count hinv w ttl now kinds j.workItemId).2 j l hj' hl,
      lease_target hj' (hinv.edits (edits_expire q now)).left⟩

/-- The count of a call never exceeds the count that ignores openings. -/
theorem countOpenCall_le (id : String) (n : Nat) (op : QueueOp π) (r : Reply π) :
    countOpenCall id n op r ≤ countCall id n op r := by
  cases op <;> first | exact le_rfl | exact Nat.zero_le _

/-- The file queue counts what was granted since it was opened. -/
theorem fileBackend_counting (c : StorageCodec π) :
    Counting (fileBackend c).queue (StoredInv (fileBackend c)) leaseCountSinceOpen where
  effectful := Backend.queue_effectful (fileBackend_lawful c)
  counter := fun ops id => by
    have heff := Backend.queue_effectful (fileBackend_lawful c)
    induction ops using List.reverseRecOn with
    | nil => rfl
    | append_singleton ops op ih =>
      have hst := heff.inv_state ops
      rw [Machine.history_snoc, Machine.state_snoc, leaseCountSinceOpen_snoc, ← ih]
      change ((fileBackend c).step _ op).2.fencingSequences.count id
        = countOpenCall id _ op ((fileBackend c).step _ op).1
      cases op with
      | enqueue r =>
        rcases Backend.enqueue_cases hst r with
          ⟨i, k, -, -, he, -⟩ | ⟨j, q', he, -, -, hq⟩ | ⟨e, he, -⟩ <;>
          simp only [Backend.step, he] <;> try rfl
        have hf := step_fencing ((fileBackend c).queue.state ops) (.enqueue r) (by simp) (by simp)
        simp only [WorkQueue.step, hq] at hf
        rw [Backend.reload_fencingSequences, hf]
        rfl
      | lease w ttl now kinds => exact (lease_count hst.inv w ttl now kinds id).1
      | reopen => rfl
      | _ =>
        rw [Backend.step_eq _ _ (by simp) (by simp) (by simp)]
        exact step_count hst.inv _ id
  bound := (Backend.queue_effectful (fileBackend_lawful c)).count_le (fun _ => rfl)
    fun id h op r => by
      rw [leaseCountSinceOpen_snoc]
      exact countOpenCall_le id _ op r
  token := fun q w ttl now kinds j l hinv hj hl =>
    memoryQueue_counting.token q w ttl now kinds j l hinv.inv hj hl

/-- The SQLite queue turns to the same item, whatever it grants. -/
theorem sqliteLease_target {q : WorkQueue π} {w : String} {ttl : ℚ} {now : Time}
    {kinds : Option (List String)} {j : WorkItem π} (hj : (sqliteLease q w ttl now kinds).1 = .ok j) :
    ∃ i ∈ q.leaseTarget now kinds, j.workItemId = i.workItemId := by
  unfold sqliteLease at hj
  unfold leaseTarget
  split at hj
  · cases hj
  split at hj
  · cases hj
  rename_i hk _ i hi
  split at hj
  · cases hj
  split at hj
  · cases hj
  · rename_i hl
    cases hj
    refine ⟨i, by simpa only [hk, Option.mem_def] using hi, ?_⟩
    rw [WorkItem.make_eq_ok.mp hl]

/-- On the SQLite queue the tokens of an id increase while no id is leased twice. -/
theorem sqliteBackend_tokensIncrease (c : StorageCodec π) {ops : List (QueueOp π)}
    (hc : (sqliteBackend c).queue.Meets (LeasesKnown fun _ _ => 0) ops) :
    TokensIncrease ((sqliteBackend c).queue.history ops) := by
  have heff := Backend.queue_effectful (sqliteBackend_lawful c)
  intro id
  induction ops using List.reverseRecOn with
  | nil => exact .nil
  | append_singleton ops op ih =>
    obtain ⟨hc', hop⟩ := Machine.meets_snoc.mp hc
    have hinv := heff.inv_state ops
    rw [Machine.history_snoc, tokensOf_snoc]
    rcases tokensOf_effect (heff.effect _ op hinv) id with
      ⟨hnil, -⟩ | ⟨w, ttl, now, kinds, j, l, rfl, hr, hl, hid, htok, -⟩
    · rw [hnil, List.append_nil]
      exact ih hc'
    · have hj : (sqliteLease ((sqliteBackend c).queue.state ops) w ttl now kinds).1 = .ok j := by
        change Reply.ofItem (sqliteLease ((sqliteBackend c).queue.state ops) w ttl now kinds).1
          = .item j at hr
        cases he : (sqliteLease ((sqliteBackend c).queue.state ops) w ttl now kinds).1 with
        | error e => rw [he] at hr; cases hr
        | ok i => rw [he] at hr; cases hr; rfl
      obtain ⟨i, hi, hji⟩ := sqliteLease_target hj
      have hzero : (tokensOf id ((sqliteBackend c).queue.history ops)).length = 0 := by
        rw [← hid, hji]
        exact hop i hi
      rw [List.length_eq_zero_iff.mp hzero, htok]
      exact List.pairwise_singleton _ _

/-! ## The three queues -/

/-- **Fencing tokens increase while the queue knows the leases it granted.** For the in-memory
queue these are the leases granted since the last prune of the id, for the file queue those
since then and since the queue was last opened, and for the SQLite queue none. -/
theorem fencing_tokens_increase (c : StorageCodec π) (ops : List (QueueOp π)) :
    ((memoryQueue π).Meets (LeasesKnown leaseCount) ops →
        TokensIncrease ((memoryQueue π).history ops)) ∧
      ((fileQueue c).Meets
          (fun h s op => LeasesKnown leaseCountSinceOpen h (s.current (fileAdapter c)) op) ops →
        TokensIncrease ((fileQueue c).history ops)) ∧
      ((sqliteQueue c).Meets
          (fun h s op => LeasesKnown (fun _ _ => 0) h (s.current (sqliteAdapter c)) op) ops →
        TokensIncrease ((sqliteQueue c).history ops)) := by
  refine ⟨memoryQueue_counting.tokensIncrease, fun hc => ?_, fun hc => ?_⟩
  · rw [(fileQueue_refines c ops).1]
    refine (fileBackend_counting c).tokensIncrease (hc.transfer fun pre op h => ?_)
    obtain ⟨hh, hst⟩ := fileQueue_refines c pre
    rwa [hh, hst.current] at h
  · rw [(sqliteQueue_refines c ops).1]
    refine sqliteBackend_tokensIncrease c (hc.transfer fun pre op h => ?_)
    obtain ⟨hh, hst⟩ := sqliteQueue_refines c pre
    rwa [hh, hst.current] at h

def leasedTwice : List (QueueOp Unit) :=
  [.enqueue (plainRequest "task"), .lease "w" 30 0 none,
    .fail "lease-work-1-1" "w" "again" true 0, .lease "w" 30 0 none]

def leasedAcrossOpening : List (QueueOp Unit) :=
  [.enqueue (plainRequest "task"), .lease "w" 30 0 none,
    .fail "lease-work-1-1" "w" "again" true 0, .reopen, .lease "w" 30 0 none]

theorem fencing_tokens_increase_leasedTwice :
    TokensIncrease ((memoryQueue Unit).history leasedTwice) ∧
      TokensIncrease ((fileQueue epochCodec).history leasedTwice) ∧
      TokensIncrease ((sqliteQueue epochCodec).history (leasedTwice.take 2)) :=
  ⟨(fencing_tokens_increase epochCodec leasedTwice).1 (by decide +kernel),
    (fencing_tokens_increase epochCodec leasedTwice).2.1 (by decide +kernel),
    (fencing_tokens_increase epochCodec (leasedTwice.take 2)).2.2 (by decide +kernel)⟩

/-- A file queue that was opened again grants a token it granted before, and the SQLite queue
grants the token 0 every time. -/
theorem fencing_tokens_repeat :
    ¬ TokensIncrease ((fileQueue epochCodec).history leasedAcrossOpening) ∧
      ¬ TokensIncrease ((sqliteQueue epochCodec).history leasedTwice) := by
  have hfile : tokensOf "work-1" ((fileQueue epochCodec).history leasedAcrossOpening) = [1, 1] := by
    decide +kernel
  have hsqlite : tokensOf "work-1" ((sqliteQueue epochCodec).history leasedTwice) = [0, 0] := by
    decide +kernel
  refine ⟨fun h => ?_, fun h => ?_⟩
  · have := h "work-1"
    rw [hfile] at this
    exact absurd this (by decide)
  · have := h "work-1"
    rw [hsqlite] at this
    exact absurd this (by decide)

end UniversalAgent.Distributed
