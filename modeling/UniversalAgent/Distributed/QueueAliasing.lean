import UniversalAgent.Distributed.QueueSqlite

/-!
# Distributed — QueueAliasing

Whether a work item id or a lease id is ever given twice.

A lease id is made of its item's id and the number of the attempt, so leases can only alias
when items do. Items do when an `enqueue` takes the id of an item that was pruned: the
caller's own id given again, or a generated one, where the durable queues take the greatest
number among the items in storage for the number of the last id they generated.
`TakesUnprunedId` is the condition on `enqueue` that excludes this; `AliasInv` is the
invariant of the runs all of whose calls meet it.
-/

namespace UniversalAgent.Distributed

open UniversalAgent.Foundation WorkQueue

variable {π : Type}

/-- The ids of the items created in a run, in order: those returned by `enqueue` calls that no
active item of the request's key answered. -/
def created (trace : List (WorkQueue π × QueueOp π × Reply π)) : List String :=
  trace.filterMap fun
    | (q, .enqueue r, .item j) =>
      match q.existing r with
      | none => some j.workItemId
      | some _ => none
    | _ => none

def prunedIds (h : List (QueueOp π × Reply π)) : List String :=
  h.flatMap fun
    | (.prune _, .items js) => js.map fun j => j.workItemId
    | _ => []

/-- The condition on a call: an `enqueue` that no active item answers does not take, from the
caller or from the counter, the id of an item that was pruned. -/
def TakesUnprunedId (h : List (QueueOp π × Reply π)) (q : WorkQueue π) : QueueOp π → Prop
  | .enqueue r => (q.existing r).isNone = true →
      (q.chooseWorkItemId r.workItemId).1 ∉ prunedIds h
  | _ => True

instance (h : List (QueueOp π × Reply π)) (q : WorkQueue π) :
    ∀ op, Decidable (TakesUnprunedId h q op)
  | .enqueue r => inferInstanceAs (Decidable
      ((q.existing r).isNone = true → (q.chooseWorkItemId r.workItemId).1 ∉ prunedIds h))
  | .lease .. | .heartbeat .. | .complete .. | .fail .. | .cancel .. | .expire _ | .prune _
  | .get _ | .list _ | .reopen => .isTrue trivial

/-- No two items share an id, no two leases share an id, and a call that is accepted under a
lease id concerns the one lease that was granted under it: the item it returns is the item
the lease was granted for, and it was on that very lease. -/
structure NoAliasing (created : List String) (h : List (QueueOp π × Reply π)) (q : WorkQueue π)
    (answer : QueueOp π → Reply π) : Prop where
  ids : created.Nodup
  leaseIds : ((grants h).map fun g => g.2.leaseId).Nodup
  stale : ∀ op l w now j, op.presents = some (l, w, now) → answer op = .item j →
    ∃ g ∈ grants h, g.2.leaseId = l ∧ g.2.workerId = w ∧ g.1 = j.workItemId ∧
      ∃ i ∈ q.items, i.workItemId = g.1 ∧ ∃ k, i.lease = some k ∧ g.2.SameGrant k

/-! ## One call -/

/-- The id a call gives to a new item, if it creates one. -/
theorem created_effect {q q' : WorkQueue π} {op : QueueOp π} {r : Reply π}
    (he : Effect q op r q') :
    created [(q, op, r)] = [] ∨ ∃ req j, op = .enqueue req ∧ Created q q' req j ∧
      created [(q, op, r)] = [j.workItemId] := by
  cases he with
  | @quiet op r _ _ _ hen _ =>
    left
    cases op with
    | enqueue req =>
      cases r with
      | item j => simp [created, hen req j rfl rfl]
      | _ => rfl
    | _ => rfl
  | @create req j _ hc =>
    have hnone : q.existing req = none := existing_eq_none.mpr hc.key
    exact .inr ⟨req, j, rfl, hc, by simp [created, hnone]⟩
  | grant => exact .inl rfl
  | prune => exact .inl rfl

theorem mem_prunedIds_snoc {h : List (QueueOp π × Reply π)} {op : QueueOp π} {r : Reply π}
    {id : String} : id ∈ prunedIds (h ++ [(op, r)]) ↔ id ∈ prunedIds h ∨ id ∈ prunedIds [(op, r)] := by
  simp only [prunedIds, List.flatMap_append, List.mem_append]

/-- An id that was held is held after the call, or was pruned by it. -/
theorem held_effect {q q' : WorkQueue π} {op : QueueOp π} {r : Reply π} (he : Effect q op r q')
    {id : String} (h : ∃ i ∈ q.items, i.workItemId = id) :
    (∃ i ∈ q'.items, i.workItemId = id) ∨ id ∈ prunedIds [(op, r)] := by
  cases he with
  | quiet he _ _ _ => exact .inl ((he.kept.held_iff id).mp h)
  | create hc =>
    obtain ⟨i, hi, hid⟩ := h
    exact .inl ⟨i, (hc.items i).mpr (.inr hi), hid⟩
  | @grant _ _ _ _ s _ i j l he hg _ =>
    obtain ⟨a, ha, hid⟩ := (he.kept.held_iff id).mp h
    left
    by_cases haj : a.workItemId = j.workItemId
    · exact ⟨j, (hg.items j).mpr (Table.mem_put_self _ _), haj ▸ hid⟩
    · exact ⟨a, (hg.items a).mpr (Table.mem_put.mpr (.inr ⟨ha, haj⟩)), hid⟩
  | @prune before js _ hp hk =>
    obtain ⟨i, hi, hid⟩ := h
    by_cases hpi : i.isPrunableTerminal before = true
    · right
      simp only [prunedIds, List.flatMap_cons, List.flatMap_nil, List.append_nil, List.mem_map]
      exact ⟨i, (hp i).mpr ⟨hi, hpi⟩, hid⟩
    · exact .inl ⟨i, (hk i).mpr ⟨hi, by simpa using hpi⟩, hid⟩

/-! ## The invariant -/

/-- What keeps ids apart: every item created is there or was pruned, and a lease was granted
for an attempt that its item, while it is there, has made. -/
structure AliasInv (ids : List String) (h : List (QueueOp π × Reply π)) (q : WorkQueue π) :
    Prop where
  nodup : ids.Nodup
  held : ∀ id ∈ ids, (∃ i ∈ q.items, i.workItemId = id) ∨ id ∈ prunedIds h
  known : ∀ i ∈ q.items, i.workItemId ∈ ids
  granted : ∀ g ∈ grants h, g.1 ∈ ids ∧ ∃ n : Nat,
    g.2.leaseId = "lease-" ++ g.1 ++ "-" ++ toString n ∧
      ∀ i ∈ q.items, i.workItemId = g.1 → (n : Int) ≤ i.attempts
  leaseIds : ((grants h).map fun g => g.2.leaseId).Nodup
  current : ∀ i ∈ q.items, ∀ k, i.lease = some k →
    ∃ g ∈ grants h, g.1 = i.workItemId ∧ g.2.SameGrant k

variable {ids : List String} {h : List (QueueOp π × Reply π)} {q q' : WorkQueue π}

theorem AliasInv.quiet {op : QueueOp π} {r : Reply π} (hi : AliasInv ids h q)
    (hg : grants [(op, r)] = [])
    (hheld : ∀ id, (∃ i ∈ q.items, i.workItemId = id) →
      (∃ i ∈ q'.items, i.workItemId = id) ∨ id ∈ prunedIds [(op, r)])
    (horigin : ∀ j ∈ q'.items, ∃ i ∈ q.items, i.SameWork j) : AliasInv ids (h ++ [(op, r)]) q' := by
  have hgr : grants (h ++ [(op, r)]) = grants h := by rw [grants_snoc, hg, List.append_nil]
  refine ⟨hi.nodup, fun id hid => ?_, fun j hj => ?_, fun g hgm => ?_, by rw [hgr]; exact hi.leaseIds,
    fun j hj k hk => ?_⟩
  · rw [mem_prunedIds_snoc]
    rcases hi.held id hid with hq | hp
    · exact (hheld id hq).imp_right .inr
    · exact .inr (.inl hp)
  · obtain ⟨i, him, hij⟩ := horigin j hj
    rw [hij.workItemId]
    exact hi.known i him
  · rw [hgr] at hgm
    obtain ⟨hg1, n, hn, hle⟩ := hi.granted g hgm
    refine ⟨hg1, n, hn, fun j hj hjg => ?_⟩
    obtain ⟨i, him, hij⟩ := horigin j hj
    rw [hij.attempts]
    exact hle i him (hij.workItemId ▸ hjg)
  · obtain ⟨i, him, hij⟩ := horigin j hj
    obtain ⟨m, hm, hmk⟩ := hij.grant k hk
    obtain ⟨g, hgm, hgi, hgk⟩ := hi.current i him m hm
    exact ⟨g, hgr ▸ hgm, hgi.trans hij.workItemId.symm, hgk.trans hmk⟩

theorem AliasInv.create {req : EnqueueRequest π} {j : WorkItem π} (hi : AliasInv ids h q)
    (hc : Created q q' req j) (hp : j.workItemId ∉ prunedIds h) :
    AliasInv (ids ++ [j.workItemId]) (h ++ [(.enqueue req, .item j)]) q' := by
  have hgr : grants (h ++ [(QueueOp.enqueue req, Reply.item j)]) = grants h := by
    rw [grants_snoc]
    exact List.append_nil _
  have hnew : j.workItemId ∉ ids := fun hmem => by
    rcases hi.held _ hmem with ⟨i, him, hid⟩ | hpr
    · exact hc.fresh i him hid
    · exact hp hpr
  refine ⟨?_, fun id hid => ?_, fun i him => ?_, fun g hgm => ?_, by rw [hgr]; exact hi.leaseIds,
    fun i him k hk => ?_⟩
  · exact hi.nodup.append (List.nodup_singleton _) fun id hid hid' =>
      hnew (List.mem_singleton.mp hid' ▸ hid)
  · rw [mem_prunedIds_snoc]
    rcases List.mem_append.mp hid with hid | hid
    · rcases hi.held id hid with ⟨i, him, hii⟩ | hpr
      · exact .inl ⟨i, (hc.items i).mpr (.inr him), hii⟩
      · exact .inr (.inl hpr)
    · exact .inl ⟨j, (hc.items j).mpr (.inl rfl), (List.mem_singleton.mp hid).symm⟩
  · rcases (hc.items i).mp him with rfl | him
    · exact List.mem_append_right _ (List.mem_singleton.mpr rfl)
    · exact List.mem_append_left _ (hi.known i him)
  · rw [hgr] at hgm
    obtain ⟨hg1, n, hn, hle⟩ := hi.granted g hgm
    refine ⟨List.mem_append_left _ hg1, n, hn, fun i him hig => ?_⟩
    rcases (hc.items i).mp him with rfl | him
    · exact absurd (hig ▸ hg1) hnew
    · exact hle i him hig
  · rw [hgr]
    rcases (hc.items i).mp him with rfl | him
    · rw [hc.isNew.lease] at hk
      cases hk
    · exact hi.current i him k hk

theorem AliasInv.grant {w : String} {ttl : ℚ} {now : Time} {kinds : Option (List String)}
    {i j : WorkItem π} {l : WorkerLease} (hi : AliasInv ids h q) (hg : Grant q q' i j l) :
    AliasInv ids (h ++ [(.lease w ttl now kinds, .item j)]) q' := by
  have hone : grants [(QueueOp.lease w ttl now kinds, Reply.item j)] = [(j.workItemId, l)] := by
    simp only [grants, List.filterMap_cons, List.filterMap_nil, hg.lease, Option.map_some]
  have hgr : grants (h ++ [(QueueOp.lease w ttl now kinds, Reply.item j)])
      = grants h ++ [(j.workItemId, l)] := by rw [grants_snoc, hone]
  have hmem : ∀ a, a ∈ q'.items ↔ a = j ∨ (a ∈ q.items ∧ a.workItemId ≠ j.workItemId) :=
    fun a => (hg.items a).trans Table.mem_put
  have hnn := i.wellFormed.attempts_nonneg
  refine ⟨hi.nodup, fun id hid => ?_, fun a ha => ?_, fun g hgm => ?_, ?_, fun a ha k hk => ?_⟩
  · rw [mem_prunedIds_snoc]
    rcases hi.held id hid with ⟨a, ha, haid⟩ | hp
    · left
      by_cases haj : a.workItemId = j.workItemId
      · exact ⟨j, (hmem j).mpr (.inl rfl), haj ▸ haid⟩
      · exact ⟨a, (hmem a).mpr (.inr ⟨ha, haj⟩), haid⟩
    · exact .inr (.inl hp)
  · rcases (hmem a).mp ha with rfl | ⟨ha, -⟩
    · rw [hg.workItemId]
      exact hi.known i hg.mem
    · exact hi.known a ha
  · rw [hgr] at hgm
    rcases List.mem_append.mp hgm with hgm | hgm
    · obtain ⟨hg1, n, hn, hle⟩ := hi.granted g hgm
      refine ⟨hg1, n, hn, fun a ha hag => ?_⟩
      rcases (hmem a).mp ha with rfl | ⟨ha, -⟩
      · have := hle i hg.mem (hg.workItemId ▸ hag)
        rw [hg.attempts]
        omega
      · exact hle a ha hag
    · rw [List.mem_singleton.mp hgm]
      refine ⟨by rw [hg.workItemId]; exact hi.known i hg.mem, j.attempts.toNat, hg.heldLeaseId,
        fun a ha hag => ?_⟩
      rcases (hmem a).mp ha with rfl | ⟨-, hne⟩
      · rw [hg.attempts]
        omega
      · exact absurd hag hne
  · -- the new lease is for an attempt beyond those of all earlier leases of the item
    rw [hgr, List.map_append, List.map_singleton]
    refine hi.leaseIds.append (List.nodup_singleton _) fun id hid hid' => ?_
    obtain ⟨g, hgm, rfl⟩ := List.mem_map.mp hid
    obtain ⟨-, n, hn, hle⟩ := hi.granted g hgm
    have heq : g.2.leaseId = j.heldLeaseId := (List.mem_singleton.mp hid').trans hg.heldLeaseId
    rw [hn] at heq
    obtain ⟨hgj, hnj⟩ := Text.dashed_inj heq
    have hle' := hle i hg.mem (hg.workItemId.symm.trans hgj.symm)
    have hat := hg.attempts
    omega
  · rw [hgr]
    rcases (hmem a).mp ha with rfl | ⟨ha, -⟩
    · rw [hg.lease] at hk
      cases hk
      exact ⟨_, List.mem_append_right _ (List.mem_singleton.mpr rfl), rfl, .refl _⟩
    · obtain ⟨g, hgm, hgi, hgk⟩ := hi.current a ha k hk
      exact ⟨g, List.mem_append_left _ hgm, hgi, hgk⟩

theorem AliasInv.effect {op : QueueOp π} {r : Reply π} (hi : AliasInv ids h q)
    (he : Effect q op r q') (hc : TakesUnprunedId h q op) :
    AliasInv (ids ++ created [(q, op, r)]) (h ++ [(op, r)]) q' := by
  cases he with
  | @quiet op r q' hed hl hen hp =>
    have he : Effect q op r q' := .quiet hed hl hen hp
    have hcr : created [(q, op, r)] = [] := by
      rcases created_effect he with hnil | ⟨req, j, rfl, hcj, -⟩
      · exact hnil
      · obtain ⟨i, hij⟩ := hed.kept.held_iff j.workItemId |>.mpr ⟨j, (hcj.items j).mpr (.inl rfl), rfl⟩
        exact absurd hij.2 (hcj.fresh i hij.1)
    rw [hcr, List.append_nil]
    refine hi.quiet ?_ (fun id hid => held_effect he hid) hed.kept.origin
    cases op with
    | lease w ttl now kinds =>
      obtain ⟨e, rfl⟩ := hl w ttl now kinds rfl
      rfl
    | _ => rfl
  | @create req j q' hcj =>
    have hnone : q.existing req = none := existing_eq_none.mpr hcj.key
    have hone : created [(q, QueueOp.enqueue req, Reply.item j)] = [j.workItemId] := by
      simp [created, hnone]
    rw [hone]
    refine hi.create hcj ?_
    rw [hcj.workItemId]
    exact hc (by rw [hnone]; rfl)
  | @grant w ttl now kinds s q' i j l hed hg _ =>
    have hs : AliasInv ids h s := by
      have hrefl := hed.kept
      refine ⟨hi.nodup, fun id hid => ?_, fun a ha => ?_, fun g hgm => ?_, hi.leaseIds,
        fun a ha k hk => ?_⟩
      · exact (hi.held id hid).imp_left (hrefl.held_iff id).mp
      · obtain ⟨b, hb, hba⟩ := hrefl.origin a ha
        rw [hba.workItemId]
        exact hi.known b hb
      · obtain ⟨hg1, n, hn, hle⟩ := hi.granted g hgm
        refine ⟨hg1, n, hn, fun a ha hag => ?_⟩
        obtain ⟨b, hb, hba⟩ := hrefl.origin a ha
        rw [hba.attempts]
        exact hle b hb (hba.workItemId ▸ hag)
      · obtain ⟨b, hb, hba⟩ := hrefl.origin a ha
        obtain ⟨m, hm, hmk⟩ := hba.grant k hk
        obtain ⟨g, hgm, hgb, hgk⟩ := hi.current b hb m hm
        exact ⟨g, hgm, hgb.trans hba.workItemId.symm, hgk.trans hmk⟩
    rw [show created [(q, QueueOp.lease w ttl now kinds, Reply.item j)] = [] from rfl,
      List.append_nil]
    exact hs.grant hg
  | @prune before js q' hp hk =>
    rw [show created [(q, QueueOp.prune before, Reply.items js)] = [] from rfl, List.append_nil]
    exact hi.quiet rfl (fun id hid => held_effect (.prune hp hk) hid)
      fun j hj => ⟨j, ((hk j).mp hj).1, .refl j⟩

/-! ## Runs -/

theorem Effectful.aliasInv {m : Machine (WorkQueue π) (QueueOp π) (Reply π)}
    {Inv : WorkQueue π → Prop} (hm : Effectful m Inv) {ops : List (QueueOp π)}
    (hc : m.Meets TakesUnprunedId ops) :
    AliasInv (created (m.trace ops)) (m.history ops) (m.state ops) := by
  induction ops using List.reverseRecOn with
  | nil =>
    exact ⟨.nil, by simp [created, Machine.trace, Machine.traceFrom],
      fun i hi => absurd hi (hm.empty i), by simp [grants], .nil,
      fun i hi => absurd hi (hm.empty i)⟩
  | append_singleton ops op ih =>
    obtain ⟨hc', hop⟩ := Machine.meets_snoc.mp hc
    have hcr : created (m.trace (ops ++ [op])) = created (m.trace ops)
        ++ created [(m.state ops, op, (m.step (m.state ops) op).1)] := by
      rw [Machine.trace_snoc]
      exact List.filterMap_append
    rw [hcr, Machine.history_snoc, Machine.state_snoc]
    exact (ih hc').effect (hm.effect _ op (hm.inv_state ops)) hop

namespace WorkQueue

/-- An accepted call under a lease returns the item it found on that lease. -/
theorem accepted {q : WorkQueue π} {op : QueueOp π} {l w : String} {now : Time} {j : WorkItem π}
    (hp : op.presents = some (l, w, now)) (ha : (q.step op).1 = .item j) :
    ∃ i ∈ q.items, i.workItemId = j.workItemId ∧
      ∃ k, i.lease = some k ∧ k.leaseId = l ∧ k.workerId = w := by
  -- what the three methods do with the leased item keeps its id
  have found : ∀ body : WorkItem π → WorkerLease → Outcome (WorkQueue π) (WorkItem π),
      (∀ i k j, (body i k).1 = .ok j → j.workItemId = i.workItemId) →
      Reply.ofItem (q.withLeasedItem l w now body).1 = .item j →
      ∃ i ∈ q.items, i.workItemId = j.workItemId ∧
        ∃ k, i.lease = some k ∧ k.leaseId = l ∧ k.workerId = w := by
    intro body hbody hr
    rcases withLeasedItem_cases q l w now body with ⟨i, k, hi, -, hh, heq⟩ | ⟨e, he, -⟩
    · rw [heq] at hr
      cases hb : (body i k).1 with
      | error e => rw [hb] at hr; cases hr
      | ok j' =>
        rw [hb] at hr
        cases hr
        obtain ⟨k', hk', hid, hw, -⟩ := WorkItem.heldBy_iff.mp hh
        exact ⟨i, hi, (hbody i k j hb).symm, k', hk', hid, hw⟩
    · rw [he] at hr
      cases hr
  cases op with
  | heartbeat l' w' ttl now' =>
    cases hp
    refine found (q.renew ttl now) (fun i k j hj => ?_) ha
    unfold renew at hj
    split at hj
    · cases hj
    split at hj
    · cases hj
    · rename_i hr
      cases hj
      rw [WorkItem.make_eq_ok.mp hr]
  | complete l' w' now' =>
    cases hp
    refine found (fun i _ => q.finish now i) (fun i k j hj => ?_) ha
    cases hj
    rfl
  | fail l' w' reason retry now' =>
    cases hp
    simp only [step, fail] at ha
    split at ha
    · cases ha
    · refine found (fun i _ => q.giveBack reason retry now i) (fun i k j hj => ?_) ha
      cases hj
      exact failure_workItemId i reason retry now
  | _ => cases hp

end WorkQueue

/-- A queue whose calls under a lease answer as those of the in-memory queue keeps ids apart
on the runs that take no pruned id. -/
theorem Effectful.noAliasing {m : Machine (WorkQueue π) (QueueOp π) (Reply π)}
    {Inv : WorkQueue π → Prop} (hm : Effectful m Inv)
    (hanswer : ∀ q op p, op.presents = some p → (m.step q op).1 = (q.step op).1)
    {ops : List (QueueOp π)} (hc : m.Meets TakesUnprunedId ops) :
    NoAliasing (created (m.trace ops)) (m.history ops) (m.state ops)
      (fun op => (m.step (m.state ops) op).1) := by
  have hi := hm.aliasInv hc
  refine ⟨hi.nodup, hi.leaseIds, fun op l w now j hp ha => ?_⟩
  obtain ⟨i, him, hij, k, hk, hkl, hkw⟩ := accepted hp ((hanswer _ op _ hp).symm.trans ha)
  obtain ⟨g, hg, hgi, hgk⟩ := hi.current i him k hk
  exact ⟨g, hg, hgk.leaseId.symm.trans hkl, hgk.workerId.symm.trans hkw, hgi.trans hij, i, him,
    hgi.symm, k, hk, hgk⟩

theorem Backend.step_presents (b : Backend π) (q : WorkQueue π) (op : QueueOp π)
    (p : String × String × Time) (hp : op.presents = some p) : (b.step q op).1 = (q.step op).1 := by
  cases op <;> first | rfl | cases hp

/-- **Ids never alias on the runs that take no pruned id**, whichever queue it is. -/
theorem ids_never_alias (c : StorageCodec π) (ops : List (QueueOp π)) :
    ((memoryQueue π).Meets TakesUnprunedId ops →
        NoAliasing (created ((memoryQueue π).trace ops)) ((memoryQueue π).history ops)
          ((memoryQueue π).state ops)
          (fun op => (((memoryQueue π).state ops).step op).1)) ∧
      ((fileQueue c).Meets
          (fun h s op => TakesUnprunedId h (s.current (fileAdapter c)) op) ops →
        NoAliasing (created (currentTrace (fileAdapter c) ((fileQueue c).trace ops)))
          ((fileQueue c).history ops) (((fileQueue c).state ops).current (fileAdapter c))
          (fun op => (((fileQueue c).state ops).step c op).1)) ∧
      ((sqliteQueue c).Meets
          (fun h s op => TakesUnprunedId h (s.current (sqliteAdapter c)) op) ops →
        NoAliasing (created (currentTrace (sqliteAdapter c) ((sqliteQueue c).trace ops)))
          ((sqliteQueue c).history ops) (((sqliteQueue c).state ops).current (sqliteAdapter c))
          (fun op => (((sqliteQueue c).state ops).step c op).1)) := by
  refine ⟨memoryQueue_effectful.noAliasing (fun _ _ _ _ => rfl), fun hc => ?_, fun hc => ?_⟩
  · have hb := fileBackend_lawful c
    have hm := (Backend.queue_effectful hb).noAliasing (Backend.step_presents _)
      (hc.transfer (n := (fileBackend c).queue) fun pre op h => by
        obtain ⟨hh, hst⟩ := fileQueue_refines c pre
        rwa [hh, hst.current] at h)
    obtain ⟨hh, hst⟩ := fileQueue_refines c ops
    rw [fileQueue_trace c ops, hh, hst.current]
    exact ⟨hm.ids, hm.leaseIds, fun op l w now j hp ha =>
      hm.stale op l w now j hp ((fileQueue_step c hst op).1.symm.trans ha)⟩
  · have hb := sqliteBackend_lawful c
    have hm := (Backend.queue_effectful hb).noAliasing (Backend.step_presents _)
      (hc.transfer (n := (sqliteBackend c).queue) fun pre op h => by
        obtain ⟨hh, hst⟩ := sqliteQueue_refines c pre
        rwa [hh, hst.current] at h)
    obtain ⟨hh, hst⟩ := sqliteQueue_refines c ops
    rw [sqliteQueue_trace c ops, hh, hst.current]
    exact ⟨hm.ids, hm.leaseIds, fun op l w now j hp ha =>
      hm.stale op l w now j hp ((sqliteQueue_step c hst op).1.symm.trans ha)⟩

/-- An item is enqueued, leased, completed and pruned, and another one is enqueued and
leased. -/
def prunedAndNext (kind : String) : List (QueueOp Unit) :=
  [.enqueue (plainRequest kind), .lease "w" 30 0 none, .complete "lease-work-1-1" "w" 0,
    .prune none, .enqueue (plainRequest kind), .lease "w" 30 0 none]

theorem ids_never_alias_prunedAndNext :
    ((grants ((memoryQueue Unit).history (prunedAndNext "task"))).map fun g => g.2.leaseId).Nodup ∧
      ((grants ((fileQueue epochCodec).history ((prunedAndNext "task").take 4))).map
        fun g => g.2.leaseId).Nodup ∧
      ((grants ((sqliteQueue epochCodec).history ((prunedAndNext "task").take 4))).map
        fun g => g.2.leaseId).Nodup :=
  ⟨((ids_never_alias epochCodec (prunedAndNext "task")).1 (by decide +kernel)).leaseIds,
    ((ids_never_alias epochCodec ((prunedAndNext "task").take 4)).2.1 (by decide +kernel)).leaseIds,
    ((ids_never_alias epochCodec ((prunedAndNext "task").take 4)).2.2 (by decide +kernel)).leaseIds⟩

/-- After a prune of the item with the greatest number, the durable queues give its id, and
the id of its lease, a second time. -/
theorem ids_alias_after_prune :
    ¬ (created (currentTrace (fileAdapter epochCodec)
        ((fileQueue epochCodec).trace (prunedAndNext "task")))).Nodup ∧
      ¬ ((grants ((fileQueue epochCodec).history (prunedAndNext "task"))).map
        fun g => g.2.leaseId).Nodup ∧
      ¬ (created (currentTrace (sqliteAdapter epochCodec)
        ((sqliteQueue epochCodec).trace (prunedAndNext "task")))).Nodup ∧
      ¬ ((grants ((sqliteQueue epochCodec).history (prunedAndNext "task"))).map
        fun g => g.2.leaseId).Nodup := by
  decide +kernel

end UniversalAgent.Distributed
