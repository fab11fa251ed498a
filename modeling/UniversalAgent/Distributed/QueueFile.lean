import UniversalAgent.Distributed.QueueDurable

/-!
# Distributed — QueueFile

`FileWorkQueue` (`distributed/queue_file.py`): the queue as one JSON document, replaced as a
whole by every save. A call that raises undoes nothing in the document, and what it left in
the object is gone with the next load.

`fileQueue_refines` shows the queue to be the stored queue of `fileBackend`.
-/

namespace UniversalAgent.Distributed

open UniversalAgent.Foundation WorkQueue

variable {π : Type}

structure WorkQueueFilePayload where
  version : Int
  items : List WorkItemPayload
deriving DecidableEq

/-- The document, `none` while the file does not exist. -/
abbrev FileWorkQueue (π : Type) := DurableQueue (Option WorkQueueFilePayload) π

/-- `FileWorkQueue._load` and `FileWorkQueue._save`. -/
def fileAdapter (c : StorageCodec π) : Adapter (Option WorkQueueFilePayload) π where
  empty := none
  read
    | none => .ok Table.empty
    | some document =>
      if document.version ≠ 1 then
        .error (.valueError
          ("unsupported file work queue version: " ++ toString document.version))
      else loadItems c "duplicate file work queue item: " document.items Table.empty
  write items :=
    match items.mapM (encodeWorkItem c) with
    | .error e => .error e
    | .ok items => .ok (some ⟨1, items⟩)

def Reply.ofItems : Except QueueError (List (WorkItem π)) → Reply π
  | .ok is => .items is
  | .error e => .raised e

def Reply.ofUnit : Except QueueError Unit → Reply π
  | .ok () => .done
  | .error e => .raised e

namespace FileWorkQueue

def step (c : StorageCodec π) (s : FileWorkQueue π) : QueueOp π → Reply π × FileWorkQueue π
  | .enqueue r =>
    (Reply.ofItem (s.enqueue (fileAdapter c) r).1, (s.enqueue (fileAdapter c) r).2)
  | .lease w ttl now kinds =>
    (Reply.ofItem (s.lease (fileAdapter c) w ttl now kinds).1,
      (s.lease (fileAdapter c) w ttl now kinds).2)
  | .heartbeat l w ttl now =>
    (Reply.ofItem (s.heartbeat (fileAdapter c) l w ttl now).1,
      (s.heartbeat (fileAdapter c) l w ttl now).2)
  | .complete l w now =>
    (Reply.ofItem (s.complete (fileAdapter c) l w now).1,
      (s.complete (fileAdapter c) l w now).2)
  | .fail l w reason retry now =>
    (Reply.ofItem (s.fail (fileAdapter c) l w reason retry now).1,
      (s.fail (fileAdapter c) l w reason retry now).2)
  | .cancel id reason now =>
    (Reply.ofItem (s.cancel (fileAdapter c) id reason now).1,
      (s.cancel (fileAdapter c) id reason now).2)
  | .expire now =>
    (Reply.ofItems (s.expire (fileAdapter c) now).1, (s.expire (fileAdapter c) now).2)
  | .prune before =>
    (Reply.ofItems (s.pruneTerminal (fileAdapter c) before).1,
      (s.pruneTerminal (fileAdapter c) before).2)
  | .get id => (Reply.ofItem (s.get (fileAdapter c) id).1, (s.get (fileAdapter c) id).2)
  | .list status =>
    (Reply.ofItems (s.list (fileAdapter c) status).1, (s.list (fileAdapter c) status).2)
  | .reopen => (Reply.ofUnit (s.reopen (fileAdapter c)).1, (s.reopen (fileAdapter c)).2)

end FileWorkQueue

def fileQueue (c : StorageCodec π) : Machine (FileWorkQueue π) (QueueOp π) (Reply π) where
  init := ⟨WorkQueue.new, none⟩
  step := FileWorkQueue.step c

/-- The stored queue that a file queue is: rows in the order `list()` saved them in, refused
items those the JSON codec cannot write, the inherited `lease`. -/
def fileBackend (c : StorageCodec π) : Backend π where
  rowOrder i j := decide (i.sortKey ≤ j.sortKey)
  refusal i :=
    match encodeWorkItem c i with
    | .ok _ => none
    | .error e => some e
  lease := WorkQueue.lease

variable (c : StorageCodec π)

theorem fileBackend_refusal_none {i : WorkItem π} :
    (fileBackend c).refusal i = none ↔ ∃ p, encodeWorkItem c i = .ok p := by
  simp only [fileBackend]
  cases encodeWorkItem c i <;> simp

/-- The inherited `lease` grants one lease under the item's next token. -/
theorem lease_grants {q : WorkQueue π} (h : QueueInv q) (w : String) (ttl : ℚ) (now : Time)
    (kinds : Option (List String)) :
    (∃ s i j l, (q.lease w ttl now kinds).1 = .ok j ∧ l.workerId = w ∧ Edits q s ∧
        Grant s (q.lease w ttl now kinds).2 i j l ∧
        l.fencingToken ≤ q.fencingSequences.count i.workItemId + 1 ∧
        ∀ id, (q.lease w ttl now kinds).2.fencingSequences.count id ≤
          if id = i.workItemId then q.fencingSequences.count id + 1
          else q.fencingSequences.count id) ∨
      ∃ e, (q.lease w ttl now kinds).1 = .error e ∧ Edits q (q.lease w ttl now kinds).2 ∧
        (q.lease w ttl now kinds).2.fencingSequences = q.fencingSequences := by
  unfold lease
  cases normalizeAcceptedKinds kinds with
  | error e => exact .inr ⟨e, rfl, .refl, rfl⟩
  | ok kindFilter =>
    have hleft := (h.edits (edits_expire q now)).left
    rcases grantNext_cases hleft w ttl now kindFilter with
      ⟨i, j, l, -, hj, hw, hg, ht, hf⟩ | ⟨e, he, -⟩
    · refine .inl ⟨(q.expire now).2, i, j, l, hj, hw, edits_expire q now, hg, ?_, fun id => ?_⟩
      · rw [ht, expire_fencingSequences]
      · simp only [hf, count_put, ht, expire_fencingSequences]
        by_cases hid : id = i.workItemId <;> simp [hid]
    · refine .inr ⟨e, by simp only [he], ?_, ?_⟩
      · simp only [he]
        exact edits_expire q now
      · simp only [he, expire_fencingSequences]

theorem fileBackend_lawful : (fileBackend c).Lawful where
  total := fun i j => by simpa [fileBackend] using le_total i.sortKey j.sortKey
  trans := fun i j k hij hjk => by
    simp only [fileBackend, decide_eq_true_eq] at hij hjk ⊢
    exact hij.trans hjk
  antisymm := fun i j hij hji => by
    simp only [fileBackend, decide_eq_true_eq] at hij hji
    exact WorkItem.sortKey_inj (le_antisymm hij hji)
  refusal := fun i j hp hpr hm ht hi => by
    rw [fileBackend_refusal_none] at hi ⊢
    exact encodeWorkItem_isOk_of c hp hpr hm ht hi
  lease := fun q w ttl now kinds h => lease_grants h w ttl now kinds

/-- The rows of a saved document are in the backend's order already. -/
theorem sorted_eq_arrange (t : Items π) :
    WorkItem.sorted t.rows = (t.arrange (fileBackend c).rowOrder).rows := by
  refine List.Perm.eq_of_pairwise (fun i j hi hj hij hji => ?_) (WorkItem.sorted_pairwise t.rows)
    (((fileBackend_lawful c).pairwise t).imp fun h => by simpa [fileBackend] using h)
    ((WorkItem.sorted_perm t.rows).trans (List.perm_insertionSort _ t.rows).symm)
  have hi' : i ∈ t := (WorkItem.sorted_perm t.rows).mem_iff.mp hi
  exact Table.eq_of_key hi' (Items.mem_arrange.mp hj)
    (WorkItem.sortKey_inj (le_antisymm hij hji))

theorem fileAdapter_lawful : (fileAdapter c).Lawful (fileBackend c) where
  empty := rfl
  write_ok := fun t ht => by
    have henc : ∀ i ∈ WorkItem.sorted t.rows, ∃ p, encodeWorkItem c i = .ok p := fun i hi =>
      (fileBackend_refusal_none c).mp (ht i ((WorkItem.sorted_perm t.rows).mem_iff.mp hi))
    obtain ⟨ps, hps, hall⟩ := mapM_encode_ok c henc
    refine ⟨some ⟨1, ps⟩, by simp only [fileAdapter, hps], ?_⟩
    simp only [fileAdapter, ne_eq, not_true_eq_false, if_false]
    exact loadItems_encode c _ hall Table.empty _ (by rw [← sorted_eq_arrange]; rfl)
  write_error := fun t j e hj hr _ => by
    have hje : encodeWorkItem c j = .error e := by
      simp only [fileBackend] at hr
      cases he : encodeWorkItem c j with
      | ok p => rw [he] at hr; cases hr
      | error e' => rw [he] at hr; cases hr; rfl
    have hm := mapM_encode_error c ((WorkItem.sorted_perm t.rows).mem_iff.mpr hj) hje
    simp only [fileAdapter, hm, encodeWorkItem_error c hje]

open DurableQueue

theorem lease_simulates {s : FileWorkQueue π} {q : WorkQueue π}
    (h : Stands (fileAdapter c) (fileBackend c) s q) (w : String) (ttl : ℚ) (now : Time)
    (kinds : Option (List String)) :
    Simulates (fileAdapter c) (fileBackend c) (s.lease (fileAdapter c) w ttl now kinds)
      (q.lease w ttl now kinds) := by
  have hb := fileBackend_lawful c
  have ha := fileAdapter_lawful c
  unfold DurableQueue.lease
  rw [h.loading]
  refine Pending.saving ha hb ?_
  unfold WorkQueue.lease
  cases normalizeAcceptedKinds kinds with
  | error e =>
    refine ⟨rfl, by simp, fun _ _ => ?_⟩
    simp only
    rw [h.stored.canonical]
    exact h.loaded
  | ok kindFilter =>
    obtain ⟨⟨hans, hst⟩, hqs⟩ := expire_simulates ha hb h.loaded now
    have hsw : Writable (fileBackend c) (q.expire now).2 :=
      h.stored.toWritable.edits hb (edits_expire q now) (expire_fencingSequences q now)
    simp only
    rcases hx : DurableQueue.expire (fileAdapter c) { s with queue := q } now with ⟨res, s'⟩
    rw [hx] at hans hst hqs
    simp only at hans hst hqs
    subst hans
    simp only [inherited, hqs]
    rcases grantNext_cases hsw.inv.left w ttl now kindFilter with
      ⟨i, j, l, -, hj, -, hg, ht, hf⟩ | ⟨e, he, -⟩
    · refine ⟨rfl, fun _ _ => ⟨rfl, hsw.grant hb hg ht.le fun id => ?_⟩, fun e he => ?_⟩
      · rw [hf, count_put]
        by_cases hid : id = i.workItemId
        · simp [hid, ht]
        · simp [hid]
      · rw [hj] at he
        cases he
    · refine ⟨rfl, fun x hx => ?_, fun _ _ => ?_⟩
      · rw [he] at hx
        cases hx
      · simp only [he]
        exact ⟨hst.stored, hst.read, rfl⟩

theorem fileQueue_step {s : FileWorkQueue π} {q : WorkQueue π}
    (h : Stands (fileAdapter c) (fileBackend c) s q) (op : QueueOp π) :
    (s.step c op).1 = ((fileBackend c).step q op).1 ∧
      Stands (fileAdapter c) (fileBackend c) (s.step c op).2 ((fileBackend c).step q op).2 := by
  have ha := fileAdapter_lawful c
  have hb := fileBackend_lawful c
  -- a method that simulates, with its answer turned into a reply
  have item : ∀ {r : Outcome (FileWorkQueue π) (WorkItem π)} {r' : Outcome (WorkQueue π) (WorkItem π)},
      Simulates (fileAdapter c) (fileBackend c) r r' → Reply.ofItem r.1 = Reply.ofItem r'.1 ∧
        Stands (fileAdapter c) (fileBackend c) r.2 ((fileBackend c).reload r'.2) :=
    fun hs => ⟨by rw [hs.answer], hs.stands⟩
  cases op with
  | enqueue r =>
    obtain ⟨hans, hst⟩ := enqueue_simulates ha hb h r
    exact ⟨by simp only [FileWorkQueue.step, Backend.step, hans], hst⟩
  | lease w ttl now kinds => exact item (lease_simulates c h w ttl now kinds)
  | heartbeat l w ttl now => exact item (heartbeat_simulates ha hb h l w ttl now)
  | complete l w now => exact item (complete_simulates ha hb h l w now)
  | fail l w reason retry now => exact item (fail_simulates ha hb h l w reason retry now)
  | cancel id reason now => exact item (cancel_simulates ha hb h id reason now)
  | get id => exact item (get_simulates h id)
  | expire now =>
    obtain ⟨hs, -⟩ := expire_simulates ha hb h now
    exact ⟨by simp only [FileWorkQueue.step, hs.answer]; rfl, hs.stands⟩
  | prune before =>
    have hs := pruneTerminal_simulates ha hb h before
    exact ⟨by simp only [FileWorkQueue.step, hs.answer]; rfl, hs.stands⟩
  | list status =>
    have hs := list_simulates h status
    exact ⟨by simp only [FileWorkQueue.step, hs.answer]; rfl, hs.stands⟩
  | reopen =>
    have hs := reopen_stands hb h
    exact ⟨by simp only [FileWorkQueue.step, hs.1]; rfl, hs.2⟩

/-- **The file queue is the stored queue of its backend.** -/
theorem fileQueue_refines (ops : List (QueueOp π)) :
    (fileQueue c).history ops = (fileBackend c).queue.history ops ∧
      Stands (fileAdapter c) (fileBackend c) ((fileQueue c).state ops)
        ((fileBackend c).queue.state ops) :=
  (fileQueue c).simulate (fileBackend c).queue _
    ⟨(Backend.queue_effectful (fileBackend_lawful c)).init, rfl, rfl⟩
    (fun _ _ op h => fileQueue_step c h op) ops

/-- The queue's states, as the next call will load them, are those of its backend. -/
theorem fileQueue_trace (ops : List (QueueOp π)) :
    currentTrace (fileAdapter c) ((fileQueue c).trace ops)
      = (fileBackend c).queue.trace ops :=
  (fileQueue c).simulate_trace (fileBackend c).queue _ _ (fun _ _ h => h.current)
    ⟨(Backend.queue_effectful (fileBackend_lawful c)).init, rfl, rfl⟩
    (fun _ _ op h => fileQueue_step c h op) ops

end UniversalAgent.Distributed
