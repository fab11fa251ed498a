import UniversalAgent.Distributed.WorkersDurable
import UniversalAgent.Foundation.Machine
import UniversalAgent.Foundation.Sorting

/-!
# Distributed — WorkersRefinement

The three registries of workers agree. What storage holds is the in-memory registry up to the order of the
records, as long as the metadata that workers register with reads back as it was; and the storage does not
hold it any longer once a worker has registered with other metadata.
-/

namespace UniversalAgent.Distributed

open UniversalAgent.Foundation

variable {now : Time} {duplicate : String} {α : Type} {workerId : String}

variable {δ π : Type}

/-! ## The order of the records -/

namespace WorkerRegistry

def Same (reg reg' : WorkerRegistry π) : Prop := ∀ r, r ∈ reg ↔ r ∈ reg'

theorem mem_sorted {records : List (WorkerRecord π)} {r : WorkerRecord π} :
    r ∈ sorted records ↔ r ∈ records := (List.perm_insertionSort _ records).mem_iff

theorem pairwise_sorted (records : List (WorkerRecord π)) :
    (sorted records).Pairwise fun r r' => r.workerId ≤ r'.workerId :=
  pairwise_sortByKey (fun r : WorkerRecord π => r.workerId) records

/-- Records of different workers have one sorted order. -/
theorem sorted_congr {records records' : List (WorkerRecord π)} (hp : records.Perm records')
    (hkey : ∀ r ∈ records, ∀ r' ∈ records, r.workerId = r'.workerId → r = r') :
    sorted records = sorted records' :=
  sortByKey_congr (fun r : WorkerRecord π => r.workerId) hp hkey

theorem mem_list_none {reg : WorkerRegistry π} {r : WorkerRecord π} : r ∈ reg.list none ↔ r ∈ reg := by
  unfold list
  rw [List.mem_filter, mem_sorted]
  exact ⟨fun h => h.1, fun h => ⟨h, rfl⟩⟩

section Same

variable {reg reg' reg'' : WorkerRegistry π}

theorem Same.refl (reg : WorkerRegistry π) : Same reg reg := fun _ => Iff.rfl

theorem Same.symm (h : Same reg reg') : Same reg' reg := fun r => (h r).symm

theorem Same.trans (h : Same reg reg') (h' : Same reg' reg'') : Same reg reg'' :=
  fun r => (h r).trans (h' r)

theorem Same.perm (h : Same reg reg') : reg.rows.Perm reg'.rows := Table.perm_of_mem_iff h

theorem Same.get? (h : Same reg reg') (workerId : String) : reg.get? workerId = reg'.get? workerId :=
  Table.get?_congr h workerId

theorem Same.put (h : Same reg reg') (r : WorkerRecord π) : Same (reg.put r) (reg'.put r) := fun x => by
  rw [Table.mem_put, Table.mem_put]
  exact or_congr_right (and_congr_left' (h x))

theorem list_congr (h : Same reg reg') (status : Option WorkerStatus) : reg.list status = reg'.list status := by
  unfold list
  rw [sorted_congr h.perm fun _ hr _ hr' => Table.eq_of_key hr hr']

theorem active_congr (h : Same reg reg') : reg.active = reg'.active :=
  sorted_congr (h.perm.filter _) fun _ hr _ hr' =>
    Table.eq_of_key (List.mem_of_mem_filter hr) (List.mem_of_mem_filter hr')

theorem get_congr (h : Same reg reg') (workerId : String) : reg.get workerId = reg'.get workerId := by
  unfold get
  rw [h.get? workerId]

theorem register_congr (h : Same reg reg') (workerId : String) (capabilities : List String)
    (metadata : Option π) (ttlSeconds : ℚ) (now : Time) :
    (reg.register workerId capabilities metadata ttlSeconds now).1 =
        (reg'.register workerId capabilities metadata ttlSeconds now).1 ∧
      Same (reg.register workerId capabilities metadata ttlSeconds now).2
        (reg'.register workerId capabilities metadata ttlSeconds now).2 := by
  unfold register
  rw [h.get? workerId]
  split
  · exact ⟨rfl, h⟩
  · split
    · exact ⟨rfl, h⟩
    · exact ⟨rfl, h.put _⟩

/-- The records that `expire` finds are of different workers. -/
theorem lost_workerId {r lost : WorkerRecord π} (h : lost? r now = some lost) :
    lost.workerId = r.workerId ∧ lost.metadata = r.metadata := by
  unfold lost? at h
  split at h
  · cases h
  · split at h
    · cases h
    · cases h
      exact ⟨rfl, rfl⟩

theorem expired_key (reg : WorkerRegistry π) (now : Time) :
    ∀ r ∈ reg.rows.filterMap (fun r => lost? r now), ∀ r' ∈ reg.rows.filterMap (fun r => lost? r now),
      r.workerId = r'.workerId → r = r' := by
  intro lost hlost lost' hlost' hid
  obtain ⟨r, hr, hof⟩ := List.mem_filterMap.mp hlost
  obtain ⟨r', hr', hof'⟩ := List.mem_filterMap.mp hlost'
  have hsame : r = r' := by
    refine Table.eq_of_key hr hr' ?_
    rw [← (lost_workerId hof).1, ← (lost_workerId hof').1, hid]
  subst hsame
  exact Option.some.inj (hof.symm.trans hof')

theorem expire_congr (h : Same reg reg') (now : Time) :
    (reg.expire now).1 = (reg'.expire now).1 ∧ Same (reg.expire now).2 (reg'.expire now).2 := by
  have hperm := h.perm.filterMap fun r => lost? r now
  refine ⟨sorted_congr hperm (expired_key reg now), fun x => ?_⟩
  unfold expire
  rw [Table.mem_foldl_put (expired_key reg now), Table.mem_foldl_put (expired_key reg' now), hperm.mem_iff, h x]
  refine or_congr_right (and_congr_right fun _ => forall_congr' fun r => ?_)
  rw [hperm.mem_iff]

theorem expire_of_nil (h : (reg.expire now).1 = []) : (reg.expire now).2 = reg := by
  have hnone : reg.rows.filterMap (fun r => lost? r now) = [] := by
    have hperm := List.perm_insertionSort (fun r r' : WorkerRecord π => r.workerId ≤ r'.workerId)
      (reg.rows.filterMap fun r => lost? r now)
    rw [show List.insertionSort _ _ = [] from h] at hperm
    exact List.nil_perm.mp hperm
  unfold expire
  rw [hnone]
  rfl

end Same

end WorkerRegistry

/-! ## Reading back -/

def WorkerCodec.Kept (c : WorkerCodec π) (metadata : Option π) : Prop :=
  ∃ text, c.dumps metadata = .ok text ∧ c.loads text = .ok metadata

section Codec

variable {c : WorkerCodec π}

variable {r : WorkerRecord π} {p : WorkerRecordPayload} {ps : List WorkerRecordPayload}

theorem encodeWorkerRecord_eq_ok :
    encodeWorkerRecord c r = .ok p ↔ ∃ text, c.dumps r.metadata = .ok text ∧ workerPayload c r text = p := by
  unfold encodeWorkerRecord
  cases c.dumps r.metadata with
  | error e => simp
  | ok text => simp

theorem ofValue_value (status : WorkerStatus) : WorkerStatus.ofValue status.value = .ok status := by
  cases status <;> rfl

/-- What a record's text reads as: the record, but for its metadata. -/
theorem decode_workerPayload {text : String} {metadata : Option π}
    (h : c.loads text = .ok metadata) :
    decodeWorkerRecord c (workerPayload c r text) = .ok { r with metadata := metadata } := by
  simp [decodeWorkerRecord, workerPayload, parseWorkerDatetime, h, c.parse_isoformat, ofValue_value, bind,
    Except.bind, pure, Except.pure]

theorem decode_encode (h : c.Kept r.metadata) :
    ∃ p, encodeWorkerRecord c r = .ok p ∧ decodeWorkerRecord c p = .ok r := by
  obtain ⟨text, hdumps, hloads⟩ := h
  exact ⟨_, encodeWorkerRecord_eq_ok.mpr ⟨text, hdumps, rfl⟩, decode_workerPayload hloads⟩

/-- A record that reads back as it was has metadata that is kept. -/
theorem kept_of_decode (henc : encodeWorkerRecord c r = .ok p)
    (hdec : decodeWorkerRecord c p = .ok r) : c.Kept r.metadata := by
  obtain ⟨text, hdumps, rfl⟩ := encodeWorkerRecord_eq_ok.mp henc
  obtain ⟨metadata, hloads⟩ := c.loads_dumps _ _ hdumps
  rw [decode_workerPayload hloads] at hdec
  have hmetadata : metadata = r.metadata := congrArg WorkerRecord.metadata (Except.ok.inj hdec)
  exact ⟨text, hdumps, hmetadata ▸ hloads⟩

theorem decode_workerId {r x : WorkerRecord π}
    (henc : encodeWorkerRecord c r = .ok p) (hdec : decodeWorkerRecord c p = .ok x) :
    x.workerId = r.workerId := by
  obtain ⟨text, hdumps, rfl⟩ := encodeWorkerRecord_eq_ok.mp henc
  obtain ⟨metadata, hloads⟩ := c.loads_dumps _ _ hdumps
  rw [decode_workerPayload hloads] at hdec
  rw [← Except.ok.inj hdec]

theorem mem_loadWorkers {loaded t : WorkerRegistry π}
    (h : loadWorkers c duplicate ps loaded = .ok t) {x : WorkerRecord π} (hx : x ∈ t) :
    x ∈ loaded ∨ ∃ p ∈ ps, decodeWorkerRecord c p = .ok x := by
  induction ps generalizing loaded with
  | nil =>
    cases h
    exact .inl hx
  | cons p ps ih =>
    unfold loadWorkers at h
    split at h
    · cases h
    · next r hr =>
        split at h
        · cases h
        · rcases ih h with hmem | ⟨p', hp', hdec⟩
          · rcases Table.mem_put.mp hmem with rfl | ⟨hmem, -⟩
            · exact .inr ⟨p, List.mem_cons_self, hr⟩
            · exact .inl hmem
          · exact .inr ⟨p', .tail p hp', hdec⟩

/-- Payloads of records of distinct workers load into the table of these records, in their order. -/
theorem loadWorkers_decode (duplicate : String) {rows : List (WorkerRecord π)}
    (hps : List.Forall₂ (fun r p => decodeWorkerRecord c p = .ok r) rows ps)
    (loaded t : WorkerRegistry π) (ht : t.rows = loaded.rows ++ rows) :
    loadWorkers c duplicate ps loaded = .ok t := by
  induction hps generalizing loaded with
  | nil => rw [loadWorkers, Table.ext (ht.trans (List.append_nil _))]
  | @cons r p rows ps hr _ ih =>
    have hnodup := t.nodup
    rw [ht, List.map_append, List.map_cons, List.nodup_append] at hnodup
    have hnone : loaded.get? r.workerId = none :=
      Table.get?_eq_none.mpr fun x hx hid =>
        hnodup.2.2 _ (List.mem_map_of_mem hx) _ List.mem_cons_self hid
    have hput : (loaded.put r).rows = loaded.rows ++ [r] := Table.rows_put_of_fresh hnone
    rw [loadWorkers, hr]
    simp only [hnone]
    exact ih (loaded.put r) (by rw [ht, hput, List.append_assoc, List.singleton_append])

end Codec

/-! ## The adapters -/

open WorkerRegistry

/-- Workers whose metadata is kept are written and read back as they are, and no others are. -/
structure WorkerAdapter.Lawful (a : WorkerAdapter δ π) (c : WorkerCodec π) : Prop where
  empty : a.read a.empty = .ok Table.empty
  kept : ∀ reg, (∀ r ∈ reg, c.Kept r.metadata) →
    ∃ data reg', a.write reg = .ok data ∧ a.read data = .ok reg' ∧ Same reg reg'
  lost : ∀ reg data reg', a.write reg = .ok data → a.read data = .ok reg' → Same reg reg' →
    ∀ r ∈ reg, c.Kept r.metadata

section Adapters

variable {c : WorkerCodec π}

def sortedWorkers (reg : WorkerRegistry π) : WorkerRegistry π :=
  ⟨reg.list none, by
    have hall : reg.list none = sorted reg.rows := List.filter_eq_self.mpr fun _ _ => rfl
    have hperm : (reg.list none).Perm reg.rows := hall ▸ List.perm_insertionSort _ _
    exact (hperm.map _).nodup_iff.mpr reg.nodup⟩

theorem same_sortedWorkers (reg : WorkerRegistry π) : Same reg (sortedWorkers reg) :=
  fun _ => mem_list_none.symm

variable {ps : List WorkerRecordPayload}

theorem forall₂_decode {rows : List (WorkerRecord π)}
    (hps : List.Forall₂ (fun r p => encodeWorkerRecord c r = .ok p) rows ps)
    (hkept : ∀ r ∈ rows, c.Kept r.metadata) :
    List.Forall₂ (fun r p => decodeWorkerRecord c p = .ok r) rows ps := by
  induction hps with
  | nil => exact .nil
  | @cons r p rows ps hp _ ih =>
    obtain ⟨p', hp', hdec⟩ := decode_encode (hkept r List.mem_cons_self)
    obtain rfl := Except.ok.inj (hp.symm.trans hp')
    exact .cons hdec (ih fun x hx => hkept x (.tail r hx))

/-- Workers that load as they were have metadata that is kept. -/
theorem kept_of_loaded {reg reg' : WorkerRegistry π}
    (hps : ∀ p ∈ ps, ∃ r ∈ reg, encodeWorkerRecord c r = .ok p)
    (hload : loadWorkers c duplicate ps Table.empty = .ok reg') (hsame : Same reg reg')
    {r : WorkerRecord π} (hr : r ∈ reg) : c.Kept r.metadata := by
  rcases mem_loadWorkers hload ((hsame r).mp hr) with hmem | ⟨p, hp, hdec⟩
  · exact absurd hmem (Table.not_mem_empty r)
  · obtain ⟨r', hr', henc⟩ := hps p hp
    obtain rfl := Table.eq_of_key hr hr' (decode_workerId henc hdec)
    exact kept_of_decode henc hdec

theorem fileWorkerAdapter_lawful (c : WorkerCodec π) : (fileWorkerAdapter c).Lawful c where
  empty := rfl
  kept := fun reg hkept => by
    have henc : ∀ r ∈ reg.list none, ∃ p, encodeWorkerRecord c r = .ok p := fun r hr => by
      obtain ⟨p, hp, -⟩ := decode_encode (hkept r (mem_list_none.mp hr))
      exact ⟨p, hp⟩
    obtain ⟨ps, hps⟩ := Except.exists_mapM_eq_ok henc
    have hdec := forall₂_decode (Except.mapM_eq_ok.mp hps) fun r hr => hkept r (mem_list_none.mp hr)
    refine ⟨some ⟨1, ps⟩, sortedWorkers reg, ?_, ?_, same_sortedWorkers reg⟩
    · simp only [fileWorkerAdapter, hps]
    · simp only [fileWorkerAdapter, ne_eq, not_true_eq_false, if_false]
      exact loadWorkers_decode _ hdec _ _ rfl
  lost := fun reg data reg' hwrite hread hsame r hr => by
    simp only [fileWorkerAdapter] at hwrite
    split at hwrite
    · cases hwrite
    · next ps hps =>
        cases hwrite
        simp only [fileWorkerAdapter, ne_eq, not_true_eq_false, if_false] at hread
        refine kept_of_loaded (fun p hp => ?_) hread hsame hr
        obtain ⟨r', hr', henc⟩ := Except.exists_of_mem_mapM hps p hp
        exact ⟨r', mem_list_none.mp hr', henc⟩

theorem sqliteWorkerRecordValues_eq_ok {r : WorkerRecord π} {row : WorkerRow} :
    sqliteWorkerRecordValues c r = .ok row ↔ ∃ payload, encodeWorkerRecord c r = .ok payload ∧
      row = ⟨r.workerId, r.status.value, c.isoformat r.heartbeatAt, c.isoformat r.leaseExpiresAt, payload⟩ := by
  unfold sqliteWorkerRecordValues
  cases encodeWorkerRecord c r with
  | error e => simp
  | ok payload => simp [eq_comm]

theorem sqliteWorkerAdapter_lawful (c : WorkerCodec π) : (sqliteWorkerAdapter c).Lawful c where
  empty := rfl
  kept := fun reg hkept => by
    have henc : ∀ r ∈ reg.list none, ∃ row, sqliteWorkerRecordValues c r = .ok row := fun r hr => by
      obtain ⟨p, hp, -⟩ := decode_encode (hkept r (mem_list_none.mp hr))
      exact ⟨_, sqliteWorkerRecordValues_eq_ok.mpr ⟨p, hp, rfl⟩⟩
    obtain ⟨rows, hrows⟩ := Except.exists_mapM_eq_ok henc
    have hall := Except.mapM_eq_ok.mp hrows
    -- the rows are in the order in which they are read back
    have hkeys : (reg.list none).map (fun r => r.workerId) = rows.map fun x => x.workerId := by
      rw [← List.forall₂_eq_eq_eq, List.forall₂_map_left_iff, List.forall₂_map_right_iff]
      refine hall.imp fun r row h => ?_
      obtain ⟨payload, -, rfl⟩ := sqliteWorkerRecordValues_eq_ok.mp h
      rfl
    have hsorted : rows.insertionSort (fun x y => x.workerId ≤ y.workerId) = rows := by
      refine List.Pairwise.insertionSort_eq (List.pairwise_map.mp ?_)
      rw [← hkeys]
      exact List.pairwise_map.mpr ((pairwise_sorted reg.rows).filter _)
    have hpayload : List.Forall₂ (fun r p => encodeWorkerRecord c r = .ok p) (reg.list none)
        (rows.map fun x => x.payload) := by
      refine List.forall₂_map_right_iff.mpr (hall.imp fun r row h => ?_)
      obtain ⟨payload, hp, rfl⟩ := sqliteWorkerRecordValues_eq_ok.mp h
      exact hp
    have hdec := forall₂_decode hpayload fun r hr => hkept r (mem_list_none.mp hr)
    refine ⟨rows, sortedWorkers reg, hrows, ?_, same_sortedWorkers reg⟩
    simp only [sqliteWorkerAdapter, hsorted]
    exact loadWorkers_decode _ hdec _ _ rfl
  lost := fun reg rows reg' hwrite hread hsame r hr => by
    refine kept_of_loaded (fun p hp => ?_) hread hsame hr
    obtain ⟨row, hrow, rfl⟩ := List.mem_map.mp hp
    obtain ⟨r', hr', hvalues⟩ :=
      Except.exists_of_mem_mapM hwrite row ((List.perm_insertionSort _ rows).mem_iff.mp hrow)
    obtain ⟨payload, henc, rfl⟩ := sqliteWorkerRecordValues_eq_ok.mp hvalues
    exact ⟨r', mem_list_none.mp hr', henc⟩

end Adapters

/-! ## The methods -/

namespace DurableWorkers

/-- The object holds a registry: its storage reads as the registry, up to the order of the records. -/
structure Holds (a : WorkerAdapter δ π) (c : WorkerCodec π) (s : DurableWorkers δ π)
    (reg : WorkerRegistry π) : Prop where
  kept : ∀ r ∈ reg, c.Kept r.metadata
  read : ∃ reg', a.read s.data = .ok reg' ∧ Same reg reg'

/-- The object answers as a registry did, and holds what that registry became. -/
def Simulates {α : Type} (a : WorkerAdapter δ π) (c : WorkerCodec π)
    (o : WorkerOutcome (DurableWorkers δ π) α) (p : WorkerOutcome (WorkerRegistry π) α) : Prop :=
  o.1 = p.1 ∧ Holds a c o.2 p.2

section Methods

variable {a : WorkerAdapter δ π} {c : WorkerCodec π} {s : DurableWorkers δ π} {reg reg' q : WorkerRegistry π}

theorem loading_of (h : a.read s.data = .ok reg')
    (body : DurableWorkers δ π → WorkerOutcome (DurableWorkers δ π) α) :
    s.loading a body = body { s with workers := reg' } := by
  rw [loading, load, h]

theorem Holds.inMemory (h : Holds a c s reg) (workers : WorkerRegistry π) :
    Holds a c { s with workers := workers } reg := ⟨h.kept, h.read⟩

theorem Holds.stored (h : Holds a c s reg) : s.stored a = .ok (reg.list none) := by
  obtain ⟨reg', hread, hsame⟩ := h.read
  rw [DurableWorkers.stored, hread, list_congr hsame]
  rfl

/-- The object saves workers whose metadata is kept, and holds them then. -/
theorem saving_kept (ha : a.Lawful c) (x : α) (hsame : Same q s.workers)
    (hkept : ∀ r ∈ q, c.Kept r.metadata) : Simulates a c (saving a (.ok x, s)) (.ok x, q) := by
  obtain ⟨data, back, hwrite, hread, hback⟩ :=
    ha.kept s.workers fun r hr => hkept r ((hsame r).mpr hr)
  simp only [saving, save, hwrite]
  exact ⟨rfl, hkept, back, hread, hsame.trans hback⟩

theorem get_simulates (h : Holds a c s reg) (workerId : String) :
    Simulates a c (s.get a workerId) (reg.get workerId, reg) := by
  obtain ⟨reg', hread, hsame⟩ := h.read
  rw [DurableWorkers.get, loading_of hread]
  exact ⟨(get_congr hsame workerId).symm, h.inMemory reg'⟩

theorem active_simulates (h : Holds a c s reg) : Simulates a c (s.active a) (.ok reg.active, reg) := by
  obtain ⟨reg', hread, hsame⟩ := h.read
  rw [DurableWorkers.active, loading_of hread]
  exact ⟨congrArg Except.ok (active_congr hsame).symm, h.inMemory reg'⟩

theorem list_simulates (h : Holds a c s reg) (status : Option WorkerStatus) :
    Simulates a c (s.list a status) (.ok (reg.list status), reg) := by
  obtain ⟨reg', hread, hsame⟩ := h.read
  rw [DurableWorkers.list, loading_of hread]
  exact ⟨congrArg Except.ok (list_congr hsame status).symm, h.inMemory reg'⟩

theorem reopen_simulates (h : Holds a c s reg) : Simulates a c (s.reopen a) (.ok (), reg) := by
  obtain ⟨reg', hread, hsame⟩ := h.read
  rw [DurableWorkers.reopen, load, hread]
  exact ⟨rfl, h.kept, reg', hread, hsame⟩

theorem kept_expire (hkept : ∀ r ∈ reg, c.Kept r.metadata) (now : Time) :
    ∀ r ∈ (reg.expire now).2, c.Kept r.metadata := by
  intro r hr
  unfold WorkerRegistry.expire at hr
  rcases (Table.mem_foldl_put (expired_key reg now)).mp hr with hr | ⟨hr, -⟩
  · obtain ⟨r', hr', hlost⟩ := List.mem_filterMap.mp hr
    rw [(lost_workerId hlost).2]
    exact hkept r' hr'
  · exact hkept r hr

theorem expire_simulates (ha : a.Lawful c) (h : Holds a c s reg) (now : Time) :
    Simulates a c (s.expire a now) (.ok (reg.expire now).1, (reg.expire now).2) := by
  obtain ⟨reg', hread, hsame⟩ := h.read
  obtain ⟨hexpired, hswept⟩ := expire_congr hsame now
  rw [DurableWorkers.expire, loading_of hread, hexpired]
  simp only
  split
  · next hnil =>
      rw [expire_of_nil (hexpired.trans hnil)]
      exact ⟨rfl, h.inMemory _⟩
  · exact saving_kept (s := { s with workers := (reg'.expire now).2 }) ha _ hswept (kept_expire h.kept now)

theorem mem_of_get {r : WorkerRecord π} (h : reg.get workerId = .ok r) : r ∈ reg := by
  unfold WorkerRegistry.get at h
  split at h
  · cases h
  · split at h
    · next r' hr =>
        cases h
        exact (Table.get?_eq_some.mp hr).1
    · cases h

theorem kept_put {r : WorkerRecord π} (hkept : ∀ r ∈ reg, c.Kept r.metadata) (hr : c.Kept r.metadata) :
    ∀ x ∈ reg.put r, c.Kept x.metadata := by
  intro x hx
  rcases Table.mem_put.mp hx with rfl | ⟨hx, -⟩
  · exact hr
  · exact hkept x hx

theorem heartbeat_simulates (ha : a.Lawful c) (h : Holds a c s reg) (workerId : String) (ttlSeconds : ℚ)
    (now : Time) :
    Simulates a c (s.heartbeat a workerId ttlSeconds now) (reg.heartbeat workerId ttlSeconds now) := by
  obtain ⟨reg', hread, hsame⟩ := h.read
  rw [DurableWorkers.heartbeat, loading_of hread]
  unfold inheritedHeartbeat WorkerRegistry.heartbeat
  cases hdeadline : workerDeadline now ttlSeconds with
  | error e => exact ⟨rfl, h.inMemory reg'⟩
  | ok deadline =>
    have hget : DurableWorkers.get a { s with workers := reg' } workerId =
        (reg.get workerId, { s with workers := reg' }) := by
      rw [DurableWorkers.get, loading_of (s := { s with workers := reg' }) hread, get_congr hsame]
    simp only [hget]
    cases hr : reg.get workerId with
    | error e => exact ⟨rfl, h.inMemory reg'⟩
    | ok r =>
      simp only
      split
      · -- the sweep is saved, and the error is raised
        obtain ⟨hans, hholds⟩ := expire_simulates ha (h.inMemory reg') now
        rcases he : DurableWorkers.expire a { s with workers := reg' } now with ⟨result, s'⟩
        rw [he] at hans hholds
        cases hans
        exact ⟨rfl, hholds⟩
      · exact saving_kept (s := { s with workers := reg'.put _ }) ha _ (hsame.put _)
          (kept_put h.kept (h.kept r (mem_of_get hr)))

theorem takeOut_simulates (ha : a.Lawful c) (h : Holds a c s reg) (status : WorkerStatus)
    (field workerId reason : String) (now : Time) :
    Simulates a c (s.takeOut a status field workerId reason now)
      (WorkerRegistry.takeOut status field reg workerId reason now) := by
  obtain ⟨reg', hread, hsame⟩ := h.read
  rw [DurableWorkers.takeOut, loading_of hread]
  unfold inheritedTakeOut WorkerRegistry.takeOut
  split
  · exact ⟨rfl, h.inMemory reg'⟩
  · have hget : DurableWorkers.get a { s with workers := reg' } workerId =
        (reg.get workerId, { s with workers := reg' }) := by
      rw [DurableWorkers.get, loading_of (s := { s with workers := reg' }) hread, get_congr hsame]
    simp only [hget]
    cases hr : reg.get workerId with
    | error e => exact ⟨rfl, h.inMemory reg'⟩
    | ok r =>
      exact saving_kept (s := { s with workers := reg'.put _ }) ha _ (hsame.put _)
        (kept_put h.kept (h.kept r (mem_of_get hr)))

/-- A registration is refused, or puts one record with its metadata. -/
theorem register_cases (reg : WorkerRegistry π) (workerId : String) (capabilities : List String)
    (metadata : Option π) (ttlSeconds : ℚ) (now : Time) :
    ((Text.isBlank workerId = true ∨ ttlSeconds ≤ 0) ∧
        ∃ e, reg.register workerId capabilities metadata ttlSeconds now = (.error e, reg)) ∨
      (Text.isBlank workerId = false ∧ 0 < ttlSeconds) ∧ ∃ r, r.metadata = metadata ∧
        reg.register workerId capabilities metadata ttlSeconds now = (.ok r, reg.put r) := by
  unfold WorkerRegistry.register requireWorkerId workerDeadline
  by_cases hblank : Text.isBlank workerId = true
  · exact .inl ⟨.inl hblank, _, by rw [if_pos hblank]⟩
  · rw [if_neg hblank]
    by_cases httl : ttlSeconds ≤ 0
    · exact .inl ⟨.inr httl, _, by rw [if_pos httl]⟩
    · rw [if_neg httl]
      refine .inr ⟨⟨by simpa using hblank, not_le.mp httl⟩, _, ?_, rfl⟩
      split <;> rfl

theorem register_simulates (ha : a.Lawful c) (h : Holds a c s reg) (workerId : String)
    (capabilities : List String) (metadata : Option π) (ttlSeconds : ℚ) (now : Time)
    (hkept : Text.isBlank workerId = false → 0 < ttlSeconds → c.Kept metadata) :
    Simulates a c (s.register a workerId capabilities metadata ttlSeconds now)
      (reg.register workerId capabilities metadata ttlSeconds now) := by
  obtain ⟨reg', hread, hsame⟩ := h.read
  obtain ⟨hans, hput⟩ := register_congr hsame workerId capabilities metadata ttlSeconds now
  rw [DurableWorkers.register, loading_of hread]
  simp only
  rw [← hans]
  rcases register_cases reg workerId capabilities metadata ttlSeconds now with
    ⟨-, e, he⟩ | ⟨⟨hblank, httl⟩, r, hmetadata, hr⟩
  · rw [he]
    exact ⟨rfl, h.inMemory _⟩
  · rw [hr] at hput ⊢
    exact saving_kept (s := { s with workers := _ }) ha r hput
      (kept_put h.kept (hmetadata ▸ hkept hblank httl))

/-- A registration with metadata that is not kept fails, or is not what the storage holds then. -/
theorem register_lost (ha : a.Lawful c) (h : Holds a c s reg) (workerId : String)
    (capabilities : List String) (metadata : Option π) (ttlSeconds : ℚ) (now : Time)
    (hblank : Text.isBlank workerId = false) (httl : 0 < ttlSeconds) (hlost : ¬c.Kept metadata) :
    (∃ r, (reg.register workerId capabilities metadata ttlSeconds now).1 = .ok r) ∧
      ((∃ e, (s.register a workerId capabilities metadata ttlSeconds now).1 = .error e) ∨
        (∃ r, (s.register a workerId capabilities metadata ttlSeconds now).1 = .ok r) ∧
          (s.register a workerId capabilities metadata ttlSeconds now).2.stored a ≠
            .ok ((reg.register workerId capabilities metadata ttlSeconds now).2.list none)) := by
  obtain ⟨reg', hread, hsame⟩ := h.read
  obtain ⟨hans, hput⟩ := register_congr hsame workerId capabilities metadata ttlSeconds now
  rw [DurableWorkers.register, loading_of hread]
  simp only
  rw [← hans]
  rcases register_cases reg workerId capabilities metadata ttlSeconds now with
    ⟨hblank' | httl', -⟩ | ⟨-, r, hmetadata, hr⟩
  · rw [hblank] at hblank'
    cases hblank'
  · exact absurd httl (not_lt.mpr httl')
  · rw [hr] at hput ⊢
    refine ⟨⟨r, rfl⟩, ?_⟩
    simp only [saving, save]
    cases hwrite : a.write (reg'.register workerId capabilities metadata ttlSeconds now).2 with
    | error e => exact .inl ⟨e, rfl⟩
    | ok data =>
      refine .inr ⟨⟨r, rfl⟩, fun hstored => hlost ?_⟩
      unfold DurableWorkers.stored at hstored
      cases hback : a.read data with
      | error e =>
        simp only [hback] at hstored
        cases hstored
      | ok back =>
        simp only [hback] at hstored
        have hlist : back.list none = WorkerRegistry.list (reg.put r) none := Except.ok.inj hstored
        have hsame' : Same (reg.put r) back := fun x => by
          rw [← mem_list_none, ← hlist, mem_list_none]
        rw [← hmetadata]
        exact ha.lost _ data back hwrite hback (hput.symm.trans hsame') r
          ((hput r).mp (Table.mem_put_self reg r))

end Methods

end DurableWorkers

/-! ## Machines on storage -/

open DurableWorkers

def KeptBy (c : WorkerCodec π) : WorkerOp π → Prop
  | .call (.register workerId _ metadata ttlSeconds _) =>
    Text.isBlank workerId = false → 0 < ttlSeconds → c.Kept metadata
  | _ => True

/-- A registry of workers on storage: a call answers as on the in-memory registry and keeps holding it; and
it does not, if a worker registers with metadata that is not kept. -/
structure StoredWorkers (a : WorkerAdapter δ π) (c : WorkerCodec π)
    (m : Machine (DurableWorkers δ π) (WorkerOp π) (WorkerReply π)) : Prop where
  init : Holds a c m.init Table.empty
  serves : ∀ s reg op, Holds a c s reg → KeptBy c op →
    (m.step s op).1 = (reg.workerStep op).1 ∧ Holds a c (m.step s op).2 (reg.workerStep op).2
  parts : ∀ s reg op, Holds a c s reg → ¬KeptBy c op →
    (m.step s op).1 ≠ (reg.workerStep op).1 ∨
      (m.step s op).2.stored a ≠ .ok ((reg.workerStep op).2.list none)

/-- On a run, a registry on storage answers every call as the in-memory one, and holds the same records after
each. -/
structure WorkersAgree (a : WorkerAdapter δ π) (m : Machine (DurableWorkers δ π) (WorkerOp π) (WorkerReply π))
    (ops : List (WorkerOp π)) : Prop where
  answers : m.answers ops = (memoryWorkers π).answers ops
  records : ∀ pre, pre <+: ops →
    (m.state pre).stored a = .ok (((memoryWorkers π).state pre).list none)

section Stored

variable {a : WorkerAdapter δ π} {c : WorkerCodec π}
  {m : Machine (DurableWorkers δ π) (WorkerOp π) (WorkerReply π)}

theorem holds_empty (ha : a.Lawful c) (workers : WorkerRegistry π) :
    Holds a c ⟨workers, a.empty⟩ Table.empty :=
  ⟨fun r hr => absurd hr (Table.not_mem_empty r), Table.empty, ha.empty, .refl _⟩

theorem answers_snoc {σ : Type} (m : Machine σ (WorkerOp π) (WorkerReply π)) (ops : List (WorkerOp π))
    (op : WorkerOp π) : m.answers (ops ++ [op]) = m.answers ops ++ [(m.step (m.state ops) op).1] := by
  rw [Machine.answers, Machine.history_snoc, List.map_append]
  rfl

theorem workersAgree_snoc {ops : List (WorkerOp π)} {op : WorkerOp π} :
    WorkersAgree a m (ops ++ [op]) ↔ WorkersAgree a m ops ∧
      (m.step (m.state ops) op).1 = (((memoryWorkers π).state ops).workerStep op).1 ∧
      (m.step (m.state ops) op).2.stored a =
        .ok ((((memoryWorkers π).state ops).workerStep op).2.list none) := by
  constructor
  · rintro ⟨hanswers, hrecords⟩
    rw [answers_snoc, answers_snoc] at hanswers
    obtain ⟨hbefore, hlast⟩ := List.append_inj' hanswers rfl
    refine ⟨⟨hbefore, fun pre hpre => hrecords pre (hpre.trans (List.prefix_append _ _))⟩,
      (List.cons.inj hlast).1, ?_⟩
    have hend := hrecords _ (List.prefix_refl _)
    rw [Machine.state_snoc, Machine.state_snoc] at hend
    exact hend
  · rintro ⟨⟨hanswers, hrecords⟩, hlast, hend⟩
    refine ⟨?_, fun pre hpre => ?_⟩
    · rw [answers_snoc, answers_snoc, hanswers, hlast]
      rfl
    · rcases List.prefix_concat_iff.mp hpre with rfl | hpre
      · rw [Machine.state_snoc, Machine.state_snoc]
        exact hend
      · exact hrecords pre hpre

/-- **A registry on storage agrees with the in-memory one** exactly on the runs whose registrations have
metadata that is kept. -/
theorem StoredWorkers.agrees (hm : StoredWorkers a c m) (ops : List (WorkerOp π)) :
    WorkersAgree a m ops ↔ ∀ op ∈ ops, KeptBy c op := by
  suffices hrun : (WorkersAgree a m ops ↔ ∀ op ∈ ops, KeptBy c op) ∧
      ((∀ op ∈ ops, KeptBy c op) → Holds a c (m.state ops) ((memoryWorkers π).state ops)) from hrun.1
  induction ops using List.reverseRecOn with
  | nil =>
    refine ⟨⟨fun _ op hop => absurd hop List.not_mem_nil, fun _ => ⟨rfl, fun pre hpre => ?_⟩⟩,
      fun _ => hm.init⟩
    rw [List.prefix_nil.mp hpre]
    exact hm.init.stored
  | append_singleton ops op ih =>
    obtain ⟨hiff, hholds⟩ := ih
    rw [workersAgree_snoc, hiff, List.forall_mem_append]
    simp only [List.mem_singleton, forall_eq]
    refine ⟨and_congr_right fun hkept => ⟨fun hstep => ?_, fun hop => ?_⟩, fun hkept => ?_⟩
    · by_contra hop
      rcases hm.parts _ _ op (hholds hkept) hop with hne | hne
      · exact hne hstep.1
      · exact hne hstep.2
    · obtain ⟨hans, hnext⟩ := hm.serves _ _ op (hholds hkept) hop
      exact ⟨hans, hnext.stored⟩
    · rw [Machine.state_snoc, Machine.state_snoc]
      exact (hm.serves _ _ op (hholds hkept.1) hkept.2).2

end Stored

/-! ## The file and the database -/

section Registries

variable {c : WorkerCodec π}

/-- Only a registration may have metadata that is not kept. -/
theorem of_not_keptBy {op : WorkerOp π} (h : ¬KeptBy c op) :
    ∃ workerId capabilities metadata ttlSeconds now,
      op = .call (.register workerId capabilities metadata ttlSeconds now) ∧
        Text.isBlank workerId = false ∧ 0 < ttlSeconds ∧ ¬c.Kept metadata := by
  cases op with
  | call op =>
    cases op with
    | register workerId capabilities metadata ttlSeconds now =>
      simp only [KeptBy, Classical.not_imp] at h
      exact ⟨workerId, capabilities, metadata, ttlSeconds, now, rfl, h⟩
    | _ => exact absurd trivial h
  | _ => exact absurd trivial h

theorem raised_ne {result result' : Except RegistryError (WorkerRecord π)} {e : RegistryError}
    {r : WorkerRecord π} (h : result = .error e) (h' : result' = .ok r) :
    WorkerReply.ofRecord result ≠ WorkerReply.ofRecord result' := by
  rw [h, h']
  nofun

theorem fileWorkers_stored (c : WorkerCodec π) :
    StoredWorkers (fileWorkerAdapter c) c (fileWorkers c) where
  init := holds_empty (fileWorkerAdapter_lawful c) _
  serves := fun s reg op h hkept => by
    have ha := fileWorkerAdapter_lawful c
    cases op with
    | call op =>
      cases op with
      | register workerId capabilities metadata ttlSeconds now =>
        obtain ⟨hans, hholds⟩ := register_simulates ha h workerId capabilities metadata ttlSeconds now hkept
        exact ⟨congrArg WorkerReply.ofRecord hans, hholds⟩
      | heartbeat workerId ttlSeconds now =>
        obtain ⟨hans, hholds⟩ := heartbeat_simulates ha h workerId ttlSeconds now
        exact ⟨congrArg WorkerReply.ofRecord hans, hholds⟩
      | drain workerId reason now =>
        obtain ⟨hans, hholds⟩ := takeOut_simulates ha h .draining "drain reason" workerId reason now
        exact ⟨congrArg WorkerReply.ofRecord hans, hholds⟩
      | markOffline workerId reason now =>
        obtain ⟨hans, hholds⟩ := takeOut_simulates ha h .offline "offline reason" workerId reason now
        exact ⟨congrArg WorkerReply.ofRecord hans, hholds⟩
      | expire now =>
        obtain ⟨hans, hholds⟩ := expire_simulates ha h now
        exact ⟨congrArg WorkerReply.ofRecords hans, hholds⟩
      | get workerId =>
        obtain ⟨hans, hholds⟩ := get_simulates h workerId
        exact ⟨congrArg WorkerReply.ofRecord hans, hholds⟩
    | active =>
      obtain ⟨hans, hholds⟩ := active_simulates h
      exact ⟨congrArg WorkerReply.ofRecords hans, hholds⟩
    | list status =>
      obtain ⟨hans, hholds⟩ := list_simulates h status
      exact ⟨congrArg WorkerReply.ofRecords hans, hholds⟩
    | reopen =>
      obtain ⟨hans, hholds⟩ := reopen_simulates h
      exact ⟨congrArg WorkerReply.ofUnit hans, hholds⟩
  parts := fun s reg op h hlost => by
    obtain ⟨workerId, capabilities, metadata, ttlSeconds, now, rfl, hblank, httl, hmetadata⟩ :=
      of_not_keptBy hlost
    obtain ⟨⟨r, hr⟩, hfail⟩ := register_lost (fileWorkerAdapter_lawful c) h workerId capabilities metadata
      ttlSeconds now hblank httl hmetadata
    rcases hfail with ⟨e, he⟩ | ⟨-, hne⟩
    · exact .inl (raised_ne he hr)
    · exact .inr hne

namespace SQLiteWorkerRegistry

/-- A transaction simulates what its body does, when an error that rolls back leaves the workers as they
were. -/
theorem transaction_simulates {commitOn : RegistryError → Bool} {s : SQLiteWorkerRegistry π}
    {reg : WorkerRegistry π} {body : SQLiteWorkerRegistry π → WorkerOutcome (SQLiteWorkerRegistry π) α}
    {p : WorkerOutcome (WorkerRegistry π) α} (h : Holds (sqliteWorkerAdapter c) c s reg)
    (hs : Simulates (sqliteWorkerAdapter c) c (body s) p)
    (hback : ∀ e, p.1 = .error e → commitOn e = false → p.2 = reg) :
    Simulates (sqliteWorkerAdapter c) c (transaction commitOn s body) p := by
  obtain ⟨hans, hholds⟩ := hs
  unfold transaction
  rcases hb : body s with ⟨result, s'⟩
  rw [hb] at hans hholds
  cases result with
  | ok x => exact ⟨hans, hholds⟩
  | error e =>
    simp only
    split
    · exact ⟨hans, hholds⟩
    · next hcommit =>
        rw [← hback e hans.symm (by simpa using hcommit)] at h
        exact ⟨hans, h.kept, h.read⟩

/-- What a body fails at, or does not store, its transaction does not either. -/
theorem transaction_lost (commitOn : RegistryError → Bool) {s : SQLiteWorkerRegistry π}
    (body : SQLiteWorkerRegistry π → WorkerOutcome (SQLiteWorkerRegistry π) α)
    {records : Except RegistryError (List (WorkerRecord π))}
    (h : (∃ e, (body s).1 = .error e) ∨
      (∃ x, (body s).1 = .ok x) ∧ (body s).2.stored (sqliteWorkerAdapter c) ≠ records) :
    (∃ e, (transaction commitOn s body).1 = .error e) ∨
      (transaction commitOn s body).2.stored (sqliteWorkerAdapter c) ≠ records := by
  unfold transaction
  rcases hb : body s with ⟨result, s'⟩
  rw [hb] at h
  rcases h with ⟨e, he⟩ | ⟨⟨x, hx⟩, hne⟩
  · cases he
    refine .inl ⟨e, ?_⟩
    simp only
    split <;> rfl
  · cases hx
    exact .inr hne

variable {e : RegistryError}

theorem register_error {reg : WorkerRegistry π} {capabilities : List String}
    {metadata : Option π} {ttlSeconds : ℚ}
    (h : (reg.register workerId capabilities metadata ttlSeconds now).1 = .error e) :
    (reg.register workerId capabilities metadata ttlSeconds now).2 = reg := by
  rcases register_cases reg workerId capabilities metadata ttlSeconds now with
    ⟨-, e', he⟩ | ⟨-, r, -, hr⟩
  · rw [he]
  · rw [hr] at h
    cases h

/-- The error of a heartbeat is that the worker is not found, or the workers are as they were. -/
theorem heartbeat_error {reg : WorkerRegistry π} {ttlSeconds : ℚ}
    (h : (reg.heartbeat workerId ttlSeconds now).1 = .error e)
    (hcommit : commitOnNotFound e = false) : (reg.heartbeat workerId ttlSeconds now).2 = reg := by
  unfold WorkerRegistry.heartbeat at h ⊢
  split
  · rfl
  · next deadline hdeadline =>
      rw [hdeadline] at h
      simp only at h
      split
      · rfl
      · next r hr =>
          rw [hr] at h
          simp only at h
          split at h
          · cases h
            cases hcommit
          · cases h

theorem takeOut_error {reg : WorkerRegistry π} {status : WorkerStatus} {field workerId reason : String}
    (h : (WorkerRegistry.takeOut status field reg workerId reason now).1 = .error e) :
    (WorkerRegistry.takeOut status field reg workerId reason now).2 = reg := by
  unfold WorkerRegistry.takeOut at h ⊢
  split
  · rfl
  · next hblank =>
      rw [if_neg hblank] at h
      split
      · rfl
      · next r hr =>
          rw [hr] at h
          cases h

end SQLiteWorkerRegistry

open SQLiteWorkerRegistry in
theorem sqliteWorkers_stored (c : WorkerCodec π) :
    StoredWorkers (sqliteWorkerAdapter c) c (sqliteWorkers c) where
  init := holds_empty (sqliteWorkerAdapter_lawful c) _
  serves := fun s reg op h hkept => by
    have ha := sqliteWorkerAdapter_lawful c
    cases op with
    | call op =>
      cases op with
      | register workerId capabilities metadata ttlSeconds now =>
        have hs : Simulates (sqliteWorkerAdapter c) c
            (transaction commitOnNothing s fun s =>
              s.register (sqliteWorkerAdapter c) workerId capabilities metadata ttlSeconds now)
            (reg.register workerId capabilities metadata ttlSeconds now) :=
          transaction_simulates h
            (register_simulates ha h workerId capabilities metadata ttlSeconds now hkept)
            fun e he _ => register_error he
        exact ⟨congrArg WorkerReply.ofRecord hs.1, hs.2⟩
      | heartbeat workerId ttlSeconds now =>
        have hs : Simulates (sqliteWorkerAdapter c) c
            (transaction commitOnNotFound s fun s =>
              s.heartbeat (sqliteWorkerAdapter c) workerId ttlSeconds now)
            (reg.heartbeat workerId ttlSeconds now) :=
          transaction_simulates h (heartbeat_simulates ha h workerId ttlSeconds now)
            fun e he hcommit => heartbeat_error he hcommit
        exact ⟨congrArg WorkerReply.ofRecord hs.1, hs.2⟩
      | drain workerId reason now =>
        have hs : Simulates (sqliteWorkerAdapter c) c
            (transaction commitOnNothing s fun s => s.drain (sqliteWorkerAdapter c) workerId reason now)
            (reg.drain workerId reason now) :=
          transaction_simulates h
            (takeOut_simulates ha h .draining "drain reason" workerId reason now)
            fun e he _ => takeOut_error he
        exact ⟨congrArg WorkerReply.ofRecord hs.1, hs.2⟩
      | markOffline workerId reason now =>
        have hs : Simulates (sqliteWorkerAdapter c) c
            (transaction commitOnNothing s fun s =>
              s.markOffline (sqliteWorkerAdapter c) workerId reason now)
            (reg.markOffline workerId reason now) :=
          transaction_simulates h
            (takeOut_simulates ha h .offline "offline reason" workerId reason now)
            fun e he _ => takeOut_error he
        exact ⟨congrArg WorkerReply.ofRecord hs.1, hs.2⟩
      | expire now =>
        have hs : Simulates (sqliteWorkerAdapter c) c
            (transaction commitOnNothing s fun s => s.expire (sqliteWorkerAdapter c) now)
            (.ok (reg.expire now).1, (reg.expire now).2) :=
          transaction_simulates h (expire_simulates ha h now) fun e he _ => by cases he
        exact ⟨congrArg WorkerReply.ofRecords hs.1, hs.2⟩
      | get workerId =>
        obtain ⟨hans, hholds⟩ := get_simulates h workerId
        exact ⟨congrArg WorkerReply.ofRecord hans, hholds⟩
    | active =>
      obtain ⟨hans, hholds⟩ := active_simulates h
      exact ⟨congrArg WorkerReply.ofRecords hans, hholds⟩
    | list status =>
      obtain ⟨hans, hholds⟩ := list_simulates h status
      exact ⟨congrArg WorkerReply.ofRecords hans, hholds⟩
    | reopen =>
      obtain ⟨hans, hholds⟩ := reopen_simulates h
      exact ⟨congrArg WorkerReply.ofUnit hans, hholds⟩
  parts := fun s reg op h hlost => by
    obtain ⟨workerId, capabilities, metadata, ttlSeconds, now, rfl, hblank, httl, hmetadata⟩ :=
      of_not_keptBy hlost
    obtain ⟨⟨r, hr⟩, hfail⟩ := register_lost (sqliteWorkerAdapter_lawful c) h workerId capabilities metadata
      ttlSeconds now hblank httl hmetadata
    rcases transaction_lost commitOnNothing
      (fun s => s.register (sqliteWorkerAdapter c) workerId capabilities metadata ttlSeconds now) hfail with
      ⟨e, he⟩ | hne
    · exact .inl (raised_ne he hr)
    · exact .inr hne

end Registries

def countMetadata : WorkerCodec Int where
  dumps
    | none => .ok "\x7b\x7d"
    | some n => if isJsonInt n then .ok (toString n) else .error "Integer exceeds 64-bit range"
  loads text :=
    if text = "\x7b\x7d" then .ok none
    else match parseInteger text with
      | some n => .ok (some n)
      | none => .error "unexpected character"
  isoformat := epochCodec.isoformat
  parseDatetime := epochCodec.parseDatetime
  loads_dumps m text h := by
    cases m with
    | none => exact ⟨none, if_pos (Except.ok.inj h).symm⟩
    | some n =>
      simp only at h
      split at h
      · rw [← Except.ok.inj h, parseInteger_toString]
        split
        · exact ⟨none, rfl⟩
        · exact ⟨some n, rfl⟩
      · cases h
  empty := ⟨_, rfl, rfl⟩
  parse_isoformat := epochCodec.parse_isoformat

end UniversalAgent.Distributed
