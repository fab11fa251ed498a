import UniversalAgent.Core.Models
import UniversalAgent.Foundation.Sorting
import UniversalAgent.Foundation.Table

/-!
# Evidence — Store

`InMemoryEvidenceStore` (`evidence/store.py`): one table of evidence by id, shared by every
session of the runtimes built on it. A session's evidence is exported in the order of
observation time and id, which is a linear order on the evidence of one table.
-/

namespace UniversalAgent.Evidence

open UniversalAgent.Core UniversalAgent.Foundation

/-- The order of `key=lambda item: (item.observed_at, str(item.id))`. -/
def Observed (a b : Core.Evidence) : Prop :=
  a.observedAt < b.observedAt ∨ (a.observedAt = b.observedAt ∧ a.id ≤ b.id)

instance : DecidableRel Observed := fun _ _ => inferInstanceAs (Decidable (_ ∨ _))

theorem Observed.refl (a : Core.Evidence) : Observed a a := .inr ⟨rfl, le_refl _⟩

theorem Observed.total (a b : Core.Evidence) : Observed a b ∨ Observed b a :=
  Then.total Core.Evidence.observedAt (·.id ≤ ·.id) (le_total _ _)

theorem Observed.trans {a b c : Core.Evidence} (hab : Observed a b) (hbc : Observed b c) :
    Observed a c :=
  Then.trans Core.Evidence.observedAt (·.id ≤ ·.id) le_trans hab hbc

theorem Observed.id_eq {a b : Core.Evidence} (hab : Observed a b) (hba : Observed b a) :
    a.id = b.id :=
  (Then.tie Core.Evidence.observedAt (·.id ≤ ·.id) hab hba).elim le_antisymm

instance : Std.Total Observed := ⟨Observed.total⟩

instance : IsTrans Core.Evidence Observed := ⟨fun _ _ _ => Observed.trans⟩

def inOrder (items : List Core.Evidence) : List Core.Evidence := items.insertionSort Observed

@[simp] theorem mem_inOrder {items : List Core.Evidence} {e : Core.Evidence} :
    e ∈ inOrder items ↔ e ∈ items := List.mem_insertionSort _

theorem inOrder_perm (items : List Core.Evidence) : (inOrder items).Perm items :=
  List.perm_insertionSort _ _

theorem pairwise_inOrder (items : List Core.Evidence) : (inOrder items).Pairwise Observed :=
  List.pairwise_insertionSort Observed items

/-- Lists of evidence with distinct ids that hold the same items and are in order are equal. -/
theorem eq_of_perm_of_observed {xs ys : List Core.Evidence} (hp : xs.Perm ys)
    (hx : xs.Pairwise Observed) (hy : ys.Pairwise Observed)
    (hn : (xs.map Core.Evidence.id).Nodup) : xs = ys := by
  refine hp.eq_of_pairwise (fun a b ha hb hab hba => ?_) hx hy
  have hbx : b ∈ xs := hp.symm.subset hb
  exact List.inj_on_of_nodup_map hn ha hbx (hab.id_eq hba)

theorem inOrder_eq_self {items : List Core.Evidence} (h : items.Pairwise Observed) :
    inOrder items = items := h.insertionSort_eq

abbrev EvidenceStore := Table Core.Evidence.id

namespace EvidenceStore

/-- `add`: an id that is present already is refused. -/
def add (store : EvidenceStore) (e : Core.Evidence) : Bool × EvidenceStore :=
  match store.get? e.id with
  | some _ => (false, store)
  | none => (true, store.put e)

/-- `export`. -/
def exportSession (store : EvidenceStore) (sessionId : SessionId) : List Core.Evidence :=
  inOrder (store.rows.filter fun e => e.sessionId = sessionId)

/-- `replace`: drop what the session has, then store the items by id. -/
def replace (store : EvidenceStore) (sessionId : SessionId) (items : List Core.Evidence) :
    EvidenceStore :=
  let kept : EvidenceStore :=
    ⟨store.rows.filter fun e => e.sessionId ≠ sessionId,
      store.nodup.sublist (List.filter_sublist.map _)⟩
  items.foldl Table.put kept

/-- `query` for one session, newest first; `task` and `limit` are the filters the runtime uses. -/
def query (store : EvidenceStore) (sessionId : SessionId) (task : Option TaskId)
    (limit : Option Nat) : List Core.Evidence :=
  let found := (store.exportSession sessionId).filter fun e => task.all fun t => e.taskId = t
  match limit with
  | none => found.reverse
  | some n => found.reverse.take n

variable {store : EvidenceStore} {e : Core.Evidence}

theorem add_eq (h : ∀ x ∈ store, x.id ≠ e.id) : store.add e = (true, store.put e) := by
  unfold add
  rw [Table.get?_eq_none.mpr h]

theorem add_refused {e x : Core.Evidence} (hx : x ∈ store)
    (h : x.id = e.id) : store.add e = (false, store) := by
  unfold add
  rw [← h, Table.get?_of_mem hx]

theorem mem_add {e x : Core.Evidence} :
    x ∈ (store.add e).2 ↔ x ∈ store ∨ (x = e ∧ ∀ y ∈ store, y.id ≠ e.id) := by
  by_cases h : ∀ y ∈ store, y.id ≠ e.id
  · rw [add_eq h, Table.mem_put]
    constructor
    · rintro (rfl | ⟨hx, -⟩)
      · exact .inr ⟨rfl, h⟩
      · exact .inl hx
    · rintro (hx | ⟨rfl, -⟩)
      · exact .inr ⟨hx, h x hx⟩
      · exact .inl rfl
  · push Not at h
    obtain ⟨y, hy, hid⟩ := h
    rw [add_refused hy hid]
    exact ⟨.inl, fun hx => hx.resolve_right fun hn => hn.2 y hy hid⟩

/-- What a session is given instead of its evidence does not depend on what was there. -/
theorem mem_replace_own {s t : EvidenceStore} {sessionId : SessionId} {items : List Core.Evidence}
    (he : e.sessionId = sessionId) :
    e ∈ s.replace sessionId items ↔ e ∈ t.replace sessionId items := by
  refine Table.mem_foldl_put_congr items ?_
  simp [Table.mem_def, he]

/-- Replacing the evidence of one session leaves an item of another, unless an item takes its
id. -/
theorem mem_replace_other {sessionId : SessionId}
    {items : List Core.Evidence} (he : e.sessionId ≠ sessionId)
    (hitems : e ∉ items) (hids : e ∈ store → ∀ i ∈ items, i.id ≠ e.id) :
    e ∈ store.replace sessionId items ↔ e ∈ store := by
  rw [replace]
  have hkept : e ∈ (⟨store.rows.filter fun e => e.sessionId ≠ sessionId,
      store.nodup.sublist (List.filter_sublist.map _)⟩ : EvidenceStore) ↔ e ∈ store := by
    simp [Table.mem_def, he]
  rw [Table.mem_foldl_put_other hitems fun h => hids (hkept.mp h), hkept]

/-- What a store holds after a replacement was there before or is one of the items. -/
theorem of_mem_replace {sessionId : SessionId}
    {items : List Core.Evidence} (h : e ∈ store.replace sessionId items) :
    e ∈ store ∨ e ∈ items := by
  rcases Table.of_mem_foldl_put h with h | h
  · exact .inr h
  · exact .inl (List.mem_filter.mp h).1

/-- A session that is given items with distinct ids has just them. -/
theorem mem_replace_of_nodup {sessionId : SessionId}
    {items : List Core.Evidence} (hn : (items.map Core.Evidence.id).Nodup)
    (he : e.sessionId = sessionId) : e ∈ store.replace sessionId items ↔ e ∈ items := by
  have key : ∀ (items : List Core.Evidence) (s : EvidenceStore),
      (items.map Core.Evidence.id).Nodup → e ∈ items → e ∈ items.foldl Table.put s := by
    intro items
    induction items with
    | nil => exact fun _ _ h => absurd h List.not_mem_nil
    | cons i items ih =>
      intro s hn h
      obtain ⟨hi, hn⟩ := List.nodup_cons.mp hn
      rcases List.mem_cons.mp h with rfl | h
      · have hlater : ∀ (items : List Core.Evidence) (s : EvidenceStore), e ∈ s →
            e.id ∉ items.map Core.Evidence.id → e ∈ items.foldl Table.put s := by
          intro items
          induction items with
          | nil => exact fun _ h _ => h
          | cons j items ih =>
            intro s hs hj
            rw [List.map_cons, List.mem_cons, not_or] at hj
            exact ih _ (Table.mem_put.mpr (.inr ⟨hs, hj.1⟩)) hj.2
        exact hlater items _ (Table.mem_put_self s e) hi
      · exact ih _ hn h
  constructor
  · intro h
    rcases of_mem_replace h with hs | hi
    · by_contra hn
      refine absurd h ((mem_replace_own (t := .empty) he).not.mpr fun h' => ?_)
      exact hn ((of_mem_replace h').resolve_left (Table.not_mem_empty e))
    · exact hi
  · exact key items _ hn

theorem mem_exportSession {sessionId : SessionId} :
    e ∈ store.exportSession sessionId ↔ e ∈ store ∧ e.sessionId = sessionId := by
  simp [exportSession, Table.mem_def]

theorem exportSession_ids_nodup (store : EvidenceStore) (sessionId : SessionId) :
    ((store.exportSession sessionId).map Core.Evidence.id).Nodup := by
  have h : ((store.rows.filter fun e => e.sessionId = sessionId).map Core.Evidence.id).Nodup :=
    store.nodup.sublist (List.filter_sublist.map _)
  exact ((inOrder_perm _).map _).nodup_iff.mpr h

theorem pairwise_exportSession (store : EvidenceStore) (sessionId : SessionId) :
    (store.exportSession sessionId).Pairwise Observed := pairwise_inOrder _

/-- An export is determined by which items it holds. -/
theorem exportSession_congr {s t : EvidenceStore} {sessionId : SessionId}
    (h : ∀ e, e.sessionId = sessionId → (e ∈ s ↔ e ∈ t)) :
    s.exportSession sessionId = t.exportSession sessionId := by
  refine eq_of_perm_of_observed ?_ (pairwise_exportSession s _) (pairwise_exportSession t _)
    (exportSession_ids_nodup s _)
  refine (List.perm_ext_iff_of_nodup (exportSession_ids_nodup s _).of_map
    (exportSession_ids_nodup t _).of_map).mpr fun e => ?_
  simp only [mem_exportSession]
  constructor
  · rintro ⟨he, hs⟩
    exact ⟨(h e hs).mp he, hs⟩
  · rintro ⟨he, hs⟩
    exact ⟨(h e hs).mpr he, hs⟩

/-- The evidence of a session that sorts before `e`, and the evidence that sorts after it. -/
def earlier (store : EvidenceStore) (e : Core.Evidence) : List Core.Evidence :=
  (store.exportSession e.sessionId).filter fun x => Observed x e

def later (store : EvidenceStore) (e : Core.Evidence) : List Core.Evidence :=
  (store.exportSession e.sessionId).filter fun x => ¬ Observed x e

theorem exportSession_eq_append (store : EvidenceStore) (e : Core.Evidence) :
    store.exportSession e.sessionId = store.earlier e ++ store.later e := by
  have hperm : (store.earlier e ++ store.later e).Perm (store.exportSession e.sessionId) := by
    have := List.filter_append_perm (fun x => decide (Observed x e))
      (store.exportSession e.sessionId)
    simpa [earlier, later] using this
  refine eq_of_perm_of_observed hperm.symm (pairwise_exportSession store _) ?_
    (exportSession_ids_nodup store _)
  refine List.pairwise_append.mpr ⟨(pairwise_exportSession store _).filter _,
    (pairwise_exportSession store _).filter _, fun x hx y hy => ?_⟩
  have hxe : Observed x e := by simpa using (List.mem_filter.mp hx).2
  have hye : ¬ Observed y e := by simpa using (List.mem_filter.mp hy).2
  exact hxe.trans ((Observed.total y e).resolve_left hye)

/-- New evidence is exported between what sorts before it and what sorts after it. -/
theorem exportSession_add
    (h : ∀ x ∈ store, x.id ≠ e.id) :
    (store.add e).2.exportSession e.sessionId = store.earlier e ++ e :: store.later e := by
  have hmem : ∀ x, x ∈ (store.add e).2.exportSession e.sessionId ↔
      x ∈ store.earlier e ++ e :: store.later e := by
    intro x
    rw [mem_exportSession, mem_add, List.mem_append, List.mem_cons, or_left_comm,
      ← List.mem_append, ← exportSession_eq_append, mem_exportSession]
    constructor
    · rintro ⟨hx | ⟨hx, -⟩, hs⟩
      · exact .inr ⟨hx, hs⟩
      · exact .inl hx
    · rintro (rfl | ⟨hx, hs⟩)
      · exact ⟨.inr ⟨rfl, h⟩, rfl⟩
      · exact ⟨.inl hx, hs⟩
  have hids : ((store.earlier e ++ e :: store.later e).map Core.Evidence.id).Nodup := by
    have hcons : ((e :: store.exportSession e.sessionId).map Core.Evidence.id).Nodup := by
      rw [List.map_cons, List.nodup_cons]
      refine ⟨fun hin => ?_, exportSession_ids_nodup store _⟩
      obtain ⟨x, hx, hid⟩ := List.mem_map.mp hin
      exact h x (mem_exportSession.mp hx).1 hid
    rw [exportSession_eq_append] at hcons
    exact (List.perm_middle.map _).nodup_iff.mpr hcons
  refine eq_of_perm_of_observed ?_ (pairwise_exportSession _ _) ?_ (exportSession_ids_nodup _ _)
  · exact (List.perm_ext_iff_of_nodup (exportSession_ids_nodup _ _).of_map hids.of_map).mpr hmem
  · have hsorted := pairwise_exportSession store e.sessionId
    rw [exportSession_eq_append, List.pairwise_append] at hsorted
    obtain ⟨hearlier, hlater, hacross⟩ := hsorted
    refine List.pairwise_append.mpr ⟨hearlier, List.pairwise_cons.mpr ⟨fun y hy => ?_, hlater⟩,
      fun x hx y hy => ?_⟩
    · have hye : ¬ Observed y e := by simpa using (List.mem_filter.mp hy).2
      exact (Observed.total y e).resolve_left hye
    · rcases List.mem_cons.mp hy with rfl | hy
      · simpa using (List.mem_filter.mp hx).2
      · exact hacross x hx y hy

end EvidenceStore

end UniversalAgent.Evidence
