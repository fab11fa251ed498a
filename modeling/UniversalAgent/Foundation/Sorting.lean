import Mathlib

/-!
# Foundation — Sorting

Lists sorted by a total and transitive relation, in which no two items have one place. A filter goes
through the sort; what a cut of the sorted list shows is told by how many items come before. Where items
may share a place, the sort is stable: the first that meets a test is the one that leads.
-/

namespace UniversalAgent.Foundation

variable {α : Type} {r : α → α → Prop}

def Distinct (r : α → α → Prop) (items : List α) : Prop :=
  ∀ a ∈ items, ∀ b ∈ items, r a b → r b a → a = b

theorem Distinct.of_subset {items items' : List α} (h : Distinct r items) (hsub : items' ⊆ items) :
    Distinct r items' :=
  fun a ha b hb => h a (hsub ha) b (hsub hb)

theorem insertionSort_congr {r s : α → α → Prop} [DecidableRel r] [DecidableRel s]
    (h : ∀ a b, r a b ↔ s a b) (items : List α) : items.insertionSort r = items.insertionSort s := by
  obtain rfl : r = s := funext fun a => funext fun b => propext (h a b)
  congr

/-- What comes later in the order is sorted behind. -/
theorem insertionSort_append [DecidableRel r] {items items' : List α} (h : ∀ a ∈ items, ∀ b ∈ items', r a b) :
    (items ++ items').insertionSort r = items.insertionSort r ++ items'.insertionSort r := by
  have hinsert : ∀ (a : α) (l l' : List α), (∀ b ∈ l', r a b) →
      (l ++ l').orderedInsert r a = l.orderedInsert r a ++ l' := by
    intro a l l' hlater
    induction l with
    | nil =>
      cases l' with
      | nil => rfl
      | cons b l' => simp [hlater b List.mem_cons_self]
    | cons b l ih => by_cases hab : r a b <;> simp [hab, ih]
  induction items with
  | nil => rfl
  | cons a items ih =>
    rw [List.cons_append, List.insertionSort_cons, ih fun x hx => h x (List.mem_cons_of_mem a hx), hinsert,
      List.insertionSort_cons]
    exact fun b hb => h a List.mem_cons_self b ((List.mem_insertionSort r).mp hb)

section Sorted

variable [DecidableRel r] [Std.Total r] [IsTrans α r] {items items' : List α}

theorem insertionSort_eq_of_perm (h : items.Perm items') (hd : Distinct r items) :
    items.insertionSort r = items'.insertionSort r := by
  refine List.Perm.eq_of_pairwise (fun a b ha hb => ?_) (List.pairwise_insertionSort r items)
    (List.pairwise_insertionSort r items')
    ((List.perm_insertionSort r items).trans (h.trans (List.perm_insertionSort r items').symm))
  exact hd a ((List.mem_insertionSort r).mp ha) b (h.mem_iff.mpr ((List.mem_insertionSort r).mp hb))

omit [Std.Total r] in
theorem filter_orderedInsert (hs : items.Pairwise r) (p : α → Bool) (a : α) :
    (items.orderedInsert r a).filter p =
      if p a then (items.filter p).orderedInsert r a else items.filter p := by
  induction items with
  | nil => cases hp : p a <;> simp [hp]
  | cons b items ih =>
    obtain ⟨hb, hs⟩ := List.pairwise_cons.mp hs
    rw [List.orderedInsert_cons]
    by_cases hab : r a b
    · have hfirst : ((b :: items).filter p).orderedInsert r a = a :: (b :: items).filter p := by
        cases hf : (b :: items).filter p with
        | nil => rfl
        | cons c rest =>
          have hc : c ∈ b :: items := List.mem_of_mem_filter (hf ▸ List.mem_cons_self)
          have hac : r a c := (List.mem_cons.mp hc).elim (· ▸ hab) fun hc => trans_of r hab (hb c hc)
          rw [List.orderedInsert_cons, if_pos hac]
      rw [if_pos hab, List.filter_cons, hfirst]
    · rw [if_neg hab, List.filter_cons, ih hs, List.filter_cons]
      cases p a <;> cases p b <;> simp [hab]

/-- The sort is stable: a filter goes through it. -/
theorem filter_insertionSort (p : α → Bool) :
    (items.insertionSort r).filter p = (items.filter p).insertionSort r := by
  induction items with
  | nil => rfl
  | cons a items ih =>
    rw [List.insertionSort_cons, filter_orderedInsert (List.pairwise_insertionSort r items), ih, List.filter_cons]
    cases p a <;> rfl

end Sorted

/-! ## By a key, then by another order -/

def Then {κ : Type} [LinearOrder κ] (key : α → κ) (s : α → α → Prop) (a b : α) : Prop :=
  key a < key b ∨ key a = key b ∧ s a b

section Then

variable {κ : Type} [LinearOrder κ] (key : α → κ) (s : α → α → Prop) {a b c : α}

theorem Then.total (h : s a b ∨ s b a) : Then key s a b ∨ Then key s b a := by
  rcases lt_trichotomy (key a) (key b) with hlt | heq | hgt
  · exact .inl (.inl hlt)
  · exact h.imp (fun hs => .inr ⟨heq, hs⟩) fun hs => .inr ⟨heq.symm, hs⟩
  · exact .inr (.inl hgt)

theorem Then.trans (h : s a b → s b c → s a c) (hab : Then key s a b) (hbc : Then key s b c) : Then key s a c := by
  rcases hab with hab | ⟨hab, hs⟩
  · exact .inl (hbc.elim hab.trans fun hbc => hab.trans_eq hbc.1)
  · rcases hbc with hbc | ⟨hbc, hs'⟩
    · exact .inl (hab.trans_lt hbc)
    · exact .inr ⟨hab.trans hbc, h hs hs'⟩

/-- What comes before and behind has the same key. -/
theorem Then.tie (hab : Then key s a b) (hba : Then key s b a) : s a b ∧ s b a := by
  rcases hab with hab | ⟨hab, hs⟩
  · exact absurd hba (by rintro (h | ⟨h, -⟩) <;> [exact h.asymm hab; exact hab.ne' h])
  · rcases hba with hba | ⟨-, hs'⟩
    · exact absurd hab hba.ne'
    · exact ⟨hs, hs'⟩

end Then

/-! ## Sorting by a key -/

section ByKey

variable {κ : Type} [LinearOrder κ] (key : α → κ) [DecidableRel fun a b => key a ≤ key b]

theorem pairwise_sortByKey (items : List α) :
    (items.insertionSort fun a b => key a ≤ key b).Pairwise fun a b => key a ≤ key b := by
  have : Std.Total fun a b : α => key a ≤ key b := ⟨fun _ _ => le_total _ _⟩
  have : IsTrans α fun a b => key a ≤ key b := ⟨fun _ _ _ => le_trans⟩
  exact List.pairwise_insertionSort _ items

/-- Items with keys of their own have one sorted order. -/
theorem sortByKey_congr {items items' : List α} (h : items.Perm items')
    (hkey : ∀ a ∈ items, ∀ b ∈ items, key a = key b → a = b) :
    items.insertionSort (fun a b => key a ≤ key b) = items'.insertionSort fun a b => key a ≤ key b := by
  have : Std.Total fun a b : α => key a ≤ key b := ⟨fun _ _ => le_total _ _⟩
  have : IsTrans α fun a b => key a ≤ key b := ⟨fun _ _ _ => le_trans⟩
  exact insertionSort_eq_of_perm h fun a ha b hb hab hba => hkey a ha b hb (le_antisymm hab hba)

end ByKey

/-! ## The first that meets a test -/

section Leads

variable {p : α → Bool} {items : List α} {a x y : α}

/-- The item meets the test, those before it that do come later in the order, and those behind it not
earlier. -/
def Leads (r : α → α → Prop) (p : α → Bool) (items : List α) (x : α) : Prop :=
  ∃ pre post, items = pre ++ x :: post ∧ p x = true ∧ (∀ y ∈ pre, p y = true → ¬r y x) ∧
    ∀ y ∈ post, p y = true → r x y

theorem Leads.unique (hx : Leads r p items x) (hy : Leads r p items y) : x = y := by
  obtain ⟨pre, post, rfl, hpx, hpre, hpost⟩ := hx
  obtain ⟨pre', post', heq, hpy, hpre', hpost'⟩ := hy
  rcases List.append_eq_append_iff.mp heq with ⟨mid, rfl, hmid⟩ | ⟨mid, rfl, hmid⟩
  · cases mid with
    | nil => exact (List.cons.inj hmid).1
    | cons c mid =>
      obtain ⟨rfl, rfl⟩ := List.cons.inj hmid
      exact absurd (hpost y (by simp) hpy) (hpre' x (by simp) hpx)
  · cases mid with
    | nil => exact (List.cons.inj hmid).1.symm
    | cons c mid =>
      obtain ⟨rfl, rfl⟩ := List.cons.inj hmid
      exact absurd (hpost' x (by simp) hpx) (hpre y (by simp) hpy)

theorem leads_cons_of_not (ha : p a = false) : Leads r p (a :: items) x ↔ Leads r p items x := by
  constructor
  · rintro ⟨pre, post, heq, hx, hpre, hpost⟩
    cases pre with
    | nil =>
      obtain ⟨rfl, rfl⟩ := List.cons.inj heq
      rw [ha] at hx
      cases hx
    | cons b pre =>
      obtain ⟨rfl, rfl⟩ := List.cons.inj heq
      exact ⟨pre, post, rfl, hx, fun y hy => hpre y (List.mem_cons_of_mem _ hy), hpost⟩
  · rintro ⟨pre, post, rfl, hx, hpre, hpost⟩
    refine ⟨a :: pre, post, rfl, hx, fun y hy hp => ?_, hpost⟩
    rcases List.mem_cons.mp hy with rfl | hy
    · rw [ha] at hp
      cases hp
    · exact hpre y hy hp

variable [DecidableRel r]

/-- An item is put before the first that meets the test, if it does and comes first. -/
theorem find?_orderedInsert [IsTrans α r] (hs : items.Pairwise r) :
    (items.orderedInsert r a).find? p =
      if p a then
        match items.find? p with
        | none => some a
        | some b => if r a b then some a else some b
      else items.find? p := by
  induction items with
  | nil => cases hp : p a <;> simp [hp]
  | cons b items ih =>
    obtain ⟨hb, hs⟩ := List.pairwise_cons.mp hs
    rw [List.orderedInsert_cons]
    by_cases hab : r a b
    · rw [if_pos hab]
      cases hpa : p a with
      | false => simp [hpa]
      | true =>
        rw [List.find?_cons_of_pos hpa, if_pos rfl]
        cases hf : (b :: items).find? p with
        | none => rfl
        | some c =>
          have hac : r a c := by
            rcases List.mem_cons.mp (List.mem_of_find?_eq_some hf) with rfl | hc
            · exact hab
            · exact trans_of r hab (hb c hc)
          simp [hac]
    · rw [if_neg hab]
      cases hpb : p b with
      | true =>
        rw [List.find?_cons_of_pos hpb, List.find?_cons_of_pos hpb]
        simp [hab]
      | false =>
        rw [List.find?_cons_of_neg (by simp [hpb]), List.find?_cons_of_neg (by simp [hpb])]
        exact ih hs

theorem find?_insertionSort [Std.Total r] [IsTrans α r] :
    (items.insertionSort r).find? p = some x ↔ Leads r p items x := by
  have hleads : ∀ {x}, (items.insertionSort r).find? p = some x → Leads r p items x := by
    induction items with
    | nil =>
      intro x h
      cases h
    | cons a items ih =>
      intro x h
      rw [List.insertionSort_cons, find?_orderedInsert (List.pairwise_insertionSort r items)] at h
      cases hpa : p a with
      | false =>
        rw [hpa, if_neg (by decide)] at h
        exact (leads_cons_of_not hpa).mpr (ih h)
      | true =>
        rw [hpa, if_pos rfl] at h
        have hfirst : ∀ b, r a b → (items.insertionSort r).find? p = some b →
            Leads r p (a :: items) a := by
          intro b hab hb
          obtain ⟨pre, post, rfl, hpb, hpre, hpost⟩ := ih hb
          refine ⟨[], _, rfl, hpa, nofun, fun y hy hpy => ?_⟩
          rcases List.mem_append.mp hy with hy | hy
          · exact trans_of r hab ((total_of r b y).resolve_right (hpre y hy hpy))
          · rcases List.mem_cons.mp hy with rfl | hy
            · exact hab
            · exact trans_of r hab (hpost y hy hpy)
        cases hf : (items.insertionSort r).find? p with
        | none =>
          rw [hf] at h
          obtain rfl := Option.some.inj h
          refine ⟨[], _, rfl, hpa, nofun, fun y hy hpy => ?_⟩
          exact absurd hpy (List.find?_eq_none.mp hf y ((List.mem_insertionSort r).mpr hy))
        | some b =>
          rw [hf] at h
          dsimp only at h
          by_cases hab : r a b
          · rw [if_pos hab] at h
            obtain rfl := Option.some.inj h
            exact hfirst b hab hf
          · rw [if_neg hab] at h
            obtain rfl := Option.some.inj h
            obtain ⟨pre, post, rfl, hpb, hpre, hpost⟩ := ih hf
            refine ⟨a :: pre, post, rfl, hpb, fun y hy hpy => ?_, hpost⟩
            rcases List.mem_cons.mp hy with rfl | hy
            · exact hab
            · exact hpre y hy hpy
  refine ⟨hleads, fun h => ?_⟩
  cases hf : (items.insertionSort r).find? p with
  | none =>
    obtain ⟨pre, post, rfl, hpx, -, -⟩ := h
    exact absurd hpx (List.find?_eq_none.mp hf x ((List.mem_insertionSort r).mpr (by simp)))
  | some y => rw [(hleads hf).unique h]

end Leads

/-! ## Cuts -/

section Cut

variable [DecidableRel r] {items : List α}

def countBefore (r : α → α → Prop) [DecidableRel r] (items : List α) (x : α) : Nat :=
  items.countP fun y => decide ¬r x y

theorem countBefore_insertionSort (x : α) :
    countBefore r (items.insertionSort r) x = countBefore r items x :=
  (List.perm_insertionSort r items).countP_eq _

/-- The first so many of a sorted list are those with fewer before them. -/
theorem mem_take_sorted (hrefl : ∀ a, r a a) (hs : items.Pairwise r) (hn : items.Nodup)
    (hd : Distinct r items) {x : α} {n : Nat} :
    x ∈ items.take n ↔ x ∈ items ∧ countBefore r items x < n := by
  induction items generalizing n with
  | nil => simp
  | cons a items ih =>
    obtain ⟨hfirst, hrest⟩ := List.pairwise_cons.mp hs
    obtain ⟨hnew, hn⟩ := List.nodup_cons.mp hn
    cases n with
    | zero => simp
    | succ n =>
      rw [List.take_succ_cons, List.mem_cons, List.mem_cons,
        ih hrest hn (hd.of_subset (List.subset_cons_self a items))]
      by_cases hx : x = a
      · -- nothing comes before the first item
        have hzero : countBefore r (a :: items) x = 0 := by
          refine List.countP_eq_zero.mpr fun y hy => ?_
          have hle : r x y := by
            rcases List.mem_cons.mp hy with rfl | hy
            · exact hx ▸ hrefl x
            · exact hx ▸ hfirst y hy
          simpa using hle
        simp [hx, hx ▸ hzero]
      · by_cases hmem : x ∈ items
        · have hafter : ¬r x a := fun h =>
            hx (hd x (.tail a hmem) a List.mem_cons_self h (hfirst x hmem))
          have hcount : countBefore r (a :: items) x = countBefore r items x + 1 := by
            simp [countBefore, hafter]
          rw [hcount]
          simp [hx, hmem]
        · simp [hx, hmem]

/-- A part of a sorted list that is cut before it is filtered, or filtered before it is cut. -/
theorem filter_take_eq_iff (hrefl : ∀ a, r a a) (hs : items.Pairwise r) (hn : items.Nodup)
    (hd : Distinct r items) (p : α → Bool) (n m : Nat) :
    (items.take n).filter p = (items.filter p).take m ↔
      ∀ x ∈ items, p x = true →
        (countBefore r items x < n ↔ countBefore r (items.filter p) x < m) := by
  have hfilter : (items.filter p).Pairwise r := hs.filter p
  have hleft : ∀ x, x ∈ (items.take n).filter p ↔
      (x ∈ items ∧ countBefore r items x < n) ∧ p x = true := by
    intro x
    rw [List.mem_filter, mem_take_sorted hrefl hs hn hd]
  have hright : ∀ x, x ∈ (items.filter p).take m ↔
      (x ∈ items ∧ p x = true) ∧ countBefore r (items.filter p) x < m := by
    intro x
    rw [mem_take_sorted hrefl hfilter (hn.filter p) (hd.of_subset (List.filter_subset_self items)),
      List.mem_filter]
  constructor
  · intro h x hx hp
    have hiff : x ∈ (items.take n).filter p ↔ x ∈ (items.filter p).take m := by rw [h]
    rw [hleft, hright] at hiff
    simpa [hx, hp] using hiff
  · intro h
    have hperm : ((items.take n).filter p).Perm ((items.filter p).take m) := by
      refine (List.perm_ext_iff_of_nodup ((hn.sublist (List.take_sublist n items)).filter p)
        ((hn.filter p).sublist (List.take_sublist m _))).mpr fun x => ?_
      rw [hleft, hright]
      constructor
      · rintro ⟨⟨hx, hcount⟩, hp⟩
        exact ⟨⟨hx, hp⟩, (h x hx hp).mp hcount⟩
      · rintro ⟨⟨hx, hp⟩, hcount⟩
        exact ⟨⟨hx, (h x hx hp).mpr hcount⟩, hp⟩
    refine List.Perm.eq_of_pairwise (fun a b ha hb => ?_)
      ((hs.sublist (List.take_sublist n items)).filter p)
      (hfilter.sublist (List.take_sublist m _)) hperm
    exact hd a ((hleft a).mp ha).1.1 b ((hright b).mp hb).1.1

end Cut

end UniversalAgent.Foundation
