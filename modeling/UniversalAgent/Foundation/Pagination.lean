import Mathlib

/-!
# Foundation — Pagination

A list that is read page by page. A reader who holds the key of an item is given the next items behind
it, and goes on with the key of the last of these until nothing is left. Where each item has a key of its
own, the pages put together are the list.

A store that keeps the list in order can find what is behind an item by comparing alone.
-/

namespace UniversalAgent.Foundation

variable {α κ ε : Type} [DecidableEq κ] {key : α → κ}

/-! ## Cursors -/

/-- What follows the first item with a key: nothing does where no item has it. -/
def following (key : α → κ) (k : κ) : List α → Option (List α)
  | [] => none
  | a :: items => if key a = k then some items else following key k items

def behind (key : α → κ) (items : List α) : Option κ → Option (List α)
  | none => some items
  | some k => following key k items

theorem following_append {pre post : List α} {a : α} (h : key a ∉ pre.map key) :
    following key (key a) (pre ++ a :: post) = some post := by
  induction pre with
  | nil => rw [List.nil_append, following, if_pos rfl]
  | cons b pre ih =>
    rw [List.map_cons, List.mem_cons, not_or] at h
    rw [List.cons_append, following, if_neg (Ne.symm h.1)]
    exact ih h.2

theorem following_eq_some {k : κ} {items rest : List α} (h : following key k items = some rest) :
    ∃ pre a, items = pre ++ a :: rest ∧ key a = k := by
  induction items with
  | nil => cases h
  | cons b items ih =>
    rw [following] at h
    by_cases hb : key b = k
    · rw [if_pos hb] at h
      exact ⟨[], b, by rw [Option.some.inj h, List.nil_append], hb⟩
    · rw [if_neg hb] at h
      obtain ⟨pre, a, hitems, ha⟩ := ih h
      exact ⟨b :: pre, a, by rw [hitems, List.cons_append], ha⟩

theorem following_eq_none {k : κ} {items : List α} : following key k items = none ↔ k ∉ items.map key := by
  induction items with
  | nil => simp [following]
  | cons b items ih =>
    rw [following, List.map_cons, List.mem_cons, not_or]
    by_cases hb : key b = k
    · simp [hb]
    · rw [if_neg hb, ih]
      simp [Ne.symm hb]

/-- A cursor stands in a list as it does in the list that this is made of. -/
theorem behind_map {β : Type} {key : β → κ} (f : α → β) (items : List α) (cursor : Option κ) :
    behind key (items.map f) cursor = (behind (fun a => key (f a)) items cursor).map (List.map f) := by
  cases cursor with
  | none => rfl
  | some k =>
    induction items with
    | nil => rfl
    | cons a items ih =>
      simp only [behind, List.map_cons, following] at ih ⊢
      by_cases ha : key (f a) = k
      · rw [if_pos ha, if_pos ha, Option.map_some]
      · rw [if_neg ha, if_neg ha, ih]

variable {cursor : Option κ}

theorem behind_suffix {items rest : List α}
    (h : behind key items cursor = some rest) : ∃ pre, items = pre ++ rest := by
  cases cursor with
  | none => exact ⟨[], Option.some.inj h⟩
  | some k =>
    obtain ⟨pre, a, hitems, -⟩ := following_eq_some h
    exact ⟨pre ++ [a], by rw [hitems, List.append_assoc, List.singleton_append]⟩

/-- The last item of a page is a cursor for what the page leaves. -/
theorem behind_last {items rest page : List α} {a : α} {n : Nat}
    (hkey : (items.map key).Nodup) (h : behind key items cursor = some rest)
    (hpage : rest.take n = page ++ [a]) : behind key items (some (key a)) = some (rest.drop n) := by
  obtain ⟨pre, hitems⟩ := behind_suffix h
  have hsplit : items = (pre ++ page) ++ a :: rest.drop n := by
    rw [hitems]
    conv_lhs => rw [← List.take_append_drop n rest, hpage]
    simp only [List.append_assoc, List.singleton_append]
  rw [hsplit, List.map_append, List.map_cons, List.nodup_append] at hkey
  rw [hsplit]
  refine following_append fun ha => ?_
  exact hkey.2.2 _ ha _ List.mem_cons_self rfl

/-! ## Pages -/

/-- The pages of a reader who begins at a cursor, goes on with the key of the last item of each page, and
stops at an empty one. -/
inductive Pages (key : α → κ) (read : Option κ → Except ε (List α)) : Option κ → List (List α) → Prop where
  | done {cursor : Option κ} (hread : read cursor = .ok []) : Pages key read cursor []
  | next {cursor : Option κ} {page : List α} {a : α} {pages : List (List α)}
      (hread : read cursor = .ok (page ++ [a])) (hpages : Pages key read (some (key a)) pages) :
      Pages key read cursor ((page ++ [a]) :: pages)

/-- The reader comes to an end, and has then read just these items, in their order. -/
def Enumerates (key : α → κ) (read : Option κ → Except ε (List α)) (cursor : Option κ) (items : List α) :
    Prop :=
  (∃ pages, Pages key read cursor pages) ∧ ∀ pages, Pages key read cursor pages → pages.flatten = items

omit [DecidableEq κ] in
theorem Pages.mapError {ε' : Type} {read : Option κ → Except ε (List α)} (f : ε → ε')
    {pages : List (List α)} (h : Pages key read cursor pages) :
    Pages key (fun cursor => (read cursor).mapError f) cursor pages := by
  induction h with
  | done hread => exact .done (by rw [hread]; rfl)
  | next hread _ ih => exact .next (by rw [hread]; rfl) ih

section Read

variable {read : Option κ → Except ε (List α)} {items : List α} {n : Nat}

variable {cursor : Option κ}

theorem exists_pages (hkey : (items.map key).Nodup) (hn : 0 < n)
    (hread : ∀ cursor rest, behind key items cursor = some rest → read cursor = .ok (rest.take n))
    {rest : List α} (h : behind key items cursor = some rest) :
    ∃ pages, Pages key read cursor pages := by
  induction hm : rest.length using Nat.strong_induction_on generalizing cursor rest with
  | _ m ih =>
    rcases List.eq_nil_or_concat (rest.take n) with hnil | ⟨page, a, hpage⟩
    · exact ⟨[], .done (hnil ▸ hread cursor rest h)⟩
    · rw [List.concat_eq_append] at hpage
      have hlt : (rest.drop n).length < m := by
        have hlen : (rest.take n).length = page.length + 1 := by
          rw [hpage, List.length_append, List.length_singleton]
        rw [List.length_take] at hlen
        rw [List.length_drop]
        omega
      obtain ⟨pages, hpages⟩ := ih _ hlt (behind_last hkey h hpage) rfl
      exact ⟨_, .next (hpage ▸ hread cursor rest h) hpages⟩

theorem flatten_pages (hkey : (items.map key).Nodup) (hn : 0 < n)
    (hread : ∀ cursor rest, behind key items cursor = some rest → read cursor = .ok (rest.take n))
    {pages : List (List α)} (hpages : Pages key read cursor pages) :
    ∀ rest, behind key items cursor = some rest → pages.flatten = rest := by
  induction hpages with
  | done hlast =>
    intro rest h
    rw [hread _ _ h, Except.ok.injEq, List.take_eq_nil_iff] at hlast
    rw [List.flatten_nil, hlast.resolve_left (by omega)]
  | next hpage _ ih =>
    intro rest h
    rw [hread _ _ h, Except.ok.injEq] at hpage
    rw [List.flatten_cons, ih _ (behind_last hkey h hpage), ← hpage, List.take_append_drop]

/-- **Pagination.** A store that answers each cursor with the first so many items behind it is read
completely, without loss or repetition. -/
theorem enumerates (hkey : (items.map key).Nodup) (hn : 0 < n)
    (hread : ∀ cursor rest, behind key items cursor = some rest → read cursor = .ok (rest.take n))
    {rest : List α} (h : behind key items cursor = some rest) :
    Enumerates key read cursor rest :=
  ⟨exists_pages hkey hn hread h, fun _ hpages => flatten_pages hkey hn hread hpages rest h⟩

end Read

/-! ## Lists in order -/

section Keyset

variable {r : α → α → Prop} [DecidableRel r]

/-- In a list that is strictly in order, what is behind an item is what the item comes before. -/
theorem filter_pairwise (hasymm : ∀ a b, r a b → ¬r b a) {pre post : List α} {a : α}
    (hs : (pre ++ a :: post).Pairwise r) : (pre ++ a :: post).filter (fun b => decide (r a b)) = post := by
  obtain ⟨-, hpost, hpre⟩ := List.pairwise_append.mp hs
  obtain ⟨ha, -⟩ := List.pairwise_cons.mp hpost
  have hself : ¬r a a := fun h => hasymm a a h h
  rw [List.filter_append, List.filter_cons_of_neg (by simpa using hself)]
  have hdropped : pre.filter (fun b => decide (r a b)) = [] := by
    rw [List.filter_eq_nil_iff]
    intro b hb
    simpa using hasymm b a (hpre b hb a List.mem_cons_self)
  have hkept : post.filter (fun b => decide (r a b)) = post := by
    rw [List.filter_eq_self]
    intro b hb
    exact decide_eq_true (ha b hb)
  rw [hdropped, hkept, List.nil_append]

theorem following_pairwise (hasymm : ∀ a b, r a b → ¬r b a) {items rest : List α}
    (hs : items.Pairwise r) {k : κ} (h : following key k items = some rest) :
    ∃ a ∈ items, key a = k ∧ items.filter (fun b => decide (r a b)) = rest := by
  obtain ⟨pre, a, rfl, ha⟩ := following_eq_some h
  exact ⟨a, by simp, ha, filter_pairwise hasymm hs⟩

end Keyset

end UniversalAgent.Foundation
