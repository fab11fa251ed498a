import Mathlib

/-!
# Foundation — OwnedRows

A table that several owners share, each row with its owner. A statement that names an owner reads and
writes that owner's rows; what it does to the others' is nothing.

Rows may be numbered as they are inserted, from one counter for all owners. The numbers that an owner
sees depend on the others then, but not their order: a statement that goes by the numbers of rows that
it has read does to the rows, their numbers aside, what it would do with any other increasing ones.
-/

namespace UniversalAgent.Foundation

variable {τ ρ ρ' : Type} [DecidableEq τ]

structure Owned (τ ρ : Type) where
  owner : τ
  row : ρ

namespace Owned

def rowsOf (owner : τ) (table : List (Owned τ ρ)) : List ρ :=
  (table.filter fun o => o.owner = owner).map Owned.row

/-- `SELECT … WHERE owner = … AND p`. -/
def select (owner : τ) (p : ρ → Bool) (table : List (Owned τ ρ)) : List ρ :=
  (table.filter fun o => o.owner = owner ∧ p o.row = true).map Owned.row

/-- `UPDATE … WHERE owner = … AND p`. -/
def update (owner : τ) (p : ρ → Bool) (f : ρ → ρ) (table : List (Owned τ ρ)) :
    List (Owned τ ρ) :=
  table.map fun o => if o.owner = owner ∧ p o.row = true then { o with row := f o.row } else o

def insert (owner : τ) (row : ρ) (table : List (Owned τ ρ)) : List (Owned τ ρ) :=
  table ++ [⟨owner, row⟩]

variable {owner other : τ} {table : List (Owned τ ρ)} {p : ρ → Bool} {f : ρ → ρ}

theorem select_eq : select owner p table = (rowsOf owner table).filter p := by
  unfold select rowsOf
  rw [List.filter_map, List.filter_filter]
  congr 2
  funext o
  simp [Bool.and_comm]

theorem rowsOf_cons (o : Owned τ ρ) :
    rowsOf owner (o :: table) =
      if o.owner = owner then o.row :: rowsOf owner table else rowsOf owner table := by
  unfold rowsOf
  by_cases h : o.owner = owner <;> simp [h]

/-- An update of an owner's rows, seen by the owner. -/
theorem rowsOf_update : rowsOf owner (update owner p f table) =
    (rowsOf owner table).map fun r => if p r then f r else r := by
  induction table with
  | nil => rfl
  | cons o table ih =>
    have hstep : update owner p f (o :: table) =
        (if o.owner = owner ∧ p o.row = true then { o with row := f o.row } else o) ::
          update owner p f table := rfl
    rw [hstep, rowsOf_cons, rowsOf_cons, ih]
    by_cases ho : o.owner = owner
    · by_cases hp : p o.row = true <;> simp [ho, hp]
    · simp [ho]

theorem rowsOf_update_of_ne (h : owner ≠ other) :
    rowsOf other (update owner p f table) = rowsOf other table := by
  induction table with
  | nil => rfl
  | cons o table ih =>
    have hstep : update owner p f (o :: table) =
        (if o.owner = owner ∧ p o.row = true then { o with row := f o.row } else o) ::
          update owner p f table := rfl
    rw [hstep, rowsOf_cons, rowsOf_cons, ih]
    by_cases ho : o.owner = owner
    · have hne : o.owner ≠ other := fun he => h (ho.symm.trans he)
      by_cases hp : p o.row = true <;> simp [ho, hp, h]
    · simp [ho]

theorem rowsOf_insert (row : ρ) : rowsOf owner (insert owner row table) = rowsOf owner table ++ [row] := by
  simp [insert, rowsOf]

theorem rowsOf_insert_of_ne (h : owner ≠ other) (row : ρ) :
    rowsOf other (insert owner row table) = rowsOf other table := by
  simp [insert, rowsOf, h]

end Owned

/-! ## Numbers -/

structure Numbering (ρ : Type) where
  number : ρ → Nat
  unnumbered : ρ → ρ

namespace Numbering

variable (N : Numbering ρ)

def Same (rows rows' : List ρ) : Prop :=
  List.Forall₂ (fun a b => N.unnumbered a = N.unnumbered b) rows rows'

def Increasing (rows : List ρ) : Prop := rows.Pairwise fun a b => N.number a < N.number b

def Ignores (p : ρ → Bool) : Prop := ∀ a b, N.unnumbered a = N.unnumbered b → p a = p b

def Keeps (f : ρ → ρ) : Prop :=
  (∀ r, N.number (f r) = N.number r) ∧
    ∀ a b, N.unnumbered a = N.unnumbered b → N.unnumbered (f a) = N.unnumbered (f b)

variable {N} {rows rows' : List ρ} {p : ρ → Bool} {f : ρ → ρ}

theorem Same.map_eq {α : Type} {g : ρ → α} (h : N.Same rows rows')
    (hg : ∀ a b, N.unnumbered a = N.unnumbered b → g a = g b) : rows.map g = rows'.map g := by
  induction h with
  | nil => rfl
  | cons hab _ ih => exact congrArg₂ List.cons (hg _ _ hab) ih

theorem Same.filter (h : N.Same rows rows') (hp : N.Ignores p) :
    N.Same (rows.filter p) (rows'.filter p) := by
  induction h with
  | nil => exact .nil
  | cons hab _ ih =>
    rw [List.filter_cons, List.filter_cons, hp _ _ hab]
    split
    · exact .cons hab ih
    · exact ih

theorem Same.take (h : N.Same rows rows') (n : Nat) : N.Same (rows.take n) (rows'.take n) :=
  List.forall₂_take n h

theorem Same.update (h : N.Same rows rows') (hp : N.Ignores p) (hf : N.Keeps f) :
    N.Same (rows.map fun r => if p r then f r else r) (rows'.map fun r => if p r then f r else r) := by
  induction h with
  | nil => exact .nil
  | @cons a b as bs hab _ ih =>
    refine .cons ?_ ih
    simp only [hp a b hab]
    split
    · exact hf.2 a b hab
    · exact hab

theorem Increasing.update (h : N.Increasing rows) (hf : N.Keeps f) :
    N.Increasing (rows.map fun r => if p r then f r else r) := by
  have hnumber : ∀ r, N.number (if p r then f r else r) = N.number r := by
    intro r
    split
    · exact hf.1 r
    · rfl
  refine List.pairwise_map.mpr (h.imp fun hlt => ?_)
  rw [hnumber, hnumber]
  exact hlt

/-- Rows in the order of their numbers are sorted by them. -/
theorem Increasing.sorted (h : N.Increasing rows) :
    (rows.insertionSort fun a b => N.number a ≤ N.number b) = rows :=
  List.Pairwise.insertionSort_eq (h.imp Nat.le_of_lt)

theorem Increasing.filter (h : N.Increasing rows) : N.Increasing (rows.filter p) :=
  List.Pairwise.filter p h

/-- The rows, with `f` done to the first so many that are in `p`. -/
def updateFirst (p : ρ → Bool) (f : ρ → ρ) : Nat → List ρ → List ρ
  | _, [] => []
  | 0, rows => rows
  | n + 1, r :: rows =>
    if p r then f r :: updateFirst p f n rows else r :: updateFirst p f (n + 1) rows

theorem updateFirst_zero (rows : List ρ) : updateFirst p f 0 rows = rows := by
  cases rows <;> rfl

/-- Rows that were selected, updated by their numbers: the first ones are updated. -/
theorem update_by_number (h : N.Increasing rows) (n : Nat) :
    (rows.map fun r =>
      if N.number r ∈ ((rows.filter p).take n).map N.number then f r else r) =
      updateFirst p f n rows := by
  induction rows generalizing n with
  | nil => cases n <;> rfl
  | cons r rows ih =>
    obtain ⟨hfirst, hrest⟩ := List.pairwise_cons.mp h
    cases n with
    | zero => simp [updateFirst_zero]
    | succ n =>
      -- the number of the first row is none of those of the later ones
      have hlater : ∀ m, N.number r ∉ ((rows.filter p).take m).map N.number := by
        intro m hm
        obtain ⟨x, hx, he⟩ := List.mem_map.mp hm
        exact absurd he (hfirst x (List.mem_of_mem_filter (List.mem_of_mem_take hx))).ne'
      rw [updateFirst]
      by_cases hp : p r = true
      · rw [if_pos hp, List.map_cons, List.filter_cons_of_pos hp, List.take_succ_cons,
          List.map_cons, if_pos List.mem_cons_self, ← ih hrest n]
        refine congrArg (f r :: ·) (List.map_congr_left fun x hx => ?_)
        have hne : N.number x ≠ N.number r := (hfirst x hx).ne'
        simp [hne]
      · rw [if_neg hp, List.map_cons, List.filter_cons_of_neg hp, if_neg (hlater (n + 1)),
          ← ih hrest (n + 1)]

theorem Same.updateFirst (h : N.Same rows rows') (hp : N.Ignores p) (hf : N.Keeps f) (n : Nat) :
    N.Same (updateFirst p f n rows) (updateFirst p f n rows') := by
  induction h generalizing n with
  | nil => cases n <;> exact .nil
  | @cons a b as bs hab hrest ih =>
    cases n with
    | zero =>
      rw [updateFirst_zero, updateFirst_zero]
      exact .cons hab hrest
    | succ n =>
      rw [Numbering.updateFirst, Numbering.updateFirst, hp a b hab]
      split
      · exact .cons (hf.2 a b hab) (ih n)
      · exact .cons hab (ih (n + 1))

/-! ## Counters -/

variable {next next' : Nat}

structure Drawn (N : Numbering ρ) (rows : List ρ) (next : Nat) : Prop where
  increasing : N.Increasing rows
  below : ∀ r ∈ rows, N.number r < next

theorem Drawn.nil : N.Drawn [] next := ⟨List.Pairwise.nil, by simp⟩

theorem Drawn.mono (h : N.Drawn rows next) (hle : next ≤ next') : N.Drawn rows next' :=
  ⟨h.increasing, fun r hr => (h.below r hr).trans_le hle⟩

theorem Drawn.update (h : N.Drawn rows next) (hf : N.Keeps f) :
    N.Drawn (rows.map fun r => if p r then f r else r) next := by
  refine ⟨h.increasing.update hf, fun r hr => ?_⟩
  obtain ⟨a, ha, rfl⟩ := List.mem_map.mp hr
  split
  · rw [hf.1]
    exact h.below a ha
  · exact h.below a ha

theorem Drawn.insert {row : ρ} (h : N.Drawn rows next) (hrow : N.number row = next) :
    N.Drawn (rows ++ [row]) (next + 1) := by
  constructor
  · refine List.pairwise_append.mpr ⟨h.increasing, List.pairwise_singleton _ _, fun a ha b hb => ?_⟩
    rw [List.mem_singleton.mp hb, hrow]
    exact h.below a ha
  · intro r hr
    rcases List.mem_append.mp hr with hr | hr
    · exact (h.below r hr).trans (Nat.lt_succ_self next)
    · rw [List.mem_singleton.mp hr, hrow]
      exact Nat.lt_succ_self next

structure Agree (N : Numbering ρ) (rows : List ρ) (next : Nat) (rows' : List ρ) (next' : Nat) :
    Prop where
  same : N.Same rows rows'
  left : N.Drawn rows next
  right : N.Drawn rows' next'

namespace Agree

variable (h : N.Agree rows next rows' next')
include h

theorem mono {more more' : Nat} (hle : next ≤ more) (hle' : next' ≤ more') :
    N.Agree rows more rows' more' :=
  ⟨h.same, h.left.mono hle, h.right.mono hle'⟩

theorem update (hp : N.Ignores p) (hf : N.Keeps f) :
    N.Agree (rows.map fun r => if p r then f r else r) next
      (rows'.map fun r => if p r then f r else r) next' :=
  ⟨h.same.update hp hf, h.left.update hf, h.right.update hf⟩

theorem insert (row row' : ρ) (hrow : N.number row = next) (hrow' : N.number row' = next')
    (hsame : N.unnumbered row = N.unnumbered row') :
    N.Agree (rows ++ [row]) (next + 1) (rows' ++ [row']) (next' + 1) :=
  ⟨List.rel_append h.same (.cons hsame .nil), h.left.insert hrow, h.right.insert hrow'⟩

/-- Rows that were selected in order, up to a limit, are updated by their numbers. -/
theorem updateSelected (hp : N.Ignores p) (hf : N.Keeps f) (n : Nat) :
    N.Agree
      (rows.map fun r =>
        if N.number r ∈ ((rows.filter p).take n).map N.number then f r else r) next
      (rows'.map fun r =>
        if N.number r ∈ ((rows'.filter p).take n).map N.number then f r else r) next' := by
  have hleft := h.left.update (p := fun r =>
    decide (N.number r ∈ ((rows.filter p).take n).map N.number)) hf
  have hright := h.right.update (p := fun r =>
    decide (N.number r ∈ ((rows'.filter p).take n).map N.number)) hf
  simp only [decide_eq_true_eq] at hleft hright
  refine ⟨?_, hleft, hright⟩
  rw [update_by_number h.left.increasing, update_by_number h.right.increasing]
  exact h.same.updateFirst hp hf n

end Agree

end Numbering

end UniversalAgent.Foundation
