import UniversalAgent.Foundation.Table

/-!
# Foundation — Disjoint sets

The classes of an equivalence that grows by one pair at a time: each item points to one that is not above
it, and a class is known by the item that points to itself. To find it the pointers are followed, and those
that were followed are then set to the end of the way. Two classes become one when the greater of the two
ends is set to the lesser.

`Represents`: what is found for an item is the least item of its class.
-/

namespace UniversalAgent.Foundation

abbrev Parents (α : Type) := Table (Prod.fst : α × α → α)

section Operations

variable {α : Type} [LinearOrder α]

namespace Parents

/-- `parent[x]`. -/
def parent? (p : Parents α) (x : α) : Option α := (p.get? x).map Prod.snd

/-- `while parent[x] != x: x = parent[x]`, within some turns. -/
def climb (p : Parents α) : Nat → α → Option α
  | 0, _ => none
  | turns + 1, x => do
      let y ← p.parent? x
      if y = x then some x else climb p turns y

def compress (root : α) : Nat → α → Parents α → Option (Parents α)
  | 0, _, _ => none
  | turns + 1, x, p => do
      let y ← p.parent? x
      if y = x then some p else compress root turns y (p.put (x, root))

/-- `parent.setdefault(x, x)`. -/
def enter (p : Parents α) (x : α) : Parents α := if (p.parent? x).isSome then p else p.put (x, x)

def turns (p : Parents α) : Nat := p.rows.length + 1

def find (p : Parents α) (x : α) : Option (α × Parents α) := do
  let root ← (p.enter x).climb (p.enter x).turns x
  let compressed ← compress root (p.enter x).turns x (p.enter x)
  some (root, compressed)

def union (p : Parents α) (left right : α) : Option (Parents α) := do
  let (leftRoot, p) ← p.find left
  let (rightRoot, p) ← p.find right
  if leftRoot = rightRoot then some p
  else
    let canonical := min leftRoot rightRoot
    let other := if canonical = leftRoot then rightRoot else leftRoot
    some (p.put (other, canonical))

def unions (edges : List (α × α)) : Option (Parents α) :=
  edges.foldlM (fun p e => p.union e.1 e.2) Table.empty

def findAll {β : Type} (source : β → α) : List β → Parents α → Option (List (α × β) × Parents α)
  | [], p => some ([], p)
  | b :: bs, p => do
      let (root, p) ← p.find (source b)
      let (found, p) ← findAll source bs p
      some ((root, b) :: found, p)

inductive Reachable : Parents α → Prop where
  | empty : Reachable Table.empty
  | find {p p' : Parents α} {x r : α} (h : Reachable p) (hfind : p.find x = some (r, p')) : Reachable p'
  | union {p p' : Parents α} {x y : α} (h : Reachable p) (hunion : p.union x y = some p') : Reachable p'

end Parents

end Operations

/-! ## Classes -/

section Classes

variable {α : Type} {edges : List (α × α)} {a b x y : α}

/-- Two items are in one class of the equivalence that the pairs generate. -/
def Linked (edges : List (α × α)) : α → α → Prop := Relation.EqvGen fun a b => (a, b) ∈ edges

theorem Linked.refl (x : α) : Linked edges x x := Relation.EqvGen.refl x

theorem Linked.of_mem (h : (x, y) ∈ edges) : Linked edges x y := Relation.EqvGen.rel x y h

theorem Linked.symm (h : Linked edges x y) : Linked edges y x := Relation.EqvGen.symm _ _ h

theorem Linked.trans {z : α} (h : Linked edges x y) (h' : Linked edges y z) : Linked edges x z :=
  Relation.EqvGen.trans _ _ _ h h'

theorem Linked.class_eq (h : Linked edges x y) : {z | Linked edges x z} = {z | Linked edges y z} :=
  Set.ext fun _ => ⟨h.symm.trans, h.trans⟩

theorem Linked.mono {edges' : List (α × α)} (hsub : edges ⊆ edges') (h : Linked edges x y) :
    Linked edges' x y :=
  Relation.EqvGen.mono (fun _ _ hab => hsub hab) x y h

theorem linked_congr {edges' : List (α × α)} (h : ∀ e, e ∈ edges ↔ e ∈ edges') :
    Linked edges x y ↔ Linked edges' x y :=
  ⟨.mono fun e => (h e).mp, .mono fun e => (h e).mpr⟩

theorem Linked.alone (hx : ∀ e ∈ edges, e.1 ≠ x ∧ e.2 ≠ x) (h : Linked edges a b) : a = x ↔ b = x := by
  induction h with
  | rel a b hab => exact ⟨fun ha => absurd ha (hx _ hab).1, fun hb => absurd hb (hx _ hab).2⟩
  | refl a => exact Iff.rfl
  | symm a b _ ih => exact ih.symm
  | trans a b c _ _ ih ih' => exact ih.trans ih'

/-- One more pair makes one class of the two that its items are in. -/
theorem linked_snoc : Linked (edges ++ [(a, b)]) x y ↔
    Linked edges x y ∨ (Linked edges x a ∧ Linked edges b y) ∨ (Linked edges x b ∧ Linked edges a y) := by
  constructor
  · intro h
    induction h with
    | rel u v huv =>
      rcases List.mem_append.mp huv with huv | huv
      · exact .inl (.of_mem huv)
      · obtain ⟨rfl, rfl⟩ := Prod.mk.inj (List.mem_singleton.mp huv)
        exact .inr (.inl ⟨.refl _, .refl _⟩)
    | refl u => exact .inl (.refl u)
    | symm u v _ ih =>
      rcases ih with h | ⟨h, h'⟩ | ⟨h, h'⟩
      · exact .inl h.symm
      · exact .inr (.inr ⟨h'.symm, h.symm⟩)
      · exact .inr (.inl ⟨h'.symm, h.symm⟩)
    | trans u v w _ _ ih ih' =>
      rcases ih with h | ⟨h, h'⟩ | ⟨h, h'⟩
      · rcases ih' with k | ⟨k, k'⟩ | ⟨k, k'⟩
        · exact .inl (h.trans k)
        · exact .inr (.inl ⟨h.trans k, k'⟩)
        · exact .inr (.inr ⟨h.trans k, k'⟩)
      · rcases ih' with k | ⟨-, k'⟩ | ⟨-, k'⟩
        · exact .inr (.inl ⟨h, h'.trans k⟩)
        · exact .inr (.inl ⟨h, k'⟩)
        · exact .inl (h.trans k')
      · rcases ih' with k | ⟨-, k'⟩ | ⟨-, k'⟩
        · exact .inr (.inr ⟨h, h'.trans k⟩)
        · exact .inl (h.trans k')
        · exact .inr (.inr ⟨h, k'⟩)
  · have hsub : edges ⊆ edges ++ [(a, b)] := List.subset_append_left _ _
    have hab : Linked (edges ++ [(a, b)]) a b := .of_mem (by simp)
    rintro (h | ⟨h, h'⟩ | ⟨h, h'⟩)
    · exact h.mono hsub
    · exact (h.mono hsub).trans (hab.trans (h'.mono hsub))
    · exact (h.mono hsub).trans (hab.symm.trans (h'.mono hsub))

end Classes

/-! ## Roots -/

section Roots

variable {α : Type} [LinearOrder α] {p : Parents α} {x y z r root : α}

namespace Parents

inductive RootOf (p : Parents α) : α → α → Prop where
  | root {x : α} (h : p.parent? x = some x) : RootOf p x x
  | up {x y r : α} (h : p.parent? x = some y) (hne : y ≠ x) (hr : RootOf p y r) : RootOf p x r

structure Forest (p : Parents α) : Prop where
  closed : ∀ x y, p.parent? x = some y → (p.parent? y).isSome = true
  descends : ∀ x y, p.parent? x = some y → y ≤ x

theorem parent?_empty (x : α) : Parents.parent? Table.empty x = none := rfl

theorem parent?_put (p : Parents α) (x y z : α) :
    Parents.parent? (p.put (x, y)) z = if z = x then some y else p.parent? z := by
  unfold parent?
  rw [Table.get?_put]
  split <;> rfl

theorem RootOf.unique (h : RootOf p x r) (h' : RootOf p x y) : r = y := by
  induction h with
  | root h =>
    cases h' with
    | root _ => rfl
    | up h' hne _ => exact absurd (Option.some.inj (h'.symm.trans h)) hne
  | up h hne _ ih =>
    cases h' with
    | root h' => exact absurd (Option.some.inj (h.symm.trans h')) hne
    | up h' _ hr' =>
      obtain rfl := Option.some.inj (h.symm.trans h')
      exact ih hr'

theorem RootOf.isRoot (h : RootOf p x r) : p.parent? r = some r := by
  induction h with
  | root h => exact h
  | up _ _ _ ih => exact ih

theorem RootOf.isSome (h : RootOf p x r) : (p.parent? x).isSome = true := by
  cases h with
  | root h => rw [h]; rfl
  | up h _ _ => rw [h]; rfl

theorem RootOf.le (hp : Forest p) (h : RootOf p x r) : r ≤ x := by
  induction h with
  | root _ => exact le_rfl
  | up h _ _ ih => exact ih.trans (hp.descends _ _ h)

/-! ### The way to the root -/

def below (p : Parents α) (x : α) : Nat := ((p.rows.map Prod.fst).toFinset.filter (· < x)).card

theorem mem_keys : x ∈ (p.rows.map Prod.fst).toFinset ↔ (p.parent? x).isSome = true := by
  unfold parent?
  rw [Option.isSome_map, Option.isSome_iff_exists, List.mem_toFinset, List.mem_map]
  constructor
  · rintro ⟨row, hrow, rfl⟩
    exact ⟨row, Table.get?_of_mem hrow⟩
  · rintro ⟨row, hrow⟩
    obtain ⟨hmem, hkey⟩ := Table.get?_eq_some.mp hrow
    exact ⟨row, hmem, hkey⟩

theorem below_lt_turns (p : Parents α) (x : α) : p.below x < p.turns := by
  have hkeys : (p.rows.map Prod.fst).toFinset.card ≤ p.rows.length := by
    simpa using List.toFinset_card_le (p.rows.map Prod.fst)
  have hfilter := Finset.card_filter_le (p.rows.map Prod.fst).toFinset (· < x)
  unfold below turns
  omega

theorem below_lt (hy : (p.parent? y).isSome = true) (hlt : y < x) : p.below y < p.below x := by
  refine Finset.card_lt_card ((Finset.ssubset_iff_of_subset fun z hz => ?_).mpr ⟨y, ?_, ?_⟩)
  · rw [Finset.mem_filter] at hz ⊢
    exact ⟨hz.1, hz.2.trans hlt⟩
  · exact Finset.mem_filter.mpr ⟨mem_keys.mpr hy, hlt⟩
  · exact fun hmem => lt_irrefl y (Finset.mem_filter.mp hmem).2

theorem below_congr {p' : Parents α} (h : ∀ z, (p'.parent? z).isSome = (p.parent? z).isSome) (x : α) :
    p'.below x = p.below x := by
  have hkeys : (p'.rows.map Prod.fst).toFinset = (p.rows.map Prod.fst).toFinset := by
    ext z
    rw [mem_keys, mem_keys, h]
  unfold below
  rw [hkeys]

/-- The pointers lead from every item to a root, and the loop ends there. -/
theorem climb_root (hp : Forest p) {turns : Nat} (hx : (p.parent? x).isSome = true)
    (hturns : p.below x < turns) : ∃ r, p.climb turns x = some r ∧ RootOf p x r := by
  induction turns generalizing x with
  | zero => omega
  | succ turns ih =>
    obtain ⟨y, hy⟩ := Option.isSome_iff_exists.mp hx
    by_cases hne : y = x
    · subst hne
      exact ⟨y, by simp [climb, hy], .root hy⟩
    · have hlt : y < x := lt_of_le_of_ne (hp.descends _ _ hy) hne
      have hbelow := below_lt (hp.closed _ _ hy) hlt
      obtain ⟨r, hr, hroot⟩ := ih (hp.closed _ _ hy) (by omega)
      exact ⟨r, by simp [climb, hy, hne, hr], .up hy hne hroot⟩

theorem Forest.exists_root (hp : Forest p) (hx : (p.parent? x).isSome = true) : ∃ r, RootOf p x r := by
  obtain ⟨r, -, hr⟩ := climb_root hp hx (below_lt_turns p x)
  exact ⟨r, hr⟩

/-! ### What changes of the pointers -/

structure SameRoots (p p' : Parents α) : Prop where
  items : ∀ z, (p'.parent? z).isSome = (p.parent? z).isSome
  roots : ∀ z r, RootOf p' z r ↔ RootOf p z r

theorem SameRoots.refl (p : Parents α) : SameRoots p p := ⟨fun _ => rfl, fun _ _ => Iff.rfl⟩

theorem SameRoots.trans {p' p'' : Parents α} (h : SameRoots p p') (h' : SameRoots p' p'') :
    SameRoots p p'' :=
  ⟨fun z => (h'.items z).trans (h.items z), fun z r => (h'.roots z r).trans (h.roots z r)⟩

theorem shortcut (hp : Forest p) (hx : RootOf p x root) (hne : root ≠ x) :
    Forest (p.put (x, root)) ∧ SameRoots p (p.put (x, root)) := by
  have hroot : Parents.parent? (p.put (x, root)) root = some root := by
    rw [parent?_put, if_neg hne, hx.isRoot]
  have hitems : ∀ z, (Parents.parent? (p.put (x, root)) z).isSome = (p.parent? z).isSome := by
    intro z
    rw [parent?_put]
    split
    · next hz => rw [hz, hx.isSome]; rfl
    · rfl
  refine ⟨⟨fun u v huv => ?_, fun u v huv => ?_⟩, hitems, fun z r => ⟨fun h => ?_, fun h => ?_⟩⟩
  · rw [hitems]
    rw [parent?_put] at huv
    split at huv
    · obtain rfl := Option.some.inj huv
      rw [hx.isRoot]
      rfl
    · exact hp.closed _ _ huv
  · rw [parent?_put] at huv
    split at huv
    · next hu =>
      obtain rfl := Option.some.inj huv
      exact hu ▸ hx.le hp
    · exact hp.descends _ _ huv
  · induction h with
    | @root u h =>
      rw [parent?_put] at h
      split at h
      · next hu =>
        obtain rfl := Option.some.inj h
        exact absurd hu hne
      · exact .root h
    | @up u v r h hvu hr ih =>
      rw [parent?_put] at h
      split at h
      · next hu =>
        obtain rfl := Option.some.inj h
        obtain rfl : root = r := (RootOf.root hx.isRoot).unique ih
        exact hu ▸ hx
      · exact .up h hvu ih
  · induction h with
    | @root u h =>
      refine .root ?_
      rw [parent?_put, if_neg, h]
      rintro rfl
      exact hne (hx.unique (.root h))
    | @up u v r h hvu hr ih =>
      by_cases hu : u = x
      · obtain rfl : root = r := hx.unique (hu ▸ .up h hvu hr)
        refine .up ?_ (hu ▸ hne) (.root hroot)
        rw [parent?_put, if_pos hu]
      · refine .up ?_ hvu ih
        rw [parent?_put, if_neg hu, h]

/-- The way is followed again, and the pointers on it are set to the root. -/
theorem compress_root (hp : Forest p) {turns : Nat} (hx : RootOf p x root) (hturns : p.below x < turns) :
    ∃ p', compress root turns x p = some p' ∧ Forest p' ∧ SameRoots p p' := by
  induction turns generalizing x p with
  | zero => omega
  | succ turns ih =>
    cases hx with
    | root h => exact ⟨p, by simp [compress, h], hp, .refl p⟩
    | @up _ y _ h hne hr =>
      have hlt : y < x := lt_of_le_of_ne (hp.descends _ _ h) hne
      have hbelow := below_lt (hp.closed _ _ h) hlt
      have hroot : root ≠ x := ((hr.le hp).trans_lt hlt).ne
      obtain ⟨hp', hsame⟩ := shortcut hp (.up h hne hr) hroot
      obtain ⟨p', hp', hforest, hsame'⟩ := ih hp' ((hsame.roots _ _).mpr hr)
        (by rw [below_congr hsame.items]; omega)
      exact ⟨p', by simp [compress, h, hne, hp'], hforest, hsame.trans hsame'⟩

theorem enter_spec (hp : Forest p) (x : α) : Forest (p.enter x) ∧
    (∀ z, ((p.enter x).parent? z).isSome = true ↔ (p.parent? z).isSome = true ∨ z = x) ∧
    ∀ z r, RootOf (p.enter x) z r → RootOf p z r ∨ p.parent? x = none ∧ z = x ∧ r = x := by
  unfold enter
  split
  · next h =>
    exact ⟨hp, fun z => ⟨.inl, fun hz => hz.elim id fun hzx => hzx ▸ h⟩, fun z r hr => .inl hr⟩
  · next h =>
    have hnone : p.parent? x = none := by simpa using h
    have hkeep : ∀ z, (p.parent? z).isSome = true → z ≠ x := by
      rintro z hz rfl
      exact h hz
    refine ⟨⟨fun u v huv => ?_, fun u v huv => ?_⟩, fun z => ?_, fun z r hr => ?_⟩
    · rw [parent?_put] at huv ⊢
      split at huv
      · obtain rfl := Option.some.inj huv
        simp
      · rw [if_neg (hkeep v (hp.closed _ _ huv))]
        exact hp.closed _ _ huv
    · rw [parent?_put] at huv
      split at huv
      · next hu => exact ((Option.some.inj huv).symm.trans hu.symm).le
      · exact hp.descends _ _ huv
    · rw [parent?_put]
      by_cases hz : z = x
      · simp [hz]
      · simp [hz]
    · induction hr with
      | @root u h' =>
        rw [parent?_put] at h'
        split at h'
        · next hu => exact .inr ⟨hnone, hu, hu⟩
        · exact .inl (.root h')
      | @up u v r h' hvu hr ih =>
        rw [parent?_put] at h'
        split at h'
        · next hu => exact absurd ((Option.some.inj h').symm.trans hu.symm) hvu
        · rcases ih with hroot | ⟨-, hv, -⟩
          · exact .inl (.up h' hvu hroot)
          · exact absurd hv (hkeep v (hp.closed _ _ h'))

theorem link_spec (hp : Forest p) {canonical other : α} (hcanonical : p.parent? canonical = some canonical)
    (hother : p.parent? other = some other) (hlt : canonical < other) :
    Forest (p.put (other, canonical)) ∧
    (∀ z, (Parents.parent? (p.put (other, canonical)) z).isSome = (p.parent? z).isSome) ∧
    ∀ z r, RootOf (p.put (other, canonical)) z r →
      RootOf p z r ∧ r ≠ other ∨ RootOf p z other ∧ r = canonical := by
  have hitems : ∀ z, (Parents.parent? (p.put (other, canonical)) z).isSome = (p.parent? z).isSome := by
    intro z
    rw [parent?_put]
    split
    · next hz => rw [hz, hother]; rfl
    · rfl
  refine ⟨⟨fun u v huv => ?_, fun u v huv => ?_⟩, hitems, fun z r hr => ?_⟩
  · rw [hitems]
    rw [parent?_put] at huv
    split at huv
    · obtain rfl := Option.some.inj huv
      rw [hcanonical]
      rfl
    · exact hp.closed _ _ huv
  · rw [parent?_put] at huv
    split at huv
    · next hu =>
      obtain rfl := Option.some.inj huv
      exact hu ▸ hlt.le
    · exact hp.descends _ _ huv
  · induction hr with
    | @root u h =>
      rw [parent?_put] at h
      split at h
      · next hu => exact absurd ((Option.some.inj h).trans hu) hlt.ne
      · next hu => exact .inl ⟨.root h, hu⟩
    | @up u v r h hvu hr ih =>
      rw [parent?_put] at h
      split at h
      · next hu =>
        obtain rfl := Option.some.inj h
        rcases ih with ⟨hroot, -⟩ | ⟨hroot, -⟩
        · obtain rfl := (RootOf.root hcanonical).unique hroot
          exact .inr ⟨by rw [hu]; exact .root hother, rfl⟩
        · exact absurd ((RootOf.root hcanonical).unique hroot) hlt.ne
      · rcases ih with ⟨hroot, hr'⟩ | ⟨hroot, rfl⟩
        · exact .inl ⟨.up h hvu hroot, hr'⟩
        · exact .inr ⟨.up h hvu hroot, rfl⟩

end Parents

end Roots

/-! ## What the pointers represent -/

section Represents

variable {α : Type} [LinearOrder α] {p p' : Parents α} {edges : List (α × α)} {x y r : α}

namespace Parents

structure Represents (edges : List (α × α)) (p : Parents α) : Prop where
  forest : Forest p
  items : ∀ e ∈ edges, (p.parent? e.1).isSome = true ∧ (p.parent? e.2).isSome = true
  least : ∀ x r, RootOf p x r → IsLeast {y | Linked edges x y} r

theorem represents_empty : Represents [] (Table.empty : Parents α) :=
  ⟨⟨fun _ _ h => (nomatch h), fun _ _ h => (nomatch h)⟩, fun _ h => (nomatch h),
    fun x r h => by cases h.isSome⟩

theorem Represents.of_same (h : Represents edges p) (hp' : Forest p') (hsame : SameRoots p p') :
    Represents edges p' :=
  ⟨hp', fun e he => ⟨(hsame.items _).trans (h.items e he).1, (hsame.items _).trans (h.items e he).2⟩,
    fun x r hr => h.least x r ((hsame.roots x r).mp hr)⟩

theorem Represents.isSome_iff (h : Represents edges p) (hxy : Linked edges x y) :
    (p.parent? x).isSome = true ↔ (p.parent? y).isSome = true := by
  induction hxy with
  | rel x y he => exact iff_of_true (h.items _ he).1 (h.items _ he).2
  | refl x => exact Iff.rfl
  | symm x y _ ih => exact ih.symm
  | trans x y z _ _ ih ih' => exact ih.trans ih'

theorem Represents.alone (h : Represents edges p) (hx : p.parent? x = none) :
    IsLeast {y | Linked edges x y} x := by
  refine ⟨.refl x, fun y hy => ?_⟩
  have hout : ∀ e ∈ edges, e.1 ≠ x ∧ e.2 ≠ x := by
    refine fun e he => ⟨?_, ?_⟩
    · rintro rfl
      exact absurd (h.items e he).1 (by simp [hx])
    · rintro rfl
      exact absurd (h.items e he).2 (by simp [hx])
  exact ((Linked.alone hout hy).mp rfl).ge

theorem Represents.enter (h : Represents edges p) (x : α) :
    Represents edges (p.enter x) ∧ ((p.enter x).parent? x).isSome = true ∧
      ∀ z, (p.parent? z).isSome = true → ((p.enter x).parent? z).isSome = true := by
  obtain ⟨hforest, hitems, hroots⟩ := enter_spec h.forest x
  refine ⟨⟨hforest, fun e he => ?_, fun z r hr => ?_⟩, (hitems x).mpr (.inr rfl),
    fun z hz => (hitems z).mpr (.inl hz)⟩
  · exact ⟨(hitems _).mpr (.inl (h.items e he).1), (hitems _).mpr (.inl (h.items e he).2)⟩
  · rcases hroots z r hr with hr | ⟨hnone, rfl, rfl⟩
    · exact h.least z r hr
    · exact h.alone hnone

/-- What is found of an item is the least of its class. -/
theorem Represents.find (h : Represents edges p) (x : α) :
    ∃ r p', p.find x = some (r, p') ∧ Represents edges p' ∧ IsLeast {y | Linked edges x y} r ∧
      RootOf p' x r ∧ ∀ z, (p.parent? z).isSome = true → (p'.parent? z).isSome = true := by
  obtain ⟨henter, hx, hkeep⟩ := h.enter x
  obtain ⟨r, hclimb, hroot⟩ := climb_root henter.forest hx (below_lt_turns _ x)
  obtain ⟨p', hcompress, hforest, hsame⟩ := compress_root henter.forest hroot (below_lt_turns _ x)
  refine ⟨r, p', ?_, henter.of_same hforest hsame, henter.least x r hroot, (hsame.roots x r).mpr hroot,
    fun z hz => (hsame.items z).trans (hkeep z hz)⟩
  simp [Parents.find, hclimb, hcompress]

theorem find_present (hp : Forest p) (hx : (p.parent? x).isSome = true) :
    ∃ r p', p.find x = some (r, p') ∧ RootOf p x r ∧ Forest p' ∧ SameRoots p p' := by
  have henter : p.enter x = p := if_pos hx
  obtain ⟨r, hclimb, hroot⟩ := climb_root hp hx (below_lt_turns _ x)
  obtain ⟨p', hcompress, hforest, hsame⟩ := compress_root hp hroot (below_lt_turns _ x)
  exact ⟨r, p', by simp [Parents.find, henter, hclimb, hcompress], hroot, hforest, hsame⟩

/-- Two classes are one, of which the lesser of their least items is the least. -/
theorem Represents.link (h : Represents edges p) {a b canonical other : α}
    (ha : (p.parent? a).isSome = true) (hb : (p.parent? b).isSome = true)
    (hc : RootOf p canonical canonical) (ho : RootOf p other other) (hlt : canonical < other)
    (hends : Linked edges a canonical ∧ Linked edges b other ∨
      Linked edges a other ∧ Linked edges b canonical) :
    Represents (edges ++ [(a, b)]) (p.put (other, canonical)) := by
  obtain ⟨hforest, hitems, hroots⟩ := link_spec h.forest hc.isRoot ho.isRoot hlt
  have hjoined : Linked (edges ++ [(a, b)]) canonical other := by
    rcases hends with ⟨hac, hbo⟩ | ⟨hao, hbc⟩
    · exact linked_snoc.mpr (.inr (.inl ⟨hac.symm, hbo⟩))
    · exact linked_snoc.mpr (.inr (.inr ⟨hbc.symm, hao⟩))
  have hclass : ∀ z y, Linked (edges ++ [(a, b)]) z y →
      Linked edges z y ∨ (Linked edges z canonical ∨ Linked edges z other) ∧
        (Linked edges y canonical ∨ Linked edges y other) := by
    intro z y hzy
    rcases linked_snoc.mp hzy with hzy | ⟨hza, hby⟩ | ⟨hzb, hay⟩
    · exact .inl hzy
    · rcases hends with ⟨hac, hbo⟩ | ⟨hao, hbc⟩
      · exact .inr ⟨.inl (hza.trans hac), .inr (hby.symm.trans hbo)⟩
      · exact .inr ⟨.inr (hza.trans hao), .inl (hby.symm.trans hbc)⟩
    · rcases hends with ⟨hac, hbo⟩ | ⟨hao, hbc⟩
      · exact .inr ⟨.inr (hzb.trans hbo), .inl (hay.symm.trans hac)⟩
      · exact .inr ⟨.inl (hzb.trans hbc), .inr (hay.symm.trans hao)⟩
  have hsub : edges ⊆ edges ++ [(a, b)] := List.subset_append_left _ _
  have hleastc := h.least _ _ hc
  have hleasto := h.least _ _ ho
  refine ⟨hforest, fun e he => ?_, fun z r hr => ?_⟩
  · rw [hitems, hitems]
    rcases List.mem_append.mp he with he | he
    · exact h.items e he
    · obtain rfl := List.mem_singleton.mp he
      exact ⟨ha, hb⟩
  · rcases hroots z r hr with ⟨hroot, hne⟩ | ⟨hroot, rfl⟩
    · obtain ⟨hzr, hmin⟩ := h.least z r hroot
      refine ⟨hzr.mono hsub, fun y hy => ?_⟩
      rcases hclass z y hy with hy | ⟨hz, hy⟩
      · exact hmin hy
      · -- The class of the item is the one of `canonical`, as its root is not `other`.
        have hzc : Linked edges z canonical := by
          refine hz.resolve_right fun hzo => hne ?_
          exact (h.least z r hroot).unique (Linked.class_eq hzo ▸ hleasto)
        have hrc : r = canonical := (h.least z r hroot).unique (Linked.class_eq hzc ▸ hleastc)
        rcases hy with hy | hy
        · exact hmin (hzc.trans hy.symm)
        · exact hrc.le.trans (hlt.le.trans (hleasto.2 hy.symm))
    · obtain ⟨hzo, -⟩ := h.least z other hroot
      refine ⟨(hzo.mono hsub).trans hjoined.symm, fun y hy => ?_⟩
      rcases hclass z y hy with hy | ⟨-, hy | hy⟩
      · exact hlt.le.trans (hleasto.2 (hzo.symm.trans hy))
      · exact hleastc.2 hy.symm
      · exact hlt.le.trans (hleasto.2 hy.symm)

theorem Represents.again (h : Represents edges p) {a b : α} (ha : (p.parent? a).isSome = true)
    (hb : (p.parent? b).isSome = true) (hab : Linked edges a b) : Represents (edges ++ [(a, b)]) p := by
  refine ⟨h.forest, fun e he => ?_, fun z r hr => ?_⟩
  · rcases List.mem_append.mp he with he | he
    · exact h.items e he
    · obtain rfl := List.mem_singleton.mp he
      exact ⟨ha, hb⟩
  · have hsame : {y | Linked (edges ++ [(a, b)]) z y} = {y | Linked edges z y} := by
      ext y
      constructor
      · intro hy
        rcases linked_snoc.mp hy with hy | ⟨hza, hby⟩ | ⟨hzb, hay⟩
        · exact hy
        · exact (hza.trans hab).trans hby
        · exact (hzb.trans hab.symm).trans hay
      · exact fun hy => Linked.mono (List.subset_append_left _ _) hy
    rw [hsame]
    exact h.least z r hr

theorem Represents.union (h : Represents edges p) (a b : α) :
    ∃ p', p.union a b = some p' ∧ Represents (edges ++ [(a, b)]) p' := by
  obtain ⟨ra, p₁, hfinda, h₁, hleasta, hra, hkeep⟩ := h.find a
  obtain ⟨rb, p₂, hfindb, h₂, hleastb, hrb, hkeep'⟩ := h₁.find b
  have ha : (p₂.parent? a).isSome = true := hkeep' a hra.isSome
  have hrootA : RootOf p₂ ra ra := by
    obtain ⟨r, hr⟩ := h₂.forest.exists_root (hkeep' ra (by rw [hra.isRoot]; rfl))
    have hleast := h₂.least ra r hr
    rw [← (Linked.class_eq hleasta.1)] at hleast
    exact hleast.unique hleasta ▸ hr
  have hrootB : RootOf p₂ rb rb := .root hrb.isRoot
  unfold Parents.union
  by_cases heq : ra = rb
  · subst heq
    exact ⟨p₂, by simp [hfinda, hfindb], h₂.again ha hrb.isSome (hleasta.1.trans hleastb.1.symm)⟩
  · rcases lt_or_gt_of_ne heq with hlt | hlt
    · refine ⟨p₂.put (rb, ra), ?_, h₂.link ha hrb.isSome hrootA hrootB hlt (.inl ⟨hleasta.1, hleastb.1⟩)⟩
      simp [hfinda, hfindb, heq, hlt.le]
    · refine ⟨p₂.put (ra, rb), ?_, h₂.link ha hrb.isSome hrootB hrootA hlt (.inr ⟨hleasta.1, hleastb.1⟩)⟩
      simp [hfinda, hfindb, heq, hlt.le, not_le.mpr hlt]

/-- Joining pairs never fails, and represents the classes of the pairs. -/
theorem unions_represents (edges : List (α × α)) : ∃ p, unions edges = some p ∧ Represents edges p := by
  induction edges using List.reverseRecOn with
  | nil => exact ⟨_, rfl, represents_empty⟩
  | append_singleton edges e ih =>
    obtain ⟨p, hp, h⟩ := ih
    obtain ⟨p', hp', h'⟩ := h.union e.1 e.2
    refine ⟨p', ?_, h'⟩
    unfold unions at hp ⊢
    rw [List.foldlM_append, hp]
    simpa using hp'

theorem Reachable.represents (h : Reachable p) : ∃ edges, Represents edges p := by
  induction h with
  | empty => exact ⟨[], represents_empty⟩
  | @find p p' x r _ hfind ih =>
    obtain ⟨edges, h⟩ := ih
    obtain ⟨r', p'', hfind', h', -⟩ := h.find x
    obtain ⟨rfl, rfl⟩ := Prod.mk.inj (Option.some.inj (hfind.symm.trans hfind'))
    exact ⟨edges, h'⟩
  | @union p p' x y _ hunion ih =>
    obtain ⟨edges, h⟩ := ih
    obtain ⟨p'', hunion', h'⟩ := h.union x y
    obtain rfl := Option.some.inj (hunion.symm.trans hunion')
    exact ⟨_, h'⟩

/-- Each item is found, with the least of its class. -/
theorem Represents.findAll {β : Type} {source : β → α} {bs : List β} (h : Represents edges p)
    (hbs : ∀ b ∈ bs, (p.parent? (source b)).isSome = true) :
    ∃ found p', findAll source bs p = some (found, p') ∧ Represents edges p' ∧ SameRoots p p' ∧
      found.map Prod.snd = bs ∧ ∀ pair ∈ found, IsLeast {y | Linked edges (source pair.2) y} pair.1 := by
  induction bs generalizing p with
  | nil => exact ⟨[], p, rfl, h, .refl p, rfl, fun _ hpair => (nomatch hpair)⟩
  | cons b bs ih =>
    obtain ⟨r, p₁, hfind, hroot, hforest, hsame⟩ := find_present h.forest (hbs b List.mem_cons_self)
    obtain ⟨found, p₂, hfound, h₂, hsame₂, hsnd, hleast⟩ := ih (h.of_same hforest hsame)
      fun c hc => (hsame.items _).trans (hbs c (List.mem_cons_of_mem b hc))
    refine ⟨(r, b) :: found, p₂, by simp [Parents.findAll, hfind, hfound], h₂, hsame.trans hsame₂,
      by simp [hsnd], fun pair hpair => ?_⟩
    rcases List.mem_cons.mp hpair with rfl | hpair
    · exact h.least _ _ hroot
    · exact hleast pair hpair

end Parents

end Represents

end UniversalAgent.Foundation
