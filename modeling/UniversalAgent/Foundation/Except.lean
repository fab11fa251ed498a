import Mathlib

/-!
# Foundation — Except

Computations that may fail, one after another: when a sequence succeeds, and when a map over a
list does. `ReadsAs copy f g a` says that what `f` makes of `a` is read back by `g` as the copy of
`a`; it passes to lists.
-/

namespace UniversalAgent.Foundation

universe u v w

variable {ε : Type u} {δ : Type u} {α β : Type v}

variable {f : α → Except ε β} {xs : List α} {ys : List β}

/-- A sequence succeeds when its first step does and the rest does with its result. -/
theorem Except.bind_eq_ok {x : Except ε α} {b : β} : (x >>= f) = .ok b ↔ ∃ a, x = .ok a ∧ f a = .ok b := by
  cases x with
  | error e => simp [bind, Except.bind]
  | ok a => simp [bind, Except.bind]

@[simp] theorem Except.ok_bind (a : α) (f : α → Except ε β) : (Except.ok a >>= f) = f a := rfl

/-- Results are told apart through a map that tells them apart. -/
theorem Except.map_inj {f : α → β} (hf : Function.Injective f) {x y : Except ε α} :
    x.map f = y.map f ↔ x = y := by
  cases x <;> cases y <;> simp [Except.map, hf.eq_iff]

/-- What follows from the success of the rest follows from that of the whole. -/
theorem Except.of_bind_eq_ok {x : Except ε α} {b : β} {P : Prop}
    (h : (x >>= f) = .ok b) (hf : ∀ a, f a = .ok b → P) : P := by
  obtain ⟨a, -, ha⟩ := Except.bind_eq_ok.mp h
  exact hf a ha

/-- A check of every item succeeds when the check of each does. -/
theorem Except.forM_eq_ok {f : α → Except ε PUnit} : xs.forM f = .ok ⟨⟩ ↔ ∀ x ∈ xs, f x = .ok ⟨⟩ := by
  induction xs with
  | nil => exact iff_of_true rfl nofun
  | cons x xs ih =>
    change (f x >>= fun _ => xs.forM f) = .ok ⟨⟩ ↔ _
    rw [Except.bind_eq_ok, List.forall_mem_cons]
    constructor
    · rintro ⟨_, hx, hxs⟩
      exact ⟨hx, ih.mp hxs⟩
    · rintro ⟨hx, hxs⟩
      exact ⟨⟨⟩, hx, ih.mpr hxs⟩

/-- A record built around one computed part comes out as `b` when the part comes out as the one
that `b` has. -/
theorem Except.bind_mk_eq_ok {x : Except ε α} (mk : α → β) (part : β → α) {b : β}
    (hpart : ∀ a, part (mk a) = a) (hb : mk (part b) = b) :
    (x >>= fun a => pure (mk a)) = .ok b ↔ x = .ok (part b) := by
  rw [Except.bind_eq_ok]
  constructor
  · rintro ⟨a, hx, h⟩
    rw [hx, ← Except.ok.inj h, hpart]
  · intro hx
    exact ⟨part b, hx, by rw [hb]; rfl⟩

theorem Except.mapM_eq_ok : xs.mapM f = .ok ys ↔ List.Forall₂ (fun x y => f x = .ok y) xs ys := by
  induction xs generalizing ys with
  | nil =>
    cases ys with
    | nil => exact iff_of_true rfl .nil
    | cons y ys => exact iff_of_false (by simp [pure, Except.pure]) nofun
  | cons x xs ih =>
    rw [List.mapM_cons, Except.bind_eq_ok]
    constructor
    · rintro ⟨y, hy, h⟩
      obtain ⟨zs, hzs, h⟩ := Except.bind_eq_ok.mp h
      cases h
      exact .cons hy (ih.mp hzs)
    · rintro (_ | ⟨hy, hys⟩)
      exact ⟨_, hy, Except.bind_eq_ok.mpr ⟨_, ih.mpr hys, rfl⟩⟩

theorem Except.exists_of_mapM_eq_ok (h : xs.mapM f = .ok ys) : ∀ x ∈ xs, ∃ y ∈ ys, f x = .ok y := by
  rw [Except.mapM_eq_ok] at h
  induction h with
  | nil => simp
  | cons hy hs ih =>
    intro x hx
    rcases List.mem_cons.mp hx with rfl | hx
    · exact ⟨_, List.mem_cons_self, hy⟩
    · obtain ⟨y, hmem, hf⟩ := ih x hx
      exact ⟨y, List.mem_cons_of_mem _ hmem, hf⟩

theorem Except.exists_of_mem_mapM (h : xs.mapM f = .ok ys) : ∀ y ∈ ys, ∃ x ∈ xs, f x = .ok y := by
  rw [Except.mapM_eq_ok] at h
  induction h with
  | nil => simp
  | cons hy hs ih =>
    intro y hmem
    rcases List.mem_cons.mp hmem with rfl | hmem
    · exact ⟨_, List.mem_cons_self, hy⟩
    · obtain ⟨x, hx, hf⟩ := ih y hmem
      exact ⟨x, List.mem_cons_of_mem _ hx, hf⟩

theorem Except.exists_mapM_eq_ok (h : ∀ x ∈ xs, ∃ y, f x = .ok y) : ∃ ys, xs.mapM f = .ok ys := by
  induction xs with
  | nil => exact ⟨[], rfl⟩
  | cons x xs ih =>
    obtain ⟨y, hy⟩ := h x List.mem_cons_self
    obtain ⟨ys, hys⟩ := ih fun z hz => h z (List.mem_cons_of_mem x hz)
    exact ⟨y :: ys, Except.mapM_eq_ok.mpr (.cons hy (Except.mapM_eq_ok.mp hys))⟩

theorem Except.exists_of_mapM_eq_error {e : ε} (h : xs.mapM f = .error e) : ∃ x ∈ xs, f x = .error e := by
  induction xs with
  | nil => cases h
  | cons x xs ih =>
    rw [List.mapM_cons] at h
    cases hx : f x with
    | error e' =>
      rw [hx] at h
      cases h
      exact ⟨x, List.mem_cons_self, hx⟩
    | ok y =>
      cases hxs : xs.mapM f with
      | error e' =>
        rw [hx, hxs] at h
        cases h
        obtain ⟨z, hz, hf⟩ := ih hxs
        exact ⟨z, List.mem_cons_of_mem x hz, hf⟩
      | ok ys =>
        rw [hx, hxs] at h
        cases h

/-! ## What is raised -/

def Except.Raises (P : ε → Prop) (x : Except ε α) : Prop := ∀ e, x = .error e → P e

namespace Except.Raises

variable {P : ε → Prop} {x : Except ε α}

theorem ok (a : α) : Except.Raises P (.ok a : Except ε α) := nofun

theorem error {e : ε} (h : P e) : Except.Raises P (.error e : Except ε α) := by
  intro e' heq
  obtain rfl := Except.error.inj heq
  exact h

theorem bind {f : α → Except ε β} (hx : Except.Raises P x) (hf : ∀ a, x = .ok a → Except.Raises P (f a)) :
    Except.Raises P (x >>= f) := by
  cases x with
  | error e => exact error (hx e rfl)
  | ok a => exact hf a rfl

theorem ite {c : Prop} [Decidable c] {y : Except ε α} (hx : c → Except.Raises P x)
    (hy : ¬c → Except.Raises P y) : Except.Raises P (if c then x else y) := by
  split
  · next h => exact hx h
  · next h => exact hy h

theorem mapM {f : α → Except ε β} {xs : List α} (h : ∀ a, Except.Raises P (f a)) :
    Except.Raises P (xs.mapM f) := by
  intro e he
  obtain ⟨a, -, ha⟩ := Except.exists_of_mapM_eq_error he
  exact h a e ha

end Except.Raises

/-- A map leaves a list as it is exactly when it leaves every element as it is. -/
theorem Except.mapM_eq_self {f : α → Except ε α} {xs : List α} :
    xs.mapM f = .ok xs ↔ ∀ x ∈ xs, f x = .ok x := by
  rw [Except.mapM_eq_ok, List.forall₂_same]

/-- What `f` makes of `a` is read back by `g` as what `copy` makes of it, and `f` succeeds on
what `copy` does. -/
structure ReadsAs (copy : α → Except ε α) (f : α → Except ε β) (g : β → Except δ α) (a : α) :
    Prop where
  read : ∀ t, copy a = .ok t → ∃ v, f a = .ok v ∧ g v = .ok t
  copied : ∀ v, f a = .ok v → ∃ t, copy a = .ok t

theorem ReadsAs.mapM {copy : α → Except ε α} {f : α → Except ε β} {g : β → Except δ α}
    {xs : List α} (h : ∀ x ∈ xs, ReadsAs copy f g x) :
    ReadsAs (List.mapM copy) (List.mapM f) (List.mapM g) xs := by
  induction xs with
  | nil =>
    refine ⟨fun t ht => ⟨[], rfl, ?_⟩, fun v _ => ⟨[], rfl⟩⟩
    cases ht
    rfl
  | cons x xs ih =>
    have hx := h x List.mem_cons_self
    have hs := ih fun y hy => h y (List.mem_cons_of_mem x hy)
    constructor
    · intro t ht
      obtain ⟨u, us, hu, hus⟩ := List.forall₂_cons_left_iff.mp (Except.mapM_eq_ok.mp ht)
      obtain ⟨v, hf, hg⟩ := hx.read u hu
      obtain ⟨vs, hfs, hgs⟩ := hs.read us (Except.mapM_eq_ok.mpr hus.1)
      rw [hus.2]
      exact ⟨v :: vs, Except.mapM_eq_ok.mpr (.cons hf (Except.mapM_eq_ok.mp hfs)),
        Except.mapM_eq_ok.mpr (.cons hg (Except.mapM_eq_ok.mp hgs))⟩
    · intro vs hvs
      obtain ⟨v, ws, hv, hws⟩ := List.forall₂_cons_left_iff.mp (Except.mapM_eq_ok.mp hvs)
      obtain ⟨u, hu⟩ := hx.copied v hv
      obtain ⟨us, hus⟩ := hs.copied ws (Except.mapM_eq_ok.mpr hws.1)
      exact ⟨u :: us, Except.mapM_eq_ok.mpr (.cons hu (Except.mapM_eq_ok.mp hus))⟩

end UniversalAgent.Foundation
