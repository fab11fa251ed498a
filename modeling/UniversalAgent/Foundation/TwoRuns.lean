import Mathlib

/-!
# Foundation — TwoRuns

Rules for comparing two runs of computations that change a state and may raise. Two runs are alike
when from related states they end alike, in related states; a run goes unseen when the state that it
leaves is related to all that the state before it was related to. Both are put together from the runs
of the parts. Along the way a state only grows, in an order of one's own.

Where every owner has a view of the state, a computation is confined to one of them if it runs alike
in the owner's view and is not seen in any other.
-/

namespace UniversalAgent.Foundation

structure TwoRuns (σ : Type) where
  rel : σ → σ → Prop
  grows : σ → σ → Prop
  grows_refl : ∀ s, grows s s
  grows_trans : ∀ {a b c}, grows a b → grows b c → grows a c

namespace TwoRuns

variable {σ ε α β γ δ : Type} (V : TwoRuns σ)

def Ends (A : α → β → Prop) (s t : σ) :
    EStateM.Result ε σ α → EStateM.Result ε σ β → Prop
  | .ok a s', .ok b t' => A a b ∧ V.rel s' t' ∧ V.grows s s' ∧ V.grows t t'
  | .error e s', .error e' t' => e = e' ∧ V.rel s' t' ∧ V.grows s s' ∧ V.grows t t'
  | .ok _ _, .error _ _ => False
  | .error _ _, .ok _ _ => False

def Alike (A : α → β → Prop) (x : EStateM ε σ α) (y : EStateM ε σ β) : Prop :=
  ∀ s t, V.rel s t → V.Ends A s t (x s) (y t)

def after : EStateM.Result ε σ α → σ
  | .ok _ s => s
  | .error _ s => s

def Unseen (x : EStateM ε σ α) : Prop :=
  ∀ s t, V.rel s t → V.rel (after (x s)) t ∧ V.grows s (after (x s))

variable {V}

/-- Two runs that end alike both return, or both raise. -/
theorem Ends.cases {A : α → β → Prop} {s t : σ} {r : EStateM.Result ε σ α}
    {r' : EStateM.Result ε σ β} (h : V.Ends A s t r r') :
    (∃ a b s' t', r = .ok a s' ∧ r' = .ok b t' ∧ A a b ∧ V.rel s' t' ∧ V.grows s s' ∧
        V.grows t t') ∨
      ∃ e s' t', r = .error e s' ∧ r' = .error e t' ∧ V.rel s' t' ∧ V.grows s s' ∧
        V.grows t t' := by
  cases r with
  | ok a s' =>
    cases r' with
    | ok b t' => exact .inl ⟨a, b, s', t', rfl, rfl, h⟩
    | error e t' => exact h.elim
  | error e s' =>
    cases r' with
    | ok b t' => exact h.elim
    | error e' t' =>
      obtain ⟨rfl, hrest⟩ := h
      exact .inr ⟨e, s', t', rfl, rfl, hrest⟩

namespace Alike

variable {A : α → β → Prop} {B : γ → δ → Prop} {x : EStateM ε σ α} {y : EStateM ε σ β}

theorem ret {a : α} {b : β} (h : A a b) :
    V.Alike A (pure a : EStateM ε σ α) (pure b : EStateM ε σ β) :=
  fun _ _ hst => ⟨h, hst, V.grows_refl _, V.grows_refl _⟩

theorem raise {e : ε} :
    V.Alike A (throw e : EStateM ε σ α) (throw e : EStateM ε σ β) :=
  fun _ _ hst => ⟨rfl, hst, V.grows_refl _, V.grows_refl _⟩

theorem bind {f : α → EStateM ε σ γ} {g : β → EStateM ε σ δ} (hx : V.Alike A x y)
    (hf : ∀ a b, A a b → V.Alike B (f a) (g b)) : V.Alike B (x >>= f) (y >>= g) := by
  intro s t hst
  rcases (hx s t hst).cases with ⟨a, b, s', t', hxs, hyt, hab, hst', hs, ht⟩ |
    ⟨e, s', t', hxs, hyt, hst', hs, ht⟩
  · rcases (hf a b hab s' t' hst').cases with ⟨c, d, s'', t'', hfs, hgt, hcd, hst'', hs', ht'⟩ |
      ⟨e, s'', t'', hfs, hgt, hst'', hs', ht'⟩
    · simp only [Bind.bind, EStateM.bind, hxs, hyt, hfs, hgt]
      exact ⟨hcd, hst'', V.grows_trans hs hs', V.grows_trans ht ht'⟩
    · simp only [Bind.bind, EStateM.bind, hxs, hyt, hfs, hgt]
      exact ⟨rfl, hst'', V.grows_trans hs hs', V.grows_trans ht ht'⟩
  · simp only [Bind.bind, EStateM.bind, hxs, hyt]
    exact ⟨rfl, hst', hs, ht⟩

theorem choose {p : Prop} [Decidable p] {x' : EStateM ε σ α} {y' : EStateM ε σ β}
    (hx : p → V.Alike A x y) (hx' : ¬p → V.Alike A x' y') :
    V.Alike A (if p then x else x') (if p then y else y') := by
  by_cases hp : p
  · rw [if_pos hp, if_pos hp]
    exact hx hp
  · rw [if_neg hp, if_neg hp]
    exact hx' hp

theorem handle {x y : EStateM ε σ α} {f g : ε → EStateM ε σ α} (hx : V.Alike Eq x y)
    (hf : ∀ e, V.Alike Eq (f e) (g e)) : V.Alike Eq (tryCatch x f) (tryCatch y g) := by
  intro s t hst
  change V.Ends Eq s t (EStateM.tryCatch x f s) (EStateM.tryCatch y g t)
  rcases (hx s t hst).cases with ⟨a, b, s', t', hxs, hyt, h⟩ | ⟨e, s', t', hxs, hyt, hst', hs, ht⟩
  · simp only [EStateM.tryCatch, hxs, hyt]
    exact h
  · simp only [EStateM.tryCatch, hxs, hyt]
    change V.Ends Eq s t (f e s') (g e t')
    rcases (hf e s' t' hst').cases with ⟨c, d, s'', t'', hfs, hgt, hcd, hst'', hs', ht'⟩ |
      ⟨e', s'', t'', hfs, hgt, hst'', hs', ht'⟩
    · rw [hfs, hgt]
      exact ⟨hcd, hst'', V.grows_trans hs hs', V.grows_trans ht ht'⟩
    · rw [hfs, hgt]
      exact ⟨rfl, hst'', V.grows_trans hs hs', V.grows_trans ht ht'⟩

end Alike

namespace Unseen

variable {x : EStateM ε σ α}

theorem ret {a : α} : V.Unseen (pure a : EStateM ε σ α) := fun _ _ hst => ⟨hst, V.grows_refl _⟩

theorem raise {e : ε} : V.Unseen (throw e : EStateM ε σ α) := fun _ _ hst => ⟨hst, V.grows_refl _⟩

theorem bind {f : α → EStateM ε σ γ} (hx : V.Unseen x) (hf : ∀ a, V.Unseen (f a)) :
    V.Unseen (x >>= f) := by
  intro s t hst
  obtain ⟨hst', hs⟩ := hx s t hst
  simp only [Bind.bind, EStateM.bind]
  cases hxs : x s with
  | ok a s' =>
    rw [hxs] at hst' hs
    obtain ⟨hst'', hs'⟩ := hf a s' t hst'
    exact ⟨hst'', V.grows_trans hs hs'⟩
  | error e s' =>
    rw [hxs] at hst' hs
    exact ⟨hst', hs⟩

theorem choose {p : Prop} [Decidable p] {x' : EStateM ε σ α} (hx : V.Unseen x)
    (hx' : V.Unseen x') : V.Unseen (if p then x else x') := by
  split_ifs
  · exact hx
  · exact hx'

theorem handle {f : ε → EStateM ε σ α} (hx : V.Unseen x) (hf : ∀ e, V.Unseen (f e)) :
    V.Unseen (tryCatch x f) := by
  intro s t hst
  obtain ⟨hst', hs⟩ := hx s t hst
  change V.rel (after (EStateM.tryCatch x f s)) t ∧ V.grows s (after (EStateM.tryCatch x f s))
  simp only [EStateM.tryCatch]
  cases hxs : x s with
  | ok a s' =>
    rw [hxs] at hst' hs
    exact ⟨hst', hs⟩
  | error e s' =>
    rw [hxs] at hst' hs
    obtain ⟨hst'', hs'⟩ := hf e s' t hst'
    exact ⟨hst'', V.grows_trans hs hs'⟩

end Unseen

/-! ## Computations of one owner -/

/-- The computation is alike in its owner's view, up to `A`, and unseen in the others'. -/
structure Confined {τ : Type} (view : τ → TwoRuns σ) (owner : τ) (A : α → α → Prop)
    (x : EStateM ε σ α) : Prop where
  alike : (view owner).Alike A x x
  unseen : ∀ other, owner ≠ other → (view other).Unseen x

namespace Confined

variable {τ : Type} {view : τ → TwoRuns σ} {owner : τ} {A : α → α → Prop} {B : γ → γ → Prop}
variable {x : EStateM ε σ α}

theorem ret {a : α} (h : A a a) : Confined view owner A (pure a : EStateM ε σ α) :=
  ⟨.ret h, fun _ _ => .ret⟩

theorem raise {e : ε} : Confined view owner A (throw e : EStateM ε σ α) :=
  ⟨.raise, fun _ _ => .raise⟩

theorem bind {f : α → EStateM ε σ γ} (hx : Confined view owner Eq x)
    (hf : ∀ a, Confined view owner B (f a)) : Confined view owner B (x >>= f) :=
  ⟨hx.alike.bind fun a _ hab => hab ▸ (hf a).alike,
    fun other hne => (hx.unseen other hne).bind fun a => (hf a).unseen other hne⟩

/-- A part whose results are alike, of which no more is kept than what is alike. -/
theorem map {g : α → γ} (hx : Confined view owner A x) (hg : ∀ a b, A a b → B (g a) (g b)) :
    Confined view owner B (x >>= fun a => pure (g a)) :=
  ⟨hx.alike.bind fun a b hab => .ret (hg a b hab),
    fun other hne => (hx.unseen other hne).bind fun _ => .ret⟩

theorem choose {p : Prop} [Decidable p] {x' : EStateM ε σ α} (hx : Confined view owner A x)
    (hx' : Confined view owner A x') : Confined view owner A (if p then x else x') :=
  ⟨.choose (fun _ => hx.alike) fun _ => hx'.alike,
    fun other hne => .choose (hx.unseen other hne) (hx'.unseen other hne)⟩

theorem handle {f : ε → EStateM ε σ α} (hx : Confined view owner Eq x)
    (hf : ∀ e, Confined view owner Eq (f e)) : Confined view owner Eq (tryCatch x f) :=
  ⟨.handle hx.alike fun e => (hf e).alike,
    fun other hne => .handle (hx.unseen other hne) fun e => (hf e).unseen other hne⟩

end Confined

end TwoRuns

end UniversalAgent.Foundation
