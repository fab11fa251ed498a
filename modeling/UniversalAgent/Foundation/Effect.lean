import Mathlib

/-!
# Foundation — Effect

Rules of pre- and postconditions for computations that change a state and may raise without
undoing what they have done. `Triple P x Q E`: from a state in `P`, the computation `x` returns in
`Q` or raises and leaves a state in `E`.
-/

namespace UniversalAgent.Foundation

universe u

variable {ε σ α β : Type u}

/-- A computation in two parts returns when both do. -/
theorem EStateM.bind_eq_ok {ε σ α β : Type u} {x : EStateM ε σ α} {f : α → EStateM ε σ β} {s t : σ}
    {b : β} : (x >>= f) s = .ok b t ↔ ∃ a r, x s = .ok a r ∧ f a r = .ok b t := by
  simp only [Bind.bind, EStateM.bind]
  cases x s with
  | ok a r => simp
  | error e r => simp

def Triple (P : σ → Prop) (x : EStateM ε σ α) (Q : α → σ → Prop) (E : σ → Prop) : Prop :=
  ∀ s, P s → match x s with
    | .ok a s' => Q a s'
    | .error _ s' => E s'

namespace Triple

variable {P P' : σ → Prop} {x : EStateM ε σ α} {Q Q' : α → σ → Prop} {E E' : σ → Prop}

variable {f : α → EStateM ε σ β} {R : β → σ → Prop}

theorem bind (hx : Triple P x Q E) (hf : ∀ a, Triple (Q a) (f a) R E) : Triple P (x >>= f) R E := by
  intro s hs
  have h := hx s hs
  simp only [Bind.bind, EStateM.bind]
  cases hr : x s with
  | ok a s' =>
    rw [hr] at h
    exact hf a s' h
  | error e s' =>
    rw [hr] at h
    exact h

/-- What follows a computation that never returns does not matter. -/
theorem stop (hx : Triple P x (fun _ _ => False) E) :
    Triple P (x >>= f) R E := hx.bind fun _ _ h => h.elim

theorem ret {a : α} (h : ∀ s, P s → Q a s) : Triple P (pure a : EStateM ε σ α) Q E := fun s hs => h s hs

theorem raise {e : ε} (h : ∀ s, P s → E s) : Triple P (throw e) Q E := fun s hs => h s hs

theorem update {f : σ → σ} {Q : PUnit → σ → Prop} (h : ∀ s, P s → Q ⟨⟩ (f s)) :
    Triple P (modify f : EStateM ε σ PUnit) Q E := fun s hs => h s hs

/-- A computation that starts by reading the state is judged at each state apart. -/
theorem read {f : σ → EStateM ε σ β}
    (h : ∀ t, P t → Triple (fun s => s = t) (f t) R E) : Triple P (get >>= f) R E := by
  intro s hs
  exact h s hs s rfl

theorem write {t : σ} {Q : PUnit → σ → Prop} (h : ∀ s, P s → Q ⟨⟩ t) : Triple P (set t : EStateM ε σ PUnit) Q E :=
  fun s hs => h s hs

theorem guard {c : Prop} [Decidable c] {e : ε} {y : EStateM ε σ α}
    (hc : c → ∀ s, P s → E s) (hy : ¬ c → Triple P y Q E) :
    Triple P (if c then throw e else y) Q E := by
  by_cases h : c
  · rw [if_pos h]
    exact fun s hs => hc h s hs
  · rw [if_neg h]
    exact hy h

theorem weaken (h : Triple P x Q E) (hp : ∀ s, P' s → P s) (hq : ∀ a s, Q a s → Q' a s)
    (he : ∀ s, E s → E' s) : Triple P' x Q' E' := by
  intro s hs
  have h := h s (hp s hs)
  cases hr : x s with
  | ok a s' =>
    rw [hr] at h
    exact hq a s' h
  | error e s' =>
    rw [hr] at h
    exact he s' h

/-- What a handler does starts where the computation raised; nothing is undone before it. -/
theorem tryCatch {handle : ε → EStateM ε σ α} {E' : σ → Prop} (hx : Triple P x Q E')
    (hh : ∀ e, Triple E' (handle e) Q E) : Triple P (tryCatch x handle) Q E := by
  intro s hs
  have h := hx s hs
  change match EStateM.tryCatch x handle s with
    | .ok a s' => Q a s'
    | .error _ s' => E s'
  unfold EStateM.tryCatch
  cases hr : x s with
  | ok a s' =>
    rw [hr] at h
    exact h
  | error e s' =>
    rw [hr] at h
    exact hh e s' h

/-- Two postconditions that hold apart hold together. -/
theorem and {P₂ : σ → Prop} {Q₂ : α → σ → Prop} {E₂ : σ → Prop} (h : Triple P x Q E)
    (h₂ : Triple P₂ x Q₂ E₂) :
    Triple (fun s => P s ∧ P₂ s) x (fun a s => Q a s ∧ Q₂ a s) (fun s => E s ∧ E₂ s) := by
  intro s hs
  have h := h s hs.1
  have h₂ := h₂ s hs.2
  cases hr : x s with
  | ok a s' =>
    rw [hr] at h h₂
    exact ⟨h, h₂⟩
  | error e s' =>
    rw [hr] at h h₂
    exact ⟨h, h₂⟩

/-- A fact that does not depend on the state can be used in the proof. -/
theorem assume {c : Prop} (h : c → Triple P x Q E) : Triple (fun s => c ∧ P s) x Q E :=
  fun s hs => h hs.1 s hs.2

end Triple

end UniversalAgent.Foundation
