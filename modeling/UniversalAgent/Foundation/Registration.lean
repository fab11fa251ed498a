import UniversalAgent.Foundation.Effect
import UniversalAgent.Foundation.Table

/-!
# Foundation — Registration

Rows that are put into a table one after another, each under a key that must be free. A row whose key is
taken ends it; what was put in before stays.
-/

namespace UniversalAgent.Foundation

variable {ε α κ : Type} {key : α → κ} [DecidableEq κ]

def register (taken : κ → ε) (a : α) : EStateM ε (Table key) α := fun t =>
  if (t.get? (key a)).isSome then .error (taken (key a)) t else .ok a (t.put a)

/-- `for a in items: register(a)`. -/
def registerAll (taken : κ → ε) : List α → EStateM ε (Table key) PUnit
  | [] => pure ⟨⟩
  | a :: items => do
      let _ ← register taken a
      registerAll taken items

def registerFound (taken : κ → ε) (found : Except ε (List α)) : EStateM ε (Table key) (List α) := fun t =>
  match found with
  | .error e => .error e t
  | .ok items => (do
      registerAll taken items
      return items : EStateM ε (Table key) (List α)) t

def Registrable (t : Table key) (items : List α) : Prop :=
  (items.map key).Nodup ∧ ∀ a ∈ items, t.get? (key a) = none

/-- What raises changes nothing; else the rows are those before, and after them the new ones. -/
def AllOrNothing (t : Table key) : EStateM.Result ε (Table key) (List α) → Prop
  | .error _ t' => t' = t
  | .ok items t' => t'.rows = t.rows ++ items

instance [DecidableEq α] (t : Table key) :
    (r : EStateM.Result ε (Table key) (List α)) → Decidable (AllOrNothing t r)
  | .error _ t' => inferInstanceAs (Decidable (t' = t))
  | .ok items t' => inferInstanceAs (Decidable (t'.rows = t.rows ++ items))

variable {taken : κ → ε} {t : Table key} {a : α} {items : List α}

theorem register_free (h : t.get? (key a) = none) : register taken a t = .ok a (t.put a) := by
  rw [register, h]
  rfl

theorem register_taken (h : t.get? (key a) ≠ none) : register taken a t = .error (taken (key a)) t := by
  rw [register, if_pos (Option.isSome_iff_ne_none.mpr h)]

theorem registerAll_cons_free (h : t.get? (key a) = none) :
    registerAll taken (a :: items) t = registerAll taken items (t.put a) := by
  rw [registerAll]
  simp only [Bind.bind, EStateM.bind, register_free h]

theorem registerAll_cons_taken (h : t.get? (key a) ≠ none) :
    registerAll taken (a :: items) t = .error (taken (key a)) t := by
  rw [registerAll]
  simp only [Bind.bind, EStateM.bind, register_taken h]

theorem registrable_cons :
    Registrable t (a :: items) ↔ t.get? (key a) = none ∧ Registrable (t.put a) items := by
  rw [Registrable, Registrable, List.map_cons, List.nodup_cons, List.forall_mem_cons]
  constructor
  · rintro ⟨⟨hnew, hnodup⟩, hfree, hrest⟩
    refine ⟨hfree, hnodup, fun b hb => ?_⟩
    have hne : key b ≠ key a := fun heq => hnew (List.mem_map.mpr ⟨b, hb, heq⟩)
    rw [Table.get?_put_ne _ hne]
    exact hrest b hb
  · rintro ⟨hfree, hnodup, hrest⟩
    have hnew : ∀ b ∈ items, key b ≠ key a := by
      intro b hb heq
      have hput := hrest b hb
      rw [Table.get?_put, if_pos heq] at hput
      cases hput
    refine ⟨⟨fun hmem => ?_, hnodup⟩, hfree, fun b hb => ?_⟩
    · obtain ⟨b, hb, heq⟩ := List.mem_map.mp hmem
      exact hnew b hb heq
    · rw [← hrest b hb, Table.get?_put_ne _ (hnew b hb)]

theorem registerAll_registrable (h : Registrable t items) :
    ∃ t', registerAll taken items t = .ok ⟨⟩ t' ∧ t'.rows = t.rows ++ items := by
  induction items generalizing t with
  | nil => exact ⟨t, rfl, (List.append_nil _).symm⟩
  | cons a items ih =>
    obtain ⟨hfree, hrest⟩ := registrable_cons.mp h
    obtain ⟨t', hrun, hrows⟩ := ih hrest
    refine ⟨t', (registerAll_cons_free hfree).trans hrun, ?_⟩
    rw [hrows, Table.rows_put_of_fresh hfree, List.append_assoc, List.singleton_append]

/-- Rows that cannot all be registered are registered up to the first whose key is taken. -/
theorem registerAll_stopped (h : ¬Registrable t items) :
    ∃ before a after t', items = before ++ a :: after ∧ registerAll taken items t = .error (taken (key a)) t' ∧
      t'.rows = t.rows ++ before ∧ t'.get? (key a) ≠ none := by
  induction items generalizing t with
  | nil => exact absurd ⟨List.nodup_nil, nofun⟩ h
  | cons a items ih =>
    by_cases hfree : t.get? (key a) = none
    · have hrest : ¬Registrable (t.put a) items := fun hrest => h (registrable_cons.mpr ⟨hfree, hrest⟩)
      obtain ⟨before, b, after, t', rfl, hrun, hrows, htaken⟩ := ih hrest
      refine ⟨a :: before, b, after, t', rfl, (registerAll_cons_free hfree).trans hrun, ?_, htaken⟩
      rw [hrows, Table.rows_put_of_fresh hfree, List.append_assoc, List.singleton_append]
    · exact ⟨[], a, items, t, rfl, registerAll_cons_taken hfree, (List.append_nil _).symm, hfree⟩

/-- Registration is all or nothing if the rows can all be registered or the first of them is refused. -/
theorem registerFound_allOrNothing_iff {found : Except ε (List α)} :
    AllOrNothing t (registerFound taken found t) ↔
      ∀ items, found = .ok items → Registrable t items ∨ ∃ a ∈ items.head?, t.get? (key a) ≠ none := by
  cases found with
  | error e => exact iff_of_true rfl nofun
  | ok items =>
    simp only [registerFound, Bind.bind, EStateM.bind, Except.ok.injEq, forall_eq']
    by_cases h : Registrable t items
    · obtain ⟨t', hrun, hrows⟩ := @registerAll_registrable _ _ _ _ _ taken _ _ h
      rw [hrun]
      exact iff_of_true hrows (.inl h)
    · obtain ⟨before, a, after, t', rfl, hrun, hrows, htaken⟩ := @registerAll_stopped _ _ _ _ _ taken _ _ h
      rw [hrun]
      constructor
      · intro hsame
        obtain rfl : t' = t := hsame
        obtain rfl := List.append_right_eq_self.mp hrows.symm
        exact .inr ⟨a, rfl, htaken⟩
      · rintro (hall | ⟨b, hb, htaken'⟩)
        · exact absurd hall h
        · cases before with
          | nil => exact Table.ext (hrows.trans (List.append_nil _))
          | cons c before =>
            obtain rfl := Option.some.inj hb
            rw [List.cons_append] at hrun
            rw [registerAll_cons_taken htaken'] at hrun
            exact (EStateM.Result.error.inj hrun).2.symm

end UniversalAgent.Foundation
