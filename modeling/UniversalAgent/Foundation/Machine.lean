import Mathlib

/-!
# Foundation — Machine

Deterministic machines that answer every input: `step` takes a state and an input to an
output and a next state. A run of a machine is a list of inputs; `history` pairs each input
with the answer it got, `state` is where the run ends.

Properties of whole runs come from a few rules.

* `Machine.induct`: an invariant of history and state, kept by one step.
* `Machine.Meets`: a condition on every step of a run, so that a property may be claimed
  only of the runs whose steps all meet it.
* `Machine.lockstep` and `Machine.simulate`: two machines fed the same inputs, related state
  by state, answer alike.
* `Machine.unwind`: a run, and the run of those of its inputs that are of one party, give that
  party the same answers.
* `Machine.isolated_iff`: the runs in which that is so for every party.
-/

namespace UniversalAgent.Foundation

universe u v w

structure Machine (σ : Type u) (ι : Type v) (ο : Type w) where
  init : σ
  step : σ → ι → ο × σ

namespace Machine

variable {σ : Type u} {ι : Type v} {ο : Type w}

def runFrom (m : Machine σ ι ο) : σ → List ι → List (ι × ο) × σ
  | s, [] => ([], s)
  | s, i :: is =>
    let r := m.step s i
    let rest := m.runFrom r.2 is
    ((i, r.1) :: rest.1, rest.2)

def history (m : Machine σ ι ο) (is : List ι) : List (ι × ο) := (m.runFrom m.init is).1

def state (m : Machine σ ι ο) (is : List ι) : σ := (m.runFrom m.init is).2

def answers (m : Machine σ ι ο) (is : List ι) : List ο := (m.history is).map Prod.snd

theorem runFrom_append (m : Machine σ ι ο) (s : σ) (is js : List ι) :
    m.runFrom s (is ++ js)
      = ((m.runFrom s is).1 ++ (m.runFrom (m.runFrom s is).2 js).1,
          (m.runFrom (m.runFrom s is).2 js).2) := by
  induction is generalizing s with
  | nil => rfl
  | cons i is ih => simp only [List.cons_append, runFrom, ih]

@[simp] theorem history_nil (m : Machine σ ι ο) : m.history [] = [] := rfl

@[simp] theorem state_nil (m : Machine σ ι ο) : m.state [] = m.init := rfl

theorem history_snoc (m : Machine σ ι ο) (is : List ι) (i : ι) :
    m.history (is ++ [i]) = m.history is ++ [(i, (m.step (m.state is) i).1)] := by
  simp only [history, state, runFrom_append, runFrom]

theorem state_snoc (m : Machine σ ι ο) (is : List ι) (i : ι) :
    m.state (is ++ [i]) = (m.step (m.state is) i).2 := by
  simp only [state, runFrom_append, runFrom]

/-- The steps of a run: the state before each, its input and its answer. -/
def traceFrom (m : Machine σ ι ο) : σ → List ι → List (σ × ι × ο)
  | _, [] => []
  | s, i :: is => (s, i, (m.step s i).1) :: m.traceFrom (m.step s i).2 is

def trace (m : Machine σ ι ο) (is : List ι) : List (σ × ι × ο) := m.traceFrom m.init is

theorem traceFrom_append (m : Machine σ ι ο) (s : σ) (is js : List ι) :
    m.traceFrom s (is ++ js) = m.traceFrom s is ++ m.traceFrom (m.runFrom s is).2 js := by
  induction is generalizing s with
  | nil => rfl
  | cons i is ih => simp only [List.cons_append, traceFrom, runFrom, ih]

theorem trace_snoc (m : Machine σ ι ο) (is : List ι) (i : ι) :
    m.trace (is ++ [i]) = m.trace is ++ [(m.state is, i, (m.step (m.state is) i).1)] := by
  simp only [trace, state, traceFrom_append, traceFrom]

/-- Every step of the run meets `C`, a condition on what was answered before the step, the
state before it and its input. -/
def Meets (m : Machine σ ι ο) (C : List (ι × ο) → σ → ι → Prop) (is : List ι) : Prop :=
  ∀ pre i post, is = pre ++ i :: post → C (m.history pre) (m.state pre) i

theorem Meets.nil (m : Machine σ ι ο) (C : List (ι × ο) → σ → ι → Prop) : m.Meets C [] := by
  intro pre i post h
  simp at h

variable {m : Machine σ ι ο} {C : List (ι × ο) → σ → ι → Prop} {is : List ι} {τ : Type u} {ο' : Type w}

theorem meets_snoc {i : ι} : m.Meets C (is ++ [i]) ↔ m.Meets C is ∧ C (m.history is) (m.state is) i := by
  constructor
  · intro h
    refine ⟨fun pre j post hp => h pre j (post ++ [i]) (by simp [hp]), h is i [] rfl⟩
  · rintro ⟨h, hi⟩ pre j post hp
    rcases List.eq_nil_or_concat post with rfl | ⟨post', k, rfl⟩
    · obtain ⟨rfl, hj⟩ := List.append_inj' hp rfl
      cases hj
      exact hi
    · rw [List.concat_eq_append, ← List.cons_append, ← List.append_assoc] at hp
      exact h pre j post' (List.append_inj' hp rfl).1

/-- The condition, checked along a run from a state: the form that can be decided. -/
def MeetsFrom (m : Machine σ ι ο) (C : List (ι × ο) → σ → ι → Prop) :
    List (ι × ο) → σ → List ι → Prop
  | _, _, [] => True
  | h, s, i :: is => C h s i ∧ m.MeetsFrom C (h ++ [(i, (m.step s i).1)]) (m.step s i).2 is

instance decidableMeetsFrom (m : Machine σ ι ο) (C : List (ι × ο) → σ → ι → Prop)
    [∀ h s i, Decidable (C h s i)] : ∀ h s is, Decidable (m.MeetsFrom C h s is)
  | _, _, [] => .isTrue trivial
  | h, s, i :: is =>
    @instDecidableAnd _ _ inferInstance
      (decidableMeetsFrom m C (h ++ [(i, (m.step s i).1)]) (m.step s i).2 is)

theorem meetsFrom_snoc (m : Machine σ ι ο) (C : List (ι × ο) → σ → ι → Prop) (pre is : List ι)
    (i : ι) :
    m.MeetsFrom C (m.history pre) (m.state pre) (is ++ [i]) ↔
      m.MeetsFrom C (m.history pre) (m.state pre) is ∧
        C (m.history (pre ++ is)) (m.state (pre ++ is)) i := by
  induction is generalizing pre with
  | nil => simp [MeetsFrom]
  | cons j is ih =>
    have h := ih (pre ++ [j])
    rw [history_snoc, state_snoc, List.append_assoc, List.singleton_append] at h
    simp only [List.cons_append, MeetsFrom, h, and_assoc]

theorem meets_iff : m.Meets C is ↔ m.MeetsFrom C [] m.init is := by
  induction is using List.reverseRecOn with
  | nil => exact iff_of_true (Meets.nil m C) trivial
  | append_singleton is i ih =>
    have h := meetsFrom_snoc m C [] is i
    rw [meets_snoc, ih]
    simpa using h.symm

instance (m : Machine σ ι ο) (C : List (ι × ο) → σ → ι → Prop) [∀ h s i, Decidable (C h s i)]
    (is : List ι) : Decidable (m.Meets C is) := decidable_of_iff _ meets_iff.symm

/-- A condition on one machine's steps is met where a condition on another's is, if it
follows at every step. -/
theorem Meets.transfer {n : Machine τ ι ο}
    {D : List (ι × ο) → τ → ι → Prop}
    (h : m.Meets C is)
    (hcd : ∀ pre i, C (m.history pre) (m.state pre) i → D (n.history pre) (n.state pre) i) :
    n.Meets D is := fun pre i post hp => hcd pre i (h pre i post hp)

/-- **The invariant rule.** What holds at the start and is kept by every step that meets
`C` holds of the history and the state of every run whose steps meet `C`. -/
theorem induct (m : Machine σ ι ο)
    (I : List (ι × ο) → σ → Prop) (h0 : I [] m.init)
    (hs : ∀ h s i, I h s → C h s i → I (h ++ [(i, (m.step s i).1)]) (m.step s i).2)
    (hm : m.Meets C is) : I (m.history is) (m.state is) := by
  induction is using List.reverseRecOn with
  | nil => exact h0
  | append_singleton is i ih =>
    obtain ⟨hm', hc⟩ := meets_snoc.mp hm
    rw [history_snoc, state_snoc]
    exact hs _ _ _ (ih hm') hc

/-- The rule for invariants of the state alone, over every run. -/
theorem invariant (m : Machine σ ι ο) (I : σ → Prop) (h0 : I m.init)
    (hs : ∀ s i, I s → I (m.step s i).2) (is : List ι) : I (m.state is) :=
  m.induct (C := fun _ _ _ => True) (fun _ s => I s) h0 (fun _ s i h _ => hs s i h)
    (fun _ _ _ _ => trivial)

/-- The rule for invariants of the steps taken and the state. -/
theorem along (m : Machine σ ι ο) (I : List (σ × ι × ο) → σ → Prop) (h0 : I [] m.init)
    (hs : ∀ t s i, I t s → I (t ++ [(s, i, (m.step s i).1)]) (m.step s i).2) (is : List ι) :
    I (m.trace is) (m.state is) := by
  induction is using List.reverseRecOn with
  | nil => exact h0
  | append_singleton is i ih =>
    rw [trace_snoc, state_snoc]
    exact hs _ _ _ ih

/-- **The lockstep rule.** Two machines whose starts are related, and whose steps on one
input answer alike (up to `E`) and stay related while the first meets `C`, answer alike on
every run whose steps meet `C`. -/
theorem lockstep (m : Machine σ ι ο) (n : Machine τ ι ο')
    (R : List (ι × ο) → σ → τ → Prop) (E : ο → ο' → Prop)
    (h0 : R [] m.init n.init)
    (hs : ∀ h s t i, R h s t → C h s i →
      E (m.step s i).1 (n.step t i).1 ∧ R (h ++ [(i, (m.step s i).1)]) (m.step s i).2 (n.step t i).2)
    (hm : m.Meets C is) :
    List.Forall₂ E (m.answers is) (n.answers is) ∧ R (m.history is) (m.state is) (n.state is) := by
  induction is using List.reverseRecOn with
  | nil => exact ⟨.nil, h0⟩
  | append_singleton is i ih =>
    obtain ⟨hm', hc⟩ := meets_snoc.mp hm
    obtain ⟨ha, hr⟩ := ih hm'
    obtain ⟨he, hr'⟩ := hs _ _ _ _ hr hc
    simp only [answers, history_snoc, state_snoc, List.map_append, List.map_singleton] at ha ⊢
    exact ⟨List.rel_append ha (.cons he .nil), hr'⟩

/-- **The unwinding rule.** Where the inputs of the other parties keep a relation to a run
without them, and the party's own inputs keep it and answer alike, the party's part of the
history is the history of its inputs alone. -/
theorem unwind (m : Machine σ ι ο) (mine : ι → Bool)
    (R : σ → σ → Prop) (h0 : R m.init m.init)
    (hother : ∀ h s t i, mine i = false → R s t → C h s i → R (m.step s i).2 t)
    (hmine : ∀ h s t i, mine i = true → R s t → C h s i →
      (m.step s i).1 = (m.step t i).1 ∧ R (m.step s i).2 (m.step t i).2)
    (hm : m.Meets C is) :
    (m.history is).filter (fun x => mine x.1) = m.history (is.filter mine) ∧
      R (m.state is) (m.state (is.filter mine)) := by
  induction is using List.reverseRecOn with
  | nil => exact ⟨rfl, h0⟩
  | append_singleton is i ih =>
    obtain ⟨hm', hc⟩ := meets_snoc.mp hm
    obtain ⟨hh, hr⟩ := ih hm'
    rw [history_snoc, state_snoc, List.filter_append, List.filter_append, hh]
    cases hi : mine i with
    | false =>
      have hr' := hother _ _ _ i hi hr hc
      simpa [hi] using hr'
    | true =>
      obtain ⟨ha, hr'⟩ := hmine _ _ _ i hi hr hc
      have hfilter : [i].filter mine = [i] := by simp [hi]
      rw [hfilter, history_snoc, state_snoc, ← ha]
      exact ⟨by simp [hi], hr'⟩

def relabel {ο' : Type w} (m : Machine σ ι ο) (f : ο → ο') : Machine σ ι ο' where
  init := m.init
  step s i := (f (m.step s i).1, (m.step s i).2)

theorem state_relabel (m : Machine σ ι ο) (f : ο → ο') (is : List ι) :
    (m.relabel f).state is = m.state is := by
  induction is using List.reverseRecOn with
  | nil => rfl
  | append_singleton is i ih =>
    rw [state_snoc, state_snoc, ih]
    rfl

theorem history_relabel (m : Machine σ ι ο) (f : ο → ο') (is : List ι) :
    (m.relabel f).history is = (m.history is).map fun x => (x.1, f x.2) := by
  induction is using List.reverseRecOn with
  | nil => rfl
  | append_singleton is i ih =>
    rw [history_snoc, history_snoc, ih, state_relabel, List.map_append]
    rfl

/-- Every party's part of the history, as far as the party is told of the answers, is the history of
its own inputs alone. -/
def Isolated {π : Type} {ο' : Type w} [DecidableEq π] (m : Machine σ ι ο) (party : ι → π) (told : π → ο → ο')
    (is : List ι) : Prop :=
  ∀ p, ((m.history is).filter fun x => party x.1 = p).map (fun x => (x.1, told p x.2)) =
    (m.history (is.filter fun i => party i = p)).map fun x => (x.1, told p x.2)

/-- **The isolation rule.** Where a step that meets `C` keeps what every party sees, and a step
that does not is answered otherwise than to the party alone, the runs in which the parties are
isolated are those whose steps all meet `C`. -/
theorem isolated_iff {π : Type} [DecidableEq π] (m : Machine σ ι ο) (party : ι → π)
    (told : π → ο → ο') {C : σ → ι → Prop} (R : π → σ → σ → Prop)
    (h0 : ∀ p, R p m.init m.init)
    (hother : ∀ p s t i, party i ≠ p → R p s t → C s i → R p (m.step s i).2 t)
    (hmine : ∀ s t i, R (party i) s t → C s i → R (party i) (m.step s i).2 (m.step t i).2)
    (htold : ∀ s t i, R (party i) s t →
      (told (party i) (m.step s i).1 = told (party i) (m.step t i).1 ↔ C s i))
    (is : List ι) : m.Isolated party told is ↔ m.Meets (fun _ => C) is := by
  have hseen : ∀ p is, m.Meets (fun _ => C) is → R p (m.state is) (m.state (is.filter fun i => party i = p)) ∧
      ((m.history is).filter fun x => party x.1 = p).map (fun x => (x.1, told p x.2)) =
        (m.history (is.filter fun i => party i = p)).map fun x => (x.1, told p x.2) := by
    intro p is hm
    have h := (m.relabel (told p)).unwind (fun i => decide (party i = p))
      (C := fun _ => C) (R p) (h0 p)
      (fun _ s t i hi hr hc => hother p s t i (by simpa using hi) hr hc)
      (fun _ s t i hi hr hc => by
        obtain rfl : party i = p := by simpa using hi
        exact ⟨(htold s t i hr).mpr hc, hmine s t i hr hc⟩)
      fun pre i post hp => state_relabel m _ pre ▸ hm pre i post hp
    rw [history_relabel, history_relabel, List.filter_map, state_relabel, state_relabel] at h
    exact ⟨h.2, h.1⟩
  refine ⟨fun hi => ?_, fun hm p => (hseen p is hm).2⟩
  induction is using List.reverseRecOn with
  | nil => exact Meets.nil m _
  | append_singleton is i ih =>
    -- the run before the last step, and the last answer of its party
    have hstep : ∀ p, ((m.history is).filter fun x => party x.1 = p).map
          (fun x => (x.1, told p x.2)) =
        (m.history (is.filter fun i => party i = p)).map (fun x => (x.1, told p x.2)) ∧
        (party i = p → told p (m.step (m.state is) i).1 =
          told p (m.step (m.state (is.filter fun i => party i = p)) i).1) := by
      intro p
      have h := hi p
      rw [history_snoc, List.filter_append, List.map_append, List.filter_append] at h
      by_cases hp : party i = p
      · simp only [hp, List.filter_cons, List.filter_nil, decide_true, if_true, history_snoc,
          List.map_append, List.map_cons, List.map_nil] at h
        obtain ⟨hbefore, hlast⟩ := List.append_inj' h rfl
        exact ⟨hbefore, fun _ => (Prod.mk.inj (List.cons.inj hlast).1).2⟩
      · simp only [hp, List.filter_cons, List.filter_nil, decide_false, Bool.false_eq_true,
          if_false, List.map_nil, List.append_nil] at h
        exact ⟨h, fun he => absurd he hp⟩
    have hm := ih fun p => (hstep p).1
    exact meets_snoc.mpr ⟨hm, (htold _ _ i (hseen (party i) is hm).1).mp ((hstep (party i)).2 rfl)⟩

/-- **The simulation rule.** A machine whose steps give the answers of another machine's, from
related states to related states, has that machine's histories. -/
theorem simulate (m : Machine σ ι ο) (n : Machine τ ι ο) (R : σ → τ → Prop)
    (h0 : R m.init n.init)
    (hs : ∀ s t i, R s t → (m.step s i).1 = (n.step t i).1 ∧ R (m.step s i).2 (n.step t i).2)
    (is : List ι) : m.history is = n.history is ∧ R (m.state is) (n.state is) := by
  induction is using List.reverseRecOn with
  | nil => exact ⟨rfl, h0⟩
  | append_singleton is i ih =>
    obtain ⟨hh, hr⟩ := ih
    obtain ⟨ha, hr'⟩ := hs _ _ i hr
    simp only [history_snoc, state_snoc]
    exact ⟨by rw [hh, ha], hr'⟩

/-- Under a simulation that determines the other machine's states, the traces agree too. -/
theorem simulate_trace (m : Machine σ ι ο) (n : Machine τ ι ο) (R : σ → τ → Prop)
    (view : σ → τ) (hview : ∀ s t, R s t → view s = t) (h0 : R m.init n.init)
    (hs : ∀ s t i, R s t → (m.step s i).1 = (n.step t i).1 ∧ R (m.step s i).2 (n.step t i).2)
    (is : List ι) : (m.trace is).map (fun x => (view x.1, x.2)) = n.trace is := by
  induction is using List.reverseRecOn with
  | nil => rfl
  | append_singleton is i ih =>
    have hr := (m.simulate n R h0 hs is).2
    simp only [trace_snoc, List.map_append, List.map_singleton, ih, hview _ _ hr, (hs _ _ i hr).1]

end Machine

end UniversalAgent.Foundation
