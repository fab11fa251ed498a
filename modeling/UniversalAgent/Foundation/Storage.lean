import Mathlib

/-!
# Foundation — Storage

Programs that write to a storage step by step and may be stopped at any step. A `Storage` says
what a step does when it is done and what it leaves when it is cut short; a `Program` reads the
storage and gives the steps it writes, and its result or the error it ends with. What a program
reads after a step it reads from the storage with that step done.

`Program.cut` is the storage that a program leaves which was stopped. A condition that holds
`Throughout` the steps of a program holds of it wherever the program is stopped.
-/

namespace UniversalAgent.Foundation

universe u

/-- A state written in steps of type `ω`, a step cut short as a `τ` says. -/
class Storage (σ : Type u) (ω τ : outParam (Type u)) where
  apply : σ → ω → σ
  tear : σ → ω → τ → σ

def Program (σ ω ε α : Type u) : Type u := σ → List ω × Except ε α

structure Cut (τ : Type u) where
  after : Nat
  tear : τ

section Steps

variable {σ ω τ : Type u} [Storage σ ω τ]

def applyAll (s : σ) (ws : List ω) : σ := ws.foldl Storage.apply s

@[simp] theorem applyAll_nil (s : σ) : applyAll s ([] : List ω) = s := rfl

@[simp] theorem applyAll_cons (s : σ) (w : ω) (ws : List ω) :
    applyAll s (w :: ws) = applyAll (Storage.apply s w) ws := rfl

@[simp] theorem applyAll_append (s : σ) (ws ws' : List ω) :
    applyAll s (ws ++ ws') = applyAll (applyAll s ws) ws' := List.foldl_append

def cutSteps : σ → List ω → Nat → τ → σ
  | s, [], _, _ => s
  | s, w :: _, 0, t => Storage.tear s w t
  | s, w :: ws, n + 1, t => cutSteps (Storage.apply s w) ws n t

/-- `I` holds before and after every step, and when a step is cut short as `ok` allows. -/
def Throughout (ok : τ → Prop) (I : σ → Prop) : σ → List ω → Prop
  | s, [] => I s
  | s, w :: ws =>
    I s ∧ (∀ t, ok t → I (Storage.tear s w t)) ∧ Throughout ok I (Storage.apply s w) ws

variable {ok : τ → Prop} {I J : σ → Prop} {s : σ} {ws ws' : List ω}

theorem Throughout.cut (h : Throughout ok I s ws) {n : Nat} {t : τ} (ht : ok t) :
    I (cutSteps s ws n t) := by
  induction ws generalizing s n with
  | nil => exact h
  | cons w ws ih =>
    cases n with
    | zero => exact h.2.1 t ht
    | succ n => exact ih h.2.2

theorem Throughout.append (h : Throughout ok I s ws)
    (h' : Throughout ok I (applyAll s ws) ws') : Throughout ok I s (ws ++ ws') := by
  induction ws generalizing s with
  | nil => exact h'
  | cons w ws ih => exact ⟨h.1, h.2.1, ih h.2.2 h'⟩

theorem Throughout.mono (h : Throughout ok I s ws) (hIJ : ∀ s, I s → J s) :
    Throughout ok J s ws := by
  induction ws generalizing s with
  | nil => exact hIJ s h
  | cons w ws ih => exact ⟨hIJ s h.1, fun t ht => hIJ _ (h.2.1 t ht), ih h.2.2⟩

/-! Cuts of two lists of steps. -/

theorem cutSteps_append_left {s : σ} {ws ws' : List ω} {n : Nat} {t : τ} (h : n < ws.length) :
    cutSteps s (ws ++ ws') n t = cutSteps s ws n t := by
  induction ws generalizing s n with
  | nil => simp at h
  | cons w ws ih =>
    cases n with
    | zero => rfl
    | succ n => exact ih (Nat.lt_of_succ_lt_succ h)

theorem cutSteps_append_right {s : σ} {ws ws' : List ω} (n : Nat) (t : τ) :
    cutSteps s (ws ++ ws') (ws.length + n) t = cutSteps (applyAll s ws) ws' n t := by
  induction ws generalizing s with
  | nil => simp
  | cons w ws ih =>
    rw [List.length_cons, Nat.add_right_comm]
    exact ih

/-- What no step changes, done or cut short, is the same wherever the steps are cut. -/
theorem cutSteps_frame {β : Type u} {f : σ → β} {P : ω → Prop} {s : σ} {ws : List ω}
    (hp : ∀ w ∈ ws, P w) (happly : ∀ s w, P w → f (Storage.apply s w) = f s)
    (htear : ∀ s w t, P w → f (Storage.tear s w t) = f s) (n : Nat) (t : τ) :
    f (cutSteps s ws n t) = f s := by
  induction ws generalizing s n with
  | nil => rfl
  | cons w ws ih =>
    cases n with
    | zero => exact htear s w t (hp w List.mem_cons_self)
    | succ n =>
      have hrest := ih (s := Storage.apply s w) (fun w' h => hp w' (List.mem_cons_of_mem w h)) n
      exact hrest.trans (happly s w (hp w List.mem_cons_self))

theorem applyAll_frame {β : Type u} {f : σ → β} {P : ω → Prop} {s : σ} {ws : List ω}
    (hp : ∀ w ∈ ws, P w) (happly : ∀ s w, P w → f (Storage.apply s w) = f s) :
    f (applyAll s ws) = f s := by
  induction ws generalizing s with
  | nil => rfl
  | cons w ws ih =>
    have hrest := ih (s := Storage.apply s w) fun w' h => hp w' (List.mem_cons_of_mem w h)
    exact hrest.trans (happly s w (hp w List.mem_cons_self))

end Steps

namespace Program

variable {σ ω τ ε α β : Type u} [Storage σ ω τ]

def read : Program σ ω ε σ := fun s => ([], .ok s)

def write (w : ω) : Program σ ω ε PUnit := fun _ => ([w], .ok ⟨⟩)

def ofExcept (x : Except ε α) : Program σ ω ε α := fun _ => ([], x)

def andThen (p : Program σ ω ε α) (f : α → Program σ ω ε β) : Program σ ω ε β := fun s =>
  match p s with
  | (ws, .error e) => (ws, .error e)
  | (ws, .ok a) => (ws ++ (f a (applyAll s ws)).1, (f a (applyAll s ws)).2)

instance : Monad (Program σ ω ε) where
  pure a := fun _ => ([], .ok a)
  bind := andThen

theorem read_bind (f : σ → Program σ ω ε β) (s : σ) : (read >>= f) s = f s s := rfl

@[simp] theorem pure_bind (a : α) (f : α → Program σ ω ε β) : (pure a >>= f) = f a := rfl

@[simp] theorem ofExcept_ok_bind (a : α) (f : α → Program σ ω ε β) :
    (ofExcept (.ok a) >>= f) = f a := rfl

@[simp] theorem ofExcept_error_bind (e : ε) (f : α → Program σ ω ε β) :
    (ofExcept (.error e) >>= f) = ofExcept (.error e) := rfl

def after (p : Program σ ω ε α) (s : σ) : σ := applyAll s (p s).1

def cut (p : Program σ ω ε α) (s : σ) (c : Cut τ) : σ := cutSteps s (p s).1 c.after c.tear

variable {f : α → Program σ ω ε β}

theorem bind_ok {p : Program σ ω ε α} {s : σ} {ws : List ω} {a : α}
    (h : p s = (ws, .ok a)) :
    (p >>= f) s = (ws ++ (f a (applyAll s ws)).1, (f a (applyAll s ws)).2) := by
  change andThen p f s = _
  unfold andThen
  rw [h]

/-- Two programs one after the other, each of which is known. -/
theorem bind_run {p : Program σ ω ε α} {s : σ} {ws ws' : List ω} {a : α}
    {r : Except ε β} (h : p s = (ws, .ok a)) (h' : f a (applyAll s ws) = (ws', r)) :
    (p >>= f) s = (ws ++ ws', r) := by
  rw [bind_ok h, h']

theorem bind_error {p : Program σ ω ε α} {s : σ} {ws : List ω} {e : ε}
    (h : p s = (ws, .error e)) : (p >>= f) s = (ws, .error e) := by
  change andThen p f s = _
  unfold andThen
  rw [h]

/-- A program one of whose steps cannot be done, if it is one that can fail: the error `none`, and
what the step leaves. -/
def failing (canFail : ω → Bool) (p : Program σ ω ε α) (s : σ) :
    Option (Cut τ) → Except (Option ε) α × σ
  | none => ((p s).2.mapError some, p.after s)
  | some c =>
    match (p s).1[c.after]? with
    | some w =>
      if canFail w then (.error none, p.cut s c) else ((p s).2.mapError some, p.after s)
    | none => ((p s).2.mapError some, p.after s)

theorem failing_at {canFail : ω → Bool} {p : Program σ ω ε α} {s : σ} {ws : List ω}
    {r : Except ε α} {c : Cut τ} {w : ω} (h : p s = (ws, r)) (hw : ws[c.after]? = some w)
    (hf : canFail w = true) :
    p.failing canFail s (some c) = (.error none, cutSteps s ws c.after c.tear) := by
  simp only [failing, cut, h, hw, hf, if_true]

/-- A program that does not get to the step ends as it does. -/
theorem failing_past {canFail : ω → Bool} {p : Program σ ω ε α} {s : σ} {ws : List ω}
    {r : Except ε α} {fault : Option (Cut τ)} (h : p s = (ws, r))
    (hf : ∀ c ∈ fault, ∀ w, ws[c.after]? = some w → canFail w = false) :
    p.failing canFail s fault = (r.mapError some, applyAll s ws) := by
  cases fault with
  | none => simp only [failing, after, h]
  | some c =>
    cases hw : ws[c.after]? with
    | none => simp only [failing, after, h, hw]
    | some w =>
      have hno := hf c rfl w hw
      simp [failing, after, h, hw, hno]

def WritesOnly (P : ω → Prop) (p : Program σ ω ε α) : Prop := ∀ s, ∀ w ∈ (p s).1, P w

namespace WritesOnly

variable {P : ω → Prop} {p : Program σ ω ε α}

theorem ret (a : α) : WritesOnly P (pure a : Program σ ω ε α) := fun _ _ h => nomatch h

theorem value (x : Except ε α) : WritesOnly P (ofExcept x : Program σ ω ε α) :=
  fun _ _ h => nomatch h

theorem look : WritesOnly P (read : Program σ ω ε σ) := fun _ _ h => nomatch h

theorem step {w : ω} (h : P w) : WritesOnly P (write w : Program σ ω ε PUnit) := by
  intro s w' hw
  rw [List.mem_singleton.mp hw]
  exact h

theorem bind {f : α → Program σ ω ε β} (hp : WritesOnly P p) (hf : ∀ a, WritesOnly P (f a)) :
    WritesOnly P (p >>= f) := by
  intro s w hw
  rcases hr : p s with ⟨ws, e | a⟩
  · rw [bind_error hr] at hw
    exact hp s w (by rw [hr]; exact hw)
  · rw [bind_ok hr] at hw
    rcases List.mem_append.mp hw with hw | hw
    · exact hp s w (by rw [hr]; exact hw)
    · exact hf a _ w hw

end WritesOnly

/-! ## Rules -/

/-- From a storage in `P`, the program keeps `C` wherever it is stopped, and returns in `Q` or
raises in `E`. -/
def Spec (ok : τ → Prop) (P : σ → Prop) (p : Program σ ω ε α) (C : σ → Prop)
    (Q : α → σ → Prop) (E : ε → σ → Prop) : Prop :=
  ∀ s, P s → Throughout ok C s (p s).1 ∧
    match (p s).2 with
    | .ok a => Q a (p.after s)
    | .error e => E e (p.after s)

namespace Spec

variable {ok : τ → Prop} {P P' C C' : σ → Prop} {p : Program σ ω ε α} {Q Q' : α → σ → Prop}
variable {E E' : ε → σ → Prop}

theorem cut (h : Spec ok P p C Q E) {s : σ} (hs : P s) {c : Cut τ} (hc : ok c.tear) :
    C (p.cut s c) := (h s hs).1.cut hc

theorem ret {a : α} (hC : ∀ s, P s → C s) (h : ∀ s, P s → Q a s) :
    Spec ok P (pure a : Program σ ω ε α) C Q E := fun s hs => ⟨hC s hs, h s hs⟩

theorem value {x : Except ε α} (hC : ∀ s, P s → C s) (hQ : ∀ a, x = .ok a → ∀ s, P s → Q a s)
    (hE : ∀ e, x = .error e → ∀ s, P s → E e s) : Spec ok P (ofExcept x) C Q E := by
  intro s hs
  refine ⟨hC s hs, ?_⟩
  cases x with
  | ok a => exact hQ a rfl s hs
  | error e => exact hE e rfl s hs

theorem step {w : ω} {Q : PUnit → σ → Prop} (hC : ∀ s, P s → C s)
    (ht : ∀ s t, P s → ok t → C (Storage.tear s w t)) (hw : ∀ s, P s → C (Storage.apply s w))
    (hQ : ∀ s, P s → Q ⟨⟩ (Storage.apply s w)) : Spec ok P (write w) C Q E :=
  fun s hs => ⟨⟨hC s hs, fun t => ht s t hs, hw s hs⟩, hQ s hs⟩

variable {f : α → Program σ ω ε β} {R : β → σ → Prop}

theorem bind (hp : Spec ok P p C Q E) (hf : ∀ a, Spec ok (Q a) (f a) C R E) : Spec ok P (p >>= f) C R E := by
  intro s hs
  have h := hp s hs
  change Throughout ok C s (andThen p f s).1 ∧
    match (andThen p f s).2 with
    | .ok b => R b (applyAll s (andThen p f s).1)
    | .error e => E e (applyAll s (andThen p f s).1)
  unfold andThen
  unfold after at h
  rcases hr : p s with ⟨ws, e | a⟩
  · rw [hr] at h
    exact h
  · rw [hr] at h
    obtain ⟨hkeep, hres⟩ := hf a (applyAll s ws) h.2
    unfold after at hres
    rw [← applyAll_append] at hres
    exact ⟨h.1.append hkeep, hres⟩

theorem answer {R : σ → Prop} (h : Spec ok P p C (fun _ => R) E) (hR : ∀ s, R s → C s)
    (g : α → β) : Spec ok P (p >>= fun a => pure (g a)) C (fun _ => R) E :=
  h.bind fun _ => .ret hR fun _ hs => hs

/-- A program that starts by reading the storage is judged at each storage apart. -/
theorem reading {f : σ → Program σ ω ε β}
    (h : ∀ t, P t → Spec ok (fun s => s = t) (f t) C R E) : Spec ok P (read >>= f) C R E := by
  intro s hs
  exact h s hs s rfl

theorem each (h : ∀ t, P t → Spec ok (fun s => s = t) p C Q E) : Spec ok P p C Q E :=
  fun s hs => h s hs s rfl

theorem lookup {a : α}
    (hp : ∀ s, P s → p s = ([], .ok a)) (hf : Spec ok P (f a) C R E) :
    Spec ok P (p >>= f) C R E := by
  intro s hs
  have h := hf s hs
  have hrun : (p >>= f) s = f a s := by
    change andThen p f s = f a s
    unfold andThen
    rw [hp s hs]
    rfl
  unfold after at h ⊢
  rw [hrun]
  exact h

theorem fail {e : ε}
    (hp : ∀ s, P s → p s = ([], .error e)) (hC : ∀ s, P s → C s) (hE : ∀ s, P s → E e s) :
    Spec ok P (p >>= f) C R E := by
  intro s hs
  have hrun : (p >>= f) s = ([], .error e) := by
    change andThen p f s = _
    unfold andThen
    rw [hp s hs]
  unfold after
  rw [hrun]
  exact ⟨hC s hs, hE s hs⟩

theorem mono (h : Spec ok P p C Q E) (hP : ∀ s, P' s → P s) (hC : ∀ s, C s → C' s)
    (hQ : ∀ a s, Q a s → Q' a s) (hE : ∀ e s, E e s → E' e s) : Spec ok P' p C' Q' E' := by
  intro s hs
  obtain ⟨hkeep, hres⟩ := h s (hP s hs)
  refine ⟨hkeep.mono hC, ?_⟩
  cases hr : (p s).2 with
  | ok a =>
    rw [hr] at hres
    exact hQ a _ hres
  | error e =>
    rw [hr] at hres
    exact hE e _ hres

end Spec

end Program

end UniversalAgent.Foundation
