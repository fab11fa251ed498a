import Mathlib

/-!
# Foundation — Coroutines

Programs that ask for one operation after another and go on with what is answered, or with the exception
that is raised at it; and systems in which any number of them run in turns on a state that they share.

A `Monitor` watches one program: it tells at each point which operations are allowed, and follows the
answers. `Meets` is the weakest precondition of a program under a monitor, with a rule for each way to
compose programs. In a system whose programs all meet a monitor, `Reach.monitored` gives each program's
monitor state in every state of every run.
-/

namespace UniversalAgent.Foundation

/-- A program over the operations `O`, each with its type of answers. -/
inductive Prog (O : Type) (A : O → Type) (ε α : Type) : Type where
  | done (a : α)
  | raise (e : ε)
  | ask (o : O) (k : Except ε (A o) → Prog O A ε α)

namespace Prog

variable {O : Type} {A : O → Type} {ε α β : Type}

def bind : Prog O A ε α → (α → Prog O A ε β) → Prog O A ε β
  | done a, f => f a
  | raise e, _ => raise e
  | ask o k, f => ask o fun a => (k a).bind f

instance : Monad (Prog O A ε) where
  pure := done
  bind := bind

def op (o : O) : Prog O A ε (A o) :=
  ask o fun
    | .ok a => done a
    | .error e => raise e

/-- `try: x; except: handle`. -/
def tryCatch : Prog O A ε α → (ε → Prog O A ε α) → Prog O A ε α
  | done a, _ => done a
  | raise e, handle => handle e
  | ask o k, handle => ask o fun a => (k a).tryCatch handle

/-- `try: x; finally: fin`. -/
def tryFinally (x : Prog O A ε α) (fin : Prog O A ε Unit) : Prog O A ε α :=
  (x.tryCatch fun e => fin.bind fun _ => raise e).bind fun a => fin.bind fun _ => done a

/-! ## Monitors -/

end Prog

structure Monitor (O : Type) (A : O → Type) (ε W : Type) where
  allowed : W → O → Prop
  next : W → (o : O) → Except ε (A o) → W

namespace Prog

variable {O : Type} {A : O → Type} {ε α β W : Type} {M : Monitor O A ε W} {Q Q' : α → W → Prop}
  {E E' : ε → W → Prop} {w : W}

/-- Every operation is allowed, and the program ends in `Q`, or raises in `E`. -/
def Meets (M : Monitor O A ε W) (Q : α → W → Prop) (E : ε → W → Prop) : Prog O A ε α → W → Prop
  | done a, w => Q a w
  | raise e, w => E e w
  | ask o k, w => M.allowed w o ∧ ∀ a, Meets M Q E (k a) (M.next w o a)

namespace Meets

variable {x : Prog O A ε α}

theorem mono (h : Meets M Q E x w) (hq : ∀ a w, Q a w → Q' a w)
    (he : ∀ e w, E e w → E' e w) : Meets M Q' E' x w := by
  induction x generalizing w with
  | done a => exact hq a w h
  | raise e => exact he e w h
  | ask o k ih => exact ⟨h.1, fun a => ih a (h.2 a)⟩

theorem ret {a : α} (h : Q a w) : Meets M Q E (pure a : Prog O A ε α) w := h

theorem bind {f : α → Prog O A ε β} {R : β → W → Prop}
    (h : Meets M (fun a w => Meets M R E (f a) w) E x w) : Meets M R E (x >>= f) w := by
  change Meets M R E (x.bind f) w
  induction x generalizing w with
  | done a => exact h
  | raise e => exact h
  | ask o k ih => exact ⟨h.1, fun a => ih a (h.2 a)⟩

/-- One operation that is allowed, and what its answer leaves. -/
theorem op {o : O} {Q : A o → W → Prop} (hallowed : M.allowed w o)
    (hok : ∀ a, Q a (M.next w o (.ok a))) (herror : ∀ e, E e (M.next w o (.error e))) :
    Meets M Q E (Prog.op o) w := by
  refine ⟨hallowed, fun a => ?_⟩
  cases a with
  | ok a => exact hok a
  | error e => exact herror e

theorem tryCatch {handle : ε → Prog O A ε α}
    (h : Meets M Q (fun e w => Meets M Q E (handle e) w) x w) : Meets M Q E (x.tryCatch handle) w := by
  induction x generalizing w with
  | done a => exact h
  | raise e => exact h
  | ask o k ih => exact ⟨h.1, fun a => ih a (h.2 a)⟩

theorem tryFinally {fin : Prog O A ε Unit}
    (h : Meets M (fun a w => Meets M (fun _ w => Q a w) E fin w)
      (fun e w => Meets M (fun _ w => E e w) E fin w) x w) :
    Meets M Q E (x.tryFinally fin) w := by
  refine bind (tryCatch ?_)
  refine h.mono (fun a w ha => bind (ha.mono (fun _ w hq => hq) fun _ _ he => he)) fun e w he => ?_
  exact bind (he.mono (fun _ w hq => hq) fun _ _ he => he)

end Meets

/-! ## Programs that ask for operations of a kind -/

variable {P : O → Prop}

def Only (P : O → Prop) : Prog O A ε α → Prop
  | done _ | raise _ => True
  | ask o k => P o ∧ ∀ a, Only P (k a)

namespace Only

@[simp] theorem pure (a : α) : (Pure.pure a : Prog O A ε α).Only P := trivial

@[simp] theorem raise (e : ε) : (Prog.raise e : Prog O A ε α).Only P := trivial

theorem op {o : O} (h : P o) : (Prog.op o : Prog O A ε (A o)).Only P := by
  refine ⟨h, fun a => ?_⟩
  cases a <;> trivial

variable {x : Prog O A ε α}

theorem bind {f : α → Prog O A ε β} (hx : x.Only P) (hf : ∀ a, (f a).Only P) : (x >>= f).Only P := by
  change (x.bind f).Only P
  induction x with
  | done a => exact hf a
  | raise e => trivial
  | ask o k ih => exact ⟨hx.1, fun a => ih a (hx.2 a)⟩

theorem mono {P' : O → Prop} (h : x.Only P) (hP : ∀ o, P o → P' o) : x.Only P' := by
  induction x with
  | done a => trivial
  | raise e => trivial
  | ask o k ih => exact ⟨hP o h.1, fun a => ih a (h.2 a)⟩

theorem tryCatch {handle : ε → Prog O A ε α} (hx : x.Only P)
    (hhandle : ∀ e, (handle e).Only P) : (x.tryCatch handle).Only P := by
  induction x with
  | done a => trivial
  | raise e => exact hhandle e
  | ask o k ih => exact ⟨hx.1, fun a => ih a (hx.2 a)⟩

/-- Where these operations are allowed and change nothing, neither does the program. -/
theorem meets (h : x.Only P)
    (hP : ∀ o, P o → M.allowed w o ∧ ∀ a, M.next w o a = w) :
    Meets M (fun _ w' => w' = w) (fun _ w' => w' = w) x w := by
  induction x with
  | done a => rfl
  | raise e => rfl
  | ask o k ih =>
    refine ⟨(hP o h.1).1, fun a => ?_⟩
    rw [(hP o h.1).2 a]
    exact ih a (h.2 a)

/-- What goes on after such a program goes on from where it was. -/
theorem andThen {f : α → Prog O A ε β} {R : β → W → Prop} (h : x.Only P)
    (hP : ∀ o, P o → M.allowed w o ∧ ∀ a, M.next w o a = w) (he : ∀ e, E e w)
    (hf : ∀ a, Meets M R E (f a) w) : Meets M R E (x >>= f) w := by
  refine Meets.bind ((h.meets hP).mono (fun a w' hw => ?_) fun e w' hw => ?_)
  · exact hw ▸ hf a
  · exact hw ▸ he e

end Only

end Prog

/-! ## Systems -/

structure Event (O : Type) (A : O → Type) (ε : Type) where
  thread : Nat
  op : O
  answer : Except ε (A op)

structure Config (O : Type) (A : O → Type) (ε σ : Type) where
  shared : σ
  threads : List (Prog O A ε Unit)
  history : List (Event O A ε)

section Systems

variable {O : Type} {A : O → Type} {ε σ W : Type}

/-- The states that a system reaches from the state `init` on, when each program that is started is one
of `starts`, each operation is answered as `respond` has it, and each step meets the condition `ok`. -/
inductive Reach (init : σ) (starts : Prog O A ε Unit → Prop)
    (respond : σ → (o : O) → Except ε (A o) → σ → Prop)
    (ok : Config O A ε σ → Event O A ε → Prop) : Config O A ε σ → Prop where
  | start : Reach init starts respond ok ⟨init, [], []⟩
  | spawn {c : Config O A ε σ} {p : Prog O A ε Unit} (h : Reach init starts respond ok c)
      (hp : starts p) : Reach init starts respond ok { c with threads := c.threads ++ [p] }
  | step {c : Config O A ε σ} {i : Nat} {o : O} {k : Except ε (A o) → Prog O A ε Unit}
      {a : Except ε (A o)} {s : σ} (h : Reach init starts respond ok c)
      (hi : c.threads[i]? = some (.ask o k)) (hr : respond c.shared o a s) (hok : ok c ⟨i, o, a⟩) :
      Reach init starts respond ok ⟨s, c.threads.set i (k a), c.history ++ [⟨i, o, a⟩]⟩

def Monitored (M : Monitor O A ε W) (threads : List (Prog O A ε Unit)) (ws : List W) : Prop :=
  List.Forall₂ (fun p w => Prog.Meets M (fun _ _ => True) (fun _ _ => True) p w) threads ws

theorem Monitored.spawn {M : Monitor O A ε W} {threads : List (Prog O A ε Unit)} {ws : List W}
    (h : Monitored M threads ws) {p : Prog O A ε Unit} {w : W}
    (hp : Prog.Meets M (fun _ _ => True) (fun _ _ => True) p w) :
    Monitored M (threads ++ [p]) (ws ++ [w]) := List.rel_append h (.cons hp .nil)

/-- A program that asks for an operation has a monitor state that allows it, and the next one. -/
theorem Monitored.step {M : Monitor O A ε W} {threads : List (Prog O A ε Unit)} {ws : List W}
    (h : Monitored M threads ws) {i : Nat} {o : O} {k : Except ε (A o) → Prog O A ε Unit}
    (hi : threads[i]? = some (.ask o k)) (a : Except ε (A o)) :
    ∃ w, ws[i]? = some w ∧ M.allowed w o ∧
      Monitored M (threads.set i (k a)) (ws.set i (M.next w o a)) := by
  induction h generalizing i with
  | nil => cases hi
  | @cons p w threads ws hp hrest ih =>
    cases i with
    | zero =>
      obtain rfl := Option.some.inj hi
      exact ⟨w, rfl, hp.1, .cons (hp.2 a) hrest⟩
    | succ i =>
      obtain ⟨w', hw', hallowed, hnext⟩ := ih hi
      exact ⟨w', hw', hallowed, .cons hp hnext⟩

variable {starts : Prog O A ε Unit → Prop}

/-- An invariant of the shared state, the history and the monitor states holds in every state that is
reached. -/
theorem Reach.monitored {M : Monitor O A ε W} {w₀ : W} {init : σ}
    {respond : σ → (o : O) → Except ε (A o) → σ → Prop} {ok : Config O A ε σ → Event O A ε → Prop}
    (Inv : σ → List (Event O A ε) → List W → Prop)
    (hstarts : ∀ p, starts p → Prog.Meets M (fun _ _ => True) (fun _ _ => True) p w₀)
    (hinit : Inv init [] []) (hspawn : ∀ s h ws, Inv s h ws → Inv s h (ws ++ [w₀]))
    (hstep : ∀ (c : Config O A ε σ) ws i w o a s, Inv c.shared c.history ws → ws[i]? = some w →
      M.allowed w o → respond c.shared o a s → ok c ⟨i, o, a⟩ →
        Inv s (c.history ++ [⟨i, o, a⟩]) (ws.set i (M.next w o a)))
    {c : Config O A ε σ} (h : Reach init starts respond ok c) :
    ∃ ws, Monitored M c.threads ws ∧ Inv c.shared c.history ws := by
  induction h with
  | start => exact ⟨[], .nil, hinit⟩
  | @spawn c p h hp ih =>
    obtain ⟨ws, hws, hinv⟩ := ih
    exact ⟨ws ++ [w₀], hws.spawn (hstarts p hp), hspawn c.shared c.history ws hinv⟩
  | @step c i o k a s h hi hr hok ih =>
    obtain ⟨ws, hws, hinv⟩ := ih
    obtain ⟨w, hw, hallowed, hnext⟩ := hws.step hi a
    exact ⟨_, hnext, hstep c ws i w o a s hinv hw hallowed hr hok⟩

/-- An event of a history that has grown: the last one, or one of before. -/
theorem split_concat {α : Type} {h pre post : List α} {x e : α} (hsplit : h ++ [x] = pre ++ e :: post) :
    h = pre ∧ x = e ∨ ∃ post', h = pre ++ e :: post' := by
  rcases List.eq_nil_or_concat post with rfl | ⟨post', last, rfl⟩
  · obtain ⟨hpre, hlast⟩ := List.append_inj' hsplit rfl
    exact .inl ⟨hpre, List.head_eq_of_cons_eq hlast⟩
  · refine .inr ⟨post', ?_⟩
    rw [List.concat_eq_append, ← List.cons_append, ← List.append_assoc] at hsplit
    exact (List.append_inj' hsplit rfl).1

/-! ## One program alone -/

/-- The run of a program that is not interrupted: the history that it adds, and the state it leaves. -/
def Prog.runAlone (answer : σ → (o : O) → Except ε (A o) × σ) (thread : Nat) {α : Type} :
    Prog O A ε α → σ → List (Event O A ε) × σ
  | done _, s => ([], s)
  | raise _, s => ([], s)
  | ask o k, s =>
    let r := answer s o
    let rest := runAlone answer thread (k r.1) r.2
    (⟨thread, o, r.1⟩ :: rest.1, rest.2)

/-- After an operation the run goes on with its answer, or it is over. -/
theorem Prog.runAlone_op_bind (answer : σ → (o : O) → Except ε (A o) × σ) (thread : Nat) {α : Type}
    (o : O) (f : A o → Prog O A ε α) (s : σ) :
    ((Prog.op o >>= f).runAlone answer thread s).2 =
      match (answer s o).1 with
      | .ok a => ((f a).runAlone answer thread (answer s o).2).2
      | .error _ => (answer s o).2 := by
  let resume : Except ε (A o) → Prog O A ε (A o) := fun
    | .ok a => .done a
    | .error e => .raise e
  change (Prog.runAlone answer thread ((resume (answer s o).1).bind f) (answer s o).2).2 = _
  cases (answer s o).1 with
  | ok a => rfl
  | error e => rfl

/-- What the operations of a kind leave as it was, a program of them does. -/
theorem Prog.Only.runAlone {P : O → Prop} {α : Type} {p : Prog O A ε α} (h : p.Only P)
    {answer : σ → (o : O) → Except ε (A o) × σ} (Rel : σ → σ → Prop) (hrefl : ∀ s, Rel s s)
    (htrans : ∀ s t u, Rel s t → Rel t u → Rel s u) (hstep : ∀ s o, P o → Rel s (answer s o).2)
    (thread : Nat) (s : σ) : Rel s (p.runAlone answer thread s).2 := by
  induction p generalizing s with
  | done a => exact hrefl s
  | raise e => exact hrefl s
  | ask o k ih => exact htrans _ _ _ (hstep s o h.1) (ih _ (h.2 _) _)

theorem Reach.runAlone {init : σ}
    {respond : σ → (o : O) → Except ε (A o) → σ → Prop}
    {answer : σ → (o : O) → Except ε (A o) × σ}
    (hanswer : ∀ s o, respond s o (answer s o).1 (answer s o).2) {p : Prog O A ε Unit}
    {c : Config O A ε σ} (h : Reach init starts respond (fun _ _ => True) c) {i : Nat}
    (hi : c.threads[i]? = some p) :
    ∃ c', Reach init starts respond (fun _ _ => True) c' ∧
      c'.history = c.history ++ (p.runAlone answer i c.shared).1 ∧
      c'.shared = (p.runAlone answer i c.shared).2 := by
  induction p generalizing c with
  | done a => exact ⟨c, h, (List.append_nil _).symm, rfl⟩
  | raise e => exact ⟨c, h, (List.append_nil _).symm, rfl⟩
  | ask o k ih =>
    have hlength : i < c.threads.length := (List.getElem?_eq_some_iff.mp hi).1
    obtain ⟨c', hc', hhistory, hshared⟩ := ih (answer c.shared o).1 (h.step hi (hanswer c.shared o) trivial)
      (by simp [hlength])
    exact ⟨c', hc', by rw [hhistory, List.append_assoc]; rfl, hshared⟩

end Systems

end UniversalAgent.Foundation
