import UniversalAgent.Runtime.Actions

/-!
# Runtime — Action rules

What an action asks for besides the executions of a tool and the record of its key, and rules for a
monitor that is concerned with these alone.
-/

namespace UniversalAgent.Runtime.Actions

open UniversalAgent.Core UniversalAgent.Domain UniversalAgent.Foundation UniversalAgent.Policies
open UniversalAgent.Recovery UniversalAgent.Tools UniversalAgent.World

/-- Neither a tool, nor the record of keys, nor a read of the session. -/
def Op.Quiet : Op → Prop
  | .record _ | .forget _ | .start _ _ | .finish _ _ | .readSession => False
  | _ => True

/-! ## Quiet programs -/

theorem ask_only {P : Op → Prop} {o : Op} (h : P o) : (ask o).Only P := Prog.Only.op h

theorem ite_only {P : Op → Prop} {c : Prop} [Decidable c] {α : Type} {x y : ActionM α}
    (hx : x.Only P) (hy : y.Only P) : (if c then x else y).Only P := by
  split
  · exact hx
  · exact hy

theorem whenever_only {P : Op → Prop} {c : Prop} [Decidable c] {x : ActionM Unit} (h : x.Only P) :
    (whenever c x).Only P := ite_only h (.pure ())

theorem requireKey_quiet (key : String) : (requireKey key).Only Op.Quiet := by
  unfold requireKey
  split <;> trivial

theorem acquireResourceLock_quiet (state : AgentState) (pending : PendingAction) :
    (acquireResourceLock state pending).Only Op.Quiet := by
  unfold acquireResourceLock
  split
  · exact .pure _
  · refine .bind (ask_only trivial) fun alreadyOwned => .bind (requireKey_quiet _) fun _ =>
      .bind (ask_only trivial) fun acquired => ?_
    cases acquired with
    | error message => exact .bind (ask_only trivial) fun _ => .pure _
    | ok lock =>
      dsimp only
      split
      · exact .pure _
      · exact .bind (ask_only trivial) fun _ => .pure _

theorem releaseResourceLock_quiet (lock : Option ResourceLock) :
    (releaseResourceLock lock).Only Op.Quiet := by
  cases lock with
  | none => exact .pure ()
  | some lock => exact .bind (ask_only trivial) fun _ => ask_only trivial

theorem checkResourceVersion_quiet (pending : PendingAction) :
    (checkResourceVersion pending).Only Op.Quiet := by
  unfold checkResourceVersion
  split
  · exact .pure _
  · refine .bind (requireKey_quiet _) fun _ => .bind (ask_only trivial) fun current => ?_
    split
    · split
      · exact .bind (ask_only trivial) fun _ => .pure _
      · exact .bind (ask_only trivial) fun _ => .bind (ask_only trivial) fun _ => .pure _
    · exact .bind (ask_only trivial) fun _ => .pure _

theorem updateResourceVersion_quiet (pending : PendingAction) (output : JsonMapping) :
    (updateResourceVersion pending output).Only Op.Quiet := by
  unfold updateResourceVersion
  split
  · exact .pure _
  · split
    · exact .pure _
    · exact .bind (requireKey_quiet _) fun _ => .bind (ask_only trivial) fun _ => ask_only trivial

theorem observe_quiet (pending : PendingAction) (result : ToolResult) :
    (observe pending result).Only Op.Quiet :=
  .bind (ask_only trivial) fun _ => .bind (ask_only trivial) fun _ => .pure _

theorem reconcileWith_quiet (pending : PendingAction) (reconcilers : List CapabilityUser) :
    (reconcileWith pending reconcilers).Only Op.Quiet := by
  induction reconcilers with
  | nil => exact .pure _
  | cons reconciler reconcilers ih =>
    unfold reconcileWith
    split
    · exact ih
    · refine .bind (ask_only trivial) fun answer => ?_
      match answer with
      | .error _ => exact .bind (ask_only trivial) fun _ => ih
      | .ok none => exact ih
      | .ok (some result) =>
        exact .bind (ask_only trivial) fun _ =>
          .bind (whenever_only (updateResourceVersion_quiet _ _)) fun _ =>
            .bind (observe_quiet _ _) fun _ => .pure _

section Executor

variable (executor : ActionExecutor)

theorem reconcileRequired_quiet (pending : PendingAction) :
    (reconcileRequired executor pending).Only Op.Quiet := by
  refine .bind (reconcileWith_quiet _ _) fun outcome => ?_
  cases outcome with
  | some outcome => exact .pure _
  | none => exact .bind (ask_only trivial) fun _ => observe_quiet _ _

theorem checkSandbox_quiet (tool : ToolDefinition) (pending : PendingAction) :
    (checkSandbox executor tool pending).Only Op.Quiet := by
  unfold checkSandbox
  split
  · exact .pure _
  · dsimp only
    split
    · exact .bind (ask_only trivial) fun _ => .pure _
    · refine .bind (ask_only trivial) fun _ => ?_
      split <;> exact .pure _

theorem planRecovery_quiet (pending : PendingAction) (state : AgentState) (failure : Failure) :
    (planRecovery executor pending state failure).Only Op.Quiet := by
  refine .bind (whenever_only (ask_only trivial)) fun _ => .bind (ask_only trivial) fun _ => ?_
  split
  · exact .pure _
  · split <;> exact .bind (ask_only trivial) fun _ => .pure _

theorem processObserved_quiet (state : AgentState) (pending : PendingAction) (result : ToolResult) :
    (processObserved executor state pending result).Only Op.Quiet := by
  unfold processObserved
  split
  · exact planRecovery_quiet executor _ _ _
  · refine .bind (ask_only trivial) fun processed => ?_
    cases processed with
    | settled => exact .pure _
    | next => exact .pure _
    | failed reason => exact planRecovery_quiet executor _ _ _

/-! ## Monitors of executions -/

variable {W : Type} {M : Monitor Op Answer Interrupt W} {w : W}

/-- The program leaves the monitor where it was, whether it returns or raises. -/
abbrev Returns (M : Monitor Op Answer Interrupt W) {α : Type} (x : ActionM α) (w : W) : Prop :=
  Prog.Meets M (fun _ w' => w' = w) (fun _ w' => w' = w) x w

def Idle (M : Monitor Op Answer Interrupt W) (w : W) : Prop :=
  ∀ o, Op.Quiet o → M.allowed w o ∧ ∀ a, M.next w o a = w

/-- Quiet operations and then a program that returns to where it started. -/
theorem Idle.andThen (h : Idle M w) {α β : Type} {x : ActionM α} {f : α → ActionM β}
    (hx : x.Only Op.Quiet) (hf : ∀ a, Returns M (f a) w) : Returns M (x >>= f) w :=
  hx.andThen h (fun _ => rfl) hf

theorem Idle.quiet (h : Idle M w) {α : Type} {x : ActionM α} (hx : x.Only Op.Quiet) : Returns M x w :=
  hx.meets h

theorem Idle.ends (h : Idle M w) {α : Type} {x : ActionM α} (hx : x.Only Op.Quiet) :
    Prog.Meets M (fun _ _ => True) (fun _ _ => True) x w :=
  (h.quiet hx).mono (fun _ _ _ => trivial) fun _ _ _ => trivial

theorem Idle.locked (h : Idle M w) {α : Type} {x : ActionM α} (hx : Returns M x w)
    (lock : Option ResourceLock) : Returns M (x.tryFinally (releaseResourceLock lock)) w := by
  have hrelease : Returns M (releaseResourceLock lock) w := h.quiet (releaseResourceLock_quiet lock)
  refine .tryFinally (hx.mono (fun a w' hw => ?_) fun e w' hw => ?_)
  · subst hw
    exact hrelease
  · subst hw
    exact hrelease

/-- What is behind the policies executes the action if they allow it. -/
theorem executeAllowed_returns (hidle : Idle M w) {state : AgentState} {pending : PendingAction}
    {tool : ToolDefinition} {result : Domains.PolicyResult} {remembers : Bool}
    (hlocked : result.effect ≠ .requireConfirmation →
      Returns M (executeLocked executor pending tool remembers) w) :
    Returns M (executeAllowed executor state pending tool result remembers) w := by
  refine hidle.andThen (ite_only (ask_only trivial) (.pure _)) fun seen => ?_
  cases seen with
  | true =>
    refine hidle.andThen (ask_only trivial) fun _ =>
      hidle.andThen (acquireResourceLock_quiet _ _) fun lock => ?_
    cases lock with
    | error outcome => exact .ret rfl
    | ok lock =>
      refine hidle.locked ?_ lock
      refine hidle.andThen (ask_only trivial) fun _ => ?_
      exact hidle.quiet (reconcileRequired_quiet executor pending)
  | false =>
    refine hidle.andThen (checkResourceVersion_quiet pending) fun rejected => ?_
    cases rejected with
    | some outcome => exact .ret rfl
    | none =>
      by_cases heffect : result.effect = .requireConfirmation
      · simp only [heffect, if_true]
        refine hidle.andThen (acquireResourceLock_quiet _ _) fun lock => ?_
        cases lock with
        | error outcome => exact .ret rfl
        | ok lock => exact hidle.andThen (ask_only trivial) fun _ => .ret rfl
      · simp only [heffect, if_false]
        refine hidle.andThen (ask_only trivial) fun _ =>
          hidle.andThen (acquireResourceLock_quiet _ _) fun lock => ?_
        cases lock with
        | error outcome => exact .ret rfl
        | ok lock => exact hidle.locked (hlocked heffect) lock

/-- `execute` gets to the tool only where the session and the policies allow the action. -/
theorem execute_returns (hidle : Idle M w) {state : AgentState} {pending : PendingAction}
    {confirmed : Bool}
    (hlocked : ∀ resolution remembers,
      executor.components.resolver.resolveRegistration pending.capability = .ok resolution →
      resolution.tool.name = pending.toolName →
      let action := ensureResourceMetadata pending resolution.tool.sideEffect
      (policyResult executor state action resolution
        (confirmedEffective executor state action confirmed)).effect = .allow →
      Returns M (executeLocked executor action resolution.tool remembers) w) :
    Returns M (execute executor state pending confirmed) w := by
  unfold execute
  split
  · exact .ret rfl
  · next resolution hresolve =>
    dsimp only
    split
    · exact .ret rfl
    · next hname =>
      split
      · exact .ret rfl
      · split
        · exact .ret rfl
        · refine hidle.andThen (ask_only trivial) fun _ => ?_
          split
          · exact .ret rfl
          · next hdeny =>
            refine hidle.andThen (checkSandbox_quiet executor _ _) fun rejected => ?_
            cases rejected with
            | some outcome => exact .ret rfl
            | none =>
              refine executeAllowed_returns executor hidle fun hconfirm => ?_
              refine hlocked resolution _ hresolve (not_not.mp hname) ?_
              cases heffect : (policyResult executor state
                  (ensureResourceMetadata pending resolution.tool.sideEffect) resolution
                  (confirmedEffective executor state
                    (ensureResourceMetadata pending resolution.tool.sideEffect) confirmed)).effect with
              | deny => exact absurd heffect hdeny
              | requireConfirmation => exact absurd heffect hconfirm
              | allow => rfl

/-- An action that is prepared is executed, unconfirmed. -/
theorem prepare_returns (hidle : Idle M w) {state : AgentState} {world : WorldSnapshot}
    {decision : Decision}
    (hexecute : ∀ pending, Returns M (execute executor state pending false) w) :
    Returns M (prepare executor state world decision) w := by
  unfold prepare
  split
  · exact .ret rfl
  · exact .ret rfl
  · dsimp only
    split
    · exact .ret rfl
    · exact hidle.andThen (ask_only trivial) fun _ =>
        hidle.andThen (whenever_only (ask_only trivial)) fun _ =>
          hidle.andThen (ask_only trivial) fun _ => hexecute _

/-- A run of `_drive`, where each action returns the monitor to where it was after a read of the
session. -/
theorem drive_meets {I : W → Prop} {D : Driven → Prop} (hidle : ∀ w, I w → Idle M w)
    (hread : ∀ w, I w → M.allowed w .readSession ∧ ∀ a, I (M.next w .readSession a))
    (hdecision : ∀ decision, D (.decision decision))
    (hdriven : ∀ w, I w → ∀ session driven, D driven →
      Returns M (executeDriven executor session.1 session.2 driven)
        (M.next w .readSession (.ok session)))
    {steps : Nat} {driven : Driven} (hd : D driven) (hw : I w) :
    Prog.Meets M (fun _ _ => True) (fun _ _ => True) (drive executor steps driven) w := by
  induction steps generalizing driven w with
  | zero => exact (hidle w hw).ends (ask_only trivial)
  | succ steps ih =>
    refine Prog.Only.andThen (ask_only trivial) (hidle w hw) (fun _ => trivial) fun requested => ?_
    cases requested with
    | true => exact .ret trivial
    | false =>
      refine .bind (.op (hread w hw).1 (fun session => ?_) fun _ => trivial)
      have hnext := (hread w hw).2 (.ok session)
      refine .bind ((hdriven w hw session driven hd).mono (fun outcome w' hw' => ?_)
        fun _ _ _ => trivial)
      subst hw'
      cases outcome with
      | rejected errorCode reason =>
        exact (hidle _ hnext).ends (ask_only trivial)
      | confirmationRequired pending reason =>
        exact (hidle _ hnext).ends (ask_only trivial)
      | observed pending result =>
        refine .bind (.op (hread _ hnext).1 (fun session' => ?_) fun _ => trivial)
        have hnext' := (hread _ hnext).2 (.ok session')
        refine (processObserved_quiet executor _ _ _).andThen (hidle _ hnext')
          (fun _ => trivial) fun recovery => ?_
        cases recovery with
        | none => exact .ret trivial
        | some decision => exact ih (hdecision decision) hnext'

end Executor

/-! ## A world that answers at once -/

/-- The registries answer, or else the world does, and nothing is interrupted. -/
def answerBy (world : (o : Op) → Answer o) (r : Registries) (o : Op) :
    Except Interrupt (Answer o) × Registries :=
  match r.perform o with
  | some (a, r') => (.ok a, r')
  | none => (.ok (world o), r)

theorem respond_answerBy (world : (o : Op) → Answer o) (r : Registries) (o : Op) :
    respond r o (answerBy world r o).1 (answerBy world r o).2 := by
  unfold respond answerBy
  cases r.perform o with
  | none => rfl
  | some answer => exact ⟨rfl, rfl⟩

/-- A world with one session, in which every tool ends in the same way. -/
def steadyWorld (session : AgentState × WorldSnapshot) (ended : ToolEnd) : (o : Op) → Answer o
  | .newActionId => "action-1"
  | .seen _ | .record _ | .isOwnedBy _ | .requestedControl => false
  | .acquire lock => .ok lock
  | .currentVersion _ => none
  | .reconcile _ _ => .ok none
  | .finish _ _ => ended
  | .readSession => session
  | .process _ _ => .next
  | .emit _ _ | .forget _ | .release _ | .setCurrent _ _ | .start _ _ | .setPending _ | .observe _ _
  | .remember _ | .countAttempt _ _ | .settle _ _ => ()

end UniversalAgent.Runtime.Actions
