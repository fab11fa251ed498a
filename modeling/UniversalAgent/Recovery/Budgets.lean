import UniversalAgent.Foundation.Separators
import UniversalAgent.Recovery.Manager
import UniversalAgent.Core.Dictionaries
import UniversalAgent.Persistence.RoundTrip

/-!
# Recovery — Budgets

How often a rule may recover from the failures of a task (`runtime/recovery_planning.py`): each decision on a
failure counts in the session's table of attempts, under a key joined from the task, the category and the
rule's name, and the table is saved with the session before the decision is followed.

A rule never recovers more often than it may. But a joined text does not tell its parts: a task whose id
goes on with a category, and a rule whose name begins with one, can have the key of another task and rule.
-/

namespace UniversalAgent.Recovery

open UniversalAgent.Core UniversalAgent.Foundation UniversalAgent.Persistence

abbrev Attempts := List (String × Int)

/-- `attempts.get(key, 0)`. -/
def Attempts.used (attempts : Attempts) (key : String) : Int := (attempts.lookup key).getD 0

/-- The table after a decision on a failure (`plan_recovery_for_pending`). -/
def countAttempt (manager : RecoveryManager) (failure : Failure) (attempts : Attempts) : Attempts :=
  let decided := manager.decide failure attempts
  if decided.2 = "" then attempts else dictSet attempts decided.2 decided.1.attempt

/-! ## Sessions -/

structure SessionAttempts where
  live : Attempts
  stored : Json

/-- `"recovery_attempts": dict(state.recovery_attempts)`. -/
def storeAttempts (attempts : Attempts) : Json := .obj (attempts.map fun p => (p.1, .int p.2))

/-- `recovery_attempts=dict(payload.recovery_attempts)`. -/
def restoreAttempts (stored : Json) : Except DecodeError Attempts := readDict readInt stored

/-- What becomes of the commit that follows a decision: it is done, it is done and the call raises all the
same, or it is not done and the call raises. -/
inductive Commit where
  | done
  | raisedAfter
  | notDone
deriving DecidableEq

structure Followed where
  sessionId : SessionId
  taskId : TaskId
  category : FailureCategory
  rule : RecoveryRule
  exhausted : Bool
deriving DecidableEq

structure RecoveryState where
  sessions : SessionId → SessionAttempts
  followed : List Followed

def RecoveryState.empty : RecoveryState := ⟨fun _ => ⟨[], storeAttempts []⟩, []⟩

/-- A failure in a session with the rules of its runtime, or its table saved with another commit, or
restored. -/
inductive RecoveryStep where
  | failure (sessionId : SessionId) (manager : RecoveryManager) (failure : Failure) (commit : Commit)
  | save (sessionId : SessionId)
  | restore (sessionId : SessionId)

namespace RecoveryState

variable (s : RecoveryState)

def withSession (sessionId : SessionId) (attempts : SessionAttempts) : RecoveryState :=
  { s with sessions := Function.update s.sessions sessionId attempts }

/-- What was followed after a decision: where the call returned, the decision of the rule. -/
def followedAfter (sessionId : SessionId) (manager : RecoveryManager) (failure : Failure) :
    Commit → List Followed
  | .done => match manager.ruleFor failure with
      | none => s.followed
      | some rule => s.followed ++ [⟨sessionId, failure.taskId, failure.category, rule,
          (manager.decide failure (s.sessions sessionId).live).1.exhausted⟩]
  | .raisedAfter | .notDone => s.followed

def step : RecoveryStep → RecoveryState
  | .failure sessionId manager failure commit =>
    let session := s.sessions sessionId
    let live := countAttempt manager failure session.live
    let stored := if commit = .notDone then session.stored else storeAttempts live
    { s.withSession sessionId ⟨live, stored⟩ with
      followed := s.followedAfter sessionId manager failure commit }
  | .save sessionId =>
    let live := (s.sessions sessionId).live
    s.withSession sessionId ⟨live, storeAttempts live⟩
  | .restore sessionId =>
    let session := s.sessions sessionId
    match restoreAttempts session.stored with
    | .ok live => s.withSession sessionId { session with live := live }
    | .error _ => s

/-- The recovery decisions that a rule made on the failures of one category of a task. -/
def recoveries (sessionId : SessionId) (taskId : TaskId) (category : FailureCategory)
    (rule : RecoveryRule) : Nat :=
  s.followed.countP fun f => f = ⟨sessionId, taskId, category, rule, false⟩

/-- What is used up of the budget of a rule for the failures of one category of a task. -/
def usedUp (sessionId : SessionId) (taskId : TaskId) (category : FailureCategory) (rule : RecoveryRule) :
    Int :=
  Attempts.used (s.sessions sessionId).live (attemptKey taskId category rule.name)

end RecoveryState

inductive RecoveryRun : RecoveryState → Prop where
  | empty : RecoveryRun .empty
  | step {s : RecoveryState} (h : RecoveryRun s) (st : RecoveryStep) : RecoveryRun (s.step st)

/-! ## Keys -/

/-- The one task's id goes on with its category, and the other's rule name comes to the end of the first
rule's name. -/
def Continues (taskId : TaskId) (category : FailureCategory) (ruleName : String) (taskId' : TaskId)
    (category' : FailureCategory) (ruleName' : String) : Prop :=
  (taskId' = taskId ++ ":" ++ StrEnum.value category ∧
      ruleName = StrEnum.value category' ++ ":" ++ ruleName') ∨
    ∃ w, taskId' = taskId ++ ":" ++ StrEnum.value category ++ ":" ++ w ∧
      ruleName = w ++ ":" ++ StrEnum.value category' ++ ":" ++ ruleName'

/-- The budgets have one key: the rules have one name and are for the same failures, or the one continues
the other. -/
def SharesKey (taskId : TaskId) (category : FailureCategory) (ruleName : String) (taskId' : TaskId)
    (category' : FailureCategory) (ruleName' : String) : Prop :=
  (taskId = taskId' ∧ category = category' ∧ ruleName = ruleName') ∨
    Continues taskId category ruleName taskId' category' ruleName' ∨
    Continues taskId' category' ruleName' taskId category ruleName

section Keys

theorem colon_notMem_value (c : FailureCategory) : ':' ∉ (StrEnum.value c).toList := by
  cases c <;> decide +kernel

theorem toList_attemptKey (taskId : TaskId) (category : FailureCategory) (ruleName : String) :
    (attemptKey taskId category ruleName).toList =
      taskId.toList ++ ':' :: ((StrEnum.value category).toList ++ ':' :: ruleName.toList) := by
  unfold attemptKey
  simp only [String.toList_append, List.append_assoc]
  rfl

variable {taskId taskId' : TaskId} {category category' : FailureCategory} {ruleName ruleName' : String}

theorem attemptKey_ne_empty : attemptKey taskId category ruleName ≠ "" := by
  intro h
  have hlist := congrArg String.toList h
  rw [toList_attemptKey] at hlist
  exact absurd hlist (by simp)

theorem continues_iff :
    Continues taskId category ruleName taskId' category' ruleName' ↔
      ∃ w, taskId'.toList = taskId.toList ++ ':' :: w ∧
        (StrEnum.value category).toList ++ ':' :: ruleName.toList =
          w ++ ':' :: ((StrEnum.value category').toList ++ ':' :: ruleName'.toList) := by
  unfold Continues
  simp only [← String.toList_inj, String.toList_append,
    append_cons_eq_iff_of_notMem (colon_notMem_value category)]
  constructor
  · rintro (⟨htask, hrule⟩ | ⟨w, htask, hrule⟩)
    · exact ⟨_, by simpa using htask, .inl ⟨rfl, by simpa using hrule⟩⟩
    · exact ⟨_, by simpa using htask, .inr ⟨w.toList, rfl, by simpa using hrule⟩⟩
  · rintro ⟨w, htask, ⟨rfl, hrule⟩ | ⟨u, rfl, hrule⟩⟩
    · exact .inl ⟨by simpa using htask, by simpa using hrule⟩
    · exact .inr ⟨String.ofList u, by simpa using htask, by simpa using hrule⟩

theorem attemptKey_eq_iff :
    attemptKey taskId category ruleName = attemptKey taskId' category' ruleName' ↔
      SharesKey taskId category ruleName taskId' category' ruleName' := by
  unfold SharesKey
  rw [← String.toList_inj, toList_attemptKey, toList_attemptKey, append_cons_eq_iff, continues_iff,
    continues_iff]
  refine or_congr ?_ Iff.rfl
  rw [String.toList_inj, append_cons_eq_iff_of_notMem (colon_notMem_value category)]
  refine and_congr_right fun _ => ⟨?_, ?_⟩
  · rintro (⟨hcategory, hrule⟩ | ⟨w, hcategory, -⟩)
    · exact ⟨StrEnum.value_injective (String.toList_inj.mp hcategory), String.toList_inj.mp hrule⟩
    · refine absurd ?_ (colon_notMem_value category')
      rw [hcategory]
      exact List.mem_append_right _ List.mem_cons_self
  · rintro ⟨rfl, rfl⟩
    exact .inl ⟨rfl, rfl⟩

end Keys

/-! ## The table -/

section Attempts

variable {attempts : Attempts} {manager : RecoveryManager} {failure : Failure} {rule : RecoveryRule}

theorem used_dictSet (key key' : String) (value : Int) :
    Attempts.used (dictSet attempts key value) key' = if key' = key then value else attempts.used key' := by
  unfold Attempts.used
  split
  · next h => rw [h, lookup_dictSet, Option.getD_some]
  · next h => rw [lookup_dictSet_ne h]

theorem decide_of_none (h : manager.ruleFor failure = none) :
    countAttempt manager failure attempts = attempts := by
  unfold countAttempt RecoveryManager.decide
  rw [h]
  rfl

theorem countAttempt_of_some (h : manager.ruleFor failure = some rule) :
    countAttempt manager failure attempts =
      dictSet attempts (attemptKey failure.taskId failure.category rule.name)
        (attempts.used (attemptKey failure.taskId failure.category rule.name) + 1) := by
  unfold countAttempt RecoveryManager.decide
  rw [h]
  dsimp only
  rw [if_neg attemptKey_ne_empty]
  rfl

theorem exhausted_of_some (h : manager.ruleFor failure = some rule) :
    (manager.decide failure attempts).1.exhausted = false ↔
      attempts.used (attemptKey failure.taskId failure.category rule.name) + 1 ≤ rule.maxAttempts := by
  unfold RecoveryManager.decide
  rw [h]
  dsimp only
  rw [decide_eq_false_iff_not, not_lt]
  rfl

theorem used_countAttempt (h : manager.ruleFor failure = some rule) (key : String) :
    Attempts.used (countAttempt manager failure attempts) key =
      if key = attemptKey failure.taskId failure.category rule.name then attempts.used key + 1
      else attempts.used key := by
  rw [countAttempt_of_some h, used_dictSet]
  split
  · next hkey => rw [hkey]
  · rfl

theorem used_le_countAttempt (manager : RecoveryManager) (failure : Failure) (attempts : Attempts)
    (key : String) : attempts.used key ≤ Attempts.used (countAttempt manager failure attempts) key := by
  cases h : manager.ruleFor failure with
  | none => rw [decide_of_none h]
  | some rule =>
    rw [used_countAttempt h]
    split <;> omega

theorem restoreAttempts_store (attempts : Attempts) :
    restoreAttempts (storeAttempts attempts) = .ok attempts := readDict_ints attempts

end Attempts

/-! ## Runs -/

/-- What a session has followed is within what is stored, and that within what is live. -/
def Covered (s : RecoveryState) (sessionId : SessionId) : Prop :=
  ∃ stored, (s.sessions sessionId).stored = storeAttempts stored ∧ ∀ key,
    stored.used key ≤ (s.sessions sessionId).live.used key ∧
      ∀ taskId category rule, attemptKey taskId category rule.name = key →
        (s.recoveries sessionId taskId category rule : Int) ≤ stored.used key

def Bounded (s : RecoveryState) (sessionId : SessionId) : Prop :=
  ∀ taskId category rule, (s.recoveries sessionId taskId category rule : Int) ≤ rule.maxAttempts

section Steps

variable {s s' : RecoveryState} {sessionId : SessionId}

/-- A session is judged by its table and by what it followed. -/
theorem Covered.congr (h : Covered s sessionId) (hsession : s'.sessions sessionId = s.sessions sessionId)
    (hrecoveries : ∀ taskId category rule,
      s'.recoveries sessionId taskId category rule = s.recoveries sessionId taskId category rule) :
    Covered s' sessionId := by
  unfold Covered
  simp only [hsession, hrecoveries]
  exact h

theorem Covered.withSession {live stored : Attempts}
    (h : ∀ key, stored.used key ≤ live.used key ∧ ∀ taskId category rule,
      attemptKey taskId category rule.name = key →
        (s.recoveries sessionId taskId category rule : Int) ≤ stored.used key) :
    Covered (s.withSession sessionId ⟨live, storeAttempts stored⟩) sessionId := by
  have hsession : (s.withSession sessionId ⟨live, storeAttempts stored⟩).sessions sessionId =
      ⟨live, storeAttempts stored⟩ := Function.update_self _ _ _
  unfold Covered
  rw [hsession]
  exact ⟨stored, rfl, h⟩

/-- What a failure adds to the recoveries of a rule: nothing, or one if it is the rule's and not
exhausted. -/
theorem recoveries_failure (s : RecoveryState) (sessionId : SessionId) (manager : RecoveryManager)
    (failure : Failure) (commit : Commit) (sessionId' : SessionId) (taskId : TaskId)
    (category : FailureCategory) (rule : RecoveryRule) :
    (s.step (.failure sessionId manager failure commit)).recoveries sessionId' taskId category rule =
        s.recoveries sessionId' taskId category rule ∨
      (s.step (.failure sessionId manager failure commit)).recoveries sessionId' taskId category rule =
          s.recoveries sessionId' taskId category rule + 1 ∧
        sessionId' = sessionId ∧ commit = .done ∧ manager.ruleFor failure = some rule ∧
          taskId = failure.taskId ∧ category = failure.category ∧
          (manager.decide failure (s.sessions sessionId).live).1.exhausted = false := by
  change (s.followedAfter sessionId manager failure commit).countP _ = _ ∨
    (s.followedAfter sessionId manager failure commit).countP _ = _ ∧ _
  unfold RecoveryState.followedAfter
  cases commit with
  | raisedAfter | notDone => exact .inl rfl
  | done =>
    cases hrule : manager.ruleFor failure with
    | none => exact .inl rfl
    | some rule' =>
      dsimp only
      rw [List.countP_append, List.countP_singleton]
      split
      · next hsame =>
        obtain ⟨rfl, rfl, rfl, rfl, hexhausted⟩ := Followed.mk.inj (of_decide_eq_true hsame)
        exact .inr ⟨rfl, rfl, rfl, rfl, rfl, rfl, hexhausted⟩
      · exact .inl rfl

/-- A failure leaves the tables of other sessions alone. -/
theorem sessions_failure_ne {manager : RecoveryManager} {failure : Failure} {commit : Commit}
    {sessionId' : SessionId} (h : sessionId' ≠ sessionId) :
    (s.step (.failure sessionId manager failure commit)).sessions sessionId' = s.sessions sessionId' :=
  Function.update_of_ne h _ _

theorem sessions_failure {manager : RecoveryManager} {failure : Failure} {commit : Commit} :
    (s.step (.failure sessionId manager failure commit)).sessions sessionId =
      ⟨countAttempt manager failure (s.sessions sessionId).live,
        if commit = .notDone then (s.sessions sessionId).stored
        else storeAttempts (countAttempt manager failure (s.sessions sessionId).live)⟩ :=
  Function.update_self _ _ _

/-- **A failure** is within the budget of its rule, or exhausted. -/
theorem failure_within (hcovered : Covered s sessionId) (hbounded : Bounded s sessionId)
    (manager : RecoveryManager) (failure : Failure) (commit : Commit) :
    Covered (s.step (.failure sessionId manager failure commit)) sessionId ∧
      Bounded (s.step (.failure sessionId manager failure commit)) sessionId := by
  obtain ⟨stored, hstored, hkeys⟩ := hcovered
  have hlive := used_le_countAttempt manager failure (s.sessions sessionId).live
  have hrecoveries := recoveries_failure s sessionId manager failure commit sessionId
  constructor
  · unfold Covered
    rw [sessions_failure]
    by_cases hcommit : commit = .notDone
    · refine ⟨stored, by rw [if_pos hcommit]; exact hstored, fun key => ⟨(hkeys key).1.trans (hlive key), ?_⟩⟩
      intro taskId category rule hkey
      rcases hrecoveries taskId category rule with hsame | ⟨-, -, hdone, -⟩
      · rw [hsame]
        exact (hkeys key).2 taskId category rule hkey
      · rw [hcommit] at hdone
        cases hdone
    · refine ⟨_, by rw [if_neg hcommit], fun key => ⟨le_rfl, ?_⟩⟩
      intro taskId category rule hkey
      have hbefore := ((hkeys key).2 taskId category rule hkey).trans (hkeys key).1
      rcases hrecoveries taskId category rule with hsame | ⟨hnext, -, -, hrule, rfl, rfl, -⟩
      · rw [hsame]
        exact hbefore.trans (hlive key)
      · rw [hnext, used_countAttempt hrule, if_pos hkey.symm]
        push_cast
        omega
  · intro taskId category rule
    rcases hrecoveries taskId category rule with hsame | ⟨hnext, -, -, hrule, rfl, rfl, hexhausted⟩
    · rw [hsame]
      exact hbounded taskId category rule
    · have hbefore := hkeys (attemptKey failure.taskId failure.category rule.name)
      have hcount := hbefore.2 failure.taskId failure.category rule rfl
      have hmax := (exhausted_of_some hrule).mp hexhausted
      rw [hnext]
      push_cast
      omega

end Steps

/-- One step keeps every session within its budgets. -/
theorem step_within {s : RecoveryState} (h : ∀ sessionId, Covered s sessionId ∧ Bounded s sessionId)
    (st : RecoveryStep) (sessionId : SessionId) :
    Covered (s.step st) sessionId ∧ Bounded (s.step st) sessionId := by
  cases st with
  | failure failed manager failure commit =>
    by_cases hsession : sessionId = failed
    · subst hsession
      exact failure_within (h sessionId).1 (h sessionId).2 manager failure commit
    · have hrecoveries : ∀ taskId category rule,
          (s.step (.failure failed manager failure commit)).recoveries sessionId taskId category rule =
            s.recoveries sessionId taskId category rule := fun taskId category rule =>
        (recoveries_failure s failed manager failure commit sessionId taskId category rule).elim id
          fun hnext => absurd hnext.2.1 hsession
      refine ⟨(h sessionId).1.congr (sessions_failure_ne hsession) hrecoveries, fun taskId category rule => ?_⟩
      rw [hrecoveries]
      exact (h sessionId).2 taskId category rule
  | save saved =>
    refine ⟨?_, (h sessionId).2⟩
    by_cases hsession : sessionId = saved
    · subst hsession
      obtain ⟨stored, -, hkeys⟩ := (h sessionId).1
      refine .withSession fun key => ⟨le_rfl, fun taskId category rule hkey => ?_⟩
      exact ((hkeys key).2 taskId category rule hkey).trans (hkeys key).1
    · exact (h sessionId).1.congr (Function.update_of_ne hsession ..) fun _ _ _ => rfl
  | restore restored =>
    obtain ⟨stored, hstored, hkeys⟩ := (h restored).1
    have hstep : s.step (.restore restored) =
        s.withSession restored ⟨stored, storeAttempts stored⟩ := by
      unfold RecoveryState.step
      dsimp only
      rw [hstored, restoreAttempts_store]
    rw [hstep]
    refine ⟨?_, (h sessionId).2⟩
    by_cases hsession : sessionId = restored
    · subst hsession
      exact .withSession fun key => ⟨le_rfl, (hkeys key).2⟩
    · exact (h sessionId).1.congr (Function.update_of_ne hsession ..) fun _ _ _ => rfl

theorem RecoveryRun.within {s : RecoveryState} (h : RecoveryRun s) (sessionId : SessionId) :
    Covered s sessionId ∧ Bounded s sessionId := by
  induction h generalizing sessionId with
  | empty => exact ⟨⟨[], rfl, fun _ => ⟨le_rfl, fun _ _ _ _ => le_rfl⟩⟩, fun _ _ rule => rule.attempts_nonneg⟩
  | step _ st ih => exact step_within ih st sessionId

/-- Two rules, one for timeouts and one for transient failures, each for one attempt. -/
def timeoutRule : RecoveryRule :=
  ⟨"transient:retry", [.timeout], .retryAction, 1, none, 100, [], by decide, by decide, by decide⟩

def transientRule : RecoveryRule :=
  ⟨"retry", [.transient], .retryAction, 1, none, 100, [], by decide, by decide, by decide⟩

def retryManager : RecoveryManager := .of [timeoutRule, transientRule]

def taskFailure (taskId : TaskId) (errorCode : ErrorCode) : Failure :=
  ⟨taskId, errorCode, classifyFailure errorCode, "failed", none, [], none⟩

end UniversalAgent.Recovery
