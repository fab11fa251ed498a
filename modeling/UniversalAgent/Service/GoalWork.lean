import UniversalAgent.Distributed.Scheduler
import UniversalAgent.Persistence.RoundTrip

/-!
# Service — Goal work

A goal and its task on their way through the work queue (`service/distributed_runtime.py`): the
payload `schedule_goal` puts on the queue, and the goal and the task that the worker reads from it.

The two ends do not agree: the worker refuses what `schedule_goal` does not look at, and an expected
value goes through JSON.
-/

namespace UniversalAgent.Service

open UniversalAgent.Core UniversalAgent.Foundation UniversalAgent.Distributed

/-! ## The payload -/

/-- `{path}[{index}]`. -/
def itemPath (path : String) (index : Nat) : String := path ++ "[" ++ toString index ++ "]"

inductive WorkPayloadError where
  | invalid (message : String)
  | notSerializable (e : JsonCodecError)
deriving DecidableEq, Repr

/-- `PydanticNonEmptyString`. -/
abbrev NonEmptyString := { s : String // Text.isBlank s = false }

structure GoalWorkSuccessCriterionPayload where
  key : NonEmptyString
  expected : Json

structure GoalWorkPayload where
  id : NonEmptyString
  description : NonEmptyString
  successCriteria : { items : List GoalWorkSuccessCriterionPayload // items ≠ [] }
  createdAt : Option String

structure TaskWorkPayload where
  id : NonEmptyString
  description : NonEmptyString
  requiredCriteria : List NonEmptyString
  createdAt : Option String

structure GoalTaskWorkPayload where
  goal : GoalWorkPayload
  task : TaskWorkPayload

section Readers

variable {α : Type}

def readNonEmptyString (path : String) : Option Json → Except WorkPayloadError NonEmptyString
  | some (.str s) =>
    if h : Text.isBlank s = false then .ok ⟨s, h⟩
    else .error (.invalid (path ++ " must not be empty"))
  | _ => .error (.invalid (path ++ " must be a string"))

/-- `str | None`, `None` by default. -/
def readOptionalString (path : String) : Option Json → Except WorkPayloadError (Option String)
  | none | some .null => .ok none
  | some (.str s) => .ok (some s)
  | some _ => .error (.invalid (path ++ " must be a string"))

def readObject (path : String) : Option Json → Except WorkPayloadError JsonMapping
  | some (.obj fields) => .ok fields
  | _ => .error (.invalid (path ++ " must be an object"))

def readItems (read : String → Option Json → Except WorkPayloadError α) (path : String) :
    Nat → List Json → Except WorkPayloadError (List α)
  | _, [] => .ok []
  | index, v :: vs => do
      let a ← read (itemPath path index) (some v)
      let items ← readItems read path (index + 1) vs
      pure (a :: items)

def readList (read : String → Option Json → Except WorkPayloadError α) (path : String) :
    Option Json → Except WorkPayloadError (List α)
  | some (.arr items) => readItems read path 0 items
  | _ => .error (.invalid (path ++ " must be a list"))

/-- `Field(min_length=1)`. -/
def minLengthOne (path : String) (items : List α) :
    Except WorkPayloadError { items : List α // items ≠ [] } :=
  if h : items ≠ [] then .ok ⟨items, h⟩ else .error (.invalid (path ++ " must not be empty"))

def readJsonValue (path : String) : Option Json → Except WorkPayloadError Json
  | some v => .ok v
  | none => .error (.invalid (path ++ " is required"))

/-- `_GoalWorkSuccessCriterionPayload`. -/
def readSuccessCriterion (path : String) (v : Option Json) :
    Except WorkPayloadError GoalWorkSuccessCriterionPayload := do
  let fields ← readObject path v
  let key ← readNonEmptyString (path ++ ".key") (fields.lookup "key")
  let expected ← readJsonValue (path ++ ".expected") (fields.lookup "expected")
  pure ⟨key, expected⟩

/-- `_GoalWorkPayload`. -/
def readGoal (v : Option Json) : Except WorkPayloadError GoalWorkPayload := do
  let fields ← readObject "goal" v
  let id ← readNonEmptyString "goal.id" (fields.lookup "id")
  let description ← readNonEmptyString "goal.description" (fields.lookup "description")
  let items ← readList readSuccessCriterion "goal.success_criteria"
    (fields.lookup "success_criteria")
  let successCriteria ← minLengthOne "goal.success_criteria" items
  let createdAt ← readOptionalString "goal.created_at" (fields.lookup "created_at")
  pure ⟨id, description, successCriteria, createdAt⟩

/-- `_TaskWorkPayload`. -/
def readTask (v : Option Json) : Except WorkPayloadError TaskWorkPayload := do
  let fields ← readObject "task" v
  let id ← readNonEmptyString "task.id" (fields.lookup "id")
  let description ← readNonEmptyString "task.description" (fields.lookup "description")
  let requiredCriteria ← readList readNonEmptyString "task.required_criteria"
    (fields.lookup "required_criteria")
  let createdAt ← readOptionalString "task.created_at" (fields.lookup "created_at")
  pure ⟨id, description, requiredCriteria, createdAt⟩

def parseGoalTaskWorkPayload (payload : JsonMapping) :
    Except WorkPayloadError GoalTaskWorkPayload := do
  let goal ← readGoal (payload.lookup "goal")
  let task ← readTask (payload.lookup "task")
  pure ⟨goal, task⟩

end Readers

section Codec

variable (codec : JsonCodec) (iso : IsoFormat)

def criterionPayload (criterion : SuccessCriterion) : Except JsonCodecError Json := do
  let expected ← codec.toJsonValue criterion.expected
  pure (.obj [("key", .str criterion.key), ("expected", expected)])

def goalWorkPayload (goal : Goal) (task : Task) : Except JsonCodecError JsonMapping := do
  let criteria ← goal.successCriteria.mapM (criterionPayload codec)
  pure
    [("goal", .obj
        [("id", .str goal.id), ("description", .str goal.description),
          ("success_criteria", .arr criteria),
          ("created_at", .str (iso.isoformat goal.createdAt))]),
      ("task", .obj
        [("id", .str task.id), ("description", .str task.description),
          ("required_criteria", .arr (task.requiredCriteria.map .str)),
          ("created_at", .str (iso.isoformat task.createdAt))])]

def goalWorkIdempotencyKey (goal : Goal) (task : Task) : String :=
  "goal:" ++ goal.id ++ ":" ++ task.id

def copyJsonValue (v : Json) : Except WorkPayloadError Json :=
  match codec.toJsonValue v with
  | .ok w => .ok w
  | .error e => .error (.notSerializable e)

def successCriteriaFromPayload (items : List GoalWorkSuccessCriterionPayload) :
    Except WorkPayloadError (List SuccessCriterion) :=
  items.mapM fun item => do
    let expected ← copyJsonValue codec item.expected
    pure ⟨item.key, expected⟩

/-- `_datetime_payload_field`; `now` is what the clock reads. -/
def datetimePayloadField (value : Option String) (field : String) (now : Instant) :
    Except WorkPayloadError Instant :=
  match value with
  | none => .ok now
  | some text =>
    match iso.isoparse text with
    | some t => .ok t
    | none => .error (.invalid (field ++ " must be an ISO datetime string"))

/-- `goal_task_from_work_payload`; the clock is read where a time is missing. -/
def goalTaskFromWorkPayload (goalNow taskNow : Instant) (payload : JsonMapping) :
    Except WorkPayloadError (Goal × Task) := do
  let work ← parseGoalTaskWorkPayload payload
  let criteria ← successCriteriaFromPayload codec work.goal.successCriteria
  let goalCreatedAt ← datetimePayloadField iso work.goal.createdAt "goal.created_at" goalNow
  let taskCreatedAt ← datetimePayloadField iso work.task.createdAt "task.created_at" taskNow
  pure
    ({ description := work.goal.description, successCriteria := criteria, id := work.goal.id,
       status := .pending, createdAt := goalCreatedAt },
      { description := work.task.description,
        requiredCriteria := work.task.requiredCriteria.map Subtype.val, id := work.task.id,
        status := .pending, createdAt := taskCreatedAt })

inductive ScheduleGoalError where
  | payload (e : JsonCodecError)
  | queue (e : QueueError)

/-- The arguments of `schedule_goal` besides the goal and the task, and the clock readings of
`enqueue`. -/
structure ScheduleGoalOptions where
  priority : Int
  maxAttempts : Int
  idempotencyKey : Option String
  now : Option Time
  utcNow : Time
  createdAt : Time

/-- `idempotency_key or goal_work_idempotency_key(goal, task)`. -/
def ScheduleGoalOptions.key (o : ScheduleGoalOptions) (goal : Goal) (task : Task) : String :=
  match o.idempotencyKey with
  | some key => if key = "" then goalWorkIdempotencyKey goal task else key
  | none => goalWorkIdempotencyKey goal task

/-- `DistributedRuntimeController.schedule_goal`. -/
def scheduleGoalWork (q : WorkQueue JsonMapping) (goal : Goal) (task : Task)
    (o : ScheduleGoalOptions) :
    Except ScheduleGoalError (WorkItem JsonMapping) × WorkQueue JsonMapping :=
  match goalWorkPayload codec iso goal task with
  | .error e => (.error (.payload e), q)
  | .ok payload =>
    match q.scheduleGoal (o.key goal task)
        ⟨payload, o.priority, o.maxAttempts, o.now, o.utcNow, o.createdAt⟩ with
    | (.error e, q') => (.error (.queue e), q')
    | (.ok item, q') => (.ok item, q')

/-! ## Reading what was written -/

variable {α β : Type}

theorem readNonEmptyString_str {path s : String} {t : NonEmptyString} :
    readNonEmptyString path (some (.str s)) = .ok t ↔ t.val = s := by
  change (if h : Text.isBlank s = false then Except.ok ⟨s, h⟩ else .error _) = Except.ok t ↔ _
  by_cases hs : Text.isBlank s = false
  · rw [dif_pos hs, Except.ok.injEq, Subtype.ext_iff, eq_comm]
  · rw [dif_neg hs]
    exact iff_of_false nofun fun h => hs (h ▸ t.property)

/-- A list is read as it was written when its items are. -/
theorem readItems_map {read : String → Option Json → Except WorkPayloadError α} {write : β → Json}
    {view : α → β} (h : ∀ path b a, read path (some (write b)) = .ok a ↔ view a = b)
    {path : String} {index : Nat} {bs : List β} {as : List α} :
    readItems read path index (bs.map write) = .ok as ↔ as.map view = bs := by
  induction bs generalizing index as with
  | nil => simp [readItems, eq_comm]
  | cons b bs ih =>
    rw [List.map_cons, readItems, Except.bind_eq_ok]
    constructor
    · rintro ⟨a, ha, hrest⟩
      obtain ⟨items, hitems, hpure⟩ := Except.bind_eq_ok.mp hrest
      cases hpure
      rw [List.map_cons, (h _ _ _).mp ha, ih.mp hitems]
    · intro hview
      cases as with
      | nil => cases hview
      | cons a as =>
        obtain ⟨ha, has⟩ := List.cons.inj hview
        exact ⟨a, (h _ _ _).mpr ha, Except.bind_eq_ok.mpr ⟨as, ih.mpr has, rfl⟩⟩

/-- The written form of a criterion whose expected value is as JSON has it. -/
def writtenCriterion (criterion : SuccessCriterion) : Json :=
  .obj [("key", .str criterion.key), ("expected", criterion.expected)]

def GoalWorkSuccessCriterionPayload.criterion (item : GoalWorkSuccessCriterionPayload) :
    SuccessCriterion := ⟨item.key, item.expected⟩

theorem readSuccessCriterion_written (path : String) (criterion : SuccessCriterion)
    (item : GoalWorkSuccessCriterionPayload) :
    readSuccessCriterion path (some (writtenCriterion criterion)) = .ok item ↔
      item.criterion = criterion := by
  change (readNonEmptyString (path ++ ".key") (some (.str criterion.key)) >>= fun key =>
    pure (⟨key, criterion.expected⟩ : GoalWorkSuccessCriterionPayload)) = .ok item ↔ _
  rw [Except.bind_eq_ok]
  constructor
  · rintro ⟨key, hkey, hitem⟩
    cases hitem
    rw [GoalWorkSuccessCriterionPayload.criterion, readNonEmptyString_str.mp hkey]
  · rintro rfl
    exact ⟨item.key, readNonEmptyString_str.mpr rfl, rfl⟩

theorem minLengthOne_eq_ok {path : String} {items : List α}
    {read : { items : List α // items ≠ [] }} :
    minLengthOne path items = .ok read ↔ read.val = items := by
  unfold minLengthOne
  by_cases h : items ≠ []
  · rw [dif_pos h, Except.ok.injEq, Subtype.ext_iff, eq_comm]
  · rw [dif_neg h]
    exact iff_of_false nofun fun hread => h (hread ▸ read.property)

/-- What `goal_work_payload` writes of a goal whose expected values are as JSON has them. -/
def writtenGoal (goal : Goal) : Json :=
  .obj
    [("id", .str goal.id), ("description", .str goal.description),
      ("success_criteria", .arr (goal.successCriteria.map writtenCriterion)),
      ("created_at", .str (iso.isoformat goal.createdAt))]

/-- What `goal_work_payload` writes of a task. -/
def writtenTask (task : Task) : Json :=
  .obj
    [("id", .str task.id), ("description", .str task.description),
      ("required_criteria", .arr (task.requiredCriteria.map .str)),
      ("created_at", .str (iso.isoformat task.createdAt))]

structure GoalWorkPayload.Holds (payload : GoalWorkPayload) (goal : Goal) : Prop where
  id : payload.id = goal.id
  description : payload.description = goal.description
  successCriteria :
    payload.successCriteria.val.map GoalWorkSuccessCriterionPayload.criterion =
      goal.successCriteria
  createdAt : payload.createdAt = some (iso.isoformat goal.createdAt)

structure TaskWorkPayload.Holds (payload : TaskWorkPayload) (task : Task) : Prop where
  id : payload.id = task.id
  description : payload.description = task.description
  requiredCriteria : payload.requiredCriteria.map Subtype.val = task.requiredCriteria
  createdAt : payload.createdAt = some (iso.isoformat task.createdAt)

variable {goal : Goal} {criteria : List SuccessCriterion}

theorem readGoal_written {payload : GoalWorkPayload} :
    readGoal (some (writtenGoal iso goal)) = .ok payload ↔ payload.Holds iso goal := by
  have hcriteria : ∀ items, readList readSuccessCriterion "goal.success_criteria"
      (some (.arr (goal.successCriteria.map writtenCriterion))) = .ok items ↔
        items.map GoalWorkSuccessCriterionPayload.criterion = goal.successCriteria :=
    fun items => readItems_map readSuccessCriterion_written
  constructor
  · intro h
    obtain ⟨fields, hfields, h⟩ := Except.bind_eq_ok.mp h
    cases hfields
    obtain ⟨id, hid, h⟩ := Except.bind_eq_ok.mp h
    obtain ⟨description, hdescription, h⟩ := Except.bind_eq_ok.mp h
    obtain ⟨items, hitems, h⟩ := Except.bind_eq_ok.mp h
    obtain ⟨successCriteria, hlength, h⟩ := Except.bind_eq_ok.mp h
    obtain ⟨createdAt, hcreated, h⟩ := Except.bind_eq_ok.mp h
    cases h
    cases hcreated
    have hview := (hcriteria items).mp hitems
    rw [← minLengthOne_eq_ok.mp hlength] at hview
    exact ⟨readNonEmptyString_str.mp hid, readNonEmptyString_str.mp hdescription, hview, rfl⟩
  · intro h
    refine Except.bind_eq_ok.mpr ⟨_, rfl, Except.bind_eq_ok.mpr
      ⟨payload.id, readNonEmptyString_str.mpr h.id, Except.bind_eq_ok.mpr
        ⟨payload.description, readNonEmptyString_str.mpr h.description, Except.bind_eq_ok.mpr
          ⟨payload.successCriteria, (hcriteria _).mpr h.successCriteria, Except.bind_eq_ok.mpr
            ⟨payload.successCriteria, minLengthOne_eq_ok.mpr rfl, Except.bind_eq_ok.mpr
              ⟨_, rfl, ?_⟩⟩⟩⟩⟩⟩
    rw [← h.createdAt]
    rfl

theorem readTask_written {task : Task} {payload : TaskWorkPayload} :
    readTask (some (writtenTask iso task)) = .ok payload ↔ payload.Holds iso task := by
  have hcriteria : ∀ items, readList readNonEmptyString "task.required_criteria"
      (some (.arr (task.requiredCriteria.map .str))) = .ok items ↔
        items.map Subtype.val = task.requiredCriteria :=
    fun items => readItems_map fun _ _ _ => readNonEmptyString_str
  constructor
  · intro h
    obtain ⟨fields, hfields, h⟩ := Except.bind_eq_ok.mp h
    cases hfields
    obtain ⟨id, hid, h⟩ := Except.bind_eq_ok.mp h
    obtain ⟨description, hdescription, h⟩ := Except.bind_eq_ok.mp h
    obtain ⟨items, hitems, h⟩ := Except.bind_eq_ok.mp h
    obtain ⟨createdAt, hcreated, h⟩ := Except.bind_eq_ok.mp h
    cases h
    cases hcreated
    exact ⟨readNonEmptyString_str.mp hid, readNonEmptyString_str.mp hdescription,
      (hcriteria items).mp hitems, rfl⟩
  · intro h
    refine Except.bind_eq_ok.mpr ⟨_, rfl, Except.bind_eq_ok.mpr
      ⟨payload.id, readNonEmptyString_str.mpr h.id, Except.bind_eq_ok.mpr
        ⟨payload.description, readNonEmptyString_str.mpr h.description, Except.bind_eq_ok.mpr
          ⟨payload.requiredCriteria, (hcriteria _).mpr h.requiredCriteria, Except.bind_eq_ok.mpr
            ⟨_, rfl, ?_⟩⟩⟩⟩⟩
    rw [← h.createdAt]
    rfl

/-! ## What the worker reads -/

structure Readable (goal : Goal) (task : Task) : Prop where
  goalId : Text.isBlank goal.id = false
  goalDescription : Text.isBlank goal.description = false
  successCriteria : goal.successCriteria ≠ []
  keys : ∀ criterion ∈ goal.successCriteria, Text.isBlank criterion.key = false
  taskId : Text.isBlank task.id = false
  taskDescription : Text.isBlank task.description = false
  requiredCriteria : ∀ key ∈ task.requiredCriteria, Text.isBlank key = false

theorem exists_goal_holds {task : Task} (h : Readable goal task) :
    ∃ payload : GoalWorkPayload, payload.Holds iso goal := by
  have hread : goal.successCriteria ∈
      Set.range (List.map GoalWorkSuccessCriterionPayload.criterion) := by
    rw [Set.range_list_map]
    intro criterion hmem
    exact ⟨⟨⟨criterion.key, h.keys criterion hmem⟩, criterion.expected⟩, rfl⟩
  obtain ⟨items, hitems⟩ := hread
  have hne : items ≠ [] := by
    rintro rfl
    exact h.successCriteria hitems.symm
  exact ⟨⟨⟨goal.id, h.goalId⟩, ⟨goal.description, h.goalDescription⟩, ⟨items, hne⟩,
    some (iso.isoformat goal.createdAt)⟩, rfl, rfl, hitems, rfl⟩

theorem exists_task_holds {task : Task} (h : Readable goal task) :
    ∃ payload : TaskWorkPayload, payload.Holds iso task := by
  have hread : task.requiredCriteria ∈
      Set.range (List.map (Subtype.val : NonEmptyString → String)) := by
    rw [Set.range_list_map]
    intro key hmem
    exact ⟨⟨key, h.requiredCriteria key hmem⟩, rfl⟩
  obtain ⟨keys, hkeys⟩ := hread
  exact ⟨⟨⟨task.id, h.taskId⟩, ⟨task.description, h.taskDescription⟩, keys,
    some (iso.isoformat task.createdAt)⟩, rfl, rfl, hkeys, rfl⟩

variable {iso} in
theorem readable_of_holds {task : Task} {p : GoalWorkPayload} {t : TaskWorkPayload}
    (hp : p.Holds iso goal) (ht : t.Holds iso task) : Readable goal task where
  goalId := hp.id ▸ p.id.property
  goalDescription := hp.description ▸ p.description.property
  successCriteria := by
    rw [← hp.successCriteria, ne_eq, List.map_eq_nil_iff]
    exact p.successCriteria.property
  keys := by
    rw [← hp.successCriteria, List.forall_mem_map]
    exact fun item _ => item.key.property
  taskId := ht.id ▸ t.id.property
  taskDescription := ht.description ▸ t.description.property
  requiredCriteria := by
    rw [← ht.requiredCriteria, List.forall_mem_map]
    exact fun key _ => key.property

theorem successCriteriaFromPayload_plain {items : List GoalWorkSuccessCriterionPayload}
    (h : ∀ item ∈ items, item.expected.isPlain = true) :
    successCriteriaFromPayload codec items =
      .ok (items.map GoalWorkSuccessCriterionPayload.criterion) := by
  rw [successCriteriaFromPayload, Except.mapM_eq_ok, List.forall₂_map_right_iff, List.forall₂_same]
  intro item hitem
  rw [copyJsonValue, codec.toJsonValue_plain _ (h item hitem)]
  rfl

theorem datetimePayloadField_written (t : Instant) (field : String) (now : Instant) :
    datetimePayloadField iso (some (iso.isoformat t)) field now = .ok t := by
  rw [datetimePayloadField, iso.isoparse_isoformat]

/-- **What the worker reads of a written payload**: the goal and the task, both pending, when it
takes them. -/
theorem decode_written {goal : Goal} {task : Task} {goalNow taskNow : Instant}
    {read : Goal × Task} (hplain : ∀ criterion ∈ goal.successCriteria,
      criterion.expected.isPlain = true) :
    goalTaskFromWorkPayload codec iso goalNow taskNow
        [("goal", writtenGoal iso goal), ("task", writtenTask iso task)] = .ok read ↔
      Readable goal task ∧
        ({ goal with status := .pending }, { task with status := .pending }) = read := by
  have hbuild : ∀ {p : GoalWorkPayload} {t : TaskWorkPayload}, p.Holds iso goal →
      t.Holds iso task → parseGoalTaskWorkPayload
        [("goal", writtenGoal iso goal), ("task", writtenTask iso task)] = .ok ⟨p, t⟩ →
      goalTaskFromWorkPayload codec iso goalNow taskNow
          [("goal", writtenGoal iso goal), ("task", writtenTask iso task)] =
        .ok ({ goal with status := .pending }, { task with status := .pending }) := by
    intro p t hp ht hparse
    have hitems : ∀ item ∈ p.successCriteria.val, item.expected.isPlain = true := by
      have := hplain
      rw [← hp.successCriteria, List.forall_mem_map] at this
      exact this
    rw [goalTaskFromWorkPayload, hparse, Except.ok_bind,
      successCriteriaFromPayload_plain codec hitems, Except.ok_bind, hp.createdAt,
      datetimePayloadField_written, Except.ok_bind, ht.createdAt, datetimePayloadField_written,
      Except.ok_bind, hp.id, hp.description, hp.successCriteria, ht.id, ht.description,
      ht.requiredCriteria]
    rfl
  constructor
  · intro h
    obtain ⟨⟨p, t⟩, hparse, -⟩ := Except.bind_eq_ok.mp h
    obtain ⟨p', hgoal, hrest⟩ := Except.bind_eq_ok.mp hparse
    obtain ⟨t', htask, hpure⟩ := Except.bind_eq_ok.mp hrest
    cases hpure
    have hp := (readGoal_written iso).mp hgoal
    have ht := (readTask_written iso).mp htask
    exact ⟨readable_of_holds hp ht, Except.ok.inj ((hbuild hp ht hparse).symm.trans h)⟩
  · rintro ⟨hr, rfl⟩
    obtain ⟨p, hp⟩ := exists_goal_holds iso hr
    obtain ⟨t, ht⟩ := exists_task_holds iso hr
    exact hbuild hp ht (Except.bind_eq_ok.mpr ⟨p, (readGoal_written iso).mpr hp,
      Except.bind_eq_ok.mpr ⟨t, (readTask_written iso).mpr ht, rfl⟩⟩)

/-! ## What the queue carries -/

def sentCriterion (criterion : SuccessCriterion) : Except JsonCodecError SuccessCriterion := do
  let expected ← codec.toJsonValue criterion.expected
  pure ⟨criterion.key, expected⟩

theorem criterionPayload_eq_ok {criterion : SuccessCriterion} {v : Json} :
    criterionPayload codec criterion = .ok v ↔
      ∃ sent, sentCriterion codec criterion = .ok sent ∧ writtenCriterion sent = v := by
  unfold criterionPayload sentCriterion
  cases codec.toJsonValue criterion.expected with
  | error e => exact iff_of_false nofun (by rintro ⟨sent, hsent, -⟩; cases hsent)
  | ok expected =>
    constructor
    · intro h
      cases h
      exact ⟨⟨criterion.key, expected⟩, rfl, rfl⟩
    · rintro ⟨sent, hsent, rfl⟩
      cases hsent
      rfl

theorem criteria_sent {items : List Json}
    (h : criteria.mapM (criterionPayload codec) = .ok items) :
    ∃ sent, criteria.mapM (sentCriterion codec) = .ok sent ∧ items = sent.map writtenCriterion := by
  rw [Except.mapM_eq_ok] at h
  induction h with
  | nil => exact ⟨[], rfl, rfl⟩
  | cons hitem _ ih =>
    obtain ⟨sent, hsent, hrest⟩ := ih
    obtain ⟨first, hfirst, rfl⟩ := (criterionPayload_eq_ok codec).mp hitem
    exact ⟨first :: sent, Except.mapM_eq_ok.mpr (.cons hfirst (Except.mapM_eq_ok.mp hsent)),
      by rw [hrest, List.map_cons]⟩

/-- A criterion is sent as it is exactly when its expected value is plain. -/
theorem sentCriterion_eq_self {criterion : SuccessCriterion} :
    sentCriterion codec criterion = .ok criterion ↔ criterion.expected.isPlain = true := by
  rw [sentCriterion, Except.bind_mk_eq_ok (fun expected => (⟨criterion.key, expected⟩ :
    SuccessCriterion)) SuccessCriterion.expected (fun _ => rfl) rfl, codec.toJsonValue_eq_self]

theorem sent_plain {criteria sent : List SuccessCriterion}
    (h : criteria.mapM (sentCriterion codec) = .ok sent) :
    ∀ criterion ∈ sent, criterion.expected.isPlain = true := by
  intro criterion hmem
  obtain ⟨original, -, horiginal⟩ := Except.exists_of_mem_mapM h criterion hmem
  obtain ⟨expected, hexpected, hpure⟩ := Except.bind_eq_ok.mp horiginal
  cases hpure
  exact codec.isPlain_toJsonValue _ _ hexpected

/-- What `goal_work_payload` writes: the goal with its criteria as they are sent, and the task. -/
theorem goalWorkPayload_written {task : Task} {payload : JsonMapping}
    (h : goalWorkPayload codec iso goal task = .ok payload) :
    ∃ sent, goal.successCriteria.mapM (sentCriterion codec) = .ok sent ∧
      payload = [("goal", writtenGoal iso { goal with successCriteria := sent }),
        ("task", writtenTask iso task)] := by
  obtain ⟨items, hitems, hpure⟩ := Except.bind_eq_ok.mp h
  obtain ⟨sent, hsent, rfl⟩ := criteria_sent codec hitems
  cases hpure
  exact ⟨sent, hsent, rfl⟩

/-- What `schedule_goal` puts on the queue is the payload of the goal and the task. -/
theorem scheduleGoalWork_payload {q : WorkQueue JsonMapping} {task : Task}
    {o : ScheduleGoalOptions} {item : WorkItem JsonMapping}
    (h : (scheduleGoalWork codec iso q goal task o).1 = .ok item)
    (hnew : q.findIdempotent (o.key goal task) = none) :
    goalWorkPayload codec iso goal task = .ok item.payload := by
  unfold scheduleGoalWork at h
  cases hp : goalWorkPayload codec iso goal task with
  | error e =>
    rw [hp] at h
    cases h
  | ok payload =>
    rw [hp] at h
    simp only at h
    have hcases := schedule_cases q (.goal (o.key goal task)
      ⟨payload, o.priority, o.maxAttempts, o.now, o.utcNow, o.createdAt⟩)
    change (∃ i, _ ∧ q.findIdempotent (o.key goal task) = some i ∧ _) ∨
      (∃ j, _ ∧ (q.scheduleGoal _ _).1 = _ ∧ WorkQueue.Created q (q.scheduleGoal _ _).2 _ j) ∨
      (∃ e, (q.scheduleGoal _ _).1 = _ ∧ _) at hcases
    rcases hs : q.scheduleGoal (o.key goal task)
      ⟨payload, o.priority, o.maxAttempts, o.now, o.utcNow, o.createdAt⟩ with ⟨r, q'⟩
    rw [hs] at h hcases
    rcases hcases with ⟨i, -, hfound, -⟩ | ⟨j, -, hj, hcreated⟩ | ⟨e, he, -⟩
    · rw [hnew] at hfound
      cases hfound
    · cases hj
      cases h
      rw [hcreated.fields]
      rfl
    · cases he
      cases h

/-! ## Main result -/

structure RoundTrips (goal : Goal) (task : Task) : Prop where
  readable : Readable goal task
  goalStatus : goal.status = .pending
  taskStatus : task.status = .pending
  plain : ∀ criterion ∈ goal.successCriteria, criterion.expected.isPlain = true

theorem Readable.of_sent {task : Task}
    (h : Readable { goal with successCriteria := criteria } task)
    (heq : criteria = goal.successCriteria) : Readable goal task := by
  subst heq
  exact h

/-- **A goal and a task come out of the queue as they went in** exactly when the worker takes them,
both are pending, and JSON can hold each expected value. -/
theorem goal_work_round_trip {q : WorkQueue JsonMapping} {goal : Goal} {task : Task}
    {o : ScheduleGoalOptions} {item : WorkItem JsonMapping} (goalNow taskNow : Instant)
    (h : (scheduleGoalWork codec iso q goal task o).1 = .ok item)
    (hnew : q.findIdempotent (o.key goal task) = none) :
    goalTaskFromWorkPayload codec iso goalNow taskNow item.payload = .ok (goal, task) ↔
      RoundTrips goal task := by
  obtain ⟨sent, hsent, hpayload⟩ :=
    goalWorkPayload_written codec iso (scheduleGoalWork_payload codec iso h hnew)
  rw [hpayload, @decode_written codec iso { goal with successCriteria := sent } _ _ _ _
    (sent_plain codec hsent)]
  constructor
  · rintro ⟨hreadable, hread⟩
    obtain ⟨hgoal, htask⟩ := Prod.mk.inj hread
    have hcriteria : sent = goal.successCriteria := congrArg Goal.successCriteria hgoal
    exact
      { readable := hreadable.of_sent hcriteria
        goalStatus := (congrArg Goal.status hgoal).symm
        taskStatus := (congrArg Task.status htask).symm
        plain := hcriteria ▸ sent_plain codec hsent }
  · intro hr
    have hself : goal.successCriteria.mapM (sentCriterion codec) = .ok goal.successCriteria :=
      Except.mapM_eq_self.mpr fun criterion hmem =>
        (sentCriterion_eq_self codec).mpr (hr.plain criterion hmem)
    obtain rfl : goal.successCriteria = sent := Except.ok.inj (hself.symm.trans hsent)
    obtain ⟨description, criteria, id, status, createdAt⟩ := goal
    obtain ⟨taskDescription, required, taskId, taskStatus, taskCreatedAt⟩ := task
    obtain rfl : status = .pending := hr.goalStatus
    obtain rfl : taskStatus = .pending := hr.taskStatus
    exact ⟨hr.readable, rfl⟩

end Codec

/-! ## Two goals on an empty queue -/

def inspectGoal (criteria : List SuccessCriterion) : Goal :=
  ⟨"inspect", criteria, "goal-1", .pending, 0⟩

def lookTask : Task := ⟨"look", ["healthy"], "task-1", .pending, 0⟩

/-- `schedule_goal` with its defaults, at the epoch. -/
def atEpoch : ScheduleGoalOptions := ⟨0, 3, none, none, 0, 0⟩

def scheduledOnce (criteria : List SuccessCriterion) :
    Except ScheduleGoalError (WorkItem JsonMapping) :=
  (scheduleGoalWork plainCodec Persistence.epochIso WorkQueue.new (inspectGoal criteria) lookTask
    atEpoch).1

theorem goal_work_round_trip_inspect :
    ∃ item, scheduledOnce [⟨"healthy", .bool true⟩] = .ok item ∧
      goalTaskFromWorkPayload plainCodec Persistence.epochIso 0 0 item.payload =
        .ok (inspectGoal [⟨"healthy", .bool true⟩], lookTask) := by
  obtain ⟨item, hitem⟩ : ∃ item, scheduledOnce [⟨"healthy", .bool true⟩] = .ok item := ⟨_, rfl⟩
  refine ⟨item, hitem, (goal_work_round_trip plainCodec Persistence.epochIso 0 0 hitem rfl).mpr ?_⟩
  exact
    { readable := ⟨by decide, by decide, by decide, by decide, by decide, by decide, by decide⟩
      goalStatus := rfl
      taskStatus := rfl
      plain := by decide }

/-- A goal without success criteria is accepted, and no worker takes it. -/
theorem goal_without_criteria_unreadable :
    ∃ item, scheduledOnce [] = .ok item ∧
      goalTaskFromWorkPayload plainCodec Persistence.epochIso 0 0 item.payload =
        .error (.invalid "goal.success_criteria must not be empty") :=
  ⟨_, rfl, by decide +kernel⟩

end UniversalAgent.Service
