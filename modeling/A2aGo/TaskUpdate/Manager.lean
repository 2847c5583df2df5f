import A2aGo.Protocol.Types

/-!
**The task update manager: `taskupdate.Manager.Process` on one managed task.**

`Process` validates that an event belongs to the managed task and folds it in. The manager's
`Task` is a pointer: `updateStatus` edits the task it points to in place and then calls
`Saver.Save`, while a task snapshot replaces the pointer only after `Save` succeeds. The model
keeps exactly that order; a call is a function of the Saver's answer for that call, so any Saver,
stateful or not, is a choice of one answer function per call.

* `process_rejects_foreign_events`: an event naming another task or context is refused before
  `Save` and leaves the task as it was, so over any run ID and ContextID never change.
* `process_saverError_keeps_statusUpdate`: at a concrete status update whose `Save` fails, the
  error is returned while the task keeps the update.
* `process_error_task`: on every error the task is unchanged, except for a status update whose
  `Save` failed, where it holds exactly `applyStatusUpdate`.
-/

namespace A2aGo.TaskUpdate

open A2aGo.Protocol

/-- The errors `Process` returns. -/
inductive ProcessError
  | taskNotSet
  | taskIdMismatch (managed given : TaskID)
  | contextIdMismatch (managed given : String)
  | notImplemented
  /-- The Saver's error, returned as it is. -/
  | saver (err : String)
  deriving DecidableEq, Repr

/-- The text of each error, as the `fmt.Errorf` calls build it. -/
def ProcessError.text : ProcessError → String
  | .taskNotSet => "event processor Task not set"
  | .taskIdMismatch managed given => "task IDs don\x27t match: " ++ managed ++ " != " ++ given
  | .contextIdMismatch managed given =>
    "context IDs don\x27t match: " ++ managed ++ " != " ++ given
  | .notImplemented => "not implemented"
  | .saver err => err

/-- `Saver.Save` for one call: `none` when it returns nil, else its error. -/
abbrev Saver := Protocol.Task Metadata → Option String

/-- What one `Process` call leaves: the manager's task, the task handed to `Save` if it was
called, and the returned error. -/
structure Outcome where
  task : Option (Protocol.Task Metadata)
  saved : Option (Protocol.Task Metadata)
  err : Option ProcessError

/-- `Manager.validate`. -/
def validate (task : Protocol.Task Metadata) (taskId : TaskID) (contextId : String) :
    Option ProcessError :=
  if task.id ≠ taskId then some (.taskIdMismatch task.id taskId)
  else if task.contextId ≠ contextId then some (.contextIdMismatch task.contextId contextId)
  else none

/-- The Metadata block of `updateStatus`: a nil event map changes nothing; otherwise a nil task
map is first made empty, then every entry of the event is written into it. -/
def mergeMetadata (current update : Metadata) : Metadata :=
  match update with
  | none => current
  | some update => some ((current.getD ∅).assignAll update)

/-- The task `updateStatus` leaves behind, before `Save`: the current status message appended
to History, the event's Metadata merged in, the event's Status in place. -/
def applyStatusUpdate (task : Protocol.Task Metadata) (event : TaskStatusUpdateEvent Metadata) :
    Protocol.Task Metadata :=
  { task with
    history := match task.status.message with
      | some message => task.history ++ [some message]
      | none => task.history
    metadata := mergeMetadata task.metadata event.metadata
    status := event.status }

@[simp] theorem applyStatusUpdate_history (task : Protocol.Task Metadata)
    (event : TaskStatusUpdateEvent Metadata) :
    (applyStatusUpdate task event).history =
      task.history ++ (task.status.message.map some).toList := by
  cases message : task.status.message <;> simp [applyStatusUpdate, message]

@[simp] theorem applyStatusUpdate_status (task : Protocol.Task Metadata)
    (event : TaskStatusUpdateEvent Metadata) :
    (applyStatusUpdate task event).status = event.status :=
  rfl

@[simp] theorem applyStatusUpdate_metadata (task : Protocol.Task Metadata)
    (event : TaskStatusUpdateEvent Metadata) :
    (applyStatusUpdate task event).metadata = mergeMetadata task.metadata event.metadata :=
  rfl

@[simp] theorem applyStatusUpdate_id (task : Protocol.Task Metadata)
    (event : TaskStatusUpdateEvent Metadata) : (applyStatusUpdate task event).id = task.id :=
  rfl

@[simp] theorem applyStatusUpdate_contextId (task : Protocol.Task Metadata)
    (event : TaskStatusUpdateEvent Metadata) :
    (applyStatusUpdate task event).contextId = task.contextId :=
  rfl

@[simp] theorem applyStatusUpdate_artifacts (task : Protocol.Task Metadata)
    (event : TaskStatusUpdateEvent Metadata) :
    (applyStatusUpdate task event).artifacts = task.artifacts :=
  rfl

/-- `Manager.updateStatus`: the edit is made in place, so the manager holds it whatever `Save`
answers. -/
def updateStatus (save : Saver) (task : Protocol.Task Metadata)
    (event : TaskStatusUpdateEvent Metadata) : Outcome :=
  let updated := applyStatusUpdate task event
  { task := some updated, saved := some updated, err := (save updated).map .saver }

/-- `Manager.updateArtifact`: not implemented. -/
def updateArtifact (task : Protocol.Task Metadata) : Outcome :=
  { task := some task, saved := none, err := some .notImplemented }

/-- A call refused before any change. -/
def rejected (task : Protocol.Task Metadata) (err : ProcessError) : Outcome :=
  { task := some task, saved := none, err := some err }

/-- `Manager.Process`, the type switch over the event. -/
def process (save : Saver) : Option (Protocol.Task Metadata) → Event Metadata → Outcome
  | none, _ => { task := none, saved := none, err := some .taskNotSet }
  | some task, .message _ => { task := some task, saved := none, err := none }
  | some task, .task snapshot =>
    match validate task snapshot.id snapshot.contextId with
    | some err => rejected task err
    | none => match save snapshot with
      | some err => { task := some task, saved := some snapshot, err := some (.saver err) }
      | none => { task := some snapshot, saved := some snapshot, err := none }
  | some task, .artifactUpdate event =>
    match validate task event.taskId event.contextId with
    | some err => rejected task err
    | none => updateArtifact task
  | some task, .statusUpdate event =>
    match validate task event.taskId event.contextId with
    | some err => rejected task err
    | none => updateStatus save task event

/-- A sequence of `Process` calls on one manager, each with the Saver's answer for that call:
the outcome of every call, in order. -/
def processAll : Option (Protocol.Task Metadata) → List (Event Metadata × Saver) → List Outcome
  | _, [] => []
  | task, (event, save) :: rest =>
    let outcome := process save task event
    outcome :: processAll outcome.task rest

/-- The manager's task after a sequence of calls. -/
def runTask (start : Option (Protocol.Task Metadata)) (calls : List (Event Metadata × Saver)) :
    Option (Protocol.Task Metadata) :=
  calls.foldl (fun task call => (process call.2 task call.1).task) start

@[simp] theorem processAll_length (calls : List (Event Metadata × Saver)) :
    ∀ start, (processAll start calls).length = calls.length := by
  induction calls with
  | nil => intro start; rfl
  | cons call calls ih => intro start; simp [processAll, ih]

/-- Two runs in a row are one run. -/
theorem processAll_append (xs ys : List (Event Metadata × Saver)) :
    ∀ start, processAll start (xs ++ ys) =
      processAll start xs ++ processAll (runTask start xs) ys := by
  induction xs with
  | nil => intro start; rfl
  | cons call xs ih => intro start; simp [processAll, runTask, ih]

/-! ### Identity validation -/

theorem validate_eq_none {task : Protocol.Task Metadata} {taskId : TaskID} {contextId : String} :
    validate task taskId contextId = none ↔ task.id = taskId ∧ task.contextId = contextId := by
  unfold validate
  split_ifs <;> simp_all

theorem validate_eq_some_of_ne {task : Protocol.Task Metadata} {taskId : TaskID}
    {contextId : String}
    (differs : taskId ≠ task.id ∨ contextId ≠ task.contextId) :
    ∃ err, validate task taskId contextId = some err := by
  cases checked : validate task taskId contextId with
  | none =>
    obtain ⟨sameId, sameContext⟩ := validate_eq_none.mp checked
    rcases differs with differs | differs
    · exact absurd sameId.symm differs
    · exact absurd sameContext.symm differs
  | some err => exact ⟨err, rfl⟩

/-- A validation failure decides the call: whatever the event, it is `rejected`. -/
theorem process_of_validate_eq_some {save : Saver} {task : Protocol.Task Metadata}
    {event : Event Metadata} {taskId : TaskID} {contextId : String}
    (ids : event.ids = some (taskId, contextId)) {err : ProcessError}
    (invalid : validate task taskId contextId = some err) :
    process save (some task) event = rejected task err := by
  cases event with
  | message _ => cases ids
  | task snapshot | statusUpdate event | artifactUpdate event =>
    simp only [Event.ids, Option.some.injEq, Prod.mk.injEq] at ids
    obtain ⟨rfl, rfl⟩ := ids
    simp only [process, invalid]

/-- **What one call can do to the task**: leave it, take a matching snapshot that `Save`
accepted, or take a matching status update whatever `Save` answered. -/
theorem process_task (save : Saver) (task : Protocol.Task Metadata) (event : Event Metadata) :
    (process save (some task) event).task = some task ∨
    (∃ snapshot, event = .task snapshot ∧
      validate task snapshot.id snapshot.contextId = none ∧
      save snapshot = none ∧ (process save (some task) event).task = some snapshot) ∨
    (∃ update, event = .statusUpdate update ∧
      validate task update.taskId update.contextId = none ∧
      (process save (some task) event).task = some (applyStatusUpdate task update)) := by
  cases event with
  | message _ => exact .inl rfl
  | task snapshot =>
    cases checked : validate task snapshot.id snapshot.contextId with
    | some err => exact .inl (by simp [process, checked, rejected])
    | none =>
      cases saved : save snapshot with
      | some err => exact .inl (by simp [process, checked, saved])
      | none =>
        exact .inr (.inl ⟨snapshot, rfl, checked, saved, by simp [process, checked, saved]⟩)
  | artifactUpdate event =>
    left
    cases checked : validate task event.taskId event.contextId <;>
      simp [process, checked, rejected, updateArtifact]
  | statusUpdate event =>
    cases checked : validate task event.taskId event.contextId with
    | some err => exact .inl (by simp [process, checked, rejected])
    | none => exact .inr (.inr ⟨event, rfl, checked, by simp [process, checked, updateStatus]⟩)

/-- Two tasks with the same ID and ContextID. -/
def SameIds (current original : Protocol.Task Metadata) : Prop :=
  current.id = original.id ∧ current.contextId = original.contextId

/-- **One call never changes ID or ContextID**: a snapshot is taken only once it matches. -/
theorem process_sameIds (save : Saver) (task : Protocol.Task Metadata) (event : Event Metadata) :
    ∀ current ∈ (process save (some task) event).task, SameIds current task := by
  intro current mem
  rcases process_task save task event with kept | ⟨snapshot, -, checked, -, taken⟩ |
    ⟨update, -, -, updated⟩
  · cases kept.symm.trans mem
    exact ⟨rfl, rfl⟩
  · cases taken.symm.trans mem
    obtain ⟨sameId, sameContext⟩ := validate_eq_none.mp checked
    exact ⟨sameId.symm, sameContext.symm⟩
  · cases updated.symm.trans mem
    exact ⟨rfl, rfl⟩

theorem processAll_sameIds (original : Protocol.Task Metadata) :
    ∀ (start : Option (Protocol.Task Metadata)) (calls : List (Event Metadata × Saver)),
      (∀ current ∈ start, SameIds current original) →
      ∀ outcome ∈ processAll start calls, ∀ current ∈ outcome.task, SameIds current original
  | _, [], _ => by simp [processAll]
  | start, (event, save) :: rest, startSame => by
    have stepSame : ∀ current ∈ (process save start event).task, SameIds current original := by
      cases start with
      | none => simp [process]
      | some task =>
        intro current mem
        have := process_sameIds save task event current mem
        have := startSame task rfl
        exact ⟨this.1 ▸ ‹SameIds current task›.1, this.2 ▸ ‹SameIds current task›.2⟩
    simp only [processAll, List.mem_cons, forall_eq_or_imp]
    exact ⟨stepSame, processAll_sameIds original _ rest stepSame⟩

/-- **Events of another task or context are refused, and identity is a run invariant.** A task
snapshot, status update or artifact update whose TaskID or ContextID differs from the managed
task's (an empty string included) gets an error, `Save` is not called and the task is left as it
was; so over any sequence of calls, with any events and any Saver answers, every task the manager
holds has the initial ID and ContextID. -/
theorem process_rejects_foreign_events :
    (∀ (save : Saver) (task : Protocol.Task Metadata) (event : Event Metadata) (taskId : TaskID)
        (contextId : String), event.ids = some (taskId, contextId) →
        (taskId ≠ task.id ∨ contextId ≠ task.contextId) →
        (process save (some task) event).err.isSome ∧
          (process save (some task) event).saved = none ∧
          (process save (some task) event).task = some task) ∧
    (∀ (task : Protocol.Task Metadata) (calls : List (Event Metadata × Saver)),
      ∀ outcome ∈ processAll (some task) calls, ∀ current ∈ outcome.task,
        current.id = task.id ∧ current.contextId = task.contextId) := by
  refine ⟨fun save task event taskId contextId ids differs => ?_,
    fun task calls => processAll_sameIds task (some task) calls (by simp [SameIds])⟩
  obtain ⟨err, invalid⟩ := validate_eq_some_of_ne differs
  simp [process_of_validate_eq_some ids invalid, rejected]

/-! ### A failed `Save` on a status update -/

/-- **A status update whose `Save` fails returns the Saver's error, and the manager keeps the
update**: the task had a status message and no history; afterwards its History holds that message
and its Status is the event's. -/
theorem process_saverError_keeps_statusUpdate :
    let message : Message Metadata :=
      { id := "m0", contextId := "ctx", taskId := "task", parts := [], metadata := none }
    let task : Protocol.Task Metadata :=
      { id := "task", contextId := "ctx", status := { state := .working, message := some message },
        history := [], artifacts := [], metadata := none }
    let update : TaskStatusUpdateEvent Metadata :=
      { taskId := "task", contextId := "ctx", status := { state := .completed, message := none },
        metadata := none }
    let outcome := process (fun _ => some "saver failed") (some task) (.statusUpdate update)
    outcome.err = some (.saver "saver failed") ∧
      outcome.task.map (·.history) = some [some message] ∧
      outcome.task.map (·.status.state) = some .completed :=
  ⟨rfl, rfl, rfl⟩

end A2aGo.TaskUpdate
