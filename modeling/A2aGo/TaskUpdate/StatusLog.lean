import A2aGo.TaskUpdate.Manager

/-!
**A run of status updates: History is the log of superseded status messages.**

Status updates for the managed task, processed in order with a Saver that accepts everything:

* `applyStatusUpdate_fold_log`: History followed by the current status message is, at every
  point of the run, the initial History followed by every non-nil status message so far;
* `applyStatusUpdate_fold_lookup`: a Metadata key reads from the last event whose Metadata has
  it, and from the initial Metadata when none has it;
* `processAll_statusUpdates`: each call saves the task it leaves, and the last one leaves the
  fold of all the updates;
* `processAll_statusUpdates_log`: the whole law, as the spec states it (`StatusLog`).
-/

namespace A2aGo.TaskUpdate

open A2aGo.Protocol

/-- The Saver that accepts every task. -/
def alwaysSaves : Saver := fun _ => none

/-- A `Process` call with a status update and the accepting Saver. -/
def statusCall (event : TaskStatusUpdateEvent Metadata) : Event Metadata × Saver :=
  (.statusUpdate event, alwaysSaves)

/-- The value of a key in a Metadata map that may be nil. -/
def metaLookup (key : String) (metadata : Metadata) : Option MetaVal :=
  metadata.bind fun map => map.lookup key

/-- The outcome of a call that saved `task`, left it in the manager and returned nil. -/
def savedOutcome (task : Protocol.Task Metadata) : Outcome :=
  { task := some task, saved := some task, err := none }

/-- Every event names the task's ID and ContextID. -/
def Matching (task : Protocol.Task Metadata) (events : List (TaskStatusUpdateEvent Metadata)) :
    Prop :=
  ∀ event ∈ events, event.taskId = task.id ∧ event.contextId = task.contextId

/-! ### One update -/

@[simp] theorem metaLookup_mergeMetadata (key : String) (current update : Metadata) :
    metaLookup key (mergeMetadata current update) =
      (metaLookup key update).or (metaLookup key current) := by
  cases update with
  | none => rfl
  | some update => cases current <;> simp [mergeMetadata, metaLookup]

@[simp] theorem isSome_mergeMetadata (current update : Metadata) :
    (mergeMetadata current update).isSome = (current.isSome || update.isSome) := by
  cases update <;> cases current <;> rfl

theorem process_statusUpdate_of_matching {task : Protocol.Task Metadata}
    {event : TaskStatusUpdateEvent Metadata} (sameId : event.taskId = task.id)
    (sameContext : event.contextId = task.contextId) :
    process alwaysSaves (some task) (.statusUpdate event) =
      savedOutcome (applyStatusUpdate task event) := by
  have valid : validate task event.taskId event.contextId = none :=
    validate_eq_none.mpr ⟨sameId.symm, sameContext.symm⟩
  simp [process, valid, updateStatus, alwaysSaves, savedOutcome]

theorem findSome?_singleton {α β : Type} (f : α → Option β) (a : α) :
    [a].findSome? f = f a := by
  cases value : f a <;> simp [List.findSome?_cons, value]

/-! ### The fold of a run -/

theorem applyStatusUpdate_fold_ids (events : List (TaskStatusUpdateEvent Metadata)) :
    ∀ task : Protocol.Task Metadata,
      (events.foldl applyStatusUpdate task).id = task.id ∧
      (events.foldl applyStatusUpdate task).contextId = task.contextId ∧
      (events.foldl applyStatusUpdate task).artifacts = task.artifacts := by
  induction events with
  | nil => simp
  | cons event events ih => intro task; simpa using ih _

/-- **History followed by the current status message is the log of all status messages.** -/
theorem applyStatusUpdate_fold_log (events : List (TaskStatusUpdateEvent Metadata)) :
    ∀ task : Protocol.Task Metadata,
      (events.foldl applyStatusUpdate task).history ++
          ((events.foldl applyStatusUpdate task).status.message.map some).toList =
        task.history ++
          ((task.status.message :: events.map (·.status.message)).filterMap id).map some := by
  induction events with
  | nil => intro task; cases message : task.status.message <;> simp [message]
  | cons event events ih =>
    intro task
    rw [List.foldl_cons, ih]
    cases message : task.status.message <;> simp [message]

/-- **Last writer wins, key by key.** -/
theorem applyStatusUpdate_fold_lookup (key : String)
    (events : List (TaskStatusUpdateEvent Metadata)) :
    ∀ task : Protocol.Task Metadata,
      metaLookup key (events.foldl applyStatusUpdate task).metadata =
        (events.reverse.findSome? (metaLookup key ·.metadata)).or
          (metaLookup key task.metadata) := by
  induction events with
  | nil => simp
  | cons event events ih =>
    intro task
    simp [ih, List.findSome?_append, findSome?_singleton, Option.or_assoc]

theorem applyStatusUpdate_fold_isSome (events : List (TaskStatusUpdateEvent Metadata)) :
    ∀ task : Protocol.Task Metadata,
      (events.foldl applyStatusUpdate task).metadata.isSome =
        (task.metadata.isSome || events.any (·.metadata.isSome)) := by
  induction events with
  | nil => simp
  | cons event events ih => intro task; simp [ih, Bool.or_assoc]

/-! ### The run -/

theorem runTask_statusUpdates (events : List (TaskStatusUpdateEvent Metadata)) :
    ∀ task : Protocol.Task Metadata, Matching task events →
      runTask (some task) (events.map statusCall) = some (events.foldl applyStatusUpdate task) := by
  induction events with
  | nil => intro task _; rfl
  | cons event events ih =>
    intro task matching
    obtain ⟨sameId, sameContext⟩ := matching event (List.mem_cons_self _ _)
    have step := process_statusUpdate_of_matching sameId sameContext
    have rest := ih (applyStatusUpdate task event) fun e mem =>
      matching e (List.mem_cons_of_mem _ mem)
    simpa [runTask, statusCall, step, savedOutcome] using rest

/-- **Each call saves the task it leaves in the manager, and returns nil.** -/
theorem processAll_statusUpdates_saved (events : List (TaskStatusUpdateEvent Metadata)) :
    ∀ task : Protocol.Task Metadata, Matching task events →
      ∀ outcome ∈ processAll (some task) (events.map statusCall),
        ∃ current, outcome = savedOutcome current := by
  induction events with
  | nil => simp [processAll]
  | cons event events ih =>
    intro task matching
    obtain ⟨sameId, sameContext⟩ := matching event (List.mem_cons_self _ _)
    have rest := ih (applyStatusUpdate task event) fun e mem =>
      matching e (List.mem_cons_of_mem _ mem)
    simp only [List.map_cons, processAll, statusCall,
      process_statusUpdate_of_matching sameId sameContext]
    exact List.forall_mem_cons.mpr ⟨⟨_, rfl⟩, rest⟩

/-- The law of a run of matching status updates, as the spec states it: `t` is the task after
`events ++ [last]` started from `initial`. -/
structure StatusLog (initial : Protocol.Task Metadata)
    (events : List (TaskStatusUpdateEvent Metadata)) (last : TaskStatusUpdateEvent Metadata)
    (t : Protocol.Task Metadata) : Prop where
  status : t.status = last.status
  history : t.history = initial.history ++
    ((initial.status.message :: events.map (·.status.message)).filterMap id).map some
  metadata : ∀ key, metaLookup key t.metadata =
    ((events ++ [last]).reverse.findSome? (metaLookup key ·.metadata)).or
      (metaLookup key initial.metadata)
  metadataNil : t.metadata.isSome =
    (initial.metadata.isSome || (events ++ [last]).any (·.metadata.isSome))
  id : t.id = initial.id
  contextId : t.contextId = initial.contextId
  artifacts : t.artifacts = initial.artifacts

/-- **Status updates fold into the task as the spec says.** Processing `e₁ … e_K` (here
`events ++ [last]`), all naming the task, with a Saver that always succeeds: the final Status is
`e_K`'s; History is the initial History followed by the non-nil messages among the initial status
message and `e₁ … e_{K-1}`'s; Metadata is the initial map with each non-nil event map merged in
order, later values winning; ID, ContextID and Artifacts are unchanged; and Save is called once
per event, with the task as it is after that event. -/
theorem processAll_statusUpdates_log (initial : Protocol.Task Metadata)
    (events : List (TaskStatusUpdateEvent Metadata)) (last : TaskStatusUpdateEvent Metadata)
    (matching : Matching initial (events ++ [last])) :
    ∃ t, (processAll (some initial) ((events ++ [last]).map statusCall)).getLast? =
        some (savedOutcome t) ∧ StatusLog initial events last t ∧
      (processAll (some initial) ((events ++ [last]).map statusCall)).length = events.length + 1 ∧
      ∀ outcome ∈ processAll (some initial) ((events ++ [last]).map statusCall),
        ∃ current, outcome = savedOutcome current := by
  have prefixMatching : Matching initial events := fun e mem =>
    matching e (List.mem_append_left _ mem)
  obtain ⟨lastId, lastContext⟩ := matching last (by simp)
  obtain ⟨sameId, sameContext, sameArtifacts⟩ :=
    applyStatusUpdate_fold_ids (events ++ [last]) initial
  have lastStep : process alwaysSaves (some (events.foldl applyStatusUpdate initial))
      (.statusUpdate last) = savedOutcome ((events ++ [last]).foldl applyStatusUpdate initial) := by
    rw [List.foldl_append, List.foldl_cons, List.foldl_nil]
    exact process_statusUpdate_of_matching
      (lastId.trans (applyStatusUpdate_fold_ids events initial).1.symm)
      (lastContext.trans (applyStatusUpdate_fold_ids events initial).2.1.symm)
  have history := applyStatusUpdate_fold_log events initial
  refine ⟨(events ++ [last]).foldl applyStatusUpdate initial, ?_,
    ⟨by simp, ?_, fun key => applyStatusUpdate_fold_lookup key _ initial,
      applyStatusUpdate_fold_isSome _ initial, sameId, sameContext, sameArtifacts⟩,
    by simp, processAll_statusUpdates_saved _ initial matching⟩
  · rw [List.map_append, processAll_append, runTask_statusUpdates events initial prefixMatching]
    simp [processAll, statusCall, lastStep]
  · simpa using history

/-- An agent message of the tests, with its text as its ID. -/
def agentMessage (text : String) : Message Metadata :=
  { id := text, contextId := "ctx", taskId := "task", parts := [.text text none], metadata := none }

/-- A Metadata map of strings. -/
def stringMetadata (entries : List (String × String)) : Metadata :=
  some (entries.map fun entry => (⟨entry.1, .scalar .string entry.2⟩ : Σ _ : String, MetaVal)).toAList

/-- A task whose status carries the message "hello". -/
def statusRunInitial : Protocol.Task Metadata :=
  { id := "task", contextId := "ctx",
    status := { state := .submitted, message := some (agentMessage "hello") },
    history := [], artifacts := [], metadata := none }

/-- The first two updates of `TestManager_StatusUpdate_MetadataUpdated`, the first with the
message "world" and the second with none. -/
def statusRunEvents : List (TaskStatusUpdateEvent Metadata) :=
  [{ taskId := "task", contextId := "ctx",
      status := { state := .working, message := some (agentMessage "world") },
      metadata := stringMetadata [("foo", "bar")] },
    { taskId := "task", contextId := "ctx", status := { state := .working, message := none },
      metadata := stringMetadata [("foo", "bar2"), ("hello", "world")] }]

/-- The last update, with the message "foo" and the map `{"one": "two"}`. -/
def statusRunLast : TaskStatusUpdateEvent Metadata :=
  { taskId := "task", contextId := "ctx",
    status := { state := .completed, message := some (agentMessage "foo") },
    metadata := stringMetadata [("one", "two")] }

theorem processAll_statusUpdates_log_statusRun :
    Matching statusRunInitial (statusRunEvents ++ [statusRunLast]) ∧
    ∃ t, (processAll (some statusRunInitial)
        ((statusRunEvents ++ [statusRunLast]).map statusCall)).getLast? = some (savedOutcome t) ∧
      StatusLog statusRunInitial statusRunEvents statusRunLast t ∧
      (processAll (some statusRunInitial)
        ((statusRunEvents ++ [statusRunLast]).map statusCall)).length =
        statusRunEvents.length + 1 ∧
      ∀ outcome ∈ processAll (some statusRunInitial)
          ((statusRunEvents ++ [statusRunLast]).map statusCall),
        ∃ current, outcome = savedOutcome current :=
  have matching : Matching statusRunInitial (statusRunEvents ++ [statusRunLast]) := by
    unfold Matching; decide
  ⟨matching, processAll_statusUpdates_log _ _ _ matching⟩

/-- On that run History holds "hello" and "world" and skips the update with no message, the
Status is the last update's, and `foo` reads from the second map, `hello` and `one` from the
only maps that hold them. -/
example : ((processAll (some statusRunInitial)
    ((statusRunEvents ++ [statusRunLast]).map statusCall)).getLast?.bind (·.task)).map
      (fun t => (t.history.map (·.map (·.id)), t.status.message.map (·.id), t.status.state,
        ["foo", "hello", "one"].map (metaLookup · t.metadata))) =
    some ([some "hello", some "world"], some "foo", .completed,
      [some (.scalar .string "bar2"), some (.scalar .string "world"),
        some (.scalar .string "two")]) := by
  decide

end A2aGo.TaskUpdate
