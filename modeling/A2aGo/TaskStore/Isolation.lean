import A2aGo.TaskStore.Mem

/-!
**What `Mem`'s deep copies buy: the store's tasks are its own.**

Whatever callers write, and however `Save` and `Get` calls interleave, what the store holds for a
TaskID changes only when a `Save` maps the TaskID to its copy under the lock, and each call sees
the store as it was at one step of its own:

* `store_copies_unchanged`: **over every run, the copies `Save` made keep their value**, and no
  caller can reach them;
* `mem_contents_step`: a step changes what the store holds only at a `Save`'s
  `s.tasks[task.ID] = copy`, and there to the copy's value;
* `save_stores_copy`: that step is always taken, and stores `gob`'s round trip of the value the
  caller's task had when `deepCopy` read it, whatever the caller wrote since;
* `get_returns_stored_copy`: a `Get` that found its TaskID in the map always returns, with `gob`'s
  round trip of what the store held for it at that step, in new objects the store cannot reach.

The run `storedImmutability` is the store's test `TestInMemoryTaskStore_StoredImmutability`: the
caller changes the task's status, its first artifact and its Metadata after `Save`, and `Get`
returns the task as it was saved.
-/

namespace A2aGo.TaskStore

open A2aGo.Protocol Relation

variable {V : Type} {codec : Codec V}

/-! ### The store's copies -/

section Copies

variable {s s' : Store V}

/-- No caller reaches a copy of the store. -/
theorem Separated.not_reach {heap : GoHeap V} {held owned : List Nat}
    (sep : Separated heap held owned) {q p : Nat} (inCaller : q ∈ held) (inStore : p ∈ owned) :
    ¬ heap.Reach q p := fun reach =>
  sep.disjoint p inStore (reach.mem (S := (· ∈ held)) sep.heldClosed inCaller)

/-- **One step keeps every copy of the store, with its value.** -/
theorem Store.Invariant.keeps_copies (inv : s.Invariant) (move : Move codec s s') :
    s.owned ⊆ s'.owned ∧ ∀ p ∈ s.owned, s'.heap.value p = s.heap.value p := by
  have sep := inv.separated
  cases move with
  | new obj refs =>
    exact ⟨List.Subset.refl _, fun p mine => sep.value_grows (List.prefix_append _ _) mine⟩
  | write q obj held refs =>
    exact ⟨List.Subset.refl _, fun p mine => sep.value_write held obj mine⟩
  | copied id task value decoded current read decodes =>
    exact ⟨List.subset_append_left _ _,
      fun p mine => sep.value_grows (alloc_grown s.heap decoded).1.1 mine⟩
  | copiedOut id task value decoded current read decodes =>
    exact ⟨List.Subset.refl _,
      fun p mine => sep.value_grows (alloc_grown s.heap decoded).1.1 mine⟩
  | save | get | saveFailed | stored | notFound | found | getFailed =>
    exact ⟨List.Subset.refl _, fun _ _ => rfl⟩

/-- Over a run, every copy of the store stays one, with its value. -/
theorem keeps_copies_steps (inv : s.Invariant) (steps : ReflTransGen (Steps codec) s s') {p : Nat}
    (inStore : p ∈ s.owned) : p ∈ s'.owned ∧ s'.heap.value p = s.heap.value p := by
  induction steps with
  | refl => exact ⟨inStore, rfl⟩
  | tail before step kept =>
    obtain ⟨action, stepped⟩ := step
    obtain ⟨mine, same⟩ := kept
    obtain ⟨more, values⟩ := (inv.steps before).keeps_copies (step_move stepped)
    exact ⟨more mine, (values p mine).trans same⟩

/-- **The store's copies are its own**: over every run from a reachable state, a copy `Save`
made stays the store's and keeps its value, whatever callers write and whatever calls run, and no
caller can reach it. -/
theorem store_copies_unchanged {s s' : Store V} (reach : Reachable codec s)
    (steps : ReflTransGen (Steps codec) s s') {p : Nat} (inStore : p ∈ s.owned) :
    p ∈ s'.owned ∧ (∃ t, s.heap.value p = some t ∧ s'.heap.value p = some t) ∧
      ∀ q ∈ s'.held, ¬ s'.heap.Reach q p := by
  have inv := invariant_reachable reach
  obtain ⟨mine, same⟩ := keeps_copies_steps inv steps inStore
  obtain ⟨t, read⟩ := Option.isSome_iff_exists.mp (inv.separated.value_isSome inStore)
  exact ⟨mine, ⟨t, read, same.trans read⟩,
    fun q held => ((inv.steps steps).separated.not_reach held mine)⟩

theorem store_copies_unchanged_immutability :
    Reachable testCodec copiedState ∧ ReflTransGen (Steps testCodec) copiedState gotState ∧
      5 ∈ copiedState.owned ∧
      (5 ∈ gotState.owned ∧
        (∃ t, copiedState.heap.value 5 = some t ∧ gotState.heap.value 5 = some t) ∧
        ∀ q ∈ gotState.held, ¬ gotState.heap.Reach q 5) := by
  have mutated : Steps testCodec copiedState mutatedState :=
    ⟨.write 2 ⟨("t", "completed"), [0, 1]⟩, rfl⟩
  have stored : Steps testCodec mutatedState savedState := ⟨.run 0, rfl⟩
  have asked := steps_of_run (rfl : run testCodec savedState
    [.write 0 ⟨("", "bar"), []⟩, .write 1 ⟨("", "key: <nil>-modified"), []⟩, .get "t"] =
      some askedState)
  have steps := (((ReflTransGen.single mutated).tail stored).trans asked).tail
    (⟨.run 1, rfl⟩ : Steps testCodec askedState readState) |>.tail ⟨.run 1, rfl⟩
  have owned : 5 ∈ copiedState.owned := by decide
  exact ⟨copiedState_reachable, steps, owned,
    store_copies_unchanged copiedState_reachable steps owned⟩

end Copies

/-! ### What the store holds -/

section Contents

variable {s s' : Store V}

/-- A step that keeps the map and the store's copies keeps what the store holds. -/
theorem contents_eq_of_keeps (inv : s.Invariant) (tasks : s'.tasks = s.tasks)
    (values : ∀ p ∈ s.owned, s'.heap.value p = s.heap.value p) : s'.contents = s.contents := by
  funext taskId
  simp only [Store.contents, tasks]
  cases hit : s.tasks.lookup taskId with
  | none => rfl
  | some p => exact values p (inv.tasks taskId p hit)

/-- `s.tasks[key] = copy` sets what the store holds for `key` to the copy's value. -/
theorem contents_insert (s : Store V) (id : Nat) (call : MemCall) (key : TaskID) (copy : Nat) :
    { s.setCall id call with tasks := s.tasks.insert key copy }.contents =
      Function.update s.contents key (s.heap.value copy) := by
  funext taskId
  by_cases same : taskId = key
  · subst same
    simp [Store.contents, AList.lookup_insert]
  · simp [Store.contents, AList.lookup_insert_ne same, Function.update_noteq same]

/-- **What the store holds changes only at a `Save`'s `s.tasks[task.ID] = copy`**: a step from a
reachable state leaves it as it was, or it is the step of a call at that statement, which sets
the value for the ID the caller's task has then to the copy's. -/
theorem mem_contents_step (reach : Reachable codec s) (stepped : Steps codec s s') :
    s'.contents = s.contents ∨
      ∃ id task copy obj, s.calls id = .store task copy ∧ s.heap[task]? = some obj ∧
        s'.contents = Function.update s.contents (codec.taskID obj.fields) (s.heap.value copy) := by
  have inv := invariant_reachable reach
  obtain ⟨action, stepped⟩ := stepped
  have move := step_move stepped
  obtain ⟨-, values⟩ := inv.keeps_copies move
  cases move with
  | stored id task copy obj current found =>
    exact .inr ⟨id, task, copy, obj, current, found, contents_insert s id _ _ copy⟩
  | new | write | save | get | saveFailed | copied | notFound | found | getFailed | copiedOut =>
    exact .inl (contents_eq_of_keeps inv rfl values)

theorem mem_contents_step_immutability :
    Reachable testCodec mutatedState ∧ Steps testCodec mutatedState savedState ∧
      (savedState.contents = mutatedState.contents ∨
        ∃ id task copy obj, mutatedState.calls id = .store task copy ∧
          mutatedState.heap[task]? = some obj ∧
          savedState.contents = Function.update mutatedState.contents
            (testCodec.taskID obj.fields) (mutatedState.heap.value copy)) :=
  have stored : Steps testCodec mutatedState savedState := ⟨.run 0, rfl⟩
  ⟨mutatedState_reachable, stored, mem_contents_step mutatedState_reachable stored⟩

end Contents

/-! ### `Save` and `Get`, each at its own step -/

section Calls

variable {s s' : Store V}

/-- The step that moves a `Save` past `deepCopy` decodes the value of the caller's task into a
new copy of the store. -/
theorem Move.save_copied (move : Move codec s s') {id task copy : Nat}
    (copying : s.calls id = .save task) (made : s'.calls id = .store task copy) :
    ∃ value decoded, s.heap.value task = some value ∧ codec.roundTrip value = .ok decoded ∧
      s'.heap.value copy = some decoded ∧ copy ∈ s'.owned := by
  cases move with
  | copied id' task' value decoded current read decodes =>
    by_cases same : id = id'
    · subst same
      rw [copying] at current
      cases current
      simp only [setCall_calls, Function.update_same, MemCall.store.injEq] at made
      obtain ⟨-, rfl⟩ := made
      obtain ⟨grown, low, high⟩ := alloc_grown s.heap decoded
      exact ⟨value, decoded, read, decodes, alloc_value s.heap decoded,
        List.mem_append_right _ ((mem_fresh grown.1.length_le).mpr ⟨low, high⟩)⟩
    · simp [same, copying] at made
  | _ => simp_all [Function.update_apply, ite_eq_iff]

/-- The step that moves a `Get` past its read of the map found the task there. -/
theorem Move.get_found (move : Move codec s s') {id task : Nat} {taskId : TaskID}
    (asked : s.calls id = .get taskId) (hit : s'.calls id = .copy task) :
    s.tasks.lookup taskId = some task := by
  cases move with
  | found id' taskId' task' current found =>
    by_cases same : id = id'
    · subst same
      rw [asked] at current
      cases current
      simp only [setCall_calls, Function.update_same, MemCall.copy.injEq] at hit
      exact hit ▸ found
    · simp [same, asked] at hit
  | _ => simp_all [Function.update_apply, ite_eq_iff]

/-- **`Save` stores a copy of the caller's task as `deepCopy` read it.** If a `Save` call's
`deepCopy` succeeds at some step of a reachable run, then at every later state where the call is
still before `s.tasks[task.ID] = copy`, that statement can run, and it sets what the store holds
for the ID the caller's task has then to `gob`'s round trip of the value the task had when
`deepCopy` read it, whatever callers wrote since. -/
theorem save_stores_copy {s₀ s₁ s : Store V} (reach : Reachable codec s₀) {id task copy : Nat}
    (copying : s₀.calls id = .save task) (copied : Steps codec s₀ s₁)
    (made : s₁.calls id = .store task copy) (later : ReflTransGen (Steps codec) s₁ s)
    (storing : s.calls id = .store task copy) :
    ∃ value decoded, s₀.heap.value task = some value ∧ codec.roundTrip value = .ok decoded ∧
      ∃ obj s', s.heap[task]? = some obj ∧ step codec s (.run id) = some s' ∧
        s'.calls id = .saved none ∧
        s'.contents = Function.update s.contents (codec.taskID obj.fields) (some decoded) := by
  obtain ⟨action, stepped⟩ := copied
  have inv₁ := invariant_reachable (reach.tail ⟨action, stepped⟩)
  obtain ⟨value, decoded, read, decodes, copyValue, mine⟩ :=
    (step_move stepped).save_copied copying made
  obtain ⟨-, same⟩ := keeps_copies_steps inv₁ later mine
  have inv := inv₁.steps later
  have facts := inv.calls id
  rw [storing] at facts
  have held : task ∈ s.held := facts.1
  obtain ⟨obj, found⟩ : ∃ obj, s.heap[task]? = some obj :=
    ⟨_, List.getElem?_eq_getElem (inv.separated.heldLt task held)⟩
  refine ⟨value, decoded, read, decodes, obj,
    { s.setCall id (.saved none) with tasks := s.tasks.insert (codec.taskID obj.fields) copy },
    found, by simp [step, storing, callStep, found], by simp, ?_⟩
  rw [contents_insert, same, copyValue]

theorem save_stores_copy_immutability :
    Reachable testCodec savingState ∧ savingState.calls 0 = .save 2 ∧
      Steps testCodec savingState copiedState ∧ copiedState.calls 0 = .store 2 5 ∧
      ReflTransGen (Steps testCodec) copiedState mutatedState ∧
      mutatedState.calls 0 = .store 2 5 ∧
      ∃ value decoded, savingState.heap.value 2 = some value ∧
        testCodec.roundTrip value = .ok decoded ∧
        ∃ obj s', mutatedState.heap[2]? = some obj ∧
          step testCodec mutatedState (.run 0) = some s' ∧ s'.calls 0 = .saved none ∧
          s'.contents = Function.update mutatedState.contents (testCodec.taskID obj.fields)
            (some decoded) :=
  have copied : Steps testCodec savingState copiedState := ⟨.run 0, rfl⟩
  have written : ReflTransGen (Steps testCodec) copiedState mutatedState :=
    .single ⟨.write 2 ⟨("t", "completed"), [0, 1]⟩, rfl⟩
  ⟨savingState_reachable, rfl, copied, rfl, written, rfl,
    save_stores_copy savingState_reachable rfl copied rfl written rfl⟩

/-- **`Get` returns a copy of what the store held when it read the map.** If a `Get` call finds
its TaskID in the map at some step of a reachable run, then the store held a value for it there,
and at every later state where the call is still before `return deepCopy(task)`, that statement
can run: it returns `gob`'s round trip of that value in new objects the store cannot reach, or
`gob`'s error. -/
theorem get_returns_stored_copy {s₀ s₁ s : Store V} (reach : Reachable codec s₀)
    {id task : Nat} {taskId : TaskID} (asked : s₀.calls id = .get taskId)
    (read : Steps codec s₀ s₁)
    (hit : s₁.calls id = .copy task) (later : ReflTransGen (Steps codec) s₁ s)
    (copying : s.calls id = .copy task) :
    ∃ value, s₀.contents taskId = some value ∧ ∃ s', step codec s (.run id) = some s' ∧
      ((∃ decoded copy, codec.roundTrip value = .ok decoded ∧ s'.calls id = .got (.ok copy) ∧
          s'.heap.value copy = some decoded ∧ ∀ q, s'.heap.Reach copy q → q ∉ s'.owned) ∨
        ∃ err, codec.roundTrip value = .error err ∧
          s'.calls id = .got (.error (.gob err))) := by
  obtain ⟨action, stepped⟩ := read
  have inv₀ := invariant_reachable reach
  have found := (step_move stepped).get_found asked hit
  have mine := inv₀.tasks taskId task found
  obtain ⟨value, stored⟩ := Option.isSome_iff_exists.mp (inv₀.separated.value_isSome mine)
  have steps := ReflTransGen.head ⟨action, stepped⟩ later
  obtain ⟨-, same⟩ := keeps_copies_steps inv₀ steps mine
  have inv := inv₀.steps steps
  refine ⟨value, by simp [Store.contents, found, stored], ?_⟩
  have copied : deepCopy codec s.heap task = some ((codec.roundTrip value).map s.heap.alloc) := by
    simp [deepCopy, same, stored]
  cases decodes : codec.roundTrip value with
  | error err =>
    refine ⟨s.setCall id (.got (.error (.gob err))), ?_, .inr ⟨err, rfl, by simp⟩⟩
    simp only [step, copying, callStep, copied, decodes]
    rfl
  | ok decoded =>
    refine ⟨{ s.setCall id (.got (.ok (s.heap.alloc decoded).1)) with
        heap := (s.heap.alloc decoded).2, held := s.held ++ fresh s.heap (s.heap.alloc decoded).2 },
      ?_, .inl ⟨decoded, _, rfl, by simp, alloc_value s.heap decoded, fun q reach => ?_⟩⟩
    · simp only [step, copying, callStep, copied, decodes]
      rfl
    obtain ⟨grown, low, high⟩ := alloc_grown s.heap decoded
    have sep := inv.separated.toHeld grown
    exact fun mine => sep.not_reach (List.mem_append_right _
      ((mem_fresh grown.1.length_le).mpr ⟨low, high⟩)) mine reach

theorem get_returns_stored_copy_immutability :
    Reachable testCodec askedState ∧ askedState.calls 1 = .get "t" ∧
      Steps testCodec askedState readState ∧ readState.calls 1 = .copy 5 ∧
      ∃ value, askedState.contents "t" = some value ∧
        ∃ s', step testCodec readState (.run 1) = some s' ∧
        ((∃ decoded copy, testCodec.roundTrip value = .ok decoded ∧
            s'.calls 1 = .got (.ok copy) ∧ s'.heap.value copy = some decoded ∧
            ∀ q, s'.heap.Reach copy q → q ∉ s'.owned) ∨
          ∃ err, testCodec.roundTrip value = .error err ∧
            s'.calls 1 = .got (.error (.gob err))) :=
  have read : Steps testCodec askedState readState := ⟨.run 1, rfl⟩
  ⟨askedState_reachable, rfl, read, rfl,
    get_returns_stored_copy askedState_reachable (rfl : askedState.calls 1 = .get "t") read
      (rfl : readState.calls 1 = .copy 5) ReflTransGen.refl rfl⟩

/-- The test's checks: `Get` returns the task as it was saved, working with its artifact "foo",
though the caller's task is now completed and its artifact "bar". -/
example : gotState.calls 1 = .got (.ok 8) ∧ gotState.heap.value 8 = savingState.heap.value 2 ∧
    gotState.heap.value 2 = some (.node ("t", "completed")
      [.node ("", "bar") [], .node ("", "key: <nil>-modified") []]) :=
  have saved : savingState.heap.value 2 =
      some (.node ("t", "working") [.node ("", "foo") [], .node ("", "") []]) := rfl
  have got : gotState.heap.value 8 =
      some (.node ("t", "working") [.node ("", "foo") [], .node ("", "") []]) := rfl
  ⟨rfl, got.trans saved.symm, rfl⟩

end Calls

end A2aGo.TaskStore
