import A2aGo.TaskStore.GoHeap
import A2aGo.Protocol.Types

/-!
**`taskstore.Mem`, the in-memory task store, with every caller at once.**

`Mem` maps each TaskID to a pointer to a Task, under a `sync.RWMutex`. `Save` copies the caller's
task with `deepCopy` and then, under the lock, maps the task's ID to the copy; `Get` reads the map
under the read lock and, once it has unlocked, returns `deepCopy` of what it read. Any number of
calls run at once, one statement a step, beside callers that make objects and write every object
they can reach, as the store's tests do to a task after saving it.

`deepCopy` is `gob`'s round trip: the encoder reads the value (`GoHeap.value`), `encoding/gob`
keeps it, changes it or fails (`Codec.roundTrip`), and the decoder builds it in new objects
(`GoHeap.alloc`). Beside the Go state the machine keeps ghost state: the objects callers can
reach (`held`), and the copies `Save` made (`owned`).

* `Move`, `step_move`: what one step does, case by case;
* `Separated`: callers cannot reach the store's copies, which point only at older copies, and
  `Store.Invariant`: the map and every call point at the right side; every step keeps them
  (`Store.Invariant.move`).
-/

namespace A2aGo.TaskStore

open A2aGo.Protocol Relation

/-- What the store's code takes from outside it: what `encoding/gob`'s encoder and decoder make of
a value, or the error one of them returns, and the `ID` field of a Task object. -/
structure Codec (V : Type) where
  roundTrip : Tree V → Except String (Tree V)
  taskID : V → TaskID

variable {V : Type}

/-- `deepCopy(task)`: `enc.Encode(*task)` reads the value `task` points to and
`dec.Decode(&copy)` builds it in new objects: the address of the copy and the heap after, or the
error. `none`: the encoder does not return, on a value with a cycle. -/
def deepCopy (codec : Codec V) (heap : GoHeap V) (task : Nat) :
    Option (Except String (Nat × GoHeap V)) :=
  (heap.value task).map fun value => (codec.roundTrip value).map heap.alloc

/-- The errors of `Get`: `a2a.ErrTaskNotFound`, or the one `deepCopy` returns. -/
inductive GetError
  | taskNotFound
  | gob (err : String)
  deriving DecidableEq

/-- Where a call of `Save` or `Get` is. -/
inductive MemCall
  | unborn
  /-- `Save(ctx, task)`, at `copy, err := deepCopy(task)`. -/
  | save (task : Nat)
  /-- At `s.mu.Lock(); s.tasks[task.ID] = copy; s.mu.Unlock()`. -/
  | store (task copy : Nat)
  /-- `Save` returned its error, or nil. -/
  | saved (err : Option String)
  /-- `Get(ctx, taskId)`, at `s.mu.RLock(); task, ok := s.tasks[taskId]; s.mu.RUnlock()`. -/
  | get (taskId : TaskID)
  /-- At `return deepCopy(task)`, with the read lock released. -/
  | copy (task : Nat)
  /-- `Get` returned the copy, or its error. -/
  | got (result : Except GetError Nat)

/-- The store and the heap of its callers, with every call in flight. -/
structure Store (V : Type) where
  heap : GoHeap V
  /-- `Mem.tasks`. -/
  tasks : GoMap TaskID Nat
  calls : Nat → MemCall
  nextId : Nat
  /-- Ghost: the objects callers can reach. -/
  held : List Nat
  /-- Ghost: the copies `Save` made. -/
  owned : List Nat

/-- `NewMem()`, before any call, on an empty heap. -/
def newMem : Store V where
  heap := []
  tasks := ∅
  calls := fun _ => .unborn
  nextId := 0
  held := []
  owned := []

/-- What the scheduler does next. -/
inductive Action (V : Type)
  /-- A caller makes an object that points only at objects it can reach. -/
  | new (obj : Obj V)
  /-- A caller writes an object it can reach, as `task.Status = ...`, `task.Artifacts[0] = ...`
  and `task.Metadata[key] = ...` do. -/
  | write (p : Nat) (obj : Obj V)
  /-- A caller calls `Save` with a pointer it holds. -/
  | save (task : Nat)
  /-- A caller calls `Get`. -/
  | get (taskId : TaskID)
  /-- A call executes its next statement. -/
  | run (id : Nat)

section Machine

/-- Move a call to a new state. -/
def Store.setCall (s : Store V) (id : Nat) (call : MemCall) : Store V :=
  { s with calls := Function.update s.calls id call }

/-- The addresses of the objects `heap'` adds to `heap`. -/
def fresh (heap heap' : GoHeap V) : List Nat := List.range' heap.length (heap'.length - heap.length)

/-- `Mem.Save` and `Mem.Get`, one statement; `none` when the call does not move. -/
def callStep (codec : Codec V) (s : Store V) (id : Nat) : MemCall → Option (Store V)
  | .save task =>
    (deepCopy codec s.heap task).map fun
      | .error err => s.setCall id (.saved (some err))
      | .ok (copy, heap) =>
        { s.setCall id (.store task copy) with heap := heap, owned := s.owned ++ fresh s.heap heap }
  | .store task copy =>
    (s.heap[task]?).map fun obj =>
      { s.setCall id (.saved none) with tasks := s.tasks.insert (codec.taskID obj.fields) copy }
  | .get taskId =>
    some (s.setCall id (match s.tasks.lookup taskId with
      | none => .got (.error .taskNotFound)
      | some task => .copy task))
  | .copy task =>
    (deepCopy codec s.heap task).map fun
      | .error err => s.setCall id (.got (.error (.gob err)))
      | .ok (copy, heap) =>
        { s.setCall id (.got (.ok copy)) with heap := heap, held := s.held ++ fresh s.heap heap }
  | .unborn | .saved _ | .got _ => none

/-- One step of the machine; `none` when the action cannot happen now. -/
def step (codec : Codec V) (s : Store V) : Action V → Option (Store V)
  | .new obj =>
    if ∀ r ∈ obj.refs, r ∈ s.held then
      some { s with heap := s.heap ++ [obj], held := s.held ++ [s.heap.length] }
    else none
  | .write p obj =>
    if p ∈ s.held ∧ ∀ r ∈ obj.refs, r ∈ s.held then
      some { s with heap := s.heap.set p obj }
    else none
  | .save task =>
    if task ∈ s.held then
      some { s with calls := Function.update s.calls s.nextId (.save task), nextId := s.nextId + 1 }
    else none
  | .get taskId =>
    some { s with calls := Function.update s.calls s.nextId (.get taskId), nextId := s.nextId + 1 }
  | .run id => callStep codec s id (s.calls id)

/-- Run a schedule of actions; `none` if one of them cannot happen when its turn comes. -/
def run (codec : Codec V) (s : Store V) : List (Action V) → Option (Store V)
  | [] => some s
  | action :: rest => (step codec s action).bind fun s' => run codec s' rest

/-- One step, by some action. -/
def Steps (codec : Codec V) (s s' : Store V) : Prop := ∃ action, step codec s action = some s'

/-- The states `NewMem` reaches. -/
def Reachable (codec : Codec V) (s : Store V) : Prop := ReflTransGen (Steps codec) newMem s

/-- The value the store holds for a TaskID: what the pointer it maps the TaskID to leads to. -/
def Store.contents (s : Store V) (taskId : TaskID) : Option (Tree V) :=
  (s.tasks.lookup taskId).bind s.heap.value

@[simp] theorem setCall_calls (s : Store V) (id : Nat) (call : MemCall) :
    (s.setCall id call).calls = Function.update s.calls id call := rfl

@[simp] theorem setCall_heap (s : Store V) (id : Nat) (call : MemCall) :
    (s.setCall id call).heap = s.heap := rfl

@[simp] theorem setCall_tasks (s : Store V) (id : Nat) (call : MemCall) :
    (s.setCall id call).tasks = s.tasks := rfl

@[simp] theorem setCall_held (s : Store V) (id : Nat) (call : MemCall) :
    (s.setCall id call).held = s.held := rfl

@[simp] theorem setCall_owned (s : Store V) (id : Nat) (call : MemCall) :
    (s.setCall id call).owned = s.owned := rfl

theorem mem_fresh {heap heap' : GoHeap V} (longer : heap.length ≤ heap'.length) {p : Nat} :
    p ∈ fresh heap heap' ↔ heap.length ≤ p ∧ p < heap'.length := by
  simp only [fresh, List.mem_range'_1]
  omega

end Machine

/-! ### Every step, named -/

/-- What one step does. -/
inductive Move (codec : Codec V) (s : Store V) : Store V → Prop
  | new (obj : Obj V) (refs : ∀ r ∈ obj.refs, r ∈ s.held) :
    Move codec s { s with heap := s.heap ++ [obj], held := s.held ++ [s.heap.length] }
  | write (p : Nat) (obj : Obj V) (held : p ∈ s.held) (refs : ∀ r ∈ obj.refs, r ∈ s.held) :
    Move codec s { s with heap := s.heap.set p obj }
  | save (task : Nat) (held : task ∈ s.held) :
    Move codec s
      { s with calls := Function.update s.calls s.nextId (.save task), nextId := s.nextId + 1 }
  | get (taskId : TaskID) :
    Move codec s
      { s with calls := Function.update s.calls s.nextId (.get taskId), nextId := s.nextId + 1 }
  | saveFailed (id task : Nat) (value : Tree V) (err : String) (current : s.calls id = .save task)
      (read : s.heap.value task = some value) (failed : codec.roundTrip value = .error err) :
    Move codec s (s.setCall id (.saved (some err)))
  | copied (id task : Nat) (value decoded : Tree V) (current : s.calls id = .save task)
      (read : s.heap.value task = some value) (decodes : codec.roundTrip value = .ok decoded) :
    Move codec s { s.setCall id (.store task (s.heap.alloc decoded).1) with
      heap := (s.heap.alloc decoded).2, owned := s.owned ++ fresh s.heap (s.heap.alloc decoded).2 }
  | stored (id task copy : Nat) (obj : Obj V) (current : s.calls id = .store task copy)
      (found : s.heap[task]? = some obj) :
    Move codec s { s.setCall id (.saved none) with
      tasks := s.tasks.insert (codec.taskID obj.fields) copy }
  | notFound (id : Nat) (taskId : TaskID) (current : s.calls id = .get taskId)
      (missing : s.tasks.lookup taskId = none) :
    Move codec s (s.setCall id (.got (.error .taskNotFound)))
  | found (id : Nat) (taskId : TaskID) (task : Nat) (current : s.calls id = .get taskId)
      (hit : s.tasks.lookup taskId = some task) :
    Move codec s (s.setCall id (.copy task))
  | getFailed (id task : Nat) (value : Tree V) (err : String) (current : s.calls id = .copy task)
      (read : s.heap.value task = some value) (failed : codec.roundTrip value = .error err) :
    Move codec s (s.setCall id (.got (.error (.gob err))))
  | copiedOut (id task : Nat) (value decoded : Tree V) (current : s.calls id = .copy task)
      (read : s.heap.value task = some value) (decodes : codec.roundTrip value = .ok decoded) :
    Move codec s { s.setCall id (.got (.ok (s.heap.alloc decoded).1)) with
      heap := (s.heap.alloc decoded).2, held := s.held ++ fresh s.heap (s.heap.alloc decoded).2 }

section Moves

variable {codec : Codec V} {s s' : Store V}

/-- The two outcomes of `deepCopy` that return, as moves. -/
theorem deepCopy_cases {task : Nat} {result : Except String (Nat × GoHeap V)}
    (copied : deepCopy codec s.heap task = some result) :
    ∃ value, s.heap.value task = some value ∧
      ((∃ err, codec.roundTrip value = .error err ∧ result = .error err) ∨
        ∃ decoded, codec.roundTrip value = .ok decoded ∧
          result = .ok (s.heap.alloc decoded)) := by
  obtain ⟨value, read, rfl⟩ := Option.map_eq_some'.mp copied
  refine ⟨value, read, ?_⟩
  cases decodes : codec.roundTrip value with
  | error err => exact .inl ⟨err, rfl, rfl⟩
  | ok decoded => exact .inr ⟨decoded, rfl, rfl⟩

theorem callStep_move {id : Nat} {call : MemCall} (current : s.calls id = call)
    (stepped : callStep codec s id call = some s') : Move codec s s' := by
  cases call with
  | save task =>
    obtain ⟨result, copied, rfl⟩ := Option.map_eq_some'.mp stepped
    obtain ⟨value, read, ⟨err, failed, rfl⟩ | ⟨decoded, decodes, rfl⟩⟩ :=
      deepCopy_cases copied
    · exact .saveFailed id task value err current read failed
    · exact .copied id task value decoded current read decodes
  | store task copy =>
    obtain ⟨obj, found, rfl⟩ := Option.map_eq_some'.mp stepped
    exact .stored id task copy obj current found
  | get taskId =>
    cases stepped
    cases hit : s.tasks.lookup taskId with
    | none => exact .notFound id taskId current hit
    | some task => exact .found id taskId task current hit
  | copy task =>
    obtain ⟨result, copied, rfl⟩ := Option.map_eq_some'.mp stepped
    obtain ⟨value, read, ⟨err, failed, rfl⟩ | ⟨decoded, decodes, rfl⟩⟩ :=
      deepCopy_cases copied
    · exact .getFailed id task value err current read failed
    · exact .copiedOut id task value decoded current read decodes
  | unborn | saved _ | got _ => cases stepped

/-- **Every step is one of the named moves.** -/
theorem step_move {action : Action V} (stepped : step codec s action = some s') :
    Move codec s s' := by
  cases action with
  | new obj =>
    by_cases refs : ∀ r ∈ obj.refs, r ∈ s.held
    · simp only [step, if_pos refs, Option.some.injEq] at stepped
      exact stepped ▸ .new obj refs
    · simp only [step, if_neg refs] at stepped
      cases stepped
  | write p obj =>
    by_cases allowed : p ∈ s.held ∧ ∀ r ∈ obj.refs, r ∈ s.held
    · simp only [step, if_pos allowed, Option.some.injEq] at stepped
      exact stepped ▸ .write p obj allowed.1 allowed.2
    · simp only [step, if_neg allowed] at stepped
      cases stepped
  | save task =>
    by_cases held : task ∈ s.held
    · simp only [step, if_pos held, Option.some.injEq] at stepped
      exact stepped ▸ .save task held
    · simp only [step, if_neg held] at stepped
      cases stepped
  | get taskId =>
    cases stepped
    exact .get taskId
  | run id => exact callStep_move rfl stepped

end Moves

/-! ### The invariant -/

/-- **Callers and the store share no object.** Callers reach only objects they hold, the store's
copies point only at older copies, and no object is both. -/
structure Separated (heap : GoHeap V) (held owned : List Nat) : Prop where
  heldLt : ∀ p ∈ held, p < heap.length
  heldClosed : ∀ p ∈ held, ∀ obj, heap[p]? = some obj → ∀ r ∈ obj.refs, r ∈ held
  ownedLt : ∀ p ∈ owned, p < heap.length
  ownedDown : ∀ p ∈ owned, ∀ obj, heap[p]? = some obj →
    ∀ r ∈ obj.refs, r ∈ owned ∧ r < p
  disjoint : ∀ p ∈ owned, p ∉ held

/-- What a call points at: `Save`'s task is the caller's, its copy is the store's, and so is the
task `Get` read from the map. -/
def CallFacts (held owned : List Nat) : MemCall → Prop
  | .save task => task ∈ held
  | .store task copy => task ∈ held ∧ copy ∈ owned
  | .copy task => task ∈ owned
  | .unborn | .saved _ | .get _ | .got _ => True

/-- The invariant of the store and its callers. -/
structure Store.Invariant (s : Store V) : Prop where
  separated : Separated s.heap s.held s.owned
  tasks : ∀ taskId p, s.tasks.lookup taskId = some p → p ∈ s.owned
  calls : ∀ id, CallFacts s.held s.owned (s.calls id)

section Separated

variable {heap heap' : GoHeap V} {held owned : List Nat}

theorem CallFacts.mono {held' owned' : List Nat} {call : MemCall}
    (facts : CallFacts held owned call) (moreHeld : held ⊆ held') (moreOwned : owned ⊆ owned') :
    CallFacts held' owned' call := by
  cases call with
  | save _ => exact moreHeld facts
  | store _ _ => exact ⟨moreHeld facts.1, moreOwned facts.2⟩
  | copy _ => exact moreOwned facts
  | unborn | saved _ | get _ | got _ => trivial

/-- The store's copies have a value. -/
theorem Separated.value_isSome (sep : Separated heap held owned) {p : Nat} (inStore : p ∈ owned) :
    (heap.value p).isSome :=
  value_isSome_of_down sep.ownedLt sep.ownedDown p inStore

/-- A copy of the store keeps its value when the heap grows. -/
theorem Separated.value_grows (sep : Separated heap held owned) (grows : heap <+: heap') {p : Nat}
    (inStore : p ∈ owned) : heap'.value p = heap.value p := by
  obtain ⟨t, read⟩ := Option.isSome_iff_exists.mp (sep.value_isSome inStore)
  rw [read]
  exact unfold_mono grows grows.length_le read

/-- A copy of the store keeps its value when a caller writes an object it holds. -/
theorem Separated.value_write (sep : Separated heap held owned) {q : Nat} (inCaller : q ∈ held)
    (obj : Obj V) {p : Nat} (inStore : p ∈ owned) :
    GoHeap.value (heap.set q obj) p = heap.value p := by
  rw [GoHeap.value, GoHeap.value, List.length_set]
  refine unfold_congr (fun p mine obj found r mem => (sep.ownedDown p mine obj found r mem).1)
    (fun r mine => ?_) _ inStore
  exact List.getElem?_set_ne fun same : q = r => sep.disjoint r mine (same ▸ inCaller)

theorem Separated.new (sep : Separated heap held owned) {obj : Obj V}
    (refs : ∀ r ∈ obj.refs, r ∈ held) :
    Separated (heap ++ [obj]) (held ++ [heap.length]) owned := by
  have old : ∀ p < heap.length, (heap ++ [obj])[p]? = heap[p]? := fun p below =>
    List.getElem?_append_left below
  refine ⟨fun p mem => ?_, fun p mem found read r ref => ?_, fun p mem => ?_,
    fun p mem found read => ?_, fun p mem => ?_⟩
  · simp only [List.mem_append, List.mem_singleton, List.length_append,
      List.length_singleton] at mem ⊢
    rcases mem with mem | rfl
    · exact Nat.lt_succ_of_lt (sep.heldLt p mem)
    · exact Nat.lt_succ_self _
  · simp only [List.mem_append, List.mem_singleton] at mem ⊢
    rcases mem with mem | rfl
    · rw [old p (sep.heldLt p mem)] at read
      exact .inl (sep.heldClosed p mem found read r ref)
    · rw [List.getElem?_append_right (Nat.le_refl _), Nat.sub_self] at read
      cases read
      exact .inl (refs r ref)
  · simp only [List.length_append, List.length_singleton]
    exact Nat.lt_succ_of_lt (sep.ownedLt p mem)
  · rw [old p (sep.ownedLt p mem)] at read
    exact sep.ownedDown p mem found read
  · simp only [List.mem_append, List.mem_singleton, not_or]
    exact ⟨sep.disjoint p mem, Nat.ne_of_lt (sep.ownedLt p mem)⟩

theorem Separated.write (sep : Separated heap held owned) {q : Nat} (inCaller : q ∈ held)
    {obj : Obj V} (refs : ∀ r ∈ obj.refs, r ∈ held) :
    Separated (heap.set q obj) held owned := by
  refine ⟨fun p mem => ?_, fun p mem found read r ref => ?_, fun p mem => ?_,
    fun p mem found read => ?_, sep.disjoint⟩
  · exact (List.length_set _ _ _).symm ▸ sep.heldLt p mem
  · by_cases here : q = p
    · subst here
      rw [List.getElem?_set_self (sep.heldLt q inCaller)] at read
      cases read
      exact refs r ref
    · rw [List.getElem?_set_ne here] at read
      exact sep.heldClosed p mem found read r ref
  · exact (List.length_set _ _ _).symm ▸ sep.ownedLt p mem
  · rw [List.getElem?_set_ne fun same : q = p => sep.disjoint p mem (same ▸ inCaller)] at read
    exact sep.ownedDown p mem found read

/-- The objects the decoder adds point only into themselves, and older ones stay as they were. -/
theorem Separated.grown_old (sep : Separated heap held owned) (grown : heap.Grown heap') :
    (∀ p ∈ held, p < heap'.length) ∧ (∀ p ∈ owned, p < heap'.length) ∧
      (∀ p < heap.length, heap'[p]? = heap[p]?) := by
  have longer := grown.1.length_le
  refine ⟨fun p mem => Nat.lt_of_lt_of_le (sep.heldLt p mem) longer,
    fun p mem => Nat.lt_of_lt_of_le (sep.ownedLt p mem) longer, fun p below => ?_⟩
  obtain ⟨more, rfl⟩ := grown.1
  exact List.getElem?_append_left below

/-- **`Save`'s copy is the store's.** -/
theorem Separated.toOwned (sep : Separated heap held owned) (grown : heap.Grown heap') :
    Separated heap' held (owned ++ fresh heap heap') := by
  obtain ⟨heldLt, ownedLt, old⟩ := sep.grown_old grown
  have longer := grown.1.length_le
  refine ⟨heldLt, fun p mem found read => ?_, fun p mem => ?_, fun p mem found read r ref => ?_,
    fun p mem => ?_⟩
  · rw [old p (sep.heldLt p mem)] at read
    exact sep.heldClosed p mem found read
  · rcases List.mem_append.mp mem with mem | mem
    · exact ownedLt p mem
    · exact ((mem_fresh longer).mp mem).2
  · rcases List.mem_append.mp mem with mem | mem
    · rw [old p (sep.ownedLt p mem)] at read
      obtain ⟨older, below⟩ := sep.ownedDown p mem found read r ref
      exact ⟨List.mem_append_left _ older, below⟩
    · have inside := (mem_fresh longer).mp mem
      have points := grown.2 p found read inside.1 r ref
      exact ⟨List.mem_append_right _ ((mem_fresh longer).mpr ⟨points.1, by omega⟩),
        points.2⟩
  · rcases List.mem_append.mp mem with mem | mem
    · exact sep.disjoint p mem
    · exact fun held => Nat.lt_irrefl p (Nat.lt_of_lt_of_le (sep.heldLt p held)
        ((mem_fresh longer).mp mem).1)

/-- **`Get`'s copy is the caller's.** -/
theorem Separated.toHeld (sep : Separated heap held owned) (grown : heap.Grown heap') :
    Separated heap' (held ++ fresh heap heap') owned := by
  obtain ⟨heldLt, ownedLt, old⟩ := sep.grown_old grown
  have longer := grown.1.length_le
  refine ⟨fun p mem => ?_, fun p mem found read r ref => ?_, ownedLt, fun p mem found read => ?_,
    fun p mem => ?_⟩
  · rcases List.mem_append.mp mem with mem | mem
    · exact heldLt p mem
    · exact ((mem_fresh longer).mp mem).2
  · rcases List.mem_append.mp mem with mem | mem
    · rw [old p (sep.heldLt p mem)] at read
      exact List.mem_append_left _ (sep.heldClosed p mem found read r ref)
    · have inside := (mem_fresh longer).mp mem
      have points := grown.2 p found read inside.1 r ref
      exact List.mem_append_right _ ((mem_fresh longer).mpr ⟨points.1, by omega⟩)
  · rw [old p (sep.ownedLt p mem)] at read
    exact sep.ownedDown p mem found read
  · simp only [List.mem_append, not_or]
    exact ⟨sep.disjoint p mem, fun fresh => Nat.lt_irrefl p
      (Nat.lt_of_lt_of_le (sep.ownedLt p mem) ((mem_fresh longer).mp fresh).1)⟩

end Separated

section Invariant

variable {codec : Codec V} {s s' : Store V}

theorem invariant_newMem : (newMem : Store V).Invariant where
  separated := ⟨nofun, nofun, nofun, nofun, nofun⟩
  tasks := fun _ _ hit => by cases hit
  calls := fun _ => trivial

/-- A call moves to a state whose facts hold, and nothing else changes. -/
theorem Store.Invariant.setCall (inv : s.Invariant) {id : Nat} {call : MemCall}
    (facts : CallFacts s.held s.owned call) : (s.setCall id call).Invariant where
  separated := inv.separated
  tasks := inv.tasks
  calls h := by
    by_cases same : h = id
    · subst same
      simpa using facts
    · simpa [same] using inv.calls h

/-- **Every step keeps the invariant.** -/
theorem Store.Invariant.move (inv : s.Invariant) (move : Move codec s s') : s'.Invariant := by
  have sep := inv.separated
  cases move with
  | new obj refs =>
    exact ⟨sep.new refs, inv.tasks, fun h =>
      (inv.calls h).mono (List.subset_append_left _ _) (List.Subset.refl _)⟩
  | write p obj held refs => exact ⟨sep.write held refs, inv.tasks, inv.calls⟩
  | save task held =>
    refine ⟨sep, inv.tasks, fun h => ?_⟩
    by_cases same : h = s.nextId
    · subst same
      simpa using held
    · simpa [same] using inv.calls h
  | get taskId =>
    refine ⟨sep, inv.tasks, fun h => ?_⟩
    by_cases same : h = s.nextId
    · subst same
      simp [CallFacts]
    · simpa [same] using inv.calls h
  | saveFailed id task value err current read failed => exact inv.setCall trivial
  | copied id task value decoded current read decodes =>
    obtain ⟨grown, low, high⟩ := alloc_grown s.heap decoded
    have stays : ∀ call, CallFacts s.held s.owned call →
        CallFacts s.held (s.owned ++ fresh s.heap (s.heap.alloc decoded).2) call :=
      fun call facts => facts.mono (List.Subset.refl _) (List.subset_append_left _ _)
    have held : task ∈ s.held := by simpa [current, CallFacts] using inv.calls id
    refine ⟨sep.toOwned grown, fun taskId p found =>
      List.mem_append_left _ (inv.tasks taskId p found), fun h => ?_⟩
    by_cases same : h = id
    · subst same
      simp only [setCall_calls, Function.update_same]
      exact ⟨held, List.mem_append_right _ ((mem_fresh grown.1.length_le).mpr ⟨low, high⟩)⟩
    · simpa [same] using stays _ (inv.calls h)
  | stored id task copy obj current found =>
    have facts : task ∈ s.held ∧ copy ∈ s.owned := by
      simpa [current, CallFacts] using inv.calls id
    have called : (s.setCall id (.saved none)).Invariant := inv.setCall trivial
    refine ⟨sep, fun taskId p hit => ?_, called.calls⟩
    by_cases same : taskId = codec.taskID obj.fields
    · subst same
      rw [AList.lookup_insert] at hit
      cases hit
      exact facts.2
    · rw [AList.lookup_insert_ne same] at hit
      exact inv.tasks taskId p hit
  | notFound id taskId current missing => exact inv.setCall trivial
  | found id taskId task current hit => exact inv.setCall (inv.tasks taskId task hit)
  | getFailed id task value err current read failed => exact inv.setCall trivial
  | copiedOut id task value decoded current read decodes =>
    obtain ⟨grown, -, -⟩ := alloc_grown s.heap decoded
    refine ⟨sep.toHeld grown, inv.tasks, fun h => ?_⟩
    by_cases same : h = id
    · subst same
      simp [CallFacts]
    · simpa [same] using (inv.calls h).mono (List.subset_append_left _ _) (List.Subset.refl _)

theorem Store.Invariant.steps (inv : s.Invariant) (steps : ReflTransGen (Steps codec) s s') :
    s'.Invariant := by
  induction steps with
  | refl => exact inv
  | tail _ step reached =>
    obtain ⟨action, stepped⟩ := step
    exact reached.move (step_move stepped)

theorem invariant_reachable {s : Store V} (reach : Reachable codec s) : s.Invariant :=
  invariant_newMem.steps reach

/-- A schedule that runs reaches the state it ends in. -/
theorem steps_of_run {s s' : Store V} {actions : List (Action V)}
    (ran : run codec s actions = some s') : ReflTransGen (Steps codec) s s' := by
  induction actions generalizing s with
  | nil => cases ran; exact .refl
  | cons action rest ih =>
    obtain ⟨next, stepped, rest⟩ := Option.bind_eq_some.mp ran
    exact ReflTransGen.head ⟨action, stepped⟩ (ih rest)

end Invariant

/-! ### The store's test, as a run -/

/-- `encoding/gob` on the objects of the store's test, whose fields are a Task's `ID` and what
else the object shows: it keeps every value. -/
def testCodec : Codec (TaskID × String) where
  roundTrip := .ok
  taskID := Prod.fst

/-- `TestInMemoryTaskStore_StoredImmutability` up to `Save`: the caller makes the first artifact,
the Metadata map and the task, working, that points at them, and calls `Save`. -/
def saveTask : List (Action (TaskID × String)) :=
  [.new ⟨("", "foo"), []⟩, .new ⟨("", ""), []⟩, .new ⟨("t", "working"), [0, 1]⟩,
    .save 2]

/-- The test's `Save`, before its `deepCopy`. -/
def savingState : Store (TaskID × String) := (run testCodec newMem saveTask).getD newMem

/-- `deepCopy` has made the store's copy. -/
def copiedState : Store (TaskID × String) := (run testCodec savingState [.run 0]).getD newMem

/-- The caller sets `task.Status` to completed before `Save` takes the lock. -/
def mutatedState : Store (TaskID × String) :=
  (run testCodec copiedState [.write 2 ⟨("t", "completed"), [0, 1]⟩]).getD newMem

/-- `Save` has mapped the TaskID to its copy and returned. -/
def savedState : Store (TaskID × String) := (run testCodec mutatedState [.run 0]).getD newMem

/-- The caller sets `task.Artifacts[0]` and `task.Metadata[key]`, and calls `Get`. -/
def askedState : Store (TaskID × String) :=
  (run testCodec savedState
    [.write 0 ⟨("", "bar"), []⟩, .write 1 ⟨("", "key: <nil>-modified"), []⟩,
      .get "t"]).getD newMem

/-- `Get` has read the map. -/
def readState : Store (TaskID × String) := (run testCodec askedState [.run 1]).getD newMem

/-- `Get` has returned its copy. -/
def gotState : Store (TaskID × String) := (run testCodec readState [.run 1]).getD newMem

theorem savingState_reachable : Reachable testCodec savingState :=
  steps_of_run (rfl : run testCodec newMem saveTask = some savingState)

theorem copiedState_reachable : Reachable testCodec copiedState :=
  savingState_reachable.tail ⟨.run 0, rfl⟩

theorem mutatedState_reachable : Reachable testCodec mutatedState :=
  copiedState_reachable.tail ⟨.write 2 ⟨("t", "completed"), [0, 1]⟩, rfl⟩

theorem askedState_reachable : Reachable testCodec askedState :=
  (mutatedState_reachable.tail ⟨.run 0, rfl⟩).trans
    (steps_of_run (rfl : run testCodec savedState
      [.write 0 ⟨("", "bar"), []⟩, .write 1 ⟨("", "key: <nil>-modified"), []⟩, .get "t"] =
        some askedState))

end A2aGo.TaskStore
