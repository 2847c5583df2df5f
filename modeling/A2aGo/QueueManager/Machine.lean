import A2aGo.QueueManager.Registry
import Mathlib.Logic.Relation

/-!
**`inMemoryManager` as a machine of concurrent calls.**

`manager_in_memory_impl.go` keeps the queues in a Go map `queues` guarded by a mutex `mu`.
`GetOrCreate` and `Destroy` lock `mu`, work on the map, and unlock it in a deferred call before
they return. Any number of goroutines call them at once, so the model is a state with every call
in flight and a step per Go statement, as for the event queue:

* a call is numbered in invocation order and is its own goroutine (`Call`);
* `mu.Lock()` blocks while `mu` is locked; unlocking an unlocked mutex, and calling `Close` on
  the nil interface, set `panicked`;
* `NewInMemoryQueue(defaultMaxQueueSize)` makes the queue numbered `made`, and `queue.Close()`
  is one step that adds the queue to `closed` (the queue's own `Close` is modelled in
  `A2aGo.EventQueue`, where every `Close` returns nil).

Beside the Go state the machine keeps ghost state: the `log` of returns, and the `history` of
calls in the order they unlocked `mu`, each with what it is about to return.

* `Move`, `step_move`: what one step does, case by case.
-/

namespace A2aGo.QueueManager

open A2aGo.Protocol

/-- Where a `GetOrCreate` is. -/
inductive GetAt
  /-- `m.mu.Lock()`. -/
  | locking
  /-- `if _, ok := m.queues[taskId]; !ok`. -/
  | checking
  /-- `queue := NewInMemoryQueue(defaultMaxQueueSize)`. -/
  | creating
  /-- `m.queues[taskId] = queue`. -/
  | storing (queue : QueueRef)
  /-- `return m.queues[taskId], nil`: the map read. -/
  | reading
  /-- The deferred `m.mu.Unlock()`. -/
  | unlocking (queue : Option QueueRef)
  /-- The return to the caller. -/
  | returning (queue : Option QueueRef)
  deriving DecidableEq, Repr

/-- Where a `Destroy` is. -/
inductive DestroyAt
  /-- `m.mu.Lock()`. -/
  | locking
  /-- `if _, ok := m.queues[taskId]; !ok { return fmt.Errorf(...) }`. -/
  | checking
  /-- `queue := m.queues[taskId]`. -/
  | reading
  /-- `_ = queue.Close()`; `none` is the nil interface. -/
  | closing (queue : Option QueueRef)
  /-- `delete(m.queues, taskId)`. -/
  | deleting
  /-- The deferred `m.mu.Unlock()`. -/
  | unlocking (err : Option String)
  /-- The return to the caller. -/
  | returning (err : Option String)
  deriving DecidableEq, Repr

/-- One call on the manager, by invocation number. -/
inductive Call
  | unborn
  | getOrCreate (taskId : TaskID) (pc : GetAt)
  | destroy (taskId : TaskID) (pc : DestroyAt)
  | returned
  deriving DecidableEq, Repr

/-- A call just invoked. -/
def Call.start : Op → Call
  | .getOrCreate taskId => .getOrCreate taskId .locking
  | .destroy taskId => .destroy taskId .locking

/-- A call about to return what it returns. -/
def Call.returning : Returned → Call
  | .getOrCreate taskId queue => .getOrCreate taskId (.returning queue)
  | .destroy taskId err => .destroy taskId (.returning err)

/-- The manager and every call on it. -/
structure Manager where
  queues : GoMap TaskID QueueRef
  muLocked : Bool
  /-- The queues `NewInMemoryQueue` has made: `0`, ..., `made - 1`. -/
  made : Nat
  /-- The queues `Close` was called on, in order. -/
  closed : List QueueRef
  panicked : Bool
  calls : Nat → Call
  nextId : Nat
  /-- Every return, in order. -/
  log : List (Nat × Returned)
  /-- The calls in the order they unlocked `mu`, each with what it returns. -/
  history : List (Nat × Returned)

/-- `NewInMemoryManager()`, before any call. -/
def newInMemoryManager : Manager where
  queues := ∅
  muLocked := false
  made := 0
  closed := []
  panicked := false
  calls := fun _ => .unborn
  nextId := 0
  log := []
  history := []

/-- What the scheduler does next. -/
inductive Action
  /-- A goroutine calls `GetOrCreate` or `Destroy`. -/
  | invoke (op : Op)
  /-- A call executes its next statement. -/
  | run (id : Nat)
  deriving DecidableEq, Repr

section Machine

/-- Move a call to a new state. -/
def Manager.setCall (m : Manager) (id : Nat) (call : Call) : Manager :=
  { m with calls := Function.update m.calls id call }

/-- Start a new call. -/
def Manager.invoke (m : Manager) (call : Call) : Manager :=
  { m with calls := Function.update m.calls m.nextId call, nextId := m.nextId + 1 }

/-- `m.mu.Lock()`: blocked while `mu` is locked. -/
def Manager.lock (m : Manager) (id : Nat) (call : Call) : Option Manager :=
  if m.muLocked then none else some { m.setCall id call with muLocked := true }

/-- The deferred `m.mu.Unlock()`, by a call that returns `result`. -/
def Manager.unlock (m : Manager) (id : Nat) (call : Call) (result : Returned) : Manager :=
  { m.setCall id call with muLocked := false, history := m.history ++ [(id, result)] }

/-- A call returns. -/
def Manager.finish (m : Manager) (id : Nat) (result : Returned) : Manager :=
  { m with calls := Function.update m.calls id .returned, log := m.log ++ [(id, result)] }

/-- A goroutine panics. -/
def Manager.panic (m : Manager) : Manager := { m with panicked := true }

/-- `inMemoryManager.GetOrCreate`, one statement; `none` when the call is blocked there. -/
def getOrCreateStep (m : Manager) (id : Nat) (taskId : TaskID) : GetAt → Option Manager
  | .locking => m.lock id (.getOrCreate taskId .checking)
  | .checking => some (m.setCall id (.getOrCreate taskId
      (match m.queues.lookup taskId with
       | none => .creating
       | some _ => .reading)))
  | .creating =>
    some { m.setCall id (.getOrCreate taskId (.storing m.made)) with made := m.made + 1 }
  | .storing queue =>
    some { m.setCall id (.getOrCreate taskId .reading) with queues := m.queues.insert taskId queue }
  | .reading => some (m.setCall id (.getOrCreate taskId (.unlocking (m.queues.lookup taskId))))
  | .unlocking queue =>
    if m.muLocked then
      some (m.unlock id (.getOrCreate taskId (.returning queue)) (.getOrCreate taskId queue))
    else some m.panic
  | .returning queue => some (m.finish id (.getOrCreate taskId queue))

/-- `inMemoryManager.Destroy`, one statement; `none` when the call is blocked there. -/
def destroyStep (m : Manager) (id : Nat) (taskId : TaskID) : DestroyAt → Option Manager
  | .locking => m.lock id (.destroy taskId .checking)
  | .checking => some (m.setCall id (.destroy taskId
      (match m.queues.lookup taskId with
       | none => .unlocking (some (notFoundError taskId))
       | some _ => .reading)))
  | .reading => some (m.setCall id (.destroy taskId (.closing (m.queues.lookup taskId))))
  | .closing none => some m.panic
  | .closing (some queue) =>
    some { m.setCall id (.destroy taskId .deleting) with closed := m.closed ++ [queue] }
  | .deleting =>
    some { m.setCall id (.destroy taskId (.unlocking none)) with queues := m.queues.erase taskId }
  | .unlocking err =>
    if m.muLocked then
      some (m.unlock id (.destroy taskId (.returning err)) (.destroy taskId err))
    else some m.panic
  | .returning err => some (m.finish id (.destroy taskId err))

/-- One step of the machine; `none` when the action cannot happen now. -/
def step (m : Manager) : Action → Option Manager
  | .invoke op => some (m.invoke (Call.start op))
  | .run id => match m.calls id with
    | .getOrCreate taskId pc => getOrCreateStep m id taskId pc
    | .destroy taskId pc => destroyStep m id taskId pc
    | _ => none

/-- Run a schedule of actions; `none` if one of them cannot happen when its turn comes. -/
def run (m : Manager) : List Action → Option Manager
  | [] => some m
  | action :: rest => (step m action).bind fun m' => run m' rest

/-- One step, by some action. -/
def Steps (m m' : Manager) : Prop := ∃ action, step m action = some m'

/-- The states `NewInMemoryManager()` reaches. -/
def Reachable (m : Manager) : Prop := Relation.ReflTransGen Steps newInMemoryManager m

@[simp] theorem setCall_calls (m : Manager) (id : Nat) (call : Call) :
    (m.setCall id call).calls = Function.update m.calls id call := rfl

@[simp] theorem invoke_calls (m : Manager) (call : Call) :
    (m.invoke call).calls = Function.update m.calls m.nextId call := rfl

@[simp] theorem unlock_calls (m : Manager) (id : Nat) (call : Call) (result : Returned) :
    (m.unlock id call result).calls = Function.update m.calls id call := rfl

@[simp] theorem unlock_history (m : Manager) (id : Nat) (call : Call) (result : Returned) :
    (m.unlock id call result).history = m.history ++ [(id, result)] := rfl

@[simp] theorem finish_calls (m : Manager) (id : Nat) (result : Returned) :
    (m.finish id result).calls = Function.update m.calls id .returned := rfl

@[simp] theorem finish_log (m : Manager) (id : Nat) (result : Returned) :
    (m.finish id result).log = m.log ++ [(id, result)] := rfl

end Machine

/-! ### Every step, named -/

/-- A statement that panics when it runs: an unlock of an unlocked mutex, or `Close` on the nil
interface. -/
def PanicsAt (m : Manager) : Call → Prop
  | .getOrCreate _ (.unlocking _) => m.muLocked = false
  | .destroy _ (.unlocking _) => m.muLocked = false
  | .destroy _ (.closing none) => True
  | _ => False

/-- What one step of the machine does. -/
inductive Move (m : Manager) : Manager → Prop
  | invoke (op : Op) : Move m (m.invoke (Call.start op))
  | panic (id : Nat) (panics : PanicsAt m (m.calls id)) : Move m m.panic
  | getLock (id : Nat) (taskId : TaskID) (current : m.calls id = .getOrCreate taskId .locking)
      (unlocked : m.muLocked = false) :
    Move m { m.setCall id (.getOrCreate taskId .checking) with muLocked := true }
  | getFound (id : Nat) (taskId : TaskID) (queue : QueueRef)
      (current : m.calls id = .getOrCreate taskId .checking)
      (found : m.queues.lookup taskId = some queue) :
    Move m (m.setCall id (.getOrCreate taskId .reading))
  | getMissing (id : Nat) (taskId : TaskID) (current : m.calls id = .getOrCreate taskId .checking)
      (missing : m.queues.lookup taskId = none) :
    Move m (m.setCall id (.getOrCreate taskId .creating))
  | create (id : Nat) (taskId : TaskID) (current : m.calls id = .getOrCreate taskId .creating) :
    Move m { m.setCall id (.getOrCreate taskId (.storing m.made)) with made := m.made + 1 }
  | store (id : Nat) (taskId : TaskID) (queue : QueueRef)
      (current : m.calls id = .getOrCreate taskId (.storing queue)) :
    Move m { m.setCall id (.getOrCreate taskId .reading) with
      queues := m.queues.insert taskId queue }
  | getRead (id : Nat) (taskId : TaskID) (current : m.calls id = .getOrCreate taskId .reading) :
    Move m (m.setCall id (.getOrCreate taskId (.unlocking (m.queues.lookup taskId))))
  | getUnlock (id : Nat) (taskId : TaskID) (queue : Option QueueRef)
      (current : m.calls id = .getOrCreate taskId (.unlocking queue)) (locked : m.muLocked = true) :
    Move m (m.unlock id (.getOrCreate taskId (.returning queue)) (.getOrCreate taskId queue))
  | getReturn (id : Nat) (taskId : TaskID) (queue : Option QueueRef)
      (current : m.calls id = .getOrCreate taskId (.returning queue)) :
    Move m (m.finish id (.getOrCreate taskId queue))
  | destroyLock (id : Nat) (taskId : TaskID) (current : m.calls id = .destroy taskId .locking)
      (unlocked : m.muLocked = false) :
    Move m { m.setCall id (.destroy taskId .checking) with muLocked := true }
  | destroyMissing (id : Nat) (taskId : TaskID) (current : m.calls id = .destroy taskId .checking)
      (missing : m.queues.lookup taskId = none) :
    Move m (m.setCall id (.destroy taskId (.unlocking (some (notFoundError taskId)))))
  | destroyFound (id : Nat) (taskId : TaskID) (queue : QueueRef)
      (current : m.calls id = .destroy taskId .checking)
      (found : m.queues.lookup taskId = some queue) :
    Move m (m.setCall id (.destroy taskId .reading))
  | destroyRead (id : Nat) (taskId : TaskID) (current : m.calls id = .destroy taskId .reading) :
    Move m (m.setCall id (.destroy taskId (.closing (m.queues.lookup taskId))))
  | close (id : Nat) (taskId : TaskID) (queue : QueueRef)
      (current : m.calls id = .destroy taskId (.closing (some queue))) :
    Move m { m.setCall id (.destroy taskId .deleting) with closed := m.closed ++ [queue] }
  | delete (id : Nat) (taskId : TaskID) (current : m.calls id = .destroy taskId .deleting) :
    Move m { m.setCall id (.destroy taskId (.unlocking none)) with
      queues := m.queues.erase taskId }
  | destroyUnlock (id : Nat) (taskId : TaskID) (err : Option String)
      (current : m.calls id = .destroy taskId (.unlocking err)) (locked : m.muLocked = true) :
    Move m (m.unlock id (.destroy taskId (.returning err)) (.destroy taskId err))
  | destroyReturn (id : Nat) (taskId : TaskID) (err : Option String)
      (current : m.calls id = .destroy taskId (.returning err)) :
    Move m (m.finish id (.destroy taskId err))

theorem getOrCreateStep_move {m m' : Manager} {id : Nat} {taskId : TaskID} {pc : GetAt}
    (current : m.calls id = .getOrCreate taskId pc)
    (stepped : getOrCreateStep m id taskId pc = some m') : Move m m' := by
  cases pc with
  | locking =>
    simp only [getOrCreateStep, Manager.lock] at stepped
    split_ifs at stepped with locked
    cases stepped; exact .getLock _ _ current (by simpa using locked)
  | checking =>
    cases stepped
    cases found : m.queues.lookup taskId with
    | none => simpa only [found] using Move.getMissing _ _ current found
    | some queue => simpa only [found] using Move.getFound _ _ _ current found
  | creating => cases stepped; exact .create _ _ current
  | storing queue => cases stepped; exact .store _ _ _ current
  | reading => cases stepped; exact .getRead _ _ current
  | unlocking queue =>
    simp only [getOrCreateStep] at stepped
    split_ifs at stepped with locked <;> cases stepped
    · exact .getUnlock _ _ _ current locked
    · exact .panic id (by simp [PanicsAt, current, locked])
  | returning queue => cases stepped; exact .getReturn _ _ _ current

theorem destroyStep_move {m m' : Manager} {id : Nat} {taskId : TaskID} {pc : DestroyAt}
    (current : m.calls id = .destroy taskId pc)
    (stepped : destroyStep m id taskId pc = some m') : Move m m' := by
  cases pc with
  | locking =>
    simp only [destroyStep, Manager.lock] at stepped
    split_ifs at stepped with locked
    cases stepped; exact .destroyLock _ _ current (by simpa using locked)
  | checking =>
    cases stepped
    cases found : m.queues.lookup taskId with
    | none => simpa only [found] using Move.destroyMissing _ _ current found
    | some queue => simpa only [found] using Move.destroyFound _ _ _ current found
  | reading => cases stepped; exact .destroyRead _ _ current
  | closing queue =>
    cases queue with
    | none => cases stepped; exact .panic id (by simp [PanicsAt, current])
    | some queue => cases stepped; exact .close _ _ _ current
  | deleting => cases stepped; exact .delete _ _ current
  | unlocking err =>
    simp only [destroyStep] at stepped
    split_ifs at stepped with locked <;> cases stepped
    · exact .destroyUnlock _ _ _ current locked
    · exact .panic id (by simp [PanicsAt, current, locked])
  | returning err => cases stepped; exact .destroyReturn _ _ _ current

/-- **`step` does only what `Move` lists.** -/
theorem step_move {m m' : Manager} {action : Action} (stepped : step m action = some m') :
    Move m m' := by
  cases action with
  | invoke op => cases stepped; exact .invoke op
  | run id =>
    simp only [step] at stepped
    split at stepped
    · exact getOrCreateStep_move ‹_› stepped
    · exact destroyStep_move ‹_› stepped
    · cases stepped

end A2aGo.QueueManager
