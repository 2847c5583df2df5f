import A2aGo.EventQueue.Moves
import A2aGo.QueueManager.Registry

/-!
**`defaultRequestHandler.OnSendMessage` over the default queue manager and its queues.**

`NewHandler(executor)` keeps a queue manager, `eventqueue.NewInMemoryManager()` unless an option
replaces it, and `OnSendMessage` runs, in order: the check of the TaskID, `GetOrCreate` on the
manager, the executor's `Execute` on the queue it got, one `Read` from that queue, and the type
assertion on the event read. Any number of clients call it at once, so the model is a state with
every call in flight, as for the queue and the manager:

* the queue manager is the map it is linearizable to (`A2aGo.QueueManager.manager_linearizable`),
  so a `GetOrCreate` is one step of `Registry.exec`;
* each queue the manager made is an `inMemoryQueue` machine (`A2aGo.EventQueue`), and its own steps
  interleave with every other step (`Action.queue`);
* the executor is any one that writes a list of events to the queue it is given, one `Write`
  after another, and then returns an error or nil: each call carries them in its `Request`;
* a `Write` or a `Read` is a call on the queue machine: the handler call waits until the queue
  has logged its return.

Beside the Go state the machine keeps ghost state: the `log` of returns, and each `Write` and
`Read` a handler call made, with the queue's number for it.

* `Move`, `step_move`: what one step does, case by case.
-/

namespace A2aGo.Handler

open A2aGo.Protocol
open A2aGo.EventQueue (Queue CloseVersion QueueError defaultMaxQueueSize newInMemoryQueue)
open A2aGo.QueueManager (Registry QueueRef)

/-- What an `OnSendMessage` call asks for, with what the executor does on it: the events its
`Execute` writes to the queue, in order, and the error it returns after them. -/
structure Request (Meta : Type) where
  taskId : TaskID
  writes : List (Event Meta)
  err : Option String

/-- Where an `OnSendMessage` call is. -/
inductive SendAt (Meta : Type)
  /-- `if taskID == ""`. -/
  | checking
  /-- `queue, err := h.queueManager.GetOrCreate(ctx, taskID)`. -/
  | getting
  /-- `h.executor.Execute(ctx, ..., queue)`: the events still to write, and the queue's number
  for the `Write` in flight. -/
  | executing (queue : QueueRef) (rest : List (Event Meta)) (write : Option Nat)
  /-- `event, err := queue.Read(ctx)`, with the queue's number for the `Read` once made. -/
  | reading (queue : QueueRef) (read : Option Nat)

/-- One `OnSendMessage` call, by invocation number. -/
inductive SendCall (Meta : Type)
  | unborn
  | running (request : Request Meta) (pc : SendAt Meta)
  | returned (request : Request Meta)

/-- The request of a call, once made. -/
def SendCall.request? {Meta : Type} : SendCall Meta → Option (Request Meta)
  | .running request _ | .returned request => some request
  | .unborn => none

/-- The handler with its queue manager and queues, and every call in flight. -/
structure Server (Meta : Type) where
  /-- The queue manager, as the map it is linearizable to. -/
  registry : Registry
  /-- Each queue, by the number the manager made it under. -/
  queues : QueueRef → Queue (Event Meta)
  calls : Nat → SendCall Meta
  nextId : Nat
  panicked : Bool
  /-- Every return: the event, or the text of the error. -/
  log : List (Nat × Except String (Event Meta))
  /-- Each `Write` an executor made: the handler call, the queue, the queue's number for it. -/
  writes : List (Nat × QueueRef × Nat)
  /-- Each `Read` a handler call made: the call, the queue, the queue's number for it. -/
  reads : List (Nat × QueueRef × Nat)

variable {Meta : Type}

/-- `NewHandler(executor)` with the default `NewInMemoryManager()`, before any call. A queue the
manager has not made yet is as `NewInMemoryQueue(defaultMaxQueueSize)` makes it. -/
def newHandler : Server Meta where
  registry := Registry.empty
  queues := fun _ => newInMemoryQueue defaultMaxQueueSize
  calls := fun _ => .unborn
  nextId := 0
  panicked := false
  log := []
  writes := []
  reads := []

/-- What the scheduler does next. -/
inductive Action (Meta : Type)
  /-- A client calls `OnSendMessage`; the request carries what the executor will do. -/
  | send (request : Request Meta)
  /-- An `OnSendMessage` call executes its next statement. -/
  | run (id : Nat)
  /-- A queue takes a step on calls already made on it. -/
  | queue (queue : QueueRef) (action : EventQueue.Action (Event Meta))

section Machine

/-- Move a call to a new state. -/
def Server.setCall (s : Server Meta) (id : Nat) (call : SendCall Meta) : Server Meta :=
  { s with calls := Function.update s.calls id call }

/-- A queue moves to a new state. -/
def Server.setQueue (s : Server Meta) (queue : QueueRef) (q : Queue (Event Meta)) : Server Meta :=
  { s with queues := Function.update s.queues queue q }

/-- A call returns. -/
def Server.finish (s : Server Meta) (id : Nat) (request : Request Meta)
    (result : Except String (Event Meta)) : Server Meta :=
  { s with calls := Function.update s.calls id (.returned request), log := s.log ++ [(id, result)] }

/-- A goroutine panics. -/
def Server.panic (s : Server Meta) : Server Meta := { s with panicked := true }

/-- `defaultRequestHandler.OnSendMessage`, one statement; `none` when the call waits there. -/
def sendStep (s : Server Meta) (id : Nat) (request : Request Meta) :
    SendAt Meta → Option (Server Meta)
  | .checking =>
    if request.taskId = "" then some (s.finish id request (.error "message is missing TaskID"))
    else some (s.setCall id (.running request .getting))
  | .getting =>
    match s.registry.exec (.getOrCreate request.taskId) with
    | (registry, .getOrCreate _ (some queue)) =>
      some { s.setCall id (.running request (.executing queue request.writes none)) with
        registry := registry }
    | _ => some s.panic
  | .executing queue (event :: rest) none =>
    some { ((s.setCall id
          (.running request (.executing queue rest (some (s.queues queue).nextId)))).setQueue
        queue ((s.queues queue).invoke (.write event false .acquiring))) with
      writes := s.writes ++ [(id, queue, (s.queues queue).nextId)] }
  | .executing queue [] none =>
    match request.err with
    | some err => some (s.finish id request (.error err))
    | none => some (s.setCall id (.running request (.reading queue none)))
  | .executing queue rest (some write) =>
    if ((s.queues queue).log.lookup write).isSome then
      some (s.setCall id (.running request (.executing queue rest none)))
    else none
  | .reading queue none =>
    some { ((s.setCall id
          (.running request (.reading queue (some (s.queues queue).nextId)))).setQueue
        queue ((s.queues queue).invoke (.read false))) with
      reads := s.reads ++ [(id, queue, (s.queues queue).nextId)] }
  | .reading queue (some read) =>
    match (s.queues queue).log.lookup read with
    | some (.read (.ok (_, event))) =>
      some (s.finish id request (if event.isSendMessageResult then .ok event
        else .error ("unexpected event type: " ++ event.typeName)))
    | some (.read (.error err)) =>
      some (s.finish id request (.error ("failed to read event from queue: " ++ err.text)))
    | _ => none

/-- One step of the machine; `none` when the action cannot happen now. -/
def step (v : CloseVersion) (s : Server Meta) : Action Meta → Option (Server Meta)
  | .send request =>
    some { s with
      calls := Function.update s.calls s.nextId (.running request .checking)
      nextId := s.nextId + 1 }
  | .run id => match s.calls id with
    | .running request pc => sendStep s id request pc
    | _ => none
  | .queue queue action =>
    if action.internal then (EventQueue.step v (s.queues queue) action).map (s.setQueue queue)
    else none

/-- Run a schedule of actions; `none` if one of them cannot happen when its turn comes. -/
def run (v : CloseVersion) (s : Server Meta) : List (Action Meta) → Option (Server Meta)
  | [] => some s
  | action :: rest => (step v s action).bind fun s' => run v s' rest

/-- One step, by some action. -/
def Steps (v : CloseVersion) (s s' : Server Meta) : Prop := ∃ action, step v s action = some s'

/-- The states `NewHandler` reaches. -/
def Reachable (v : CloseVersion) (s : Server Meta) : Prop :=
  Relation.ReflTransGen (Steps v) newHandler s

@[simp] theorem setCall_calls (s : Server Meta) (id : Nat) (call : SendCall Meta) :
    (s.setCall id call).calls = Function.update s.calls id call := rfl

@[simp] theorem setQueue_queues (s : Server Meta) (queue : QueueRef) (q : Queue (Event Meta)) :
    (s.setQueue queue q).queues = Function.update s.queues queue q := rfl

@[simp] theorem finish_calls (s : Server Meta) (id : Nat) (request : Request Meta)
    (result : Except String (Event Meta)) :
    (s.finish id request result).calls = Function.update s.calls id (.returned request) := rfl

@[simp] theorem finish_log (s : Server Meta) (id : Nat) (request : Request Meta)
    (result : Except String (Event Meta)) :
    (s.finish id request result).log = s.log ++ [(id, result)] := rfl

end Machine

/-! ### Every step, named -/

/-- What one step of the machine does. -/
inductive Move (v : CloseVersion) (s : Server Meta) : Server Meta → Prop
  | send (request : Request Meta) :
    Move v s { s with
      calls := Function.update s.calls s.nextId (.running request .checking)
      nextId := s.nextId + 1 }
  | panic : Move v s s.panic
  | missingTaskId (id : Nat) (request : Request Meta)
      (current : s.calls id = .running request .checking) (empty : request.taskId = "") :
    Move v s (s.finish id request (.error "message is missing TaskID"))
  | checked (id : Nat) (request : Request Meta)
      (current : s.calls id = .running request .checking) (named : request.taskId ≠ "") :
    Move v s (s.setCall id (.running request .getting))
  | get (id : Nat) (request : Request Meta) (registry : Registry) (key : TaskID) (queue : QueueRef)
      (current : s.calls id = .running request .getting)
      (got : s.registry.exec (.getOrCreate request.taskId) =
        (registry, .getOrCreate key (some queue))) :
    Move v s { s.setCall id (.running request (.executing queue request.writes none)) with
      registry := registry }
  | write (id : Nat) (request : Request Meta) (queue : QueueRef) (event : Event Meta)
      (rest : List (Event Meta))
      (current : s.calls id = .running request (.executing queue (event :: rest) none)) :
    Move v s { ((s.setCall id
          (.running request (.executing queue rest (some (s.queues queue).nextId)))).setQueue
        queue ((s.queues queue).invoke (.write event false .acquiring))) with
      writes := s.writes ++ [(id, queue, (s.queues queue).nextId)] }
  | written (id : Nat) (request : Request Meta) (queue : QueueRef) (rest : List (Event Meta))
      (write : Nat) (current : s.calls id = .running request (.executing queue rest (some write)))
      (returned : ((s.queues queue).log.lookup write).isSome) :
    Move v s (s.setCall id (.running request (.executing queue rest none)))
  | executeFailed (id : Nat) (request : Request Meta) (queue : QueueRef) (err : String)
      (current : s.calls id = .running request (.executing queue [] none))
      (failed : request.err = some err) :
    Move v s (s.finish id request (.error err))
  | executed (id : Nat) (request : Request Meta) (queue : QueueRef)
      (current : s.calls id = .running request (.executing queue [] none))
      (succeeded : request.err = none) :
    Move v s (s.setCall id (.running request (.reading queue none)))
  | read (id : Nat) (request : Request Meta) (queue : QueueRef)
      (current : s.calls id = .running request (.reading queue none)) :
    Move v s { ((s.setCall id
          (.running request (.reading queue (some (s.queues queue).nextId)))).setQueue
        queue ((s.queues queue).invoke (.read false))) with
      reads := s.reads ++ [(id, queue, (s.queues queue).nextId)] }
  | received (id : Nat) (request : Request Meta) (queue : QueueRef) (read writer : Nat)
      (event : Event Meta) (current : s.calls id = .running request (.reading queue (some read)))
      (result : (s.queues queue).log.lookup read = some (.read (.ok (writer, event)))) :
    Move v s (s.finish id request (if event.isSendMessageResult then .ok event
      else .error ("unexpected event type: " ++ event.typeName)))
  | readFailed (id : Nat) (request : Request Meta) (queue : QueueRef) (read : Nat)
      (err : QueueError) (current : s.calls id = .running request (.reading queue (some read)))
      (result : (s.queues queue).log.lookup read = some (.read (.error err))) :
    Move v s (s.finish id request (.error ("failed to read event from queue: " ++ err.text)))
  | queue (queue : QueueRef) (action : EventQueue.Action (Event Meta)) (q : Queue (Event Meta))
      (internal : action.internal = true)
      (stepped : EventQueue.step v (s.queues queue) action = some q) :
    Move v s (s.setQueue queue q)

theorem sendStep_move {v : CloseVersion} {s s' : Server Meta} {id : Nat} {request : Request Meta}
    {pc : SendAt Meta} (current : s.calls id = .running request pc)
    (stepped : sendStep s id request pc = some s') : Move v s s' := by
  cases pc with
  | checking =>
    simp only [sendStep] at stepped
    split_ifs at stepped with empty <;> cases stepped
    · exact .missingTaskId _ _ current empty
    · exact .checked _ _ current empty
  | getting =>
    simp only [sendStep] at stepped
    split at stepped <;> cases stepped
    · exact .get _ _ _ _ _ current ‹_›
    · exact .panic
  | executing queue rest write =>
    cases write with
    | none =>
      cases rest with
      | cons event rest => cases stepped; exact .write _ _ _ _ _ current
      | nil =>
        simp only [sendStep] at stepped
        split at stepped <;> cases stepped
        · exact .executeFailed _ _ _ _ current ‹_›
        · exact .executed _ _ _ current ‹_›
    | some write =>
      simp only [sendStep] at stepped
      split_ifs at stepped with returned
      cases stepped
      exact .written _ _ _ _ _ current returned
  | reading queue read =>
    cases read with
    | none => cases stepped; exact .read _ _ _ current
    | some read =>
      simp only [sendStep] at stepped
      split at stepped <;> cases stepped
      · exact .received _ _ _ _ _ _ current ‹_›
      · exact .readFailed _ _ _ _ _ current ‹_›

/-- **`step` does only what `Move` lists.** -/
theorem step_move {v : CloseVersion} {s s' : Server Meta} {action : Action Meta}
    (stepped : step v s action = some s') : Move v s s' := by
  cases action with
  | send request => cases stepped; exact .send request
  | run id =>
    simp only [step] at stepped
    split at stepped
    · exact sendStep_move ‹_› stepped
    · cases stepped
  | queue queue action =>
    simp only [step] at stepped
    split_ifs at stepped with internal
    obtain ⟨q, queueStepped, rfl⟩ := Option.map_eq_some'.mp stepped
    exact .queue queue action q internal queueStepped

end A2aGo.Handler
