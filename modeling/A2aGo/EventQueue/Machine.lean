import Mathlib.Logic.Relation
import Mathlib.Logic.Function.Basic

/-!
**`inMemoryQueue` as a machine of concurrent calls.**

`queue_in_memory_impl.go` implements the event queue with a buffered channel `events`, a
semaphore (a channel `tokens` of capacity one), a flag `closed`, a signal channel `closeChan`
and a mutex `closeMu`. The file holds two versions of `Close`: the earlier sets `closed` before
signalling, the later after closing `events` (`CloseVersion`). `Write`, `Read` and `Close` run
in any number of goroutines at once, so the model is a state with every call in flight and a
step per Go statement:

* a call is numbered in invocation order and is its own goroutine (`Call`); a goroutine that
  makes several calls in a row is one schedule among those the model allows;
* a `select` takes any case that is ready, as Go does (`Action.run` names the case);
* a send that meets a blocked receiver on an empty channel is a direct handoff
  (`Action.handoff`), so an unbuffered `events` (size 0) is covered;
* a context is cancelled at any time (`Action.cancel`), or is already when the call starts;
* sending on or closing a closed channel, and unlocking an unlocked mutex, set `panicked`.

Beside the Go state the machine keeps ghost state: the id of the `Write` that sent each
buffered event, the sequence `sent` of every send into `events` in the order it took effect,
the `log` of returns, and the order in which `Close` calls locked `closeMu`.
-/

namespace A2aGo.EventQueue

/-- The two versions of `inMemoryQueue.Close` in the file. -/
inductive CloseVersion
  /-- The earlier one: `q.closed = true` before `close(q.closeChan)`. -/
  | setsClosedFirst
  /-- The later one: `q.closed = true` after `close(q.events)`. -/
  | setsClosedLast
  deriving DecidableEq, Repr

/-- `ErrQueueClosed`, and `ctx.Err()` of a done context. -/
inductive QueueError
  | queueClosed
  | ctxErr
  deriving DecidableEq, Repr

/-- Where a `Write` is. -/
inductive WriteAt
  /-- `q.semaphore.acquireWithContext(ctx)`. -/
  | acquiring
  /-- `if q.closed`, holding the permit. -/
  | checking
  /-- The `select` over `q.events <- event`, `<-q.closeChan` and `<-ctx.Done()`. -/
  | selecting
  /-- The deferred `q.semaphore.release()`, then `return err`. -/
  | releasing (err : Option QueueError)
  deriving DecidableEq, Repr

/-- Where a `Close` is. -/
inductive CloseAt
  /-- `q.closeMu.Lock()`. -/
  | locking
  /-- `if q.closed { return nil }`. -/
  | checking
  /-- The earlier version's `q.closed = true`. -/
  | settingClosed
  /-- `close(q.closeChan)`. -/
  | signalling
  /-- `q.semaphore.acquire()`. -/
  | acquiring
  /-- `close(q.events)`. -/
  | closingEvents
  /-- The later version's `q.closed = true`. -/
  | markingClosed
  /-- The deferred `q.semaphore.release()`. -/
  | releasing
  /-- The deferred `q.closeMu.Unlock()`, then `return nil`; `shutdown` tells which path. -/
  | unlocking (shutdown : Bool)
  deriving DecidableEq, Repr

/-- Where the shutdown starts after the check, and where it goes after `close(q.events)`. -/
def CloseVersion.shutdownStart : CloseVersion → CloseAt
  | .setsClosedFirst => .settingClosed
  | .setsClosedLast => .signalling

def CloseVersion.afterEventsClosed : CloseVersion → CloseAt
  | .setsClosedFirst => .releasing
  | .setsClosedLast => .markingClosed

/-- One call on the queue, by invocation number. `ctxDone` says whether the call's context is
done. -/
inductive Call (α : Type)
  | unborn
  | write (event : α) (ctxDone : Bool) (pc : WriteAt)
  | read (ctxDone : Bool)
  | close (pc : CloseAt)
  | returned
  deriving Repr

/-- What a call returned. A `Read`'s event carries the id of the `Write` that sent it; a
`Close` records whether it was the one that shut the queue down. -/
inductive Returned (α : Type)
  | write (err : Option QueueError)
  | read (result : Except QueueError (Nat × α))
  | close (err : Option QueueError) (shutdown : Bool)
  deriving Repr

/-- The queue and every call on it. -/
structure Queue (α : Type) where
  /-- The capacity of `events`: the `size` given to `NewInMemoryQueue`. -/
  size : Nat
  /-- The buffer of `events`, oldest first, each event with the id of its `Write`. -/
  events : List (Nat × α)
  eventsClosed : Bool
  /-- The tokens in `semaphore.tokens`, a channel of capacity one. -/
  tokens : Nat
  closed : Bool
  closeChanClosed : Bool
  closeMuLocked : Bool
  panicked : Bool
  calls : Nat → Call α
  nextId : Nat
  /-- Every send into `events`, in the order it took effect. -/
  sent : List (Nat × α)
  /-- Every return, in order. -/
  log : List (Nat × Returned α)
  /-- The `Close` calls, in the order they locked `closeMu`. -/
  lockOrder : List Nat

/-- `NewInMemoryQueue(size)`, before any call. -/
def newInMemoryQueue {α : Type} (size : Nat) : Queue α where
  size := size
  events := []
  eventsClosed := false
  tokens := 0
  closed := false
  closeChanClosed := false
  closeMuLocked := false
  panicked := false
  calls := fun _ => .unborn
  nextId := 0
  sent := []
  log := []
  lockOrder := []

/-- `defaultMaxQueueSize`, the capacity of every queue the queue manager makes. -/
def defaultMaxQueueSize : Nat := 1024

/-- The text of a queue error: `ErrQueueClosed`, or `ctx.Err()` of a cancelled context. -/
def QueueError.text : QueueError → String
  | .queueClosed => "queue is closed"
  | .ctxErr => "context canceled"

/-- What the scheduler does next. -/
inductive Action (α : Type)
  /-- A goroutine calls `Write(ctx, event)`. -/
  | write (event : α) (ctxDone : Bool)
  /-- A goroutine calls `Read(ctx)`. -/
  | read (ctxDone : Bool)
  /-- A goroutine calls `Close()`. -/
  | close
  /-- The context of a call is cancelled. -/
  | cancel (id : Nat)
  /-- A call executes its next statement; `branch` is the `select` case it takes. -/
  | run (id : Nat) (branch : Nat)
  /-- A `Write` blocked on `q.events <- event` hands its event to a blocked `Read`. -/
  | handoff (writer reader : Nat)

section Machine

variable {α : Type}

/-- Move a call to a new state. -/
def Queue.setCall (q : Queue α) (id : Nat) (call : Call α) : Queue α :=
  { q with calls := Function.update q.calls id call }

/-- Start a new call. -/
def Queue.invoke (q : Queue α) (call : Call α) : Queue α :=
  { q with calls := Function.update q.calls q.nextId call, nextId := q.nextId + 1 }

/-- A call returns. -/
def Queue.finish (q : Queue α) (id : Nat) (result : Returned α) : Queue α :=
  { q with calls := Function.update q.calls id .returned, log := q.log ++ [(id, result)] }

/-- A goroutine panics. -/
def Queue.panic (q : Queue α) : Queue α := { q with panicked := true }

/-- `inMemoryQueue.Write`, one statement; `none` when the call is blocked there. -/
def writeStep (q : Queue α) (id : Nat) (event : α) (ctxDone : Bool) :
    WriteAt → Nat → Option (Queue α)
  | .acquiring, 0 =>
    if q.tokens < 1 then
      some { q.setCall id (.write event ctxDone .checking) with tokens := q.tokens + 1 }
    else none
  | .acquiring, 1 => if ctxDone then some (q.finish id (.write (some .ctxErr))) else none
  | .checking, _ =>
    some (q.setCall id (.write event ctxDone
      (if q.closed then .releasing (some .queueClosed) else .selecting)))
  | .selecting, 0 =>
    if q.eventsClosed then some q.panic
    else if q.events.length < q.size then
      some { q.setCall id (.write event ctxDone (.releasing none)) with
        events := q.events ++ [(id, event)], sent := q.sent ++ [(id, event)] }
    else none
  | .selecting, 1 =>
    if q.closeChanClosed then
      some (q.setCall id (.write event ctxDone (.releasing (some .queueClosed))))
    else none
  | .selecting, 2 =>
    if ctxDone then some (q.setCall id (.write event ctxDone (.releasing (some .ctxErr))))
    else none
  | .releasing err, _ =>
    if 0 < q.tokens then some { q.finish id (.write err) with tokens := q.tokens - 1 } else none
  | _, _ => none

/-- `inMemoryQueue.Read`: its `select` over `<-q.events` and `<-ctx.Done()`. -/
def readStep (q : Queue α) (id : Nat) (ctxDone : Bool) : Nat → Option (Queue α)
  | 0 => match q.events with
    | entry :: rest => some { q.finish id (.read (.ok entry)) with events := rest }
    | [] => if q.eventsClosed then some (q.finish id (.read (.error .queueClosed))) else none
  | 1 => if ctxDone then some (q.finish id (.read (.error .ctxErr))) else none
  | _ => none

/-- `inMemoryQueue.Close`, one statement, in the given version. -/
def closeStep (v : CloseVersion) (q : Queue α) (id : Nat) : CloseAt → Option (Queue α)
  | .locking =>
    if q.closeMuLocked then none
    else some { q.setCall id (.close .checking) with
      closeMuLocked := true, lockOrder := q.lockOrder ++ [id] }
  | .checking =>
    some (q.setCall id (.close (if q.closed then .unlocking false else v.shutdownStart)))
  | .settingClosed => some { q.setCall id (.close .signalling) with closed := true }
  | .signalling =>
    if q.closeChanClosed then some q.panic
    else some { q.setCall id (.close .acquiring) with closeChanClosed := true }
  | .acquiring =>
    if q.tokens < 1 then
      some { q.setCall id (.close .closingEvents) with tokens := q.tokens + 1 }
    else none
  | .closingEvents =>
    if q.eventsClosed then some q.panic
    else some { q.setCall id (.close v.afterEventsClosed) with eventsClosed := true }
  | .markingClosed => some { q.setCall id (.close .releasing) with closed := true }
  | .releasing =>
    if 0 < q.tokens then
      some { q.setCall id (.close (.unlocking true)) with tokens := q.tokens - 1 }
    else none
  | .unlocking shutdown =>
    if q.closeMuLocked then
      some { q.finish id (.close none shutdown) with closeMuLocked := false }
    else some q.panic

/-- A direct send: the writer's `q.events <- event` meets the reader's `<-q.events` on an empty
open channel. -/
def handoff (q : Queue α) (writer reader : Nat) : Option (Queue α) :=
  match q.calls writer, q.calls reader, q.events with
  | .write event ctxDone .selecting, .read _, [] =>
    if q.eventsClosed then none
    else some { (q.setCall writer (.write event ctxDone (.releasing none))).finish reader
        (.read (.ok (writer, event))) with sent := q.sent ++ [(writer, event)] }
  | _, _, _ => none

/-- One step of the machine; `none` when the action cannot happen now. -/
def step (v : CloseVersion) (q : Queue α) : Action α → Option (Queue α)
  | .write event ctxDone => some (q.invoke (.write event ctxDone .acquiring))
  | .read ctxDone => some (q.invoke (.read ctxDone))
  | .close => some (q.invoke (.close .locking))
  | .cancel id => match q.calls id with
    | .write event _ pc => some (q.setCall id (.write event true pc))
    | .read _ => some (q.setCall id (.read true))
    | _ => none
  | .run id branch => match q.calls id with
    | .write event ctxDone pc => writeStep q id event ctxDone pc branch
    | .read ctxDone => readStep q id ctxDone branch
    | .close pc => closeStep v q id pc
    | _ => none
  | .handoff writer reader => handoff q writer reader

/-- Run a schedule of actions; `none` if one of them cannot happen when its turn comes. -/
def run (v : CloseVersion) (q : Queue α) : List (Action α) → Option (Queue α)
  | [] => some q
  | action :: rest => (step v q action).bind fun q' => run v q' rest

/-- One step, by some action. -/
def Steps (v : CloseVersion) (q q' : Queue α) : Prop := ∃ action, step v q action = some q'

/-- The states a queue made by `NewInMemoryQueue(size)` reaches. -/
def Reachable (v : CloseVersion) (size : Nat) (q : Queue α) : Prop :=
  Relation.ReflTransGen (Steps v) (newInMemoryQueue size) q

@[simp] theorem setCall_calls (q : Queue α) (id : Nat) (call : Call α) :
    (q.setCall id call).calls = Function.update q.calls id call := rfl

@[simp] theorem invoke_calls (q : Queue α) (call : Call α) :
    (q.invoke call).calls = Function.update q.calls q.nextId call := rfl

@[simp] theorem invoke_nextId (q : Queue α) (call : Call α) :
    (q.invoke call).nextId = q.nextId + 1 := rfl

@[simp] theorem finish_calls (q : Queue α) (id : Nat) (result : Returned α) :
    (q.finish id result).calls = Function.update q.calls id .returned := rfl

@[simp] theorem finish_log (q : Queue α) (id : Nat) (result : Returned α) :
    (q.finish id result).log = q.log ++ [(id, result)] := rfl

end Machine

end A2aGo.EventQueue
