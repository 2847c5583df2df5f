import A2aGo.EventQueue.Shutdown

/-!
**Every run of the queue is safe and delivers what it accepted.**

The invariants of the earlier modules hold together in `NewInMemoryQueue(size)` and each step
keeps them, so they hold in every reachable state, for any number of calls in any interleaving,
with any cancellations, and in both versions of `Close`:

* `invariant_reachable`: the invariants hold in every reachable state;
* `reachable_never_panics`: no reachable state has panicked, and no call is at a statement that
  would panic;
* `queue_delivers_sent_events`: a `Write` returns nil exactly when its send is in `W`, and once;
  the successful `Read` calls received a prefix of `W`, in order; a failed `Read` takes nothing,
  and `ErrQueueClosed` comes only once `events` is closed and all of `W` has been received.
-/

namespace A2aGo.EventQueue

open Relation

variable {α : Type} {v : CloseVersion}

/-- The invariant of the queue: every fact the steps keep. -/
structure Invariant (v : CloseVersion) (q : Queue α) : Prop where
  unborn : Unborn q
  exclusion : Exclusion q
  shutdown : Shutdown v q
  closeReturns : CloseReturns q
  delivery : Delivery q

theorem shutdown_newInMemoryQueue (size : Nat) : Shutdown v (newInMemoryQueue (α := α) size) where
  locked := by simp [newInMemoryQueue]
  calls _ := trivial
  flags := rfl
  noPanic := rfl
  firstReturned := by simp [newInMemoryQueue]

theorem closeReturns_newInMemoryQueue (size : Nat) :
    CloseReturns (newInMemoryQueue (α := α) size) where
  results := by simp [newInMemoryQueue]
  locked := by simp [newInMemoryQueue]

theorem invariant_newInMemoryQueue (size : Nat) : Invariant v (newInMemoryQueue (α := α) size) :=
  ⟨unborn_newInMemoryQueue size, exclusion_newInMemoryQueue size, shutdown_newInMemoryQueue size,
    closeReturns_newInMemoryQueue size, delivery_newInMemoryQueue size⟩

/-- **Every step keeps the invariant.** -/
theorem Invariant.move {q q' : Queue α} (inv : Invariant v q) (move : Move v q q') :
    Invariant v q' :=
  ⟨unborn_move inv.unborn move, exclusion_move inv.unborn inv.exclusion move,
    shutdown_move inv.unborn inv.exclusion inv.shutdown move,
    closeReturns_move inv.shutdown inv.delivery inv.closeReturns move,
    delivery_move inv.unborn inv.delivery move⟩

/-- **Every run keeps the invariant.** -/
theorem Invariant.steps {q q' : Queue α} (inv : Invariant v q)
    (steps : ReflTransGen (Steps v) q q') : Invariant v q' := by
  induction steps with
  | refl => exact inv
  | tail _ step reached =>
    obtain ⟨action, stepped⟩ := step
    exact reached.move (step_move stepped)

/-- **The invariant holds in every reachable state.** -/
theorem invariant_reachable {size : Nat} {q : Queue α} (reach : Reachable v size q) :
    Invariant v q :=
  (invariant_newInMemoryQueue size).steps reach

/-- A schedule that runs reaches the state it ends in. -/
theorem steps_of_run {q q' : Queue α} {actions : List (Action α)}
    (ran : run v q actions = some q') : ReflTransGen (Steps v) q q' := by
  induction actions generalizing q with
  | nil => cases ran; exact .refl
  | cons action rest ih =>
    obtain ⟨next, stepped, rest⟩ := Option.bind_eq_some.mp ran
    exact ReflTransGen.head ⟨action, stepped⟩ (ih rest)

/-- `TestInMemoryQueue_WriteCloseRead` and `TestInMemoryQueue_Close` as one schedule on
`NewInMemoryQueue(3)`: two writes, a `Close`, a write after it, three reads, a second `Close`. -/
def writeCloseRead : List (Action Nat) :=
  [.write 1 false, .run 0 0, .run 0 0, .run 0 0, .run 0 0,
   .write 2 false, .run 1 0, .run 1 0, .run 1 0, .run 1 0,
   .close, .run 2 0, .run 2 0, .run 2 0, .run 2 0, .run 2 0, .run 2 0, .run 2 0, .run 2 0,
   .write 3 false, .run 3 0, .run 3 0, .run 3 0,
   .read false, .run 4 0, .read false, .run 5 0, .read false, .run 6 0,
   .close, .run 7 0, .run 7 0, .run 7 0]

/-- The state `writeCloseRead` ends in, with the later `Close`. -/
def writeCloseReadState : Queue Nat :=
  (run .setsClosedLast (newInMemoryQueue 3) writeCloseRead).getD (newInMemoryQueue 3)

theorem writeCloseReadState_reachable : Reachable .setsClosedLast 3 writeCloseReadState :=
  steps_of_run (rfl : run .setsClosedLast (newInMemoryQueue 3) writeCloseRead =
    some writeCloseReadState)

example : writeCloseReadState.log =
    [(0, .write none), (1, .write none), (2, .close none true), (3, .write (some .queueClosed)),
     (4, .read (.ok (0, 1))), (5, .read (.ok (1, 2))), (6, .read (.error .queueClosed)),
     (7, .close none false)] := rfl

/-! ### No panic -/

/-- **No reachable state panics, in either version of `Close`.** No `Write` is ever in its
`select` while `events` is closed, so its send never meets a closed channel; `close(q.closeChan)`
and `close(q.events)` never run on a closed channel; `closeMu` is never unlocked while unlocked. -/
theorem reachable_never_panics (v : CloseVersion) (size : Nat) (q : Queue α)
    (reach : Reachable v size q) : q.panicked = false ∧ ∀ id, ¬ PanicsAt q (q.calls id) := by
  have inv := invariant_reachable reach
  exact ⟨inv.shutdown.noPanic, inv.shutdown.not_panicsAt inv.exclusion⟩

theorem reachable_never_panics_writeCloseRead :
    Reachable .setsClosedLast 3 writeCloseReadState ∧ writeCloseReadState.panicked = false ∧
      ∀ id, ¬ PanicsAt writeCloseReadState (writeCloseReadState.calls id) :=
  ⟨writeCloseReadState_reachable,
    reachable_never_panics .setsClosedLast 3 writeCloseReadState writeCloseReadState_reachable⟩

/-! ### Delivery -/

/-- A step that returns a `Read` with an error leaves the buffer alone, and `ErrQueueClosed`
comes only from a closed, empty buffer. -/
theorem Move.readError {q q' : Queue α} (move : Move v q q') {i : Nat} {err : QueueError}
    (returned : q'.log = q.log ++ [(i, .read (.error err))]) :
    q'.events = q.events ∧ (err = .queueClosed → q.events = [] ∧ q.eventsClosed = true) := by
  cases move <;> simp_all [Queue.setCall, Queue.finish, Queue.invoke, Queue.panic]
  case readCancelled =>
    obtain ⟨-, rfl⟩ := returned
    simp

/-- **`W` is delivered once each, in order, and nothing else is.** In every reachable state:
(i) a `Write` that returned, returned nil exactly when its send is in `W`, and each send is
there once; (ii) the events the `Read` calls received, in the order they received them, are a
prefix of `W`; and of the next step: (iii) a `Read` that returns an error leaves the buffer as it
was; (iv) one that returns `ErrQueueClosed` does so only once `events` is closed and every event
of `W` has been received. -/
theorem queue_delivers_sent_events (v : CloseVersion) (size : Nat) (q q' : Queue α)
    (reach : Reachable v size q) :
    (∀ w err, (w, Returned.write err) ∈ q.log → (err = none ↔ w ∈ q.senders)) ∧
    q.senders.Nodup ∧ q.delivered <+: q.sent ∧
    (Steps v q q' → ∀ i err, q'.log = q.log ++ [(i, .read (.error err))] →
      q'.events = q.events ∧
        (err = .queueClosed → q.eventsClosed = true ∧ q.delivered = q.sent)) := by
  have inv := (invariant_reachable reach).delivery
  refine ⟨inv.writeReturns, inv.nodup, ⟨q.events, inv.fifo⟩, ?_⟩
  rintro ⟨action, stepped⟩ i err returned
  obtain ⟨events, closedRead⟩ := (step_move stepped).readError returned
  refine ⟨events, fun closed => ?_⟩
  obtain ⟨empty, eventsClosed⟩ := closedRead closed
  have fifo := inv.fifo
  rw [empty, List.append_nil] at fifo
  exact ⟨eventsClosed, fifo⟩

/-- `writeCloseRead` up to its third `Read` (call 6), invoked and not yet at its `select`:
both events have been received, the buffer is empty and `events` is closed. -/
def closedReadState : Queue Nat :=
  (run .setsClosedLast (newInMemoryQueue 3) (writeCloseRead.take 28)).getD (newInMemoryQueue 3)

/-- The next step: the third `Read` takes the closed case of its `select`. -/
def closedReadReturned : Queue Nat :=
  (step .setsClosedLast closedReadState (.run 6 0)).getD closedReadState

theorem queue_delivers_sent_events_writeCloseRead :
    Reachable .setsClosedLast 3 closedReadState ∧
    Steps .setsClosedLast closedReadState closedReadReturned ∧
    closedReadReturned.log = closedReadState.log ++ [(6, .read (.error .queueClosed))] ∧
    (∀ w err, (w, Returned.write err) ∈ closedReadState.log →
      (err = none ↔ w ∈ closedReadState.senders)) ∧
    closedReadState.senders.Nodup ∧
    closedReadState.delivered <+: closedReadState.sent ∧
    (Steps .setsClosedLast closedReadState closedReadReturned → ∀ i err,
      closedReadReturned.log = closedReadState.log ++ [(i, .read (.error err))] →
      closedReadReturned.events = closedReadState.events ∧
        (err = .queueClosed → closedReadState.eventsClosed = true ∧
          closedReadState.delivered = closedReadState.sent)) :=
  have reach : Reachable .setsClosedLast 3 closedReadState :=
    steps_of_run (rfl : run .setsClosedLast (newInMemoryQueue 3) (writeCloseRead.take 28) =
      some closedReadState)
  ⟨reach, ⟨.run 6 0, rfl⟩, rfl,
    queue_delivers_sent_events .setsClosedLast 3 closedReadState closedReadReturned reach⟩

end A2aGo.EventQueue
