import A2aGo.EventQueue.Safety

/-!
**One `Close` shuts the queue down, and after a `Close` has returned no `Write` gets in.**

Every `Close` returns nil. The first to lock `closeMu` is the only one on the shutdown path, and
any later one locks only after it returned, so once any `Close` has returned the shutdown is
done. From then on `closed` stays set, so a `Write` that starts later fails its check or is
cancelled: it never reaches its `select`, never sends, and returns an error.

* `Invariant.shutdown_logged`: once a `Close` has returned, the first has returned and said so;
* `LateWrites.move`: a step keeps the `Write` calls started after a point out of `W`;
* `Move.sent`: a step sends at most one event, and only while `events` is open.

These are the safety half of the law of `Close`; `CloseLaw` adds that every `Close` returns.
-/

namespace A2aGo.EventQueue

open Relation

variable {α : Type} {v : CloseVersion}

/-- The statements of the shutdown path: after the check, to the return. -/
def CloseAt.shutsDown : CloseAt → Bool
  | .locking | .checking | .unlocking false => false
  | _ => true

/-- Only the first `Close` to lock is on the shutdown path. -/
theorem Shutdown.first_of_shutsDown {q : Queue α} (inv : Shutdown v q) {i : Nat} {pc : CloseAt}
    (current : q.calls i = .close pc) (shuts : pc.shutsDown = true) :
    q.lockOrder.head? = some i := by
  have facts := inv.calls i
  rw [current] at facts
  cases pc with
  | locking | checking => simp [CloseAt.shutsDown] at shuts
  | unlocking shutdown =>
    cases shutdown
    · simp [CloseAt.shutsDown] at shuts
    · exact facts.1
  | _ => exact facts.1

/-- **Once a `Close` has returned, the first to lock has returned, saying it shut the queue
down.** A later `Close` locks only after the first has returned. -/
theorem Invariant.shutdown_logged {q : Queue α} (inv : Invariant v q) {i : Nat}
    {err : Option QueueError} {shutdown : Bool}
    (returned : (i, Returned.close err shutdown) ∈ q.log) :
    ∃ first, q.lockOrder.head? = some first ∧ (first, Returned.close none true) ∈ q.log := by
  have member : i ∈ q.lockOrder := (inv.closeReturns.locked i _ returned).mpr rfl
  obtain ⟨first, head⟩ : ∃ first, q.lockOrder.head? = some first := by
    cases order : q.lockOrder with
    | nil => simp [order] at member
    | cons first rest => exact ⟨first, rfl⟩
  have firstReturned : q.calls first = .returned := by
    by_cases same : i = first
    · exact same ▸ inv.delivery.logged i _ returned
    · exact inv.shutdown.firstReturned first i head member same
  obtain ⟨result, logged⟩ := inv.delivery.returnedLogged first firstReturned
  have isClose := (inv.closeReturns.locked first result logged).mp (List.mem_of_mem_head? head)
  cases result with
  | close firstErr firstShutdown =>
    obtain ⟨rfl, shuts, -⟩ := inv.closeReturns.results first firstErr firstShutdown logged
    rw [shuts.mpr head] at logged
    exact ⟨first, head, logged⟩
  | _ => simp [Returned.isClose] at isClose

/-! ### Writes after a `Close` returned -/

/-- The `Write` calls numbered from `n` on, once `closed` is set: none is in its `select` or
past a send, and none has sent. -/
structure LateWrites (n : Nat) (q : Queue α) : Prop where
  closed : q.closed = true
  blocked : ∀ w event ctxDone pc, n ≤ w → q.calls w = .write event ctxDone pc →
    pc ≠ .selecting ∧ pc ≠ .releasing none
  notSent : ∀ w, n ≤ w → w ∉ q.senders

theorem LateWrites.setCall {n id : Nat} {call : Call α} {q q' : Queue α} (late : LateWrites n q)
    (closed : q'.closed = true) (moved : q'.calls id = call)
    (others : ∀ i, i ≠ id → q'.calls i = q.calls i)
    (blocked : n ≤ id → ∀ event ctxDone pc, call = .write event ctxDone pc →
      pc ≠ .selecting ∧ pc ≠ .releasing none)
    (senders : q'.senders = q.senders) : LateWrites n q' := by
  refine ⟨closed, fun w event ctxDone pc later called => ?_,
    fun w later => senders ▸ late.notSent w later⟩
  by_cases here : w = id
  · subst here
    exact blocked later event ctxDone pc (moved ▸ called)
  · exact late.blocked w event ctxDone pc later (others w here ▸ called)

/-- A `Write` that sends is not a late one. -/
theorem LateWrites.send {n id : Nat} {event : α} {ctxDone : Bool} {q : Queue α}
    (late : LateWrites n q) (current : q.calls id = .write event ctxDone .selecting) :
    LateWrites n { q.setCall id (.write event ctxDone (.releasing none)) with
      events := q.events ++ [(id, event)], sent := q.sent ++ [(id, event)] } := by
  have early : id < n := by
    by_contra later
    exact (late.blocked id _ _ _ (by omega) current).1 rfl
  refine ⟨late.closed, fun w event' ctxDone' pc later called => ?_, fun w later mem => ?_⟩
  · have other : w ≠ id := by omega
    simp only [setCall_calls, Function.update_noteq other] at called
    exact late.blocked w _ _ _ later called
  · have other : w ≠ id := by omega
    simp only [Queue.senders, List.map_append, List.map_cons, List.map_nil, List.mem_append,
      List.mem_singleton, other, or_false] at mem
    exact late.notSent w later mem

/-- **Every step keeps `LateWrites`**: a late `Write` finds `closed` set at its check. -/
theorem LateWrites.move {n : Nat} {q q' : Queue α} (late : LateWrites n q) (move : Move v q q') :
    LateWrites n q' := by
  cases move with
  | writeSend id event ctxDone current => exact late.send current
  | handoff writer reader event ctxDone readerDone currentWriter =>
    exact (late.send currentWriter).setCall late.closed (Function.update_same _ _ _)
      (fun i other => by simp [other]) (fun _ _ _ _ moved => by cases moved) rfl
  | panic => exact ⟨late.closed, late.blocked, late.notSent⟩
  | writeCheck id event ctxDone current =>
    exact late.setCall late.closed (Function.update_same _ _ _) (fun i other => by simp [other])
      (fun _ _ _ _ moved => by cases moved; simp [late.closed]) rfl
  | cancelWrite id event ctxDone pc current =>
    exact late.setCall late.closed (Function.update_same _ _ _) (fun i other => by simp [other])
      (fun later _ _ _ moved => by cases moved; exact late.blocked id _ _ _ later current) rfl
  | _ =>
    exact late.setCall (by simp [Queue.setCall, Queue.finish, Queue.invoke, late.closed])
      (Function.update_same _ _ _) (fun i other => by simp [other])
      (fun _ _ _ _ moved => by cases moved <;> simp) rfl

theorem LateWrites.steps {n : Nat} {q q' : Queue α} (late : LateWrites n q)
    (steps : ReflTransGen (Steps v) q q') : LateWrites n q' := by
  induction steps with
  | refl => exact late
  | tail _ step reached =>
    obtain ⟨action, stepped⟩ := step
    exact reached.move (step_move stepped)

/-- A step sends at most one event, and only while `events` is open. -/
theorem Move.sent {q q' : Queue α} (move : Move v q q') :
    q'.sent = q.sent ∨
      (q.eventsClosed = false ∧ ∃ w event, q'.sent = q.sent ++ [(w, event)]) := by
  cases move with
  | writeSend id event _ _ opened => exact .inr ⟨opened, id, event, rfl⟩
  | handoff writer reader event _ _ _ _ _ opened => exact .inr ⟨opened, writer, event, rfl⟩
  | _ => exact .inl rfl

end A2aGo.EventQueue
