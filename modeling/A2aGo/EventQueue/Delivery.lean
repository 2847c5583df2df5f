import Mathlib.Data.List.Nodup
import A2aGo.EventQueue.Exclusion

/-!
**What goes into `events` comes out once, in order.**

`sent` is `W`, the sequence of sends into `events` in the order they took effect. The `Read`
calls that returned an event took a prefix of it, in order, and the rest is the buffer; a `Write`
that returned nil is one whose send took effect, and each took effect once.

* `Delivery.fifo`: the events delivered, then the buffer, are `W`;
* `Delivery.inFlight`, `Delivery.writeReturns`: a `Write` is in `W` exactly when its `select`
  took the send case, and it returns nil exactly then;
* `delivery_move`: every step keeps `Delivery`.
-/

namespace A2aGo.EventQueue

variable {α : Type}

/-- The event a return delivered: a `Read` that returned one. -/
def received : Nat × Returned α → Option (Nat × α)
  | (_, .read (.ok entry)) => some entry
  | _ => none

/-- The events the `Read` calls returned, in the order they received them. -/
def Queue.delivered (q : Queue α) : List (Nat × α) := q.log.filterMap received

/-- The `Write` calls whose sends took effect, in the order they did: the writers of `W`. -/
def Queue.senders (q : Queue α) : List Nat := q.sent.map Prod.fst

/-- The invariant of delivery. -/
structure Delivery (q : Queue α) : Prop where
  fifo : q.delivered ++ q.events = q.sent
  nodup : q.senders.Nodup
  started : ∀ w ∈ q.senders, w < q.nextId
  inFlight : ∀ w event ctxDone pc, q.calls w = .write event ctxDone pc →
    (w ∈ q.senders ↔ pc = .releasing none)
  writeReturns : ∀ w err, (w, Returned.write err) ∈ q.log → (err = none ↔ w ∈ q.senders)
  logged : ∀ i result, (i, result) ∈ q.log → q.calls i = .returned
  returnedLogged : ∀ i, q.calls i = .returned → ∃ result, (i, result) ∈ q.log

theorem delivery_newInMemoryQueue (size : Nat) : Delivery (newInMemoryQueue (α := α) size) where
  fifo := rfl
  nodup := List.nodup_nil
  started := by simp [Queue.senders, newInMemoryQueue]
  inFlight := by simp [newInMemoryQueue]
  writeReturns := by simp [newInMemoryQueue]
  logged := by simp [newInMemoryQueue]
  returnedLogged := by simp [newInMemoryQueue]

/-! ### Steps that send nothing and deliver nothing -/

/-- **A step that moves one running call keeps `Delivery`**, if a `Write` it leaves is in `W`
exactly when it is past its send. -/
theorem Delivery.setCall {q q' : Queue α} {id : Nat} {call : Call α} (inv : Delivery q)
    (running : q.calls id ≠ .returned) (moved : q'.calls id = call)
    (stillRunning : call ≠ .returned)
    (others : ∀ i, i ≠ id → q'.calls i = q.calls i)
    (sending : ∀ event ctxDone pc, call = .write event ctxDone pc →
      (id ∈ q.senders ↔ pc = .releasing none))
    (events : q'.events = q.events) (sent : q'.sent = q.sent) (log : q'.log = q.log)
    (nextId : q.nextId ≤ q'.nextId) : Delivery q' := by
  have senders : q'.senders = q.senders := by rw [Queue.senders, sent, Queue.senders]
  refine ⟨?_, senders ▸ inv.nodup, fun w mem => ?_, fun w event ctxDone pc called => ?_,
    fun w err mem => ?_, fun i result mem => ?_, fun i returned => ?_⟩
  · rw [Queue.delivered, log, events, sent]
    exact inv.fifo
  · have below := inv.started w (senders ▸ mem)
    omega
  · rw [senders]
    by_cases here : w = id
    · subst here
      exact sending event ctxDone pc (moved ▸ called)
    · exact inv.inFlight w event ctxDone pc (others w here ▸ called)
  · rw [senders]
    exact inv.writeReturns w err (log ▸ mem)
  · have returned := inv.logged i result (log ▸ mem)
    have other : i ≠ id := fun same => running (same ▸ returned)
    rw [others i other, returned]
  · have other : i ≠ id := fun same => stillRunning (moved ▸ same ▸ returned)
    rw [log]
    exact inv.returnedLogged i (others i other ▸ returned)

/-- **A return keeps `Delivery`** if a `Write` returns nil exactly when it is in `W`, and a `Read`
that returns an event takes it from the head of the buffer. -/
theorem Delivery.finish {q q' : Queue α} {id : Nat} {result : Returned α} (inv : Delivery q)
    (moved : q'.calls id = .returned) (others : ∀ i, i ≠ id → q'.calls i = q.calls i)
    (log : q'.log = q.log ++ [(id, result)])
    (writeResult : ∀ err, result = .write err → (err = none ↔ id ∈ q.senders))
    (taken : (received (id, result)).toList ++ q'.events = q.events) (sent : q'.sent = q.sent)
    (nextId : q'.nextId = q.nextId) : Delivery q' := by
  have senders : q'.senders = q.senders := by rw [Queue.senders, sent, Queue.senders]
  refine ⟨?_, senders ▸ inv.nodup, fun w mem => nextId ▸ inv.started w (senders ▸ mem),
    fun w event ctxDone pc called => ?_, fun w err mem => ?_, fun i result' mem => ?_,
    fun i returned => ?_⟩
  · have single : [(id, result)].filterMap received = (received (id, result)).toList := by
      cases delivered : received (id, result) <;> simp [delivered]
    rw [Queue.delivered, log, sent, List.filterMap_append, single, List.append_assoc, taken]
    exact inv.fifo
  · have here : w ≠ id := fun same => by simp [same, moved] at called
    rw [senders]
    exact inv.inFlight w event ctxDone pc (others w here ▸ called)
  · rw [senders]
    rw [log, List.mem_append, List.mem_singleton, Prod.mk.injEq] at mem
    rcases mem with old | ⟨rfl, new⟩
    · exact inv.writeReturns w err old
    · exact writeResult err new.symm
  · rw [log, List.mem_append, List.mem_singleton, Prod.mk.injEq] at mem
    by_cases here : i = id
    · rw [here, moved]
    · rcases mem with old | ⟨same, -⟩
      · rw [others i here, inv.logged i result' old]
      · exact absurd same here
  · rw [log]
    by_cases here : i = id
    · exact ⟨result, by simp [here]⟩
    · obtain ⟨result', old⟩ := inv.returnedLogged i (others i here ▸ returned)
      exact ⟨result', List.mem_append_left _ old⟩

/-! ### Sends -/

/-- **A send into the buffer keeps `Delivery`**: the event joins the end of the buffer and of
`W`, once, since a `Write` in its `select` has not sent before. -/
theorem Delivery.send {q : Queue α} (inv : Delivery q) (unborn : Unborn q) {id : Nat}
    {event : α} {ctxDone : Bool} (current : q.calls id = .write event ctxDone .selecting) :
    Delivery { q.setCall id (.write event ctxDone (.releasing none)) with
      events := q.events ++ [(id, event)], sent := q.sent ++ [(id, event)] } := by
  have notSent : id ∉ q.senders := by simpa using inv.inFlight id _ _ _ current
  have below : id < q.nextId := unborn.lt (by simp [current])
  have senders : Queue.senders { q.setCall id (.write event ctxDone (.releasing none)) with
      events := q.events ++ [(id, event)], sent := q.sent ++ [(id, event)] } =
      q.senders ++ [id] := by
    simp [Queue.senders]
  have running : ∀ i result, (i, result) ∈ q.log → i ≠ id := fun i result mem same => by
    simp [same, current] at mem
    simpa [current] using inv.logged id result mem
  refine ⟨?_, ?_, fun w mem => ?_, fun w event' ctxDone' pc called => ?_, fun w err mem => ?_,
    fun i result mem => ?_, fun i returned => ?_⟩
  · show q.delivered ++ (q.events ++ [(id, event)]) = q.sent ++ [(id, event)]
    rw [← List.append_assoc, inv.fifo]
  · rw [senders, ← List.concat_eq_append]
    exact inv.nodup.concat notSent
  · rw [senders, List.mem_append, List.mem_singleton] at mem
    rcases mem with old | rfl
    · exact inv.started w old
    · exact below
  · rw [senders, List.mem_append, List.mem_singleton]
    by_cases here : w = id
    · subst here
      simp at called
      simp [called]
    · simp only [setCall_calls, Function.update_noteq here] at called
      simpa [here] using inv.inFlight w event' ctxDone' pc called
  · have other := running w _ mem
    rw [senders, List.mem_append, List.mem_singleton]
    simpa [other] using inv.writeReturns w err mem
  · have other := running i result mem
    simpa [other] using inv.logged i result mem
  · have other : i ≠ id := fun same => by simp [same] at returned
    exact inv.returnedLogged i (by simpa [other] using returned)

/-! ### Every step -/

/-- **Every step keeps `Delivery`.** -/
theorem delivery_move {v : CloseVersion} {q q' : Queue α} (unborn : Unborn q) (inv : Delivery q)
    (move : Move v q q') : Delivery q' := by
  have fresh := unborn q.nextId (Nat.le_refl _)
  have notSender : q.nextId ∉ q.senders := fun mem => Nat.lt_irrefl _ (inv.started _ mem)
  cases move with
  | invokeWrite =>
    exact inv.setCall (by simp [fresh]) (Function.update_same _ _ _) (by simp)
      (fun i other => by simp [other]) (fun _ _ _ started => by cases started; simp [notSender])
      rfl rfl rfl (Nat.le_succ _)
  | invokeRead | invokeClose =>
    exact inv.setCall (by simp [fresh]) (Function.update_same _ _ _) (by simp)
      (fun i other => by simp [other]) (fun _ _ _ started => by cases started) rfl rfl rfl
      (Nat.le_succ _)
  | cancelWrite id event ctxDone pc current =>
    exact inv.setCall (by simp [current]) (Function.update_same _ _ _) (by simp)
      (fun i other => by simp [other])
      (fun _ _ _ cancelled => by cases cancelled; exact inv.inFlight id _ _ _ current)
      rfl rfl rfl (Nat.le_refl _)
  | writeCheck id event ctxDone current =>
    have sending := inv.inFlight id _ _ _ current
    exact inv.setCall (by simp [current]) (Function.update_same _ _ _) (by simp)
      (fun i other => by simp [other])
      (fun _ _ _ moved => by cases moved; simp at sending; split_ifs <;> simp [sending])
      rfl rfl rfl (Nat.le_refl _)
  | writeAcquire id event ctxDone current | writeSignalled id event ctxDone current
  | writeCancelled id event current =>
    have sending := inv.inFlight id _ _ _ current
    exact inv.setCall (by simp [current]) (Function.update_same _ _ _) (by simp)
      (fun i other => by simp [other]) (fun _ _ _ moved => by cases moved; simpa using sending)
      rfl rfl rfl (Nat.le_refl _)
  | cancelRead id ctxDone current | closeLock id current | closeCheck id current
  | closeSetClosed id current | closeSignal id current | closeAcquire id current
  | closeEvents id current | closeMarkClosed id current | closeRelease id current =>
    exact inv.setCall (by simp [current]) (Function.update_same _ _ _) (by simp)
      (fun i other => by simp [other]) (fun _ _ _ moved => by cases moved) rfl rfl rfl
      (Nat.le_refl _)
  | panic =>
    exact ⟨inv.fifo, inv.nodup, inv.started, inv.inFlight, inv.writeReturns, inv.logged,
      inv.returnedLogged⟩
  | writeAcquireCancelled id event current | writeRelease id event ctxDone err current =>
    have sending := inv.inFlight id _ _ _ current
    exact inv.finish (Function.update_same _ _ _) (fun i other => by simp [other]) rfl
      (fun _ result => by cases result; simpa using sending.symm) rfl rfl rfl
  | readClosed id ctxDone current | readCancelled id current
  | closeUnlock id shutdown current =>
    exact inv.finish (Function.update_same _ _ _) (fun i other => by simp [other]) rfl
      (fun _ result => by cases result) rfl rfl rfl
  | readReceive id ctxDone entry rest current buffered =>
    exact inv.finish (Function.update_same _ _ _) (fun i other => by simp [other]) rfl
      (fun _ result => by cases result) buffered.symm rfl rfl
  | writeSend id event ctxDone current => exact inv.send unborn current
  | handoff writer reader event ctxDone readerDone currentWriter currentReader empty =>
    have other : reader ≠ writer := fun same => by simp [same, currentWriter] at currentReader
    exact (inv.send unborn currentWriter).finish (Function.update_same _ _ _)
      (fun i other => by simp [other]) rfl (fun _ result => by cases result)
      (by simp [received, empty, Queue.finish, Queue.setCall]) rfl rfl

end A2aGo.EventQueue
