import A2aGo.EventQueue.Moves
import A2aGo.Sync.Counted

/-!
**The semaphore and `closeMu` are held by at most one call, and count their holders.**

The semaphore is a channel of capacity one: a token is in it exactly while one call is in the
region it guards (`Call.holdsPermit`: a `Write` from `acquireWithContext` to its deferred
release, a `Close` from `acquire` to its deferred release). Likewise `closeMu` is locked exactly
while one `Close` is between `Lock` and its deferred `Unlock` (`Call.holdsCloseMu`).

* `exclusion_move`: every step keeps both counts (`Exclusion`).
-/

namespace A2aGo.EventQueue

open A2aGo.Sync

variable {α : Type}

/-- Inside the region the semaphore guards. -/
def Call.holdsPermit : Call α → Bool
  | .write _ _ .checking | .write _ _ .selecting | .write _ _ (.releasing _) => true
  | .close .closingEvents | .close .markingClosed | .close .releasing => true
  | _ => false

/-- Holding `closeMu`. -/
def Call.holdsCloseMu : Call α → Bool
  | .close .locking => false
  | .close _ => true
  | _ => false

/-- Calls past `nextId` have not started. -/
def Unborn (q : Queue α) : Prop := ∀ i, q.nextId ≤ i → q.calls i = .unborn

/-- The semaphore's tokens and `closeMu` each count their holders. -/
structure Exclusion (q : Queue α) : Prop where
  permit : Counted (fun i => (q.calls i).holdsPermit) q.tokens
  mutex : Counted (fun i => (q.calls i).holdsCloseMu) q.closeMuLocked.toNat

theorem exclusion_newInMemoryQueue (size : Nat) : Exclusion (newInMemoryQueue (α := α) size) :=
  ⟨.inl ⟨rfl, fun _ => rfl⟩, .inl ⟨rfl, fun _ => rfl⟩⟩

theorem unborn_newInMemoryQueue (size : Nat) : Unborn (newInMemoryQueue (α := α) size) :=
  fun _ _ => rfl

/-- A call that has started is below `nextId`. -/
theorem Unborn.lt {q : Queue α} (unborn : Unborn q) {i : Nat} (started : q.calls i ≠ .unborn) :
    i < q.nextId := by
  by_contra past
  exact started (unborn i (by omega))

/-- **Every step keeps the permit and the mutex counted.** -/
theorem exclusion_move {v : CloseVersion} {q q' : Queue α} (unborn : Unborn q)
    (inv : Exclusion q) (move : Move v q q') : Exclusion q' := by
  have fresh := unborn q.nextId (Nat.le_refl _)
  cases move with
  | invokeWrite | invokeRead | invokeClose =>
    exact ⟨inv.permit.update_same (by simp [fresh, Call.holdsPermit]),
      inv.mutex.update_same (by simp [fresh, Call.holdsCloseMu])⟩
  | cancelWrite id event ctxDone pc current =>
    exact ⟨inv.permit.update_same (by cases pc <;> simp [current, Call.holdsPermit]),
      inv.mutex.update_same (by simp [current, Call.holdsCloseMu])⟩
  | cancelRead id ctxDone current | readReceive id ctxDone entry rest current
  | readClosed id ctxDone current | readCancelled id current =>
    exact ⟨inv.permit.update_same (by simp [current, Call.holdsPermit]),
      inv.mutex.update_same (by simp [current, Call.holdsCloseMu])⟩
  | panic => exact ⟨inv.permit, inv.mutex⟩
  | writeAcquire id event ctxDone current free =>
    exact ⟨inv.permit.update_enter rfl free,
      inv.mutex.update_same (by simp [current, Call.holdsCloseMu])⟩
  | writeAcquireCancelled id event current =>
    exact ⟨inv.permit.update_same (by simp [current, Call.holdsPermit]),
      inv.mutex.update_same (by simp [current, Call.holdsCloseMu])⟩
  | writeCheck id event ctxDone current =>
    exact ⟨inv.permit.update_same (by split <;> simp [current, Call.holdsPermit]),
      inv.mutex.update_same (by split <;> simp [current, Call.holdsCloseMu])⟩
  | writeSend id event ctxDone current | writeSignalled id event ctxDone current
  | writeCancelled id event current =>
    exact ⟨inv.permit.update_same (by simp [current, Call.holdsPermit]),
      inv.mutex.update_same (by simp [current, Call.holdsCloseMu])⟩
  | writeRelease id event ctxDone err current held =>
    exact ⟨inv.permit.update_leave rfl (by simp [current, Call.holdsPermit]),
      inv.mutex.update_same (by simp [current, Call.holdsCloseMu])⟩
  | handoff writer reader event ctxDone readerDone currentWriter currentReader =>
    have other : reader ≠ writer := fun same => by simp [same, currentWriter] at currentReader
    exact ⟨(inv.permit.update_same (by simp [currentWriter, Call.holdsPermit])).update_same
        (by simp [other, currentReader, Call.holdsPermit]),
      (inv.mutex.update_same (by simp [currentWriter, Call.holdsCloseMu])).update_same
        (by simp [other, currentReader, Call.holdsCloseMu])⟩
  | closeLock id current unlocked =>
    refine ⟨inv.permit.update_same (by simp [current, Call.holdsPermit]), ?_⟩
    have entered : Counted (fun i => (Function.update q.calls id (.close .checking) i).holdsCloseMu)
        (q.closeMuLocked.toNat + 1) := inv.mutex.update_enter rfl (by simp [unlocked])
    simpa [unlocked] using entered
  | closeCheck id current =>
    exact ⟨inv.permit.update_same (by
        split <;> cases v <;> simp [current, Call.holdsPermit, CloseVersion.shutdownStart]),
      inv.mutex.update_same (by
        split <;> cases v <;> simp [current, Call.holdsCloseMu, CloseVersion.shutdownStart])⟩
  | closeSetClosed id current | closeSignal id current | closeMarkClosed id current =>
    exact ⟨inv.permit.update_same (by simp [current, Call.holdsPermit]),
      inv.mutex.update_same (by simp [current, Call.holdsCloseMu])⟩
  | closeAcquire id current free =>
    exact ⟨inv.permit.update_enter rfl free,
      inv.mutex.update_same (by simp [current, Call.holdsCloseMu])⟩
  | closeEvents id current =>
    exact ⟨inv.permit.update_same (by
        cases v <;> simp [current, Call.holdsPermit, CloseVersion.afterEventsClosed]),
      inv.mutex.update_same (by
        cases v <;> simp [current, Call.holdsCloseMu, CloseVersion.afterEventsClosed])⟩
  | closeRelease id current held =>
    exact ⟨inv.permit.update_leave rfl (by simp [current, Call.holdsPermit]),
      inv.mutex.update_same (by simp [current, Call.holdsCloseMu])⟩
  | closeUnlock id shutdown current locked =>
    refine ⟨inv.permit.update_same (by simp [current, Call.holdsPermit]), ?_⟩
    have left : Counted (fun i => (Function.update q.calls id .returned i).holdsCloseMu)
        (q.closeMuLocked.toNat - 1) :=
      inv.mutex.update_leave rfl (by simp [current, Call.holdsCloseMu])
    simpa [locked] using left

/-- **Every step keeps the calls past `nextId` unborn.** -/
theorem unborn_move {v : CloseVersion} {q q' : Queue α} (unborn : Unborn q)
    (move : Move v q q') : Unborn q' := by
  have stays : ∀ {id : Nat} {call : Call α}, q.calls id ≠ .unborn →
      Unborn { q with calls := Function.update q.calls id call } := by
    intro id call started i past
    change q.nextId ≤ i at past
    have below := unborn.lt started
    simp [Function.update_apply, show i ≠ id by omega, unborn i past]
  cases move with
  | invokeWrite | invokeRead | invokeClose =>
    intro i past
    simp only [invoke_calls, invoke_nextId] at past ⊢
    simp [Function.update_apply, show i ≠ q.nextId by omega, unborn i (by omega)]
  | panic => exact unborn
  | handoff writer reader event ctxDone readerDone currentWriter currentReader =>
    intro i past
    change q.nextId ≤ i at past
    have writerBelow := unborn.lt (i := writer) (by simp [currentWriter])
    have readerBelow := unborn.lt (i := reader) (by simp [currentReader])
    simp [Queue.finish, Queue.setCall, Function.update_apply, show i ≠ writer by omega,
      show i ≠ reader by omega, unborn i past]
  | _ => exact stays (by simp [*])

end A2aGo.EventQueue
