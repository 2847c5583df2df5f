import A2aGo.EventQueue.Machine

/-!
**Every step of the queue machine, named.**

`step` is written statement by statement as the Go code is; `Move` lists what one step can do,
each case with its guard and its effect, and `step_move` shows that `step` does nothing else.
Every invariant of the machine is proved by one case analysis over `Move`, never by unfolding
`step` again.
-/

namespace A2aGo.EventQueue

variable {α : Type}

/-- A statement that panics when it runs: a send on the closed `events`, a close of a closed
channel, an unlock of an unlocked mutex. -/
def PanicsAt (q : Queue α) : Call α → Prop
  | .write _ _ .selecting => q.eventsClosed = true
  | .close .signalling => q.closeChanClosed = true
  | .close .closingEvents => q.eventsClosed = true
  | .close (.unlocking _) => q.closeMuLocked = false
  | _ => False

/-- What one step of the machine does. -/
inductive Move (v : CloseVersion) (q : Queue α) : Queue α → Prop
  | invokeWrite (event : α) (ctxDone : Bool) :
    Move v q (q.invoke (.write event ctxDone .acquiring))
  | invokeRead (ctxDone : Bool) : Move v q (q.invoke (.read ctxDone))
  | invokeClose : Move v q (q.invoke (.close .locking))
  | cancelWrite (id : Nat) (event : α) (ctxDone : Bool) (pc : WriteAt)
      (current : q.calls id = .write event ctxDone pc) :
    Move v q (q.setCall id (.write event true pc))
  | cancelRead (id : Nat) (ctxDone : Bool) (current : q.calls id = .read ctxDone) :
    Move v q (q.setCall id (.read true))
  | panic (id : Nat) (panics : PanicsAt q (q.calls id)) : Move v q q.panic
  | writeAcquire (id : Nat) (event : α) (ctxDone : Bool)
      (current : q.calls id = .write event ctxDone .acquiring) (free : q.tokens < 1) :
    Move v q { q.setCall id (.write event ctxDone .checking) with tokens := q.tokens + 1 }
  | writeAcquireCancelled (id : Nat) (event : α)
      (current : q.calls id = .write event true .acquiring) :
    Move v q (q.finish id (.write (some .ctxErr)))
  | writeCheck (id : Nat) (event : α) (ctxDone : Bool)
      (current : q.calls id = .write event ctxDone .checking) :
    Move v q (q.setCall id (.write event ctxDone
      (if q.closed then .releasing (some .queueClosed) else .selecting)))
  | writeSend (id : Nat) (event : α) (ctxDone : Bool)
      (current : q.calls id = .write event ctxDone .selecting) (opened : q.eventsClosed = false)
      (room : q.events.length < q.size) :
    Move v q { q.setCall id (.write event ctxDone (.releasing none)) with
      events := q.events ++ [(id, event)], sent := q.sent ++ [(id, event)] }
  | writeSignalled (id : Nat) (event : α) (ctxDone : Bool)
      (current : q.calls id = .write event ctxDone .selecting)
      (signalled : q.closeChanClosed = true) :
    Move v q (q.setCall id (.write event ctxDone (.releasing (some .queueClosed))))
  | writeCancelled (id : Nat) (event : α) (current : q.calls id = .write event true .selecting) :
    Move v q (q.setCall id (.write event true (.releasing (some .ctxErr))))
  | writeRelease (id : Nat) (event : α) (ctxDone : Bool) (err : Option QueueError)
      (current : q.calls id = .write event ctxDone (.releasing err)) (held : 0 < q.tokens) :
    Move v q { q.finish id (.write err) with tokens := q.tokens - 1 }
  | readReceive (id : Nat) (ctxDone : Bool) (entry : Nat × α) (rest : List (Nat × α))
      (current : q.calls id = .read ctxDone) (buffered : q.events = entry :: rest) :
    Move v q { q.finish id (.read (.ok entry)) with events := rest }
  | readClosed (id : Nat) (ctxDone : Bool) (current : q.calls id = .read ctxDone)
      (empty : q.events = []) (closed : q.eventsClosed = true) :
    Move v q (q.finish id (.read (.error .queueClosed)))
  | readCancelled (id : Nat) (current : q.calls id = .read true) :
    Move v q (q.finish id (.read (.error .ctxErr)))
  | handoff (writer reader : Nat) (event : α) (ctxDone readerDone : Bool)
      (currentWriter : q.calls writer = .write event ctxDone .selecting)
      (currentReader : q.calls reader = .read readerDone) (empty : q.events = [])
      (opened : q.eventsClosed = false) :
    Move v q { (q.setCall writer (.write event ctxDone (.releasing none))).finish reader
      (.read (.ok (writer, event))) with sent := q.sent ++ [(writer, event)] }
  | closeLock (id : Nat) (current : q.calls id = .close .locking)
      (unlocked : q.closeMuLocked = false) :
    Move v q { q.setCall id (.close .checking) with
      closeMuLocked := true, lockOrder := q.lockOrder ++ [id] }
  | closeCheck (id : Nat) (current : q.calls id = .close .checking) :
    Move v q (q.setCall id (.close (if q.closed then .unlocking false else v.shutdownStart)))
  | closeSetClosed (id : Nat) (current : q.calls id = .close .settingClosed) :
    Move v q { q.setCall id (.close .signalling) with closed := true }
  | closeSignal (id : Nat) (current : q.calls id = .close .signalling)
      (unsignalled : q.closeChanClosed = false) :
    Move v q { q.setCall id (.close .acquiring) with closeChanClosed := true }
  | closeAcquire (id : Nat) (current : q.calls id = .close .acquiring) (free : q.tokens < 1) :
    Move v q { q.setCall id (.close .closingEvents) with tokens := q.tokens + 1 }
  | closeEvents (id : Nat) (current : q.calls id = .close .closingEvents)
      (opened : q.eventsClosed = false) :
    Move v q { q.setCall id (.close v.afterEventsClosed) with eventsClosed := true }
  | closeMarkClosed (id : Nat) (current : q.calls id = .close .markingClosed) :
    Move v q { q.setCall id (.close .releasing) with closed := true }
  | closeRelease (id : Nat) (current : q.calls id = .close .releasing) (held : 0 < q.tokens) :
    Move v q { q.setCall id (.close (.unlocking true)) with tokens := q.tokens - 1 }
  | closeUnlock (id : Nat) (shutdown : Bool) (current : q.calls id = .close (.unlocking shutdown))
      (locked : q.closeMuLocked = true) :
    Move v q { q.finish id (.close none shutdown) with closeMuLocked := false }

theorem writeStep_move {v : CloseVersion} {q q' : Queue α} {id : Nat} {event : α}
    {ctxDone : Bool} {pc : WriteAt} {branch : Nat}
    (current : q.calls id = .write event ctxDone pc)
    (stepped : writeStep q id event ctxDone pc branch = some q') : Move v q q' := by
  unfold writeStep at stepped
  split at stepped
  · split_ifs at stepped with free
    cases stepped; exact .writeAcquire _ _ _ current free
  · split_ifs at stepped with cancelled
    cases stepped; subst cancelled; exact .writeAcquireCancelled _ _ current
  · cases stepped; exact .writeCheck _ _ _ current
  · split_ifs at stepped with closed room <;> cases stepped
    · exact .panic id (by simp [PanicsAt, current, closed])
    · exact .writeSend _ _ _ current (by simpa using closed) room
  · split_ifs at stepped with signalled
    cases stepped; exact .writeSignalled _ _ _ current signalled
  · split_ifs at stepped with cancelled
    cases stepped; subst cancelled; exact .writeCancelled _ _ current
  · split_ifs at stepped with held
    cases stepped; exact .writeRelease _ _ _ _ current held
  · cases stepped

theorem readStep_move {v : CloseVersion} {q q' : Queue α} {id : Nat} {ctxDone : Bool}
    {branch : Nat} (current : q.calls id = .read ctxDone)
    (stepped : readStep q id ctxDone branch = some q') : Move v q q' := by
  unfold readStep at stepped
  split at stepped
  · split at stepped
    · cases stepped; exact .readReceive _ _ _ _ current ‹_›
    · split_ifs at stepped with closed
      cases stepped; exact .readClosed _ _ current ‹_› closed
  · split_ifs at stepped with cancelled
    cases stepped; exact .readCancelled _ (by simpa [cancelled] using current)
  · cases stepped

theorem closeStep_move {v : CloseVersion} {q q' : Queue α} {id : Nat} {pc : CloseAt}
    (current : q.calls id = .close pc) (stepped : closeStep v q id pc = some q') :
    Move v q q' := by
  cases pc with
  | locking =>
    simp only [closeStep] at stepped
    split_ifs at stepped with locked
    cases stepped; exact .closeLock _ current (by simpa using locked)
  | checking => cases stepped; exact .closeCheck _ current
  | settingClosed => cases stepped; exact .closeSetClosed _ current
  | signalling =>
    simp only [closeStep] at stepped
    split_ifs at stepped with signalled <;> cases stepped
    · exact .panic id (by simp [PanicsAt, current, signalled])
    · exact .closeSignal _ current (by simpa using signalled)
  | acquiring =>
    simp only [closeStep] at stepped
    split_ifs at stepped with free
    cases stepped; exact .closeAcquire _ current free
  | closingEvents =>
    simp only [closeStep] at stepped
    split_ifs at stepped with closed <;> cases stepped
    · exact .panic id (by simp [PanicsAt, current, closed])
    · exact .closeEvents _ current (by simpa using closed)
  | markingClosed => cases stepped; exact .closeMarkClosed _ current
  | releasing =>
    simp only [closeStep] at stepped
    split_ifs at stepped with held
    cases stepped; exact .closeRelease _ current held
  | unlocking shutdown =>
    simp only [closeStep] at stepped
    split_ifs at stepped with locked <;> cases stepped
    · exact .closeUnlock _ _ current locked
    · exact .panic id (by simp [PanicsAt, current, locked])

/-- **`step` does only what `Move` lists.** -/
theorem step_move {v : CloseVersion} {q q' : Queue α} {action : Action α}
    (stepped : step v q action = some q') : Move v q q' := by
  cases action with
  | write event ctxDone => cases stepped; exact .invokeWrite _ _
  | read ctxDone => cases stepped; exact .invokeRead _
  | close => cases stepped; exact .invokeClose
  | cancel id =>
    simp only [step] at stepped
    split at stepped <;> cases stepped
    · exact .cancelWrite _ _ _ _ ‹_›
    · exact .cancelRead _ _ ‹_›
  | run id branch =>
    simp only [step] at stepped
    split at stepped
    · exact writeStep_move ‹_› stepped
    · exact readStep_move ‹_› stepped
    · exact closeStep_move ‹_› stepped
    · cases stepped
  | handoff writer reader =>
    simp only [step, handoff] at stepped
    split at stepped
    · split_ifs at stepped with closed
      cases stepped
      exact .handoff _ _ _ _ _ ‹_› ‹_› ‹_› (by simpa using closed)
    · cases stepped

/-! ### What a step leaves to the caller -/

/-- An action on calls already made: a statement, a cancellation, a handoff. -/
def Action.internal : Action α → Bool
  | .run _ _ | .cancel _ | .handoff _ _ => true
  | _ => false

/-- A step on calls already made starts no call. -/
theorem step_internal_nextId {v : CloseVersion} {q q' : Queue α} {action : Action α}
    (internal : action.internal = true) (stepped : step v q action = some q') :
    q'.nextId = q.nextId := by
  cases action with
  | write | read | close => cases internal
  | cancel id =>
    simp only [step] at stepped
    split at stepped <;> cases stepped <;> rfl
  | run id branch =>
    simp only [step] at stepped
    split at stepped
    · unfold writeStep at stepped
      split at stepped <;> (try split_ifs at stepped) <;> cases stepped <;> rfl
    · unfold readStep at stepped
      split at stepped <;> (try split at stepped) <;> (try split_ifs at stepped) <;>
        cases stepped <;> rfl
    · unfold closeStep at stepped
      split at stepped <;> (try split_ifs at stepped) <;> cases stepped <;> rfl
    · cases stepped
  | handoff writer reader =>
    simp only [step, handoff] at stepped
    split at stepped
    · split_ifs at stepped
      cases stepped
      rfl
    · cases stepped

/-- The returns only grow. -/
theorem Move.log_grows {v : CloseVersion} {q q' : Queue α} (move : Move v q q') :
    q.log <+: q'.log := by
  cases move <;> first | exact List.prefix_refl _ | exact List.prefix_append _ _

/-- A step sends at most one event, the one of a `Write` in its `select`. -/
theorem Move.sent_write {v : CloseVersion} {q q' : Queue α} (move : Move v q q') :
    q'.sent = q.sent ∨ ∃ w event ctxDone, q.calls w = .write event ctxDone .selecting ∧
      q'.sent = q.sent ++ [(w, event)] := by
  cases move with
  | writeSend id event ctxDone current => exact .inr ⟨id, event, ctxDone, current, rfl⟩
  | handoff writer reader event ctxDone _ currentWriter =>
    exact .inr ⟨writer, event, ctxDone, currentWriter, rfl⟩
  | _ => exact .inl rfl

/-- A `Write` keeps its event until it returns; a new one is the call just invoked. -/
theorem Move.write_event {v : CloseVersion} {q q' : Queue α} (move : Move v q q') {w : Nat}
    {event : α} {ctxDone : Bool} {pc : WriteAt} (called : q'.calls w = .write event ctxDone pc) :
    (∃ ctxDone' pc', q.calls w = .write event ctxDone' pc') ∨
      (w = q.nextId ∧ q'.nextId = q.nextId + 1) := by
  cases move <;>
    simp only [Queue.setCall, Queue.finish, Queue.invoke, Queue.panic, Function.update_apply]
      at called
  all_goals try split_ifs at called
  all_goals first
    | exact .inl ⟨_, _, called⟩
    | exact .inr ⟨‹_›, rfl⟩
    | (cases called; done)
    | (subst_vars; cases called; exact .inl ⟨_, _, ‹_›⟩)

end A2aGo.EventQueue
