import A2aGo.EventQueue.Delivery

/-!
**Only the first `Close` to lock `closeMu` shuts the queue down, and nothing panics.**

The first `Close` to take `closeMu` finds `q.closed` false and runs the shutdown; every later one
finds it true and returns. While the first is on its way, `closed`, `closeChan` and `events` are
closed exactly as far as it has got, in its version's order (`expectedFlags`). A `Write` can only
be in its `select` while it holds the permit, and `Close` closes `events` only while it holds the
permit, so no `Write` ever meets a closed `events`.

* `CallFacts`: what each call knows of the shutdown;
* `Shutdown`: those facts for every call, the flags as far as the first `Close` has got, and no
  panic;
* `Shutdown.not_panicsAt`: no call is ever at a statement that would panic;
* `shutdown_move`: every step keeps `Shutdown`;
* `closeReturns_move`: every `Close` returns nil, and says it shut the queue down exactly when it
  was the first to lock (`CloseReturns`).
-/

namespace A2aGo.EventQueue

variable {α : Type}

/-- Past `q.closeMu.Lock()`: a `Close` that has locked, or a call that has returned. -/
def Call.pastLock : Call α → Bool
  | .close .locking => false
  | .close _ | .returned => true
  | _ => false

/-- A call past `closeMu.Lock()` that does not hold `closeMu` has returned. -/
theorem Call.eq_returned_of_pastLock {call : Call α} (locked : call.pastLock = true)
    (free : call.holdsCloseMu = false) : call = .returned := by
  cases call with
  | close pc => cases pc <;> simp [Call.pastLock, Call.holdsCloseMu] at locked free
  | returned => rfl
  | _ => simp [Call.pastLock] at locked

/-- The statements of `Close` that a version has. -/
def CloseVersion.allows : CloseVersion → CloseAt → Bool
  | .setsClosedFirst, .markingClosed => false
  | .setsClosedLast, .settingClosed => false
  | _, _ => true

/-- `(closed, closeChan closed, events closed)` while the shutting-down `Close` is at `pc`. -/
def CloseVersion.flagsAt : CloseVersion → CloseAt → Bool × Bool × Bool
  | _, .locking | _, .checking => (false, false, false)
  | .setsClosedFirst, .settingClosed => (false, false, false)
  | .setsClosedFirst, .signalling => (true, false, false)
  | .setsClosedFirst, .acquiring | .setsClosedFirst, .closingEvents => (true, true, false)
  | .setsClosedLast, .signalling => (false, false, false)
  | .setsClosedLast, .acquiring | .setsClosedLast, .closingEvents => (false, true, false)
  | .setsClosedLast, .markingClosed => (false, true, true)
  | _, _ => (true, true, true)

/-- The flags while the shutting-down call is at `call`: all set once it has returned. -/
def CloseVersion.flagsOf (v : CloseVersion) : Call α → Bool × Bool × Bool
  | .close pc => v.flagsAt pc
  | _ => (true, true, true)

/-- The flags as the first `Close` to lock `closeMu` has set them. -/
def expectedFlags (v : CloseVersion) (lockOrder : List Nat) (calls : Nat → Call α) :
    Bool × Bool × Bool :=
  match lockOrder.head? with
  | none => (false, false, false)
  | some first => v.flagsOf (calls first)

/-- What call `i` knows of the shutdown: a `Write` in its `select` finds `events` open; a `Close`
on the shutdown path is the first to have locked, and one that returns early found `closed`. -/
def CallFacts (v : CloseVersion) (q : Queue α) (i : Nat) : Call α → Prop
  | .write _ _ .selecting => q.eventsClosed = false
  | .close .locking => True
  | .close .checking => i ∈ q.lockOrder ∧ (q.lockOrder.head? = some i ∨ q.closed = true)
  | .close (.unlocking false) =>
    i ∈ q.lockOrder ∧ q.lockOrder.head? ≠ some i ∧ q.closed = true
  | .close pc => q.lockOrder.head? = some i ∧ v.allows pc = true
  | _ => True

/-- The invariant of the shutdown. -/
structure Shutdown (v : CloseVersion) (q : Queue α) : Prop where
  locked : ∀ i ∈ q.lockOrder, (q.calls i).pastLock = true
  calls : ∀ i, CallFacts v q i (q.calls i)
  flags : (q.closed, q.closeChanClosed, q.eventsClosed) = expectedFlags v q.lockOrder q.calls
  noPanic : q.panicked = false
  /-- A second `Close` locks only after the first has returned. -/
  firstReturned : ∀ first i, q.lockOrder.head? = some first → i ∈ q.lockOrder →
    i ≠ first → q.calls first = .returned

/-- A return of `Close`. -/
def Returned.isClose : Returned α → Bool
  | .close _ _ => true
  | _ => false

/-- Every `Close` that returned returned nil, and shut the queue down exactly when it was the
first to lock `closeMu`; `closed` is set by then. The calls that locked are those that return as
`Close`. -/
structure CloseReturns (q : Queue α) : Prop where
  results : ∀ i err shutdown, (i, Returned.close err shutdown) ∈ q.log →
    err = none ∧ (shutdown = true ↔ q.lockOrder.head? = some i) ∧ q.closed = true
  locked : ∀ i result, (i, result) ∈ q.log → (i ∈ q.lockOrder ↔ result.isClose = true)

/-- What the shutdown reads of the queue besides the calls. -/
def Queue.shutdownState (q : Queue α) : List Nat × Bool × Bool × Bool × Bool :=
  (q.lockOrder, q.closed, q.closeChanClosed, q.eventsClosed, q.panicked)

variable {v : CloseVersion}

/-! ### The flags -/

theorem expectedFlags_of_head {lockOrder : List Nat} {calls : Nat → Call α} {first : Nat}
    (head : lockOrder.head? = some first) :
    expectedFlags v lockOrder calls = v.flagsOf (calls first) := by
  simp [expectedFlags, head]

theorem expectedFlags_congr {lockOrder : List Nat} {calls calls' : Nat → Call α}
    (same : ∀ first, lockOrder.head? = some first → calls' first = calls first) :
    expectedFlags v lockOrder calls' = expectedFlags v lockOrder calls := by
  cases head : lockOrder.head? with
  | none => simp [expectedFlags, head]
  | some first => simp [expectedFlags_of_head head, same first head]

@[simp] theorem CloseVersion.flagsAt_checking : v.flagsAt .checking = (false, false, false) := by
  cases v <;> rfl

@[simp] theorem CloseVersion.flagsAt_unlocking (shutdown : Bool) :
    v.flagsAt (.unlocking shutdown) = (true, true, true) := by
  cases v <;> rfl

@[simp] theorem CloseVersion.flagsAt_shutdownStart :
    v.flagsAt v.shutdownStart = (false, false, false) := by
  cases v <;> rfl

/-- `events` is closed before `closed` is set only at the later version's `q.closed = true`,
which the shutting-down `Close` reaches holding the permit. -/
theorem CloseVersion.holdsPermit_of_eventsClosed {pc : CloseAt} (opened : (v.flagsAt pc).1 = false)
    (eventsClosed : (v.flagsAt pc).2.2 = true) : (Call.close pc : Call α).holdsPermit = true := by
  cases v <;> cases pc <;> simp_all [CloseVersion.flagsAt, Call.holdsPermit]

/-! ### What a call knows -/

theorem CallFacts.frame {q q' : Queue α} {i : Nat} {call : Call α} (facts : CallFacts v q i call)
    (head : q'.lockOrder.head? = q.lockOrder.head?)
    (grows : ∀ j ∈ q.lockOrder, j ∈ q'.lockOrder)
    (closed : q.closed = true → q'.closed = true)
    (events : ∀ event ctxDone, call = .write event ctxDone .selecting →
      q'.eventsClosed = q.eventsClosed) : CallFacts v q' i call := by
  cases call with
  | write event ctxDone pc =>
    cases pc
    case selecting => exact (events event ctxDone rfl).trans facts
    all_goals trivial
  | close pc =>
    cases pc with
    | locking => trivial
    | checking =>
      simp only [CallFacts, head] at facts ⊢
      exact ⟨grows i facts.1, facts.2.imp_right closed⟩
    | unlocking shutdown =>
      cases shutdown <;> simp only [CallFacts, head] at facts ⊢
      · exact ⟨grows i facts.1, facts.2.1, closed facts.2.2⟩
      · exact facts
    | _ => simpa only [CallFacts, head] using facts
  | _ => trivial

/-- A call that does not hold `closeMu` knows nothing of the lock order or of `closed`. -/
theorem CallFacts.of_not_holdsCloseMu {q q' : Queue α} {i : Nat} {call : Call α}
    (facts : CallFacts v q i call) (free : call.holdsCloseMu = false)
    (events : q'.eventsClosed = q.eventsClosed) : CallFacts v q' i call := by
  rcases call with
    _ | ⟨_, _, _ | _ | _ | _⟩ | _ | ⟨_ | _ | _ | _ | _ | _ | _ | _ | ⟨_ | _⟩⟩ | _
  all_goals simp_all [CallFacts, Call.holdsCloseMu]

theorem Shutdown.not_mem_lockOrder {q : Queue α} (inv : Shutdown v q) {id : Nat}
    (notLocked : (q.calls id).pastLock = false) : id ∉ q.lockOrder := fun mem => by
  simp [inv.locked id mem] at notLocked

theorem Shutdown.notFirst {q : Queue α} (inv : Shutdown v q) {id : Nat}
    (notLocked : (q.calls id).pastLock = false) : q.lockOrder.head? ≠ some id := fun head =>
  inv.not_mem_lockOrder notLocked (List.mem_of_mem_head? head)

/-- A `Write` that holds the permit and finds `closed` false finds `events` open: the one
`Close` that closes `events` before setting `closed` holds the permit from before to after. -/
theorem Shutdown.eventsOpen {q : Queue α} (inv : Shutdown v q) (excl : Exclusion q) {id : Nat}
    {event : α} {ctxDone : Bool} {pc : WriteAt} (current : q.calls id = .write event ctxDone pc)
    (holds : (q.calls id).holdsPermit = true) (opened : q.closed = false) :
    q.eventsClosed = false := by
  have flags := inv.flags
  cases head : q.lockOrder.head? with
  | none => simp_all [expectedFlags]
  | some first =>
    rw [expectedFlags_of_head head] at flags
    cases firstCall : q.calls first with
    | close firstPc =>
      rw [firstCall, CloseVersion.flagsOf] at flags
      cases events : q.eventsClosed
      · rfl
      · have holding : (Call.close firstPc : Call α).holdsPermit = true :=
          CloseVersion.holdsPermit_of_eventsClosed ((congrArg (·.1) flags).symm.trans opened)
            ((congrArg (·.2.2) flags).symm.trans events)
        have same := excl.permit.unique (by rwa [firstCall]) holds
        simp [same, current] at firstCall
    | _ => simp_all [CloseVersion.flagsOf]

/-- **No call is at a statement that would panic.** -/
theorem Shutdown.not_panicsAt {q : Queue α} (inv : Shutdown v q) (excl : Exclusion q) (id : Nat) :
    ¬ PanicsAt q (q.calls id) := by
  have facts := inv.calls id
  have flags := inv.flags
  intro panics
  cases current : q.calls id with
  | write event ctxDone pc =>
    cases pc <;> simp_all [PanicsAt, CallFacts]
  | close pc =>
    rw [current] at facts panics
    cases pc with
    | signalling | closingEvents =>
      rw [expectedFlags_of_head facts.1, current] at flags
      cases v <;> simp_all [PanicsAt, CloseVersion.flagsOf, CloseVersion.flagsAt]
    | unlocking shutdown =>
      have one := excl.mutex.eq_one (i := id) (by simp [current, Call.holdsCloseMu])
      simp_all [PanicsAt]
    | _ => exact panics
  | _ => simp_all [PanicsAt]

/-! ### Steps that keep the shutdown state -/

/-- **A step that leaves the first `Close` and the flags alone keeps `Shutdown`**: a step of a
`Write` or a `Read`, or of a `Close` that found the queue closed. -/
theorem Shutdown.frame {q q' : Queue α} {id : Nat} {call : Call α} (inv : Shutdown v q)
    (notFirst : q.lockOrder.head? ≠ some id) (moved : q'.calls id = call)
    (keepsLock : (q.calls id).pastLock = true → call.pastLock = true)
    (others : ∀ i, i ≠ id → q'.calls i = q.calls i) (facts : CallFacts v q id call)
    (same : q'.shutdownState = q.shutdownState) : Shutdown v q' := by
  simp only [Queue.shutdownState, Prod.mk.injEq] at same
  obtain ⟨lockOrder, closed, chan, events, panicked⟩ := same
  have notFirst' : ∀ first, q.lockOrder.head? = some first → first ≠ id :=
    fun first head same => notFirst (same ▸ head)
  refine ⟨fun i mem => ?_, fun i => ?_, ?_, panicked.trans inv.noPanic,
    fun first i head mem other => ?_⟩
  · rw [lockOrder] at mem
    by_cases here : i = id
    · subst here
      rw [moved]
      exact keepsLock (inv.locked i mem)
    · rw [others i here]
      exact inv.locked i mem
  · by_cases here : i = id
    · subst here
      rw [moved]
      exact facts.frame (by rw [lockOrder]) (fun j mem => lockOrder ▸ mem) (by simp [closed])
        fun _ _ _ => events
    · rw [others i here]
      exact (inv.calls i).frame (by rw [lockOrder]) (fun j mem => lockOrder ▸ mem)
        (by simp [closed]) fun _ _ _ => events
  · rw [closed, chan, events, lockOrder,
      expectedFlags_congr fun first head => others first (notFirst' first head)]
    exact inv.flags
  · rw [lockOrder] at head mem
    rw [others first (notFirst' first head)]
    exact inv.firstReturned first i head mem other

/-- A step of a call that has not locked `closeMu`, which moves it to `call` and keeps the
shutdown state. -/
theorem Shutdown.frame_unlocked {q q' : Queue α} {id : Nat} {call : Call α} (inv : Shutdown v q)
    (unlocked : (q.calls id).pastLock = false) (calls : q'.calls = Function.update q.calls id call)
    (facts : CallFacts v q id call) (same : q'.shutdownState = q.shutdownState) : Shutdown v q' :=
  inv.frame (inv.notFirst unlocked) (by rw [calls, Function.update_same])
    (fun locked => absurd (unlocked.symm.trans locked) Bool.false_ne_true)
    (fun i other => by rw [calls, Function.update_noteq other]) facts same

/-- **A step of the shutting-down `Close` keeps `Shutdown`** when it sets the flags its next
statement expects; it may close `events` only while no `Write` is in its `select`. -/
theorem Shutdown.advance {q q' : Queue α} {id : Nat} {call : Call α} (inv : Shutdown v q)
    (first : q.lockOrder.head? = some id) (running : q.calls id ≠ .returned)
    (moved : q'.calls id = call)
    (others : ∀ i, i ≠ id → q'.calls i = q.calls i) (facts : CallFacts v q' id call)
    (locks : call.pastLock = true) (lockOrder : q'.lockOrder = q.lockOrder)
    (flags : (q'.closed, q'.closeChanClosed, q'.eventsClosed) = v.flagsOf call)
    (closed : q.closed = true → q'.closed = true)
    (events : ∀ i event ctxDone, q.calls i = .write event ctxDone .selecting →
      q'.eventsClosed = q.eventsClosed)
    (panicked : q'.panicked = q.panicked) : Shutdown v q' := by
  refine ⟨fun i mem => ?_, fun i => ?_, ?_, panicked.trans inv.noPanic,
    fun first' i head mem other => ?_⟩
  · by_cases here : i = id
    · subst here
      rwa [moved]
    · rw [others i here]
      exact inv.locked i (lockOrder ▸ mem)
  · by_cases here : i = id
    · subst here
      rwa [moved]
    · rw [others i here]
      exact (inv.calls i).frame (by rw [lockOrder]) (fun j mem => lockOrder ▸ mem) closed
        (events i)
  · rw [flags, lockOrder, expectedFlags_of_head first, moved]
  · rw [lockOrder, first, Option.some_inj] at head
    subst head
    exact absurd (inv.firstReturned id i first (lockOrder ▸ mem) other) running

/-- A step of the shutting-down `Close` to a statement `pc` of its path, with the flags `pc`
expects. -/
theorem Shutdown.advance_onPath {q q' : Queue α} {id : Nat} {pc₀ pc : CloseAt}
    (inv : Shutdown v q) (first : q.lockOrder.head? = some id) (current : q.calls id = .close pc₀)
    (calls : q'.calls = Function.update q.calls id (.close pc))
    (facts : CallFacts v q' id (.close pc)) (locks : (Call.close pc : Call α).pastLock = true)
    (lockOrder : q'.lockOrder = q.lockOrder)
    (flags : (q'.closed, q'.closeChanClosed, q'.eventsClosed) = v.flagsAt pc)
    (closed : q.closed = true → q'.closed = true)
    (events : ∀ i event ctxDone, q.calls i = .write event ctxDone .selecting →
      q'.eventsClosed = q.eventsClosed)
    (panicked : q'.panicked = q.panicked) : Shutdown v q' :=
  inv.advance first (by simp [current]) (by rw [calls, Function.update_same])
    (fun i other => by rw [calls, Function.update_noteq other]) facts locks lockOrder flags
    closed events panicked

/-- **Taking `closeMu` keeps `Shutdown`**: the first `Close` to take it heads the lock order;
any later one takes it after the first has returned, so it finds `closed` set. -/
theorem Shutdown.lock {q : Queue α} (inv : Shutdown v q) (excl : Exclusion q) {id : Nat}
    (current : q.calls id = .close .locking) (unlocked : q.closeMuLocked = false) :
    Shutdown v { q.setCall id (.close .checking) with
      closeMuLocked := true, lockOrder := q.lockOrder ++ [id] } := by
  have free : ∀ i, (q.calls i).holdsCloseMu = false := by
    have mutex := excl.mutex
    rw [unlocked] at mutex
    exact mutex.eq_false_of_zero
  have notIn : id ∉ q.lockOrder := inv.not_mem_lockOrder (by simp [current, Call.pastLock])
  have locked : ∀ i ∈ q.lockOrder ++ [id],
      (Function.update q.calls id (.close .checking) i).pastLock = true := by
    intro i mem
    by_cases here : i = id
    · subst here
      simp [Call.pastLock]
    · rw [Function.update_noteq here]
      exact inv.locked i (by simpa [here] using mem)
  cases head : q.lockOrder.head? with
  | none =>
    have empty : q.lockOrder = [] := List.head?_eq_none_iff.mp head
    have flags := inv.flags
    rw [empty] at flags
    refine ⟨locked, fun i => ?_, ?_, inv.noPanic, fun first i head mem other => ?_⟩
    · show CallFacts v _ i (Function.update q.calls id _ i)
      by_cases here : i = id
      · subst here
        simp [CallFacts, empty]
      · rw [Function.update_noteq here]
        exact (inv.calls i).of_not_holdsCloseMu (free i) rfl
    · show (q.closed, q.closeChanClosed, q.eventsClosed) =
        expectedFlags v (q.lockOrder ++ [id]) (Function.update q.calls id (.close .checking))
      rw [flags, expectedFlags_of_head (by simp [empty] : (q.lockOrder ++ [id]).head? = some id)]
      simp [expectedFlags, CloseVersion.flagsOf]
    · simp only [empty, List.nil_append, List.head?_cons, Option.some_inj,
        List.mem_singleton] at head mem
      exact absurd (mem.trans head) other
  | some first =>
    have firstNe : first ≠ id := fun same => notIn (same ▸ List.mem_of_mem_head? head)
    have firstReturned : q.calls first = .returned :=
      Call.eq_returned_of_pastLock (inv.locked first (List.mem_of_mem_head? head)) (free first)
    have closed : q.closed = true := by
      have flags := inv.flags
      rw [expectedFlags_of_head head, firstReturned] at flags
      simp_all [CloseVersion.flagsOf]
    have head' : (q.lockOrder ++ [id]).head? = some first := by simp [head]
    refine ⟨locked, fun i => ?_, ?_, inv.noPanic, fun first' i headAfter mem other => ?_⟩
    · show CallFacts v _ i (Function.update q.calls id _ i)
      by_cases here : i = id
      · subst here
        rw [Function.update_same]
        exact ⟨List.mem_append_right _ (List.mem_singleton_self i), Or.inr closed⟩
      · rw [Function.update_noteq here]
        exact (inv.calls i).frame (head'.trans head.symm) (fun j mem => List.mem_append_left _ mem)
          (fun _ => closed) fun _ _ _ => rfl
    · show (q.closed, q.closeChanClosed, q.eventsClosed) =
        expectedFlags v (q.lockOrder ++ [id]) (Function.update q.calls id (.close .checking))
      rw [expectedFlags_of_head head', Function.update_noteq firstNe,
        ← expectedFlags_of_head head]
      exact inv.flags
    · have same : first' = first := Option.some_inj.mp (headAfter.symm.trans head')
      subst same
      show Function.update q.calls id (.close .checking) first' = .returned
      rw [Function.update_noteq firstNe, firstReturned]

/-- **`Close`'s return keeps `Shutdown`.** -/
theorem Shutdown.unlock {q : Queue α} (inv : Shutdown v q) {id : Nat} {shutdown : Bool}
    (current : q.calls id = .close (.unlocking shutdown)) :
    Shutdown v { q.finish id (.close none shutdown) with closeMuLocked := false } := by
  have facts := inv.calls id
  rw [current] at facts
  cases shutdown
  · exact inv.frame facts.2.1 (Function.update_same _ _ _) (fun _ => rfl)
      (fun i other => by simp [other]) trivial rfl
  · have flags := inv.flags
    rw [expectedFlags_of_head facts.1, current] at flags
    exact inv.advance facts.1 (by simp [current]) (Function.update_same _ _ _)
      (fun i other => by simp [other]) trivial rfl rfl
      (flags.trans (CloseVersion.flagsAt_unlocking true)) (fun closed => closed)
      (fun _ _ _ _ => rfl) rfl

/-- The `Close` at a statement of the shutdown path is the first to have locked, its version
has the statement, and the flags are as the statement expects. -/
theorem Shutdown.onPath {q : Queue α} (inv : Shutdown v q) {id : Nat} {pc : CloseAt}
    (current : q.calls id = .close pc)
    (onPath : CallFacts v q id (.close pc) = (q.lockOrder.head? = some id ∧ v.allows pc = true)) :
    q.lockOrder.head? = some id ∧ v.allows pc = true ∧
      (q.closed, q.closeChanClosed, q.eventsClosed) = v.flagsAt pc := by
  have facts := inv.calls id
  rw [current, onPath] at facts
  have flags := inv.flags
  rw [expectedFlags_of_head facts.1, current] at flags
  exact ⟨facts.1, facts.2, flags⟩

/-- **Every step keeps `Shutdown`.** -/
theorem shutdown_move {q q' : Queue α} (unborn : Unborn q) (excl : Exclusion q)
    (inv : Shutdown v q) (move : Move v q q') : Shutdown v q' := by
  have fresh := unborn q.nextId (Nat.le_refl _)
  cases move with
  | invokeWrite | invokeRead | invokeClose =>
    exact inv.frame_unlocked (by simp [fresh, Call.pastLock]) rfl trivial rfl
  | cancelWrite id event ctxDone pc current =>
    have facts := inv.calls id
    rw [current] at facts
    exact inv.frame_unlocked (by simp [current, Call.pastLock]) rfl (by cases pc <;> exact facts)
      rfl
  | writeCheck id event ctxDone current =>
    refine inv.frame_unlocked (by simp [current, Call.pastLock]) rfl ?_ rfl
    split_ifs with closed
    · trivial
    · exact inv.eventsOpen excl current (by simp [current, Call.holdsPermit])
        (by simpa using closed)
  | cancelRead id ctxDone current | writeAcquire id event ctxDone current
  | writeAcquireCancelled id event current | writeSend id event ctxDone current
  | writeSignalled id event ctxDone current | writeCancelled id event current
  | writeRelease id event ctxDone err current | readReceive id ctxDone entry rest current
  | readClosed id ctxDone current | readCancelled id current =>
    exact inv.frame_unlocked (by simp [current, Call.pastLock]) rfl trivial rfl
  | handoff writer reader event ctxDone readerDone currentWriter currentReader =>
    have other : reader ≠ writer := fun same => by simp [same, currentWriter] at currentReader
    have sent : Shutdown v (q.setCall writer (.write event ctxDone (.releasing none))) :=
      inv.frame_unlocked (by simp [currentWriter, Call.pastLock]) rfl trivial rfl
    exact sent.frame_unlocked (by simp [other, currentReader, Call.pastLock]) rfl trivial rfl
  | panic id panics => exact absurd panics (inv.not_panicsAt excl id)
  | closeLock id current unlocked => exact inv.lock excl current unlocked
  | closeCheck id current =>
    have facts := inv.calls id
    have flags := inv.flags
    rw [current] at facts
    split_ifs with closed
    · have notFirst : q.lockOrder.head? ≠ some id := fun first => by
        rw [expectedFlags_of_head first, current] at flags
        simp_all [CloseVersion.flagsOf]
      exact inv.frame notFirst (Function.update_same _ _ _) (fun _ => rfl)
        (fun i other => by simp [other]) ⟨facts.1, notFirst, closed⟩ rfl
    · have first : q.lockOrder.head? = some id := facts.2.resolve_right closed
      rw [expectedFlags_of_head first, current] at flags
      cases v <;>
        exact inv.advance_onPath first current rfl ⟨first, rfl⟩ rfl rfl
          (by simpa [CloseVersion.flagsOf] using flags) (fun closed => closed)
          (fun _ _ _ _ => rfl) rfl
  | closeSetClosed id current =>
    obtain ⟨first, allowed, flags⟩ := inv.onPath current rfl
    cases v
    · exact inv.advance_onPath first current rfl ⟨first, rfl⟩ rfl rfl
        (by simp_all [Queue.setCall, CloseVersion.flagsAt])
        (fun _ => rfl) (fun _ _ _ _ => rfl) rfl
    · simp [CloseVersion.allows] at allowed
  | closeSignal id current unsignalled =>
    obtain ⟨first, -, flags⟩ := inv.onPath current rfl
    cases v <;>
      exact inv.advance_onPath first current rfl ⟨first, rfl⟩ rfl rfl
        (by simp_all [Queue.setCall, CloseVersion.flagsAt])
        (fun closed => closed) (fun _ _ _ _ => rfl) rfl
  | closeAcquire id current free =>
    obtain ⟨first, -, flags⟩ := inv.onPath current rfl
    cases v <;>
      exact inv.advance_onPath first current rfl ⟨first, rfl⟩ rfl rfl
        (by simp_all [Queue.setCall, CloseVersion.flagsAt])
        (fun closed => closed) (fun _ _ _ _ => rfl) rfl
  | closeEvents id current opened =>
    obtain ⟨first, -, flags⟩ := inv.onPath current rfl
    have noSelect : ∀ i event ctxDone, q.calls i = .write event ctxDone .selecting →
        true = q.eventsClosed := fun i event ctxDone selecting => by
      have same := excl.permit.unique (i := i) (j := id) (by simp [selecting, Call.holdsPermit])
        (by simp [current, Call.holdsPermit])
      simp [same, current] at selecting
    cases v <;>
      exact inv.advance_onPath first current rfl ⟨first, rfl⟩ rfl rfl
        (by simp_all [Queue.setCall, CloseVersion.flagsAt,
          CloseVersion.afterEventsClosed])
        (fun closed => closed) noSelect rfl
  | closeMarkClosed id current =>
    obtain ⟨first, allowed, flags⟩ := inv.onPath current rfl
    cases v
    · simp [CloseVersion.allows] at allowed
    · exact inv.advance_onPath first current rfl ⟨first, rfl⟩ rfl rfl
        (by simp_all [Queue.setCall, CloseVersion.flagsAt])
        (fun _ => rfl) (fun _ _ _ _ => rfl) rfl
  | closeRelease id current held =>
    obtain ⟨first, -, flags⟩ := inv.onPath current rfl
    cases v <;>
      exact inv.advance_onPath first current rfl ⟨first, rfl⟩ rfl rfl
        (by simp_all [Queue.setCall, CloseVersion.flagsAt])
        (fun closed => closed) (fun _ _ _ _ => rfl) rfl
  | closeUnlock id shutdown current locked => exact inv.unlock current

/-! ### What `Close` returns -/

theorem CloseReturns.frame {q q' : Queue α} (ret : CloseReturns q)
    (lockOrder : q'.lockOrder = q.lockOrder) (closed : q.closed = true → q'.closed = true)
    (log : ∀ i result, (i, result) ∈ q'.log →
      (i, result) ∈ q.log ∨ (i ∉ q.lockOrder ∧ result.isClose = false)) :
    CloseReturns q' where
  results i err shutdown mem := by
    rcases log i _ mem with old | ⟨-, notClose⟩
    · obtain ⟨none, first, closedBefore⟩ := ret.results i err shutdown old
      exact ⟨none, by rwa [lockOrder], closed closedBefore⟩
    · simp [Returned.isClose] at notClose
  locked i result mem := by
    rw [lockOrder]
    rcases log i result mem with old | ⟨notIn, notClose⟩
    · exact ret.locked i result old
    · simp [notIn, notClose]

/-- **Every step keeps `CloseReturns`.** A `Close` returns nil; it says it shut the queue down
exactly when it was the first to lock, and either way it returns with `closed` set. -/
theorem closeReturns_move {q q' : Queue α} (inv : Shutdown v q) (delivery : Delivery q)
    (ret : CloseReturns q) (move : Move v q q') : CloseReturns q' := by
  have finished : ∀ {id : Nat} {result : Returned α} {call : Call α},
      q.calls id = call → call.pastLock = false → result.isClose = false →
      ∀ i result', (i, result') ∈ q.log ++ [(id, result)] →
        (i, result') ∈ q.log ∨ (i ∉ q.lockOrder ∧ result'.isClose = false) := by
    intro id result call current notLocked notClose i result' mem
    rw [List.mem_append, List.mem_singleton, Prod.mk.injEq] at mem
    rcases mem with old | ⟨rfl, rfl⟩
    · exact .inl old
    · exact .inr ⟨inv.not_mem_lockOrder (current ▸ notLocked), notClose⟩
  cases move with
  | closeLock id current unlocked =>
    have unlogged : ∀ result, (id, result) ∉ q.log := fun result mem => by
      simp [delivery.logged id result mem] at current
    refine ⟨fun i err shutdown mem => ?_, fun i result mem => ?_⟩
    · cases head : q.lockOrder.head? with
      | none =>
        have flags := inv.flags
        rw [List.head?_eq_none_iff.mp head] at flags
        simp only [expectedFlags, List.head?_nil, Prod.mk.injEq] at flags
        simpa [flags.1] using (ret.results i err shutdown mem).2.2
      | some first =>
        obtain ⟨none, shuts, closed⟩ := ret.results i err shutdown mem
        exact ⟨none, by simpa [head] using shuts, closed⟩
    · have other : i ≠ id := fun same => unlogged result (same ▸ mem)
      show i ∈ q.lockOrder ++ [id] ↔ _
      simpa [other] using ret.locked i result mem
  | closeUnlock id shutdown current locked =>
    have facts := inv.calls id
    rw [current] at facts
    have member : id ∈ q.lockOrder := by
      cases shutdown
      · exact facts.1
      · exact List.mem_of_mem_head? facts.1
    refine ⟨fun i err returnedShutdown mem => ?_, fun i result mem => ?_⟩
    · simp only [Queue.finish, List.mem_append, List.mem_singleton, Prod.mk.injEq,
        Returned.close.injEq] at mem
      rcases mem with old | ⟨rfl, rfl, rfl⟩
      · exact ret.results i err returnedShutdown old
      · cases returnedShutdown
        · exact ⟨rfl, by simpa using facts.2.1, facts.2.2⟩
        · have flags := inv.flags
          rw [expectedFlags_of_head facts.1, current] at flags
          simp only [CloseVersion.flagsOf, CloseVersion.flagsAt_unlocking, Prod.mk.injEq] at flags
          exact ⟨rfl, by simpa using facts.1, flags.1⟩
    · simp only [Queue.finish, List.mem_append, List.mem_singleton, Prod.mk.injEq] at mem
      rcases mem with old | ⟨rfl, rfl⟩
      · exact ret.locked i result old
      · exact iff_of_true member rfl
  | writeAcquireCancelled id event current | writeRelease id event ctxDone err current
  | readClosed id ctxDone current | readCancelled id current
  | readReceive id ctxDone entry rest current =>
    exact ret.frame rfl (fun closed => closed)
      (finished current (by simp [Call.pastLock]) (by simp [Returned.isClose]))
  | handoff writer reader event ctxDone readerDone currentWriter currentReader =>
    exact ret.frame rfl (fun closed => closed)
      (finished currentReader (by simp [Call.pastLock]) (by simp [Returned.isClose]))
  | _ =>
    exact ret.frame rfl (fun closed => by simp [Queue.setCall, Queue.invoke, Queue.panic, closed])
      fun _ _ mem => .inl mem

end A2aGo.EventQueue
