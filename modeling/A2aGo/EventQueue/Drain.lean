import A2aGo.EventQueue.Safety
import Mathlib.Data.Finset.Card

/-!
**Once `Close` is called, every call on the queue can return.**

`Close` may wait at `q.semaphore.acquire()` while a `Write` holds the permit, and counts on its
own signal to free it: "It might be blocked here if there is a writer holding the semaphore. But
it's going to be unblocked by the signal we sent." `Read` does not check `q.closed`, "so that the
readers can drain the queue". Together they mean that `Close` never deadlocks the queue: from a
reachable state where a `Close` has been called, the calls already made can all return by running
their own statements, with no context cancelled and no call added (`RunSteps`).

* `Progress`: a run of such statements after which fewer calls are in flight (`Queue.pending`);
* `closeHolder_progress`: the `Close` holding `closeMu` makes progress, through the `Write`
  holding the permit when it waits for the permit;
* `drained_progress`: once the first `Close` has returned, every call in flight can make
  progress: a `Read` drains `events` or finds it closed, a `Write` finds `closeChan` closed;
* `calls_drain_after_close`: **from every reachable state where a `Close` has been called, in
  both versions of `Close`, some run of the calls' own statements ends with every call returned
  and the queue closed.**
-/

namespace A2aGo.EventQueue

open Relation A2aGo.Sync

variable {α : Type} {v : CloseVersion}

/-- A call in flight: made and not returned. -/
def Call.live : Call α → Bool
  | .unborn | .returned => false
  | _ => true

/-- The calls in flight. -/
def Queue.pending (q : Queue α) : Finset Nat :=
  (Finset.range q.nextId).filter fun i => (q.calls i).live

/-- A call already made runs its next statement: no context is cancelled and no call starts. -/
def RunSteps (v : CloseVersion) (q q' : Queue α) : Prop :=
  ∃ id branch, step v q (.run id branch) = some q'

/-- Some run of statements ends with fewer calls in flight. -/
def Progress (v : CloseVersion) (q : Queue α) : Prop :=
  ∃ q', ReflTransGen (RunSteps v) q q' ∧ q'.pending ⊂ q.pending

/-! ### What a statement changes -/

section Frame

variable {q q' : Queue α} {id branch : Nat}

/-- Only a call in flight runs a statement. -/
theorem run_live (stepped : step v q (.run id branch) = some q') : (q.calls id).live := by
  simp only [step] at stepped
  split at stepped
  all_goals rename_i current
  all_goals first | cases stepped | simp [current, Call.live]

/-- A statement moves only its own call. -/
theorem run_frame (stepped : step v q (.run id branch) = some q') {j : Nat} (other : j ≠ id) :
    q'.calls j = q.calls j := by
  simp only [step] at stepped
  split at stepped
  · unfold writeStep at stepped
    split at stepped <;> (try split_ifs at stepped) <;> cases stepped <;>
      simp only [Queue.setCall, Queue.finish, Queue.panic, Function.update_noteq other]
  · unfold readStep at stepped
    split at stepped <;> (try split at stepped) <;> (try split_ifs at stepped) <;> cases stepped <;>
      simp only [Queue.finish, Function.update_noteq other]
  · unfold closeStep at stepped
    split at stepped <;> (try split_ifs at stepped) <;> cases stepped <;>
      simp only [Queue.setCall, Queue.finish, Queue.panic, Function.update_noteq other]
  · cases stepped

/-- A statement takes no call into flight. -/
theorem run_pending_subset (stepped : step v q (.run id branch) = some q') :
    q'.pending ⊆ q.pending := by
  intro j mem
  simp only [Queue.pending, Finset.mem_filter, Finset.mem_range] at mem ⊢
  rw [step_internal_nextId (show (Action.run id branch : Action α).internal = true from rfl)
    stepped] at mem
  by_cases here : j = id
  · subst here
    exact ⟨mem.1, run_live stepped⟩
  · rwa [← run_frame stepped here]

/-- A run of statements takes no call into flight. -/
theorem RunSteps.pending_subset (run : ReflTransGen (RunSteps v) q q') :
    q'.pending ⊆ q.pending := by
  induction run with
  | refl => exact Finset.Subset.refl _
  | tail _ stepped subset =>
    obtain ⟨id, branch, stepped⟩ := stepped
    exact (run_pending_subset stepped).trans subset

theorem RunSteps.steps (run : ReflTransGen (RunSteps v) q q') : ReflTransGen (Steps v) q q' :=
  run.mono fun _ _ ⟨id, branch, stepped⟩ => ⟨.run id branch, stepped⟩

/-- A statement before some progress is progress. -/
theorem Progress.of_step (stepped : step v q (.run id branch) = some q') (next : Progress v q') :
    Progress v q :=
  let ⟨q'', run, fewer⟩ := next
  ⟨q'', .head ⟨id, branch, stepped⟩ run,
    Finset.ssubset_of_ssubset_of_subset fewer (run_pending_subset stepped)⟩

/-- A statement that returns its call is progress. -/
theorem Progress.of_return (unborn : Unborn q) (stepped : step v q (.run id branch) = some q')
    (returned : q'.calls id = .returned) : Progress v q := by
  refine ⟨q', .single ⟨id, branch, stepped⟩,
    (Finset.ssubset_iff_of_subset (run_pending_subset stepped)).mpr ⟨id, ?_, ?_⟩⟩
  · have live := run_live stepped
    simp only [Queue.pending, Finset.mem_filter, Finset.mem_range]
    exact ⟨unborn.lt fun unbornId => by simp [unbornId, Call.live] at live, live⟩
  · simp [Queue.pending, returned, Call.live]

/-- A statement from a state of the invariant, before progress from the state it leads to. -/
theorem Invariant.progress_of_step (inv : Invariant v q)
    (stepped : step v q (.run id branch) = some q') (next : Invariant v q' → Progress v q') :
    Progress v q :=
  .of_step stepped (next (inv.move (step_move stepped)))

end Frame

/-! ### A `Write` in the semaphore's region leaves once `closeChan` is closed -/

section Writes

variable {q : Queue α} {i : Nat} {event : α} {ctxDone : Bool}

/-- At its deferred `release()` a `Write` gives the token back and returns. -/
theorem writeReleasing_progress (inv : Invariant v q) {err : Option QueueError}
    (current : q.calls i = .write event ctxDone (.releasing err)) : Progress v q := by
  have one := inv.exclusion.permit.eq_one (i := i) (by simp [current, Call.holdsPermit])
  have stepped : step v q (.run i 0) =
      some { q.finish i (.write err) with tokens := q.tokens - 1 } := by
    simp [step, current, writeStep, one]
  exact .of_return inv.unborn stepped (by simp)

/-- In its `select`, a `Write` takes the `<-q.closeChan` case once `closeChan` is closed. -/
theorem writeSelecting_progress (inv : Invariant v q) (signalled : q.closeChanClosed = true)
    (current : q.calls i = .write event ctxDone .selecting) : Progress v q := by
  have stepped : step v q (.run i 1) =
      some (q.setCall i (.write event ctxDone (.releasing (some .queueClosed)))) := by
    simp [step, current, writeStep, signalled]
  exact inv.progress_of_step stepped fun inv' =>
    writeReleasing_progress inv' (Function.update_same _ _ _)

/-- At `if q.closed`, a `Write` goes to its release or to its `select`. -/
theorem writeChecking_progress (inv : Invariant v q) (signalled : q.closeChanClosed = true)
    (current : q.calls i = .write event ctxDone .checking) : Progress v q := by
  cases closed : q.closed
  · have stepped : step v q (.run i 0) = some (q.setCall i (.write event ctxDone .selecting)) := by
      simp [step, current, writeStep, closed]
    exact inv.progress_of_step stepped fun inv' =>
      writeSelecting_progress inv' signalled (Function.update_same _ _ _)
  · have stepped : step v q (.run i 0) =
        some (q.setCall i (.write event ctxDone (.releasing (some .queueClosed)))) := by
      simp [step, current, writeStep, closed]
    exact inv.progress_of_step stepped fun inv' =>
      writeReleasing_progress inv' (Function.update_same _ _ _)

/-- **A `Write` holding the permit makes progress once `closeChan` is closed.** -/
theorem writeHolder_progress (inv : Invariant v q) (signalled : q.closeChanClosed = true)
    (holds : (q.calls i).holdsPermit)
    (writing : ∃ event ctxDone pc, q.calls i = .write event ctxDone pc) :
    Progress v q := by
  obtain ⟨event, ctxDone, pc, current⟩ := writing
  cases pc with
  | acquiring => simp [current, Call.holdsPermit] at holds
  | checking => exact writeChecking_progress inv signalled current
  | selecting => exact writeSelecting_progress inv signalled current
  | releasing err => exact writeReleasing_progress inv current

end Writes

/-- A call in the semaphore's region that is not a `Close` is a `Write`. -/
theorem Call.write_of_holdsPermit {call : Call α} (holds : call.holdsPermit)
    (notClose : ∀ pc, call ≠ .close pc) :
    ∃ event ctxDone pc, call = .write event ctxDone pc := by
  cases call with
  | write event ctxDone pc => exact ⟨event, ctxDone, pc, rfl⟩
  | close pc => exact absurd rfl (notClose pc)
  | _ => simp [Call.holdsPermit] at holds

/-! ### The `Close` holding `closeMu` finishes, or frees the permit it waits for -/

section Closes

variable {q : Queue α} {c : Nat}

/-- No call of a reachable state is at a statement that panics. -/
theorem Invariant.not_panicsAt (inv : Invariant v q) (i : Nat) : ¬ PanicsAt q (q.calls i) :=
  inv.shutdown.not_panicsAt inv.exclusion i

/-- At the deferred `Unlock()` a `Close` returns. -/
theorem closeUnlocking_progress (inv : Invariant v q) {shutdown : Bool}
    (current : q.calls c = .close (.unlocking shutdown)) : Progress v q := by
  have locked : q.closeMuLocked = true := by simpa [current, PanicsAt] using inv.not_panicsAt c
  have stepped : step v q (.run c 0) =
      some { q.finish c (.close none shutdown) with closeMuLocked := false } := by
    simp [step, current, closeStep, locked]
  exact .of_return inv.unborn stepped (by simp)

/-- At the deferred `release()` a `Close` gives the token back. -/
theorem closeReleasing_progress (inv : Invariant v q) (current : q.calls c = .close .releasing) :
    Progress v q := by
  have one := inv.exclusion.permit.eq_one (i := c) (by simp [current, Call.holdsPermit])
  have stepped : step v q (.run c 0) =
      some { q.setCall c (.close (.unlocking true)) with tokens := q.tokens - 1 } := by
    simp [step, current, closeStep, one]
  exact inv.progress_of_step stepped fun inv' =>
    closeUnlocking_progress inv' (Function.update_same _ _ _)

theorem closeMarking_progress (inv : Invariant v q) (current : q.calls c = .close .markingClosed) :
    Progress v q := by
  have stepped : step v q (.run c 0) =
      some { q.setCall c (.close .releasing) with closed := true } := by
    simp [step, current, closeStep]
  exact inv.progress_of_step stepped fun inv' =>
    closeReleasing_progress inv' (Function.update_same _ _ _)

/-- `close(q.events)` runs: `events` is still open. -/
theorem closeEvents_progress (inv : Invariant v q) (current : q.calls c = .close .closingEvents) :
    Progress v q := by
  have opened : q.eventsClosed = false := by simpa [current, PanicsAt] using inv.not_panicsAt c
  have stepped : step v q (.run c 0) =
      some { q.setCall c (.close v.afterEventsClosed) with eventsClosed := true } := by
    simp [step, current, closeStep, opened]
  refine inv.progress_of_step stepped fun inv' => ?_
  cases v
  · exact closeReleasing_progress inv' (Function.update_same _ _ _)
  · exact closeMarking_progress inv' (Function.update_same _ _ _)

/-- **At `q.semaphore.acquire()` a `Close` takes the token, or the `Write` holding it leaves**:
`closeChan` is closed by then, so the `Write` takes the `<-q.closeChan` case of its `select`. -/
theorem closeAcquiring_progress (inv : Invariant v q) (current : q.calls c = .close .acquiring) :
    Progress v q := by
  obtain ⟨-, -, flags⟩ := inv.shutdown.onPath current rfl
  have signalled : q.closeChanClosed = true := by
    cases v <;> simp only [CloseVersion.flagsAt, Prod.mk.injEq] at flags <;> exact flags.2.1
  rcases Nat.lt_or_ge q.tokens 1 with free | busy
  · have stepped : step v q (.run c 0) =
        some { q.setCall c (.close .closingEvents) with tokens := q.tokens + 1 } := by
      simp [step, current, closeStep, free]
    exact inv.progress_of_step stepped fun inv' =>
      closeEvents_progress inv' (Function.update_same _ _ _)
  · obtain ⟨j, holds⟩ := inv.exclusion.permit.exists_holder busy
    refine writeHolder_progress inv signalled holds
      (Call.write_of_holdsPermit holds fun pc other => ?_)
    have locked : (q.calls j).holdsCloseMu := by
      rw [other] at holds ⊢
      cases pc <;> simp_all [Call.holdsPermit, Call.holdsCloseMu]
    have closing : (q.calls c).holdsCloseMu := by simp [current, Call.holdsCloseMu]
    have same := inv.exclusion.mutex.unique locked closing
    subst same
    simp [current, Call.holdsPermit] at holds

/-- `close(q.closeChan)` runs: `closeChan` is still open. -/
theorem closeSignalling_progress (inv : Invariant v q) (current : q.calls c = .close .signalling) :
    Progress v q := by
  have unsignalled : q.closeChanClosed = false := by
    simpa [current, PanicsAt] using inv.not_panicsAt c
  have stepped : step v q (.run c 0) =
      some { q.setCall c (.close .acquiring) with closeChanClosed := true } := by
    simp [step, current, closeStep, unsignalled]
  exact inv.progress_of_step stepped fun inv' =>
    closeAcquiring_progress inv' (Function.update_same _ _ _)

theorem closeSettingClosed_progress (inv : Invariant v q)
    (current : q.calls c = .close .settingClosed) : Progress v q := by
  have stepped : step v q (.run c 0) =
      some { q.setCall c (.close .signalling) with closed := true } := by
    simp [step, current, closeStep]
  exact inv.progress_of_step stepped fun inv' =>
    closeSignalling_progress inv' (Function.update_same _ _ _)

/-- At `if q.closed`, a `Close` returns or starts the shutdown of its version. -/
theorem closeChecking_progress (inv : Invariant v q) (current : q.calls c = .close .checking) :
    Progress v q := by
  cases closed : q.closed
  · have stepped : step v q (.run c 0) = some (q.setCall c (.close v.shutdownStart)) := by
      simp [step, current, closeStep, closed]
    refine inv.progress_of_step stepped fun inv' => ?_
    cases v
    · exact closeSettingClosed_progress inv' (Function.update_same _ _ _)
    · exact closeSignalling_progress inv' (Function.update_same _ _ _)
  · have stepped : step v q (.run c 0) = some (q.setCall c (.close (.unlocking false))) := by
      simp [step, current, closeStep, closed]
    exact inv.progress_of_step stepped fun inv' =>
      closeUnlocking_progress inv' (Function.update_same _ _ _)

/-- **The `Close` holding `closeMu` makes progress**, at every statement between its `Lock` and its
`Unlock`. -/
theorem closeHolder_progress (inv : Invariant v q) (holds : (q.calls c).holdsCloseMu) :
    Progress v q := by
  cases current : q.calls c with
  | close pc =>
    cases pc with
    | locking => simp [current, Call.holdsCloseMu] at holds
    | checking => exact closeChecking_progress inv current
    | settingClosed => exact closeSettingClosed_progress inv current
    | signalling => exact closeSignalling_progress inv current
    | acquiring => exact closeAcquiring_progress inv current
    | closingEvents => exact closeEvents_progress inv current
    | markingClosed => exact closeMarking_progress inv current
    | releasing => exact closeReleasing_progress inv current
    | unlocking shutdown => exact closeUnlocking_progress inv current
  | _ => simp [current, Call.holdsCloseMu] at holds

end Closes

/-! ### After the shutdown, every call in flight returns -/

section Drained

variable {q : Queue α} {i : Nat} {event : α} {ctxDone : Bool}

/-- A `Close` past its `Lock` has taken its place in the lock order. -/
theorem Shutdown.mem_lockOrder (inv : Shutdown v q) {pc : CloseAt} (current : q.calls i = .close pc)
    (locked : pc ≠ .locking) : i ∈ q.lockOrder := by
  have facts := inv.calls i
  rw [current] at facts
  cases pc with
  | locking => exact absurd rfl locked
  | checking => exact facts.1
  | unlocking shutdown =>
    cases shutdown
    · exact facts.1
    · exact List.mem_of_mem_head? facts.1
  | _ => exact List.mem_of_mem_head? facts.1

/-- Once a `Close` has locked and none is in flight, the first has returned, so `closed`,
`closeChan` and `events` are all closed. -/
theorem Invariant.shut_of_noClose (inv : Invariant v q) (begun : q.lockOrder ≠ [])
    (noClose : ∀ j pc, q.calls j ≠ .close pc) :
    q.closed = true ∧ q.closeChanClosed = true ∧ q.eventsClosed = true := by
  obtain ⟨first, head⟩ : ∃ first, q.lockOrder.head? = some first :=
    Option.ne_none_iff_exists'.mp fun none => begun (List.head?_eq_none_iff.mp none)
  have locked := inv.shutdown.locked first (List.mem_of_mem_head? head)
  have returned : q.calls first = .returned := by
    cases current : q.calls first with
    | returned => rfl
    | close pc => exact absurd current (noClose first pc)
    | _ => simp [current, Call.pastLock] at locked
  have flags := inv.shutdown.flags
  rw [expectedFlags_of_head head, returned] at flags
  simpa [CloseVersion.flagsOf] using flags

/-- With `events` closed, a `Read` takes a buffered event or gets `ErrQueueClosed`. -/
theorem readDrained_progress (inv : Invariant v q) (eventsClosed : q.eventsClosed = true)
    (current : q.calls i = .read ctxDone) : Progress v q := by
  cases buffered : q.events with
  | nil =>
    have stepped : step v q (.run i 0) = some (q.finish i (.read (.error .queueClosed))) := by
      simp [step, current, readStep, buffered, eventsClosed]
    exact .of_return inv.unborn stepped (by simp)
  | cons entry rest =>
    have stepped : step v q (.run i 0) =
        some { q.finish i (.read (.ok entry)) with events := rest } := by
      simp [step, current, readStep, buffered]
    exact .of_return inv.unborn stepped (by simp)

/-- With no `Close` in flight, a `Write` at `acquireWithContext` takes the token, or the `Write`
holding it leaves. -/
theorem writeAcquiring_progress (inv : Invariant v q) (signalled : q.closeChanClosed = true)
    (noClose : ∀ j pc, q.calls j ≠ .close pc)
    (current : q.calls i = .write event ctxDone .acquiring) : Progress v q := by
  rcases Nat.lt_or_ge q.tokens 1 with free | busy
  · have stepped : step v q (.run i 0) =
        some { q.setCall i (.write event ctxDone .checking) with tokens := q.tokens + 1 } := by
      simp [step, current, writeStep, free]
    exact inv.progress_of_step stepped fun inv' =>
      writeChecking_progress inv' signalled (Function.update_same _ _ _)
  · obtain ⟨j, holds⟩ := inv.exclusion.permit.exists_holder busy
    exact writeHolder_progress inv signalled holds (Call.write_of_holdsPermit holds (noClose j))

/-- **Once the first `Close` has returned, every call in flight can make progress.** -/
theorem drained_progress (inv : Invariant v q) (begun : q.lockOrder ≠ [])
    (noClose : ∀ j pc, q.calls j ≠ .close pc) (busy : q.pending.Nonempty) : Progress v q := by
  obtain ⟨-, signalled, eventsClosed⟩ := inv.shut_of_noClose begun noClose
  obtain ⟨i, mem⟩ := busy
  have live := (Finset.mem_filter.mp mem).2
  cases current : q.calls i with
  | read ctxDone => exact readDrained_progress inv eventsClosed current
  | write event ctxDone pc =>
    cases pc with
    | acquiring => exact writeAcquiring_progress inv signalled noClose current
    | _ =>
      exact writeHolder_progress inv signalled (by simp [current, Call.holdsPermit])
        ⟨_, _, _, current⟩
  | close pc => exact absurd current (noClose i pc)
  | _ => simp [current, Call.live] at live

end Drained

/-! ### Every run of the drain -/

section Drain

variable {q q' : Queue α}

/-- The lock order only grows. -/
theorem Move.lockOrder_grows (move : Move v q q') : q.lockOrder <+: q'.lockOrder := by
  cases move <;> first | exact List.prefix_refl _ | exact List.prefix_append _ _

theorem RunSteps.lockOrder_ne_nil (run : ReflTransGen (RunSteps v) q q')
    (begun : q.lockOrder ≠ []) :
    q'.lockOrder ≠ [] := by
  induction run with
  | refl => exact begun
  | tail _ stepped begun' =>
    obtain ⟨id, branch, stepped⟩ := stepped
    exact fun empty => begun' (List.prefix_nil.mp (empty ▸ (step_move stepped).lockOrder_grows))

/-- **Progress from every state of the invariant where a `Close` has locked**: the `Close`
holding `closeMu` moves; else a `Close` waiting at `Lock` takes it; else the queue is shut down
and any call in flight moves. -/
theorem Invariant.progress (inv : Invariant v q) (begun : q.lockOrder ≠ [])
    (busy : q.pending.Nonempty) : Progress v q := by
  cases locked : q.closeMuLocked
  · by_cases waiting : ∃ c, q.calls c = .close .locking
    · obtain ⟨c, current⟩ := waiting
      have stepped : step v q (.run c 0) = some { q.setCall c (.close .checking) with
          closeMuLocked := true, lockOrder := q.lockOrder ++ [c] } := by
        simp [step, current, closeStep, locked]
      exact inv.progress_of_step stepped fun inv' =>
        closeChecking_progress inv' (Function.update_same _ _ _)
    · have free : Counted (fun i => (q.calls i).holdsCloseMu) 0 := by
        simpa [locked] using inv.exclusion.mutex
      refine drained_progress inv begun (fun j pc current => ?_) busy
      cases pc with
      | locking => exact waiting ⟨j, current⟩
      | _ => simpa [current, Call.holdsCloseMu] using free.eq_false_of_zero j
  · obtain ⟨c, holds⟩ := inv.exclusion.mutex.exists_holder (by simp [locked])
    exact closeHolder_progress inv holds

/-- From every state of the invariant where a `Close` has locked, some run of statements ends
with no call in flight. -/
theorem Invariant.drain {q : Queue α} (inv : Invariant v q) (begun : q.lockOrder ≠ []) :
    ∃ q', ReflTransGen (RunSteps v) q q' ∧ q'.pending = ∅ ∧ Invariant v q' ∧
      q'.lockOrder ≠ [] := by
  rcases q.pending.eq_empty_or_nonempty with empty | busy
  · exact ⟨q, .refl, empty, inv, begun⟩
  · obtain ⟨q₁, run, fewer⟩ := inv.progress begun busy
    obtain ⟨q', run', rest⟩ :=
      (inv.steps (RunSteps.steps run)).drain (RunSteps.lockOrder_ne_nil run begun)
    exact ⟨q', run.trans run', rest⟩
termination_by q.pending.card
decreasing_by exact Finset.card_lt_card fewer

/-- Once a `Close` has been called, some `Close` has locked, at the cost of at most one `Lock`. -/
theorem Invariant.begin (inv : Invariant v q)
    (called : ∃ c, (∃ pc, q.calls c = .close pc) ∨
      ∃ err shutdown, (c, Returned.close err shutdown) ∈ q.log) :
    ∃ q', ReflTransGen (RunSteps v) q q' ∧ Invariant v q' ∧ q'.lockOrder ≠ [] := by
  by_cases begun : q.lockOrder = []
  · obtain ⟨c, ⟨pc, current⟩ | ⟨err, shutdown, logged⟩⟩ := called
    · have waiting : pc = .locking := by
        by_contra locked
        have member := inv.shutdown.mem_lockOrder current locked
        simp [begun] at member
      subst waiting
      have unlocked : q.closeMuLocked = false := by
        by_contra locked
        obtain ⟨h, holds⟩ := inv.exclusion.mutex.exists_holder (by simp_all)
        cases holder : q.calls h with
        | close pc' =>
          have past : pc' ≠ .locking := by rintro rfl; simp [holder, Call.holdsCloseMu] at holds
          have member := inv.shutdown.mem_lockOrder holder past
          simp [begun] at member
        | _ => simp [holder, Call.holdsCloseMu] at holds
      have stepped : step v q (.run c 0) = some { q.setCall c (.close .checking) with
          closeMuLocked := true, lockOrder := q.lockOrder ++ [c] } := by
        simp [step, current, closeStep, unlocked]
      exact ⟨_, .single ⟨c, 0, stepped⟩, inv.move (step_move stepped), by simp⟩
    · have member := (inv.closeReturns.locked c _ logged).mpr rfl
      simp [begun] at member
  · exact ⟨q, .refl, inv, begun⟩

end Drain

/-- **Once a `Close` has been called, a run of the calls' own statements returns every call**,
keeping the invariant, with a `Close` locked. -/
theorem Invariant.settle {q : Queue α} (inv : Invariant v q)
    (called : ∃ c, (∃ pc, q.calls c = .close pc) ∨
      ∃ err shutdown, (c, Returned.close err shutdown) ∈ q.log) :
    ∃ q', ReflTransGen (RunSteps v) q q' ∧ Invariant v q' ∧ q'.lockOrder ≠ [] ∧
      ∀ i, q'.calls i = .unborn ∨ q'.calls i = .returned := by
  obtain ⟨q₁, run₁, inv₁, begun⟩ := inv.begin called
  obtain ⟨q', run', empty, inv', begun'⟩ := inv₁.drain begun
  refine ⟨q', run₁.trans run', inv', begun', fun i => ?_⟩
  by_cases started : i < q'.nextId
  · have live : (q'.calls i).live = false := by
      simpa using Finset.filter_eq_empty_iff.mp empty (Finset.mem_range.mpr started)
    cases current : q'.calls i <;> simp_all [Call.live]
  · exact .inl (inv'.unborn i (by omega))

/-- **Once `Close` is called, every call can return, and nothing waits forever.** From every
reachable state of a queue, in both versions of `Close`, under any interleaving of `Write`,
`Read` and `Close` calls that has called `Close` at least once (a `Close` is in flight or has
returned): some run in which only the calls already made run their own statements, with no
context cancelled, no direct handoff and no new call, ends with every call returned, and with
`closed` set and `events` closed. In particular a `Close` waiting for the permit a `Write`
holds is never stuck: the `Write` leaves its `select` by `closeChan`. -/
theorem calls_drain_after_close (v : CloseVersion) (size : Nat) (q : Queue α)
    (reach : Reachable v size q)
    (called : ∃ c, (∃ pc, q.calls c = .close pc) ∨
      ∃ err shutdown, (c, Returned.close err shutdown) ∈ q.log) :
    ∃ q', ReflTransGen (RunSteps v) q q' ∧
      (∀ i, q'.calls i = .unborn ∨ q'.calls i = .returned) ∧
      q'.closed = true ∧ q'.eventsClosed = true := by
  obtain ⟨q', run, inv', begun, settled⟩ := (invariant_reachable reach).settle called
  have noClose : ∀ j pc, q'.calls j ≠ .close pc := fun j pc current => by
    rcases settled j with same | same <;> rw [current] at same <;> cases same
  obtain ⟨closed, -, eventsClosed⟩ := inv'.shut_of_noClose begun noClose
  exact ⟨q', run, settled, closed, eventsClosed⟩

/-- `NewInMemoryQueue(0)` with a `Write` holding the permit in its `select`, with no reader to
take its event, and a `Close` that has closed `closeChan` and waits at `q.semaphore.acquire()`:
the state the comment in `Close` describes. -/
def closeWaitingState : Queue Nat :=
  (run .setsClosedLast (newInMemoryQueue 0)
    [.write 7 false, .run 0 0, .run 0 0, .close, .run 1 0, .run 1 0, .run 1 0]).getD
    (newInMemoryQueue 0)

theorem calls_drain_after_close_closeWaiting :
    Reachable .setsClosedLast 0 closeWaitingState ∧
      (∃ c, (∃ pc, closeWaitingState.calls c = .close pc) ∨
        ∃ err shutdown, (c, Returned.close err shutdown) ∈ closeWaitingState.log) ∧
      ∃ q', ReflTransGen (RunSteps .setsClosedLast) closeWaitingState q' ∧
        (∀ i, q'.calls i = .unborn ∨ q'.calls i = .returned) ∧
        q'.closed = true ∧ q'.eventsClosed = true :=
  have reach : Reachable .setsClosedLast 0 closeWaitingState :=
    steps_of_run (rfl : run .setsClosedLast (newInMemoryQueue 0)
      [.write 7 false, .run 0 0, .run 0 0, .close, .run 1 0, .run 1 0, .run 1 0] =
        some closeWaitingState)
  have called : ∃ c, (∃ pc, closeWaitingState.calls c = .close pc) ∨
      ∃ err shutdown, (c, Returned.close err shutdown) ∈ closeWaitingState.log :=
    ⟨1, .inl ⟨.acquiring, rfl⟩⟩
  ⟨reach, called, calls_drain_after_close .setsClosedLast 0 closeWaitingState reach called⟩

/-- In that state the `Close` cannot take the permit, and the `Write` cannot send; the `Write`
leaves by `closeChan`. -/
example : step .setsClosedLast closeWaitingState (.run 1 0) = none ∧
    step .setsClosedLast closeWaitingState (.run 0 0) = none ∧
    (step .setsClosedLast closeWaitingState (.run 0 1)).isSome := ⟨rfl, rfl, rfl⟩

end A2aGo.EventQueue
