import A2aGo.EventQueue.Drain

/-!
**A call whose context is done returns within a few statements of its own.**

`Write` waits in `acquireWithContext` and in its `select`, and each of the two has a
`<-ctx.Done()` case; `Read`'s `select` has one too; the deferred `release()` of a `Write` never
waits, since the `Write` holds the token it gives back. So once the context of a `Write` or a
`Read` is done, the call needs no other goroutine to return, and whatever the others do it cannot
be held up:

* `run_rank`: each statement of such a call lowers `Call.rank`, the statements it has left at
  most, whichever case its `select` takes;
* `other_rank`: no step of another call, cancellation or handoff raises it;
* `cancelled_enabled`: such a call always has a statement it can run;
* `cancelled_call_returns`: **from every reachable state, in both versions of `Close`, over
  every schedule, a `Write` or `Read` whose context is done runs at most `Call.rank` statements
  (four for a `Write` waiting for the semaphore, one for a `Read`), and can run one more at
  every point until it has returned.**
-/

namespace A2aGo.EventQueue

open Relation

variable {α : Type} {v : CloseVersion}

/-- A `Write` or a `Read` whose context is done. -/
def Call.cancelled : Call α → Bool
  | .write _ ctxDone _ | .read ctxDone => ctxDone
  | _ => false

/-- A call whose context is done, or one that has returned. -/
def Call.cancelledOrReturned : Call α → Bool
  | .returned => true
  | call => call.cancelled

/-- The statements a `Write` or a `Read` has left at most: a `Write` from `acquireWithContext`
through `if q.closed` and its `select` to its deferred `release()`, a `Read` its `select`. -/
def Call.rank : Call α → Nat
  | .write _ _ .acquiring => 4
  | .write _ _ .checking => 3
  | .write _ _ .selecting => 2
  | .write _ _ (.releasing _) => 1
  | .read _ => 1
  | _ => 0

/-- The action runs a statement of call `id`. -/
def Action.runs (id : Nat) : Action α → Bool
  | .run i _ => i == id
  | _ => false

/-- A step on calls already made: a statement, a cancellation or a handoff; no call starts. -/
def InternalSteps (v : CloseVersion) (q q' : Queue α) : Prop :=
  ∃ action : Action α, action.internal = true ∧ step v q action = some q'

theorem Call.settled_of_cancelled {c : Call α} (cancelled : c.cancelled = true) :
    c.cancelledOrReturned = true := by
  cases c <;> simp_all [Call.cancelledOrReturned]

theorem Call.cancelled_of_settled {c : Call α} (settled : c.cancelledOrReturned = true)
    (running : c ≠ .returned) : c.cancelled = true := by
  cases c <;> simp_all [Call.cancelledOrReturned]

section Rank

variable {q q' : Queue α} {id : Nat}

/-- **A statement of a cancelled call lowers its rank**, and leaves its context done or the call
returned. -/
theorem run_rank (inv : Invariant v q) (settled : (q.calls id).cancelledOrReturned = true)
    {branch : Nat} (stepped : step v q (.run id branch) = some q') :
    (q'.calls id).rank < (q.calls id).rank ∧ (q'.calls id).cancelledOrReturned = true := by
  have noPanic := inv.not_panicsAt id
  cases current : q.calls id with
  | write event ctxDone pc =>
    obtain rfl : ctxDone = true := by simpa [current, Call.cancelledOrReturned, Call.cancelled]
      using settled
    rw [current] at noPanic
    simp only [step, current] at stepped
    unfold writeStep at stepped
    split at stepped <;> (try split_ifs at stepped) <;> cases stepped <;>
      simp_all [PanicsAt, Call.rank, Call.cancelledOrReturned, Call.cancelled]
  | read ctxDone =>
    simp only [step, current] at stepped
    unfold readStep at stepped
    split at stepped <;> (try split at stepped) <;> (try split_ifs at stepped) <;> cases stepped <;>
      simp [Call.rank, Call.cancelledOrReturned]
  | unborn | returned => simp [step, current] at stepped
  | close => simp [current, Call.cancelledOrReturned, Call.cancelled] at settled

/-- **No other step raises the rank of a cancelled call**, nor starts its context again. -/
theorem other_rank (unborn : Unborn q) (settled : (q.calls id).cancelledOrReturned = true)
    {action : Action α} (stepped : step v q action = some q') (other : action.runs id = false) :
    (q'.calls id).rank ≤ (q.calls id).rank ∧ (q'.calls id).cancelledOrReturned = true := by
  have started : id ≠ q.nextId := fun fresh => by
    have unbornId := unborn q.nextId (Nat.le_refl _)
    rw [← fresh] at unbornId
    simp [unbornId, Call.cancelledOrReturned, Call.cancelled] at settled
  cases action with
  | write | read | close => cases stepped; simpa [Function.update_noteq started] using settled
  | cancel j =>
    simp only [step] at stepped
    split at stepped <;> cases stepped <;> rename_i current
    all_goals by_cases here : id = j
    all_goals first
      | (subst here; simp_all [Call.rank, Call.cancelledOrReturned, Call.cancelled])
      | simpa [Function.update_noteq here] using settled
  | run j branch =>
    have here : id ≠ j := fun same => by simp [Action.runs, same] at other
    rw [run_frame stepped here]
    exact ⟨le_refl _, settled⟩
  | handoff writer reader =>
    simp only [step, handoff] at stepped
    split at stepped
    · split_ifs at stepped
      cases stepped
      rename_i currentWriter currentReader _
      by_cases isReader : id = reader
      · subst isReader; simp [Queue.finish, Call.rank, Call.cancelledOrReturned]
      by_cases isWriter : id = writer
      · subst isWriter
        simp_all [Queue.finish, Queue.setCall, Function.update_noteq isReader, Call.rank,
          Call.cancelledOrReturned, Call.cancelled]
      · simpa [Queue.finish, Queue.setCall, Function.update_noteq isReader,
          Function.update_noteq isWriter] using settled
    · cases stepped

/-- **A cancelled call can always run a statement**: the `<-ctx.Done()` case of its `select`,
`if q.closed`, or the deferred `release()` of the token it holds. -/
theorem cancelled_enabled (inv : Invariant v q) (cancelled : (q.calls id).cancelled = true) :
    ∃ branch q', step v q (.run id branch) = some q' := by
  cases current : q.calls id with
  | read ctxDone =>
    obtain rfl : ctxDone = true := by simpa [current, Call.cancelled] using cancelled
    exact ⟨1, Option.isSome_iff_exists.mp (by simp [step, current, readStep])⟩
  | write event ctxDone pc =>
    obtain rfl : ctxDone = true := by simpa [current, Call.cancelled] using cancelled
    cases pc with
    | acquiring => exact ⟨1, Option.isSome_iff_exists.mp (by simp [step, current, writeStep])⟩
    | checking => exact ⟨0, Option.isSome_iff_exists.mp (by simp [step, current, writeStep])⟩
    | selecting => exact ⟨2, Option.isSome_iff_exists.mp (by simp [step, current, writeStep])⟩
    | releasing err =>
      have one := inv.exclusion.permit.eq_one (i := id) (by simp [current, Call.holdsPermit])
      exact ⟨0, Option.isSome_iff_exists.mp (by simp [step, current, writeStep, one])⟩
  | unborn | close | returned => simp [current, Call.cancelled] at cancelled

/-- Over a schedule, the statements of a cancelled call and the rank it keeps add up to at most
the rank it had, and it stays cancelled until it returns. -/
theorem run_count {actions : List (Action α)} (inv : Invariant v q)
    (settled : (q.calls id).cancelledOrReturned = true) (ran : run v q actions = some q') :
    (actions.filter (Action.runs id)).length + (q'.calls id).rank ≤ (q.calls id).rank ∧
      (q'.calls id).cancelledOrReturned = true := by
  induction actions generalizing q with
  | nil => cases ran; exact ⟨by simp, settled⟩
  | cons action rest ih =>
    obtain ⟨next, stepped, later⟩ := Option.bind_eq_some.mp ran
    cases runs : action.runs id
    · obtain ⟨lower, settled'⟩ := other_rank inv.unborn settled stepped runs
      obtain ⟨count, final⟩ := ih (inv.move (step_move stepped)) settled' later
      exact ⟨by simp only [List.filter_cons, runs, Bool.false_eq_true, ↓reduceIte]; omega, final⟩
    · obtain ⟨j, branch, rfl⟩ : ∃ j branch, action = .run j branch := by
        cases action <;> simp_all [Action.runs]
      obtain rfl : j = id := by simpa [Action.runs] using runs
      obtain ⟨lower, settled'⟩ := run_rank inv settled stepped
      obtain ⟨count, final⟩ := ih (inv.move (step_move stepped)) settled' later
      exact ⟨by simp only [List.filter_cons, runs, if_true, List.length_cons]; omega, final⟩

end Rank

/-! ### Every call in flight can return -/

section Quiesce

theorem RunSteps.internal {q q' : Queue α} (stepped : RunSteps v q q') : InternalSteps v q q' :=
  let ⟨id, branch, stepped⟩ := stepped
  ⟨.run id branch, rfl, stepped⟩

/-- A call whose context is done returns by its own statements. -/
theorem Invariant.own_return {q : Queue α} {i : Nat} (inv : Invariant v q)
    (cancelled : (q.calls i).cancelled = true) :
    ∃ q', ReflTransGen (RunSteps v) q q' ∧ q'.calls i = .returned := by
  obtain ⟨branch, q₁, stepped⟩ := cancelled_enabled inv cancelled
  obtain ⟨lower, settled⟩ := run_rank inv (Call.settled_of_cancelled cancelled) stepped
  by_cases returned : q₁.calls i = .returned
  · exact ⟨q₁, .single ⟨i, branch, stepped⟩, returned⟩
  · obtain ⟨q', run, done⟩ :=
      (inv.move (step_move stepped)).own_return (Call.cancelled_of_settled settled returned)
    exact ⟨q', .head ⟨i, branch, stepped⟩ run, done⟩
termination_by (q.calls i).rank
decreasing_by exact lower

theorem pending_setCall {q : Queue α} {i : Nat} {c : Call α} (same : c.live = (q.calls i).live) :
    (q.setCall i c).pending = q.pending := by
  unfold Queue.pending
  refine Finset.filter_congr fun j _ => ?_
  by_cases here : j = i
  · subst here; simp [same]
  · simp [here]

/-- Cancelling the context of a `Write` or a `Read` in flight keeps the calls in flight. -/
theorem cancel_live {q : Queue α} {i : Nat} (live : (q.calls i).live = true)
    (notClose : ∀ pc, q.calls i ≠ .close pc) :
    ∃ q', step v q (.cancel i) = some q' ∧ (q'.calls i).cancelled = true ∧
      q'.pending = q.pending := by
  cases current : q.calls i with
  | write event ctxDone pc =>
    exact ⟨q.setCall i (.write event true pc), by simp [step, current], by simp [Call.cancelled],
      pending_setCall (by simp [current, Call.live])⟩
  | read ctxDone =>
    exact ⟨q.setCall i (.read true), by simp [step, current], by simp [Call.cancelled],
      pending_setCall (by simp [current, Call.live])⟩
  | close pc => exact absurd current (notClose pc)
  | unborn | returned => simp [current, Call.live] at live

/-- **Every call in flight can return.** Once a `Close` has been called, the calls' own
statements drain the queue (`Invariant.drain`); before that, cancelling the context of a
`Write` or a `Read` in flight lets it return, one call after another. -/
theorem Invariant.quiesce {q : Queue α} (inv : Invariant v q) :
    ∃ q', ReflTransGen (InternalSteps v) q q' ∧ q'.pending = ∅ := by
  rcases q.pending.eq_empty_or_nonempty with empty | ⟨i, busy⟩
  · exact ⟨q, .refl, empty⟩
  by_cases called : ∃ c, (∃ pc, q.calls c = .close pc) ∨
      ∃ err shutdown, (c, Returned.close err shutdown) ∈ q.log
  · obtain ⟨q₁, run₁, inv₁, begun⟩ := inv.begin called
    obtain ⟨q', run', empty, -⟩ := inv₁.drain begun
    exact ⟨q', (run₁.trans run').mono fun _ _ => RunSteps.internal, empty⟩
  · obtain ⟨q₁, cancel, cancelled, same⟩ := cancel_live (v := v) (Finset.mem_filter.mp busy).2
      fun pc current => called ⟨i, .inl ⟨pc, current⟩⟩
    have inv₁ := inv.move (step_move cancel)
    obtain ⟨q₂, run₂, returned⟩ := inv₁.own_return cancelled
    have fewer : q₂.pending ⊂ q.pending := by
      refine (Finset.ssubset_iff_of_subset (same ▸ RunSteps.pending_subset run₂)).mpr
        ⟨i, busy, ?_⟩
      simp [Queue.pending, returned, Call.live]
    obtain ⟨q', run', empty⟩ := (inv₁.steps (RunSteps.steps run₂)).quiesce
    exact ⟨q', .head ⟨.cancel i, rfl, cancel⟩
      ((run₂.mono fun _ _ => RunSteps.internal).trans run'), empty⟩
termination_by q.pending.card
decreasing_by exact Finset.card_lt_card fewer

end Quiesce

/-! ### What a call keeps -/

section Kinds

variable {q q' : Queue α}

/-- Every call below `nextId` has been made. -/
def Started (q : Queue α) : Prop := ∀ i, i < q.nextId → q.calls i ≠ .unborn

/-- Making a call below `nextId` keeps every call there started. -/
theorem Started.update (started : Started q) {id : Nat} {call : Call α}
    (calls : q'.calls = Function.update q.calls id call) (nextId : q'.nextId = q.nextId)
    (made : call ≠ .unborn) : Started q' := by
  intro i below
  rw [calls, Function.update_apply]
  split_ifs
  · exact made
  · exact started i (nextId ▸ below)

theorem Started.move (started : Started q) (move : Move v q q') : Started q' := by
  cases move with
  | invokeWrite | invokeRead | invokeClose =>
    intro i below
    simp only [invoke_calls, invoke_nextId, Function.update_apply] at below ⊢
    split_ifs
    · nofun
    · exact started i (by omega)
  | panic => exact started
  | handoff writer reader event ctxDone =>
    have sending : Started (q.setCall writer (.write event ctxDone (.releasing none))) :=
      started.update rfl rfl nofun
    exact sending.update rfl rfl nofun
  | _ => exact started.update rfl rfl nofun

theorem started_reachable {size : Nat} (reach : Reachable v size q) : Started q := by
  induction reach with
  | refl => exact fun _ below => absurd below (Nat.not_lt_zero _)
  | tail _ stepped started => exact started.move (step_move stepped.choose_spec)

/-- Call `r` is a `Read` in flight, or has returned what a `Read` returns. -/
def ReadsAt (q : Queue α) (r : Nat) : Prop :=
  (∃ ctxDone, q.calls r = .read ctxDone) ∨ ∃ result, q.log.lookup r = some (.read result)

/-- **A `Read` stays a `Read` until it returns, and then it has logged what a `Read` returns.** -/
theorem Invariant.readsAt_step (inv : Invariant v q) {r : Nat} (reads : ReadsAt q r)
    {action : Action α} (stepped : step v q action = some q') : ReadsAt q' r := by
  rcases reads with ⟨ctxDone, current⟩ | ⟨result, found⟩
  swap
  · obtain ⟨rest, grown⟩ := (step_move stepped).log_grows
    exact .inr ⟨result, by rw [← grown, List.lookup_append, found]; rfl⟩
  have fresh : q.log.lookup r = none := List.lookup_eq_none_iff.mpr fun ⟨i, result⟩ mem => by
    have returned := inv.delivery.logged i result mem
    simp only [bne_iff_ne, ne_eq]
    rintro rfl
    simp [current] at returned
  have logs : ∀ result, (q.log ++ [(r, Returned.read result)]).lookup r = some (.read result) :=
    fun _ => by simp [List.lookup_append, fresh]
  have stays : q'.calls r = q.calls r → ReadsAt q' r := fun same => .inl ⟨ctxDone, same.trans current⟩
  cases action with
  | write | read | close =>
    cases stepped
    exact stays (Function.update_noteq (inv.unborn.lt (by simp [current])).ne _ _)
  | cancel j =>
    by_cases here : r = j
    · subst here
      simp only [step, current] at stepped
      cases stepped
      exact .inl ⟨true, by simp⟩
    · simp only [step] at stepped
      split at stepped <;> cases stepped <;> exact stays (Function.update_noteq here _ _)
  | run j branch =>
    by_cases here : r = j
    · subst here
      simp only [step, current] at stepped
      unfold readStep at stepped
      split at stepped <;> (try split at stepped) <;> (try split_ifs at stepped) <;> cases stepped <;>
        exact .inr ⟨_, logs _⟩
    · exact stays (run_frame stepped here)
  | handoff writer reader =>
    simp only [step, handoff] at stepped
    split at stepped
    · split_ifs at stepped
      cases stepped
      rename_i currentWriter _ _ _
      by_cases isReader : r = reader
      · subst isReader
        exact .inr ⟨_, logs _⟩
      · have isWriter : r ≠ writer := by rintro rfl; simp [current] at currentWriter
        exact stays (by simp [Queue.finish, Queue.setCall, Function.update_noteq isReader,
          Function.update_noteq isWriter])
    · cases stepped

theorem InternalSteps.steps {q q' : Queue α} (stepped : InternalSteps v q q') : Steps v q q' :=
  let ⟨action, _, stepped⟩ := stepped
  ⟨action, stepped⟩

theorem InternalSteps.nextId (run : ReflTransGen (InternalSteps v) q q') : q'.nextId = q.nextId := by
  induction run with
  | refl => rfl
  | tail _ stepped same =>
    obtain ⟨action, internal, stepped⟩ := stepped
    rw [step_internal_nextId internal stepped, same]

theorem ReadsAt.of_steps (inv : Invariant v q) {r : Nat} (reads : ReadsAt q r)
    (run : ReflTransGen (InternalSteps v) q q') : ReadsAt q' r := by
  induction run with
  | refl => exact reads
  | tail run stepped reads' =>
    obtain ⟨action, -, stepped⟩ := stepped
    exact (inv.steps (run.mono fun _ _ => InternalSteps.steps)).readsAt_step reads' stepped

/-- A call that starts leaves every `Read` made before it as it was. -/
theorem ReadsAt.invoke (unborn : Unborn q) {r : Nat} (reads : ReadsAt q r) (call : Call α) :
    ReadsAt (q.invoke call) r := by
  rcases reads with ⟨ctxDone, current⟩ | found
  · have made : r ≠ q.nextId := (unborn.lt (i := r) (by simp [current])).ne
    exact .inl ⟨ctxDone, by simp [Function.update_noteq made, current]⟩
  · exact .inr found

end Kinds

/-- **A call whose context is done returns promptly, whatever the other goroutines do.** From
every reachable state, in both versions of `Close`, and over every schedule of the machine, a
`Write` or a `Read` whose context is done runs at most `Call.rank` statements of its own (four,
or one for a `Read`), and at every point until it has returned it can run one more. -/
theorem cancelled_call_returns (v : CloseVersion) (size : Nat) (q : Queue α)
    (reach : Reachable v size q) (id : Nat) (cancelled : (q.calls id).cancelled = true)
    (actions : List (Action α)) (q' : Queue α) (ran : run v q actions = some q') :
    (actions.filter (Action.runs id)).length ≤ (q.calls id).rank ∧
      (q'.calls id ≠ .returned → ∃ branch q'', step v q' (.run id branch) = some q'') := by
  have inv := invariant_reachable reach
  have settled : (q.calls id).cancelledOrReturned = true := by
    cases current : q.calls id <;> simp_all [Call.cancelledOrReturned, Call.cancelled]
  obtain ⟨count, settled'⟩ := run_count inv settled ran
  refine ⟨by omega, fun running => cancelled_enabled (inv.steps (steps_of_run ran)) ?_⟩
  cases current : q'.calls id <;> simp_all [Call.cancelledOrReturned]

/-- `TestInMemoryQueue_WriteWithCanceledContext`: a queue of size one filled by a first `Write`,
then a second `Write` whose context is already cancelled. -/
def canceledWrite : List (Action Nat) :=
  [.write 1 false, .run 0 0, .run 0 0, .run 0 0, .run 0 0, .write 2 true]

def canceledWriteState : Queue Nat :=
  (run .setsClosedLast (newInMemoryQueue 1) canceledWrite).getD (newInMemoryQueue 1)

theorem canceledWriteState_reachable : Reachable .setsClosedLast 1 canceledWriteState :=
  steps_of_run (rfl : run .setsClosedLast (newInMemoryQueue 1) canceledWrite =
    some canceledWriteState)

/-- Then the second `Write` takes the token, as Go's `select` may with both cases ready, and
finds the queue open. -/
def canceledWriteSelecting : Queue Nat :=
  (run .setsClosedLast canceledWriteState [.run 1 0, .run 1 0]).getD canceledWriteState

/-- The second `Write` has run two of its four statements and can run a third. -/
theorem cancelled_call_returns_canceledWrite :
    Reachable .setsClosedLast 1 canceledWriteState ∧
      (canceledWriteState.calls 1).cancelled = true ∧
      run .setsClosedLast canceledWriteState [.run 1 0, .run 1 0] = some canceledWriteSelecting ∧
      (([.run 1 0, .run 1 0] : List (Action Nat)).filter (Action.runs 1)).length ≤
        (canceledWriteState.calls 1).rank ∧
      (canceledWriteSelecting.calls 1 ≠ .returned →
        ∃ branch q'', step .setsClosedLast canceledWriteSelecting (.run 1 branch) = some q'') :=
  have ran : run .setsClosedLast canceledWriteState [.run 1 0, .run 1 0] =
      some canceledWriteSelecting := rfl
  ⟨canceledWriteState_reachable, rfl, ran, cancelled_call_returns .setsClosedLast 1
    canceledWriteState canceledWriteState_reachable 1 rfl _ _ ran⟩

example : canceledWriteSelecting.calls 1 = .write 2 true .selecting ∧
    canceledWriteSelecting.tokens = 1 := ⟨rfl, rfl⟩

end A2aGo.EventQueue
