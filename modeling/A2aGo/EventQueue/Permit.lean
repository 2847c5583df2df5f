import A2aGo.EventQueue.Safety

/-!
**The semaphore's token is the region's occupant: taken once, given back once, never lost.**

`q.semaphore` is a channel of capacity one. A `Write` sends its token in `acquireWithContext` and
receives it in the deferred `release`; a `Close` that shuts the queue down does the same with
`acquire` and `release`. Between the two the call is in the region the semaphore guards
(`Call.holdsPermit`), and every way out of it runs the deferred release: a `Write` goes from the
closed check, and from each case of its `select`, to `.releasing`, and a `Close` from
`close(q.events)` or `q.closed = true` to `.releasing`.

* `PermitMove`, `Move.permitMove`: **a step leaves the region and the tokens as they were, or is
  one call's acquire, from no token to one, or one call's release, from one token to none**;
* `permit_counts_region`: in every reachable state the tokens count the calls in the region, at
  most one; the release of a call at it can always run; and every step is a `PermitMove`.
-/

namespace A2aGo.EventQueue

open A2aGo.Sync

variable {α : Type} {v : CloseVersion}

/-- At `acquireWithContext(ctx)` of a `Write`, or `acquire()` of a `Close`. -/
def Call.acquiresPermit : Call α → Bool
  | .write _ _ .acquiring | .close .acquiring => true
  | _ => false

/-- At the deferred `release()`. -/
def Call.releasesPermit : Call α → Bool
  | .write _ _ (.releasing _) | .close .releasing => true
  | _ => false

theorem Call.holdsPermit_of_releasesPermit {call : Call α} (releasing : call.releasesPermit) :
    call.holdsPermit := by
  rcases call with _ | ⟨_, _, pc⟩ | _ | pc | _ <;> (try cases pc) <;>
    first | rfl | cases releasing

/-! ### What a step does to the semaphore -/

/-- What a step does to the semaphore, in a state where the tokens count the region: nothing to
the tokens or to who is in the region; or one call's acquire, which takes the free token and
enters; or one call's release, which gives the token back and leaves. -/
inductive PermitMove (q q' : Queue α) : Prop
  | stay (tokens : q'.tokens = q.tokens)
      (region : ∀ j, (q'.calls j).holdsPermit = (q.calls j).holdsPermit)
  | acquire (i : Nat) (acquiring : (q.calls i).acquiresPermit) (free : q.tokens = 0)
      (tokens : q'.tokens = 1) (enters : (q'.calls i).holdsPermit)
      (others : ∀ j, j ≠ i → (q'.calls j).holdsPermit = (q.calls j).holdsPermit)
  | release (i : Nat) (releasing : (q.calls i).releasesPermit) (held : q.tokens = 1)
      (tokens : q'.tokens = 0) (leaves : (q'.calls i).holdsPermit = false)
      (others : ∀ j, j ≠ i → (q'.calls j).holdsPermit = (q.calls j).holdsPermit)

/-- A call that moves within the region, or outside it, is a step that stays. -/
theorem PermitMove.update {q q' : Queue α} {id : Nat} {call : Call α}
    (calls : q'.calls = Function.update q.calls id call) (tokens : q'.tokens = q.tokens)
    (same : call.holdsPermit = (q.calls id).holdsPermit) : PermitMove q q' :=
  .stay tokens fun j => by rw [calls]; exact holds_update_same same j

theorem holds_update_other {q : Queue α} {id j : Nat} {call : Call α} (other : j ≠ id) :
    (Function.update q.calls id call j).holdsPermit = (q.calls j).holdsPermit := by
  rw [Function.update_noteq other]

/-- **Every step is a `PermitMove`**, from a state where the tokens count the region. -/
theorem Move.permitMove {q q' : Queue α} (unborn : Unborn q)
    (counted : Counted (fun i => (q.calls i).holdsPermit) q.tokens) (move : Move v q q') :
    PermitMove q q' := by
  have fresh := unborn q.nextId (Nat.le_refl _)
  cases move with
  | invokeWrite | invokeRead | invokeClose =>
    exact .update rfl rfl (by simp [fresh, Call.holdsPermit])
  | cancelWrite id event ctxDone pc current =>
    exact .update rfl rfl (by cases pc <;> simp [current, Call.holdsPermit])
  | cancelRead id ctxDone current | readReceive id ctxDone entry rest current
  | readClosed id ctxDone current | readCancelled id current
  | writeAcquireCancelled id _ current | writeSend id _ _ current | writeSignalled id _ _ current
  | writeCancelled id _ current | closeLock id current | closeSetClosed id current
  | closeSignal id current | closeMarkClosed id current | closeUnlock id _ current =>
    exact .update rfl rfl (by simp [current, Call.holdsPermit])
  | writeCheck id event ctxDone current =>
    exact .update rfl rfl (by split <;> simp [current, Call.holdsPermit])
  | closeCheck id current =>
    exact .update rfl rfl
      (by split <;> cases v <;> simp [current, Call.holdsPermit, CloseVersion.shutdownStart])
  | closeEvents id current =>
    exact .update rfl rfl
      (by cases v <;> simp [current, Call.holdsPermit, CloseVersion.afterEventsClosed])
  | panic => exact .stay rfl fun _ => rfl
  | handoff writer reader event ctxDone readerDone currentWriter currentReader =>
    have other : reader ≠ writer := fun same => by simp [same, currentWriter] at currentReader
    exact .stay rfl fun j =>
      (holds_update_same (by simp [other, currentReader, Call.holdsPermit]) j).trans
        (holds_update_same (by simp [currentWriter, Call.holdsPermit]) j)
  | writeAcquire id event ctxDone current free | closeAcquire id current free =>
    exact .acquire id (by simp [current, Call.acquiresPermit]) (by omega) (by simp only; omega)
      (by simp [Call.holdsPermit]) fun j other => holds_update_other other
  | writeRelease id event ctxDone err current held | closeRelease id current held =>
    have one := counted.eq_one (i := id) (by simp [current, Call.holdsPermit])
    exact .release id (by simp [current, Call.releasesPermit]) one (by simp only; omega)
      (by simp [Call.holdsPermit]) fun j other => holds_update_other other

/-! ### Every reachable state -/

/-- The release of a call at it runs whenever the tokens count the region: the call holds the
token it gives back. -/
theorem release_runs {q : Queue α}
    (counted : Counted (fun i => (q.calls i).holdsPermit) q.tokens) {i : Nat}
    (releasing : (q.calls i).releasesPermit) :
    ∃ q', step v q (.run i 0) = some q' ∧ q'.tokens = 0 ∧
      (q'.calls i).holdsPermit = false := by
  have one := counted.eq_one (Call.holdsPermit_of_releasesPermit releasing)
  cases current : q.calls i with
  | write event ctxDone pc =>
    cases pc with
    | releasing err =>
      exact ⟨{ q.finish i (.write err) with tokens := q.tokens - 1 },
        by simp [step, current, writeStep, one], by simp only [one], by simp [Call.holdsPermit]⟩
    | _ => simp [current, Call.releasesPermit] at releasing
  | close pc =>
    cases pc with
    | releasing =>
      exact ⟨{ q.setCall i (.close (.unlocking true)) with tokens := q.tokens - 1 },
        by simp [step, current, closeStep, one], by simp only [one], by simp [Call.holdsPermit]⟩
    | _ => simp [current, Call.releasesPermit] at releasing
  | _ => simp [current, Call.releasesPermit] at releasing

/-- **The semaphore counts the region, and is never leaked or released twice.** In every
reachable state of a queue, under any interleaving of `Write`, `Read` and `Close` calls and any
cancellations, in both versions of `Close`: the channel holds one token when exactly one call is
in the region and none when no call is; a call at its deferred release can always run it, and
leaves the region with the channel empty; and every step either leaves the tokens and the region
as they were, or is one call's acquire from no token to one, or one call's release from one token
to none, so a call leaves the region only by its release. -/
theorem permit_counts_region (v : CloseVersion) (size : Nat) (q : Queue α)
    (reach : Reachable v size q) :
    Counted (fun i => (q.calls i).holdsPermit) q.tokens ∧
      (∀ i, (q.calls i).releasesPermit →
        ∃ q', step v q (.run i 0) = some q' ∧ q'.tokens = 0 ∧
          (q'.calls i).holdsPermit = false) ∧
      ∀ q', Steps v q q' → PermitMove q q' := by
  have inv := invariant_reachable reach
  refine ⟨inv.exclusion.permit, fun i => release_runs inv.exclusion.permit, ?_⟩
  rintro q' ⟨action, stepped⟩
  exact (step_move stepped).permitMove inv.unborn inv.exclusion.permit

theorem permit_counts_region_writeCloseRead :
    Reachable .setsClosedLast 3 writeCloseReadState ∧
      Counted (fun i => (writeCloseReadState.calls i).holdsPermit) writeCloseReadState.tokens ∧
      (∀ i, (writeCloseReadState.calls i).releasesPermit →
        ∃ q', step .setsClosedLast writeCloseReadState (.run i 0) = some q' ∧ q'.tokens = 0 ∧
          (q'.calls i).holdsPermit = false) ∧
      ∀ q', Steps .setsClosedLast writeCloseReadState q' → PermitMove writeCloseReadState q' :=
  ⟨writeCloseReadState_reachable,
    permit_counts_region .setsClosedLast 3 writeCloseReadState writeCloseReadState_reachable⟩

end A2aGo.EventQueue
