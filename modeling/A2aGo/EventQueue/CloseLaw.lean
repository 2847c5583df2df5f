import A2aGo.EventQueue.Closing
import A2aGo.EventQueue.Drain

/-!
**The law of `Close`: every `Close` returns nil, and exactly one shuts the queue down.**

The safety half comes from `Closing`: a `Close` that returned returned nil and said whether it was
the first to lock `closeMu`; that first one is the only one on the shutdown path; after a `Close`
has returned no `Write` gets in. The liveness half comes from `Drain`: once a `Close` has been
called, the calls already made can all return by their own statements. A `Close` stays a `Close`
until it returns, so at the end of that run each `Close` has logged what the safety half says of
it.

* `closesAt_run`, `closesAt_runSteps`: a statement keeps a `Close` a `Close` until it returns, and
  then its return is in the log;
* `close_shuts_down_once`: **in every reachable state, in both versions of `Close`, the law of
  `Close` holds; and once a `Close` has been called, some run of the calls' own statements returns
  every call, every `Close` in flight with nil, and the first to lock `closeMu` having shut the
  queue down.**
-/

namespace A2aGo.EventQueue

open Relation

variable {α : Type} {v : CloseVersion}

/-- Call `c` is a `Close` in flight, or has returned what a `Close` returns. -/
def ClosesAt (q : Queue α) (c : Nat) : Prop :=
  (∃ pc, q.calls c = .close pc) ∨ ∃ err shutdown, (c, Returned.close err shutdown) ∈ q.log

section ClosesAt

variable {q q' : Queue α} {c : Nat}

/-- **A statement keeps a `Close` a `Close` until it returns**, and then its return is logged. -/
theorem closesAt_run (closes : ClosesAt q c) {id branch : Nat}
    (stepped : step v q (.run id branch) = some q') : ClosesAt q' c := by
  rcases closes with ⟨pc, current⟩ | ⟨err, shutdown, logged⟩
  · by_cases here : c = id
    · subst here
      simp only [step, current] at stepped
      unfold closeStep at stepped
      split at stepped <;> (try split_ifs at stepped) <;> cases stepped
      -- it returns, moves to its next statement, or panics and stays where it was
      all_goals first
        | exact Or.inr ⟨_, _, List.mem_append_right _ (List.mem_singleton_self _)⟩
        | exact Or.inl ⟨_, Function.update_same _ _ _⟩
        | exact Or.inl ⟨_, current⟩
    · exact .inl ⟨pc, (run_frame stepped here).trans current⟩
  · exact .inr ⟨err, shutdown, (step_move stepped).log_grows.subset logged⟩

theorem closesAt_runSteps (closes : ClosesAt q c) (run : ReflTransGen (RunSteps v) q q') :
    ClosesAt q' c := by
  induction run with
  | refl => exact closes
  | tail _ stepped reached =>
    obtain ⟨id, branch, stepped⟩ := stepped
    exact closesAt_run reached stepped

end ClosesAt

/-- **The law of `Close`.** In every reachable state: (1) every `Close` that returned returned
nil, and said it shut the queue down exactly when it was the first to lock `closeMu`; (2) once a
`Close` has returned, that first one has returned having shut the queue down; (3) a `Close` on
the shutdown path is the first to have locked; (4) a `Write` invoked after a `Close` returned
never sends, in any run from there, and returns an error if it returns; (5) a step sends at most
one event into `events`, and only while `events` is open; and (6) once a `Close` has been called,
some run in which only the calls already made run their own statements returns every call: each
`Close` in flight returns nil, saying it shut the queue down exactly when it was the first to lock
`closeMu`, and that first one has returned having shut the queue down. -/
theorem close_shuts_down_once (v : CloseVersion) (size : Nat) (q : Queue α)
    (reach : Reachable v size q) :
    (∀ i err shutdown, (i, Returned.close err shutdown) ∈ q.log →
      err = none ∧ (shutdown = true ↔ q.lockOrder.head? = some i)) ∧
    ((∃ i err shutdown, (i, Returned.close err shutdown) ∈ q.log) →
      ∃ first, q.lockOrder.head? = some first ∧ (first, Returned.close none true) ∈ q.log) ∧
    (∀ i pc, q.calls i = .close pc → pc.shutsDown = true → q.lockOrder.head? = some i) ∧
    (∀ later, ReflTransGen (Steps v) q later →
      (∃ i err shutdown, (i, Returned.close err shutdown) ∈ q.log) →
      ∀ w, q.nextId ≤ w → w ∉ later.senders ∧
        ∀ err, (w, Returned.write err) ∈ later.log → err ≠ none) ∧
    (∀ q', Steps v q q' →
      q'.sent = q.sent ∨
        (q.eventsClosed = false ∧ ∃ w event, q'.sent = q.sent ++ [(w, event)])) ∧
    ((∃ c, ClosesAt q c) →
      ∃ q', ReflTransGen (RunSteps v) q q' ∧
        (∀ i, q'.calls i = .unborn ∨ q'.calls i = .returned) ∧
        (∀ c pc, q.calls c = .close pc → ∃ shutdown, (c, Returned.close none shutdown) ∈ q'.log ∧
          (shutdown = true ↔ q'.lockOrder.head? = some c)) ∧
        ∃ first, q'.lockOrder.head? = some first ∧ (first, Returned.close none true) ∈ q'.log) := by
  have inv := invariant_reachable reach
  refine ⟨fun i err shutdown returned => ?_, fun ⟨i, err, shutdown, returned⟩ =>
    inv.shutdown_logged returned, fun i pc current shuts =>
    inv.shutdown.first_of_shutsDown current shuts, ?_, fun q' ⟨action, stepped⟩ =>
    (step_move stepped).sent, ?_⟩
  · obtain ⟨none, shuts, -⟩ := inv.closeReturns.results i err shutdown returned
    exact ⟨none, shuts⟩
  · rintro later steps ⟨i, err, shutdown, returned⟩ w after
    have start : LateWrites q.nextId q :=
      ⟨(inv.closeReturns.results i err shutdown returned).2.2,
        fun w _ _ _ after called => by simp [inv.unborn w after] at called,
        fun w after mem => by have := inv.delivery.started w mem; omega⟩
    have late := start.steps steps
    refine ⟨late.notSent w after, fun err logged => ?_⟩
    have delivery := (invariant_reachable (reach.trans steps)).delivery
    exact fun nil => late.notSent w after ((delivery.writeReturns w err logged).mp nil)
  · rintro ⟨c, closes⟩
    obtain ⟨q', run, inv', -, settled⟩ := inv.settle ⟨c, closes⟩
    have returned : ∀ c, ClosesAt q c → ∃ err shutdown, (c, Returned.close err shutdown) ∈ q'.log :=
      fun c closes => by
        rcases closesAt_runSteps closes run with ⟨pc, current⟩ | logged
        · rcases settled c with same | same <;> rw [current] at same <;> cases same
        · exact logged
    refine ⟨q', run, settled, fun c pc current => ?_, ?_⟩
    · obtain ⟨err, shutdown, logged⟩ := returned c (.inl ⟨pc, current⟩)
      obtain ⟨rfl, shuts, -⟩ := inv'.closeReturns.results c err shutdown logged
      exact ⟨shutdown, logged, shuts⟩
    · obtain ⟨err, shutdown, logged⟩ := returned c closes
      exact inv'.shutdown_logged logged

/-- `TestInMemoryQueue_Close` with a second `Close`: `writeCloseRead` until its first `Close` has
returned, then a second `Close` that has locked `closeMu` and is at its check of `q.closed`. -/
def closeAgain : List (Action Nat) :=
  writeCloseRead.take 19 ++ [.close, .run 3 0]

def closeAgainState : Queue Nat :=
  (run .setsClosedLast (newInMemoryQueue 3) closeAgain).getD (newInMemoryQueue 3)

theorem close_shuts_down_once_closeAgain :
    Reachable .setsClosedLast 3 closeAgainState ∧ closeAgainState.calls 3 = .close .checking ∧
    (∀ i err shutdown, (i, Returned.close err shutdown) ∈ closeAgainState.log →
      err = none ∧ (shutdown = true ↔ closeAgainState.lockOrder.head? = some i)) ∧
    ((∃ i err shutdown, (i, Returned.close err shutdown) ∈ closeAgainState.log) →
      ∃ first, closeAgainState.lockOrder.head? = some first ∧
        (first, Returned.close none true) ∈ closeAgainState.log) ∧
    (∀ i pc, closeAgainState.calls i = .close pc → pc.shutsDown = true →
      closeAgainState.lockOrder.head? = some i) ∧
    (∀ later, ReflTransGen (Steps .setsClosedLast) closeAgainState later →
      (∃ i err shutdown, (i, Returned.close err shutdown) ∈ closeAgainState.log) →
      ∀ w, closeAgainState.nextId ≤ w → w ∉ later.senders ∧
        ∀ err, (w, Returned.write err) ∈ later.log → err ≠ none) ∧
    (∀ q', Steps .setsClosedLast closeAgainState q' →
      q'.sent = closeAgainState.sent ∨ (closeAgainState.eventsClosed = false ∧
        ∃ w event, q'.sent = closeAgainState.sent ++ [(w, event)])) ∧
    ((∃ c, ClosesAt closeAgainState c) →
      ∃ q', ReflTransGen (RunSteps .setsClosedLast) closeAgainState q' ∧
        (∀ i, q'.calls i = .unborn ∨ q'.calls i = .returned) ∧
        (∀ c pc, closeAgainState.calls c = .close pc →
          ∃ shutdown, (c, Returned.close none shutdown) ∈ q'.log ∧
            (shutdown = true ↔ q'.lockOrder.head? = some c)) ∧
        ∃ first, q'.lockOrder.head? = some first ∧ (first, Returned.close none true) ∈ q'.log) :=
  have reach : Reachable .setsClosedLast 3 closeAgainState :=
    steps_of_run (rfl : run .setsClosedLast (newInMemoryQueue 3) closeAgain = some closeAgainState)
  ⟨reach, rfl, close_shuts_down_once .setsClosedLast 3 closeAgainState reach⟩

/-- In that state the first `Close` has returned having shut the queue down, and the second holds
`closeMu`, second in the lock order. -/
example : closeAgainState.log =
      [(0, .write none), (1, .write none), (2, .close none true)] ∧
    closeAgainState.lockOrder = [2, 3] := ⟨rfl, rfl⟩

end A2aGo.EventQueue
