import A2aGo.Handler.Order
import A2aGo.EventQueue.Cancel

/-!
**Once contexts are cancelled, every `OnSendMessage` call returns.**

`OnSendMessage` waits only inside its queue's `Write` and `Read`, and both take the request's
context. The handler never closes a queue, so a `Read` on a queue that gets no event waits until
its context is done: the call below that never returns unless it is cancelled. With
cancellations, nothing is ever stuck: from every reachable state of the handler, the calls in
flight and their queues can bring every call to its return.

* `InnerSteps.queue`: a queue's run, taken inside the handler, moves no handler call;
* `ReadsPending`: the `Read` a call waits for is a `Read` of its queue, in flight or returned with
  what a `Read` returns;
* `running_returns`: every call in flight can return: the calls on its queue are brought to their
  returns (`EventQueue.Invariant.quiesce`), then the call runs its next statement, down to its
  `return`;
* `send_calls_return_once_cancelled`: **from every reachable state, some run with no new call,
  the queues' steps and cancellations included, ends with every call returned.**
-/

namespace A2aGo.Handler

open A2aGo.Protocol Relation
open A2aGo.EventQueue (Queue CloseVersion ReadsAt defaultMaxQueueSize)
open A2aGo.QueueManager (QueueRef)

variable {Meta : Type} {v : CloseVersion}

/-- A step on what is in flight: a statement of an `OnSendMessage` call, or a step of a queue on
the calls made on it, a cancellation included. No client calls. -/
def InnerSteps (v : CloseVersion) (s s' : Server Meta) : Prop :=
  (∃ id, step v s (.run id) = some s') ∨
    ∃ queue action, action.internal = true ∧ step v s (.queue queue action) = some s'

/-- Call `h` can return by steps on what is in flight. -/
def CanReturn (v : CloseVersion) (s : Server Meta) (h : Nat) : Prop :=
  ∃ s', ReflTransGen (InnerSteps v) s s' ∧ ∃ request, s'.calls h = .returned request

/-- The `Read` each call waits for at `event, err := queue.Read(ctx)`. -/
def ReadsPending (s : Server Meta) : Prop :=
  ∀ h request queue r, s.calls h = .running request (.reading queue (some r)) →
    ReadsAt (s.queues queue) r

/-- An `OnSendMessage` call in flight. -/
def SendCall.isRunning : SendCall Meta → Bool
  | .running _ _ => true
  | _ => false

/-- The calls in flight. -/
def Server.running (s : Server Meta) : Finset Nat :=
  (Finset.range s.nextId).filter fun h => (s.calls h).isRunning

/-! ### The `Read` a call waits for -/

section Reads

variable {s s' : Server Meta}

theorem ReadsPending.move (inv : Invariant v s) (pending : ReadsPending s) (move : Move v s s') :
    ReadsPending s' := by
  intro h request queue r current
  cases move with
  | send request' =>
    have other : h ≠ s.nextId := by rintro rfl; simp at current
    exact pending h request queue r (by simpa [other] using current)
  | panic => exact pending h request queue r current
  | missingTaskId id _ _ | checked id _ _ | get id _ _ _ _ _ | written id _ _ _ _ _
  | executeFailed id _ _ _ _ | executed id _ _ _ | received id _ _ _ _ _ _
  | readFailed id _ _ _ _ _ =>
    have other : h ≠ id := by rintro rfl; simp [Server.setCall, Server.finish] at current
    exact pending h request queue r (by simpa [Server.setCall, Server.finish, other] using current)
  | write id _ queue' _ _ _ =>
    have other : h ≠ id := by rintro rfl; simp [Server.setCall, Server.setQueue] at current
    have waiting := pending h request queue r
      (by simpa [Server.setCall, Server.setQueue, other] using current)
    simp only [Server.setQueue, Function.update_apply]
    split_ifs with same
    · subst same
      exact waiting.invoke (EventQueue.invariant_reachable (inv.queues queue)).unborn _
    · exact waiting
  | read id _ queue' _ =>
    simp only [Server.setQueue, Function.update_apply]
    by_cases here : h = id
    · subst here
      simp [Server.setCall, Server.setQueue] at current
      obtain ⟨-, rfl, rfl⟩ := current
      simpa using .inl ⟨false, by simp⟩
    · have waiting := pending h request queue r
        (by simpa [Server.setCall, Server.setQueue, here] using current)
      split_ifs with same
      · subst same
        exact waiting.invoke (EventQueue.invariant_reachable (inv.queues queue)).unborn _
      · exact waiting
  | queue queue' action q internal stepped =>
    have waiting := pending h request queue r current
    simp only [Server.setQueue, Function.update_apply]
    split_ifs with same
    · subst same
      exact (EventQueue.invariant_reachable (inv.queues queue)).readsAt_step waiting stepped
    · exact waiting

theorem readsPending_reachable (reach : Reachable v s) : ReadsPending s := by
  induction reach with
  | refl => intro h _ _ _ current; simp [newHandler] at current
  | tail reached stepped pending =>
    obtain ⟨action, stepped⟩ := stepped
    exact pending.move (invariant_reachable reached) (step_move stepped)

end Reads

/-! ### Steps on what is in flight -/

section Inner

variable {s s' : Server Meta}

theorem InnerSteps.steps (stepped : InnerSteps v s s') : Steps v s s' := by
  rcases stepped with ⟨id, stepped⟩ | ⟨queue, action, -, stepped⟩
  exacts [⟨_, stepped⟩, ⟨_, stepped⟩]

theorem Reachable.inner (reach : Reachable v s) (run : ReflTransGen (InnerSteps v) s s') :
    Reachable v s' :=
  reach.trans (run.mono fun _ _ => InnerSteps.steps)

/-- **A queue's run, taken inside the handler**, moves no handler call. -/
theorem InnerSteps.queue {queue : QueueRef} {q' : Queue (Event Meta)}
    (run : ReflTransGen (EventQueue.InternalSteps v) (s.queues queue) q') :
    ReflTransGen (InnerSteps v) s (s.setQueue queue q') := by
  induction run with
  | refl =>
    have same : s.setQueue queue (s.queues queue) = s := by simp [Server.setQueue]
    rw [same]
  | tail _ stepped run =>
    obtain ⟨action, internal, stepped⟩ := stepped
    refine run.tail (.inr ⟨queue, action, internal, ?_⟩)
    simp [step, internal, Server.setQueue, stepped]

/-- A step on what is in flight starts no call. -/
theorem InnerSteps.nextId (stepped : InnerSteps v s s') : s'.nextId = s.nextId := by
  rcases stepped with ⟨id, stepped⟩ | ⟨queue, action, internal, stepped⟩
  · simp only [step] at stepped
    split at stepped
    · unfold sendStep at stepped
      split at stepped <;> (try split at stepped) <;> (try split_ifs at stepped) <;>
        cases stepped <;> rfl
    · cases stepped
  · simp only [step, internal, if_true] at stepped
    obtain ⟨q, -, rfl⟩ := Option.map_eq_some'.mp stepped
    rfl

/-- Steps on what is in flight take no call into flight. -/
theorem InnerSteps.running_subset (run : ReflTransGen (InnerSteps v) s s') :
    s'.running ⊆ s.running := by
  induction run with
  | refl => exact Finset.Subset.refl _
  | tail _ stepped subset =>
    refine Finset.Subset.trans (fun h mem => ?_) subset
    simp only [Server.running, Finset.mem_filter, Finset.mem_range] at mem ⊢
    rw [InnerSteps.nextId stepped] at mem
    obtain ⟨action, stepped'⟩ := InnerSteps.steps stepped
    rcases (step_move stepped').calls_frame h with same | ⟨request, pc, current⟩ | ⟨rfl, -⟩
    · exact ⟨mem.1, same ▸ mem.2⟩
    · exact ⟨mem.1, by simp [current, SendCall.isRunning]⟩
    · omega

end Inner

/-! ### Every call in flight can return -/

section Drive

variable {s : Server Meta} {h : Nat} {request : Request Meta}

theorem CanReturn.of_steps {s₁ : Server Meta} (run : ReflTransGen (InnerSteps v) s s₁)
    (next : CanReturn v s₁ h) : CanReturn v s h :=
  let ⟨s', run', returned⟩ := next
  ⟨s', run.trans run', returned⟩

theorem CanReturn.of_run {s₁ : Server Meta} {id : Nat} (stepped : step v s (.run id) = some s₁)
    (next : CanReturn v s₁ h) : CanReturn v s h :=
  .of_steps (.single (.inl ⟨id, stepped⟩)) next

theorem CanReturn.finish (made : Request Meta) (result : Except String (Event Meta))
    (stepped : step v s (.run h) = some (s.finish h made result)) : CanReturn v s h :=
  ⟨_, .single (.inl ⟨h, stepped⟩), made, by simp⟩

/-- A call waiting in `queue.Read(ctx)` returns once the calls on its queue have returned. -/
theorem reading_returns (reach : Reachable v s) {queue : QueueRef} {r : Nat}
    (current : s.calls h = .running request (.reading queue (some r))) : CanReturn v s h := by
  have queueInv := EventQueue.invariant_reachable ((invariant_reachable reach).queues queue)
  obtain ⟨q', run, empty⟩ := queueInv.quiesce
  have inv' := queueInv.steps (run.mono fun _ _ => EventQueue.InternalSteps.steps)
  obtain ⟨result, found⟩ : ∃ result, q'.log.lookup r = some (.read result) := by
    rcases (readsPending_reachable reach h request queue r current).of_steps queueInv run with
      ⟨ctxDone, inFlight⟩ | found
    · have pending : r ∈ q'.pending := by
        simp [EventQueue.Queue.pending, inFlight, EventQueue.Call.live,
          inv'.unborn.lt (i := r) (by simp [inFlight])]
      simp [empty] at pending
    · exact found
  have current' : (s.setQueue queue q').calls h = .running request (.reading queue (some r)) :=
    current
  refine .of_steps (InnerSteps.queue run) ?_
  rcases result with err | ⟨w, event⟩
  · exact .finish request (.error ("failed to read event from queue: " ++ err.text))
      (by simp [step, current', sendStep, found])
  · exact .finish request (if event.isSendMessageResult then .ok event
      else .error ("unexpected event type: " ++ event.typeName))
      (by simp [step, current', sendStep, found])

/-- A call at `queue.Read(ctx)` makes its `Read`, then returns. -/
theorem readCall_returns (reach : Reachable v s) {queue : QueueRef}
    (current : s.calls h = .running request (.reading queue none)) : CanReturn v s h := by
  have stepped : step v s (.run h) = some { ((s.setCall h
        (.running request (.reading queue (some (s.queues queue).nextId)))).setQueue
      queue ((s.queues queue).invoke (.read false))) with
      reads := s.reads ++ [(h, queue, (s.queues queue).nextId)] } := by
    simp [step, current, sendStep]
  exact .of_run stepped (reading_returns (.tail reach ⟨_, stepped⟩) (show _ =
    SendCall.running request (.reading queue (some (s.queues queue).nextId)) by simp [Server.setQueue]))

/-- Once `Execute` has returned, the call returns its error, or reads. -/
theorem executed_returns (reach : Reachable v s) {queue : QueueRef}
    (current : s.calls h = .running request (.executing queue [] none)) : CanReturn v s h := by
  cases failed : request.err with
  | some err => exact .finish request (.error err) (by simp [step, current, sendStep, failed])
  | none =>
    have stepped : step v s (.run h) =
        some (s.setCall h (.running request (.reading queue none))) := by
      simp [step, current, sendStep, failed]
    exact .of_run stepped (readCall_returns (.tail reach ⟨_, stepped⟩)
      (show _ = SendCall.running request (.reading queue none) by simp))

/-- An executor waiting for its `Write` goes on once the calls on its queue have returned. -/
theorem written_returns (reach : Reachable v s) {queue : QueueRef} {rest : List (Event Meta)}
    {w : Nat} (current : s.calls h = .running request (.executing queue rest (some w)))
    (next : ∀ s', Reachable v s' → s'.calls h = .running request (.executing queue rest none) →
      CanReturn v s' h) : CanReturn v s h := by
  have inv := invariant_reachable reach
  have queueReach := inv.queues queue
  obtain ⟨q', run, empty⟩ := (EventQueue.invariant_reachable queueReach).quiesce
  have reach' := queueReach.trans (run.mono fun _ _ => EventQueue.InternalSteps.steps)
  have facts := inv.calls h
  have order := order_reachable reach h
  rw [current] at facts order
  have below : w < q'.nextId := by
    rw [EventQueue.InternalSteps.nextId run]
    exact (order.2.1 queue w (facts.2.2 w rfl)).2.1
  have returned : q'.calls w = .returned := by
    have made := EventQueue.started_reachable reach' w below
    have idle : w ∉ q'.pending := by simp [empty]
    simp only [EventQueue.Queue.pending, Finset.mem_filter, Finset.mem_range, not_and] at idle
    cases call : q'.calls w <;> simp_all [EventQueue.Call.live]
  obtain ⟨result, logged⟩ :=
    (EventQueue.invariant_reachable reach').delivery.returnedLogged w returned
  have found : (q'.log.lookup w).isSome := by
    simpa using (⟨result, logged⟩ : ∃ result, (w, result) ∈ q'.log)
  have current' : (s.setQueue queue q').calls h =
      .running request (.executing queue rest (some w)) := current
  have stepped : step v (s.setQueue queue q') (.run h) = some ((s.setQueue queue q').setCall h
      (.running request (.executing queue rest none))) := by
    simp [step, current', sendStep, found]
  exact .of_steps (InnerSteps.queue run) (.of_run stepped
    (next _ (.tail (reach.inner (InnerSteps.queue run)) ⟨_, stepped⟩) (by simp)))

/-- The executor writes its events one `Write` after another, then returns. -/
theorem executing_returns {queue : QueueRef} :
    ∀ (rest : List (Event Meta)) (s : Server Meta), Reachable v s →
      s.calls h = .running request (.executing queue rest none) → CanReturn v s h
  | [], _, reach, current => executed_returns reach current
  | event :: rest, s, reach, current => by
    have stepped : step v s (.run h) = some { ((s.setCall h (.running request
          (.executing queue rest (some (s.queues queue).nextId)))).setQueue
        queue ((s.queues queue).invoke (.write event false .acquiring))) with
        writes := s.writes ++ [(h, queue, (s.queues queue).nextId)] } := by
      simp [step, current, sendStep]
    exact .of_run stepped (written_returns (.tail reach ⟨_, stepped⟩) (show _ = SendCall.running
      request (.executing queue rest (some (s.queues queue).nextId)) by simp [Server.setQueue])
      (executing_returns rest))

/-- `GetOrCreate` always gives a queue, and the executor starts on it. -/
theorem getting_returns (reach : Reachable v s)
    (current : s.calls h = .running request .getting) : CanReturn v s h := by
  obtain ⟨queue, got, -⟩ := s.registry.exec_getOrCreate request.taskId
  cases exec : s.registry.exec (.getOrCreate request.taskId) with
  | mk registry ret =>
    rw [exec] at got
    subst got
    have stepped : step v s (.run h) = some { s.setCall h
        (.running request (.executing queue request.writes none)) with registry := registry } := by
      simp [step, current, sendStep, exec]
    exact .of_run stepped (executing_returns _ _ (.tail reach ⟨_, stepped⟩)
      (show _ = SendCall.running request (.executing queue request.writes none) by simp))

theorem checking_returns (reach : Reachable v s)
    (current : s.calls h = .running request .checking) : CanReturn v s h := by
  by_cases empty : request.taskId = ""
  · exact .finish request (.error "message is missing TaskID")
      (by simp [step, current, sendStep, empty])
  · have stepped : step v s (.run h) = some (s.setCall h (.running request .getting)) := by
      simp [step, current, sendStep, empty]
    exact .of_run stepped (getting_returns (.tail reach ⟨_, stepped⟩)
      (show _ = SendCall.running request .getting by simp))

/-- **Every call in flight can return**, at whichever statement it is. -/
theorem running_returns (reach : Reachable v s) {pc : SendAt Meta}
    (current : s.calls h = .running request pc) : CanReturn v s h := by
  cases pc with
  | checking => exact checking_returns reach current
  | getting => exact getting_returns reach current
  | executing queue rest write =>
    cases write with
    | none => exact executing_returns rest s reach current
    | some w => exact written_returns reach current (executing_returns rest)
  | reading queue read =>
    cases read with
    | none => exact readCall_returns reach current
    | some r => exact reading_returns reach current

/-- The calls in flight return one after another. -/
theorem Reachable.quiesce {s : Server Meta} (reach : Reachable v s) :
    ∃ s', ReflTransGen (InnerSteps v) s s' ∧ s'.running = ∅ := by
  rcases s.running.eq_empty_or_nonempty with empty | ⟨h, busy⟩
  · exact ⟨s, .refl, empty⟩
  obtain ⟨request, pc, current⟩ : ∃ request pc, s.calls h = .running request pc := by
    have running := (Finset.mem_filter.mp busy).2
    cases call : s.calls h <;> simp_all [SendCall.isRunning]
  obtain ⟨s₁, run, request', returned⟩ := running_returns reach current
  have fewer : s₁.running ⊂ s.running :=
    (Finset.ssubset_iff_of_subset (InnerSteps.running_subset run)).mpr
      ⟨h, busy, by simp [Server.running, returned, SendCall.isRunning]⟩
  obtain ⟨s', run', empty⟩ := (reach.inner run).quiesce
  exact ⟨s', run.trans run', empty⟩
termination_by s.running.card
decreasing_by exact Finset.card_lt_card fewer

end Drive

/-- **With cancellations, `OnSendMessage` never hangs.** From every reachable state of the
handler, over any executors and any interleaving so far, some run in which no client calls, the
calls in flight run their statements and their queues take their steps, contexts cancelled
included, ends with every `OnSendMessage` call returned. -/
theorem send_calls_return_once_cancelled (v : CloseVersion) (s : Server Meta)
    (reach : Reachable v s) :
    ∃ s', ReflTransGen (InnerSteps v) s s' ∧
      ∀ h, s'.calls h = .unborn ∨ ∃ request, s'.calls h = .returned request := by
  obtain ⟨s', run, empty⟩ := reach.quiesce
  refine ⟨s', run, fun h => ?_⟩
  have unborn := (invariant_reachable (reach.inner run)).unborn h
  cases call : s'.calls h with
  | unborn => exact .inl rfl
  | returned request => exact .inr ⟨request, rfl⟩
  | running request pc =>
    have below : h < s'.nextId := by
      by_contra past
      simp [unborn (by omega)] at call
    have mem : h ∈ s'.running := by simp [Server.running, below, call, SendCall.isRunning]
    simp [empty] at mem

/-- A call whose executor writes nothing and returns nil, waiting in `queue.Read(ctx)` on a new
queue. -/
def readWaiting : List (Action Unit) :=
  [.send ⟨"task-1", [], none⟩, .run 0, .run 0, .run 0, .run 0]

def readWaitingState : Server Unit := (run .setsClosedLast newHandler readWaiting).getD newHandler

theorem send_calls_return_once_cancelled_readWaiting :
    Reachable .setsClosedLast readWaitingState ∧
      ∃ s', ReflTransGen (InnerSteps .setsClosedLast) readWaitingState s' ∧
        ∀ h, s'.calls h = .unborn ∨ ∃ request, s'.calls h = .returned request :=
  have reach : Reachable .setsClosedLast readWaitingState :=
    steps_of_run (rfl : run .setsClosedLast newHandler readWaiting = some readWaitingState)
  ⟨reach, send_calls_return_once_cancelled .setsClosedLast readWaitingState reach⟩

/-- There the call cannot go on and its `Read` cannot take an event; cancelling its context lets
the `Read` return. -/
example : step .setsClosedLast readWaitingState (.run 0) = none ∧
    step .setsClosedLast readWaitingState (.queue 0 (.run 0 0)) = none ∧
    (step .setsClosedLast readWaitingState (.queue 0 (.cancel 0))).isSome := ⟨rfl, rfl, rfl⟩

end A2aGo.Handler
