import A2aGo.Handler.Cancel

/-!
**An executor that writes more events than the queue holds blocks `OnSendMessage` for good.**

`OnSendMessage` makes its one `Read` only after `Execute` has returned, and the queue the manager
makes for a TaskID holds `defaultMaxQueueSize` events. So an executor that writes more than that,
with no other call on its TaskID, fills the queue and then waits in its next `Write`, whose
`select` has no case ready: the events cannot go anywhere before the `Read` that comes after
`Execute`.

* `run_write_alone`: a `Write` alone on an open queue with room sends and returns in four
  statements;
* `internal_step_cancels`: on a queue whose only call in flight is a `Write` waiting in its
  `select` on a full `events`, the only step is a cancellation;
* `Filling`, `Filling.next`: the call alone, its executor past its first `k` events, all sent;
  six steps send one more;
* `send_blocks_past_capacity`: **for every request with a TaskID whose executor writes more than
  `defaultMaxQueueSize` events, the handler serving it alone reaches a state where the call is in
  flight and the only steps that can happen are a new call and a cancellation.**
-/

namespace A2aGo.EventQueue

open Relation

variable {α : Type} {v : CloseVersion} {q q' : Queue α}

theorem InternalSteps.of_run {actions : List (Action α)} (ran : run v q actions = some q')
    (internal : ∀ action ∈ actions, action.internal = true) :
    ReflTransGen (InternalSteps v) q q' := by
  induction actions generalizing q with
  | nil => cases ran; exact .refl
  | cons action rest ih =>
    obtain ⟨next, stepped, rest'⟩ := Option.bind_eq_some.mp ran
    exact .head ⟨action, internal action (List.mem_cons_self _ _), stepped⟩
      (ih rest' fun a mem => internal a (List.mem_cons_of_mem _ mem))

/-- **A `Write` alone on an open queue with room** takes the token, finds `closed` false, sends
its event and gives the token back. -/
theorem run_write_alone (event : α) (free : q.tokens = 0) (opened : q.closed = false)
    (eventsOpen : q.eventsClosed = false) (room : q.events.length < q.size) :
    ∃ q', run v (q.invoke (.write event false .acquiring)) (List.replicate 4 (.run q.nextId 0)) =
        some q' ∧
      q'.calls = Function.update q.calls q.nextId .returned ∧
      q'.events = q.events ++ [(q.nextId, event)] ∧ q'.log = q.log ++ [(q.nextId, .write none)] ∧
      q'.tokens = 0 ∧ q'.size = q.size ∧ q'.closed = false ∧
      q'.closeChanClosed = q.closeChanClosed ∧ q'.eventsClosed = false := by
  have ran : run v (q.invoke (.write event false .acquiring)) (List.replicate 4 (.run q.nextId 0)) =
      some { (q.invoke (.write event false .acquiring)).finish q.nextId (.write none) with
        events := q.events ++ [(q.nextId, event)], sent := q.sent ++ [(q.nextId, event)] } := by
    simp only [List.replicate, run, step, invoke_calls, setCall_calls, Function.update_same,
      writeStep, Queue.invoke, Queue.setCall, free, opened, eventsOpen, room, Nat.zero_lt_one,
      if_true, Option.some_bind, Nat.lt_add_one, Bool.false_eq_true, ite_false, Nat.add_sub_cancel,
      Queue.finish, Function.update_idem]
  exact ⟨_, ran, by simp only [Queue.finish, Queue.invoke, Function.update_idem], rfl, rfl, free,
    rfl, opened, rfl, eventsOpen⟩

/-- On an open queue, a `Write` alone takes the token and comes to its `select`. -/
theorem run_write_selecting (event : α) (free : q.tokens = 0) (opened : q.closed = false) :
    ∃ q', run v (q.invoke (.write event false .acquiring)) (List.replicate 2 (.run q.nextId 0)) =
        some q' ∧
      q'.calls = Function.update q.calls q.nextId (.write event false .selecting) ∧
      q'.events = q.events ∧ q'.log = q.log ∧ q'.size = q.size ∧
      q'.closeChanClosed = q.closeChanClosed ∧ q'.eventsClosed = q.eventsClosed := by
  have ran : run v (q.invoke (.write event false .acquiring)) (List.replicate 2 (.run q.nextId 0)) =
      some { (q.invoke (.write event false .acquiring)).setCall q.nextId
        (.write event false .selecting) with tokens := 1 } := by
    simp only [List.replicate, run, step, invoke_calls, setCall_calls, Function.update_same,
      writeStep, Queue.invoke, Queue.setCall, free, opened, Nat.zero_lt_one, if_true,
      Option.some_bind, Bool.false_eq_true, ite_false, Function.update_idem]
  exact ⟨_, ran, by simp only [Queue.setCall, Queue.invoke, Function.update_idem], rfl, rfl, rfl,
    rfl, rfl⟩

/-- **On a queue whose calls in flight are `Write`s waiting in their `select` on a full
`events`, with no context done and `closeChan` open, the only step is a cancellation.** -/
theorem internal_step_cancels
    (calls : ∀ i, q.calls i = .unborn ∨ q.calls i = .returned ∨
      ∃ event, q.calls i = .write event false .selecting ∧ q.size ≤ q.events.length)
    (signalled : q.closeChanClosed = false) (eventsOpen : q.eventsClosed = false)
    {action : Action α} (internal : action.internal = true) (stepped : step v q action = some q') :
    ∃ i, action = .cancel i := by
  cases action with
  | write | read | close => cases internal
  | cancel i => exact ⟨i, rfl⟩
  | run i branch =>
    rcases calls i with unborn | returned | ⟨event, current, full⟩
    · simp [step, unborn] at stepped
    · simp [step, returned] at stepped
    · have blocked : ¬ q.events.length < q.size := Nat.not_lt.mpr full
      rcases branch with _ | _ | _ | branch <;>
        simp [step, current, writeStep, signalled, eventsOpen, blocked] at stepped
  | handoff writer reader =>
    simp only [step, handoff] at stepped
    split at stepped
    · rename_i currentReader _
      rcases calls reader with same | same | ⟨event, same, -⟩ <;> simp [same] at currentReader
    · cases stepped

end A2aGo.EventQueue

namespace A2aGo.Handler

open A2aGo.Protocol Relation
open A2aGo.EventQueue (Queue CloseVersion defaultMaxQueueSize newInMemoryQueue)
open A2aGo.QueueManager (Registry QueueRef)

variable {Meta : Type} {v : CloseVersion}

/-- Call `0` alone, past the first `k` events of its executor, each sent and its `Write`
returned: queue `0`, the one of its TaskID, holds those `k` events and no call in flight, and
no other queue has a call. -/
structure Filling (s : Server Meta) (request : Request Meta) (k : Nat) : Prop where
  current : s.calls 0 = .running request (.executing 0 (request.writes.drop k) none)
  alone : ∀ h, h ≠ 0 → s.calls h = .unborn
  others : ∀ queue, queue ≠ 0 → s.queues queue = newInMemoryQueue defaultMaxQueueSize
  size : (s.queues 0).size = defaultMaxQueueSize
  events : (s.queues 0).events.length = k
  tokens : (s.queues 0).tokens = 0
  closed : (s.queues 0).closed = false
  signalled : (s.queues 0).closeChanClosed = false
  eventsClosed : (s.queues 0).eventsClosed = false
  idle : ∀ i, (s.queues 0).calls i = .unborn ∨ (s.queues 0).calls i = .returned

section Filling

variable {s : Server Meta} {request : Request Meta}

/-- `OnSendMessage(request)` checks its TaskID and gets the first queue the manager makes. -/
theorem filling_start (request : Request Meta) (named : request.taskId ≠ "") :
    ∃ s, Reachable v s ∧ Filling s request 0 := by
  have ran : run v newHandler [.send request, .run 0, .run 0] = some
      { (newHandler : Server Meta) with
        calls := Function.update (fun _ => .unborn) 0
          (.running request (.executing 0 request.writes none))
        nextId := 1
        registry := (Registry.empty.exec (.getOrCreate request.taskId)).1 } := by
    simp only [run, step, newHandler, Registry.empty, zero_add, sendStep, Server.setCall,
      Registry.exec, setQueue_queues, List.lookup_isSome_iff, beq_iff_eq, Prod.exists,
      exists_and_right, exists_eq_right', Option.bind_some, Option.some_bind, Function.update_same,
      named, if_false, Function.update_idem, AList.lookup_empty, List.length_nil,
      AList.insert_empty, List.nil_append]
  refine ⟨_, steps_of_run ran, ?_⟩
  constructor <;> simp [newHandler, newInMemoryQueue, Function.update_apply]

/-- The executor calls `Write` for its next event. -/
theorem Filling.call {k : Nat} (filling : Filling s request k)
    (more : k < request.writes.length) :
    ∃ s₁, step v s (.run 0) = some s₁ ∧
      s₁.calls 0 = .running request
        (.executing 0 (request.writes.drop (k + 1)) (some (s.queues 0).nextId)) ∧
      (∀ h, h ≠ 0 → s₁.calls h = s.calls h) ∧
      s₁.queues = Function.update s.queues 0
        ((s.queues 0).invoke (.write request.writes[k] false .acquiring)) := by
  have split : request.writes.drop k = request.writes[k] :: request.writes.drop (k + 1) :=
    List.drop_eq_getElem_cons more
  have called : step v s (.run 0) = some { ((s.setCall 0 (.running request (.executing 0
        (request.writes.drop (k + 1)) (some (s.queues 0).nextId)))).setQueue 0
      ((s.queues 0).invoke (.write request.writes[k] false .acquiring))) with
      writes := s.writes ++ [(0, 0, (s.queues 0).nextId)] } := by
    have current := filling.current
    rw [split] at current
    simp only [step, current, sendStep]
  exact ⟨_, called, by simp [Server.setCall, Server.setQueue],
    fun h other => by simp [Server.setCall, Server.setQueue, other],
    by simp [Server.setCall, Server.setQueue]⟩

/-- **Six steps send one more event**: the executor calls `Write`, which takes the token, finds
the queue open, sends into `events` and gives the token back; the executor goes on. -/
theorem Filling.next {k : Nat} (filling : Filling s request k) (room : k < defaultMaxQueueSize)
    (more : k < request.writes.length) :
    ∃ s', ReflTransGen (InnerSteps v) s s' ∧ Filling s' request (k + 1) := by
  obtain ⟨s₁, called, current₁, others₁, queues₁⟩ := filling.call (v := v) more
  obtain ⟨q', ran, calls', events', log', tokens', size', closed', signalled', eventsClosed'⟩ :=
    EventQueue.run_write_alone (v := v) request.writes[k] filling.tokens filling.closed
      filling.eventsClosed (by rw [filling.events, filling.size]; exact room)
  have sent := EventQueue.InternalSteps.of_run ran (by simp [EventQueue.Action.internal])
  have start : s₁.queues 0 = (s.queues 0).invoke (.write request.writes[k] false .acquiring) := by
    simp [queues₁]
  rw [← start] at sent
  have found : (q'.log.lookup (s.queues 0).nextId).isSome :=
    List.lookup_isSome_iff.mpr ⟨_, log' ▸ List.mem_append_right _ (List.mem_singleton_self _),
      by simp⟩
  have written : step v (s₁.setQueue 0 q') (.run 0) = some ((s₁.setQueue 0 q').setCall 0
      (.running request (.executing 0 (request.writes.drop (k + 1)) none))) := by
    simp [step, Server.setQueue, current₁, sendStep, found]
  refine ⟨_, (ReflTransGen.single (.inl ⟨0, called⟩)).trans
    ((InnerSteps.queue sent).tail (.inl ⟨0, written⟩)), ?_⟩
  constructor
  · simp [Server.setCall]
  · intro h other
    simp [Server.setCall, Server.setQueue, other, others₁ h other, filling.alone h other]
  · intro queue other
    simp [Server.setCall, Server.setQueue, other, queues₁, filling.others queue other]
  · simp [Server.setCall, Server.setQueue, size', filling.size]
  · simp [Server.setCall, Server.setQueue, events', filling.events]
  · simpa [Server.setCall, Server.setQueue] using tokens'
  · simpa [Server.setCall, Server.setQueue] using closed'
  · simp [Server.setCall, Server.setQueue, signalled', filling.signalled]
  · simpa [Server.setCall, Server.setQueue] using eventsClosed'
  · intro i
    simp only [Server.setCall, Server.setQueue, Function.update_same, calls',
      Function.update_apply]
    split_ifs
    · exact .inr rfl
    · exact filling.idle i

/-- The executor's events, up to the queue's capacity, are all sent. -/
theorem Filling.fill {k : Nat} (filling : Filling s request k) :
    ∀ n, k + n ≤ defaultMaxQueueSize → k + n ≤ request.writes.length →
      ∃ s', ReflTransGen (InnerSteps v) s s' ∧ Filling s' request (k + n) := by
  intro n
  induction n generalizing s k with
  | zero => exact fun _ _ => ⟨s, .refl, filling⟩
  | succ n ih =>
    intro room more
    obtain ⟨s₁, run₁, filling₁⟩ := filling.next (v := v) (by omega) (by omega)
    obtain ⟨s', run', filling'⟩ := ih filling₁ (by omega) (by omega)
    exact ⟨s', run₁.trans run', by rwa [Nat.add_right_comm, Nat.add_assoc] at filling'⟩

/-- **With the queue full, the next `Write` waits in its `select` for good**: it takes the token
and finds the queue open, then no step can happen but a new call or a cancellation. -/
theorem Filling.blocked (reach : Reachable v s) (filling : Filling s request defaultMaxQueueSize)
    (more : defaultMaxQueueSize < request.writes.length) :
    ∃ s', ReflTransGen (InnerSteps v) s s' ∧ (∃ pc, s'.calls 0 = .running request pc) ∧
      (∀ h, h ≠ 0 → s'.calls h = .unborn) ∧
      ∀ action s'', step v s' action = some s'' →
        (∃ r, action = .send r) ∨ ∃ queue i, action = .queue queue (.cancel i) := by
  obtain ⟨s₁, called, current₁, others₁, queues₁⟩ := filling.call (v := v) more
  obtain ⟨q', ran, calls', events', log', size', signalled', eventsClosed'⟩ :=
    EventQueue.run_write_selecting (v := v) request.writes[defaultMaxQueueSize] filling.tokens
      filling.closed
  have sent := EventQueue.InternalSteps.of_run ran (by simp [EventQueue.Action.internal])
  have start : s₁.queues 0 =
      (s.queues 0).invoke (.write request.writes[defaultMaxQueueSize] false .acquiring) := by
    simp [queues₁]
  rw [← start] at sent
  refine ⟨_, (ReflTransGen.single (.inl ⟨0, called⟩)).trans (InnerSteps.queue sent),
    ⟨_, by simpa [Server.setQueue] using current₁⟩,
    fun h other => by simp [Server.setQueue, others₁ h other, filling.alone h other], ?_⟩
  have queueInv := EventQueue.invariant_reachable ((invariant_reachable reach).queues 0)
  have unlogged : (s.queues 0).log.lookup (s.queues 0).nextId = none :=
    List.lookup_eq_none_iff.mpr fun ⟨i, result⟩ mem => by
      have returned := queueInv.delivery.logged i result mem
      simp only [bne_iff_ne, ne_eq]
      rintro rfl
      simp [queueInv.unborn (s.queues 0).nextId (Nat.le_refl _)] at returned
  intro action s'' stepped
  cases action with
  | send r => exact .inl ⟨r, rfl⟩
  | run h =>
    exfalso
    by_cases here : h = 0
    · subst here
      simp [step, Server.setQueue, current₁, sendStep, log', unlogged] at stepped
    · simp [step, Server.setQueue, others₁ h here, filling.alone h here] at stepped
  | queue queue action =>
    simp only [step] at stepped
    split_ifs at stepped with internal
    obtain ⟨q'', queueStepped, -⟩ := Option.map_eq_some'.mp stepped
    have waiting : (∀ i, ((s₁.setQueue 0 q').queues queue).calls i = .unborn ∨
        ((s₁.setQueue 0 q').queues queue).calls i = .returned ∨
        ∃ event, ((s₁.setQueue 0 q').queues queue).calls i = .write event false .selecting ∧
          ((s₁.setQueue 0 q').queues queue).size ≤
            ((s₁.setQueue 0 q').queues queue).events.length) ∧
        ((s₁.setQueue 0 q').queues queue).closeChanClosed = false ∧
        ((s₁.setQueue 0 q').queues queue).eventsClosed = false := by
      by_cases here : queue = 0
      · subst here
        refine ⟨fun i => ?_, by simp [Server.setQueue, signalled', filling.signalled],
          by simp [Server.setQueue, eventsClosed', filling.eventsClosed]⟩
        simp only [Server.setQueue, Function.update_same, calls', Function.update_apply]
        split_ifs
        · exact .inr (.inr ⟨_, rfl, by rw [size', events', filling.size, filling.events]⟩)
        · exact (filling.idle i).imp_right .inl
      · simp [Server.setQueue, here, queues₁, filling.others queue here, newInMemoryQueue]
    obtain ⟨i, rfl⟩ := EventQueue.internal_step_cancels waiting.1 waiting.2.1 waiting.2.2
      internal queueStepped
    exact .inr ⟨queue, i, rfl⟩

end Filling

/-- **An executor that writes more events than the queue holds blocks `OnSendMessage` for good.**
For every request with a TaskID whose executor writes more than `defaultMaxQueueSize` events, in
both versions of `Close`: the handler serving this one call reaches a state where the call is in
flight and no other call has been made, and where the only steps that can happen are a new call
and a cancellation. The `Read` that would empty the queue comes only after `Execute` returns. -/
theorem send_blocks_past_capacity (v : CloseVersion) (request : Request Meta)
    (named : request.taskId ≠ "") (many : defaultMaxQueueSize < request.writes.length) :
    ∃ s, Reachable v s ∧ (∃ pc, s.calls 0 = .running request pc) ∧
      (∀ h, h ≠ 0 → s.calls h = .unborn) ∧
      ∀ action s', step v s action = some s' →
        (∃ r, action = .send r) ∨ ∃ queue i, action = .queue queue (.cancel i) := by
  obtain ⟨s₀, reach₀, filling₀⟩ := filling_start (v := v) request named
  obtain ⟨s₁, run₁, filling₁⟩ := filling₀.fill defaultMaxQueueSize (by omega) (by omega)
  rw [Nat.zero_add] at filling₁
  have reach₁ := reach₀.inner run₁
  obtain ⟨s, run, blocked⟩ := filling₁.blocked reach₁ many
  exact ⟨s, reach₁.inner run, blocked⟩

/-- A request whose executor writes one event more than the queue holds. -/
def overflowRequest : Request Unit :=
  ⟨"task-1", List.replicate (defaultMaxQueueSize + 1) (taskMessage "m"), none⟩

theorem send_blocks_past_capacity_overflow :
    overflowRequest.taskId ≠ "" ∧ defaultMaxQueueSize < overflowRequest.writes.length ∧
      ∃ s, Reachable .setsClosedLast s ∧ (∃ pc, s.calls 0 = .running overflowRequest pc) ∧
        (∀ h, h ≠ 0 → s.calls h = .unborn) ∧
        ∀ action s', step .setsClosedLast s action = some s' →
          (∃ r, action = .send r) ∨ ∃ queue i, action = .queue queue (.cancel i) :=
  have named : overflowRequest.taskId ≠ "" := by decide
  have many : defaultMaxQueueSize < overflowRequest.writes.length := by simp [overflowRequest]
  ⟨named, many, send_blocks_past_capacity .setsClosedLast overflowRequest named many⟩

end A2aGo.Handler
