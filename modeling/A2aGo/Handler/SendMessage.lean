import A2aGo.Handler.Server
import A2aGo.EventQueue.Safety

/-!
**What `OnSendMessage` returns: an event of its TaskID's queue, in the order that queue got
them.**

Every call on one TaskID gets the one queue the manager keeps for it, and the handler never
destroys it. So an event an earlier call on that TaskID left in the queue, the events after the
first its `Execute` wrote, or those of an `Execute` that failed after writing, is the first
event the next call reads, before the events of its own `Execute`.

* `Invariant.move`: every step keeps the invariant;
* `Grows`: what a step never takes back: requests, registrations, the ghost records, the queues'
  returns;
* `send_returns_task_events`: the events returned are those the queue of the TaskID delivered to
  the calls' reads, which are a prefix of those the executors on that TaskID wrote, in order.
-/

namespace A2aGo.Handler

open A2aGo.Protocol Relation
open A2aGo.EventQueue (Queue CloseVersion QueueError defaultMaxQueueSize newInMemoryQueue)
open A2aGo.QueueManager (Registry QueueRef)

variable {Meta : Type} {v : CloseVersion}

/-- The request of call `h`, once made. -/
def Server.request (s : Server Meta) (h : Nat) : Option (Request Meta) := (s.calls h).request?

/-- The `Write` numbered `w` on `queue` was made by the executor of a call whose request writes
`event`. -/
def Server.Wrote (s : Server Meta) (queue : QueueRef) (w : Nat) (event : Event Meta) : Prop :=
  ∃ h request, (h, queue, w) ∈ s.writes ∧ s.request h = some request ∧
    event ∈ request.writes

/-- `queue` is the one registered for the TaskID of call `h`. -/
def Server.QueueOf (s : Server Meta) (h : Nat) (queue : QueueRef) : Prop :=
  ∃ request, s.request h = some request ∧ s.registry.queues.lookup request.taskId = some queue

/-- What a call past `GetOrCreate` knows of its queue, its events and its queue calls. -/
def CallFacts (s : Server Meta) (h : Nat) : SendCall Meta → Prop
  | .running request (.executing queue rest write) =>
    s.registry.queues.lookup request.taskId = some queue ∧ rest <:+ request.writes ∧
      ∀ w, write = some w → (h, queue, w) ∈ s.writes
  | .running request (.reading queue read) =>
    s.registry.queues.lookup request.taskId = some queue ∧
      ∀ r, read = some r → (h, queue, r) ∈ s.reads
  | _ => True

/-- The invariant of the handler. -/
structure Invariant (v : CloseVersion) (s : Server Meta) : Prop where
  queues : ∀ queue, EventQueue.Reachable v defaultMaxQueueSize (s.queues queue)
  unborn : ∀ h, s.nextId ≤ h → s.calls h = .unborn
  wf : s.registry.Wf
  calls : ∀ h, CallFacts s h (s.calls h)
  writes : ∀ h queue w, (h, queue, w) ∈ s.writes → s.QueueOf h queue
  reads : ∀ h queue r, (h, queue, r) ∈ s.reads →
    s.QueueOf h queue ∧ r < (s.queues queue).nextId
  readsUnique : ∀ h h' queue r, (h, queue, r) ∈ s.reads → (h', queue, r) ∈ s.reads →
    h = h'
  wroteCalls : ∀ queue w event ctxDone pc,
    (s.queues queue).calls w = .write event ctxDone pc → s.Wrote queue w event
  wroteSent : ∀ queue w event, (w, event) ∈ (s.queues queue).sent → s.Wrote queue w event
  returned : ∀ h event, (h, .ok event) ∈ s.log → ∃ request queue r w,
    s.calls h = .returned request ∧ s.registry.queues.lookup request.taskId = some queue ∧
    (h, queue, r) ∈ s.reads ∧ (r, .read (.ok (w, event))) ∈ (s.queues queue).log

/-! ### What a step never takes back -/

/-- What a step keeps: each request made, each registration, the ghost records, and each queue's
returns and numbering. -/
structure Grows (s s' : Server Meta) : Prop where
  request : ∀ h request, s.request h = some request → s'.request h = some request
  registry : ∀ taskId queue, s.registry.queues.lookup taskId = some queue →
    s'.registry.queues.lookup taskId = some queue
  writes : ∀ entry, entry ∈ s.writes → entry ∈ s'.writes
  reads : ∀ entry, entry ∈ s.reads → entry ∈ s'.reads
  log : ∀ queue, (s.queues queue).log <+: (s'.queues queue).log
  nextId : ∀ queue, (s.queues queue).nextId ≤ (s'.queues queue).nextId

section Grows

variable {s s' : Server Meta}

theorem Server.QueueOf.grow {h : Nat} {queue : QueueRef} (queueOf : s.QueueOf h queue)
    (grows : Grows s s') : s'.QueueOf h queue :=
  let ⟨request, made, registered⟩ := queueOf
  ⟨request, grows.request h request made, grows.registry _ _ registered⟩

theorem Server.Wrote.grow {queue : QueueRef} {w : Nat} {event : Event Meta}
    (wrote : s.Wrote queue w event) (grows : Grows s s') : s'.Wrote queue w event :=
  let ⟨h, request, entry, made, mem⟩ := wrote
  ⟨h, request, grows.writes _ entry, grows.request h request made, mem⟩

/-- A step that moves one call and keeps its request. -/
theorem request_update {id : Nat} {call : SendCall Meta}
    (keeps : ∀ request, (s.calls id).request? = some request → call.request? = some request)
    {h : Nat} {request : Request Meta} (made : s.request h = some request) :
    (Function.update s.calls id call h).request? = some request := by
  by_cases here : h = id
  · subst here
    simpa using keeps request made
  · simpa [here] using made

end Grows

/-! ### Every step keeps the invariant -/

section Moves

variable {s s' : Server Meta}

theorem CallFacts.grow {h : Nat} {call : SendCall Meta} (facts : CallFacts s h call)
    (grows : Grows s s') : CallFacts s' h call := by
  match call, facts with
  | .running request (.executing queue rest write), ⟨registered, suffix, made⟩ =>
    exact ⟨grows.registry _ _ registered, suffix, fun w same => grows.writes _ (made w same)⟩
  | .running request (.reading queue read), ⟨registered, made⟩ =>
    exact ⟨grows.registry _ _ registered, fun r same => grows.reads _ (made r same)⟩
  | .running _ .checking, _ | .running _ .getting, _ | .unborn, _ | .returned _, _ => trivial

theorem Grows.of_calls (request : ∀ h request, s.request h = some request →
      s'.request h = some request)
    (registry : s'.registry = s.registry) (writes : s'.writes = s.writes)
    (reads : s'.reads = s.reads)
    (queues : s'.queues = s.queues) : Grows s s' :=
  ⟨request, fun _ _ found => registry ▸ found, fun _ mem => writes ▸ mem,
    fun _ mem => reads ▸ mem,
    fun _ => queues ▸ List.prefix_refl _, fun _ => queues ▸ Nat.le_refl _⟩

/-- Every step grows the state. -/
theorem Move.grows (inv : Invariant v s) (move : Move v s s') : Grows s s' := by
  have same : ∀ {id : Nat} {call : SendCall Meta},
      (∀ request, (s.calls id).request? = some request → call.request? = some request) →
      ∀ h request, s.request h = some request →
        (Function.update s.calls id call h).request? = some request :=
    fun keeps _ _ made => request_update keeps made
  cases move with
  | send request =>
    exact .of_calls (same (by simp [inv.unborn s.nextId (Nat.le_refl _), SendCall.request?]))
      rfl rfl rfl rfl
  | panic => exact .of_calls (fun _ _ found => found) rfl rfl rfl rfl
  | missingTaskId id request current | checked id request current
  | written id request _ _ _ current | executeFailed id request _ _ current
  | executed id request _ current | received id request _ _ _ _ current
  | readFailed id request _ _ _ current =>
    exact .of_calls (same (by simp [current, SendCall.request?])) rfl rfl rfl rfl
  | get id request registry key queue current got =>
    refine ⟨same (by simp [current, SendCall.request?]), fun taskId queue' registered => ?_,
      fun _ mem => mem, fun _ mem => mem, fun _ => List.prefix_refl _, fun _ => Nat.le_refl _⟩
    have kept := s.registry.exec_keeps registered (.getOrCreate request.taskId) (by simp [got])
    rwa [got] at kept
  | write id request queue event rest current =>
    refine ⟨same (by simp [current, SendCall.request?]), fun _ _ found => found,
      fun _ mem => List.mem_append_left _ mem, fun _ mem => mem, fun queue' => ?_,
      fun queue' => ?_⟩
    all_goals by_cases here : queue' = queue
    all_goals simp [Server.setQueue, Server.setCall, here, Queue.invoke]
  | read id request queue current =>
    refine ⟨same (by simp [current, SendCall.request?]), fun _ _ found => found, fun _ mem => mem,
      fun _ mem => List.mem_append_left _ mem, fun queue' => ?_, fun queue' => ?_⟩
    all_goals by_cases here : queue' = queue
    all_goals simp [Server.setQueue, Server.setCall, here, Queue.invoke]
  | queue queue action q internal stepped =>
    refine ⟨fun _ _ found => found, fun _ _ found => found, fun _ mem => mem, fun _ mem => mem,
      fun queue' => ?_, fun queue' => ?_⟩
    all_goals by_cases here : queue' = queue
    · subst here
      simpa using (EventQueue.step_move stepped).log_grows
    · simp [here]
    · subst here
      simp [EventQueue.step_internal_nextId internal stepped]
    · simp [here]

/-- A step moves only a running call, or starts the next one. -/
theorem Move.calls_frame (move : Move v s s') (h : Nat) :
    s'.calls h = s.calls h ∨ (∃ request pc, s.calls h = .running request pc) ∨
      (h = s.nextId ∧ s'.nextId = s.nextId + 1) := by
  cases move with
  | send request =>
    by_cases here : h = s.nextId
    · exact .inr (.inr ⟨here, rfl⟩)
    · exact .inl (Function.update_noteq here _ _)
  | panic | queue => exact .inl rfl
  | missingTaskId id request current | checked id request current
  | get id request _ _ _ current | write id request _ _ _ current
  | written id request _ _ _ current | executeFailed id request _ _ current
  | executed id request _ current | read id request _ current
  | received id request _ _ _ _ current | readFailed id request _ _ _ current =>
    by_cases here : h = id
    · exact .inr (.inl ⟨_, _, here ▸ current⟩)
    · exact .inl (Function.update_noteq here _ _)

theorem Move.nextId_le (move : Move v s s') : s.nextId ≤ s'.nextId := by
  cases move <;> simp [Server.setCall, Server.finish, Server.setQueue, Server.panic]

theorem Invariant.queues_move (inv : Invariant v s) (move : Move v s s') (queue : QueueRef) :
    EventQueue.Reachable v defaultMaxQueueSize (s'.queues queue) := by
  cases move with
  | write id request queue' event rest current =>
    by_cases here : queue = queue'
    · subst here
      simpa [Server.setQueue] using (inv.queues queue).tail ⟨.write event false, rfl⟩
    · simpa [Server.setQueue, here] using inv.queues queue
  | read id request queue' current =>
    by_cases here : queue = queue'
    · subst here
      simpa [Server.setQueue] using (inv.queues queue).tail ⟨.read false, rfl⟩
    · simpa [Server.setQueue, here] using inv.queues queue
  | queue queue' action q internal stepped =>
    by_cases here : queue = queue'
    · subst here
      simpa [Server.setQueue] using (inv.queues queue).tail ⟨action, stepped⟩
    · simpa [Server.setQueue, here] using inv.queues queue
  | _ => exact inv.queues queue

theorem Invariant.unborn_move (inv : Invariant v s) (move : Move v s s') (h : Nat)
    (later : s'.nextId ≤ h) : s'.calls h = .unborn := by
  have before := move.nextId_le
  rcases move.calls_frame h with same | ⟨request, pc, running⟩ | ⟨rfl, next⟩
  · exact same ▸ inv.unborn h (by omega)
  · simp [inv.unborn h (by omega)] at running
  · omega

theorem Invariant.wf_move (inv : Invariant v s) (move : Move v s s') : s'.registry.Wf := by
  cases move with
  | get id request registry key queue current got =>
    have wf := Registry.exec_wf inv.wf (.getOrCreate request.taskId)
    rwa [got] at wf
  | _ => exact inv.wf

/-- `GetOrCreate` registers the queue it returns under the TaskID asked for. -/
theorem exec_getOrCreate_registered {r registry : Registry} {taskId key : TaskID}
    {queue : QueueRef}
    (got : r.exec (.getOrCreate taskId) = (registry, .getOrCreate key (some queue))) :
    registry.queues.lookup taskId = some queue := by
  obtain ⟨queue', returned, registered⟩ := r.exec_getOrCreate taskId
  rw [got] at returned registered
  cases returned
  exact registered

theorem Invariant.calls_move (inv : Invariant v s) (move : Move v s s') (h : Nat) :
    CallFacts s' h (s'.calls h) := by
  have grows := move.grows inv
  have old : ∀ {id : Nat} {call : SendCall Meta}, h ≠ id →
      CallFacts s' h (Function.update s.calls id call h) := fun other => by
    rw [Function.update_noteq other]
    exact (inv.calls h).grow grows
  cases move with
  | panic | queue => exact (inv.calls h).grow grows
  | send request =>
    by_cases here : h = s.nextId
    · subst here
      simp [CallFacts]
    · exact old here
  | missingTaskId id request current | checked id request current
  | executeFailed id request _ _ current | received id request _ _ _ _ current
  | readFailed id request _ _ _ current =>
    by_cases here : h = id
    · subst here
      simp [CallFacts]
    · exact old here
  | get id request registry key queue current got =>
    by_cases here : h = id
    · subst here
      simp only [Server.setCall, Function.update_same]
      exact ⟨exec_getOrCreate_registered got, List.suffix_refl _, fun _ none => by cases none⟩
    · exact old here
  | write id request queue event rest current =>
    by_cases here : h = id
    · subst here
      have facts := inv.calls h
      rw [current] at facts
      obtain ⟨registered, suffix, -⟩ := facts
      simp only [Server.setQueue, Server.setCall, Function.update_same]
      exact ⟨registered, (List.suffix_cons _ _).trans suffix, fun w same => by
        cases same; exact List.mem_append_right _ (List.mem_singleton_self _)⟩
    · exact old here
  | written id request queue rest write current =>
    by_cases here : h = id
    · subst here
      have facts := inv.calls h
      rw [current] at facts
      obtain ⟨registered, suffix, -⟩ := facts
      simp only [Server.setCall, Function.update_same]
      exact ⟨registered, suffix, fun _ none => by cases none⟩
    · exact old here
  | executed id request queue current =>
    by_cases here : h = id
    · subst here
      have facts := inv.calls h
      rw [current] at facts
      simp only [Server.setCall, Function.update_same]
      exact ⟨facts.1, fun _ none => by cases none⟩
    · exact old here
  | read id request queue current =>
    by_cases here : h = id
    · subst here
      have facts := inv.calls h
      rw [current] at facts
      simp only [Server.setQueue, Server.setCall, Function.update_same]
      exact ⟨facts.1, fun r same => by
        cases same; exact List.mem_append_right _ (List.mem_singleton_self _)⟩
    · exact old here

theorem Server.queueOf_of_running {h : Nat} {request : Request Meta} {pc : SendAt Meta}
    {queue : QueueRef} (called : s.calls h = .running request pc)
    (registered : s.registry.queues.lookup request.taskId = some queue) : s.QueueOf h queue :=
  ⟨request, by simp [Server.request, called, SendCall.request?], registered⟩

theorem Invariant.writes_move (inv : Invariant v s) (move : Move v s s') (h : Nat)
    (queue : QueueRef) (w : Nat) (entry : (h, queue, w) ∈ s'.writes) : s'.QueueOf h queue := by
  have grows := move.grows inv
  cases move with
  | write id request queue' event rest current =>
    rcases List.mem_append.mp entry with old | new
    · exact (inv.writes h queue w old).grow grows
    · simp only [List.mem_singleton, Prod.mk.injEq] at new
      obtain ⟨rfl, rfl, -⟩ := new
      have facts := inv.calls h
      rw [current] at facts
      exact (Server.queueOf_of_running current facts.1).grow grows
  | _ => exact (inv.writes h queue w entry).grow grows

theorem Invariant.reads_move (inv : Invariant v s) (move : Move v s s') (h : Nat)
    (queue : QueueRef) (r : Nat) (entry : (h, queue, r) ∈ s'.reads) :
    s'.QueueOf h queue ∧ r < (s'.queues queue).nextId := by
  have grows := move.grows inv
  cases move with
  | read id request queue' current =>
    rcases List.mem_append.mp entry with old | new
    · have ⟨queueOf, below⟩ := inv.reads h queue r old
      exact ⟨queueOf.grow grows, Nat.lt_of_lt_of_le below (grows.nextId queue)⟩
    · simp only [List.mem_singleton, Prod.mk.injEq] at new
      obtain ⟨rfl, rfl, rfl⟩ := new
      have facts := inv.calls h
      rw [current] at facts
      exact ⟨(Server.queueOf_of_running current facts.1).grow grows,
        by simp [Server.setQueue, Queue.invoke]⟩
  | _ =>
    have ⟨queueOf, below⟩ := inv.reads h queue r entry
    exact ⟨queueOf.grow grows, Nat.lt_of_lt_of_le below (grows.nextId queue)⟩

theorem Invariant.readsUnique_move (inv : Invariant v s) (move : Move v s s') (h h' : Nat)
    (queue : QueueRef) (r : Nat) (entry : (h, queue, r) ∈ s'.reads)
    (entry' : (h', queue, r) ∈ s'.reads) : h = h' := by
  cases move with
  | read id request queue' current =>
    have fresh : ∀ h₁ h₂, (h₁, queue, r) ∈ s.reads →
        (h₂, queue, r) ∉ [(id, queue', (s.queues queue').nextId)] := by
      rintro h₁ h₂ old new
      simp only [List.mem_singleton, Prod.mk.injEq] at new
      obtain ⟨-, rfl, rfl⟩ := new
      exact Nat.lt_irrefl _ (inv.reads h₁ queue _ old).2
    rcases List.mem_append.mp entry with old | new <;>
      rcases List.mem_append.mp entry' with old' | new'
    · exact inv.readsUnique h h' queue r old old'
    · exact absurd new' (fresh h h' old)
    · exact absurd new (fresh h' h old')
    · simp at new new'
      rw [new.1, new'.1]
  | _ => exact inv.readsUnique h h' queue r entry entry'

theorem Invariant.wrote_move (inv : Invariant v s) (move : Move v s s') (queue : QueueRef) :
    (∀ w event ctxDone pc, (s'.queues queue).calls w = .write event ctxDone pc →
      s'.Wrote queue w event) ∧
    ∀ w event, (w, event) ∈ (s'.queues queue).sent → s'.Wrote queue w event := by
  have grows := move.grows inv
  have old : (∀ w event ctxDone pc, (s.queues queue).calls w = .write event ctxDone pc →
      s'.Wrote queue w event) ∧ ∀ w event, (w, event) ∈ (s.queues queue).sent →
      s'.Wrote queue w event :=
    ⟨fun w event ctxDone pc called => (inv.wroteCalls queue w event ctxDone pc called).grow grows,
      fun w event sent => (inv.wroteSent queue w event sent).grow grows⟩
  cases move with
  | write id request queue' event rest current =>
    by_cases here : queue = queue'
    · subst here
      refine ⟨fun w event' ctxDone pc called => ?_, fun w event' sent =>
        old.2 w event' (by simpa [Server.setQueue, Queue.invoke] using sent)⟩
      simp only [Server.setQueue, Server.setCall, Function.update_same, EventQueue.invoke_calls,
        Function.update_apply] at called
      split_ifs at called with fresh
      · cases called
        have facts := inv.calls id
        rw [current] at facts
        refine ⟨id, request, by simp [fresh],
          by simp [Server.request, Server.setQueue, Server.setCall, SendCall.request?], ?_⟩
        exact facts.2.1.subset (List.mem_cons_self _ _)
      · exact old.1 w event' ctxDone pc called
    · simpa only [setQueue_queues, Function.update_noteq here] using old
  | read id request queue' current =>
    by_cases here : queue = queue'
    · subst here
      refine ⟨fun w event' ctxDone pc called => ?_, fun w event' sent =>
        old.2 w event' (by simpa [Server.setQueue, Queue.invoke] using sent)⟩
      simp only [Server.setQueue, Server.setCall, Function.update_same, EventQueue.invoke_calls,
        Function.update_apply] at called
      split_ifs at called
      exact old.1 w event' ctxDone pc called
    · simpa only [setQueue_queues, Function.update_noteq here] using old
  | queue queue' action q internal stepped =>
    by_cases here : queue = queue'
    · subst here
      have qMove := EventQueue.step_move stepped
      have same := EventQueue.step_internal_nextId internal stepped
      have callsWrote : ∀ w event ctxDone pc, q.calls w = .write event ctxDone pc →
          (s.setQueue queue q).Wrote queue w event := fun w event ctxDone pc called => by
        rcases qMove.write_event called with ⟨ctxDone', pc', before⟩ | ⟨-, next⟩
        · exact old.1 w event ctxDone' pc' before
        · omega
      refine ⟨by simpa only [setQueue_queues, Function.update_same] using callsWrote,
        fun w event sent => ?_⟩
      simp only [Server.setQueue, Function.update_same] at sent
      rcases qMove.sent_write with unchanged | ⟨w', event', ctxDone, selecting, appended⟩
      · exact old.2 w event (unchanged ▸ sent)
      · rw [appended, List.mem_append, List.mem_singleton] at sent
        rcases sent with before | new
        · exact old.2 w event before
        · cases new
          exact old.1 w event ctxDone _ selecting
    · simpa only [setQueue_queues, Function.update_noteq here] using old
  | _ => exact old

theorem Invariant.returned_move (inv : Invariant v s) (move : Move v s s') (h : Nat)
    (event : Event Meta) (logged : (h, .ok event) ∈ s'.log) : ∃ request queue r w,
    s'.calls h = .returned request ∧ s'.registry.queues.lookup request.taskId = some queue ∧
    (h, queue, r) ∈ s'.reads ∧ (r, .read (.ok (w, event))) ∈ (s'.queues queue).log := by
  have grows := move.grows inv
  have old : (h, .ok event) ∈ s.log → ∃ request queue r w,
      s'.calls h = .returned request ∧ s'.registry.queues.lookup request.taskId = some queue ∧
      (h, queue, r) ∈ s'.reads ∧ (r, .read (.ok (w, event))) ∈ (s'.queues queue).log := by
    intro before
    obtain ⟨request, queue, r, w, returned, registered, read, result⟩ :=
      inv.returned h event before
    have still : s'.calls h = .returned request := by
      rcases move.calls_frame h with same | ⟨_, _, running⟩ | ⟨rfl, -⟩
      · rw [same, returned]
      · rw [returned] at running; cases running
      · rw [inv.unborn _ (Nat.le_refl _)] at returned; cases returned
    exact ⟨request, queue, r, w, still, grows.registry _ _ registered, grows.reads _ read,
      (grows.log queue).subset result⟩
  cases move with
  | missingTaskId | executeFailed | readFailed =>
    rcases List.mem_append.mp logged with before | new
    · exact old before
    · simp at new
  | received id request queue r w event' current result =>
    rcases List.mem_append.mp logged with before | new
    · exact old before
    · simp only [List.mem_singleton, Prod.mk.injEq] at new
      obtain ⟨rfl, okay⟩ := new
      split_ifs at okay
      cases okay
      have facts := inv.calls h
      rw [current] at facts
      obtain ⟨l₁, l₂, split, -⟩ := List.lookup_eq_some_iff.mp result
      refine ⟨request, queue, r, w, by simp [Server.finish], facts.1, facts.2 r rfl, ?_⟩
      show _ ∈ (s.queues queue).log
      rw [split]
      simp
  | _ => exact old logged

/-- **Every step keeps the invariant.** -/
theorem Invariant.move (inv : Invariant v s) (move : Move v s s') : Invariant v s' :=
  ⟨inv.queues_move move, inv.unborn_move move, inv.wf_move move, inv.calls_move move,
    inv.writes_move move, inv.reads_move move, inv.readsUnique_move move,
    fun queue => (inv.wrote_move move queue).1, fun queue => (inv.wrote_move move queue).2,
    inv.returned_move move⟩

end Moves

/-! ### Every run -/

theorem invariant_newHandler : Invariant v (newHandler : Server Meta) where
  queues _ := .refl
  unborn _ _ := rfl
  wf := Registry.wf_empty
  calls _ := trivial
  writes := by simp [newHandler]
  reads := by simp [newHandler]
  readsUnique := by simp [newHandler]
  wroteCalls := by simp [newHandler, newInMemoryQueue]
  wroteSent := by simp [newHandler, newInMemoryQueue]
  returned := by simp [newHandler]

theorem Invariant.steps {s s' : Server Meta} (inv : Invariant v s)
    (steps : ReflTransGen (Steps v) s s') : Invariant v s' := by
  induction steps with
  | refl => exact inv
  | tail _ step reached =>
    obtain ⟨action, stepped⟩ := step
    exact reached.move (step_move stepped)

/-- **The invariant holds in every reachable state.** -/
theorem invariant_reachable {s : Server Meta} (reach : Reachable v s) : Invariant v s :=
  invariant_newHandler.steps reach

/-- A schedule that runs reaches the state it ends in. -/
theorem steps_of_run {s s' : Server Meta} {actions : List (Action Meta)}
    (ran : run v s actions = some s') : ReflTransGen (Steps v) s s' := by
  induction actions generalizing s with
  | nil => cases ran; exact .refl
  | cons action rest ih =>
    obtain ⟨next, stepped, rest⟩ := Option.bind_eq_some.mp ran
    exact ReflTransGen.head ⟨action, stepped⟩ (ih rest)

/-! ### What `OnSendMessage` returns -/

/-- **What `OnSendMessage` returns.** In every reachable state, for any executors and any
interleaving: (1) a call that returned an event got it from its own `Read` of the queue registered
for its TaskID; (2) no two calls share a `Read`; and (3) for each TaskID, the events its queue
delivered to the `Read` calls, in order, are a prefix of the events sent into it, in order, each
sent once, and each written by the `Execute` of a call on that TaskID. -/
theorem send_returns_task_events (v : CloseVersion) (s : Server Meta) (reach : Reachable v s) :
    (∀ h event, (h, .ok event) ∈ s.log → ∃ request queue r w,
      s.calls h = .returned request ∧ s.registry.queues.lookup request.taskId = some queue ∧
      (h, queue, r) ∈ s.reads ∧ (r, .read (.ok (w, event))) ∈ (s.queues queue).log) ∧
    (∀ h h' queue r, (h, queue, r) ∈ s.reads → (h', queue, r) ∈ s.reads → h = h') ∧
    (∀ taskId queue, s.registry.queues.lookup taskId = some queue →
      (s.queues queue).delivered <+: (s.queues queue).sent ∧ (s.queues queue).senders.Nodup ∧
      ∀ w event, (w, event) ∈ (s.queues queue).sent →
        ∃ h request, (h, queue, w) ∈ s.writes ∧ s.request h = some request ∧
          request.taskId = taskId ∧ event ∈ request.writes) := by
  have inv := invariant_reachable reach
  refine ⟨inv.returned, inv.readsUnique, fun taskId queue registered => ?_⟩
  have delivery := (EventQueue.invariant_reachable (inv.queues queue)).delivery
  refine ⟨⟨_, delivery.fifo⟩, delivery.nodup, fun w event sent => ?_⟩
  obtain ⟨h, request, entry, made, written⟩ := inv.wroteSent queue w event sent
  obtain ⟨request', made', registered'⟩ := inv.writes h queue w entry
  rw [made] at made'
  cases made'
  exact ⟨h, request, entry, made, inv.wf.injective registered' registered, written⟩

/-- A message event on `task-1`. -/
def taskMessage (id : String) : Event Unit := .message ⟨id, "ctx", "task-1", [], ()⟩

/-- A first request on `task-1` whose executor writes two messages. -/
def firstRequest : Request Unit := ⟨"task-1", [taskMessage "m1", taskMessage "m2"], none⟩

/-- A second request on `task-1` whose executor writes one message. -/
def secondRequest : Request Unit := ⟨"task-1", [taskMessage "m3"], none⟩

/-- The two requests one after the other: each `Write` runs through its four statements, each
`Read` takes the head of the buffer. -/
def sendTwice : List (Action Unit) :=
  [.send firstRequest, .run 0, .run 0,
   .run 0, .queue 0 (.run 0 0), .queue 0 (.run 0 0), .queue 0 (.run 0 0), .queue 0 (.run 0 0),
   .run 0, .run 0, .queue 0 (.run 1 0), .queue 0 (.run 1 0), .queue 0 (.run 1 0),
   .queue 0 (.run 1 0), .run 0, .run 0, .run 0, .queue 0 (.run 2 0), .run 0,
   .send secondRequest, .run 1, .run 1,
   .run 1, .queue 0 (.run 3 0), .queue 0 (.run 3 0), .queue 0 (.run 3 0), .queue 0 (.run 3 0),
   .run 1, .run 1, .run 1, .queue 0 (.run 4 0), .run 1]

/-- The state `sendTwice` ends in. -/
def sendTwiceState : Server Unit :=
  (run .setsClosedLast newHandler sendTwice).getD newHandler

theorem sendTwiceState_reachable : Reachable .setsClosedLast sendTwiceState :=
  steps_of_run (rfl : run .setsClosedLast newHandler sendTwice = some sendTwiceState)

/-- **The second call returns the first call's leftover.** The first call reads only the first
of the two messages its `Execute` wrote; the second call on the same TaskID gets the same queue,
and its `Read` takes the leftover, not the message its own `Execute` wrote. -/
theorem send_returns_leftover :
    Reachable .setsClosedLast sendTwiceState ∧
    sendTwiceState.request 0 = some firstRequest ∧
    sendTwiceState.request 1 = some secondRequest ∧
    (0, .ok (taskMessage "m1")) ∈ sendTwiceState.log ∧
    (1, .ok (taskMessage "m2")) ∈ sendTwiceState.log ∧
    taskMessage "m2" ∈ firstRequest.writes ∧ taskMessage "m2" ∉ secondRequest.writes := by
  have log : sendTwiceState.log = [(0, .ok (taskMessage "m1")), (1, .ok (taskMessage "m2"))] := rfl
  refine ⟨sendTwiceState_reachable, rfl, rfl, ?_, ?_, by simp [firstRequest], ?_⟩
  · rw [log]
    exact List.mem_cons_self _ _
  · rw [log]
    exact List.mem_cons_of_mem _ (List.mem_cons_self _ _)
  · simp [secondRequest, taskMessage]

theorem send_returns_task_events_sendTwice :
    Reachable .setsClosedLast sendTwiceState ∧
    (∀ h event, (h, .ok event) ∈ sendTwiceState.log → ∃ request queue r w,
      sendTwiceState.calls h = .returned request ∧
      sendTwiceState.registry.queues.lookup request.taskId = some queue ∧
      (h, queue, r) ∈ sendTwiceState.reads ∧
      (r, .read (.ok (w, event))) ∈ (sendTwiceState.queues queue).log) ∧
    (∀ h h' queue r, (h, queue, r) ∈ sendTwiceState.reads →
      (h', queue, r) ∈ sendTwiceState.reads → h = h') ∧
    (∀ taskId queue, sendTwiceState.registry.queues.lookup taskId = some queue →
      (sendTwiceState.queues queue).delivered <+: (sendTwiceState.queues queue).sent ∧
      (sendTwiceState.queues queue).senders.Nodup ∧
      ∀ w event, (w, event) ∈ (sendTwiceState.queues queue).sent → ∃ h request,
        (h, queue, w) ∈ sendTwiceState.writes ∧ sendTwiceState.request h = some request ∧
        request.taskId = taskId ∧ event ∈ request.writes) :=
  ⟨sendTwiceState_reachable,
    send_returns_task_events .setsClosedLast sendTwiceState sendTwiceState_reachable⟩

end A2aGo.Handler
