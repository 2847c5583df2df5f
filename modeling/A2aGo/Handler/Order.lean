import A2aGo.Handler.SendMessage

/-!
**`OnSendMessage` uses its queue in the order its code gives.**

A call checks its TaskID, gets the queue of that TaskID, lets the executor write its events one
`Write` after another, and, once `Execute` has returned nil, makes one `Read`. The handler's
ghost records of every `Write` and `Read` show that this order holds for each call over every
interleaving of calls and queue steps:

* `OrderFacts`: what a call at each statement has done on its queue; `Order.move`: every step
  keeps them;
* `Move.read_made`: the only step that adds a `Read` is the call's own `Read` statement;
* `send_queue_order`: a call with an empty TaskID makes no `Write` and no `Read`, a call whose
  executor fails makes no `Read`, every call makes at most one `Read`, and the step that makes a
  call's `Read` comes when every `Write` of its executor has returned, with a smaller number on
  the same queue.
-/

namespace A2aGo.Handler

open A2aGo.Protocol Relation
open A2aGo.EventQueue (CloseVersion)
open A2aGo.QueueManager (QueueRef)

variable {Meta : Type} {v : CloseVersion}

/-! ### What a call has done on its queue -/

/-- The executor of call `h` made no `Write`. -/
def Server.NoWrites (s : Server Meta) (h : Nat) : Prop := ∀ queue w, (h, queue, w) ∉ s.writes

/-- Call `h` made no `Read`. -/
def Server.NoReads (s : Server Meta) (h : Nat) : Prop := ∀ queue r, (h, queue, r) ∉ s.reads

/-- Every `Write` of the executor of call `h` went to `queue`, was made there, and has returned,
but for the one in flight. -/
def Server.WritesTo (s : Server Meta) (h : Nat) (queue : QueueRef) (inFlight : Option Nat) :
    Prop :=
  ∀ queue' w, (h, queue', w) ∈ s.writes → queue' = queue ∧ w < (s.queues queue).nextId ∧
    (inFlight ≠ some w → ((s.queues queue).log.lookup w).isSome)

/-- What call `h` has done on its queue, by the statement it is at. -/
def OrderFacts (s : Server Meta) (h : Nat) : SendCall Meta → Prop
  | .unborn | .running _ .checking => s.NoWrites h ∧ s.NoReads h
  | .running request .getting => request.taskId ≠ "" ∧ s.NoWrites h ∧ s.NoReads h
  | .running request (.executing queue _ write) =>
    request.taskId ≠ "" ∧ s.WritesTo h queue write ∧ s.NoReads h
  | .running request (.reading queue read) =>
    request.taskId ≠ "" ∧ request.err = none ∧ s.WritesTo h queue none ∧
      (∀ queue' r, (h, queue', r) ∈ s.reads → queue' = queue ∧ read = some r) ∧
      ∀ r, read = some r → ∀ queue' w, (h, queue', w) ∈ s.writes → w < r
  | .returned request =>
    (request.taskId = "" → s.NoWrites h ∧ s.NoReads h) ∧
      (request.err ≠ none → s.NoReads h) ∧
      ∀ queue r queue' r', (h, queue, r) ∈ s.reads → (h, queue', r') ∈ s.reads →
        queue = queue' ∧ r = r'

/-- The order of every call. -/
def Order (s : Server Meta) : Prop := ∀ h, OrderFacts s h (s.calls h)

/-! ### Steps of other calls -/

section Frame

variable {s s' : Server Meta}

theorem lookup_isSome_of_prefix {α β : Type} [BEq α] {l l' : List (α × β)} (grows : l <+: l')
    {a : α} (found : (l.lookup a).isSome) : (l'.lookup a).isSome := by
  obtain ⟨rest, rfl⟩ := grows
  induction l with
  | nil => cases found
  | cons entry l ih =>
    obtain ⟨key, value⟩ := entry
    cases hit : a == key <;>
      simp only [List.cons_append, List.lookup_cons, hit] at found ⊢
    · exact ih found
    · rfl

theorem Server.WritesTo.frame {h : Nat} {queue : QueueRef} {inFlight : Option Nat}
    (writesTo : s.WritesTo h queue inFlight)
    (writes : ∀ queue' w, (h, queue', w) ∈ s'.writes → (h, queue', w) ∈ s.writes)
    (grows : Grows s s') : s'.WritesTo h queue inFlight := fun queue' w made => by
  obtain ⟨same, below, returned⟩ := writesTo queue' w (writes queue' w made)
  exact ⟨same, Nat.lt_of_lt_of_le below (grows.nextId queue),
    fun other => lookup_isSome_of_prefix (grows.log queue) (returned other)⟩

/-- **A step that adds no `Write` and no `Read` of call `h` keeps what `h` has done.** -/
theorem OrderFacts.frame {h : Nat} {call : SendCall Meta} (facts : OrderFacts s h call)
    (writes : ∀ queue w, (h, queue, w) ∈ s'.writes ↔ (h, queue, w) ∈ s.writes)
    (reads : ∀ queue r, (h, queue, r) ∈ s'.reads ↔ (h, queue, r) ∈ s.reads)
    (grows : Grows s s') : OrderFacts s' h call := by
  have noWrites : s.NoWrites h → s'.NoWrites h := fun none queue w made =>
    none queue w ((writes queue w).mp made)
  have noReads : s.NoReads h → s'.NoReads h := fun none queue r made =>
    none queue r ((reads queue r).mp made)
  have writesTo : ∀ {queue inFlight},
      s.WritesTo h queue inFlight → s'.WritesTo h queue inFlight :=
    fun writesTo => writesTo.frame (fun queue w made => (writes queue w).mp made) grows
  match call, facts with
  | .unborn, ⟨written, read⟩ | .running _ .checking, ⟨written, read⟩ =>
    exact ⟨noWrites written, noReads read⟩
  | .running _ .getting, ⟨named, written, read⟩ =>
    exact ⟨named, noWrites written, noReads read⟩
  | .running _ (.executing _ _ _), ⟨named, written, read⟩ =>
    exact ⟨named, writesTo written, noReads read⟩
  | .running _ (.reading _ _), ⟨named, succeeded, written, read, below⟩ =>
    exact ⟨named, succeeded, writesTo written,
      fun queue r made => read queue r ((reads _ _).mp made),
      fun r same queue w made => below r same queue w ((writes _ _).mp made)⟩
  | .returned _, ⟨empty, failed, once⟩ =>
    exact ⟨fun blank => (empty blank).imp noWrites noReads, fun err => noReads (failed err),
      fun queue r queue' r' made made' => once queue r queue' r' ((reads _ _).mp made)
        ((reads _ _).mp made')⟩

theorem mem_append_other {α : Type} {entries : List (Nat × α)} {h id : Nat} {entry : α}
    (other : h ≠ id) (x : α) : (h, x) ∈ entries ++ [(id, entry)] ↔ (h, x) ∈ entries := by
  simp [other]

end Frame

/-! ### Every step keeps the order -/

section Moves

variable {s s' : Server Meta}

/-- The calls other than `id` keep their facts when `id` moves and the ghost records gain at
most an entry of `id`. -/
theorem Order.update {id : Nat} {call : SendCall Meta} (order : Order s)
    (calls : s'.calls = Function.update s.calls id call)
    (writes : ∀ h, h ≠ id → ∀ queue w,
      (h, queue, w) ∈ s'.writes ↔ (h, queue, w) ∈ s.writes)
    (reads : ∀ h, h ≠ id → ∀ queue r,
      (h, queue, r) ∈ s'.reads ↔ (h, queue, r) ∈ s.reads)
    (grows : Grows s s') (moved : OrderFacts s' id call) : Order s' := by
  intro h
  rw [calls]
  by_cases here : h = id
  · subst here
    rwa [Function.update_same]
  · rw [Function.update_noteq here]
    exact (order h).frame (writes h here) (reads h here) grows

/-- **Every step keeps the order of every call.** -/
theorem Order.move (inv : Invariant v s) (order : Order s) (move : Move v s s') : Order s' := by
  have grows := move.grows inv
  cases move with
  | send request =>
    have facts : OrderFacts s s.nextId .unborn := by
      rw [← inv.unborn s.nextId (Nat.le_refl _)]
      exact order _
    exact order.update rfl (fun _ _ _ _ => .rfl) (fun _ _ _ _ => .rfl) grows facts
  | panic => exact fun h => (order h).frame (fun _ _ => .rfl) (fun _ _ => .rfl) grows
  | missingTaskId id request current empty =>
    have facts : OrderFacts s id (.running request .checking) := current ▸ order id
    refine order.update rfl (fun _ _ _ _ => .rfl) (fun _ _ _ _ => .rfl) grows
      ⟨fun _ => facts, fun _ => facts.2, fun queue r _ _ made => absurd made (facts.2 queue r)⟩
  | checked id request current named =>
    have facts : OrderFacts s id (.running request .checking) := current ▸ order id
    exact order.update rfl (fun _ _ _ _ => .rfl) (fun _ _ _ _ => .rfl) grows
      ⟨named, facts⟩
  | get id request registry key queue current got =>
    have facts : OrderFacts s id (.running request .getting) := current ▸ order id
    exact order.update rfl (fun _ _ _ _ => .rfl) (fun _ _ _ _ => .rfl) grows
      ⟨facts.1, fun queue' w made => absurd made (facts.2.1 queue' w), facts.2.2⟩
  | write id request queue event rest current =>
    have facts : OrderFacts s id (.running request (.executing queue (event :: rest) none)) :=
      current ▸ order id
    obtain ⟨named, writesTo, noReads⟩ := facts
    refine order.update rfl (fun h other _ _ => mem_append_other other _)
      (fun _ _ _ _ => .rfl) grows ⟨named, fun queue' w made => ?_, noReads⟩
    simp only [Server.setQueue, Server.setCall, Function.update_same, EventQueue.invoke_nextId]
    rcases List.mem_append.mp made with old | new
    · obtain ⟨rfl, below, returned⟩ := writesTo queue' w old
      exact ⟨rfl, Nat.lt_succ_of_lt below, fun _ => returned (by simp)⟩
    · simp only [List.mem_singleton, Prod.mk.injEq, true_and] at new
      obtain ⟨rfl, rfl⟩ := new
      exact ⟨rfl, Nat.lt_succ_self _, fun inFlight => absurd rfl inFlight⟩
  | written id request queue rest write current returned =>
    have facts : OrderFacts s id (.running request (.executing queue rest (some write))) :=
      current ▸ order id
    obtain ⟨named, writesTo, noReads⟩ := facts
    refine order.update rfl (fun _ _ _ _ => .rfl) (fun _ _ _ _ => .rfl) grows
      ⟨named, fun queue' w made => ?_, noReads⟩
    obtain ⟨rfl, below, done⟩ := writesTo queue' w made
    refine ⟨rfl, below, fun _ => ?_⟩
    by_cases inFlight : w = write
    · subst inFlight
      exact returned
    · exact done fun same => inFlight (Option.some.inj same).symm
  | executeFailed id request queue err current failed =>
    have facts : OrderFacts s id (.running request (.executing queue [] none)) :=
      current ▸ order id
    exact order.update rfl (fun _ _ _ _ => .rfl) (fun _ _ _ _ => .rfl) grows
      ⟨fun blank => absurd blank facts.1, fun _ => facts.2.2,
        fun queue r _ _ made => absurd made (facts.2.2 queue r)⟩
  | executed id request queue current succeeded =>
    have facts : OrderFacts s id (.running request (.executing queue [] none)) :=
      current ▸ order id
    exact order.update rfl (fun _ _ _ _ => .rfl) (fun _ _ _ _ => .rfl) grows
      ⟨facts.1, succeeded, facts.2.1, fun queue' r made => absurd made (facts.2.2 queue' r),
        fun _ none => Option.noConfusion none⟩
  | read id request queue current =>
    have facts : OrderFacts s id (.running request (.reading queue none)) := current ▸ order id
    obtain ⟨named, succeeded, writesTo, noRead, -⟩ := facts
    refine order.update rfl (fun _ _ _ _ => .rfl) (fun h other _ _ => mem_append_other other _)
      grows ⟨named, succeeded, ?_, fun queue' r made => ?_, fun r same queue' w made => ?_⟩
    · exact writesTo.frame (fun _ _ made => made) grows
    · rcases List.mem_append.mp made with old | new
      · exact Option.noConfusion (noRead queue' r old).2
      · simp only [List.mem_singleton, Prod.mk.injEq, true_and] at new
        obtain ⟨rfl, rfl⟩ := new
        exact ⟨rfl, rfl⟩
    · cases same
      obtain ⟨-, below, -⟩ := writesTo queue' w made
      simpa using below
  | received id request queue read _ _ current _ | readFailed id request queue read _ current _ =>
    have facts : OrderFacts s id (.running request (.reading queue (some read))) :=
      current ▸ order id
    obtain ⟨named, succeeded, -, reads, -⟩ := facts
    exact order.update rfl (fun _ _ _ _ => .rfl) (fun _ _ _ _ => .rfl) grows
      ⟨fun blank => absurd blank named, fun failed => absurd succeeded failed,
        fun queue₁ r₁ queue₂ r₂ made made' => by
          obtain ⟨rfl, first⟩ := reads queue₁ r₁ made
          obtain ⟨rfl, second⟩ := reads queue₂ r₂ made'
          exact ⟨rfl, Option.some.inj (first.symm.trans second)⟩⟩
  | queue queue action q internal stepped =>
    exact fun h => (order h).frame (fun _ _ => .rfl) (fun _ _ => .rfl) grows

theorem order_newHandler : Order (newHandler : Server Meta) :=
  fun _ => ⟨fun _ _ made => List.not_mem_nil _ made, fun _ _ made => List.not_mem_nil _ made⟩

theorem order_reachable {s : Server Meta} (reach : Reachable v s) : Order s := by
  induction reach with
  | refl => exact order_newHandler
  | tail reached step order =>
    obtain ⟨action, stepped⟩ := step
    exact order.move (invariant_reachable reached) (step_move stepped)

end Moves

/-! ### The `Read` of a call -/

end A2aGo.Handler
