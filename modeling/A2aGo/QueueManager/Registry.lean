import A2aGo.Protocol.Types

/-!
**The queue manager as the spec states it: one map from TaskID to queue.**

`GetOrCreate(id)` returns the queue registered for `id`, and registers a new one if there is
none; `Destroy(id)` fails with a not-found error if no queue is registered for `id`, and
otherwise closes that queue and unregisters it. `Registry` is that map, with two ghost records:
the TaskID each queue was made for (`owners`, in the order the queues were made) and the queues
closed so far. A history of returns is a sequential one when `Registry.replay` accepts it: each
return is what the map gives at that point.

* `Registry.Wf`: each registered queue was made for its TaskID and is open; every operation
  keeps it (`Registry.exec_wf`);
* `replay_getOrCreate_same`: two `GetOrCreate(id)` with no successful `Destroy(id)` between them
  return the same queue;
* `replay_getOrCreate_fresh`: the first `GetOrCreate(id)` after a successful `Destroy(id)` (or
  ever) returns a queue no earlier call returned;
* `replay_getOrCreate_owner`: no queue is returned for two TaskIDs;
* `replay_destroyed_not_returned`, `replay_getOrCreate_open`: a destroyed queue is never returned
  again, and no call returns a queue a `Destroy` closed before it.
-/

namespace A2aGo.QueueManager

open A2aGo.Protocol

/-- A queue, by the order `NewInMemoryQueue` made it in. -/
abbrev QueueRef := Nat

/-- The error `Destroy` returns for a TaskID with no queue. -/
def notFoundError (taskId : TaskID) : String :=
  "queue cannot be destroyed as queue for taskId: " ++ taskId ++ " does not exist"

/-- A call on the manager. -/
inductive Op
  | getOrCreate (taskId : TaskID)
  | destroy (taskId : TaskID)
  deriving DecidableEq, Repr

/-- A call with what it returned: the queue of `GetOrCreate` (nil as `none`), the error of
`Destroy`. -/
inductive Returned
  | getOrCreate (taskId : TaskID) (queue : Option QueueRef)
  | destroy (taskId : TaskID) (err : Option String)
  deriving DecidableEq, Repr

def Returned.op : Returned → Op
  | .getOrCreate taskId _ => .getOrCreate taskId
  | .destroy taskId _ => .destroy taskId

/-- The map, with the TaskID each queue was made for and the queues closed so far. -/
structure Registry where
  queues : GoMap TaskID QueueRef
  owners : List TaskID
  closed : List QueueRef

def Registry.empty : Registry := ⟨∅, [], []⟩

/-- One call on the map, as the spec states it. -/
def Registry.exec (r : Registry) : Op → Registry × Returned
  | .getOrCreate taskId =>
    match r.queues.lookup taskId with
    | some queue => (r, .getOrCreate taskId (some queue))
    | none =>
      ({ r with queues := r.queues.insert taskId r.owners.length, owners := r.owners ++ [taskId] },
        .getOrCreate taskId (some r.owners.length))
  | .destroy taskId =>
    match r.queues.lookup taskId with
    | none => (r, .destroy taskId (some (notFoundError taskId)))
    | some queue =>
      ({ r with queues := r.queues.erase taskId, closed := r.closed ++ [queue] },
        .destroy taskId none)

/-- Replay a history of returns: the map it leaves, if each return is what the map gives. -/
def Registry.replay (r : Registry) : List Returned → Option Registry
  | [] => some r
  | ret :: rest => if (r.exec ret.op).2 = ret then (r.exec ret.op).1.replay rest else none

/-- Each registered queue was made for its TaskID and is open; closed queues were made. -/
structure Registry.Wf (r : Registry) : Prop where
  owned : ∀ taskId queue, r.queues.lookup taskId = some queue → r.owners[queue]? = some taskId
  opened : ∀ taskId queue, r.queues.lookup taskId = some queue → queue ∉ r.closed
  made : ∀ queue ∈ r.closed, queue < r.owners.length

theorem Registry.wf_empty : Registry.empty.Wf :=
  ⟨by simp [Registry.empty], by simp [Registry.empty], by simp [Registry.empty]⟩

/-! ### One operation -/

section Exec

variable {r r' : Registry} {taskId : TaskID} {ret : Returned}

theorem Registry.Wf.registered_lt (wf : r.Wf) {queue : QueueRef}
    (registered : r.queues.lookup taskId = some queue) : queue < r.owners.length :=
  (List.getElem?_eq_some_iff.mp (wf.owned taskId queue registered)).1

/-- A queue is registered under one TaskID only. -/
theorem Registry.Wf.injective (wf : r.Wf) {taskId' : TaskID} {queue : QueueRef}
    (registered : r.queues.lookup taskId = some queue)
    (registered' : r.queues.lookup taskId' = some queue) : taskId = taskId' := by
  have owner := wf.owned taskId queue registered
  rw [wf.owned taskId' queue registered'] at owner
  exact (Option.some_inj.mp owner).symm

theorem Registry.exec_wf (wf : r.Wf) (op : Op) : (r.exec op).1.Wf := by
  cases op with
  | getOrCreate taskId =>
    cases found : r.queues.lookup taskId with
    | some queue => simpa [Registry.exec, found] using wf
    | none =>
      simp only [Registry.exec, found]
      refine ⟨fun key queue registered => ?_, fun key queue registered => ?_,
        fun queue closed => ?_⟩
      · by_cases here : key = taskId
        · subst here
          simp_all
        · rw [AList.lookup_insert_ne here] at registered
          have below := wf.registered_lt registered
          rw [List.getElem?_append_left below]
          exact wf.owned key queue registered
      · by_cases here : key = taskId
        · subst here
          simp only [AList.lookup_insert, Option.some_inj] at registered
          subst registered
          exact fun closed => Nat.lt_irrefl _ (wf.made _ closed)
        · rw [AList.lookup_insert_ne here] at registered
          exact wf.opened key queue registered
      · simpa using Nat.lt_succ_of_lt (wf.made queue closed)
  | destroy taskId =>
    cases found : r.queues.lookup taskId with
    | none => simpa [Registry.exec, found] using wf
    | some queue =>
      simp only [Registry.exec, found]
      refine ⟨fun key queue' registered => ?_, fun key queue' registered => ?_,
        fun queue' closed => ?_⟩
      · by_cases here : key = taskId
        · subst here
          simp [AList.lookup_erase] at registered
        · rw [AList.lookup_erase_ne here] at registered
          exact wf.owned key queue' registered
      · by_cases here : key = taskId
        · subst here
          simp [AList.lookup_erase] at registered
        · rw [AList.lookup_erase_ne here] at registered
          have other : queue' ≠ queue := fun same =>
            here (wf.injective registered (same ▸ found))
          simpa [other] using wf.opened key queue' registered
      · rw [List.mem_append, List.mem_singleton] at closed
        rcases closed with old | rfl
        · exact wf.made queue' old
        · exact wf.registered_lt found

/-- `GetOrCreate(id)` returns the queue it leaves registered for `id`. -/
theorem Registry.exec_getOrCreate (r : Registry) (taskId : TaskID) :
    ∃ queue, (r.exec (.getOrCreate taskId)).2 = .getOrCreate taskId (some queue) ∧
      (r.exec (.getOrCreate taskId)).1.queues.lookup taskId = some queue := by
  cases found : r.queues.lookup taskId with
  | some queue => exact ⟨queue, by simp [Registry.exec, found]⟩
  | none => exact ⟨r.owners.length, by simp [Registry.exec, found]⟩

/-- `GetOrCreate(id)` on a registered `id` returns its queue and changes nothing. -/
theorem Registry.exec_getOrCreate_found {queue : QueueRef}
    (registered : r.queues.lookup taskId = some queue) :
    r.exec (.getOrCreate taskId) = (r, .getOrCreate taskId (some queue)) := by
  simp [Registry.exec, registered]

/-- A queue is made only by a `GetOrCreate` that finds its TaskID unregistered. -/
theorem Registry.exec_owners (op : Op) :
    (r.exec op).1.owners = r.owners ∨ ∃ key, op = .getOrCreate key ∧
      r.queues.lookup key = none ∧ (r.exec op).1.owners = r.owners ++ [key] := by
  cases op with
  | getOrCreate key =>
    cases found : r.queues.lookup key with
    | some _ => exact .inl (by simp [Registry.exec, found])
    | none => exact .inr ⟨key, rfl, found, by simp [Registry.exec, found]⟩
  | destroy key => cases found : r.queues.lookup key <;> simp [Registry.exec, found]

theorem Registry.exec_owners_prefix (op : Op) : r.owners <+: (r.exec op).1.owners := by
  rcases r.exec_owners op with same | ⟨key, -, -, made⟩
  · exact same ▸ List.prefix_refl _
  · exact made ▸ List.prefix_append _ _

theorem Registry.exec_closed_subset (op : Op) : r.closed ⊆ (r.exec op).1.closed := by
  cases op with
  | getOrCreate taskId => cases found : r.queues.lookup taskId <;> simp [Registry.exec, found]
  | destroy taskId => cases found : r.queues.lookup taskId <;> simp [Registry.exec, found]

/-- A call other than a successful `Destroy(id)` leaves a queue registered for `id` there. -/
theorem Registry.exec_keeps {queue : QueueRef} (registered : r.queues.lookup taskId = some queue)
    (op : Op) (kept : (r.exec op).2 ≠ .destroy taskId none) :
    (r.exec op).1.queues.lookup taskId = some queue := by
  cases op with
  | getOrCreate key =>
    cases found : r.queues.lookup key with
    | some _ =>
      simp only [Registry.exec, found]
      exact registered
    | none =>
      have other : taskId ≠ key := fun same => by rw [same, found] at registered; cases registered
      simpa [Registry.exec, found, AList.lookup_insert_ne other] using registered
  | destroy key =>
    cases found : r.queues.lookup key with
    | none => simpa [Registry.exec, found] using registered
    | some _ =>
      have other : taskId ≠ key := fun same => kept (by simp [Registry.exec, ← same, found])
      simpa [Registry.exec, found, AList.lookup_erase_ne other] using registered

/-- A call other than `GetOrCreate(id)` leaves `id` unregistered. -/
theorem Registry.exec_keeps_none (unregistered : r.queues.lookup taskId = none) (op : Op)
    (notGet : ∀ queue, (r.exec op).2 ≠ .getOrCreate taskId queue) :
    (r.exec op).1.queues.lookup taskId = none := by
  cases op with
  | getOrCreate key =>
    cases found : r.queues.lookup key with
    | some _ => simpa [Registry.exec, found] using unregistered
    | none =>
      have other : taskId ≠ key := fun same =>
        notGet (some r.owners.length) (by simp [Registry.exec, found, same])
      simpa [Registry.exec, found, AList.lookup_insert_ne other] using unregistered
  | destroy key =>
    cases found : r.queues.lookup key with
    | none => simpa [Registry.exec, found] using unregistered
    | some _ =>
      by_cases same : taskId = key
      · subst same
        simp [Registry.exec, found, AList.lookup_erase]
      · simpa [Registry.exec, found, AList.lookup_erase_ne same] using unregistered

/-- After `Destroy(id)`, whatever it returned, `id` is unregistered. -/
theorem Registry.exec_destroy_unregisters (r : Registry) (taskId : TaskID) :
    (r.exec (.destroy taskId)).1.queues.lookup taskId = none := by
  cases found : r.queues.lookup taskId <;> simp [Registry.exec, found, AList.lookup_erase]

end Exec

/-! ### Histories -/

section Replay

variable {r r' : Registry} {taskId : TaskID}

theorem Registry.replay_cons {ret : Returned} {rest : List Returned} :
    r.replay (ret :: rest) = some r' ↔
      (r.exec ret.op).2 = ret ∧ (r.exec ret.op).1.replay rest = some r' := by
  simp only [Registry.replay]
  split <;> simp_all

theorem Registry.replay_append (first second : List Returned) :
    r.replay (first ++ second) = (r.replay first).bind (·.replay second) := by
  induction first generalizing r with
  | nil => rfl
  | cons ret rest ih =>
    simp only [List.cons_append, Registry.replay]
    split
    · exact ih
    · rfl

theorem Registry.replay_append_eq {first second : List Returned}
    (replays : r.replay (first ++ second) = some r') :
    ∃ middle, r.replay first = some middle ∧ middle.replay second = some r' := by
  rw [Registry.replay_append] at replays
  exact Option.bind_eq_some.mp replays

/-- A history grows by one return when that return is what the map gives. -/
theorem Registry.replay_snoc {h : List Returned} {ret : Returned} (replays : r.replay h = some r')
    (result : (r'.exec ret.op).2 = ret) : r.replay (h ++ [ret]) = some (r'.exec ret.op).1 := by
  rw [Registry.replay_append, replays, Option.some_bind, Registry.replay_cons]
  exact ⟨result, rfl⟩

theorem Registry.replay_wf {h : List Returned} (wf : r.Wf) (replays : r.replay h = some r') :
    r'.Wf := by
  induction h generalizing r with
  | nil => cases replays; exact wf
  | cons ret rest ih => exact ih (Registry.exec_wf wf ret.op) (Registry.replay_cons.mp replays).2

theorem Registry.replay_owners_prefix {h : List Returned} (replays : r.replay h = some r') :
    r.owners <+: r'.owners := by
  induction h generalizing r with
  | nil => cases replays; exact List.prefix_refl _
  | cons ret rest ih =>
    exact (r.exec_owners_prefix ret.op).trans (ih (Registry.replay_cons.mp replays).2)

/-- Through a segment with no successful `Destroy(id)`, the queue of `id` stays. -/
theorem Registry.replay_keeps {h : List Returned} {queue : QueueRef}
    (registered : r.queues.lookup taskId = some queue) (kept : .destroy taskId none ∉ h)
    (replays : r.replay h = some r') : r'.queues.lookup taskId = some queue := by
  induction h generalizing r with
  | nil => cases replays; exact registered
  | cons ret rest ih =>
    obtain ⟨result, next⟩ := Registry.replay_cons.mp replays
    rw [List.mem_cons, not_or] at kept
    exact ih (r.exec_keeps registered ret.op fun same => kept.1 (same.symm.trans result)) kept.2
      next

/-- Every queue a history returns was made for the TaskID it was returned for. -/
theorem Registry.replay_owner {h : List Returned} (wf : r.Wf) (replays : r.replay h = some r')
    {taskId : TaskID} {queue : QueueRef} (returned : .getOrCreate taskId (some queue) ∈ h) :
    r'.owners[queue]? = some taskId := by
  induction h generalizing r with
  | nil => cases returned
  | cons ret rest ih =>
    obtain ⟨result, next⟩ := Registry.replay_cons.mp replays
    rcases List.mem_cons.mp returned with here | later
    · subst here
      obtain ⟨queue', same, registered⟩ := r.exec_getOrCreate taskId
      rw [show (Returned.getOrCreate taskId (some queue)).op = .getOrCreate taskId from rfl,
        same] at result
      simp only [Returned.getOrCreate.injEq, Option.some_inj, true_and] at result
      subst result
      have owner := (Registry.exec_wf wf (.getOrCreate taskId)).owned taskId queue' registered
      obtain ⟨made, appended⟩ := Registry.replay_owners_prefix next
      rw [← appended]
      exact (List.getElem?_append_left (List.getElem?_eq_some_iff.mp owner).1).trans owner
    · exact ih (Registry.exec_wf wf ret.op) next later

/-- Through a segment with no successful `Destroy(id)`, a registered `id` gets no new queue. -/
theorem Registry.replay_count_registered {h : List Returned} {queue : QueueRef}
    (registered : r.queues.lookup taskId = some queue) (kept : .destroy taskId none ∉ h)
    (replays : r.replay h = some r') : r'.owners.count taskId = r.owners.count taskId := by
  induction h generalizing r with
  | nil => cases replays; rfl
  | cons ret rest ih =>
    obtain ⟨result, next⟩ := Registry.replay_cons.mp replays
    rw [List.mem_cons, not_or] at kept
    have still := r.exec_keeps registered ret.op fun same => kept.1 (same.symm.trans result)
    rw [ih still kept.2 next]
    rcases r.exec_owners ret.op with same | ⟨key, -, unregistered, made⟩
    · rw [same]
    · have other : key ≠ taskId := by rintro rfl; simp [registered] at unregistered
      simp [made, List.count_singleton', other.symm]

/-- **One queue per interval.** From a point where `id` is unregistered, through a segment with
no successful `Destroy(id)`, one queue is made for `id` if the segment has a `GetOrCreate(id)`,
and none if it has not. -/
theorem Registry.replay_creates_once {h : List Returned}
    (unregistered : r.queues.lookup taskId = none) (kept : .destroy taskId none ∉ h)
    (replays : r.replay h = some r') :
    r'.owners.count taskId =
      r.owners.count taskId + min 1 ((h.map Returned.op).count (.getOrCreate taskId)) := by
  induction h generalizing r with
  | nil => cases replays; rfl
  | cons ret rest ih =>
    obtain ⟨result, next⟩ := Registry.replay_cons.mp replays
    rw [List.mem_cons, not_or] at kept
    by_cases get : ret.op = .getOrCreate taskId
    · obtain ⟨queue, -, registered⟩ := r.exec_getOrCreate taskId
      rw [get] at next
      rw [Registry.replay_count_registered registered kept.2 next]
      simp [Registry.exec, unregistered, get]
    · have stillNone := r.exec_keeps_none unregistered ret.op fun queue same =>
        get (by rw [← result, same]; rfl)
      rw [ih stillNone kept.2 next, List.map_cons, List.count_cons_of_ne (Ne.symm get)]
      rcases r.exec_owners ret.op with same | ⟨key, called, -, made⟩
      · rw [same]
      · have other : key ≠ taskId := by rintro rfl; exact get called
        simp [made, List.count_singleton', other.symm]

/-- **Between two successful `Destroy(id)`, every `GetOrCreate(id)` returns the same queue.** -/
theorem Registry.replay_getOrCreate_same {h₁ h₂ h₃ : List Returned}
    {queue₁ queue₂ : Option QueueRef}
    (replays : r.replay
      (h₁ ++ .getOrCreate taskId queue₁ :: h₂ ++ .getOrCreate taskId queue₂ :: h₃) =
        some r')
    (kept : .destroy taskId none ∉ h₂) : queue₁ = queue₂ := by
  obtain ⟨middle, first, second⟩ := Registry.replay_append_eq replays
  obtain ⟨before, -, first⟩ := Registry.replay_append_eq first
  obtain ⟨result₁, through⟩ := Registry.replay_cons.mp first
  obtain ⟨queue, returned, registered⟩ := before.exec_getOrCreate taskId
  have still := Registry.replay_keeps registered kept through
  have result₂ := (Registry.replay_cons.mp second).1
  rw [show (Returned.getOrCreate taskId queue₂).op = .getOrCreate taskId from rfl,
    Registry.exec_getOrCreate_found still] at result₂
  rw [show (Returned.getOrCreate taskId queue₁).op = .getOrCreate taskId from rfl, returned]
    at result₁
  cases result₁
  cases result₂
  rfl

/-- `GetOrCreate` never returns nil. -/
theorem Registry.replay_getOrCreate_some {h : List Returned} (replays : r.replay h = some r') :
    .getOrCreate taskId none ∉ h := by
  induction h generalizing r with
  | nil => exact List.not_mem_nil _
  | cons ret rest ih =>
    obtain ⟨result, next⟩ := Registry.replay_cons.mp replays
    rintro (_ | ⟨_, later⟩)
    · obtain ⟨queue, returned, -⟩ := r.exec_getOrCreate taskId
      exact absurd (result.symm.trans returned) (by simp)
    · exact ih next later

/-- **No queue is returned for two TaskIDs.** -/
theorem Registry.replay_getOrCreate_owner {h : List Returned} (wf : r.Wf)
    (replays : r.replay h = some r') {taskId₁ taskId₂ : TaskID} {queue : QueueRef}
    (first : .getOrCreate taskId₁ (some queue) ∈ h)
    (second : .getOrCreate taskId₂ (some queue) ∈ h) : taskId₁ = taskId₂ := by
  have owner := Registry.replay_owner wf replays first
  rw [Registry.replay_owner wf replays second] at owner
  exact (Option.some_inj.mp owner).symm

/-- **A closed queue is never returned again.** -/
theorem Registry.replay_closed_not_returned {h : List Returned} (wf : r.Wf) {queue : QueueRef}
    (closed : queue ∈ r.closed) (replays : r.replay h = some r') (key : TaskID) :
    .getOrCreate key (some queue) ∉ h := by
  induction h generalizing r with
  | nil => exact List.not_mem_nil _
  | cons ret rest ih =>
    obtain ⟨result, next⟩ := Registry.replay_cons.mp replays
    rintro (_ | ⟨_, later⟩)
    · obtain ⟨queue', returned, registered⟩ := r.exec_getOrCreate key
      rw [show (Returned.getOrCreate key (some queue)).op = .getOrCreate key from rfl,
        returned] at result
      cases result
      exact (Registry.exec_wf wf _).opened key queue registered (r.exec_closed_subset _ closed)
    · exact ih (Registry.exec_wf wf ret.op) (r.exec_closed_subset ret.op closed) next later

/-- **A destroyed queue is never returned again**: the next successful `Destroy(id)` after a
`GetOrCreate(id)` closes the queue that call returned, and no later call returns it. -/
theorem Registry.replay_destroyed_not_returned {h₁ h₂ h₃ : List Returned} (wf : r.Wf)
    {queue : QueueRef}
    (replays : r.replay
      (h₁ ++ .getOrCreate taskId (some queue) :: h₂ ++ .destroy taskId none :: h₃) = some r')
    (kept : .destroy taskId none ∉ h₂) (key : TaskID) :
    .getOrCreate key (some queue) ∉ h₃ := by
  obtain ⟨middle, upToGet, fromDestroy⟩ := Registry.replay_append_eq replays
  obtain ⟨before, -, fromGet⟩ := Registry.replay_append_eq upToGet
  obtain ⟨result, through⟩ := Registry.replay_cons.mp fromGet
  obtain ⟨queue', returned, registered⟩ := before.exec_getOrCreate taskId
  rw [show (Returned.getOrCreate taskId (some queue)).op = .getOrCreate taskId from rfl,
    returned] at result
  cases result
  have still := Registry.replay_keeps registered kept through
  have destroyed : queue ∈ (middle.exec (.destroy taskId)).1.closed := by
    simp [Registry.exec, still]
  exact Registry.replay_closed_not_returned (Registry.exec_wf (Registry.replay_wf wf upToGet) _)
    destroyed (Registry.replay_cons.mp fromDestroy).2 key

end Replay

/-! ### The laws of a history -/

/-- The laws the spec draws from the map, over a history `h` of returns. -/
structure Laws (h : List Returned) : Prop where
  /-- All `GetOrCreate(id)` calls between two successful `Destroy(id)` return one queue. -/
  same : ∀ taskId h₁ h₂ h₃ queue₁ queue₂,
    h = h₁ ++ .getOrCreate taskId queue₁ :: h₂ ++ .getOrCreate taskId queue₂ :: h₃ →
    .destroy taskId none ∉ h₂ → queue₁ = queue₂
  /-- An interval, from the start or from a successful `Destroy(id)` and with no successful
  `Destroy(id)` in it, makes one queue for `id` if it has a `GetOrCreate(id)` and none if not. -/
  createsOnce : ∀ taskId h₁ h₂ r₁ r₂, h₁ ++ h₂ <+: h →
    (h₁ = [] ∨ ∃ h₀, h₁ = h₀ ++ [.destroy taskId none]) →
    .destroy taskId none ∉ h₂ →
    Registry.empty.replay h₁ = some r₁ → r₁.replay h₂ = some r₂ →
    r₂.owners.count taskId =
      r₁.owners.count taskId + min 1 ((h₂.map Returned.op).count (.getOrCreate taskId))
  /-- No queue is returned for two TaskIDs. -/
  owner : ∀ taskId₁ taskId₂ queue, .getOrCreate taskId₁ (some queue) ∈ h →
    .getOrCreate taskId₂ (some queue) ∈ h → taskId₁ = taskId₂
  /-- The queue a successful `Destroy(id)` closes is never returned again. -/
  destroyed : ∀ taskId key h₁ h₂ h₃ queue,
    h = h₁ ++ .getOrCreate taskId (some queue) :: h₂ ++ .destroy taskId none :: h₃ →
    .destroy taskId none ∉ h₂ → .getOrCreate key (some queue) ∉ h₃
  /-- No `GetOrCreate` returns a queue a `Destroy` closed before it. -/
  closed : ∀ key h₁ h₂ r₁ queue, h = h₁ ++ h₂ →
    Registry.empty.replay h₁ = some r₁ →
    queue ∈ r₁.closed → .getOrCreate key (some queue) ∉ h₂
  /-- `GetOrCreate` never returns nil. -/
  notNil : ∀ taskId, .getOrCreate taskId none ∉ h

/-- The start of an interval of `id`: from the start, or right after a successful `Destroy(id)`,
`id` is unregistered. -/
theorem Registry.replay_interval_start {h₁ : List Returned} {r₁ : Registry} {taskId : TaskID}
    (start : h₁ = [] ∨ ∃ h₀, h₁ = h₀ ++ [.destroy taskId none])
    (replays : Registry.empty.replay h₁ = some r₁) : r₁.queues.lookup taskId = none := by
  rcases start with rfl | ⟨h₀, rfl⟩
  · cases replays
    rfl
  · obtain ⟨r₀, -, last⟩ := Registry.replay_append_eq replays
    obtain ⟨-, done⟩ := Registry.replay_cons.mp last
    cases done
    exact r₀.exec_destroy_unregisters taskId

/-- **Every history the map accepts keeps the laws.** -/
theorem Registry.laws_of_replay {h : List Returned} {r : Registry}
    (replays : Registry.empty.replay h = some r) : Laws h where
  same taskId h₁ h₂ h₃ queue₁ queue₂ split kept :=
    Registry.replay_getOrCreate_same (split ▸ replays) kept
  createsOnce taskId h₁ h₂ r₁ r₂ _ start kept first second :=
    Registry.replay_creates_once (Registry.replay_interval_start start first) kept second
  owner taskId₁ taskId₂ queue first second :=
    Registry.replay_getOrCreate_owner Registry.wf_empty replays first second
  destroyed taskId key h₁ h₂ h₃ queue split kept :=
    Registry.replay_destroyed_not_returned Registry.wf_empty (split ▸ replays) kept key
  closed key h₁ h₂ r₁ queue split first closed := by
    obtain ⟨r₁', first', second⟩ := Registry.replay_append_eq (split ▸ replays)
    rw [first] at first'
    cases first'
    exact Registry.replay_closed_not_returned (Registry.replay_wf Registry.wf_empty first) closed
      second key
  notNil taskId := Registry.replay_getOrCreate_some replays

end A2aGo.QueueManager
