import A2aGo.QueueManager.Machine
import A2aGo.Sync.Counted
import Mathlib.Data.List.Nodup

/-!
**Every run of the manager is linearizable to the map.**

A call holds `mu` from its `Lock` to its deferred `Unlock`, and `mu` counts its holders, so the
calls' critical sections never overlap. The order in which the calls unlock `mu` (`history`)
is then a sequential history of `Registry`: when no call holds `mu`, the Go map is the
`Registry` that `history` leaves, and the call that holds it is part way through one operation
on that `Registry` (`Pending`). A call takes its place in `history` before it returns, and its
return is what it took there.

* `Invariant.move`: every step keeps the invariant, so it holds in every reachable state;
* `Move.history`: `history` only grows, so a call that returned before another was invoked comes
  before it;
* `manager_linearizable`: the law of the manager, as the spec states it.
-/

namespace A2aGo.QueueManager

open A2aGo.Protocol A2aGo.Sync Relation

/-- Holding `mu`: between `Lock` and the deferred `Unlock`. -/
def Call.holdsMu : Call → Bool
  | .getOrCreate _ .locking | .getOrCreate _ (.returning _) => false
  | .destroy _ .locking | .destroy _ (.returning _) => false
  | .getOrCreate _ _ | .destroy _ _ => true
  | _ => false

/-- Past the deferred `Unlock`: the call has its place in `history`. -/
def Call.linearized : Call → Bool
  | .getOrCreate _ (.returning _) | .destroy _ (.returning _) | .returned => true
  | _ => false

@[simp] theorem Call.linearized_returning (ret : Returned) : (Call.returning ret).linearized := by
  cases ret <;> rfl

@[simp] theorem Call.holdsMu_returning (ret : Returned) : (Call.returning ret).holdsMu = false := by
  cases ret <;> rfl

@[simp] theorem Call.returning_inj {ret ret' : Returned} :
    Call.returning ret = Call.returning ret' ↔ ret = ret' := by
  cases ret <;> cases ret' <;> simp [Call.returning]

/-- The Go map, and the queues made and closed, are those of `spec`. -/
structure Matches (m : Manager) (spec : Registry) : Prop where
  queues : m.queues = spec.queues
  made : m.made = spec.owners.length
  closed : m.closed = spec.closed

/-- How far the call holding `mu` has taken its operation on `spec`, the map it locked. -/
def Pending (spec : Registry) (m : Manager) : Call → Prop
  | .getOrCreate _ .checking => Matches m spec
  | .getOrCreate taskId .creating => Matches m spec ∧ spec.queues.lookup taskId = none
  | .getOrCreate taskId (.storing queue) =>
    spec.queues.lookup taskId = none ∧ queue = spec.owners.length ∧ m.queues = spec.queues ∧
      m.made = spec.owners.length + 1 ∧ m.closed = spec.closed
  | .getOrCreate taskId .reading => Matches m (spec.exec (.getOrCreate taskId)).1
  | .getOrCreate taskId (.unlocking queue) => Matches m (spec.exec (.getOrCreate taskId)).1 ∧
      (spec.exec (.getOrCreate taskId)).2 = .getOrCreate taskId queue
  | .destroy _ .checking => Matches m spec
  | .destroy taskId .reading => Matches m spec ∧ (spec.queues.lookup taskId).isSome
  | .destroy taskId (.closing queue) =>
    Matches m spec ∧ spec.queues.lookup taskId = queue ∧ queue.isSome
  | .destroy taskId .deleting => ∃ queue, spec.queues.lookup taskId = some queue ∧
      m.queues = spec.queues ∧ m.made = spec.owners.length ∧ m.closed = spec.closed ++ [queue]
  | .destroy taskId (.unlocking err) => Matches m (spec.exec (.destroy taskId)).1 ∧
      (spec.exec (.destroy taskId)).2 = .destroy taskId err
  | _ => True

/-- Calls past `nextId` have not started, and `mu` counts its holders. -/
structure Exclusive (m : Manager) : Prop where
  unborn : ∀ i, m.nextId ≤ i → m.calls i = .unborn
  mutex : Counted (fun i => (m.calls i).holdsMu) m.muLocked.toNat

/-- `history` replays on the map, and the manager is where `history` and the holder of `mu`
leave it. -/
def Agrees (m : Manager) : Prop :=
  ∃ spec, Registry.empty.replay (m.history.map Prod.snd) = some spec ∧
    (m.muLocked = false → Matches m spec) ∧
    ∀ i, (m.calls i).holdsMu = true → Pending spec m (m.calls i)

/-- A call is in `history` once, after its `Unlock`, with what it returns. -/
structure Placed (m : Manager) : Prop where
  placed : ∀ i ret, (i, ret) ∈ m.history ↔
    (i, ret) ∈ m.log ∨ m.calls i = Call.returning ret
  unplaced : ∀ i ret, (m.calls i).linearized = false → (i, ret) ∉ m.history
  nodup : (m.history.map Prod.fst).Nodup

/-- The invariant of the manager. -/
structure Invariant (m : Manager) : Prop where
  exclusive : Exclusive m
  agrees : Agrees m
  placed : Placed m
  noPanic : m.panicked = false

section Frames

variable {m m' : Manager} {id : Nat} {call : Call}

theorem Exclusive.locked (excl : Exclusive m) (holds : (m.calls id).holdsMu = true) :
    m.muLocked = true := by
  have one := excl.mutex.eq_one holds
  cases locked : m.muLocked <;> simp_all

theorem Exclusive.started (excl : Exclusive m) (started : m.calls id ≠ .unborn) :
    id < m.nextId := by
  by_contra past
  exact started (excl.unborn id (by omega))

/-- A step that moves one started call keeps `Exclusive` when the count changes with it. -/
theorem Exclusive.setCall (excl : Exclusive m) (started : m.calls id ≠ .unborn)
    (moved : m'.calls = Function.update m.calls id call) (nextId : m'.nextId = m.nextId)
    (mutex : Counted (fun i => (Function.update m.calls id call i).holdsMu) m'.muLocked.toNat) :
    Exclusive m' := by
  refine ⟨fun i later => ?_, moved ▸ mutex⟩
  have other : i ≠ id := by have := excl.started started; omega
  rw [moved, Function.update_noteq other, excl.unborn i (nextId ▸ later)]

theorem Pending.congr {spec : Registry} (pending : Pending spec m call)
    (queues : m'.queues = m.queues) (made : m'.made = m.made) (closed : m'.closed = m.closed) :
    Pending spec m' call := by
  have same : ∀ s, Matches m s → Matches m' s := fun s agree =>
    ⟨queues.trans agree.queues, made.trans agree.made, closed.trans agree.closed⟩
  rcases call with
    _ | ⟨taskId, _ | _ | _ | _ | _ | _ | _⟩ | ⟨taskId, _ | _ | _ | _ | _ | _ | _⟩ | _
  all_goals try first
    | exact pending
    | exact same _ pending
    | exact ⟨same _ pending.1, pending.2⟩
  · obtain ⟨none, made', queues', size, closed'⟩ := pending
    exact ⟨none, made', queues.trans queues', made.trans size, closed.trans closed'⟩
  · obtain ⟨queue, found, queues', made', closed'⟩ := pending
    exact ⟨queue, found, queues.trans queues', made.trans made', closed.trans closed'⟩

/-- A step by a call that neither holds `mu` nor takes it, and leaves the map alone, keeps
`Agrees`. -/
theorem Agrees.frame (agrees : Agrees m) (moved : m'.calls id = call)
    (others : ∀ i, i ≠ id → m'.calls i = m.calls i) (wasNot : (m.calls id).holdsMu = false)
    (isNot : call.holdsMu = false) (queues : m'.queues = m.queues) (made : m'.made = m.made)
    (closed : m'.closed = m.closed) (locked : m'.muLocked = m.muLocked)
    (history : m'.history = m.history) : Agrees m' := by
  obtain ⟨spec, replays, free, held⟩ := agrees
  refine ⟨spec, history ▸ replays, fun unlocked => ?_, fun i holds => ?_⟩
  · have agree := free (locked ▸ unlocked)
    exact ⟨queues.trans agree.queues, made.trans agree.made, closed.trans agree.closed⟩
  · have other : i ≠ id := by rintro rfl; simp [moved, isNot] at holds
    rw [others i other] at holds ⊢
    exact (held i holds).congr queues made closed

/-- A step inside the critical section keeps `Agrees` when it takes the holder's operation one
statement further. -/
theorem Agrees.advance {current : Call} (agrees : Agrees m) (excl : Exclusive m)
    (called : m.calls id = current) (moved : m'.calls id = call)
    (others : ∀ i, i ≠ id → m'.calls i = m.calls i) (holds : current.holdsMu = true)
    (locked : m'.muLocked = m.muLocked) (history : m'.history = m.history)
    (advance : ∀ spec, Pending spec m current → Pending spec m' call) : Agrees m' := by
  obtain ⟨spec, replays, -, held⟩ := agrees
  have holder : (m.calls id).holdsMu = true := called ▸ holds
  refine ⟨spec, history ▸ replays, fun unlocked => ?_, fun i holdsI => ?_⟩
  · simp [locked, excl.locked holder] at unlocked
  · by_cases here : i = id
    · subst here
      rw [moved]
      exact advance spec (called ▸ held i holder)
    · rw [others i here] at holdsI
      exact absurd (excl.mutex.unique holdsI holder) here

/-- A step of a call that stays before its `Unlock`, or stays after it, keeps `Placed`. -/
theorem Placed.frame (placed : Placed m) (moved : m'.calls id = call)
    (others : ∀ i, i ≠ id → m'.calls i = m.calls i) (wasNot : (m.calls id).linearized = false)
    (isNot : call.linearized = false) (log : m'.log = m.log) (history : m'.history = m.history) :
    Placed m' := by
  refine ⟨fun i ret => ?_, fun i ret notYet => ?_, history ▸ placed.nodup⟩
  · rw [history, log]
    by_cases here : i = id
    · subst here
      have absent := placed.unplaced i ret wasNot
      have notLogged : (i, ret) ∉ m.log := fun logged =>
        absent ((placed.placed i ret).mpr (.inl logged))
      have notReturning : call ≠ Call.returning ret := by rintro rfl; simp at isNot
      simp [absent, notLogged, moved, notReturning]
    · rw [others i here]
      exact placed.placed i ret
  · by_cases here : i = id
    · subst here
      exact history ▸ placed.unplaced i ret wasNot
    · rw [others i here] at notYet
      exact history ▸ placed.unplaced i ret notYet

end Frames

/-! ### Every step keeps the invariant -/

section Moves

variable {m m' : Manager}

theorem Matches.setCall {spec : Registry} (agree : Matches m spec) (id : Nat) (call : Call) :
    Matches (m.setCall id call) spec :=
  ⟨agree.queues, agree.made, agree.closed⟩

/-- `Lock` on a free `mu`: the map is the one `history` leaves, and the call starts its
operation on it. -/
theorem Agrees.lock {id : Nat} {call : Call} (agrees : Agrees m) (excl : Exclusive m)
    (unlocked : m.muLocked = false) (moved : m'.calls id = call)
    (others : ∀ i, i ≠ id → m'.calls i = m.calls i) (locked : m'.muLocked = true)
    (history : m'.history = m.history) (enter : ∀ spec, Matches m spec → Pending spec m' call) :
    Agrees m' := by
  obtain ⟨spec, replays, free, -⟩ := agrees
  refine ⟨spec, history ▸ replays, fun free' => by simp [locked] at free', fun i holds => ?_⟩
  by_cases here : i = id
  · subst here
    rw [moved]
    exact enter spec (free unlocked)
  · rw [others i here] at holds
    have mutex := excl.mutex
    rw [unlocked] at mutex
    simp [mutex.eq_false_of_zero i] at holds

/-- The deferred `Unlock`: the holder's operation is done, and it joins `history` with what it
returns. -/
theorem Agrees.unlock {id : Nat} {current : Call} (agrees : Agrees m) (excl : Exclusive m)
    (ret : Returned) (called : m.calls id = current) (holds : current.holdsMu = true)
    (moved : m'.calls id = Call.returning ret) (others : ∀ i, i ≠ id → m'.calls i = m.calls i)
    (history : m'.history = m.history ++ [(id, ret)])
    (done : ∀ spec, Pending spec m current →
      Matches m' (spec.exec ret.op).1 ∧ (spec.exec ret.op).2 = ret) : Agrees m' := by
  obtain ⟨spec, replays, -, held⟩ := agrees
  have holder : (m.calls id).holdsMu = true := called ▸ holds
  obtain ⟨agree, result⟩ := done spec (called ▸ held id holder)
  refine ⟨(spec.exec ret.op).1, ?_, fun _ => agree, fun i holdsI => ?_⟩
  · rw [history, List.map_append, List.map_singleton]
    exact Registry.replay_snoc replays result
  · by_cases here : i = id
    · subst here
      simp [moved] at holdsI
    · rw [others i here] at holdsI
      exact absurd (excl.mutex.unique holdsI holder) here

theorem Agrees.congr (agrees : Agrees m) (calls : m'.calls = m.calls)
    (queues : m'.queues = m.queues) (made : m'.made = m.made) (closed : m'.closed = m.closed)
    (locked : m'.muLocked = m.muLocked) (history : m'.history = m.history) : Agrees m' := by
  obtain ⟨spec, replays, free, held⟩ := agrees
  refine ⟨spec, history ▸ replays, fun unlocked => ?_, fun i holds => ?_⟩
  · have agree := free (locked ▸ unlocked)
    exact ⟨queues.trans agree.queues, made.trans agree.made, closed.trans agree.closed⟩
  · rw [calls] at holds ⊢
    exact (held i holds).congr queues made closed

/-- The deferred `Unlock` places the call in `history`, with what it returns. -/
theorem Placed.unlock {id : Nat} (placed : Placed m) (ret : Returned)
    (moved : m'.calls id = Call.returning ret) (others : ∀ i, i ≠ id → m'.calls i = m.calls i)
    (wasNot : (m.calls id).linearized = false) (log : m'.log = m.log)
    (history : m'.history = m.history ++ [(id, ret)]) : Placed m' := by
  refine ⟨fun i ret' => ?_, fun i ret' notYet => ?_, ?_⟩
  · rw [history, log, List.mem_append, List.mem_singleton]
    by_cases here : i = id
    · subst here
      have absent := placed.unplaced i ret' wasNot
      have notLogged : (i, ret') ∉ m.log := fun logged =>
        absent ((placed.placed i ret').mpr (.inl logged))
      simp [absent, notLogged, moved, eq_comm]
    · rw [others i here, placed.placed i ret']
      simp [here]
  · have other : i ≠ id := by rintro rfl; simp [moved] at notYet
    rw [others i other] at notYet
    rw [history, List.mem_append, List.mem_singleton]
    simp [placed.unplaced i ret' notYet, other]
  · rw [history, List.map_append, List.map_singleton, ← List.concat_eq_append]
    refine placed.nodup.concat fun mem => ?_
    obtain ⟨⟨i, ret'⟩, entry, rfl⟩ := List.mem_map.mp mem
    exact placed.unplaced i ret' wasNot entry

/-- A return logs what the call took its place in `history` with. -/
theorem Placed.finish {id : Nat} (placed : Placed m) (ret : Returned)
    (called : m.calls id = Call.returning ret) (moved : m'.calls id = .returned)
    (others : ∀ i, i ≠ id → m'.calls i = m.calls i) (log : m'.log = m.log ++ [(id, ret)])
    (history : m'.history = m.history) : Placed m' := by
  refine ⟨fun i ret' => ?_, fun i ret' notYet => ?_, history ▸ placed.nodup⟩
  · rw [history, log, List.mem_append, List.mem_singleton, placed.placed i ret']
    by_cases here : i = id
    · subst here
      have notReturning : Call.returned ≠ Call.returning ret' := by
        cases ret' <;> simp [Call.returning]
      simp [called, moved, notReturning, eq_comm]
    · simp [others i here, here]
  · have other : i ≠ id := by rintro rfl; simp [moved, Call.linearized] at notYet
    rw [others i other] at notYet
    exact history ▸ placed.unplaced i ret' notYet

theorem exclusive_move (excl : Exclusive m) (move : Move m m') : Exclusive m' := by
  cases move with
  | invoke op =>
    have fresh := excl.unborn m.nextId (Nat.le_refl _)
    refine ⟨fun i later => ?_,
      excl.mutex.update_same (by cases op <;> simp [fresh, Call.start, Call.holdsMu])⟩
    have other : i ≠ m.nextId := by simp only [Manager.invoke] at later; omega
    rw [invoke_calls, Function.update_noteq other]
    exact excl.unborn i (by simp only [Manager.invoke] at later; omega)
  | panic => exact ⟨excl.unborn, excl.mutex⟩
  | getLock id taskId current unlocked | destroyLock id taskId current unlocked =>
    have mutex := excl.mutex
    rw [unlocked] at mutex
    exact excl.setCall (by simp [current]) rfl rfl (mutex.update_enter rfl (by decide))
  | getUnlock id taskId _ current locked | destroyUnlock id taskId _ current locked =>
    have mutex := excl.mutex
    rw [locked] at mutex
    exact excl.setCall (by simp [current]) rfl rfl
      (mutex.update_leave (by simp [Call.holdsMu]) (by simp [current, Call.holdsMu]))
  | getFound id taskId _ current _ | getMissing id taskId current _ | create id taskId current
  | store id taskId _ current | getRead id taskId current | getReturn id taskId _ current
  | destroyMissing id taskId current _ | destroyFound id taskId _ current _
  | destroyRead id taskId current | close id taskId _ current | delete id taskId current
  | destroyReturn id taskId _ current =>
    exact excl.setCall (by simp [current]) rfl rfl
      (excl.mutex.update_same (by simp [current, Call.holdsMu]))

theorem placed_move (excl : Exclusive m) (placed : Placed m) (move : Move m m') : Placed m' := by
  cases move with
  | invoke op =>
    exact placed.frame (Function.update_same _ _ _) (fun i other => Function.update_noteq other _ _)
      (by simp [excl.unborn m.nextId (Nat.le_refl _), Call.linearized])
      (by cases op <;> rfl) rfl rfl
  | panic => exact ⟨placed.placed, placed.unplaced, placed.nodup⟩
  | getUnlock id taskId queue current _ =>
    exact placed.unlock (.getOrCreate taskId queue) (Function.update_same _ _ _)
      (fun i other => Function.update_noteq other _ _) (by simp [current, Call.linearized]) rfl rfl
  | destroyUnlock id taskId err current _ =>
    exact placed.unlock (.destroy taskId err) (Function.update_same _ _ _)
      (fun i other => Function.update_noteq other _ _) (by simp [current, Call.linearized]) rfl rfl
  | getReturn id taskId queue current =>
    exact placed.finish (.getOrCreate taskId queue) current (Function.update_same _ _ _)
      (fun i other => Function.update_noteq other _ _) rfl rfl
  | destroyReturn id taskId err current =>
    exact placed.finish (.destroy taskId err) current (Function.update_same _ _ _)
      (fun i other => Function.update_noteq other _ _) rfl rfl
  | getLock id taskId current _ | getFound id taskId _ current _ | getMissing id taskId current _
  | create id taskId current | store id taskId _ current | getRead id taskId current
  | destroyLock id taskId current _ | destroyMissing id taskId current _
  | destroyFound id taskId _ current _ | destroyRead id taskId current
  | close id taskId _ current | delete id taskId current =>
    exact placed.frame (Function.update_same _ _ _) (fun i other => Function.update_noteq other _ _)
      (by simp [current, Call.linearized]) rfl rfl rfl

theorem agrees_move (excl : Exclusive m) (agrees : Agrees m) (move : Move m m') : Agrees m' := by
  have update : ∀ {id : Nat} {call : Call} i, i ≠ id →
      Function.update m.calls id call i = m.calls i :=
    fun i other => Function.update_noteq other _ _
  cases move with
  | invoke op =>
    exact agrees.frame (Function.update_same _ _ _) update
      (by simp [excl.unborn m.nextId (Nat.le_refl _), Call.holdsMu]) (by cases op <;> rfl)
      rfl rfl rfl rfl rfl
  | panic => exact agrees.congr rfl rfl rfl rfl rfl rfl
  | getLock id taskId current unlocked | destroyLock id taskId current unlocked =>
    exact agrees.lock excl unlocked (Function.update_same _ _ _) update rfl rfl
      fun spec agree => show Matches _ _ from ⟨agree.queues, agree.made, agree.closed⟩
  | getReturn id taskId queue current | destroyReturn id taskId queue current =>
    exact agrees.frame (Function.update_same _ _ _) update (by simp [current, Call.holdsMu]) rfl
      rfl rfl rfl rfl rfl
  | getUnlock id taskId queue current _ =>
    exact agrees.unlock excl (.getOrCreate taskId queue) current rfl
      (Function.update_same _ _ _) update rfl
      fun spec (pending : Matches m _ ∧ _) =>
        ⟨⟨pending.1.queues, pending.1.made, pending.1.closed⟩, pending.2⟩
  | destroyUnlock id taskId err current _ =>
    exact agrees.unlock excl (.destroy taskId err) current rfl
      (Function.update_same _ _ _) update rfl
      fun spec (pending : Matches m _ ∧ _) =>
        ⟨⟨pending.1.queues, pending.1.made, pending.1.closed⟩, pending.2⟩
  | getFound id taskId queue current found =>
    refine agrees.advance excl current (Function.update_same _ _ _) update rfl rfl rfl
      fun spec (agree : Matches m spec) => ?_
    show Matches _ (spec.exec (.getOrCreate taskId)).1
    rw [Registry.exec_getOrCreate_found (agree.queues ▸ found)]
    exact agree.setCall _ _
  | getMissing id taskId current missing =>
    exact agrees.advance excl current (Function.update_same _ _ _) update rfl rfl rfl
      fun spec (agree : Matches m spec) =>
        show _ ∧ _ from ⟨agree.setCall _ _, agree.queues ▸ missing⟩
  | create id taskId current =>
    exact agrees.advance excl current (Function.update_same _ _ _) update rfl rfl rfl
      fun spec (pending : Matches m spec ∧ _) => show _ ∧ _ from
        ⟨pending.2, pending.1.made, pending.1.queues, congrArg (· + 1) pending.1.made,
          pending.1.closed⟩
  | store id taskId queue current =>
    refine agrees.advance excl current (Function.update_same _ _ _) update rfl rfl rfl
      fun spec (pending : _ ∧ _) => ?_
    obtain ⟨missing, rfl, queues, made, closed⟩ := pending
    show Matches _ (spec.exec (.getOrCreate taskId)).1
    simp only [Registry.exec, missing]
    refine ⟨?_, by simpa using made, closed⟩
    show m.queues.insert taskId spec.owners.length = spec.queues.insert taskId spec.owners.length
    rw [queues]
  | getRead id taskId current =>
    refine agrees.advance excl current (Function.update_same _ _ _) update rfl rfl rfl
      fun spec (agree : Matches m _) => show _ ∧ _ from ⟨agree.setCall _ _, ?_⟩
    obtain ⟨queue, returned, registered⟩ := spec.exec_getOrCreate taskId
    rw [returned, agree.queues, registered]
  | destroyMissing id taskId current missing =>
    refine agrees.advance excl current (Function.update_same _ _ _) update rfl rfl rfl
      fun spec (agree : Matches m spec) => ?_
    have missing' : spec.queues.lookup taskId = none := agree.queues ▸ missing
    show Matches _ (spec.exec (.destroy taskId)).1 ∧ _
    simp only [Registry.exec, missing']
    exact ⟨agree.setCall _ _, trivial⟩
  | destroyFound id taskId queue current found =>
    exact agrees.advance excl current (Function.update_same _ _ _) update rfl rfl rfl
      fun spec (agree : Matches m spec) => show _ ∧ _ from
        ⟨agree.setCall _ _, by simp [← agree.queues, found]⟩
  | destroyRead id taskId current =>
    exact agrees.advance excl current (Function.update_same _ _ _) update rfl rfl rfl
      fun spec (pending : Matches m spec ∧ _) => show _ ∧ _ from
        ⟨pending.1.setCall _ _, by rw [pending.1.queues],
          by rw [pending.1.queues]; exact pending.2⟩
  | close id taskId queue current =>
    exact agrees.advance excl current (Function.update_same _ _ _) update rfl rfl rfl
      fun spec (pending : Matches m spec ∧ _) => ⟨queue, pending.2.1, pending.1.queues,
        pending.1.made, congrArg (· ++ [queue]) pending.1.closed⟩
  | delete id taskId current =>
    refine agrees.advance excl current (Function.update_same _ _ _) update rfl rfl rfl
      fun spec (pending : ∃ queue, _) => ?_
    obtain ⟨queue, found, queues, made, closed⟩ := pending
    show Matches _ (spec.exec (.destroy taskId)).1 ∧ _
    simp only [Registry.exec, found]
    refine ⟨⟨?_, made, closed⟩, trivial⟩
    show m.queues.erase taskId = spec.queues.erase taskId
    rw [queues]

/-- No call is at a statement that panics: the holder of `mu` finds it locked at its `Unlock`,
and `Destroy` reads a registered queue before it calls `Close`. -/
theorem Invariant.not_panicsAt (inv : Invariant m) (id : Nat) : ¬ PanicsAt m (m.calls id) := by
  intro panics
  have holdsLocked : (m.calls id).holdsMu = true → m.muLocked = true := inv.exclusive.locked
  rcases called : m.calls id with _ | ⟨taskId, pc⟩ | ⟨taskId, pc⟩ | _ <;>
    rw [called] at panics holdsLocked
  · exact panics
  · cases pc <;> simp_all [PanicsAt, Call.holdsMu]
  · cases pc with
    | unlocking err => simp_all [PanicsAt, Call.holdsMu]
    | closing queue =>
      obtain ⟨spec, -, -, held⟩ := inv.agrees
      have pending := held id (by simp [called, Call.holdsMu])
      rw [called] at pending
      cases queue with
      | none => exact absurd pending.2.2 (by simp)
      | some _ => exact panics
    | _ => exact panics
  · exact panics

/-- **Every step keeps the invariant.** -/
theorem Invariant.move (inv : Invariant m) (move : Move m m') : Invariant m' := by
  have safe : m'.panicked = false := by
    cases move with
    | panic id panics => exact absurd panics (inv.not_panicsAt id)
    | _ => exact inv.noPanic
  exact ⟨exclusive_move inv.exclusive move, agrees_move inv.exclusive inv.agrees move,
    placed_move inv.exclusive inv.placed move, safe⟩

/-- `history` only grows: the `Unlock` appends one call. -/
theorem Move.history (move : Move m m') :
    m'.history = m.history ∨ ∃ entry, m'.history = m.history ++ [entry] := by
  cases move with
  | getUnlock id taskId queue => exact .inr ⟨_, rfl⟩
  | destroyUnlock id taskId err => exact .inr ⟨_, rfl⟩
  | _ => exact .inl rfl

end Moves

/-! ### Every run -/

theorem invariant_newInMemoryManager : Invariant newInMemoryManager where
  exclusive := ⟨fun _ _ => rfl, .inl ⟨rfl, fun _ => rfl⟩⟩
  agrees := ⟨Registry.empty, rfl, fun _ => ⟨rfl, rfl, rfl⟩, fun _ holds => by cases holds⟩
  placed := ⟨fun _ ret => by cases ret <;> simp [newInMemoryManager, Call.returning],
    fun _ _ _ => by simp [newInMemoryManager],
    List.nodup_nil⟩
  noPanic := rfl

theorem Invariant.steps {m m' : Manager} (inv : Invariant m) (steps : ReflTransGen Steps m m') :
    Invariant m' := by
  induction steps with
  | refl => exact inv
  | tail _ step reached =>
    obtain ⟨action, stepped⟩ := step
    exact reached.move (step_move stepped)

/-- **The invariant holds in every reachable state.** -/
theorem invariant_reachable {m : Manager} (reach : Reachable m) : Invariant m :=
  invariant_newInMemoryManager.steps reach

theorem history_prefix {m m' : Manager} (steps : ReflTransGen Steps m m') :
    m.history <+: m'.history := by
  induction steps with
  | refl => exact List.prefix_refl _
  | tail _ step grown =>
    obtain ⟨action, stepped⟩ := step
    rcases (step_move stepped).history with same | ⟨entry, appended⟩
    · exact same ▸ grown
    · exact appended ▸ grown.trans (List.prefix_append _ _)

/-- A schedule that runs reaches the state it ends in. -/
theorem steps_of_run {m m' : Manager} {actions : List Action} (ran : run m actions = some m') :
    ReflTransGen Steps m m' := by
  induction actions generalizing m with
  | nil => cases ran; exact .refl
  | cons action rest ih =>
    obtain ⟨next, stepped, rest⟩ := Option.bind_eq_some.mp ran
    exact ReflTransGen.head ⟨action, stepped⟩ (ih rest)

/-! ### The map the manager holds -/

section Registered

variable {m : Manager}

/-- Part way through an operation, the Go map is still the map of a well-formed `Registry`. -/
theorem Pending.queues_wf {spec : Registry} {call : Call} (pending : Pending spec m call)
    (wf : spec.Wf) (holds : call.holdsMu = true) :
    ∃ r : Registry, r.Wf ∧ m.queues = r.queues := by
  cases call with
  | getOrCreate taskId pc =>
    cases pc with
    | checking => exact ⟨spec, wf, pending.queues⟩
    | creating => exact ⟨spec, wf, pending.1.queues⟩
    | storing queue => exact ⟨spec, wf, pending.2.2.1⟩
    | reading => exact ⟨_, Registry.exec_wf wf _, pending.queues⟩
    | unlocking queue => exact ⟨_, Registry.exec_wf wf _, pending.1.queues⟩
    | locking | returning _ => cases holds
  | destroy taskId pc =>
    cases pc with
    | checking => exact ⟨spec, wf, pending.queues⟩
    | reading | closing _ => exact ⟨spec, wf, pending.1.queues⟩
    | deleting => obtain ⟨_, _, queues, -⟩ := pending; exact ⟨spec, wf, queues⟩
    | unlocking err => exact ⟨_, Registry.exec_wf wf _, pending.1.queues⟩
    | locking | returning _ => cases holds
  | unborn | returned => cases holds

/-- The Go map never holds one queue under two TaskIDs. -/
theorem Invariant.queues_injective (inv : Invariant m) {taskId₁ taskId₂ : TaskID}
    {queue : QueueRef}
    (registered₁ : m.queues.lookup taskId₁ = some queue)
    (registered₂ : m.queues.lookup taskId₂ = some queue) : taskId₁ = taskId₂ := by
  obtain ⟨spec, replays, free, held⟩ := inv.agrees
  have wf := Registry.replay_wf Registry.wf_empty replays
  obtain ⟨r, wfR, queues⟩ : ∃ r : Registry, r.Wf ∧ m.queues = r.queues := by
    cases locked : m.muLocked
    · exact ⟨spec, wf, (free locked).queues⟩
    · obtain ⟨i, holds⟩ : ∃ i, (m.calls i).holdsMu = true := by
        rcases inv.exclusive.mutex with ⟨zero, -⟩ | ⟨-, i, holds, -⟩
        · simp [locked] at zero
        · exact ⟨i, holds⟩
      exact (held i holds).queues_wf wf holds
  rw [queues] at registered₁ registered₂
  exact wfR.injective registered₁ registered₂

/-- A `GetOrCreate` leaves `mu` with a queue that is registered, so neither nil nor closed. -/
theorem Invariant.getOrCreate_open (inv : Invariant m) {i : Nat} {taskId : TaskID}
    {queue : Option QueueRef} (called : m.calls i = .getOrCreate taskId (.unlocking queue)) :
    ∃ q, queue = some q ∧ q ∉ m.closed := by
  obtain ⟨spec, replays, -, held⟩ := inv.agrees
  have pending := held i (by simp [called, Call.holdsMu])
  rw [called] at pending
  obtain ⟨agree, result⟩ := pending
  obtain ⟨q, returned, registered⟩ := spec.exec_getOrCreate taskId
  rw [returned] at result
  cases result
  refine ⟨q, rfl, ?_⟩
  rw [agree.closed]
  exact (Registry.exec_wf (Registry.replay_wf Registry.wf_empty replays) _).opened taskId q
    registered

end Registered

/-! ### The law of the manager -/

/-- **The law of the manager.** In every reachable state: (1) the calls, in the order they
unlocked `mu`, are a history the map accepts, and while `mu` is free the Go map is the map that
history leaves; (2) every call that returned is in that history, once, with what it returned, and
every call in it has returned that or is about to; (3) a call that returned before another was
invoked comes before it there, in every run from here; (4) the history keeps the laws of the map;
(5) no queue is registered under two TaskIDs; (6) a `GetOrCreate` leaves `mu` with a queue that is
neither nil nor closed; and (7) no goroutine panics. -/
theorem manager_linearizable (m : Manager) (reach : Reachable m) :
    (∃ spec, Registry.empty.replay (m.history.map Prod.snd) = some spec ∧
      (m.muLocked = false → Matches m spec)) ∧
    (∀ i ret, (i, ret) ∈ m.log → (i, ret) ∈ m.history) ∧
    (∀ i ret, (i, ret) ∈ m.history →
      (i, ret) ∈ m.log ∨ m.calls i = Call.returning ret) ∧
    (m.history.map Prod.fst).Nodup ∧
    (∀ later, ReflTransGen Steps m later → ∀ a ra b rb, (a, ra) ∈ m.log →
      m.nextId ≤ b → (b, rb) ∈ later.history →
      ∃ before after, later.history = before ++ after ∧ (a, ra) ∈ before ∧
        (b, rb) ∈ after) ∧
    Laws (m.history.map Prod.snd) ∧
    (∀ taskId₁ taskId₂ queue, m.queues.lookup taskId₁ = some queue →
      m.queues.lookup taskId₂ = some queue → taskId₁ = taskId₂) ∧
    (∀ i taskId queue, m.calls i = .getOrCreate taskId (.unlocking queue) →
      ∃ q, queue = some q ∧ q ∉ m.closed) ∧
    m.panicked = false := by
  have inv := invariant_reachable reach
  obtain ⟨spec, replays, free, -⟩ := inv.agrees
  have logged : ∀ i ret, (i, ret) ∈ m.log → (i, ret) ∈ m.history := fun i ret mem =>
    (inv.placed.placed i ret).mpr (.inl mem)
  refine ⟨⟨spec, replays, free⟩, logged, fun i ret mem => (inv.placed.placed i ret).mp mem,
    inv.placed.nodup, ?_, Registry.laws_of_replay replays,
    fun _ _ _ => inv.queues_injective, fun _ _ _ => inv.getOrCreate_open, inv.noPanic⟩
  intro later steps a ra b rb returned invoked placed
  obtain ⟨after, grown⟩ := history_prefix steps
  have notYet : (b, rb) ∉ m.history :=
    inv.placed.unplaced b rb (by rw [inv.exclusive.unborn b invoked]; rfl)
  rw [← grown, List.mem_append] at placed
  exact ⟨m.history, after, grown.symm, logged a ra returned, placed.resolve_left notYet⟩

/-- `TestInMemoryManager_DestroyExisting` and `TestInMemoryManager_DestroyNonExistent` as one
schedule with overlapping calls: two `GetOrCreate("task-1")` at once, a `Destroy("task-1")` that
returns before the second of them does, a third `GetOrCreate("task-1")`, and a
`Destroy("task-2")`. -/
def destroyExisting : List Action :=
  [.invoke (.getOrCreate "task-1"), .invoke (.getOrCreate "task-1"),
   .run 0, .run 0, .run 0, .run 0, .run 0, .run 0, .run 1, .run 1, .run 1, .run 1,
   .invoke (.destroy "task-1"), .run 0,
   .run 2, .run 2, .run 2, .run 2, .run 2, .run 2, .run 2, .run 1,
   .invoke (.getOrCreate "task-1"), .run 3, .run 3, .run 3, .run 3, .run 3, .run 3, .run 3,
   .invoke (.destroy "task-2"), .run 4, .run 4, .run 4, .run 4]

/-- The state `destroyExisting` ends in. -/
def destroyExistingState : Manager :=
  (run newInMemoryManager destroyExisting).getD newInMemoryManager

theorem destroyExistingState_reachable : Reachable destroyExistingState :=
  steps_of_run (rfl : run newInMemoryManager destroyExisting = some destroyExistingState)

example : destroyExistingState.log =
    [(0, .getOrCreate "task-1" (some 0)), (2, .destroy "task-1" none),
     (1, .getOrCreate "task-1" (some 0)), (3, .getOrCreate "task-1" (some 1)),
     (4, .destroy "task-2" (some (notFoundError "task-2")))] := rfl

example : destroyExistingState.history.map Prod.fst = [0, 1, 2, 3, 4] := rfl

theorem manager_linearizable_destroyExisting :
    Reachable destroyExistingState ∧
    (∃ spec, Registry.empty.replay (destroyExistingState.history.map Prod.snd) = some spec ∧
      (destroyExistingState.muLocked = false → Matches destroyExistingState spec)) ∧
    (∀ i ret, (i, ret) ∈ destroyExistingState.log →
      (i, ret) ∈ destroyExistingState.history) ∧
    (∀ i ret, (i, ret) ∈ destroyExistingState.history →
      (i, ret) ∈ destroyExistingState.log ∨
        destroyExistingState.calls i = Call.returning ret) ∧
    (destroyExistingState.history.map Prod.fst).Nodup ∧
    (∀ later, ReflTransGen Steps destroyExistingState later → ∀ a ra b rb,
      (a, ra) ∈ destroyExistingState.log → destroyExistingState.nextId ≤ b →
      (b, rb) ∈ later.history →
      ∃ before after, later.history = before ++ after ∧ (a, ra) ∈ before ∧
        (b, rb) ∈ after) ∧
    Laws (destroyExistingState.history.map Prod.snd) ∧
    (∀ taskId₁ taskId₂ queue, destroyExistingState.queues.lookup taskId₁ = some queue →
      destroyExistingState.queues.lookup taskId₂ = some queue → taskId₁ = taskId₂) ∧
    (∀ i taskId queue, destroyExistingState.calls i = .getOrCreate taskId (.unlocking queue) →
      ∃ q, queue = some q ∧ q ∉ destroyExistingState.closed) ∧
    destroyExistingState.panicked = false :=
  ⟨destroyExistingState_reachable,
    manager_linearizable destroyExistingState destroyExistingState_reachable⟩

end A2aGo.QueueManager
