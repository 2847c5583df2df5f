import A2aGo.TaskStore.Validator

/-!
**The Metadata walk with `processing` as a stack, and the code's function as that walk.**

Every call of `validateMetaRecursive` returns with `processing` as it found it: it deletes the key
it added on every return after adding it, and the calls on its elements restore the map in turn.
So the map is a stack, and `walk` passes it by value; `validateMetaRecursive_eq_walk` says the
code's function is the walk, with `processing` unchanged on return. The proofs about the
validator are proofs about `walk`.

* `walk_succ`: one step of the walk at a container, for slices and maps alike;
* `forM_ok_iff`, `forM_error`, `forM_none`: the loop returns nil when every element does, and
  otherwise the first error or the first run out of fuel;
* `validateMetaRecursive_eq_walk`: the code's function refines the walk;
* `validateMeta_isSome`: `validateMeta` never runs out of fuel;
* `validateTask_eq`: `validateTask` checks the Metadata fields of the task in one loop.
-/

namespace A2aGo.TaskStore

open A2aGo.Protocol

/-! ### The walk -/

/-- The body of `walk` at a container keyed `key` holding `elems`: the `processing` check, then
the loop over the elements with `key` pushed. -/
def walkContainer (validate : MetaVal → List Addr → Check) (key : Addr) (elems : List MetaVal)
    (processing : List Addr) : Check :=
  if key ∈ processing then throw circularReference
  else elems.forM fun elem => validate elem (key :: processing)

/-- `validateMetaRecursive` with `processing` passed by value. -/
def walk (heap : Heap) : Nat → MetaVal → List Addr → Check
  | _, .nil, _ => pure ()
  | _, .scalar (.other name) _, _ => throw (notPermitted name)
  | _, .scalar _ _, _ => pure ()
  | 0, .slice .., _ | 0, .map _, _ => ExceptT.mk none
  | fuel + 1, .slice array offset len, processing =>
    walkContainer (walk heap fuel) (.elem array offset)
      (heap.children (.slice array offset len)) processing
  | fuel + 1, .map ref, processing =>
    walkContainer (walk heap fuel) (.map ref) (heap.children (.map ref))
      processing

/-! ### The loop `for _, elem := range elems { if err := ...; err != nil { return err } }` -/

section Loop

variable {α : Type} (f : α → Check)

theorem forM_cons_run (x : α) (xs : List α) :
    ((x :: xs).forM f).run =
      (f x).run.bind fun | .ok () => (xs.forM f).run | .error e => some (.error e) := by
  rw [List.forM_cons', ExceptT.run_bind]
  rcases (f x).run with _ | _ | _ <;> rfl

/-- **The loop returns nil exactly when every element does.** -/
theorem forM_ok_iff (xs : List α) :
    (xs.forM f).run = some (.ok ()) ↔ ∀ x ∈ xs, (f x).run = some (.ok ()) := by
  induction xs with
  | nil => simp
  | cons x xs ih =>
    rw [forM_cons_run, List.forall_mem_cons, ← ih]
    rcases (f x).run with _ | _ | _ <;> simp

/-- An error of the loop is an error of one of the elements. -/
theorem forM_error {xs : List α} {e : String} (failed : (xs.forM f).run = some (.error e)) :
    ∃ x ∈ xs, (f x).run = some (.error e) := by
  induction xs with
  | nil => cases failed
  | cons x xs ih =>
    rw [forM_cons_run] at failed
    rcases checked : (f x).run with _ | e' | _ <;> rw [checked] at failed
    · cases failed
    · cases failed
      exact ⟨x, List.mem_cons_self _ _, checked⟩
    · obtain ⟨y, member, failedAt⟩ := ih failed
      exact ⟨y, List.mem_cons_of_mem _ member, failedAt⟩

/-- A loop out of fuel has an element out of fuel. -/
theorem forM_none {xs : List α} (stuck : (xs.forM f).run = none) :
    ∃ x ∈ xs, (f x).run = none := by
  induction xs with
  | nil => cases stuck
  | cons x xs ih =>
    rw [forM_cons_run] at stuck
    rcases checked : (f x).run with _ | _ | _ <;> rw [checked] at stuck
    · exact ⟨x, List.mem_cons_self _ _, checked⟩
    · cases stuck
    · obtain ⟨y, member, stuckAt⟩ := ih stuck
      exact ⟨y, List.mem_cons_of_mem _ member, stuckAt⟩

theorem forM_map {β : Type} (g : β → α) (ys : List β) :
    (ys.map g).forM f = ys.forM fun y => f (g y) := by
  induction ys with
  | nil => rfl
  | cons y ys ih => simp only [List.map_cons, List.forM_cons', ih]

theorem forM_flatMap {β : Type} (g : β → List α) (ys : List β) :
    (ys.flatMap g).forM f = ys.forM fun y => (g y).forM f := by
  induction ys with
  | nil => rfl
  | cons y ys ih => simp only [List.flatMap_cons, List.forM_append, ih, List.forM_cons']

end Loop

/-! ### The code's function is the walk -/

section Refinement

variable {heap : Heap}

/-- A loop whose every element's call returns with `processing` as it found it returns so too,
with the result of the walk's loop. -/
theorem rangeElems_eq_forM {validate : MetaVal → List Addr → Visit} {check : MetaVal → Check}
    {processing : List Addr}
    (restores : ∀ elem, validate elem processing = (check elem).run.map (·, processing))
    (elems : List MetaVal) :
    rangeElems validate elems processing = (elems.forM check).run.map (·, processing) := by
  induction elems with
  | nil => rfl
  | cons elem rest ih =>
    rw [rangeElems, restores, forM_cons_run]
    rcases (check elem).run with _ | _ | _
    · rfl
    · rfl
    · exact ih

/-- At a container, the deferred `delete` undoes the insert once the loop has restored the map. -/
theorem visitContainer_eq {validate : MetaVal → List Addr → Visit}
    {check : MetaVal → List Addr → Check}
    (restores : ∀ elem processing,
      validate elem processing = (check elem processing).run.map (·, processing))
    (key : Addr) (elems : List MetaVal) (processing : List Addr) :
    visitContainer validate key elems processing =
      (walkContainer check key elems processing).run.map (·, processing) := by
  unfold visitContainer walkContainer
  split_ifs
  · rfl
  · rw [rangeElems_eq_forM (restores · _), Option.map_map]
    congr 1
    funext result
    simp

/-- **The code's function is the walk**: it returns the walk's result, with `processing` as it
was on entry. -/
theorem validateMetaRecursive_eq_walk (fuel : Nat) (value : MetaVal) (processing : List Addr) :
    validateMetaRecursive heap fuel value processing =
      (walk heap fuel value processing).run.map (·, processing) := by
  induction fuel generalizing value processing with
  | zero =>
    cases value with
    | scalar type text => cases type <;> rfl
    | _ => rfl
  | succ fuel ih =>
    cases value with
    | scalar type text => cases type <;> rfl
    | slice | map => exact visitContainer_eq ih _ _ _
    | nil => rfl

theorem validateMeta_eq_walk (ref : Nat) :
    validateMeta heap (some ref) = walk heap (heap.keys.length + 1) (.map ref) [] := by
  rw [validateMeta, validateMetaRecursive_eq_walk, Option.map_map]
  show ExceptT.mk (Option.map id _) = _
  rw [Option.map_id]
  rfl

end Refinement

section Walk

variable {heap : Heap}

theorem walk_permitted {value : MetaVal} (unkeyed : pointerKey value = none)
    (allowed : permitted value = true) (fuel : Nat) (processing : List Addr) :
    walk heap fuel value processing = pure () := by
  cases value with
  | nil => cases fuel <;> rfl
  | scalar type text => cases type <;> first | (cases fuel <;> rfl) | cases allowed
  | slice | map => cases unkeyed

@[simp] theorem walk_other (name text : String) (fuel : Nat)
    (processing : List Addr) :
    walk heap fuel (.scalar (.other name) text) processing =
      throw (notPermitted name) := by
  cases fuel <;> rfl

/-- **One step of the walk at a container.** -/
theorem walk_succ {value : MetaVal} {key : Addr}
    (keyed : pointerKey value = some key) (fuel : Nat) (processing : List Addr) :
    walk heap (fuel + 1) value processing =
      walkContainer (walk heap fuel) key (heap.children value) processing := by
  cases value <;> simp only [pointerKey, Option.some.injEq, reduceCtorEq] at keyed <;>
    subst keyed <;> rfl

theorem walk_zero {value : MetaVal} {key : Addr}
    (keyed : pointerKey value = some key) (processing : List Addr) :
    (walk heap 0 value processing).run = none := by
  cases value <;> simp only [pointerKey, reduceCtorEq] at keyed <;> rfl

end Walk

/-! ### Termination -/

section Termination

variable {heap : Heap}

/-- The walk returns when a measure falls from each container with a fresh key to each of its
elements, under a side condition on `processing` that pushing the key keeps: fuel above the
measure is then enough. -/
theorem walk_isSome_of_falls (inv : List Addr → Prop) (measure : MetaVal → List Addr → Nat)
    (falls : ∀ value child key processing, inv processing → pointerKey value = some key →
      key ∉ processing → child ∈ heap.children value →
      inv (key :: processing) ∧ measure child (key :: processing) < measure value processing)
    (fuel : Nat) (value : MetaVal) (processing : List Addr) (holds : inv processing)
    (enough : measure value processing < fuel) :
    (walk heap fuel value processing).run.isSome := by
  induction fuel generalizing value processing with
  | zero => exact absurd enough (Nat.not_lt_zero _)
  | succ fuel ih =>
    rcases pointerKey_cases value with
      ⟨key, keyed⟩ | ⟨unkeyed, allowed⟩ | ⟨name, text, rfl⟩
    · rw [walk_succ keyed, walkContainer]
      split_ifs with seen
      · rfl
      · refine Option.ne_none_iff_isSome.mp fun stuck => ?_
        obtain ⟨child, member, stuckAt⟩ := forM_none _ stuck
        obtain ⟨pushed, fewer⟩ := falls value child key processing holds keyed seen member
        have returned := ih child (key :: processing) pushed (by omega)
        rw [stuckAt] at returned
        cases returned
    · rw [walk_permitted unkeyed allowed]
      rfl
    · rw [walk_other]
      rfl

/-- The walk has fuel for every key not yet in `processing`. -/
theorem walk_isSome (fuel : Nat) (value : MetaVal) (processing : List Addr)
    (distinct : processing.Nodup) (known : processing ⊆ heap.keys)
    (enough : heap.keys.length < fuel + processing.length) :
    (walk heap fuel value processing).run.isSome := by
  refine walk_isSome_of_falls (fun processing => processing.Nodup ∧ processing ⊆ heap.keys)
    (fun _ processing => heap.keys.length - processing.length) (fun value child key processing
      ⟨distinct, known⟩ keyed seen member => ?_) fuel value processing ⟨distinct, known⟩ ?_
  · have pushed : (key :: processing).Nodup ∧ key :: processing ⊆ heap.keys :=
      ⟨List.nodup_cons.mpr ⟨seen, distinct⟩,
        List.cons_subset.mpr ⟨Heap.key_mem_keys keyed member, known⟩⟩
    have bounded := (List.subperm_of_subset pushed.1 pushed.2).length_le
    simp only [List.length_cons] at bounded ⊢
    exact ⟨pushed, by omega⟩
  · show heap.keys.length - processing.length < fuel
    have bounded := (List.subperm_of_subset distinct known).length_le
    omega

/-- **`validateMeta` returns on every heap.** -/
theorem validateMeta_isSome (meta : MetaRef) : (validateMeta heap meta).run.isSome := by
  cases meta with
  | none => rfl
  | some ref =>
    rw [validateMeta_eq_walk]
    exact walk_isSome _ _ [] List.nodup_nil (List.nil_subset _) (by simp)

end Termination

/-! ### The Metadata fields of a task -/

/-- The Metadata fields `validateRecord` checks: each part's, then the record's own. -/
def recordMetas {α : Type} (parts : α → List (Protocol.Part MetaRef))
    (metadata : α → MetaRef) : Option α → List MetaRef
  | none => []
  | some record => (parts record).map Protocol.Part.meta ++ [metadata record]

/-- The Metadata fields `validateTask` checks, in its order. -/
def taskMetas : Option (Protocol.Task MetaRef) → List MetaRef
  | none => []
  | some task =>
    recordMetas Protocol.Message.parts Protocol.Message.metadata task.status.message ++
      task.history.flatMap (recordMetas Protocol.Message.parts Protocol.Message.metadata) ++
      task.artifacts.flatMap (recordMetas Protocol.Artifact.parts Protocol.Artifact.metadata) ++
      [task.metadata]

theorem validateRecord_eq {α : Type} (heap : Heap) (parts : α → List (Protocol.Part MetaRef))
    (metadata : α → MetaRef) :
    validateRecord heap parts metadata =
      fun record => (recordMetas parts metadata record).forM (validateMeta heap) := by
  funext record
  cases record with
  | none => rfl
  | some record =>
    simp only [validateRecord, validateParts, recordMetas, List.forM_append, forM_map,
      List.forM_cons', List.forM_nil', bind_pure_unit]

/-- **`validateTask` is one loop over the task's Metadata fields**: it returns the first error
`validateMeta` gives among them, in its order, and nil if there is none. -/
theorem validateTask_eq (heap : Heap) (task : Option (Protocol.Task MetaRef)) :
    validateTask heap task = (taskMetas task).forM (validateMeta heap) := by
  cases task with
  | none => rfl
  | some task =>
    simp only [validateTask, taskMetas, List.forM_append, forM_flatMap, validateMessage,
      validateArtifact, validateRecord_eq, List.forM_cons', List.forM_nil', bind_pure_unit,
      bind_assoc]

end A2aGo.TaskStore
