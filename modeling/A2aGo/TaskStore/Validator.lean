import A2aGo.Protocol.Types

/-!
**The task store's Metadata validator, over a heap of containers.**

`validateMetaRecursive` walks a value of an `any` slot depth first. A `[]any` or a
`map[string]any` is keyed by what `fmt.Sprintf("%p", value)` prints, the address of the element
a slice header points at or of the map, and the keys of the containers being walked are kept in
the map `processing`: meeting one of them again is a circular reference. So the validator sees
Metadata as references into a `Heap`, and two slices of one backing array that start at the same
element have the same key.

The Go function mutates `processing`: it adds a container's key before the loop over the
elements and deletes it in a deferred call. `validateMetaRecursive` takes the map and returns it
with its result (a `Visit`); `fuel` bounds the depth, and `none` is a walk that ran out of it.
`validateMeta` gives one more step than the heap has keys, which is always enough.

* `pointerKey_cases`: a value is a container, a value accepted at once, or one of another type;
* `Heap.key_mem_keys`: a container with an element has one of the heap's keys.
-/

namespace A2aGo.TaskStore

open A2aGo.Protocol

/-- The memory the Metadata's containers live in: the backing arrays of `[]any` slices and the
`map[string]any` maps, each by its index. -/
structure Heap where
  arrays : List (List MetaVal)
  maps : List (GoMap String MetaVal)

/-- A `map[string]any` field as the validator sees it: a map of the heap, `none` for a nil map. -/
abbrev MetaRef := Option Nat

/-- What `fmt.Sprintf("%p", value)` prints for a container: the address of the element of a
backing array that a slice header points at, or the address of a map. -/
inductive Addr
  | elem (array index : Nat)
  | map (ref : Nat)
  deriving DecidableEq, Repr

/-- The `%p` key of a container; `none` for a value that is not one. -/
def pointerKey : MetaVal → Option Addr
  | .slice array offset _ => some (.elem array offset)
  | .map ref => some (.map ref)
  | _ => none

/-- The types the `switch` lets through, and the containers: all but the other types. -/
def permitted : MetaVal → Bool
  | .scalar (.other _) _ => false
  | _ => true

/-- What a container holds: `range arr` over the window of the backing array a slice header
shows, or `range m` over the values of a map. -/
def Heap.children (heap : Heap) : MetaVal → List MetaVal
  | .slice array offset len => ((heap.arrays.getD array []).drop offset).take len
  | .map ref => (heap.maps.getD ref ∅).entries.map fun entry => entry.2
  | _ => []

/-- Every key a container with an element can have: an element of a backing array, or a map. -/
def Heap.keys (heap : Heap) : List Addr :=
  ((List.range heap.arrays.length).flatMap fun array =>
      (List.range (heap.arrays.getD array []).length).map (.elem array)) ++
    (List.range heap.maps.length).map .map

/-- The outcome of a check: `some (.ok ())` is a nil `error`, `some (.error text)` an error,
`none` a walk that ran out of fuel. -/
abbrev Check := ExceptT String Option Unit

/-- The outcome of `validateMetaRecursive`, with the `processing` map as it returns. -/
abbrev Visit := Option (Except String Unit × List Addr)

/-- `fmt.Errorf("circular reference in Metadata")`. -/
def circularReference : String := "circular reference in Metadata"

/-- `fmt.Errorf("%T is not permitted in Metadata, ...", value)` for a value of type `typeName`. -/
def notPermitted (typeName : String) : String :=
  typeName ++ " is not permitted in Metadata, must be one of nil, bool, int, float, string, " ++
    "[]any, map[string]any"

/-! ### The walk -/

/-- The loop `for _, elem := range elems { if err := validate(elem, processing); err != nil
{ return err } }`, which returns the first error, with `processing` threaded through. -/
def rangeElems (validate : MetaVal → List Addr → Visit) : List MetaVal → List Addr → Visit
  | [], processing => some (.ok (), processing)
  | elem :: rest, processing =>
    match validate elem processing with
    | some (.ok (), after) => rangeElems validate rest after
    | other => other

/-- The body of `validateMetaRecursive` at a container keyed `key` holding `elems`: the lookup
in `processing`, `processing[key] = struct{}{}`, the loop, and on its every return the deferred
`delete(processing, key)`. -/
def visitContainer (validate : MetaVal → List Addr → Visit) (key : Addr) (elems : List MetaVal)
    (processing : List Addr) : Visit :=
  if key ∈ processing then some (.error circularReference, processing)
  else (rangeElems validate elems (key :: processing)).map fun (result, after) =>
    (result, after.erase key)

/-- `validateMetaRecursive(value, processing)`. A value of a dynamic type outside the switch
(`uint`, a struct, a pointer, ...) is rejected with the not-permitted error before any key is
looked up; in Go a pointer whose address equals an enclosing container's `%p` key is rejected with
the circular-reference error instead. Both are errors. The fuel bounds the nesting; the fuel
`validateMeta` gives is always enough. -/
def validateMetaRecursive (heap : Heap) : Nat → MetaVal → List Addr → Visit
  | _, .nil, processing => some (.ok (), processing)
  | _, .scalar (.other name) _, processing => some (.error (notPermitted name), processing)
  | _, .scalar _ _, processing => some (.ok (), processing)
  | 0, .slice .., _ | 0, .map _, _ => none
  | fuel + 1, .slice array offset len, processing =>
    visitContainer (validateMetaRecursive heap fuel) (.elem array offset)
      (heap.children (.slice array offset len)) processing
  | fuel + 1, .map ref, processing =>
    visitContainer (validateMetaRecursive heap fuel) (.map ref) (heap.children (.map ref))
      processing

/-- `validateMeta(meta)`: the walk from the map with an empty `processing`, given one more step
than the heap has keys. A nil map ranges over nothing. -/
def validateMeta (heap : Heap) : MetaRef → Check
  | none => pure ()
  | some ref =>
    ExceptT.mk ((validateMetaRecursive heap (heap.keys.length + 1) (.map ref) []).map Prod.fst)

/-- `validateParts(parts)`: each part's `Meta()`. -/
def validateParts (heap : Heap) (parts : List (Protocol.Part MetaRef)) : Check :=
  parts.forM fun part => validateMeta heap part.meta

/-- The body of `validateMessage` and `validateArtifact`: nothing for a nil pointer, else the
parts and then the record's own Metadata. -/
def validateRecord {α : Type} (heap : Heap) (parts : α → List (Protocol.Part MetaRef))
    (metadata : α → MetaRef) : Option α → Check
  | none => pure ()
  | some record => do
    validateParts heap (parts record)
    validateMeta heap (metadata record)

/-- `validateMessage(msg)`. -/
def validateMessage (heap : Heap) : Option (Protocol.Message MetaRef) → Check :=
  validateRecord heap Protocol.Message.parts Protocol.Message.metadata

/-- `validateArtifact(artifact)`. -/
def validateArtifact (heap : Heap) : Option (Protocol.Artifact MetaRef) → Check :=
  validateRecord heap Protocol.Artifact.parts Protocol.Artifact.metadata

/-- `validateTask(task)`: the status message, the history, the artifacts, then the task's own
Metadata. -/
def validateTask (heap : Heap) : Option (Protocol.Task MetaRef) → Check
  | none => pure ()
  | some task => do
    validateMessage heap task.status.message
    task.history.forM (validateMessage heap)
    task.artifacts.forM (validateArtifact heap)
    validateMeta heap task.metadata

section Heap

variable {heap : Heap}

/-- A value is a container, a value the walk accepts at once, or one of another type. -/
theorem pointerKey_cases (value : MetaVal) :
    (∃ key, pointerKey value = some key) ∨
      (pointerKey value = none ∧ permitted value = true) ∨
      ∃ name text, value = .scalar (.other name) text := by
  rcases value with _ | ⟨_ | _ | _ | _ | _ | _ | _ | _ | _ | _, _⟩ | _ | _ <;>
    simp [pointerKey, permitted]

theorem Heap.children_eq_nil {value : MetaVal} (unkeyed : pointerKey value = none) :
    heap.children value = [] := by
  cases value <;> first | rfl | cases unkeyed

/-- A container with an element has its key among the heap's keys. -/
theorem Heap.key_mem_keys {value child : MetaVal} {key : Addr}
    (keyed : pointerKey value = some key) (holds : child ∈ heap.children value) :
    key ∈ heap.keys := by
  cases value with
  | slice array offset len =>
    simp only [pointerKey, Option.some.injEq] at keyed
    subst keyed
    have inside : offset < (heap.arrays.getD array []).length := by
      by_contra outside
      have dropped := List.mem_of_mem_take holds
      rw [List.drop_eq_nil_of_le (Nat.le_of_not_lt outside)] at dropped
      cases dropped
    have present : array < heap.arrays.length := by
      by_contra outside
      rw [List.getD_eq_getElem?_getD, List.getElem?_eq_none (Nat.le_of_not_lt outside)] at inside
      cases inside
    simp only [Heap.keys, List.mem_append, List.mem_flatMap, List.mem_range, List.mem_map]
    exact .inl ⟨array, present, offset, inside, rfl⟩
  | map ref =>
    simp only [pointerKey, Option.some.injEq] at keyed
    subst keyed
    have present : ref < heap.maps.length := by
      by_contra outside
      simp only [Heap.children, List.getD_eq_getElem?_getD,
        List.getElem?_eq_none (Nat.le_of_not_lt outside)] at holds
      cases holds
    simp only [Heap.keys, List.mem_append, List.mem_flatMap, List.mem_range, List.mem_map]
    exact .inr ⟨ref, present, rfl⟩
  | nil | scalar => cases keyed

end Heap

end A2aGo.TaskStore
