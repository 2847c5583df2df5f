import Mathlib.Data.List.AList

/-!
**The A2A protocol data that the server core reads and writes.**

The Go structs of package `a2a` that the task update manager, the request handler and the task
store validator touch, with the fields those functions read. A field of Go type
`map[string]any` is a type parameter `Meta` of every record that carries one: the task update
manager sees a map by its contents (`Metadata`), the validator sees it as a reference into a
heap, because it identifies containers by address.

* `GoMap`: a Go map, an association list with unique keys (`AList`).
* `GoMap.assignAll`: the loop `for k, v := range src { dst[k] = v }`, and
  `GoMap.lookup_assignAll`: afterwards a key reads from `src` if `src` has it, else from `dst`.
* `Event`: the closed sum of the four event types; `Event.typeName` is what `%T` prints.
-/

namespace A2aGo.Protocol

/-- `a2a.TaskID`, an opaque string. -/
abbrev TaskID := String

/-- A Go map `map[K]V`: each key at most once; ranging over it visits each entry once. -/
abbrev GoMap (K V : Type) := AList (fun _ : K => V)

section GoMap

variable {K V : Type} [DecidableEq K]

/-- The loop `for k, v := range src { dst[k] = v }`. Go ranges in an unspecified order; the keys
of `src` are distinct, so any order gives the same map (`lookup_assignAll`). -/
def GoMap.assignAll (dst src : GoMap K V) : GoMap K V :=
  src.entries.foldl (fun acc entry => acc.insert entry.1 entry.2) dst

theorem foldl_insert_lookup (k : K) :
    ∀ (entries : List (Sigma fun _ : K => V)) (dst : GoMap K V), entries.NodupKeys →
      (entries.foldl (fun acc entry => acc.insert entry.1 entry.2) dst).lookup k =
        (entries.dlookup k).or (dst.lookup k)
  | [], _, _ => rfl
  | ⟨k', v'⟩ :: rest, dst, nodup => by
    have restNodup := (List.nodupKeys_cons.mp nodup).2
    have fresh : k' ∉ rest.keys := (List.nodupKeys_cons.mp nodup).1
    rw [List.foldl_cons, foldl_insert_lookup k rest _ restNodup]
    by_cases same : k = k'
    · subst same
      rw [List.dlookup_eq_none.mpr fresh, AList.lookup_insert, List.dlookup_cons_eq]
      rfl
    · rw [AList.lookup_insert_ne same, List.dlookup_cons_ne _ _ same]

/-- **After `for k, v := range src { dst[k] = v }`**, a key reads from `src` if `src` has it,
and from `dst` otherwise. -/
@[simp] theorem GoMap.lookup_assignAll (dst src : GoMap K V) (k : K) :
    (dst.assignAll src).lookup k = (src.lookup k).or (dst.lookup k) :=
  foldl_insert_lookup k src.entries dst src.nodupKeys

end GoMap

/-- The dynamic type of a non-container value stored in an `any`. -/
inductive GoType
  | bool | int | int8 | int16 | int32 | int64 | float32 | float64 | string
  /-- Any other dynamic type: `uint`, a struct, a pointer, a function, ... -/
  | other (name : String)
  deriving DecidableEq, Repr

/-- A value held in an `any` slot of a Metadata map. A `[]any` is a slice header (backing
array, index of its first element, length) and a `map[string]any` a map reference, both into a
heap; a non-container value is its dynamic type and its printed form. -/
inductive MetaVal
  | nil
  | scalar (type : GoType) (text : String)
  | slice (array offset len : Nat)
  | map (ref : Nat)
  deriving DecidableEq, Repr

/-- A `map[string]any` field seen by its contents: `none` is the nil map. -/
abbrev Metadata := Option (GoMap String MetaVal)

/-- `a2a.Part` (`TextPart`, `DataPart`, `FilePart`); the code reads only `Meta()`. -/
inductive Part (Meta : Type)
  | text (text : String) (metadata : Meta)
  | data (metadata : Meta)
  | file (metadata : Meta)
  deriving Repr

/-- `Part.Meta()`. -/
def Part.meta {Meta : Type} : Part Meta → Meta
  | .text _ metadata | .data metadata | .file metadata => metadata

/-- `a2a.Message`. -/
structure Message (Meta : Type) where
  id : String
  contextId : String
  taskId : TaskID
  parts : List (Part Meta)
  metadata : Meta
  deriving Repr

/-- `a2a.Artifact`. -/
structure Artifact (Meta : Type) where
  id : String
  parts : List (Part Meta)
  metadata : Meta
  deriving Repr

/-- `a2a.TaskState`. -/
inductive TaskState
  | submitted | working | inputRequired | completed | canceled | failed | rejected
  | authRequired | unknown
  deriving DecidableEq, Repr

/-- `a2a.TaskStatus`; `Message` is a pointer, `none` when nil. -/
structure TaskStatus (Meta : Type) where
  state : TaskState
  message : Option (Message Meta)
  deriving Repr

/-- `a2a.Task`. `History` and `Artifacts` are slices of pointers, so an element may be nil. -/
structure Task (Meta : Type) where
  id : TaskID
  contextId : String
  status : TaskStatus Meta
  history : List (Option (Message Meta))
  artifacts : List (Option (Artifact Meta))
  metadata : Meta
  deriving Repr

/-- `a2a.TaskStatusUpdateEvent`. -/
structure TaskStatusUpdateEvent (Meta : Type) where
  taskId : TaskID
  contextId : String
  status : TaskStatus Meta
  metadata : Meta
  deriving Repr

/-- `a2a.TaskArtifactUpdateEvent`, with the fields the task update manager reads. -/
structure TaskArtifactUpdateEvent where
  taskId : TaskID
  contextId : String
  deriving Repr

/-- `a2a.Event`: `*Message`, `*Task`, `*TaskStatusUpdateEvent` or `*TaskArtifactUpdateEvent`. -/
inductive Event (Meta : Type)
  | message (message : Message Meta)
  | task (task : Task Meta)
  | statusUpdate (event : TaskStatusUpdateEvent Meta)
  | artifactUpdate (event : TaskArtifactUpdateEvent)
  deriving Repr

/-- What `fmt`'s `%T` prints for an event. -/
def Event.typeName {Meta : Type} : Event Meta → String
  | .message _ => "*a2a.Message"
  | .task _ => "*a2a.Task"
  | .statusUpdate _ => "*a2a.TaskStatusUpdateEvent"
  | .artifactUpdate _ => "*a2a.TaskArtifactUpdateEvent"

/-- The assertion `event.(a2a.SendMessageResult)`: a `*Message` or a `*Task`. -/
def Event.isSendMessageResult {Meta : Type} : Event Meta → Bool
  | .message _ | .task _ => true
  | _ => false

/-- The task and context an event names; a plain message names none. -/
def Event.ids {Meta : Type} : Event Meta → Option (TaskID × String)
  | .message _ => none
  | .task snapshot => some (snapshot.id, snapshot.contextId)
  | .statusUpdate event => some (event.taskId, event.contextId)
  | .artifactUpdate event => some (event.taskId, event.contextId)

end A2aGo.Protocol
