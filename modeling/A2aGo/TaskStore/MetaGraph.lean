import A2aGo.TaskStore.Walk
import Mathlib.Logic.Relation

/-!
**What the Metadata validator accepts: permitted, acyclic graphs, up to the `%p` keys.**

Metadata is a graph on the heap: a container holds the values of its slots. The law a nil
result should mean is `Heap.Valid`: every value reachable from the Metadata has a permitted type,
and no container is reachable from itself. The walk sees containers only through their keys, and
two different containers can share one: a slice and a reslice of it that starts at the same
element. So:

* `walk_valid`: a nil result means the graph below the value is valid, for every
  heap and every `processing`;
* `walk_no_error`: a valid graph whose reachable containers have distinct keys
  gets no error, and so nil (`validateMeta_isSome`);
* `validateMeta_sound`, `validateTask_ok_iff`: the same for `validateMeta` and `validateTask`;
* `validateMeta_rejects_reslice`: `x := []any{"s", nil}; x[1] = x[:1]` is valid and acyclic, and
  the walk reports a circular reference, since `x[:1]` has the key of `x`.
-/

namespace A2aGo.TaskStore

open A2aGo.Protocol Relation

/-! ### The graph of a heap -/

section Graph

variable (heap : Heap)

/-- `child` is held by `container`: an element of a slice, or a value of a map. -/
def Heap.Holds (container child : MetaVal) : Prop := child ∈ heap.children container

/-- `value` is reachable from `root` through the containers' slots. -/
def Heap.Reaches (root value : MetaVal) : Prop := ReflTransGen heap.Holds root value

/-- The law for the graph below `root`: every reachable value has a permitted type, and no
container is reachable from itself. -/
structure Heap.Valid (root : MetaVal) : Prop where
  permitted : ∀ value, heap.Reaches root value → permitted value = true
  acyclic : ∀ value, heap.Reaches root value → ¬ TransGen heap.Holds value value

/-- Distinct containers below `root` have distinct `%p` keys. -/
def Heap.KeysDistinct (root : MetaVal) : Prop :=
  ∀ first second key, heap.Reaches root first → heap.Reaches root second →
    pointerKey first = some key → pointerKey second = some key → first = second

/-- The law for a Metadata field; a nil map holds nothing. -/
def Heap.ValidMeta : MetaRef → Prop
  | none => True
  | some ref => heap.Valid (.map ref)

/-- Distinct keys below a Metadata field. -/
def Heap.KeysDistinctMeta : MetaRef → Prop
  | none => True
  | some ref => heap.KeysDistinct (.map ref)

end Graph

section Reach

variable {heap : Heap}

theorem Heap.Valid.reaches {root value : MetaVal} (valid : heap.Valid root)
    (reach : heap.Reaches root value) : heap.Valid value :=
  ⟨fun other below => valid.permitted other (reach.trans below),
    fun other below => valid.acyclic other (reach.trans below)⟩

theorem Heap.KeysDistinct.reaches {root value : MetaVal} (distinct : heap.KeysDistinct root)
    (reach : heap.Reaches root value) : heap.KeysDistinct value :=
  fun first second key below below' => distinct first second key (reach.trans below)
    (reach.trans below')

/-- What is reachable from `root` stays in any list that holds `root` and is closed under
`Holds`. -/
theorem Heap.reaches_mem {root value : MetaVal} (S : List MetaVal) (start : root ∈ S)
    (closed : ∀ v ∈ S, ∀ w ∈ heap.children v, w ∈ S) (reach : heap.Reaches root value) :
    value ∈ S := by
  induction reach with
  | refl => exact start
  | tail _ holds inS => exact closed _ inS _ holds

/-- **A finite certificate of validity**: a closed list of values, all permitted, on which a rank
falls along every slot. -/
theorem Heap.valid_of_rank {root : MetaVal} (S : List MetaVal) (rank : MetaVal → Nat)
    (start : root ∈ S)
    (closed : ∀ v ∈ S, ∀ w ∈ heap.children v, w ∈ S ∧ rank w < rank v)
    (allowed : ∀ v ∈ S, permitted v = true) : heap.Valid root := by
  have inS : ∀ value, heap.Reaches root value → value ∈ S := fun _ =>
    heap.reaches_mem S start fun v inS w holds => (closed v inS w holds).1
  have falls : ∀ v w, v ∈ S → TransGen heap.Holds v w → w ∈ S ∧ rank w < rank v := by
    intro v w inS path
    induction path with
    | single holds => exact closed v inS _ holds
    | tail _ holds ih =>
      have next := closed _ ih.1 _ holds
      exact ⟨next.1, next.2.trans ih.2⟩
  exact ⟨fun value reach => allowed value (inS value reach),
    fun value reach cycle => (falls value value (inS value reach) cycle).2.false⟩

/-- Distinct keys, checked on a closed list. -/
theorem Heap.keysDistinct_of_closed {root : MetaVal} (S : List MetaVal) (start : root ∈ S)
    (closed : ∀ v ∈ S, ∀ w ∈ heap.children v, w ∈ S)
    (distinct : ∀ a ∈ S, ∀ b ∈ S, (pointerKey a).isSome → pointerKey a = pointerKey b →
      a = b) :
    heap.KeysDistinct root := by
  intro first second key reachFirst reachSecond keyFirst keySecond
  exact distinct first (heap.reaches_mem S start closed reachFirst) second
    (heap.reaches_mem S start closed reachSecond) (by rw [keyFirst]; rfl)
    (keyFirst.trans keySecond.symm)

end Reach

/-! ### A nil result is valid -/

section Sound

variable {heap : Heap}

/-- `walk heap fuel value processing` returns nil. -/
abbrev Returns (heap : Heap) (fuel : Nat) (value : MetaVal) (processing : List Addr) : Prop :=
  (walk heap fuel value processing).run = some (.ok ())

/-- A nil result at a container: its key was fresh, and every element returned nil one level
down, with the key in `processing`. -/
theorem Returns.container {fuel : Nat} {value : MetaVal} {processing : List Addr} {key : Addr}
    (returns : Returns heap fuel value processing) (keyed : pointerKey value = some key) :
    ∃ fuel', fuel = fuel' + 1 ∧ key ∉ processing ∧
      ∀ child ∈ heap.children value, Returns heap fuel' child (key :: processing) := by
  cases fuel with
  | zero => rw [Returns, walk_zero keyed] at returns; cases returns
  | succ fuel =>
    rw [Returns, walk_succ keyed, walkContainer] at returns
    split_ifs at returns with seen
    · cases returns
    · exact ⟨fuel, rfl, seen, (forM_ok_iff _ _).mp returns⟩

theorem Returns.permitted {fuel : Nat} {value : MetaVal} {processing : List Addr}
    (returns : Returns heap fuel value processing) : permitted value = true := by
  rcases pointerKey_cases value with ⟨key, keyed⟩ | ⟨_, allowed⟩ | ⟨name, text, rfl⟩
  · cases value <;> first | rfl | cases keyed
  · exact allowed
  · rw [Returns, walk_other] at returns
    cases returns

/-- The walk went through everything reachable, each time with more in `processing`. -/
theorem Returns.reaches {fuel : Nat} {value other : MetaVal} {processing : List Addr}
    (returns : Returns heap fuel value processing) (reach : heap.Reaches value other) :
    ∃ fuel' processing', processing ⊆ processing' ∧ Returns heap fuel' other processing' := by
  induction reach with
  | refl => exact ⟨fuel, processing, List.Subset.refl _, returns⟩
  | @tail middle child _ holds ih =>
    obtain ⟨fuel', processing', grew, returnsMiddle⟩ := ih
    rcases keyed : pointerKey middle with _ | key
    · rw [Heap.Holds, Heap.children_eq_nil keyed] at holds
      cases holds
    · obtain ⟨fuel'', -, -, children⟩ := returnsMiddle.container keyed
      exact ⟨fuel'', key :: processing', grew.trans (List.subset_cons_self _ _),
        children child holds⟩

/-- **A nil result means the graph below the value is valid.** -/
theorem walk_valid {fuel : Nat} {value : MetaVal} {processing : List Addr}
    (returns : Returns heap fuel value processing) : heap.Valid value := by
  refine ⟨fun other reach => ?_, fun other reach cycle => ?_⟩
  · obtain ⟨_, _, -, returnsOther⟩ := returns.reaches reach
    exact returnsOther.permitted
  · obtain ⟨_, processing', -, returnsOther⟩ := returns.reaches reach
    obtain ⟨child, holds, back⟩ := TransGen.head'_iff.mp cycle
    rcases keyed : pointerKey other with _ | key
    · rw [Heap.Holds, Heap.children_eq_nil keyed] at holds
      cases holds
    · obtain ⟨_, -, -, children⟩ := returnsOther.container keyed
      obtain ⟨_, processing'', grew, returnsAgain⟩ := (children child holds).reaches back
      obtain ⟨_, -, fresh, -⟩ := returnsAgain.container keyed
      exact fresh (grew (List.mem_cons_self _ _))

/-- **`validateMeta` is sound**: a nil result means the Metadata is valid. -/
theorem validateMeta_sound {meta : MetaRef}
    (returns : (validateMeta heap meta).run = some (.ok ())) : heap.ValidMeta meta := by
  cases meta with
  | none => trivial
  | some ref =>
    rw [validateMeta_eq_walk] at returns
    exact walk_valid returns

end Sound

/-! ### A valid graph with distinct keys passes -/

section Complete

variable {heap : Heap}

/-- A valid value that is not a container gets no error. -/
theorem Heap.Valid.no_error_unkeyed {fuel : Nat} {value : MetaVal} {processing : List Addr}
    (valid : heap.Valid value) (unkeyed : pointerKey value = none) (e : String) :
    (walk heap fuel value processing).run ≠ some (.error e) := by
  rw [walk_permitted unkeyed (valid.permitted value ReflTransGen.refl)]
  exact fun failed => Except.noConfusion (Option.some.inj failed)

/-- **No error on a valid graph with distinct keys**, none of them in `processing`. -/
theorem walk_no_error (fuel : Nat) {value : MetaVal} {processing : List Addr}
    (valid : heap.Valid value) (distinct : heap.KeysDistinct value)
    (fresh : ∀ other key, heap.Reaches value other → pointerKey other = some key →
      key ∉ processing) (e : String) :
    (walk heap fuel value processing).run ≠ some (.error e) := by
  induction fuel generalizing value processing with
  | zero =>
    rcases keyed : pointerKey value with _ | key
    · exact valid.no_error_unkeyed keyed e
    · rw [walk_zero keyed]
      exact Option.noConfusion
  | succ fuel ih =>
    rcases keyed : pointerKey value with _ | key
    · exact valid.no_error_unkeyed keyed e
    rw [walk_succ keyed, walkContainer,
      if_neg (fresh value key ReflTransGen.refl keyed)]
    intro failed
    obtain ⟨child, holds, failedAt⟩ := forM_error _ failed
    have below : heap.Reaches value child := ReflTransGen.single holds
    refine ih (valid.reaches below) (distinct.reaches below) (fun other key' reach keyed' => ?_)
      failedAt
    rintro (same | ⟨_, seen⟩)
    · have back : other = value :=
        distinct other value key (below.trans reach) ReflTransGen.refl keyed' keyed
      subst back
      exact valid.acyclic other ReflTransGen.refl (TransGen.head' holds reach)
    · exact fresh other key' (below.trans reach) keyed' seen

/-- With distinct keys, `validateMeta` returns nil exactly on valid Metadata. -/
theorem validateMeta_ok_iff {meta : MetaRef} (distinct : heap.KeysDistinctMeta meta) :
    (validateMeta heap meta).run = some (.ok ()) ↔ heap.ValidMeta meta := by
  cases meta with
  | none => exact iff_of_true rfl trivial
  | some ref =>
    rw [validateMeta_eq_walk]
    refine ⟨walk_valid, fun valid => ?_⟩
    have total : (walk heap (heap.keys.length + 1) (.map ref) []).run.isSome :=
      walk_isSome _ _ [] List.nodup_nil (List.nil_subset _) (by simp)
    obtain ⟨result, returned⟩ := Option.isSome_iff_exists.mp total
    rcases result with e | ⟨⟩
    · exact absurd returned (walk_no_error _ valid distinct
        (fun _ _ _ _ seen => List.not_mem_nil _ seen) e)
    · exact returned

/-- **`validateTask` returns nil exactly when every Metadata field of the task is valid**, when
the containers below each field have distinct keys. -/
theorem validateTask_ok_iff {task : Option (Protocol.Task MetaRef)}
    (distinct : ∀ meta ∈ taskMetas task, heap.KeysDistinctMeta meta) :
    (validateTask heap task).run = some (.ok ()) ↔
      ∀ meta ∈ taskMetas task, heap.ValidMeta meta := by
  rw [validateTask_eq, forM_ok_iff]
  exact forall₂_congr fun meta member => validateMeta_ok_iff (distinct meta member)

end Complete

/-! ### Two slices with one key -/

/-- The Metadata `{"k": x}` after `x := []any{"s", nil}; x[1] = x[:1]`: array 0 backs `x`, and
map 0 is the Metadata. -/
def reslicedHeap : Heap where
  arrays := [[.scalar .string "s", .slice 0 0 1]]
  maps := [(∅ : GoMap String MetaVal).insert "k" (.slice 0 0 2)]

theorem validateMeta_rejects_reslice :
    reslicedHeap.ValidMeta (some 0) ∧
      (validateMeta reslicedHeap (some 0)).run = some (.error circularReference) := by
  refine ⟨reslicedHeap.valid_of_rank [.map 0, .slice 0 0 2, .scalar .string "s", .slice 0 0 1]
    (fun | .map _ => 3 | .slice _ _ len => len | _ => 0) (by decide) (by decide) (by decide), rfl⟩

/-- The Metadata `{"a": arr, "b": arr}` with `arr := make([]any, 1)`: one slice in two slots. -/
def sharedHeap : Heap where
  arrays := [[.nil]]
  maps := [((∅ : GoMap String MetaVal).insert "a" (.slice 0 0 1)).insert "b" (.slice 0 0 1)]

theorem validateMeta_sound_shared :
    (validateMeta sharedHeap (some 0)).run = some (.ok ()) ∧ sharedHeap.ValidMeta (some 0) :=
  ⟨rfl, validateMeta_sound rfl⟩

/-- The heap of a task's Metadata fields: map 0 holds one slice in two slots, as `sharedHeap`
does; map 1 is `{"text": "hello"}`; map 2 is `{"inner": map 1, "count": 2}`. -/
def taskHeap : Heap where
  arrays := [[.nil]]
  maps := [((∅ : GoMap String MetaVal).insert "a" (.slice 0 0 1)).insert "b" (.slice 0 0 1),
    (∅ : GoMap String MetaVal).insert "text" (.scalar .string "hello"),
    ((∅ : GoMap String MetaVal).insert "inner" (.map 1)).insert "count" (.scalar .int "2")]

/-- A task with a Metadata field of every kind `validateTask` checks: its status message and that
message's part, a history message, a nil history entry, an artifact's part, and its own. -/
def sharedTask : Protocol.Task MetaRef where
  id := "task-1"
  contextId := "context-1"
  status := ⟨.working, some ⟨"m1", "context-1", "task-1", [.text "hello" (some 1)], some 2⟩⟩
  history := [some ⟨"m0", "context-1", "task-1", [.data none], some 1⟩, none]
  artifacts := [some ⟨"a1", [.file (some 2)], none⟩]
  metadata := some 0

theorem validateTask_ok_iff_shared :
    (∀ meta ∈ taskMetas (some sharedTask), taskHeap.KeysDistinctMeta meta) ∧
      ((validateTask taskHeap (some sharedTask)).run = some (.ok ()) ↔
        ∀ meta ∈ taskMetas (some sharedTask), taskHeap.ValidMeta meta) := by
  let S : List MetaVal := [.map 0, .map 1, .map 2, .slice 0 0 1, .nil, .scalar .string "hello",
    .scalar .int "2"]
  have closed : ∀ v ∈ S, ∀ w ∈ taskHeap.children v, w ∈ S := by decide
  have keys : ∀ a ∈ S, ∀ b ∈ S, (pointerKey a).isSome → pointerKey a = pointerKey b → a = b := by
    decide
  have roots : ∀ meta ∈ taskMetas (some sharedTask),
      meta = none ∨ meta = some 0 ∨ meta = some 1 ∨ meta = some 2 := by decide
  have distinct : ∀ meta ∈ taskMetas (some sharedTask), taskHeap.KeysDistinctMeta meta := by
    intro meta member
    rcases roots meta member with rfl | rfl | rfl | rfl
    · trivial
    all_goals exact taskHeap.keysDistinct_of_closed S (by decide) closed keys
  exact ⟨distinct, validateTask_ok_iff distinct⟩

/-- On that task `validateTask` returns nil: the slice shared by two slots of map 0 is no cycle. -/
example : (validateTask taskHeap (some sharedTask)).run = some (.ok ()) := rfl

end A2aGo.TaskStore
