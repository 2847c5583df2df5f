import A2aGo.TaskStore.MetaGraph
import Mathlib.Data.Set.Card

/-!
**`validateMetaRecursive` returns on every heap, cyclic or not, with `processing` as it was.**

The walk spends one step of fuel per container whose key it has not met: a container whose key is
in `processing` returns at once, and one whose key is not adds it, so each of its elements has one
key fewer left to find. The measure is that count, `Heap.pendingKeys`: the keys of the containers
reachable from the value that are not in `processing`. The keys come from the value and the
heap's finitely many slots, so on every heap it is a finite count.

* `pendingKeys_finite`: the measure is finite;
* `pendingKeys_child_lt`: it falls from a container with a fresh key to each of its elements;
* `walk_mono`: once the walk returns, more fuel changes nothing;
* `validateMetaRecursive_terminates`: **with fuel above the measure `validateMetaRecursive`
  returns, always with the same result, and with `processing` as on entry**, for every heap,
  value and `processing`.
-/

namespace A2aGo.TaskStore

open A2aGo.Protocol Relation

/-! ### The measure -/

section Measure

variable {heap : Heap}

/-- Every value a slot of the heap holds: the elements of the backing arrays and the values of
the maps. -/
def Heap.values (heap : Heap) : List MetaVal :=
  heap.arrays.flatten ++ (heap.maps.map fun m => m.entries.map fun entry => entry.2).flatten

/-- The measure of `validateMetaRecursive(value, processing)`: the keys of the containers
reachable from `value` that are not in `processing`. -/
def Heap.pendingKeys (heap : Heap) (value : MetaVal) (processing : List Addr) : Set Addr :=
  {key | key ∉ processing ∧ ∃ other, heap.Reaches value other ∧ pointerKey other = some key}

theorem getD_mem_or {α : Type} (list : List α) (i : Nat) (default : α) :
    list.getD i default ∈ list ∨ list.getD i default = default := by
  rw [List.getD_eq_getElem?_getD]
  rcases found : list[i]? with _ | x
  · exact .inr rfl
  · exact .inl (List.getElem?_mem found)

/-- What a container holds is a value of a slot of the heap. -/
theorem Heap.children_subset_values {container child : MetaVal}
    (holds : child ∈ heap.children container) : child ∈ heap.values := by
  cases container with
  | slice array offset len =>
    have mem := List.mem_of_mem_drop (List.mem_of_mem_take holds)
    rcases getD_mem_or heap.arrays array [] with present | absent
    · exact List.mem_append_left _ (List.mem_flatten_of_mem present mem)
    · rw [absent] at mem
      cases mem
  | map ref =>
    rcases getD_mem_or heap.maps ref ∅ with present | absent
    · exact List.mem_append_right _ (List.mem_flatten_of_mem (List.mem_map_of_mem _ present) holds)
    · rw [Heap.children, absent] at holds
      cases holds
  | nil | scalar => cases holds

/-- What a value reaches is the value itself or a value of a slot. -/
theorem Heap.reaches_mem_values {root value : MetaVal} (reach : heap.Reaches root value) :
    value ∈ root :: heap.values := by
  induction reach with
  | refl => exact List.mem_cons_self _ _
  | tail _ holds _ => exact List.mem_cons_of_mem _ (heap.children_subset_values holds)

/-- **The measure is finite** on every heap: its keys are keys of the value or of the heap's
slots. -/
theorem pendingKeys_finite (value : MetaVal) (processing : List Addr) :
    (heap.pendingKeys value processing).Finite :=
  (List.finite_toSet ((value :: heap.values).filterMap pointerKey)).subset
    fun _ ⟨_, other, reach, keyed⟩ =>
      List.mem_filterMap.mpr ⟨other, heap.reaches_mem_values reach, keyed⟩

/-- **The measure falls** from a container whose key is not in `processing` to each of its
elements, once the key is pushed: they reach no more than the container, and its key is no longer
pending. -/
theorem pendingKeys_child_lt {value child : MetaVal} {key : Addr} {processing : List Addr}
    (keyed : pointerKey value = some key) (fresh : key ∉ processing)
    (holds : child ∈ heap.children value) :
    (heap.pendingKeys child (key :: processing)).ncard <
      (heap.pendingKeys value processing).ncard := by
  have fewer : heap.pendingKeys child (key :: processing) ⊆ heap.pendingKeys value processing :=
    fun _ ⟨unseen, other, reach, keyed'⟩ =>
      ⟨fun seen => unseen (List.mem_cons_of_mem _ seen), other, ReflTransGen.head holds reach,
        keyed'⟩
  refine Set.ncard_lt_ncard ((Set.ssubset_iff_of_subset fewer).mpr ⟨key, ?_, ?_⟩)
    (pendingKeys_finite value processing)
  · exact ⟨fresh, value, ReflTransGen.refl, keyed⟩
  · exact fun ⟨unseen, _⟩ => unseen (List.mem_cons_self _ _)

/-- The walk returns with fuel above the measure. -/
theorem walk_returns (fuel : Nat) (value : MetaVal) (processing : List Addr)
    (enough : (heap.pendingKeys value processing).ncard < fuel) :
    (walk heap fuel value processing).run.isSome :=
  walk_isSome_of_falls (fun _ => True)
    (fun value processing => (heap.pendingKeys value processing).ncard)
    (fun _ _ _ _ _ keyed fresh holds => ⟨trivial, pendingKeys_child_lt keyed fresh holds⟩)
    fuel value processing trivial enough

end Measure

/-! ### More fuel -/

section Fuel

variable {heap : Heap}

/-- A loop returns as it did when each element's call that returned still returns so. -/
theorem forM_run_of_returns {α : Type} {f g : α → Check} {xs : List α}
    (same : ∀ x ∈ xs, ∀ result, (f x).run = some result → (g x).run = some result)
    {result : Except String Unit} (ran : (xs.forM f).run = some result) :
    (xs.forM g).run = some result := by
  induction xs with
  | nil => exact ran
  | cons x xs ih =>
    rw [forM_cons_run] at ran ⊢
    rcases checked : (f x).run with _ | first <;> rw [checked] at ran
    · cases ran
    · rw [same x (List.mem_cons_self _ _) first checked]
      rcases first with _ | ⟨⟩
      · exact ran
      · exact ih (fun y member => same y (List.mem_cons_of_mem _ member)) ran

/-- A value that is not a container is checked without fuel or `processing`. -/
theorem walk_unkeyed {value : MetaVal} (unkeyed : pointerKey value = none)
    (fuel fuel' : Nat) (processing processing' : List Addr) :
    walk heap fuel value processing = walk heap fuel' value processing' := by
  rcases pointerKey_cases value with ⟨key, keyed⟩ | ⟨_, allowed⟩ | ⟨name, text, rfl⟩
  · rw [keyed] at unkeyed
    cases unkeyed
  · rw [walk_permitted unkeyed allowed, walk_permitted unkeyed allowed]
  · rw [walk_other, walk_other]

/-- **Once the walk returns, more fuel gives the same result.** -/
theorem walk_mono {fuel fuel' : Nat} (more : fuel ≤ fuel') {value : MetaVal}
    {processing : List Addr} {result : Except String Unit}
    (ran : (walk heap fuel value processing).run = some result) :
    (walk heap fuel' value processing).run = some result := by
  induction fuel generalizing fuel' value processing result with
  | zero =>
    rcases keyed : pointerKey value with _ | key
    · rwa [walk_unkeyed keyed fuel' 0 processing processing]
    · rw [walk_zero keyed] at ran
      cases ran
  | succ fuel ih =>
    rcases keyed : pointerKey value with _ | key
    · rwa [walk_unkeyed keyed fuel' (fuel + 1) processing processing]
    obtain ⟨spare, rfl⟩ : ∃ spare, fuel' = spare + 1 := ⟨fuel' - 1, by omega⟩
    rw [walk_succ keyed, walkContainer] at ran ⊢
    split_ifs at ran ⊢
    · exact ran
    · exact forM_run_of_returns (fun _ _ _ => ih (show fuel ≤ spare by omega)) ran

end Fuel

/-! ### Termination -/

/-- **`validateMetaRecursive` terminates, and restores `processing`**: on every heap, cyclic or
not, from every value and every `processing`, the measure is finite, and with any fuel above it
the function returns, always with the same result, nil or an error, and with `processing` exactly
as on entry. -/
theorem validateMetaRecursive_terminates (heap : Heap) (value : MetaVal)
    (processing : List Addr) :
    (heap.pendingKeys value processing).Finite ∧
      ∃ result, ∀ fuel, (heap.pendingKeys value processing).ncard < fuel →
        validateMetaRecursive heap fuel value processing = some (result, processing) := by
  obtain ⟨result, returned⟩ :=
    Option.isSome_iff_exists.mp (walk_returns _ value processing (Nat.lt_succ_self _))
  refine ⟨pendingKeys_finite value processing, result, fun fuel enough => ?_⟩
  rw [validateMetaRecursive_eq_walk, walk_mono enough returned]
  rfl

end A2aGo.TaskStore
