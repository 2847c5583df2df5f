import Mathlib.Logic.Relation
import Mathlib.Order.Basic
import Mathlib.Data.Nat.Defs

/-!
**The Go heap the task store copies values out of and into.**

`taskstore.Mem` keeps its tasks as pointers, and `deepCopy` copies one with `encoding/gob`: the
encoder reads the value the pointer leads to, along every pointer, slice and map in it, and the
decoder builds that value again in new objects. So the store is modelled over a heap of objects:

* `GoHeap.unfold`, `GoHeap.value`: the value a pointer leads to, as the encoder reads it;
* `GoHeap.alloc`: the decoder, which builds a value in new objects that point only at new objects
  made before them (`alloc_grown`) and hold the value it was given (`alloc_value`);
* `unfold_mono`: a value read stays the same when the heap grows;
* `unfold_congr`: a value read stays the same when no object it is read from changes;
* `value_isSome_of_down`: objects that point only at older objects of their own kind have a value.
-/

namespace A2aGo.TaskStore

/-- A Go value as `encoding/gob` transmits it: the fields an object holds itself and the values
its pointers, slices and maps lead to, in order. An object two pointers share is sent once per
path, so a value is a tree. -/
inductive Tree (V : Type) where
  | node (fields : V) (children : List (Tree V))

/-- An object of the Go heap (a struct, the backing array of a slice, a map): the fields it holds
itself and its pointers, as addresses, in order. -/
structure Obj (V : Type) where
  fields : V
  refs : List Nat

/-- The Go heap, every object by its address. Nothing is freed: an object nothing points at is
garbage, and its address is not used again. -/
abbrev GoHeap (V : Type) := List (Obj V)

variable {V : Type}

mutual
/-- The most objects on a path from the root of a value. -/
def Tree.height : Tree V → Nat
  | .node _ children => Tree.heightAll children + 1

/-- The greatest height of the values in a list. -/
def Tree.heightAll : List (Tree V) → Nat
  | [] => 0
  | t :: ts => max t.height (Tree.heightAll ts)
end

/-- The value `p` leads to, read along every pointer as `gob`'s encoder reads it, at most `fuel`
objects deep; `none` on a longer path, as on a cycle. -/
def GoHeap.unfold (heap : GoHeap V) : Nat → Nat → Option (Tree V)
  | 0, _ => none
  | fuel + 1, p => do
    let obj ← heap[p]?
    let children ← obj.refs.mapM (GoHeap.unfold heap fuel)
    pure (.node obj.fields children)

/-- The value `p` leads to: a path without a cycle has at most as many objects as the heap. -/
def GoHeap.value (heap : GoHeap V) (p : Nat) : Option (Tree V) := heap.unfold heap.length p

mutual
/-- `gob`'s decoder building a value in new objects: the values of its pointers first, then the
object itself. The address of the new object, and the heap after. -/
def GoHeap.alloc : GoHeap V → Tree V → Nat × GoHeap V
  | heap, .node fields children =>
    let built := GoHeap.allocAll heap children
    (built.2.length, built.2 ++ [⟨fields, built.1⟩])

/-- The values of a list of pointers, built one after another. -/
def GoHeap.allocAll : GoHeap V → List (Tree V) → List Nat × GoHeap V
  | heap, [] => ([], heap)
  | heap, t :: ts =>
    let first := GoHeap.alloc heap t
    let rest := GoHeap.allocAll first.2 ts
    (first.1 :: rest.1, rest.2)
end

/-- `q` is a pointer of the object at `p`. -/
def GoHeap.Edge (heap : GoHeap V) (p q : Nat) : Prop :=
  ∃ obj, heap[p]? = some obj ∧ q ∈ obj.refs

/-- `q` can be reached from `p` along pointers. -/
def GoHeap.Reach (heap : GoHeap V) : Nat → Nat → Prop := Relation.ReflTransGen heap.Edge

/-- `heap'` is `heap` with new objects after it, each pointing only at new objects made before
it: what the decoder leaves. -/
def GoHeap.Grown (heap heap' : GoHeap V) : Prop :=
  heap <+: heap' ∧ ∀ q obj, heap'[q]? = some obj → heap.length ≤ q →
    ∀ r ∈ obj.refs, heap.length ≤ r ∧ r < q

/-! ### Reading children -/

section MapM

variable {α β : Type} {f g : α → Option β}

theorem mapM_some_of_imp (imp : ∀ a b, f a = some b → g a = some b) :
    ∀ {l : List α} {l' : List β}, l.mapM f = some l' → l.mapM g = some l'
  | [], _, read => read
  | a :: l, l', read => by
    simp only [List.mapM_cons, Option.bind_eq_bind, Option.bind_eq_some, Option.pure_def,
      Option.some.injEq] at read ⊢
    obtain ⟨b, first, bs, rest, rfl⟩ := read
    exact ⟨b, imp a b first, bs, mapM_some_of_imp imp rest, rfl⟩

theorem mapM_congr_mem : ∀ {l : List α}, (∀ a ∈ l, f a = g a) → l.mapM f = l.mapM g
  | [], _ => rfl
  | a :: l, same => by
    simp only [List.mapM_cons, same a (List.mem_cons_self a l),
      mapM_congr_mem fun b mem => same b (List.mem_cons_of_mem a mem)]

theorem mapM_isSome : ∀ {l : List α}, (∀ a ∈ l, (f a).isSome) → (l.mapM f).isSome
  | [], _ => rfl
  | a :: l, each => by
    obtain ⟨b, first⟩ := Option.isSome_iff_exists.mp (each a (List.mem_cons_self a l))
    obtain ⟨bs, rest⟩ := Option.isSome_iff_exists.mp
      (mapM_isSome fun b mem => each b (List.mem_cons_of_mem a mem))
    rw [List.mapM_cons, first, rest]
    rfl

end MapM

/-! ### Reading a value -/

section Unfold

variable {heap heap' : GoHeap V}

theorem unfold_succ (heap : GoHeap V) (fuel p : Nat) :
    heap.unfold (fuel + 1) p = (heap[p]?).bind fun obj =>
      (obj.refs.mapM (heap.unfold fuel)).bind fun children => some (.node obj.fields children) :=
  rfl

theorem getElem?_of_grows (grows : heap <+: heap') {p : Nat} {obj : Obj V}
    (found : heap[p]? = some obj) : heap'[p]? = some obj := by
  obtain ⟨more, rfl⟩ := grows
  rw [List.getElem?_append_left (List.getElem?_eq_some_iff.mp found).1, found]

/-- **A value read stays the same when the heap grows and with more fuel.** -/
theorem unfold_mono (grows : heap <+: heap') :
    ∀ {n m : Nat}, n ≤ m → ∀ {p : Nat} {t : Tree V}, heap.unfold n p = some t →
      heap'.unfold m p = some t
  | 0, _, _, _, _, read => by cases read
  | n + 1, m + 1, more, p, t, read => by
    rw [unfold_succ] at read ⊢
    obtain ⟨obj, found, rest⟩ := Option.bind_eq_some.mp read
    obtain ⟨children, children_read, built⟩ := Option.bind_eq_some.mp rest
    cases built
    rw [getElem?_of_grows grows found, Option.some_bind,
      mapM_some_of_imp (fun _ _ => unfold_mono grows (Nat.le_of_succ_le_succ more))
        children_read]
    rfl

/-- **A value read stays the same when no object it is read from changes**: the objects of a
set closed under pointers, which `heap'` leaves as they were. -/
theorem unfold_congr {S : Nat → Prop}
    (closed : ∀ p, S p → ∀ obj, heap[p]? = some obj → ∀ r ∈ obj.refs, S r)
    (same : ∀ p, S p → heap'[p]? = heap[p]?) :
    ∀ (n : Nat) {p : Nat}, S p → heap'.unfold n p = heap.unfold n p
  | 0, _, _ => rfl
  | n + 1, p, member => by
    rw [unfold_succ, unfold_succ, same p member]
    cases found : heap[p]? with
    | none => rfl
    | some obj =>
      simp only [Option.some_bind]
      rw [mapM_congr_mem fun r mem => unfold_congr closed same n (closed p member obj found r mem)]

/-- **Objects that point only at older objects of their own kind have a value.** -/
theorem value_isSome_of_down {S : Nat → Prop} (lt : ∀ p, S p → p < heap.length)
    (down : ∀ p, S p → ∀ obj, heap[p]? = some obj → ∀ r ∈ obj.refs, S r ∧ r < p) :
    ∀ p, S p → (heap.value p).isSome := by
  have unfolds : ∀ p, S p → (heap.unfold (p + 1) p).isSome := by
    intro p
    induction p using Nat.strongRecOn with
    | ind p ih =>
      intro member
      obtain ⟨obj, found⟩ : ∃ obj, heap[p]? = some obj :=
        ⟨_, List.getElem?_eq_getElem (lt p member)⟩
      have children : (obj.refs.mapM (heap.unfold p)).isSome := mapM_isSome fun r mem => by
        obtain ⟨older, below⟩ := down p member obj found r mem
        obtain ⟨t, read⟩ := Option.isSome_iff_exists.mp (ih r below older)
        exact Option.isSome_iff_exists.mpr ⟨t, unfold_mono (List.prefix_refl heap) below read⟩
      obtain ⟨ts, read⟩ := Option.isSome_iff_exists.mp children
      rw [unfold_succ, found, Option.some_bind, read]
      rfl
  intro p member
  obtain ⟨t, read⟩ := Option.isSome_iff_exists.mp (unfolds p member)
  exact Option.isSome_iff_exists.mpr ⟨t, unfold_mono (List.prefix_refl heap) (lt p member) read⟩

/-- Along pointers, a set closed under pointers is never left. -/
theorem GoHeap.Reach.mem {S : Nat → Prop}
    (closed : ∀ p, S p → ∀ obj, heap[p]? = some obj → ∀ r ∈ obj.refs, S r) {p q : Nat}
    (reach : heap.Reach p q) (member : S p) : S q := by
  induction reach with
  | refl => exact member
  | tail _ edge inside =>
    obtain ⟨obj, found, mem⟩ := edge
    exact closed _ inside obj found _ mem

end Unfold

/-! ### Building a value -/

section Alloc

variable {heap heap₁ heap₂ : GoHeap V}

theorem GoHeap.Grown.rfl : heap.Grown heap :=
  ⟨List.prefix_refl heap, fun _ _ found outside =>
    absurd (List.getElem?_eq_some_iff.mp found).1 (Nat.not_lt_of_le outside)⟩

theorem GoHeap.Grown.trans (first : heap.Grown heap₁) (second : heap₁.Grown heap₂) :
    heap.Grown heap₂ := by
  refine ⟨first.1.trans second.1, fun q obj found above r mem => ?_⟩
  have longer := first.1.length_le
  by_cases old : q < heap₁.length
  · obtain ⟨obj₁, found₁⟩ : ∃ obj, heap₁[q]? = some obj :=
      ⟨_, List.getElem?_eq_getElem old⟩
    have same := Option.some.inj ((getElem?_of_grows second.1 found₁).symm.trans found)
    exact first.2 q obj₁ found₁ above r (same ▸ mem)
  · have := second.2 q obj found (Nat.le_of_not_lt old) r mem
    omega

theorem GoHeap.Grown.snoc (grown : heap.Grown heap₁) {obj : Obj V}
    (refs : ∀ r ∈ obj.refs, heap.length ≤ r ∧ r < heap₁.length) :
    heap.Grown (heap₁ ++ [obj]) := by
  refine ⟨grown.1.trans (List.prefix_append _ _), fun q obj' found above r mem => ?_⟩
  by_cases old : q < heap₁.length
  · rw [List.getElem?_append_left old] at found
    exact grown.2 q obj' found above r mem
  · have inside := (List.getElem?_eq_some_iff.mp found).1
    simp only [List.length_append, List.length_singleton] at inside
    have last : q = heap₁.length := by omega
    subst last
    rw [List.getElem?_append_right (Nat.le_refl _), Nat.sub_self] at found
    cases found
    exact refs r mem

mutual
/-- **The decoder only adds objects**, each pointing only at new objects made before it, and the
new object is one of them. -/
theorem alloc_grown : ∀ (heap : GoHeap V) (t : Tree V), heap.Grown (heap.alloc t).2 ∧
    heap.length ≤ (heap.alloc t).1 ∧ (heap.alloc t).1 < (heap.alloc t).2.length
  | heap, .node fields children => by
    obtain ⟨grown, inside⟩ := allocAll_grown heap children
    simp only [GoHeap.alloc, List.length_append, List.length_singleton]
    exact ⟨grown.snoc inside, grown.1.length_le, Nat.lt_succ_self _⟩

theorem allocAll_grown : ∀ (heap : GoHeap V) (ts : List (Tree V)),
    heap.Grown (heap.allocAll ts).2 ∧
      ∀ p ∈ (heap.allocAll ts).1, heap.length ≤ p ∧ p < (heap.allocAll ts).2.length
  | heap, [] => ⟨.rfl, fun _ mem => by cases mem⟩
  | heap, t :: ts => by
    obtain ⟨first, low, high⟩ := alloc_grown heap t
    obtain ⟨rest, inside⟩ := allocAll_grown (heap.alloc t).2 ts
    have longer := first.1.length_le
    have longer' := rest.1.length_le
    refine ⟨first.trans rest, fun p mem => ?_⟩
    simp only [GoHeap.allocAll, List.mem_cons] at mem ⊢
    rcases mem with rfl | later
    · omega
    · have := inside p later
      omega
end

mutual
theorem alloc_height : ∀ (heap : GoHeap V) (t : Tree V),
    heap.length + t.height ≤ (heap.alloc t).2.length
  | heap, .node fields children => by
    have := allocAll_height heap children
    simp only [GoHeap.alloc, Tree.height, List.length_append, List.length_singleton]
    omega

theorem allocAll_height : ∀ (heap : GoHeap V) (ts : List (Tree V)),
    heap.length + Tree.heightAll ts ≤ (heap.allocAll ts).2.length
  | heap, [] => by simp [GoHeap.allocAll, Tree.heightAll]
  | heap, t :: ts => by
    have first := alloc_height heap t
    have rest := allocAll_height (heap.alloc t).2 ts
    have longer := (alloc_grown heap t).1.1.length_le
    simp only [GoHeap.allocAll, Tree.heightAll]
    omega
end

mutual
theorem alloc_unfold : ∀ (heap : GoHeap V) (t : Tree V) {n : Nat}, t.height ≤ n →
    (heap.alloc t).2.unfold n (heap.alloc t).1 = some t
  | heap, .node fields children, n + 1, enough => by
    have read := allocAll_unfold heap children
      (Nat.le_of_succ_le_succ (by simpa only [Tree.height] using enough))
    simp only [GoHeap.alloc, unfold_succ, List.getElem?_concat_length, Option.some_bind,
      mapM_some_of_imp (fun _ _ => unfold_mono (List.prefix_append _ _) (Nat.le_refl n)) read,
      Option.map_some']
  | _, .node _ _, 0, enough => by simp [Tree.height] at enough

theorem allocAll_unfold : ∀ (heap : GoHeap V) (ts : List (Tree V)) {n : Nat},
    Tree.heightAll ts ≤ n →
      (heap.allocAll ts).1.mapM ((heap.allocAll ts).2.unfold n) = some ts
  | heap, [], _, _ => rfl
  | heap, t :: ts, n, enough => by
    simp only [Tree.heightAll, Nat.max_le] at enough
    have grows := (allocAll_grown (heap.alloc t).2 ts).1.1
    simp only [GoHeap.allocAll, List.mapM_cons,
      unfold_mono grows (Nat.le_refl n) (alloc_unfold heap t enough.1),
      allocAll_unfold (heap.alloc t).2 ts enough.2]
    rfl
end

/-- **The decoder's new object holds the value it was given.** -/
theorem alloc_value (heap : GoHeap V) (t : Tree V) :
    (heap.alloc t).2.value (heap.alloc t).1 = some t :=
  alloc_unfold heap t (Nat.le_trans (Nat.le_add_left _ _) (alloc_height heap t))

end Alloc

end A2aGo.TaskStore
