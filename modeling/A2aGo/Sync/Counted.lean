import Mathlib.Logic.Function.Basic

/-!
**A mutex, or a semaphore of one token, counts its holders.**

A `sync.Mutex` is locked exactly while one goroutine is between its `Lock` and its `Unlock`, and
a channel of capacity one used as a semaphore holds a token exactly while one goroutine is
between its send and its receive. `Counted holds count` says so of a set of calls numbered by
`Nat`: `count` is zero and nobody holds, or it is one and exactly one call holds.

* `Counted.unique`: two holders are the same call;
* `holds_update_same`: a call that moves without entering or leaving changes no one's holding;
* `Counted.update_same`, `Counted.update_enter`, `Counted.update_leave`: a call that moves keeps
  the count, takes the lock, or lets it go.
-/

namespace A2aGo.Sync

/-- `count` is the number of holders, and there is at most one. -/
def Counted (holds : Nat → Bool) (count : Nat) : Prop :=
  (count = 0 ∧ ∀ i, holds i = false) ∨
  (count = 1 ∧ ∃ i, holds i = true ∧ ∀ j, holds j = true → j = i)

section Update

variable {C : Type} {h : C → Bool} {calls : Nat → C} {count : Nat}

theorem Counted.unique {holds : Nat → Bool} (counted : Counted holds count) {i j : Nat}
    (holdsI : holds i = true) (holdsJ : holds j = true) : i = j := by
  rcases counted with ⟨-, none⟩ | ⟨-, k, -, only⟩
  · simp [none] at holdsI
  · rw [only i holdsI, only j holdsJ]

theorem Counted.eq_one {holds : Nat → Bool} (counted : Counted holds count) {i : Nat}
    (holdsI : holds i = true) : count = 1 := by
  rcases counted with ⟨-, none⟩ | ⟨one, -⟩
  · simp [none] at holdsI
  · exact one

theorem Counted.eq_false_of_zero {holds : Nat → Bool} (counted : Counted holds 0) (i : Nat) :
    holds i = false := by
  rcases counted with ⟨-, none⟩ | ⟨one, -⟩
  · exact none i
  · omega

/-- A taken lock, or a semaphore holding its token, has a holder. -/
theorem Counted.exists_holder {holds : Nat → Bool} (counted : Counted holds count)
    (taken : 0 < count) : ∃ i, holds i = true := by
  rcases counted with ⟨zero, -⟩ | ⟨-, i, holdsI, -⟩
  · omega
  · exact ⟨i, holdsI⟩

/-- A call that moves without entering or leaving changes no one's holding. -/
theorem holds_update_same {id : Nat} {call : C} (same : h call = h (calls id)) (i : Nat) :
    h (Function.update calls id call i) = h (calls i) := by
  by_cases here : i = id
  · subst here; simpa using same
  · simp [here]

theorem Counted.update_same {id : Nat} {call : C} (same : h call = h (calls id))
    (counted : Counted (fun i => h (calls i)) count) :
    Counted (fun i => h (Function.update calls id call i)) count := by
  rwa [funext (holds_update_same same)]

theorem Counted.update_enter {id : Nat} {call : C} (enters : h call = true)
    (counted : Counted (fun i => h (calls i)) count) (free : count < 1) :
    Counted (fun i => h (Function.update calls id call i)) (count + 1) := by
  rcases counted with ⟨rfl, none⟩ | ⟨rfl, -⟩
  · refine .inr ⟨rfl, id, by simpa using enters, fun j holdsJ => ?_⟩
    by_contra other
    simp [other, none] at holdsJ
  · omega

theorem Counted.update_leave {id : Nat} {call : C} (leaves : h call = false)
    (counted : Counted (fun i => h (calls i)) count) (held : h (calls id) = true) :
    Counted (fun i => h (Function.update calls id call i)) (count - 1) := by
  rcases counted with ⟨-, none⟩ | ⟨rfl, k, -, only⟩
  · simp [none] at held
  · refine .inl ⟨rfl, fun j => ?_⟩
    by_cases here : j = id
    · subst here; simpa using leaves
    · have notHolder : h (calls j) ≠ true := fun holdsJ =>
        here ((only j holdsJ).trans (only id held).symm)
      simpa [here] using notHolder

end Update

end A2aGo.Sync
