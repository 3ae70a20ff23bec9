import Mathlib.Logic.Function.Basic

/-!
# Exclusive locks

Who holds which lock, as a partial function from holders to locks.  A holder
holds at most one lock of a kind, asks only for locks that no other holder has,
and gives up all it has at once.
-/

namespace Locks

variable {ι κ : Type*}

/-- No two holders hold one lock. -/
def Sole (holds : ι → Option κ) : Prop :=
  ∀ i j lock, holds i = some lock → holds j = some lock → i = j

variable {holds : ι → Option κ} {i : ι}

theorem sole_of_none (h : ∀ i, holds i = none) : Sole holds := by
  intro i j lock hi
  simp [h i] at hi

/-- Whoever holds a lock, no other does. -/
theorem Sole.free (h : Sole holds) {lock : κ} (hi : holds i = some lock) :
    ∀ j, j ≠ i → holds j ≠ some lock :=
  fun j hji hj => hji (h j i lock hj hi)

variable [DecidableEq ι]

/-- **Step lemma.**  One holder changes what it holds, to nothing or to a lock
that no other has. -/
theorem Sole.update (h : Sole holds) {now : Option κ}
    (hfree : ∀ lock ∈ now, ∀ j, j ≠ i → holds j ≠ some lock) :
    Sole (Function.update holds i now) := by
  intro j k lock hj hk
  by_cases hji : j = i
  · by_cases hki : k = i
    · rw [hji, hki]
    · rw [hji, Function.update_self] at hj
      rw [Function.update_of_ne hki] at hk
      exact absurd hk (hfree lock hj k hki)
  · by_cases hki : k = i
    · rw [hki, Function.update_self] at hk
      rw [Function.update_of_ne hji] at hj
      exact absurd hj (hfree lock hk j hji)
    · rw [Function.update_of_ne hji] at hj
      rw [Function.update_of_ne hki] at hk
      exact h j k lock hj hk

theorem Sole.release (h : Sole holds) : Sole (Function.update holds i none) :=
  h.update fun _ hlock => nomatch hlock

/-- A holder that holds what it held, or nothing. -/
theorem Sole.keep (h : Sole holds) {now : Option κ} (hnow : now = holds i ∨ now = none) :
    Sole (Function.update holds i now) := by
  rcases hnow with rfl | rfl
  · rwa [Function.update_eq_self]
  · exact h.release

end Locks
