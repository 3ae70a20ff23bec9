import Mathlib.Data.Rat.Defs
import Mathlib.Algebra.BigOperators.Group.List.Basic
import Mathlib.Tactic

/-!
# Fusing ranked lists

A ranked list gives each of its keys a weight by its place.  A key that stands at several
places can be given the weight of its best place (`bestWeight`) or the sum of the weights of
all its places (`totalWeight`).  For positive weights the two agree exactly on the keys that
stand at one place at most (`totalWeight_eq_best_iff`).
-/

namespace RankFusion

variable {κ : Type*} [DecidableEq κ]

/-- The sum of the weights of all places of a key, the list starting at place `n`. -/
def totalWeight (weight : Nat → ℚ) (key : κ) : Nat → List κ → ℚ
  | _, [] => 0
  | n, first :: rest => (if first = key then weight n else 0) + totalWeight weight key (n + 1) rest

/-- The weight of the first place of a key, or nothing. -/
def bestWeight (weight : Nat → ℚ) (key : κ) : Nat → List κ → ℚ
  | _, [] => 0
  | n, first :: rest => if first = key then weight n else bestWeight weight key (n + 1) rest

variable {weight : Nat → ℚ} {key : κ} {keys : List κ} {n : Nat}

theorem totalWeight_nonneg (hpos : ∀ n, 0 < weight n) (key : κ) (n : Nat) (keys : List κ) :
    0 ≤ totalWeight weight key n keys := by
  induction keys generalizing n with
  | nil => exact le_refl _
  | cons first rest ih =>
      have hrest := ih (n + 1)
      have hfirst : 0 ≤ if first = key then weight n else 0 := by
        split_ifs
        · exact (hpos n).le
        · exact le_refl _
      unfold totalWeight
      linarith

theorem totalWeight_eq_zero_iff (hpos : ∀ n, 0 < weight n) :
    totalWeight weight key n keys = 0 ↔ key ∉ keys := by
  induction keys generalizing n with
  | nil => simp [totalWeight]
  | cons first rest ih =>
      have hrest := totalWeight_nonneg hpos key (n + 1) rest
      unfold totalWeight
      by_cases hfirst : first = key
      · have hweight := hpos n
        rw [if_pos hfirst]
        constructor
        · intro h
          linarith
        · intro h
          exact absurd (hfirst ▸ List.mem_cons_self) h
      · have hne : key ≠ first := fun h => hfirst h.symm
        rw [if_neg hfirst, zero_add, ih, List.mem_cons]
        simp [hne]

theorem bestWeight_nonneg (hpos : ∀ n, 0 < weight n) (key : κ) (n : Nat) (keys : List κ) :
    0 ≤ bestWeight weight key n keys := by
  induction keys generalizing n with
  | nil => exact le_refl _
  | cons first rest ih =>
      unfold bestWeight
      split_ifs
      · exact (hpos n).le
      · exact ih (n + 1)

theorem bestWeight_pos (hpos : ∀ n, 0 < weight n) (h : key ∈ keys) :
    0 < bestWeight weight key n keys := by
  induction keys generalizing n with
  | nil => exact absurd h List.not_mem_nil
  | cons first rest ih =>
      unfold bestWeight
      split_ifs with hfirst
      · exact hpos n
      · refine ih ?_
        rcases List.mem_cons.mp h with rfl | h
        · exact absurd rfl hfirst
        · exact h

/-- With weights that fall from place to place, none is above that of the first place. -/
theorem bestWeight_le (hpos : ∀ n, 0 < weight n) (hfall : ∀ n, weight (n + 1) ≤ weight n)
    (key : κ) (n : Nat) (keys : List κ) : bestWeight weight key n keys ≤ weight n := by
  induction keys generalizing n with
  | nil => exact (hpos n).le
  | cons first rest ih =>
      unfold bestWeight
      split_ifs
      · exact le_refl _
      · exact (ih (n + 1)).trans (hfall n)

theorem bestWeight_le_total (hpos : ∀ n, 0 < weight n) (key : κ) (n : Nat) (keys : List κ) :
    bestWeight weight key n keys ≤ totalWeight weight key n keys := by
  induction keys generalizing n with
  | nil => exact le_refl _
  | cons first rest ih =>
      have hrest := totalWeight_nonneg hpos key (n + 1) rest
      unfold bestWeight totalWeight
      split_ifs
      · linarith
      · linarith [ih (n + 1)]

/-- **One place.**  All places of a key together weigh as much as the first exactly when the
key stands at one place at most. -/
theorem totalWeight_eq_best_iff (hpos : ∀ n, 0 < weight n) :
    totalWeight weight key n keys = bestWeight weight key n keys ↔ keys.count key ≤ 1 := by
  induction keys generalizing n with
  | nil => simp [totalWeight, bestWeight]
  | cons first rest ih =>
      unfold bestWeight totalWeight
      by_cases hfirst : first = key
      · have hcount : rest.count key + 1 ≤ 1 ↔ rest.count key = 0 := by omega
        rw [if_pos hfirst, if_pos hfirst, add_eq_left, totalWeight_eq_zero_iff hpos, hfirst,
          List.count_cons_self, hcount, List.count_eq_zero]
      · rw [if_neg hfirst, if_neg hfirst, zero_add, ih, List.count_cons_of_ne hfirst]

theorem totalWeight_eq_best_of_not_mem (hpos : ∀ n, 0 < weight n) (h : key ∉ keys) :
    totalWeight weight key n keys = bestWeight weight key n keys := by
  refine (totalWeight_eq_best_iff hpos).mpr ?_
  rw [List.count_eq_zero_of_not_mem h]
  exact Nat.zero_le _

/-- The two weights agree on all keys exactly when no key stands at two places. -/
theorem nodup_iff_totalWeight (hpos : ∀ n, 0 < weight n) :
    keys.Nodup ↔ ∀ key, totalWeight weight key n keys = bestWeight weight key n keys := by
  rw [List.nodup_iff_count_le_one]
  exact forall_congr' fun key => (totalWeight_eq_best_iff hpos).symm

end RankFusion
