import Mathlib.Tactic

/-!
# Means of integers with natural weights

A mean that is rounded down to an integer still lies between the smallest
and the largest value that carries weight.  The bounds are stated through
items that attain them, so that no minimum or maximum has to be named.
-/

namespace WeightedMean

variable {α : Type*} (weight : α → ℕ) (value : α → ℤ)

def totalWeight (items : List α) : ℕ :=
  (items.map weight).sum

def weightedSum (items : List α) : ℤ :=
  (items.map fun item => (weight item : ℤ) * value item).sum

def floorMean (items : List α) : ℤ :=
  weightedSum weight value items / totalWeight weight items

section Bounds

variable {weight value} {items : List α}

theorem totalWeight_mul (bound : ℤ) :
    (totalWeight weight items : ℤ) * bound =
      (items.map fun item => (weight item : ℤ) * bound).sum := by
  rw [List.sum_map_mul_right, totalWeight, Nat.cast_list_sum, List.map_map]
  rfl

theorem totalWeight_mul_le_weightedSum {low : ℤ}
    (hlow : ∀ item ∈ items, 0 < weight item → low ≤ value item) :
    (totalWeight weight items : ℤ) * low ≤
      weightedSum weight value items := by
  rw [totalWeight_mul]
  apply List.sum_le_sum
  intro item hitem
  rcases Nat.eq_zero_or_pos (weight item) with hzero | hpos
  · simp [hzero]
  · exact mul_le_mul_of_nonneg_left (hlow item hitem hpos)
      (Int.natCast_nonneg _)

theorem weightedSum_le_totalWeight_mul {high : ℤ}
    (hhigh : ∀ item ∈ items, 0 < weight item → value item ≤ high) :
    weightedSum weight value items ≤
      (totalWeight weight items : ℤ) * high := by
  rw [totalWeight_mul]
  apply List.sum_le_sum
  intro item hitem
  rcases Nat.eq_zero_or_pos (weight item) with hzero | hpos
  · simp [hzero]
  · exact mul_le_mul_of_nonneg_left (hhigh item hitem hpos)
      (Int.natCast_nonneg _)

variable (hpos : 0 < totalWeight weight items)
include hpos

theorem exists_value_le_floorMean :
    ∃ item ∈ items, 0 < weight item ∧
      value item ≤ floorMean weight value items := by
  by_contra! hnone
  have habove : (totalWeight weight items : ℤ) *
      (floorMean weight value items + 1) ≤ weightedSum weight value items :=
    totalWeight_mul_le_weightedSum fun item hitem hweight =>
      hnone item hitem hweight
  have hbelow : weightedSum weight value items <
      (floorMean weight value items + 1) * totalWeight weight items :=
    Int.lt_ediv_add_one_mul_self _ (by exact_mod_cast hpos)
  rw [mul_comm] at hbelow
  exact absurd habove (not_le.mpr hbelow)

theorem exists_floorMean_le_value :
    ∃ item ∈ items, 0 < weight item ∧
      floorMean weight value items ≤ value item := by
  by_contra! hnone
  have hbelow : weightedSum weight value items ≤
      (totalWeight weight items : ℤ) * (floorMean weight value items - 1) :=
    weightedSum_le_totalWeight_mul fun item hitem hweight =>
      Int.le_sub_one_of_lt (hnone item hitem hweight)
  have habove : floorMean weight value items *
      (totalWeight weight items : ℤ) ≤ weightedSum weight value items :=
    Int.ediv_mul_le _ (by exact_mod_cast hpos.ne')
  rw [mul_sub, mul_one, mul_comm] at hbelow
  omega

end Bounds

end WeightedMean
