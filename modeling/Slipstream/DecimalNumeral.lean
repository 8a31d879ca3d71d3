import Mathlib.Algebra.Order.Floor.Semifield
import Mathlib.Data.Nat.Digits.Lemmas
import Mathlib.Data.Rat.Floor
import Mathlib.Tactic

/-!
# Decimal numerals

A numeral is a string of decimal digits, most significant digit first, with
an optional string of digits after the point.  Cutting the fraction at some
place and padding it with zeros up to there computes the value scaled by a
power of ten and rounded down.
-/

def valueOf (digits : List (Fin 10)) : ℕ :=
  Nat.ofDigits 10 (digits.map Fin.val).reverse

@[simp] theorem valueOf_nil : valueOf [] = 0 := rfl

theorem valueOf_append (before after : List (Fin 10)) :
    valueOf (before ++ after) =
      valueOf before * 10 ^ after.length + valueOf after := by
  rw [valueOf, List.map_append, List.reverse_append, Nat.ofDigits_append,
    List.length_reverse, List.length_map, add_comm, mul_comm]
  rfl

theorem valueOf_singleton (d : Fin 10) : valueOf [d] = d := by
  simp [valueOf]

theorem valueOf_cons (d : Fin 10) (later : List (Fin 10)) :
    valueOf (d :: later) = d * 10 ^ later.length + valueOf later := by
  rw [← List.singleton_append, valueOf_append, valueOf_singleton]

theorem valueOf_lt (digits : List (Fin 10)) :
    valueOf digits < 10 ^ digits.length := by
  have hbound := Nat.ofDigits_lt_base_pow_length
    (l := (digits.map Fin.val).reverse) (by norm_num : 1 < 10)
    (by simp)
  simpa [valueOf] using hbound

@[simp] theorem valueOf_replicate_zero (zeros : ℕ) :
    valueOf (List.replicate zeros 0) = 0 := by
  induction zeros with
  | zero => rfl
  | succ zeros ih => simp [List.replicate_succ, valueOf_cons, ih]

structure DecimalNumeral where
  whole : List (Fin 10)
  fraction : List (Fin 10)

namespace DecimalNumeral

def value (numeral : DecimalNumeral) : ℚ :=
  valueOf numeral.whole +
    valueOf numeral.fraction / 10 ^ numeral.fraction.length

/-- The value scaled by `10 ^ places` and rounded down. -/
def floorAt (places : ℕ) (numeral : DecimalNumeral) : ℕ :=
  ⌊numeral.value * 10 ^ places⌋₊

theorem value_eq_div (numeral : DecimalNumeral) :
    numeral.value =
      (valueOf (numeral.whole ++ numeral.fraction) : ℚ) /
        10 ^ numeral.fraction.length := by
  rw [value, valueOf_append]
  push_cast
  field_simp

theorem floorAt_of_le {places : ℕ} {numeral : DecimalNumeral}
    (hshort : numeral.fraction.length ≤ places) :
    numeral.floorAt places =
      valueOf (numeral.whole ++ numeral.fraction) *
        10 ^ (places - numeral.fraction.length) := by
  have hscaled : numeral.value * 10 ^ places =
      ((valueOf (numeral.whole ++ numeral.fraction) *
        10 ^ (places - numeral.fraction.length) : ℕ) : ℚ) := by
    rw [value_eq_div]
    push_cast
    rw [div_mul_eq_mul_div, mul_div_assoc,
      pow_sub₀ (10 : ℚ) (by norm_num) hshort]
    rfl
  rw [floorAt, hscaled, Nat.floor_natCast]

theorem floorAt_of_ge {places : ℕ} {numeral : DecimalNumeral}
    (hlong : places ≤ numeral.fraction.length) :
    numeral.floorAt places =
      valueOf (numeral.whole ++ numeral.fraction.take places) := by
  have hcut : valueOf (numeral.whole ++ numeral.fraction) =
      valueOf (numeral.whole ++ numeral.fraction.take places) *
          10 ^ (numeral.fraction.length - places) +
        valueOf (numeral.fraction.drop places) := by
    rw [← List.length_drop, ← valueOf_append, List.append_assoc,
      List.take_append_drop]
  have htail : valueOf (numeral.fraction.drop places) <
      10 ^ (numeral.fraction.length - places) := by
    rw [← List.length_drop]
    exact valueOf_lt _
  have hscaled : numeral.value * 10 ^ places =
      (valueOf (numeral.whole ++ numeral.fraction) : ℚ) /
        ((10 ^ (numeral.fraction.length - places) : ℕ) : ℚ) := by
    rw [value_eq_div]
    push_cast
    rw [pow_sub₀ (10 : ℚ) (by norm_num) hlong]
    field_simp
  rw [floorAt, hscaled, Nat.floor_div_natCast, Nat.floor_natCast, hcut,
    mul_comm, Nat.mul_add_div (by positivity), Nat.div_eq_of_lt htail,
    add_zero]

/-- Digits after the last place are cut off, and missing digits are zero. -/
theorem floorAt_eq (places : ℕ) (numeral : DecimalNumeral) :
    numeral.floorAt places =
      valueOf (numeral.whole ++ numeral.fraction.take places) *
        10 ^ (places - numeral.fraction.length) := by
  rcases le_total numeral.fraction.length places with hshort | hlong
  · rw [floorAt_of_le hshort, List.take_of_length_le hshort]
  · rw [floorAt_of_ge hlong, Nat.sub_eq_zero_of_le hlong, pow_zero, mul_one]

/-- Zeros behind the last digit of the fraction. -/
def padded (zeros : ℕ) (numeral : DecimalNumeral) : DecimalNumeral where
  whole := numeral.whole
  fraction := numeral.fraction ++ List.replicate zeros 0

theorem value_padded (zeros : ℕ) (numeral : DecimalNumeral) :
    (numeral.padded zeros).value = numeral.value := by
  have hdigits : valueOf (numeral.fraction ++ List.replicate zeros 0) =
      valueOf numeral.fraction * 10 ^ zeros := by
    simp [valueOf_append]
  rw [value, value, padded, hdigits, List.length_append,
    List.length_replicate, pow_add]
  push_cast
  rw [mul_div_mul_right _ _ (by positivity)]

theorem floorAt_padded (places zeros : ℕ) (numeral : DecimalNumeral) :
    (numeral.padded zeros).floorAt places = numeral.floorAt places := by
  rw [floorAt, value_padded, floorAt]

theorem floorAt_mono (places : ℕ) {numeral larger : DecimalNumeral}
    (hle : numeral.value ≤ larger.value) :
    numeral.floorAt places ≤ larger.floorAt places :=
  Nat.floor_le_floor (mul_le_mul_of_nonneg_right hle (by positivity))

end DecimalNumeral
