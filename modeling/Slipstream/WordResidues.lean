import Mathlib.Tactic

/-!
# Machine words as residues

The value of a wrapping 64-bit operation is the residue modulo `2^64` of the
operation on integers.  Subtraction and the conversion from signed words are
included, so that an expression may leave the range of a word on either
side.
-/

namespace WordResidues

theorem toNat_add (a b : UInt64) :
    ((a + b).toNat : ℤ) = ((a.toNat : ℤ) + b.toNat) % 2 ^ 64 := by
  rw [UInt64.toNat_add]
  push_cast
  rfl

theorem toNat_sub (a b : UInt64) :
    ((a - b).toNat : ℤ) = ((a.toNat : ℤ) - b.toNat) % 2 ^ 64 := by
  have hb := b.toNat_lt
  rw [UInt64.toNat_sub]
  omega

theorem toNat_mul (a b : UInt64) :
    ((a * b).toNat : ℤ) = ((a.toNat : ℤ) * b.toNat) % 2 ^ 64 := by
  rw [UInt64.toNat_mul]
  push_cast
  rfl

/-- A factor that is itself a residue may be taken before its reduction. -/
theorem toNat_mul_of_residue {a b : UInt64} {factor : ℤ}
    (hb : (b.toNat : ℤ) = factor % 2 ^ 64) :
    ((a * b).toNat : ℤ) = (a.toNat * factor) % 2 ^ 64 := by
  rw [toNat_mul, hb]
  exact (Int.mod_modEq factor _).mul_left _

theorem toNat_toUInt64 (a : Int64) :
    (a.toUInt64.toNat : ℤ) = a.toInt % 2 ^ 64 := by
  have hcond : a.toInt = if 2 * a.toUInt64.toNat < 2 ^ 64
      then (a.toUInt64.toNat : ℤ) else (a.toUInt64.toNat : ℤ) - 2 ^ 64 :=
    BitVec.toInt_eq_toNat_cond a.toBitVec
  have hlt := a.toUInt64.toNat_lt
  split at hcond <;> omega

end WordResidues
