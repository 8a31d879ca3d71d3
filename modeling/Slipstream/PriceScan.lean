import Slipstream.CSVFields

/-!
# Exact scanning of prices

`parsePrice` accumulates the digits of a price in a 64-bit word and pads them
to four decimals.  The word grows with every digit, so no step of the two
loops wraps around when the price itself fits, and the result is the price
in ten-thousandths, rounded down.
-/

namespace Slipstream

namespace CSVParser

open Csv

/-! ## The exact results of the two loops -/

/-- What each assignment to `value` in the scanning loop would give without
a bound on the word. -/
def scanResults : List UInt8 → UInt64 → ℕ → Bool → List ℕ
  | [], _, _, _ => []
  | c :: later, value, fracDigits, sawPoint =>
      if c = '.'.toUInt8 then scanResults later value fracDigits true
      else if sawPoint ∧ fracDigits = 4 then []
      else
        (value.toNat * 10 + (fromZero c).toInt64.toUInt64.toNat) ::
          scanResults later (value * 10 + (fromZero c).toInt64.toUInt64)
            (if sawPoint then fracDigits + 1 else fracDigits) sawPoint

/-- The same for the multiplications that pad the price. -/
def paddingResults : ℕ → UInt64 → List ℕ
  | 0, _ => []
  | k + 1, value => value.toNat * 10 :: paddingResults k (value * 10)

def priceResults (field : List UInt8) : List ℕ :=
  let (value, fracDigits) := scanPrice field 0 0 false
  scanResults field 0 0 false ++ paddingResults (4 - fracDigits) value

def Fits (results : List ℕ) : Prop :=
  ∀ result ∈ results, result < 2 ^ 64

theorem exact_digit {n : ℕ} (d : Fin 10) (hfits : n * 10 + d < 2 ^ 64) :
    (UInt64.ofNat n).toNat * 10 + (UInt64.ofNat d).toNat = n * 10 + d := by
  have hn : n < 2 ^ 64 := by omega
  have hd : (d : ℕ) < 2 ^ 64 := by omega
  rw [UInt64.toNat_ofNat_of_lt' hn, UInt64.toNat_ofNat_of_lt' hd]

/-- The word never shrinks, so a digit fits if all that follow it do. -/
theorem digit_fits {n : ℕ} {d : Fin 10} {later : List (Fin 10)}
    (hfits : n * 10 ^ (d :: later).length + valueOf (d :: later) < 2 ^ 64) :
    n * 10 + d < 2 ^ 64 ∧
      (n * 10 + d) * 10 ^ later.length + valueOf later < 2 ^ 64 := by
  have hsplit : n * 10 ^ (d :: later).length + valueOf (d :: later) =
      (n * 10 + d) * 10 ^ later.length + valueOf later := by
    rw [valueOf_cons, List.length_cons]
    ring
  have hgrows : n * 10 + d ≤ (n * 10 + d) * 10 ^ later.length :=
    Nat.le_mul_of_pos_right _ (by positivity)
  rw [hsplit] at hfits
  exact ⟨by omega, hfits⟩

theorem scanResults_whole {digits : List (Fin 10)} {later : List UInt8}
    {n : ℕ} (hfits : n * 10 ^ digits.length + valueOf digits < 2 ^ 64)
    (hlater : Fits (scanResults later
      (UInt64.ofNat (n * 10 ^ digits.length + valueOf digits)) 0 false)) :
    Fits (scanResults (digitText digits ++ later) (UInt64.ofNat n) 0
      false) := by
  induction digits generalizing n with
  | nil => simpa [digitText] using hlater
  | cons d rest ih =>
      rcases digit_fits hfits with ⟨hdigit, hrest⟩
      rw [digitText, List.map_cons, List.cons_append, scanResults,
        if_neg (digitByte_ne_point d), if_neg (by simp),
        if_neg (by simp), toUInt64_fromZero, pushDigit, exact_digit d hdigit,
        ← digitText]
      refine List.forall_mem_cons.mpr ⟨hdigit, ih hrest ?_⟩
      have hsame : (n * 10 + d) * 10 ^ rest.length + valueOf rest =
          n * 10 ^ (d :: rest).length + valueOf (d :: rest) := by
        rw [valueOf_cons, List.length_cons]
        ring
      rwa [hsame]

theorem scanResults_fraction {digits : List (Fin 10)} {n fracDigits : ℕ}
    (hroom : fracDigits ≤ 4)
    (hfits : n * 10 ^ (digits.take (4 - fracDigits)).length +
      valueOf (digits.take (4 - fracDigits)) < 2 ^ 64) :
    Fits (scanResults (digitText digits) (UInt64.ofNat n) fracDigits
      true) := by
  induction digits generalizing n fracDigits with
  | nil => simp [digitText, scanResults, Fits]
  | cons d rest ih =>
      rw [digitText, List.map_cons, scanResults,
        if_neg (digitByte_ne_point d)]
      by_cases hfull : fracDigits = 4
      · rw [if_pos ⟨rfl, hfull⟩]
        simp [Fits]
      · have hnext : 4 - fracDigits = 4 - (fracDigits + 1) + 1 := by omega
        rw [hnext, List.take_succ_cons] at hfits
        rcases digit_fits hfits with ⟨hdigit, hrest⟩
        rw [if_neg fun hstop => hfull hstop.2, if_pos rfl,
          toUInt64_fromZero, pushDigit, exact_digit d hdigit, ← digitText]
        exact List.forall_mem_cons.mpr ⟨hdigit, ih (by omega) hrest⟩

theorem paddingResults_fit {k n : ℕ} (hfits : n * 10 ^ k < 2 ^ 64) :
    Fits (paddingResults k (UInt64.ofNat n)) := by
  induction k generalizing n with
  | zero => simp [paddingResults, Fits]
  | succ k ih =>
      have hsame : n * 10 ^ (k + 1) = n * 10 * 10 ^ k := by ring
      have hgrows : n * 10 ≤ n * 10 * 10 ^ k :=
        Nat.le_mul_of_pos_right _ (by positivity)
      have hn : n < 2 ^ 64 := by omega
      have hword : UInt64.ofNat n * 10 = UInt64.ofNat (n * 10) := by simp
      rw [paddingResults, hword, UInt64.toNat_ofNat_of_lt' hn]
      refine List.forall_mem_cons.mpr ⟨by omega, ih ?_⟩
      rwa [← hsame]

/-! ## Spellings of a numeral -/

/-- `I`, `I.` and `I.F`. -/
inductive Spells (numeral : DecimalNumeral) : List UInt8 → Prop
  | bare (hfraction : numeral.fraction = []) :
      Spells numeral (digitText numeral.whole)
  | point :
      Spells numeral
        (digitText numeral.whole ++
          '.'.toUInt8 :: digitText numeral.fraction)

section Spells

variable {numeral : DecimalNumeral} {field : List UInt8}
  (hspells : Spells numeral field)
include hspells

theorem Spells.scanned : Scanned numeral field := by
  cases hspells with
  | bare hfraction =>
      have hnumeral : numeral = ⟨numeral.whole, []⟩ := by rw [← hfraction]
      rw [hnumeral]
      exact scanned_whole numeral.whole
  | point => exact scanned_point numeral.whole numeral.fraction

variable (hfits : numeral.floorAt 4 < 2 ^ 64)
include hfits

theorem Spells.toNat_parsePrice :
    (parsePrice field).toNat = numeral.floorAt 4 := by
  rw [hspells.scanned.parsePrice, UInt64.toNat_ofNat_of_lt' hfits]

theorem Spells.priceResults_fit : Fits (priceResults field) := by
  rw [DecimalNumeral.floorAt_eq] at hfits
  have hgrows := Nat.le_mul_of_pos_right
    (valueOf (numeral.whole ++ numeral.fraction.take 4))
    (by positivity : 0 < 10 ^ (4 - numeral.fraction.length))
  have hkept : valueOf (numeral.whole ++ numeral.fraction.take 4) <
      2 ^ 64 := by omega
  have hpadding : Fits
      (paddingResults (4 - (numeral.fraction.take 4).length)
        (UInt64.ofNat
          (valueOf (numeral.whole ++ numeral.fraction.take 4)))) := by
    rw [Scanned.padding]
    exact paddingResults_fit hfits
  have hscanning : Fits (scanResults field 0 0 false) := by
    rw [valueOf_append] at hkept
    have hwhole : 0 * 10 ^ numeral.whole.length + valueOf numeral.whole <
        2 ^ 64 := by
      have hshift := Nat.le_mul_of_pos_right (valueOf numeral.whole)
        (by positivity : 0 < 10 ^ (numeral.fraction.take 4).length)
      omega
    cases hspells with
    | bare hfraction =>
        rw [← List.append_nil (digitText numeral.whole)]
        exact scanResults_whole hwhole (by simp [scanResults, Fits])
    | point =>
        apply scanResults_whole hwhole
        rw [zero_mul, zero_add, scanResults, if_pos rfl]
        exact scanResults_fraction (Nat.zero_le 4) hkept
  rw [priceResults, hspells.scanned]
  exact List.forall_mem_append.mpr ⟨hscanning, hpadding⟩

end Spells

/-- A numeral whose value in ten-thousandths fits in 64 bits is scanned
exactly and without wrapping around.  Therefore parsing is monotone, and
zeros behind the fraction make no difference. -/
theorem parsePrice_exact (numeral : DecimalNumeral) (field : List UInt8)
    (hspells : Spells numeral field)
    (hfits : numeral.floorAt 4 < 2 ^ 64) :
    (parsePrice field).toNat = numeral.floorAt 4 ∧
      (∀ result ∈ priceResults field, result < 2 ^ 64) ∧
      (∀ larger other, Spells larger other → larger.floorAt 4 < 2 ^ 64 →
        numeral.value ≤ larger.value →
          parsePrice field ≤ parsePrice other) ∧
      ∀ zeros padded, Spells (numeral.padded zeros) padded →
        parsePrice padded = parsePrice field := by
  have hexact := hspells.toNat_parsePrice hfits
  refine ⟨hexact, hspells.priceResults_fit hfits, ?_, ?_⟩
  · intro larger other hother hlarger hle
    rw [UInt64.le_iff_toNat_le, hexact, hother.toNat_parsePrice hlarger]
    exact DecimalNumeral.floorAt_mono 4 hle
  · intro zeros padded hpadded
    rw [hpadded.scanned.parsePrice, hspells.scanned.parsePrice,
      DecimalNumeral.floorAt_padded]

theorem parsePrice_exact_truncated :
    (parsePrice (digitText [8, 7] ++
        '.'.toUInt8 :: digitText [1, 2, 3, 4, 5, 6])).toNat =
      (DecimalNumeral.mk [8, 7] [1, 2, 3, 4, 5, 6]).floorAt 4 := by
  refine (parsePrice_exact ⟨[8, 7], [1, 2, 3, 4, 5, 6]⟩ _ .point ?_).1
  rw [DecimalNumeral.floorAt_eq]
  decide

end CSVParser

end Slipstream
