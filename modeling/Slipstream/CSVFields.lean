import Mathlib.Data.List.TakeWhile
import Slipstream.CSVParser
import Slipstream.DecimalNumeral

/-!
# The fields of a CSV row

The texts a well-formed field can have, and what parsing them gives.  A text
carries the bound under which its value fits in 64 bits, so the value it
stands for is a `UInt64` and parsing is exact.
-/

namespace Slipstream

namespace Csv

def digitByte (d : Fin 10) : UInt8 :=
  UInt8.ofNat ('0'.toNat + d)

def digitText (digits : List (Fin 10)) : List UInt8 :=
  digits.map digitByte

/-- `HH:MM:SS.mmm`. -/
structure TimestampText where
  hours : Fin 10 × Fin 10
  minutes : Fin 10 × Fin 10
  seconds : Fin 10 × Fin 10
  millis : Fin 10 × Fin 10 × Fin 10

/-- `digits` or `digits.digits`. -/
structure PriceText where
  whole : List (Fin 10)
  fraction : Option (List (Fin 10))
  whole_ne_nil : whole ≠ []
  fraction_ne_nil : fraction ≠ some []
  fits : (DecimalNumeral.mk whole (fraction.getD [])).value * 10000 < 2 ^ 64

structure QuantityText where
  digits : List (Fin 10)
  digits_ne_nil : digits ≠ []
  fits : valueOf digits < 2 ^ 64

structure SymbolText where
  symbol : Symbol
  no_comma : comma ∉ symbol.val
  no_newline : newline ∉ symbol.val

namespace TimestampText

def text (field : TimestampText) : List UInt8 :=
  digitText [field.hours.1, field.hours.2] ++ ':'.toUInt8 ::
    (digitText [field.minutes.1, field.minutes.2] ++ ':'.toUInt8 ::
      (digitText [field.seconds.1, field.seconds.2] ++ '.'.toUInt8 ::
        digitText [field.millis.1, field.millis.2.1, field.millis.2.2]))

def milliseconds (field : TimestampText) : ℕ :=
  ((valueOf [field.hours.1, field.hours.2] * 60 +
        valueOf [field.minutes.1, field.minutes.2]) * 60 +
      valueOf [field.seconds.1, field.seconds.2]) * 1000 +
    valueOf [field.millis.1, field.millis.2.1, field.millis.2.2]

theorem milliseconds_lt (field : TimestampText) :
    field.milliseconds < 2 ^ 32 := by
  have hhours := valueOf_lt [field.hours.1, field.hours.2]
  have hminutes := valueOf_lt [field.minutes.1, field.minutes.2]
  have hseconds := valueOf_lt [field.seconds.1, field.seconds.2]
  have hmillis := valueOf_lt
    [field.millis.1, field.millis.2.1, field.millis.2.2]
  simp only [List.length_cons, List.length_nil] at *
  unfold milliseconds
  omega

def value (field : TimestampText) : UInt64 :=
  UInt64.ofNatLT field.milliseconds
    (field.milliseconds_lt.trans (by decide))

end TimestampText

namespace PriceText

def text (field : PriceText) : List UInt8 :=
  digitText field.whole ++
    match field.fraction with
    | none => []
    | some fraction => '.'.toUInt8 :: digitText fraction

def numeral (field : PriceText) : DecimalNumeral where
  whole := field.whole
  fraction := field.fraction.getD []

theorem floorAt_lt (field : PriceText) :
    field.numeral.floorAt 4 < 2 ^ 64 := by
  have hfits := field.fits
  have hnonneg : 0 ≤ field.numeral.value * 10 ^ 4 := by
    unfold DecimalNumeral.value
    positivity
  rw [DecimalNumeral.floorAt, Nat.floor_lt hnonneg]
  norm_num at hfits ⊢
  exact hfits

/-- The price floored to a ten-thousandth. -/
def value (field : PriceText) : UInt64 :=
  UInt64.ofNatLT (field.numeral.floorAt 4) field.floorAt_lt

end PriceText

namespace QuantityText

def text (field : QuantityText) : List UInt8 :=
  digitText field.digits

def value (field : QuantityText) : UInt64 :=
  UInt64.ofNatLT (valueOf field.digits) field.fits

end QuantityText

/-! ## Separators -/

def Plain (text : List UInt8) : Prop :=
  comma ∉ text ∧ newline ∉ text

section Plain

variable {before after : List UInt8}

theorem Plain.append (hbefore : Plain before) (hafter : Plain after) :
    Plain (before ++ after) :=
  ⟨fun hmem => (List.mem_append.mp hmem).elim hbefore.1 hafter.1,
    fun hmem => (List.mem_append.mp hmem).elim hbefore.2 hafter.2⟩

theorem Plain.cons {c : UInt8} (hcomma : comma ≠ c) (hnewline : newline ≠ c)
    (hafter : Plain after) : Plain (c :: after) :=
  ⟨List.not_mem_cons_of_ne_of_not_mem hcomma hafter.1,
    List.not_mem_cons_of_ne_of_not_mem hnewline hafter.2⟩

theorem plain_nil : Plain [] :=
  ⟨List.not_mem_nil, List.not_mem_nil⟩

theorem not_mem_digitText {c : UInt8} (hc : ∀ d, digitByte d ≠ c)
    (digits : List (Fin 10)) : c ∉ digitText digits := by
  intro hmem
  obtain ⟨d, -, hd⟩ := List.mem_map.mp hmem
  exact hc d hd

theorem plain_digitText (digits : List (Fin 10)) :
    Plain (digitText digits) :=
  ⟨not_mem_digitText (by decide) digits,
    not_mem_digitText (by decide) digits⟩

theorem TimestampText.plain (field : TimestampText) : Plain field.text :=
  (plain_digitText _).append (.cons (by decide) (by decide)
    ((plain_digitText _).append (.cons (by decide) (by decide)
      ((plain_digitText _).append (.cons (by decide) (by decide)
        (plain_digitText _))))))

theorem PriceText.plain (field : PriceText) : Plain field.text := by
  refine (plain_digitText _).append ?_
  cases field.fraction with
  | none => exact plain_nil
  | some fraction =>
      exact .cons (by decide) (by decide) (plain_digitText fraction)

theorem QuantityText.plain (field : QuantityText) : Plain field.text :=
  plain_digitText field.digits

theorem SymbolText.plain (field : SymbolText) : Plain field.symbol.val :=
  ⟨field.no_comma, field.no_newline⟩

end Plain

theorem PriceText.text_ne_nil (field : PriceText) : field.text ≠ [] :=
  List.append_ne_nil_of_left_ne_nil
    (fun hnil => field.whole_ne_nil (List.map_eq_nil_iff.mp hnil)) _

theorem QuantityText.text_ne_nil (field : QuantityText) : field.text ≠ [] :=
  fun hnil => field.digits_ne_nil (List.map_eq_nil_iff.mp hnil)

end Csv

namespace CSVParser

open Csv

/-! ## Digits -/

section Digits

variable (d : Fin 10)

theorem toUInt32_fromZero :
    (fromZero (digitByte d)).toUInt32 = UInt32.ofNat d := by
  revert d
  decide

theorem toUInt64_fromZero :
    (fromZero (digitByte d)).toInt64.toUInt64 = UInt64.ofNat d := by
  revert d
  decide

theorem toNat_sub_zero : (digitByte d - '0'.toUInt8).toNat = d := by
  revert d
  decide

theorem isDigit_digitByte : isDigit (digitByte d) = true := by
  revert d
  decide

theorem digitByte_ne_point : digitByte d ≠ '.'.toUInt8 := by
  revert d
  decide

end Digits

/-! ## Timestamps -/

theorem parseTimestamp_text (field : TimestampText) :
    parseTimestamp field.text = some field.value := by
  have hvalue : field.value =
      (UInt32.ofNat field.milliseconds).toUInt64 := by
    rw [← UInt32.ofNatLT_eq_ofNat field.milliseconds
        (h := field.milliseconds_lt), UInt32.toUInt64_ofNatLT]
    rfl
  have hsum : UInt32.ofNat field.milliseconds =
      (((UInt32.ofNat field.hours.1 * 10 + UInt32.ofNat field.hours.2) * 60 +
            (UInt32.ofNat field.minutes.1 * 10 +
              UInt32.ofNat field.minutes.2)) * 60 +
          (UInt32.ofNat field.seconds.1 * 10 +
            UInt32.ofNat field.seconds.2)) * 1000 +
        (UInt32.ofNat field.millis.1 * 100 +
          UInt32.ofNat field.millis.2.1 * 10 +
          UInt32.ofNat field.millis.2.2) := by
    simp [TimestampText.milliseconds, valueOf_cons, UInt32.add_assoc]
  rw [hvalue, hsum]
  simp only [← toUInt32_fromZero]
  rfl

/-! ## Prices -/

theorem pushDigit (n : ℕ) (d : Fin 10) :
    UInt64.ofNat n * 10 + UInt64.ofNat d = UInt64.ofNat (n * 10 + d) := by
  simp

theorem scanPrice_whole (digits : List (Fin 10)) (later : List UInt8)
    (n : ℕ) :
    scanPrice (digitText digits ++ later) (UInt64.ofNat n) 0 false =
      scanPrice later
        (UInt64.ofNat (n * 10 ^ digits.length + valueOf digits)) 0 false := by
  induction digits generalizing n with
  | nil => simp [digitText]
  | cons d rest ih =>
      rw [digitText, List.map_cons, List.cons_append, scanPrice,
        if_neg (digitByte_ne_point d), if_neg (by simp),
        if_neg (by simp), toUInt64_fromZero, pushDigit, ← digitText, ih,
        valueOf_cons, List.length_cons]
      ring_nf

/-- After `fracDigits` digits behind the point there is room for
`4 - fracDigits` more. -/
theorem scanPrice_fraction (digits : List (Fin 10)) (n : ℕ)
    {fracDigits : ℕ} (hroom : fracDigits ≤ 4) :
    scanPrice (digitText digits) (UInt64.ofNat n) fracDigits true =
      let kept := digits.take (4 - fracDigits)
      (UInt64.ofNat (n * 10 ^ kept.length + valueOf kept),
        fracDigits + kept.length) := by
  induction digits generalizing n fracDigits with
  | nil => simp [digitText, scanPrice]
  | cons d rest ih =>
      rw [digitText, List.map_cons, scanPrice,
        if_neg (digitByte_ne_point d)]
      by_cases hfull : fracDigits = 4
      · rw [if_pos ⟨rfl, hfull⟩, hfull]
        simp
      · have hnext : 4 - fracDigits = 4 - (fracDigits + 1) + 1 := by omega
        rw [if_neg fun hstop => hfull hstop.2, if_pos rfl,
          toUInt64_fromZero, pushDigit, ← digitText, ih _ (by omega), hnext,
          List.take_succ_cons]
        dsimp only
        rw [valueOf_cons, List.length_cons]
        ring_nf

theorem iterate_mul_ten (k n : ℕ) :
    (· * 10)^[k] (UInt64.ofNat n) = UInt64.ofNat (n * 10 ^ k) := by
  induction k with
  | zero => simp
  | succ k ih =>
      rw [Function.iterate_succ_apply', ih, pow_succ, ← mul_assoc,
        UInt64.ofNat_mul (n * 10 ^ k) 10]
      rfl

/-- What the scan of a numeral gives: the digits up to the fourth one behind
the point, and how many of them are behind it. -/
def Scanned (numeral : DecimalNumeral) (field : List UInt8) : Prop :=
  scanPrice field 0 0 false =
    (UInt64.ofNat (valueOf (numeral.whole ++ numeral.fraction.take 4)),
      (numeral.fraction.take 4).length)

theorem scanned_whole (whole : List (Fin 10)) :
    Scanned ⟨whole, []⟩ (digitText whole) := by
  have hscan := scanPrice_whole whole [] 0
  rw [List.append_nil, zero_mul, zero_add] at hscan
  rw [Scanned]
  simpa [scanPrice] using hscan

theorem scanned_point (whole fraction : List (Fin 10)) :
    Scanned ⟨whole, fraction⟩
      (digitText whole ++ '.'.toUInt8 :: digitText fraction) := by
  have hscan := scanPrice_whole whole
    ('.'.toUInt8 :: digitText fraction) 0
  rw [zero_mul, zero_add] at hscan
  rw [Scanned, valueOf_append]
  refine hscan.trans ?_
  rw [scanPrice, if_pos rfl, scanPrice_fraction fraction _ (Nat.zero_le 4)]
  simp

theorem Scanned.padding {numeral : DecimalNumeral} :
    4 - (numeral.fraction.take 4).length = 4 - numeral.fraction.length := by
  rw [List.length_take]
  omega

theorem Scanned.parsePrice {numeral : DecimalNumeral} {field : List UInt8}
    (hscanned : Scanned numeral field) :
    parsePrice field = UInt64.ofNat (numeral.floorAt 4) := by
  rw [CSVParser.parsePrice, hscanned]
  dsimp only
  rw [iterate_mul_ten, Scanned.padding, DecimalNumeral.floorAt_eq]

theorem parsePrice_text (field : PriceText) :
    parsePrice field.text = field.value := by
  have hscanned : Scanned field.numeral field.text := by
    rw [PriceText.text, PriceText.numeral]
    cases field.fraction with
    | none =>
        rw [List.append_nil]
        exact scanned_whole field.whole
    | some fraction => exact scanned_point field.whole fraction
  rw [hscanned.parsePrice, PriceText.value, UInt64.ofNatLT_eq_ofNat]

example : parsePrice ("87.123456".toList.map Char.toUInt8) = 871234 := by
  decide

example : ∃ price : PriceText,
    price.text = "87.3700".toList.map Char.toUInt8 ∧
      price.value = 873700 :=
  ⟨{  whole := [8, 7]
      fraction := some [3, 7, 0, 0]
      whole_ne_nil := by decide
      fraction_ne_nil := by decide
      fits := by norm_num [DecimalNumeral.value, valueOf, Nat.ofDigits] },
    by decide, by rw [← parsePrice_text]; decide⟩

/-! ## Quantities -/

theorem foldl_digitText (digits : List (Fin 10)) (n : ℕ) :
    (digitText digits).foldl
        (fun value c => value * 10 + (c - '0'.toUInt8).toNat) n =
      n * 10 ^ digits.length + valueOf digits := by
  induction digits generalizing n with
  | nil => simp [digitText]
  | cons d rest ih =>
      rw [digitText, List.map_cons, List.foldl_cons, toNat_sub_zero,
        ← digitText, ih, valueOf_cons, List.length_cons]
      ring

theorem takeWhile_isDigit (digits : List (Fin 10)) :
    (digitText digits).takeWhile isDigit = digitText digits := by
  rw [List.takeWhile_eq_self_iff]
  intro c hc
  obtain ⟨d, -, rfl⟩ := List.mem_map.mp hc
  exact isDigit_digitByte d

theorem parseUInt_text (field : QuantityText) :
    parseUInt field.text = field.value := by
  have hvalue : decimalValue (digitText field.digits) =
      valueOf field.digits := by
    rw [decimalValue, foldl_digitText, zero_mul, zero_add]
  rw [parseUInt, QuantityText.text, takeWhile_isDigit, hvalue,
    if_pos field.fits, QuantityText.value, UInt64.ofNatLT_eq_ofNat]

theorem copySymbol_text (field : SymbolText) :
    copySymbol field.symbol.val = .ok field.symbol :=
  dif_pos field.symbol.property

end CSVParser

end Slipstream
