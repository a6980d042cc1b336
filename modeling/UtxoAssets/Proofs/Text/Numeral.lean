import Mathlib.Algebra.Order.Field.Basic
import Mathlib.Algebra.Order.Field.Rat
import Mathlib.Tactic.FieldSimp
import Mathlib.Tactic.Linarith
import Mathlib.Tactic.NormNum
import Mathlib.Tactic.Ring
import UtxoAssets.Proofs.Text.Digits

/-!
# Decimal numerals

A numeral is an optional minus sign, digits, a point, and a known number of digits.

* `Numeral.text` writes a numeral down; `Numeral.value` is the number it denotes, and
  `Numeral.units` counts that number in units of the last place (`Numeral.value_eq`).
* `Numeral.text_injective` — a text is one numeral at most.
* `Numeral.ofUnits` — the numeral by which a count is shown.
* `Numeral.ofUnits_units_iff` — a numeral is the one by which its number is shown, unless it has
  superfluous zeros in front or is a negative zero.
* `Numeral.IsNearest` — what rounding a number to so many places makes of it; it is told by the
  distance of half a unit (`isNearest_of_abs_le`, `units_eq_of_isNearest`).
-/

set_option autoImplicit false

namespace UtxoAssets.Text

theorem scale_eq_pow (places : Nat) : scale places = 10 ^ places := by
  induction places with
  | zero => rfl
  | succ places ih => rw [scale, ih, Nat.pow_succ, Nat.mul_comm]

/-- A decimal as it is written, with `places` digits behind the point. -/
@[ext] structure Numeral (places : Nat) where
  negative : Bool
  quotient : List Char
  fraction : List Char
  quotient_ne_nil : quotient ≠ []
  isDigits_quotient : isDigits quotient = true
  isDigits_fraction : isDigits fraction = true
  length_fraction : fraction.length = places

namespace Numeral

variable {places : Nat}

/-- The digits and the point. -/
def unsigned (d : Numeral places) : List Char := d.quotient ++ '.' :: d.fraction

/-- The text of a numeral, its sign in front. -/
def text (d : Numeral places) : String :=
  String.ofList ((if d.negative then ['-'] else []) ++ d.unsigned)

/-- The number in front of the point. -/
def whole (d : Numeral places) : Nat := Nat.ofDigitChars 10 d.quotient 0

/-- The digits behind the point, in units of the last place. -/
def part (d : Numeral places) : Nat := Nat.ofDigitChars 10 d.fraction 0

/-- All digits as one number. -/
def magnitude (d : Numeral places) : Nat := d.whole * 10 ^ places + d.part

/-- The numeral in units of its last place. -/
def units (d : Numeral places) : Int := if d.negative then -(d.magnitude : Int) else d.magnitude

/-- The number that is written. -/
def value (d : Numeral places) : ℚ :=
  if d.negative then -(d.whole + d.part / 10 ^ places) else d.whole + d.part / 10 ^ places

/-- A zero with a sign, which no amount is written as. -/
def IsNegativeZero (d : Numeral places) : Prop := d.negative = true ∧ d.value = 0

/-! ## What a numeral denotes -/

theorem part_lt (d : Numeral places) : d.part < 10 ^ places := by
  have hlt := ofDigitChars_lt d.isDigits_fraction
  rwa [d.length_fraction, scale_eq_pow] at hlt

theorem value_eq (d : Numeral places) : d.value = d.units / 10 ^ places := by
  have hmagnitude : (d.whole : ℚ) + d.part / 10 ^ places = (d.magnitude : ℚ) / 10 ^ places := by
    rw [magnitude]
    push_cast
    field_simp
  unfold value units
  rw [hmagnitude]
  split
  · push_cast
    ring
  · push_cast
    ring

theorem value_eq_zero_iff {d : Numeral places} : d.value = 0 ↔ d.units = 0 := by
  have hpow : (10 : ℚ) ^ places ≠ 0 := pow_ne_zero places (by norm_num)
  rw [value_eq, div_eq_zero_iff, or_iff_left hpow, Int.cast_eq_zero]

theorem natAbs_units (d : Numeral places) : d.units.natAbs = d.magnitude := by
  unfold units
  split
  · rw [Int.natAbs_neg, Int.natAbs_natCast]
  · rw [Int.natAbs_natCast]

/-! ## A text is one numeral at most -/

theorem splitAtPoint_unsigned (d : Numeral places) :
    splitAtPoint d.unsigned = some (d.quotient, d.fraction) :=
  splitAtPoint_eq_some_iff.mpr ⟨rfl, point_not_mem_of_isDigits d.isDigits_quotient⟩

theorem head_unsigned_ne_minus (d : Numeral places) (cs : List Char) : d.unsigned ≠ '-' :: cs := by
  intro heq
  cases hquotient : d.quotient with
  | nil => exact d.quotient_ne_nil hquotient
  | cons c quotient =>
    have hdigits := d.isDigits_quotient
    rw [unsigned, hquotient, List.cons_append] at heq
    rw [hquotient, (List.cons_eq_cons.mp heq).1] at hdigits
    exact absurd hdigits (by simp [isDigits])

theorem splitSign_text (d : Numeral places) :
    Amount.splitSign d.text.toList = (d.negative, d.unsigned) := by
  rw [text, String.toList_ofList]
  cases d.negative with
  | true => rfl
  | false =>
    rw [if_neg Bool.false_ne_true, List.nil_append]
    unfold Amount.splitSign
    split
    · rename_i cs heq
      exact absurd heq (d.head_unsigned_ne_minus cs)
    · rfl

theorem text_injective {d d' : Numeral places} (h : d.text = d'.text) : d = d' := by
  have hsplit := d.splitSign_text
  rw [h, d'.splitSign_text, Prod.mk.injEq] at hsplit
  obtain ⟨hnegative, hunsigned⟩ := hsplit
  have hparts := d.splitAtPoint_unsigned
  rw [← hunsigned, d'.splitAtPoint_unsigned, Option.some.injEq, Prod.mk.injEq] at hparts
  obtain ⟨hquotient, hfraction⟩ := hparts
  exact Numeral.ext hnegative.symm hquotient.symm hfraction.symm

/-! ## The numeral of a count -/

/-- The numeral by which `n` units of the last place are shown. -/
def ofUnits (places : Nat) (n : Int) : Numeral places where
  negative := n < 0
  quotient := Nat.toDigits 10 (n.natAbs / scale places)
  fraction := digitsOf places (n.natAbs % scale places)
  quotient_ne_nil := Nat.toDigits_ne_nil
  isDigits_quotient := isDigits_toDigits _
  isDigits_fraction := isDigits_digitsOf _ _
  length_fraction := length_digitsOf _ _

theorem text_ofUnits (n : Int) : (ofUnits places n).text = signedFixedPoint places n := by
  simp only [text, ofUnits, unsigned, signedFixedPoint, signed, fixedPoint, decide_eq_true_eq]

theorem negative_ofUnits_iff {n : Int} : (ofUnits places n).negative = true ↔ n < 0 :=
  decide_eq_true_iff

theorem units_ofUnits (n : Int) : (ofUnits places n).units = n := by
  have hmagnitude : (ofUnits places n).magnitude = n.natAbs := by
    rw [magnitude, whole, part]
    dsimp only [ofUnits]
    rw [Nat.ofDigitChars_ten_toDigits, ofDigitChars_digitsOf (Nat.mod_lt _ (scale_pos places)),
      ← scale_eq_pow]
    exact Nat.div_add_mod' _ _
  rw [units, hmagnitude]
  by_cases hneg : n < 0
  · rw [if_pos (negative_ofUnits_iff.mpr hneg)]
    omega
  · rw [if_neg (mt negative_ofUnits_iff.mp hneg)]
    omega

theorem value_ofUnits (n : Int) : (ofUnits places n).value = n / 10 ^ places := by
  rw [value_eq, units_ofUnits]

theorem noLeadingZero_ofUnits (n : Int) : NoLeadingZero (ofUnits places n).quotient :=
  noLeadingZero_toDigits _

theorem not_isNegativeZero_ofUnits (n : Int) : ¬ (ofUnits places n).IsNegativeZero := by
  rintro ⟨hnegative, hzero⟩
  rw [value_eq_zero_iff, units_ofUnits] at hzero
  rw [negative_ofUnits_iff] at hnegative
  omega

/-- One numeral has no superfluous zero in front and is no negative zero, among all that denote the
same number. -/
theorem ofUnits_units_iff {d : Numeral places} :
    ofUnits places d.units = d ↔ NoLeadingZero d.quotient ∧ ¬ d.IsNegativeZero := by
  constructor
  · intro h
    rw [← h]
    exact ⟨noLeadingZero_ofUnits _, not_isNegativeZero_ofUnits _⟩
  · rintro ⟨hzero, hnegative⟩
    apply Numeral.ext
    · change decide (d.units < 0) = d.negative
      cases hd : d.negative with
      | false =>
        have hunits : d.units = d.magnitude := by
          rw [units, hd, if_neg Bool.false_ne_true]
        rw [hunits]
        exact decide_eq_false (Int.not_lt.mpr (Int.natCast_nonneg _))
      | true =>
        have hunits : d.units = -(d.magnitude : Int) := by
          rw [units, hd, if_pos rfl]
        have hne : d.units ≠ 0 := fun h => hnegative ⟨hd, value_eq_zero_iff.mpr h⟩
        apply decide_eq_true
        omega
    · change Nat.toDigits 10 (d.units.natAbs / scale places) = d.quotient
      rw [natAbs_units, scale_eq_pow, magnitude, Nat.mul_comm,
        Nat.mul_add_div (Nat.pow_pos (by decide)), Nat.div_eq_of_lt d.part_lt, Nat.add_zero]
      exact toDigits_ofDigitChars d.quotient_ne_nil d.isDigits_quotient hzero
    · change digitsOf places (d.units.natAbs % scale places) = d.fraction
      rw [natAbs_units, scale_eq_pow, magnitude, Nat.mul_comm, Nat.mul_add_mod,
        Nat.mod_eq_of_lt d.part_lt]
      have hdigits := digitsOf_ofDigitChars d.isDigits_fraction
      rwa [d.length_fraction] at hdigits

/-! ## Rounding -/

/-- No numeral with as many places is nearer to `x`. -/
def IsNearest (d : Numeral places) (x : ℚ) : Prop :=
  ∀ d' : Numeral places, |d.value - x| ≤ |d'.value - x|

/-- Different amounts are a unit of the last place apart, however the way between them is split. -/
theorem unit_le_abs_sub_add_abs_sub {d e : Numeral places} (h : d.units ≠ e.units) (x : ℚ) :
    1 / 10 ^ places ≤ |d.value - x| + |e.value - x| := by
  have hpow : (0 : ℚ) < 10 ^ places := pow_pos (by norm_num) _
  have hone : (1 : ℚ) ≤ |(d.units : ℚ) - e.units| := by
    exact_mod_cast Int.one_le_abs (sub_ne_zero.mpr h)
  calc (1 : ℚ) / 10 ^ places
      ≤ |(d.units : ℚ) - e.units| / 10 ^ places := div_le_div_of_nonneg_right hone hpow.le
    _ = |d.value - e.value| := by
        rw [value_eq, value_eq, ← sub_div, abs_div, abs_of_pos hpow]
    _ ≤ |d.value - x| + |x - e.value| := abs_sub_le _ _ _
    _ = |d.value - x| + |e.value - x| := by rw [abs_sub_comm x]

/-- A numeral within half a unit of the last place is a nearest one. -/
theorem isNearest_of_abs_le {d : Numeral places} {x : ℚ}
    (h : |d.value - x| ≤ 1 / 10 ^ places / 2) : d.IsNearest x := by
  intro e
  by_cases hunits : d.units = e.units
  · rw [value_eq, value_eq, hunits]
  · have hgap := unit_le_abs_sub_add_abs_sub hunits x
    linarith

/-- Within less than half a unit, there is no other. -/
theorem units_eq_of_isNearest {d e : Numeral places} {x : ℚ}
    (he : |e.value - x| < 1 / 10 ^ places / 2) (hd : d.IsNearest x) : d.units = e.units := by
  by_contra hunits
  have hgap := unit_le_abs_sub_add_abs_sub hunits x
  have hnear := hd e
  linarith

end Numeral

end UtxoAssets.Text
