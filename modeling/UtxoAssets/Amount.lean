import UtxoAssets.Bytes.Word
import UtxoAssets.Text.Decimal
import UtxoAssets.Text.Utf8

/-!
# Amounts

An amount is a signed 64-bit count of units, a hundred million of which make a coin.

* `Amount.text` and `Amount.ofText` write and read the coin form, always with eight fractional
  digits; a text that is no amount fails for the first cause that `Amount.ofText` tests.  The number
  is put together in 64-bit arithmetic, and each step may leave its range.
* `assetAmountText` writes an asset's units at the precision the asset declares.
* `percentText` writes a fee rate, which counts hundred-thousandths.
-/

set_option autoImplicit false

namespace UtxoAssets

/-- Why a text is no amount, or an amount has no text. -/
inductive AmountError where
  | missingPoint (text : String)
  | fractionLength (digits : Nat)
  | invalidDigits (text : String)
  | outOfRange (text : String)
  | invalidPrecision (precision : UInt8)
  deriving DecidableEq

/-- The words for an error. -/
def AmountError.message : AmountError → String
  | .missingPoint text => "amount " ++ text ++ " has no decimal point"
  | .fractionLength digits =>
    "amount has " ++ Text.decimal digits ++ " fractional digits while exactly 8 are required"
  | .invalidDigits text => "amount " ++ text ++ " contains invalid digits"
  | .outOfRange text => "amount " ++ text ++ " does not fit in a signed 64-bit unit count"
  | .invalidPrecision precision =>
    "asset precision " ++ Text.decimal precision.toNat ++ " exceeds the maximum of 8"

/-- An amount of the native coin, counted in its smallest unit. -/
structure Amount where
  units : Int64
  deriving DecidableEq

namespace Amount

/-- Fractional digits of a coin amount. -/
def places : Nat := 8

/-- The amount in whole coins, with all eight places behind the point. -/
def text (a : Amount) : String := Text.signedFixedPoint places a.units.toInt

/-- One leading minus sign, and the rest. -/
def splitSign : List Char → Bool × List Char
  | '-' :: cs => (true, cs)
  | cs => (false, cs)

/-- Append a digit to a number, if 64 bits hold the result. -/
def pushDigit? (n : UInt64) (c : Char) : Option UInt64 := do
  let tens ← uint64OfNat? (10 * n.toNat)
  uint64OfNat? (tens.toNat + (c.toNat - '0'.toNat))

/-- The number that digits denote, the most significant one first. -/
def ofDigits? (digits : List Char) : Option UInt64 := digits.foldlM pushDigit? 0

/-- The units of so many coins and a fraction of one. -/
def magnitude? (coins fraction : UInt64) : Option UInt64 := do
  let units ← uint64OfNat? (coins.toNat * Text.scale places)
  uint64OfNat? (units.toNat + fraction.toNat)

/-- The smallest signed number has no positive counterpart. -/
def signed? (negative : Bool) (magnitude : UInt64) : Option Int64 :=
  int64OfInt? (if negative then -(magnitude.toNat : Int) else magnitude.toNat)

/-- A value that is there, or else a cause. -/
def orError {α : Type} (cause : AmountError) : Option α → Except AmountError α
  | some value => .ok value
  | none => .error cause

/-- The amount whose digits stand before and after the point of the text `s`. -/
def ofParts (s : String) (negative : Bool) (quotient fraction : List Char) :
    Except AmountError Amount := do
  let coins ← orError (.outOfRange s) (ofDigits? quotient)
  let rest ← orError (.invalidDigits s) (ofDigits? fraction)
  let magnitude ← orError (.outOfRange s) (magnitude? coins rest)
  let units ← orError (.outOfRange s) (signed? negative magnitude)
  return ⟨units⟩

/-- Read an amount in the form in which `text` writes it. The tests are made in this order: the
point, the number of places, the digits, the range. -/
def ofText (s : String) : Except AmountError Amount :=
  let (negative, unsigned) := splitSign s.toList
  match Text.splitAtPoint unsigned with
  | none => .error (.missingPoint s)
  | some (quotient, fraction) =>
    let fractionBytes := (Text.utf8 (String.ofList fraction)).length
    if fractionBytes ≠ places then .error (.fractionLength fractionBytes)
    else if quotient.isEmpty || !Text.isDigits quotient || !Text.isDigits fraction then
      .error (.invalidDigits s)
    else ofParts s negative quotient fraction

end Amount

/-- The largest precision an asset may declare. -/
def maxPrecision : UInt8 := 8

/-- An asset's units as a decimal. At precision zero one fractional zero is still shown. -/
def assetAmountText (units : Int64) (precision : UInt8) : Except AmountError String :=
  if maxPrecision < precision then .error (.invalidPrecision precision)
  else if precision = 0 then .ok (Text.decimal units.toInt ++ ".0")
  else .ok (Text.signedFixedPoint precision.toNat units.toInt)

/-- A fee rate with its five fractional digits. -/
def percentText (percent : UInt16) : String := Text.signedFixedPoint 5 percent.toNat

end UtxoAssets
