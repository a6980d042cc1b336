/-!
# Decimal text

* `decimal n` is an integer without superfluous zeros.
* `digitsOf k n` is the number `n` in exactly `k` digits.
* `fixedPoint places n` is a count of units, `scale places` of which make a whole, with all of its
  fractional digits; `signedFixedPoint` puts a minus sign before a negative count.
* `isDigits` and `Nat.ofDigitChars 10` read digits back.
-/

set_option autoImplicit false

namespace UtxoAssets.Text

/-- Digits with the sign of a number. -/
def signed (n : Int) (magnitude : List Char) : String :=
  String.ofList ((if n < 0 then ['-'] else []) ++ magnitude)

/-- The decimal digits of a number, without leading zeros. -/
def decimal (n : Int) : String := signed n (Nat.toDigits 10 n.natAbs)

/-- The last `k` decimal digits of `n`, zeros in front included. -/
def digitsOf : Nat → Nat → List Char
  | 0, _ => []
  | k + 1, n => digitsOf k (n / 10) ++ [Nat.digitChar (n % 10)]

@[simp] theorem length_digitsOf (k n : Nat) : (digitsOf k n).length = k := by
  induction k generalizing n with
  | zero => rfl
  | succ k ih => simp [digitsOf, ih]

/-- The power of ten that `places` fractional digits count. -/
def scale : Nat → Nat
  | 0 => 1
  | places + 1 => 10 * scale places

/-- A magnitude with its last `places` digits behind a point. -/
def fixedPoint (places magnitude : Nat) : List Char :=
  Nat.toDigits 10 (magnitude / scale places) ++ '.' :: digitsOf places (magnitude % scale places)

/-- A number of units with its last `places` digits behind a point. -/
def signedFixedPoint (places : Nat) (units : Int) : String :=
  signed units (fixedPoint places units.natAbs)

/-- ASCII digits only. -/
def isDigits (cs : List Char) : Bool := cs.all Char.isDigit

/-- The characters before and after the first point. -/
def splitAtPoint : List Char → Option (List Char × List Char)
  | [] => none
  | c :: cs => if c = '.' then some ([], cs) else (splitAtPoint cs).map fun (q, r) => (c :: q, r)

end UtxoAssets.Text
