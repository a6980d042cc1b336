import UtxoAssets.Script.Error

/-!
# Script numbers

A script number is a little-endian magnitude whose sign is the top bit of its last byte.

* `scriptNumber` reads one of at most eight bytes; superfluous bytes and a negative zero are
  allowed.
-/

set_option autoImplicit false

namespace UtxoAssets

/-- The longest script number that can be read. -/
def maxNumberSize : Nat := 8

/-- The longest push that a listing shows as a number. -/
def maxShownNumberSize : Nat := 4

/-- Bytes from the most significant on, after those read into `high`. -/
def pushDigits (high : Int) (bytes : Bytes) : Int :=
  bytes.foldl (fun n b => n * 256 + b.toNat) high

/-- The number of a push: a magnitude, low byte first, and a sign in the top bit. -/
def scriptNumber (bytes : Bytes) : Except ScriptError Int :=
  if maxNumberSize < bytes.length then .error (.numberTooLong bytes)
  else
    match bytes.reverse with
    | [] => .ok 0
    | last :: lower =>
      let magnitude := pushDigits (last.toNat % 128) lower
      .ok (if 128 ≤ last.toNat then -magnitude else magnitude)

end UtxoAssets
