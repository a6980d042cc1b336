import UtxoAssets.Bytes.Hex
import UtxoAssets.Digest.Ripemd160
import UtxoAssets.Digest.Sha256
import UtxoAssets.Text.Decimal
import UtxoAssets.Text.Quoted
import UtxoAssets.Text.Utf8

/-!
# Hashes and their text

A hash is 32 bytes, and is shown as the hexadecimal digits of its bytes in reverse order.

* `doubleSha256` and `hash160` are the digests that identify transactions and keys.
* `Hash256.text` and `Hash256.ofText` write and read the text; a text that is no hash fails for the
  first cause in the order of `HashTextError`.
-/

set_option autoImplicit false

namespace UtxoAssets

/-- The hash of a transaction or a block. -/
abbrev Hash256 := FixedBytes 32

/-- The hash of a public key or a script. -/
abbrev KeyId := FixedBytes 20

/-- The digest that names transactions and blocks. -/
def doubleSha256 (bs : Bytes) : Hash256 := Digest.sha256 (Digest.sha256 bs).toBytes

/-- The digest that names keys and scripts. -/
def hash160 (bs : Bytes) : KeyId := Digest.ripemd160 (Digest.sha256 bs).toBytes

/-- Why a text is no hash. Lengths and positions count UTF-8 bytes. -/
inductive HashTextError where
  | oddLength
  | wrongLength
  | badDigit (byte : UInt8) (position : Nat)
  deriving DecidableEq

/-- The words for an error. -/
def HashTextError.message : HashTextError → String
  | .oddLength => "Odd number of digits"
  | .wrongLength => "Invalid string length"
  | .badDigit byte position =>
    "Invalid character " ++ Text.quotedByte byte ++ " at position " ++ Text.decimal position

namespace Hash256

/-- The hash that stands for none. -/
def zero : Hash256 := FixedBytes.replicate 32 0

/-- Whether a hash stands for none. -/
def isZero (h : Hash256) : Bool := h == zero

/-- The digits of a hash, last byte first. -/
def text (h : Hash256) : String := hex h.reverse.toBytes

/-- The value of a digit, or the error that names it and its position. -/
def digitAt (position : Nat) (byte : UInt8) : Except HashTextError Nat :=
  match hexValue? (Char.ofNat byte.toNat) with
  | some d => .ok d
  | none => .error (.badDigit byte position)

/-- Pairs of digits as bytes, the first of them standing at `position`. -/
def readPairs (position : Nat) : Bytes → Except HashTextError Bytes
  | [] => .ok []
  | [_] => .error .oddLength
  | c :: d :: rest => do
    let high ← digitAt position c
    let low ← digitAt (position + 1) d
    let bs ← readPairs (position + 2) rest
    return UInt8.ofNat (16 * high + low) :: bs

/-- Read a hash from its digits in letters of either case. The length is tested before the digits,
in bytes and not in characters. -/
def ofText (s : String) : Except HashTextError Hash256 := do
  let digits := Text.utf8 s
  if digits.length % 2 = 1 then throw .oddLength
  if digits.length ≠ 64 then throw .wrongLength
  let bs ← readPairs 0 digits
  match FixedBytes.ofBytes? 32 bs with
  | some h => return h.reverse
  | none => throw .wrongLength

end Hash256

end UtxoAssets
