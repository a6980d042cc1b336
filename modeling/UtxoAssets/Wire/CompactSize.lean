import UtxoAssets.Bytes.Base64
import UtxoAssets.Bytes.Word
import UtxoAssets.Text.Utf8

/-!
# Lengths and length-prefixed fields

* `compactSize n` writes a number below `2 ^ 64` in one, three, five or nine bytes, the shortest
  form that holds it.
* `varBytes` puts a length before a byte string, `base64Field` does so for a text in base64, and
  `counted` puts a count before the encodings of a list.
-/

set_option autoImplicit false

namespace UtxoAssets.Wire

/-- The shortest form of a size. A byte from `0xfd` on announces that two, four or eight bytes
follow. -/
def compactSize (n : Nat) : Bytes :=
  if n < 0xfd then [UInt8.ofNat n]
  else if n < 0x10000 then 0xfd :: littleEndian 2 n
  else if n < 0x100000000 then 0xfe :: littleEndian 4 n
  else 0xff :: littleEndian 8 n

/-- Bytes with their length in front. -/
def varBytes (bs : Bytes) : Bytes := compactSize bs.length ++ bs

/-- A text field: its UTF-8 bytes in base64, with their length in front. -/
def base64Field (s : String) : Bytes := varBytes (Base64.encode (Text.utf8 s))

/-- Items with their number in front. -/
def counted {α : Type} (encode : α → Bytes) (xs : List α) : Bytes :=
  compactSize xs.length ++ xs.flatMap encode

end UtxoAssets.Wire
