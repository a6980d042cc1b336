/-!
# A byte as a quoted character

Error texts show a stray byte as the Latin-1 character of the same number, between single quotes.
-/

set_option autoImplicit false

namespace UtxoAssets.Text

/-- Control characters, the no-break space and the soft hyphen have no shape of their own. -/
def isShapeless (b : UInt8) : Bool :=
  b < 0x20 || (0x7f ≤ b && b ≤ 0xa0) || b == 0xad

/-- A byte as a character in single quotes, escaped if it has no shape of its own. -/
def quotedByte (b : UInt8) : String :=
  let body : List Char :=
    match b with
    | 0x00 => ['\\', '0']
    | 0x09 => ['\\', 't']
    | 0x0a => ['\\', 'n']
    | 0x0d => ['\\', 'r']
    | 0x27 => ['\\', '\'']
    | 0x5c => ['\\', '\\']
    | _ =>
      if isShapeless b then ['\\', 'u', '{'] ++ Nat.toDigits 16 b.toNat ++ ['}']
      else [Char.ofNat b.toNat]
  String.ofList ('\'' :: body ++ ['\''])

end UtxoAssets.Text
