import UtxoAssets.Bytes.Basic

/-!
# Hexadecimal text

* `hex` writes two lower-case digits a byte; `unhex?` reads digits of either case.
* `unhexChars?_hexChars`: reading undoes writing, so `hex` is injective.
* `byteListing` writes bytes as a bracketed list, the form error texts use.
-/

set_option autoImplicit false

namespace UtxoAssets

/-- The lower-case digit of a number below sixteen. -/
def hexDigit (d : Nat) : Char := Nat.digitChar d

/-- The value of a hexadecimal digit of either case. -/
def hexValue? (c : Char) : Option Nat :=
  if '0' ≤ c ∧ c ≤ '9' then some (c.toNat - 48)
  else if 'a' ≤ c ∧ c ≤ 'f' then some (c.toNat - 87)
  else if 'A' ≤ c ∧ c ≤ 'F' then some (c.toNat - 55)
  else none

/-- The two digits of a byte, high half first. -/
def hexByte (b : UInt8) : List Char := [hexDigit (b.toNat / 16), hexDigit (b.toNat % 16)]

/-- The digits of a byte string. -/
def hexChars (bs : Bytes) : List Char := bs.flatMap hexByte

/-- Bytes in hexadecimal, with small letters. -/
def hex (bs : Bytes) : String := String.ofList (hexChars bs)

/-- The bytes of a row of digits, two for each byte. -/
def unhexChars? : List Char → Option Bytes
  | [] => some []
  | [_] => none
  | c :: d :: rest => do
    let high ← hexValue? c
    let low ← hexValue? d
    let bs ← unhexChars? rest
    return UInt8.ofNat (16 * high + low) :: bs

/-- The bytes that a text writes in hexadecimal, in letters of either case. -/
def unhex? (s : String) : Option Bytes := unhexChars? s.toList

theorem hexValue?_hexDigit {d : Nat} (h : d < 16) : hexValue? (hexDigit d) = some d := by
  have all : ∀ d, d < 16 → hexValue? (hexDigit d) = some d := by decide
  exact all d h

theorem unhexChars?_hexChars (bs : Bytes) : unhexChars? (hexChars bs) = some bs := by
  induction bs with
  | nil => rfl
  | cons b bs ih =>
    have hb := b.toNat_lt
    have hv : UInt8.ofNat (16 * (b.toNat / 16) + b.toNat % 16) = b := by
      rw [show 16 * (b.toNat / 16) + b.toNat % 16 = b.toNat by omega, UInt8.ofNat_toNat]
    change unhexChars? (hexDigit (b.toNat / 16) :: hexDigit (b.toNat % 16) :: hexChars bs) = _
    simp only [unhexChars?, ih, hexValue?_hexDigit (show b.toNat / 16 < 16 by omega),
      hexValue?_hexDigit (show b.toNat % 16 < 16 by omega), Option.bind_eq_bind, Option.bind_some,
      hv, pure]

theorem unhex?_hex (bs : Bytes) : unhex? (hex bs) = some bs := by
  simp [unhex?, hex, unhexChars?_hexChars]

theorem hex_injective {a b : Bytes} (h : hex a = hex b) : a = b := by
  have ha := unhex?_hex a
  rw [h, unhex?_hex] at ha
  exact (Option.some.inj ha).symm

/-- Bytes as a bracketed list with at least `width` digits each: `[4d, 01]` at two, `[4d, 1]` at
one. -/
def byteListing (width : Nat) (bs : Bytes) : String :=
  let digits (b : UInt8) : String :=
    let ds := Nat.toDigits 16 b.toNat
    String.ofList (List.replicate (width - ds.length) '0' ++ ds)
  "[" ++ String.intercalate ", " (bs.map digits) ++ "]"

end UtxoAssets
