import UtxoAssets.Bytes.Basic
import UtxoAssets.Text.Decimal

/-!
# Payload errors

`PayloadError` lists the causes for which a payload is refused, and `PayloadError.message` words
them.  What is wrong with text that is not base64 is for the decoder of base64 to say: the error
keeps the bytes that it refused, and `message` takes its words for them.
-/

set_option autoImplicit false

namespace UtxoAssets

/-- The causes for which a payload is refused. -/
inductive PayloadError where
  /-- The payload ends at `offset`, `missing` bytes too early. -/
  | unexpectedEnd (offset missing : Nat)
  | nonCanonicalSize (value : Nat)
  | indexOverflow (value : Nat)
  | fieldLength (field : String) (length expected : Nat)
  /-- The bytes `refused` are not base64. -/
  | invalidBase64 {refused : Bytes} (field : String)
  /-- A proof value points at `offset`, past its `length` bytes of parent nodes. -/
  | proofOffset (offset length : Nat)
  | invalidPrecision (precision : UInt8)
  | noDataCarrier
  deriving DecidableEq

/-- Words for bytes that are not base64, when nothing is said about them. -/
def PayloadError.undecodable (_ : Bytes) : String := "the bytes cannot be decoded"

/-- The words for an error, where `whyNot` are those for bytes that are not base64. -/
def PayloadError.message (e : PayloadError)
    (whyNot : Bytes → String := PayloadError.undecodable) : String :=
  match e with
  | .unexpectedEnd offset missing =>
    "payload ended at offset " ++ Text.decimal offset ++ " while " ++ Text.decimal missing
      ++ " more bytes were required"
  | .nonCanonicalSize value =>
    "compact size " ++ Text.decimal value ++ " is not canonically encoded"
  | .indexOverflow value =>
    "output index " ++ Text.decimal value ++ " does not fit in 32 bits"
  | .fieldLength field length expected =>
    "field " ++ field ++ " has length " ++ Text.decimal length ++ " while the expected length is "
      ++ Text.decimal expected
  | @invalidBase64 refused field => "field " ++ field ++ " is not valid base64: " ++ whyNot refused
  | .proofOffset offset length =>
    "proof value offset " ++ Text.decimal offset ++ " lies beyond the " ++ Text.decimal length
      ++ " bytes of parent nodes"
  | .invalidPrecision precision =>
    "asset precision " ++ Text.decimal precision.toNat ++ " exceeds the maximum of 8"
  | .noDataCarrier => "transaction carries no data output"

end UtxoAssets
