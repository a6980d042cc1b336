import UtxoAssets.Bytes.Hex
import UtxoAssets.Text.Decimal

/-!
# Script errors

* `ScriptError` lists why a script, a script number or a signature is refused, and
  `ScriptError.message` words it.
-/

set_option autoImplicit false

namespace UtxoAssets

/-- How a signature departs from the strict DER form. -/
inductive SignatureFault where
  | noSequence
  | sequenceLength
  | rOverrun
  | lengthSum
  | rNotInteger
  | rEmpty
  | rNegative
  | rPadding
  | sNotInteger
  | sEmpty
  | sNegative
  | sPadding
  deriving DecidableEq

/-- The words for a fault. -/
def SignatureFault.message : SignatureFault → String
  | .noSequence => "missing sequence marker"
  | .sequenceLength => "sequence length does not match signature length"
  | .rOverrun => "R length overruns the signature"
  | .lengthSum => "R and S lengths do not add up to the signature length"
  | .rNotInteger => "R is not an integer"
  | .rEmpty => "R is empty"
  | .rNegative => "R is negative"
  | .rPadding => "R has excessive padding"
  | .sNotInteger => "S is not an integer"
  | .sEmpty => "S is empty"
  | .sNegative => "S is negative"
  | .sPadding => "S has excessive padding"

/-- What can be wrong with a script or one of its pushes. -/
inductive ScriptError where
  /-- A push ends within its length bytes; `tail` is all there is of it. -/
  | pushLengthCut (tail : Bytes)
  /-- A push announces more data than the script has left. -/
  | pushDataCut (announced available : Nat)
  | numberTooLong (bytes : Bytes)
  | signatureLength (length : Nat)
  | signatureForm (fault : SignatureFault)
  | undefinedHashType (flag : UInt8)
  deriving DecidableEq

/-- The words for an error. -/
def ScriptError.message : ScriptError → String
  | .pushLengthCut tail => "invalid opcode length: " ++ byteListing 2 tail
  | .pushDataCut announced available =>
    "opcode requires " ++ Text.decimal announced ++ " bytes, but script only has "
      ++ Text.decimal available ++ " remaining"
  | .numberTooLong bytes =>
    "number too big: numeric value encoded as " ++ byteListing 1 bytes
      ++ " is longer than 8 bytes"
  | .signatureLength length => "invalid signature length " ++ Text.decimal length
  | .signatureForm fault => "signature is not strictly DER encoded: " ++ fault.message
  | .undefinedHashType flag => "invalid hash type 0x" ++ hex [flag]

end UtxoAssets
