import UtxoAssets.Script.Error

/-!
# Signature pushes

A signature push is two integers in strict DER form and a byte that says what the signature covers:
`30 length 02 length R 02 length S flag`.

* `hashTypeName?` names the defined flags.
* `checkSignature` tests the form, fault by fault; each byte it looks at is within the push.
-/

set_option autoImplicit false

namespace UtxoAssets

/-- The name of a signature's coverage flag, if the flag is defined. -/
def hashTypeName? (flag : UInt8) : Option String :=
  if flag = 0x01 then some "ALL"
  else if flag = 0x02 then some "NONE"
  else if flag = 0x03 then some "SINGLE"
  else if flag = 0x81 then some "ALL|ANYONECANPAY"
  else if flag = 0x82 then some "NONE|ANYONECANPAY"
  else if flag = 0x83 then some "SINGLE|ANYONECANPAY"
  else none

/-- Two integers of one byte each. -/
def minSignatureSize : Nat := 9

/-- Two integers of 33 bytes each. -/
def maxSignatureSize : Nat := 73

/-- Whether the top bit of a byte is set, which makes an integer negative. -/
def topBit (b : UInt8) : Bool := 0x80 ≤ b

/-- The parts of a signature push that is long enough to have them, its flag aside. -/
def checkParts (sig : Bytes) (hn : minSignatureSize ≤ sig.length) : Except ScriptError Unit :=
  have : 9 ≤ sig.length := hn
  if sig[0] ≠ 0x30 then .error (.signatureForm .noSequence)
  else if sig[1].toNat ≠ sig.length - 3 then .error (.signatureForm .sequenceLength)
  else if hr : 5 + sig[3].toNat ≥ sig.length then .error (.signatureForm .rOverrun)
  else if hs : sig[3].toNat + sig[5 + sig[3].toNat].toNat + 7 ≠ sig.length then
    .error (.signatureForm .lengthSum)
  else if sig[2] ≠ 0x02 then .error (.signatureForm .rNotInteger)
  else if sig[3].toNat = 0 then .error (.signatureForm .rEmpty)
  else if topBit sig[4] then .error (.signatureForm .rNegative)
  else if 1 < sig[3].toNat ∧ sig[4] = 0x00 ∧ ¬ topBit sig[5] then
    .error (.signatureForm .rPadding)
  else if sig[4 + sig[3].toNat] ≠ 0x02 then .error (.signatureForm .sNotInteger)
  else if h0 : sig[5 + sig[3].toNat].toNat = 0 then .error (.signatureForm .sEmpty)
  else if topBit sig[6 + sig[3].toNat] then .error (.signatureForm .sNegative)
  else if h1 : 1 < sig[5 + sig[3].toNat].toNat then
    if sig[6 + sig[3].toNat] = 0x00 ∧ ¬ topBit sig[7 + sig[3].toNat] then
      .error (.signatureForm .sPadding)
    else .ok ()
  else .ok ()

/-- The form of a signature push, its flag aside. -/
def checkDer (sig : Bytes) : Except ScriptError Unit :=
  if hn : sig.length < minSignatureSize ∨ maxSignatureSize < sig.length then
    .error (.signatureLength sig.length)
  else checkParts sig (Nat.not_lt.mp (not_or.mp hn).1)

/-- The form of a signature push, and its flag. -/
def checkSignature (sig : Bytes) : Except ScriptError Unit := do
  checkDer sig
  match sig.getLast? with
  | some flag => if (hashTypeName? flag).isNone then throw (.undefinedHashType flag)
  | none => throw (.signatureLength 0)

end UtxoAssets
