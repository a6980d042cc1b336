import UtxoAssets.Script.Instruction
import UtxoAssets.Script.Number
import UtxoAssets.Script.Signature

/-!
# Script listings

A listing is one line of text, made of the listings of a script's tokens with blanks between them.

* `asm` shows short pushes as numbers, long pushes as hex and other instructions by mnemonic;
  `asmWithHashTypes` also shows the flag of a signature by its name.
* `flat` keeps every byte: small numbers and operators by name, all else as hex.
-/

set_option autoImplicit false

namespace UtxoAssets

/-- Stands for the part of a script that is no instruction. -/
def errorToken : String := "[error]"

/-- A push shown as a signature, with its flag by name. -/
def signatureText? (data : Bytes) : Option String :=
  match checkSignature data, data.getLast? with
  | .ok (), some flag => (hashTypeName? flag).map fun name => hex data.dropLast ++ "[" ++ name ++ "]"
  | _, _ => none

/-- A push of up to four bytes is shown as a number, and a longer one in hexadecimal. A signature
may have the name of its flag instead of the flag. -/
def asmPush (showHashTypes : Bool) (data : Bytes) : String :=
  if data.length ≤ maxShownNumberSize then
    match scriptNumber data with
    | .ok n => Text.decimal n
    | .error _ => "0"
  else
    match showHashTypes, signatureText? data with
    | true, some text => text
    | _, _ => hex data

/-- A push by its data, any other instruction by its mnemonic. -/
def asmToken (showHashTypes : Bool) : Token → String
  | .instruction i =>
    if i.isPush then asmPush showHashTypes i.data else Opcode.name i.opcode
  | .malformed _ _ => errorToken

/-- The listing of a script. -/
def asm (s : Script) : String :=
  String.intercalate " " ((parse s).map (asmToken false))

/-- The listing of an unlocking script. A script that cannot be spent holds no signature. -/
def asmWithHashTypes (s : Script) : String :=
  String.intercalate " " ((parse s).map (asmToken !isUnspendable s))

/-- A mnemonic without the three characters that all of them begin with. -/
def bareMnemonic (opcode : UInt8) : String := String.ofList ((Opcode.name opcode).toList.drop 3)

/-- Bytes as a token of the flat form. -/
def hexToken (bs : Bytes) : String := "0x" ++ hex bs

/-- The token or the two tokens of an instruction, from which it can be read back. -/
def flatInstruction (i : Instruction) : String :=
  if i.opcode = 0x00 then "0"
  else if i.opcode = Opcode.negative1 ∨ Opcode.isSmallInt i.opcode then
    Text.decimal ((i.opcode.toNat : Int) - 0x50)
  else if Opcode.nop ≤ i.opcode ∧ i.opcode ≤ Opcode.nop10 then bareMnemonic i.opcode
  else if i.data.isEmpty then hexToken i.encoded
  else hexToken i.header ++ " " ++ hexToken i.data

/-- An instruction, or the bytes of the malformed part. -/
def flatToken : Token → String
  | .instruction i => flatInstruction i
  | .malformed _ tail => hexToken tail

/-- The flat form of a script. -/
def flat (s : Script) : String := String.intercalate " " ((parse s).map flatToken)

end UtxoAssets
