import UtxoAssets.Script.Instruction

/-!
# The standard forms of output scripts

Each standard form has a recogniser of its own, and no script is accepted by two of them.

* `ScriptForm.ofScript` gives the form of a script with the data that the form holds.
* `ScriptForm.scriptClass` forgets the data; `ScriptClass.name` is the name that documents show.
-/

set_option autoImplicit false

namespace UtxoAssets

/-- The form of a script, with what it pays to. -/
inductive ScriptForm where
  | nonStandard
  | pubKey (key : Bytes)
  | pubKeyHash (keyId : FixedBytes 20)
  | scriptHash (scriptId : FixedBytes 20)
  | multiSig (required : Nat) (keys : List Bytes)
  | nullData
  | witnessKeyHash (keyId : FixedBytes 20)
  | witnessScriptHash (scriptId : FixedBytes 32)
  | taproot (program : FixedBytes 32)
  | witnessUnknown (version : Nat) (program : Bytes)
  deriving DecidableEq

/-- The forms of a script, without their data. -/
inductive ScriptClass where
  | nonStandard
  | pubKey
  | pubKeyHash
  | scriptHash
  | multiSig
  | nullData
  | witnessKeyHash
  | witnessScriptHash
  | taproot
  | witnessUnknown
  deriving DecidableEq

/-- The name that documents show. -/
def ScriptClass.name : ScriptClass → String
  | .nonStandard => "nonstandard"
  | .pubKey => "pubkey"
  | .pubKeyHash => "pubkeyhash"
  | .scriptHash => "scripthash"
  | .multiSig => "multisig"
  | .nullData => "nulldata"
  | .witnessKeyHash => "witness_v0_keyhash"
  | .witnessScriptHash => "witness_v0_scripthash"
  | .taproot => "witness_v1_taproot"
  | .witnessUnknown => "witness_unknown"

/-- A key has the length that its first byte announces. -/
def isKeySize (key : Bytes) : Bool :=
  match key with
  | [] => false
  | header :: body =>
    if header = 0x02 ∨ header = 0x03 then body.length = 32
    else if header = 0x04 ∨ header = 0x06 ∨ header = 0x07 then body.length = 64
    else false

/-- Accepts `OP_HASH160`, a direct push of 20 bytes, `OP_EQUAL`. -/
def payToScriptHash? (s : Script) : Option (FixedBytes 20) :=
  match s with
  | op :: size :: rest =>
    if op = Opcode.hash160 ∧ size = 20 ∧ rest.drop 20 = [Opcode.equal] then
      FixedBytes.ofBytes? 20 (rest.take 20)
    else none
  | _ => none

/-- A version opcode and one direct push of 2 to 40 bytes. -/
def witnessProgram? (s : Script) : Option (Nat × Bytes) :=
  match s with
  | op :: size :: program =>
    if size.toNat = program.length ∧ 2 ≤ program.length ∧ program.length ≤ 40 then
      (Opcode.smallInt? op).map fun version => (version, program)
    else none
  | _ => none

/-- Accepts `OP_RETURN` with nothing behind it but pushes and small numbers. -/
def isNullData (s : Script) : Bool :=
  match s with
  | op :: rest => op = Opcode.ret && isPushOnly rest
  | [] => false

/-- Accepts a direct push of a key and `OP_CHECKSIG`. -/
def payToPubKey? (s : Script) : Option Bytes :=
  match s with
  | size :: rest =>
    let key := rest.take size.toNat
    if (size = 33 ∨ size = 65) ∧ rest.drop size.toNat = [Opcode.checkSig] ∧ isKeySize key then
      some key
    else none
  | [] => none

/-- Accepts `OP_DUP`, `OP_HASH160`, a direct push of 20 bytes, `OP_EQUALVERIFY`, `OP_CHECKSIG`. -/
def payToPubKeyHash? (s : Script) : Option (FixedBytes 20) :=
  match s with
  | op1 :: op2 :: size :: rest =>
    if op1 = Opcode.dup ∧ op2 = Opcode.hash160 ∧ size = 20
        ∧ rest.drop 20 = [Opcode.equalVerify, Opcode.checkSig] then
      FixedBytes.ofBytes? 20 (rest.take 20)
    else none
  | _ => none

/-- The keys at the front of a list of tokens, and the tokens after them. -/
def splitKeys : List Token → List Bytes × List Token
  | .instruction i :: rest =>
    if isKeySize i.data then
      let (keys, after) := splitKeys rest
      (i.data :: keys, after)
    else ([], .instruction i :: rest)
  | tokens => ([], tokens)

/-- A number of required signatures, the keys, their count, and the closing opcode. -/
def multiSig? (s : Script) : Option (Nat × List Bytes) :=
  match parse s with
  | .instruction first :: rest =>
    match splitKeys rest with
    | (keys, [.instruction count, .instruction last]) =>
      match Opcode.count? first.opcode, Opcode.count? count.opcode with
      | some m, some n =>
        if last.opcode = Opcode.checkMultiSig ∧ keys.length = n ∧ m ≤ n then some (m, keys)
        else none
      | _, _ => none
    | _ => none
  | _ => none

/-- The form of a witness program. A program of version zero has one of two lengths. -/
def ScriptForm.ofWitnessProgram (version : Nat) (program : Bytes) : ScriptForm :=
  match version, FixedBytes.ofBytes? 20 program, FixedBytes.ofBytes? 32 program with
  | 0, some keyId, _ => .witnessKeyHash keyId
  | 0, none, some scriptId => .witnessScriptHash scriptId
  | 0, none, none => .nonStandard
  | 1, _, some output => .taproot output
  | _, _, _ => .witnessUnknown version program

namespace ScriptForm

/-- The form of the first recogniser that accepts the script. -/
def ofScript (s : Script) : ScriptForm :=
  match payToScriptHash? s with
  | some scriptId => .scriptHash scriptId
  | none =>
  match witnessProgram? s with
  | some (version, program) => ofWitnessProgram version program
  | none =>
  if isNullData s then .nullData
  else
  match payToPubKey? s with
  | some key => .pubKey key
  | none =>
  match payToPubKeyHash? s with
  | some keyId => .pubKeyHash keyId
  | none =>
  match multiSig? s with
  | some (required, keys) => .multiSig required keys
  | none => .nonStandard

/-- The class of a form. -/
def scriptClass : ScriptForm → ScriptClass
  | .nonStandard => .nonStandard
  | .pubKey _ => .pubKey
  | .pubKeyHash _ => .pubKeyHash
  | .scriptHash _ => .scriptHash
  | .multiSig _ _ => .multiSig
  | .nullData => .nullData
  | .witnessKeyHash _ => .witnessKeyHash
  | .witnessScriptHash _ => .witnessScriptHash
  | .taproot _ => .taproot
  | .witnessUnknown _ _ => .witnessUnknown

end ScriptForm

end UtxoAssets
