import UtxoAssets.Digest.Hash256
import UtxoAssets.Script.Form

/-!
# Destinations

* `ScriptForm.destination?` is the one destination a script pays to, if there is exactly one.
* `ScriptForm.destinations` lists every destination, and `ScriptForm.requiredSignatures` says how
  many of their owners have to sign.
* `dataCarrier?` is the data of a script that carries some: its first push.
-/

set_option autoImplicit false

namespace UtxoAssets

/-- Whom a script pays. -/
inductive Destination where
  | pubKeyHash (keyId : KeyId)
  | scriptHash (scriptId : FixedBytes 20)
  | witnessKeyHash (keyId : KeyId)
  | witnessScriptHash (scriptId : FixedBytes 32)
  | witnessUnknown (version : Nat) (program : Bytes)
  deriving DecidableEq

/-- Addresses depend on the network, so their text is left to the caller. -/
abbrev AddressEncoder := Destination → String

namespace ScriptForm

/-- The one destination of a form, if it has one. A bare key stands for its hash. -/
def destination? : ScriptForm → Option Destination
  | .pubKey key => some (.pubKeyHash (UtxoAssets.hash160 key))
  | .pubKeyHash keyId => some (.pubKeyHash keyId)
  | .scriptHash scriptId => some (.scriptHash scriptId)
  | .witnessKeyHash keyId => some (.witnessKeyHash keyId)
  | .witnessScriptHash scriptId => some (.witnessScriptHash scriptId)
  | .taproot program => some (.witnessUnknown 1 program.toBytes)
  | .witnessUnknown version program => some (.witnessUnknown version program)
  | .nonStandard | .nullData | .multiSig _ _ => none

/-- Multisig pays to the hash of every one of its keys. -/
def destinations : ScriptForm → List Destination
  | .multiSig _ keys => keys.map fun key => .pubKeyHash (UtxoAssets.hash160 key)
  | form => form.destination?.toList

/-- How many signatures a form asks for. -/
def requiredSignatures : ScriptForm → Nat
  | .multiSig required _ => required
  | form => if form.destination?.isSome then 1 else 0

/-- Whether any destination is known. -/
def isResolved (form : ScriptForm) : Bool := !form.destinations.isEmpty

end ScriptForm

/-- What follows the first push is not looked at. -/
def dataCarrier? (s : Script) : Option Bytes :=
  match s with
  | op :: rest =>
    if op = Opcode.ret then
      match (Scanner.start rest).next with
      | some (.instruction i, _) => if i.isPush then some i.data else none
      | _ => none
    else none
  | [] => none

end UtxoAssets
