import UtxoAssets.Json.Form

/-!
# Documents of scripts

* `ScriptSig` is an unlocking script, `ScriptPubKey` an output script, and `DecodedScript` a script
  that stands alone.

Members are written in the order of the fields; an absent field has no member.
-/

set_option autoImplicit false

namespace UtxoAssets.Document

open Json (always whenSome required? optional?)

/-- An input's script: its listing and its bytes. -/
structure ScriptSig where
  asm : String
  hex : String
  deriving DecidableEq

/-- An output's script: its listing, its bytes, its class, and to whom it pays. -/
structure ScriptPubKey where
  asm : String
  hex : String
  requiredSignatures : Option UInt64
  scriptClass : String
  addresses : Option (List String)
  deriving DecidableEq

/-- A script shown by itself, with one address at most. -/
structure DecodedScript where
  asm : String
  hex : String
  scriptClass : String
  address : Option String
  deriving DecidableEq

instance : JsonForm ScriptSig where
  toJson d := .object (always "asm" d.asm ++ always "hex" d.hex)
  ofJson? v := do
    let asm ← required? String "asm" v
    let hex ← required? String "hex" v
    return ⟨asm, hex⟩

instance : JsonForm ScriptPubKey where
  toJson d := .object (
    always "asm" d.asm ++ always "hex" d.hex ++ whenSome "reqSigs" d.requiredSignatures
      ++ always "type" d.scriptClass ++ whenSome "addresses" d.addresses)
  ofJson? v := do
    let asm ← required? String "asm" v
    let hex ← required? String "hex" v
    let requiredSignatures ← optional? UInt64 "reqSigs" v
    let scriptClass ← required? String "type" v
    let addresses ← optional? (List String) "addresses" v
    return ⟨asm, hex, requiredSignatures, scriptClass, addresses⟩

instance : JsonForm DecodedScript where
  toJson d := .object (
    always "asm" d.asm ++ always "hex" d.hex ++ always "type" d.scriptClass
      ++ whenSome "address" d.address)
  ofJson? v := do
    let asm ← required? String "asm" v
    let hex ← required? String "hex" v
    let scriptClass ← required? String "type" v
    let address ← optional? String "address" v
    return ⟨asm, hex, scriptClass, address⟩

end UtxoAssets.Document
