import UtxoAssets.Document.Script
import UtxoAssets.Script.Destination
import UtxoAssets.Script.Listing

/-!
# Rendering scripts

* `ScriptSig.ofScript` lists an unlocking script, the only kind that is searched for signatures.
* `ScriptPubKey.ofScript` and `DecodedScript.ofScript` show where a script pays to.  A bare key is
  shown by its class alone.
-/

set_option autoImplicit false

namespace UtxoAssets.Document

/-- An input's script, with the coverage flags of its signatures named. -/
def ScriptSig.ofScript (s : Script) : ScriptSig := ⟨asmWithHashTypes s, UtxoAssets.hex s⟩

/-- Whether a script's destinations are shown. -/
def showsDestinations (form : ScriptForm) : Bool :=
  form.isResolved && form.scriptClass != .pubKey

/-- An output's script, with the addresses of all its destinations. -/
def ScriptPubKey.ofScript (encoder : AddressEncoder) (s : Script) : ScriptPubKey :=
  let form := ScriptForm.ofScript s
  let shown := showsDestinations form
  { asm := UtxoAssets.asm s
    hex := UtxoAssets.hex s
    requiredSignatures := if shown then some (UInt64.ofNat form.requiredSignatures) else none
    scriptClass := form.scriptClass.name
    addresses := if shown then some (form.destinations.map encoder) else none }

/-- A script by itself. It has an address if it has one destination, unless it names a bare key. -/
def DecodedScript.ofScript (encoder : AddressEncoder) (s : Script) : DecodedScript :=
  let form := ScriptForm.ofScript s
  { asm := UtxoAssets.asm s
    hex := UtxoAssets.hex s
    scriptClass := form.scriptClass.name
    address := if form.scriptClass = .pubKey then none else form.destination?.map encoder }

end UtxoAssets.Document
