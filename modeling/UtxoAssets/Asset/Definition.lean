import UtxoAssets.Amount
import UtxoAssets.Asset.Allocation
import UtxoAssets.Digest.Hash256

/-!
# Asset definitions

An activation or an update of an asset.  Its eight optional fields are announced by a mask, one bit
each, and follow it in the order of the bits.

* `AssetDefinition.mask` derives the mask from the fields, so a definition cannot contradict it.
* `AssetDefinition.decoder` reads the two fields of an activation between mask and fields when it is
  told that the payload is one.
-/

set_option autoImplicit false

namespace UtxoAssets

/-- What an activation fixes for good. -/
structure Activation where
  symbol : String
  maxSupply : Int64
  deriving DecidableEq

/-- Where the notary of an asset is reached, and what it asks for. -/
structure Notary where
  endpoint : String
  instantTransfers : Bool
  hdRequired : Bool
  deriving DecidableEq

/-- A tier of the auxiliary fee; the percentage counts hundred-thousandths. -/
structure FeeTier where
  bound : Int64
  percent : UInt16
  deriving DecidableEq

/-- What an asset payload says of an asset. Each optional field is there exactly when its bit in the
mask is set; the part of an activation has none. -/
structure AssetDefinition where
  allocation : Allocation := []
  precision : UInt8 := 0
  activation : Option Activation := none
  publicValue : Option String := none
  contract : Option Bytes := none
  balance : Option Int64 := none
  notaryKey : Option KeyId := none
  notary : Option Notary := none
  feeKey : Option KeyId := none
  feeTiers : Option (List FeeTier) := none
  capabilityFlags : Option UInt8 := none
  deriving DecidableEq

/-- The mask bits. -/
inductive MaskBit where
  | publicValue
  | contract
  | balance
  | notaryKey
  | notary
  | feeKey
  | feeTiers
  | capabilityFlags
  deriving DecidableEq

namespace MaskBit

/-- The bit in the mask byte. -/
def value : MaskBit → UInt8
  | .publicValue => 0x01
  | .contract => 0x02
  | .balance => 0x04
  | .notaryKey => 0x08
  | .notary => 0x10
  | .feeKey => 0x20
  | .feeTiers => 0x40
  | .capabilityFlags => 0x80

/-- Whether the bit is set in a mask. -/
def isIn (bit : MaskBit) (mask : UInt8) : Bool := mask &&& bit.value != 0

/-- The bit of a field that is there, and nothing for one that is not. -/
def ofField {α : Type} (bit : MaskBit) (field : Option α) : UInt8 :=
  if field.isSome then bit.value else 0

end MaskBit

namespace FeeTier

/-- The bound and the rate as words. -/
def encode (t : FeeTier) : Bytes := Word.toBytes t.bound ++ Word.toBytes t.percent

/-- Read one tier of a fee. -/
def decoder : Decoder FeeTier := do
  let bound ← Decoder.word Int64
  let percent ← Decoder.word UInt16
  return ⟨bound, percent⟩

end FeeTier

namespace Notary

/-- The endpoint as text, and two flag bytes. -/
def encode (n : Notary) : Bytes :=
  Wire.base64Field n.endpoint ++ [n.instantTransfers.toUInt8, n.hdRequired.toUInt8]

/-- Read the details of a notary. Any byte but zero is a set flag. -/
def decoder : Decoder Notary := do
  let endpoint ← Decoder.base64Field "notary_endpoint"
  let instantTransfers ← Decoder.flag
  let hdRequired ← Decoder.flag
  return ⟨endpoint, instantTransfers, hdRequired⟩

end Notary

namespace Activation

/-- The symbol as text, and the supply as a word. -/
def encode (a : Activation) : Bytes :=
  Wire.base64Field a.symbol ++ Word.toBytes a.maxSupply

/-- Read what only the activation of an asset says. -/
def decoder : Decoder Activation := do
  let symbol ← Decoder.base64Field "symbol"
  let maxSupply ← Decoder.word Int64
  return ⟨symbol, maxSupply⟩

end Activation

namespace AssetDefinition

/-- The mask byte: one bit for each optional field that is there. -/
def mask (d : AssetDefinition) : UInt8 :=
  MaskBit.publicValue.ofField d.publicValue ||| MaskBit.contract.ofField d.contract
    ||| MaskBit.balance.ofField d.balance ||| MaskBit.notaryKey.ofField d.notaryKey
    ||| MaskBit.notary.ofField d.notary ||| MaskBit.feeKey.ofField d.feeKey
    ||| MaskBit.feeTiers.ofField d.feeTiers ||| MaskBit.capabilityFlags.ofField d.capabilityFlags

/-- The encoding of a field that may be absent. -/
def encodeField {α : Type} (encode : α → Bytes) : Option α → Bytes
  | some value => encode value
  | none => []

/-- The allocation, the precision and the mask, then the fields that the mask announces in the order
of their bits. The part of an activation comes in front of them, without a bit. -/
def encode (d : AssetDefinition) : Bytes :=
  Allocation.encode d.allocation ++ [d.precision, d.mask]
    ++ encodeField Activation.encode d.activation
    ++ encodeField Wire.base64Field d.publicValue
    ++ encodeField Wire.varBytes d.contract
    ++ encodeField Word.toBytes d.balance
    ++ encodeField (fun k => Wire.varBytes k.toBytes) d.notaryKey
    ++ encodeField Notary.encode d.notary
    ++ encodeField (fun k => Wire.varBytes k.toBytes) d.feeKey
    ++ encodeField (Wire.counted FeeTier.encode) d.feeTiers
    ++ encodeField Word.toBytes d.capabilityFlags

/-- Read a precision, which is at most eight. -/
def decodePrecision : Decoder UInt8 := do
  let precision ← Decoder.word UInt8
  if maxPrecision < precision then throw (.invalidPrecision precision)
  return precision

/-- Read an asset definition. Whether it has the part of an activation is not in the payload: the
kind of the transaction says so. -/
def decoder (isActivation : Bool) : Decoder AssetDefinition := do
  let allocation ← Allocation.decoder
  let precision ← decodePrecision
  let mask ← Decoder.word UInt8
  let activation ← Decoder.onlyIf isActivation Activation.decoder
  let publicValue ←
    Decoder.onlyIf (MaskBit.publicValue.isIn mask) (Decoder.base64Field "public_value")
  let contract ← Decoder.onlyIf (MaskBit.contract.isIn mask) Decoder.varBytes
  let balance ← Decoder.onlyIf (MaskBit.balance.isIn mask) (Decoder.word Int64)
  let notaryKey ← Decoder.onlyIf (MaskBit.notaryKey.isIn mask) (Decoder.fixed "notary_key_id" 20)
  let notary ← Decoder.onlyIf (MaskBit.notary.isIn mask) Notary.decoder
  let feeKey ← Decoder.onlyIf (MaskBit.feeKey.isIn mask) (Decoder.fixed "auxfee_key_id" 20)
  let feeTiers ←
    Decoder.onlyIf (MaskBit.feeTiers.isIn mask) (Decoder.counted FeeTier.decoder)
  let capabilityFlags ←
    Decoder.onlyIf (MaskBit.capabilityFlags.isIn mask) (Decoder.word UInt8)
  return {
    allocation, precision, activation, publicValue, contract, balance, notaryKey, notary, feeKey,
    feeTiers, capabilityFlags }

end AssetDefinition

end UtxoAssets
