import UtxoAssets.Payload.Decoder
import UtxoAssets.Wire.CompactSize

/-!
# Asset allocations

An allocation assigns amounts of assets to outputs of a transaction.  Every asset payload begins
with one.

* `Allocation.encode` and `Allocation.decoder` write and read it.
* `AssetGroup.total` adds up one asset's amounts from the left and fails at the first sum that 64
  bits do not hold.
-/

set_option autoImplicit false

namespace UtxoAssets

/-- An amount of an asset, assigned to the output of the given index. -/
structure AssetOutput where
  index : UInt32
  amount : Int64
  deriving DecidableEq

/-- All outputs of one asset, in order of appearance. -/
structure AssetGroup where
  asset : UInt32
  outputs : List AssetOutput
  deriving DecidableEq

/-- What a transaction assigns, asset by asset. -/
abbrev Allocation := List AssetGroup

/-- A sum of amounts that no 64-bit number holds. -/
inductive TotalError where
  | overflow
  deriving DecidableEq

/-- The words for an error. -/
def TotalError.message : TotalError → String
  | .overflow => "attempt to add with overflow"

/-- The sum of two amounts, if it is an amount. -/
def addAmounts (a b : Int64) : Except TotalError Int64 :=
  match int64OfInt? (a.toInt + b.toInt) with
  | some sum => .ok sum
  | none => .error .overflow

/-- The sum of a group's amounts. Each partial sum has to fit, not only the last one. -/
def AssetGroup.total (g : AssetGroup) : Except TotalError Int64 :=
  g.outputs.foldlM (fun sum output => addAmounts sum output.amount) 0

namespace AssetOutput

/-- The index as a size, and the amount as a word. -/
def encode (o : AssetOutput) : Bytes :=
  Wire.compactSize o.index.toNat ++ Word.toBytes o.amount

/-- Read an amount with the index of its output. A size can be too large for an index. -/
def decoder : Decoder AssetOutput := do
  let index ← Decoder.compactSize
  if 0xffffffff < index then throw (.indexOverflow index)
  let amount ← Decoder.word Int64
  return ⟨UInt32.ofNat index, amount⟩

end AssetOutput

namespace AssetGroup

/-- The asset's number, and the counted outputs. -/
def encode (g : AssetGroup) : Bytes :=
  Word.toBytes g.asset ++ Wire.counted AssetOutput.encode g.outputs

/-- Read the outputs of one asset. -/
def decoder : Decoder AssetGroup := do
  let asset ← Decoder.word UInt32
  let outputs ← Decoder.counted AssetOutput.decoder
  return ⟨asset, outputs⟩

end AssetGroup

namespace Allocation

/-- The counted groups. -/
def encode (a : Allocation) : Bytes := Wire.counted AssetGroup.encode a

/-- Read the groups of a transaction. -/
def decoder : Decoder Allocation := Decoder.counted AssetGroup.decoder

end Allocation

end UtxoAssets
