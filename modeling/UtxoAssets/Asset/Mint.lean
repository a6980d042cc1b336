import UtxoAssets.Asset.Allocation

/-!
# Bridge mints

A mint creates bridged units, proved by a transaction of the other chain and its receipt.

* `ProofSlice.resolved` gives the value that a proof is about: two bytes are an offset into the
  parent nodes, and the value is what follows there; a value of any other length stands for itself.
* `Mint.decoder` accepts a mint only if both of its proofs resolve.
-/

set_option autoImplicit false

namespace UtxoAssets

/-- A value proved on the other chain, and the nodes that lead to it. -/
structure ProofSlice where
  value : Bytes
  parentNodes : Bytes
  deriving DecidableEq

/-- The value itself. One of two bytes is the offset at which the value stands in the nodes, high
byte first. -/
def ProofSlice.resolved (p : ProofSlice) : Except PayloadError Bytes :=
  match p.value with
  | [high, low] =>
    let offset := high.toNat * 256 + low.toNat
    if offset ≤ p.parentNodes.length then .ok (p.parentNodes.drop offset)
    else .error (.proofOffset offset p.parentNodes.length)
  | value => .ok value

/-- A payload that credits units burned on the other chain. -/
structure Mint where
  allocation : Allocation
  transferId : UInt32
  blockNumber : UInt32
  tx : ProofSlice
  txPath : Bytes
  receipt : ProofSlice
  deriving DecidableEq

namespace Mint

/-- The fields in order, each byte string with its length. -/
def encode (m : Mint) : Bytes :=
  Allocation.encode m.allocation ++ Word.toBytes m.transferId ++ Word.toBytes m.blockNumber
    ++ Wire.varBytes m.tx.value ++ Wire.varBytes m.tx.parentNodes ++ Wire.varBytes m.txPath
    ++ Wire.varBytes m.receipt.value ++ Wire.varBytes m.receipt.parentNodes

/-- Read a mint. Both of its values have to be found. -/
def decoder : Decoder Mint := do
  let allocation ← Allocation.decoder
  let transferId ← Decoder.word UInt32
  let blockNumber ← Decoder.word UInt32
  let txValue ← Decoder.varBytes
  let txNodes ← Decoder.varBytes
  let txPath ← Decoder.varBytes
  let receiptValue ← Decoder.varBytes
  let receiptNodes ← Decoder.varBytes
  let mint : Mint :=
    ⟨allocation, transferId, blockNumber, ⟨txValue, txNodes⟩, txPath, ⟨receiptValue, receiptNodes⟩⟩
  Decoder.check mint.tx.resolved
  Decoder.check mint.receipt.resolved
  return mint

end Mint

end UtxoAssets
