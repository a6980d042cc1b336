import UtxoAssets.Tx.Basic
import UtxoAssets.Wire.CompactSize

/-!
# The wire form of a transaction

* `Transaction.encode` writes the full form, with the witnesses if there are any, or the stripped
  form without them.
* `Transaction.id` and `Transaction.witnessHash` are the digests of the stripped and the full form;
  sizes and weights are counted on the same two forms.
-/

set_option autoImplicit false

namespace UtxoAssets

/-- With the witnesses, or without them. -/
inductive WireForm where
  | full
  | stripped
  deriving DecidableEq

/-- The transaction spent from, and the output's index. -/
def OutPoint.encode (o : OutPoint) : Bytes := o.txid.toBytes ++ Word.toBytes o.index

/-- An input without its witness. -/
def TxInput.encode (i : TxInput) : Bytes :=
  i.outPoint.encode ++ Wire.varBytes i.script ++ Word.toBytes i.sequence

/-- The witness stack, which stands apart from its input. -/
def TxInput.encodeWitness (i : TxInput) : Bytes := Wire.counted Wire.varBytes i.witness

/-- The amount, and the script behind its length. -/
def TxOutput.encode (o : TxOutput) : Bytes := Word.toBytes o.value ++ Wire.varBytes o.script

namespace Transaction

/-- Announces witnesses; as a count of inputs it would say that there are none. -/
def witnessMarker : Bytes := [0x00, 0x01]

/-- The witnesses of all inputs; an input without any has an empty one. -/
def encodeWitnesses (tx : Transaction) : Bytes := tx.inputs.flatMap TxInput.encodeWitness

/-- The extra payload, which only masternode transactions have on the wire. -/
def encodeExtra (tx : Transaction) : Bytes :=
  if tx.kind.isMasternode then Wire.varBytes tx.extraPayload else []

/-- The bytes of a transaction. Marker and witnesses are written if there is a witness and the form
has them. -/
def encode (form : WireForm) (tx : Transaction) : Bytes :=
  let witnessed := form == .full && tx.hasWitness
  Word.toBytes tx.version
    ++ (if witnessed then witnessMarker else [])
    ++ Wire.counted TxInput.encode tx.inputs
    ++ Wire.counted TxOutput.encode tx.outputs
    ++ (if witnessed then tx.encodeWitnesses else [])
    ++ Word.toBytes tx.lockTime
    ++ tx.encodeExtra

/-- The id leaves the witnesses out. -/
def id (tx : Transaction) : Hash256 := doubleSha256 (tx.encode .stripped)

/-- The hash over all of the transaction. -/
def witnessHash (tx : Transaction) : Hash256 := doubleSha256 (tx.encode .full)

/-- The size in bytes with the witnesses. -/
def size (tx : Transaction) : Nat := (tx.encode .full).length

/-- The size in bytes without the witnesses. -/
def strippedSize (tx : Transaction) : Nat := (tx.encode .stripped).length

/-- A stripped byte weighs four, a witness byte one. -/
def weight (tx : Transaction) : Nat := 3 * tx.strippedSize + tx.size

/-- A quarter of the weight, rounded up. -/
def virtualSize (tx : Transaction) : Nat := (tx.weight + 3) / 4

end Transaction

end UtxoAssets
