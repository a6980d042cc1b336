import UtxoAssets.Asset.Allocation
import UtxoAssets.Digest.Hash256
import UtxoAssets.Script.Instruction
import UtxoAssets.Tx.Kind

/-!
# Transactions

Inputs spend outputs of earlier transactions or, in a coinbase, the block reward.  The allocation
and the extra payload travel with a transaction; of the two, only the extra payload of a masternode
record is part of its wire form.
-/

set_option autoImplicit false

namespace UtxoAssets

/-- The output of the given index of a transaction. -/
structure OutPoint where
  txid : Hash256
  index : UInt32
  deriving DecidableEq

namespace OutPoint

/-- Refers to no output; a coinbase spends it. -/
def null : OutPoint := ⟨Hash256.zero, 0xffffffff⟩

/-- Whether an outpoint is the null one, which is that of no output. -/
def isNull (o : OutPoint) : Bool := o.txid.isZero && o.index == 0xffffffff

end OutPoint

/-- What an input spends, and how it may. -/
structure TxInput where
  outPoint : OutPoint
  script : Script
  sequence : UInt32
  witness : List Bytes
  deriving DecidableEq

/-- Whether an input has witness items. -/
def TxInput.hasWitness (i : TxInput) : Bool := !i.witness.isEmpty

/-- An amount of the native coin, and who may spend it. -/
structure TxOutput where
  value : Int64
  script : Script
  deriving DecidableEq

/-- A transaction. The allocation and the extra payload are kept apart from its outputs. -/
structure Transaction where
  version : Int32
  inputs : List TxInput
  outputs : List TxOutput
  lockTime : UInt32
  allocation : Allocation := []
  extraPayload : Bytes := []
  deriving DecidableEq

namespace Transaction

/-- What a transaction is for, by its version alone. -/
def kind (tx : Transaction) : TxKind := TxKind.ofVersion tx.version

/-- The only input spends the null outpoint. -/
def isCoinbase (tx : Transaction) : Bool :=
  match tx.inputs with
  | [input] => input.outPoint.isNull
  | _ => false

/-- Whether any input has witness items. -/
def hasWitness (tx : Transaction) : Bool := tx.inputs.any TxInput.hasWitness

end Transaction

end UtxoAssets
