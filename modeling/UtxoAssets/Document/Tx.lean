import UtxoAssets.Document.Script
import UtxoAssets.Document.Section

/-!
# The document of a transaction

* `Document.Tx` holds the members every transaction has, the payload members of masternode
  records, the asset section, the block and the wire form; all but the first are optional.
* `Document.Config` says which optional parts a document should have.
-/

set_option autoImplicit false

namespace UtxoAssets.Document

open Json (always whenSome required? optional? withDefault?)

/-- What an input spends: the block reward or an earlier output. -/
inductive InputSource where
  | coinbase (script : String)
  | outPoint (txid : Hash256) (index : UInt32) (scriptSig : ScriptSig)
  deriving DecidableEq

/-- An input; the witness is absent when its stack is empty. -/
structure Input where
  source : InputSource
  witness : Option (List String)
  sequence : UInt32
  deriving DecidableEq

/-- An output with its index. -/
structure Output where
  value : Amount
  index : UInt32
  scriptPubKey : ScriptPubKey
  deriving DecidableEq

/-- The members of masternode records. -/
structure MasternodeMembers where
  proRegTx : Option Json := none
  proUpServTx : Option Json := none
  proUpRegTx : Option Json := none
  proUpRevTx : Option Json := none
  cbTx : Option Json := none
  qcTx : Option Json := none

/-- A transaction. Its payload is shown under the members of a masternode record or in an asset
section. -/
structure Tx where
  txid : Hash256
  witnessHash : Hash256
  version : UInt32
  size : UInt64
  virtualSize : UInt64
  weight : UInt64
  lockTime : UInt32
  inputs : List Input
  outputs : List Output
  masternode : MasternodeMembers
  assets : Option Section
  blockHash : Option Hash256
  wireHex : Option String

/-- Whether the wire form is shown, and whether it is the one with witnesses. -/
structure Config where
  includeHex : Bool := false
  hexIncludeWitness : Bool := true
  deriving DecidableEq

namespace InputSource

/-- The members of either source; nothing says which one it is. -/
def members : InputSource → List (String × Json)
  | .coinbase script => always "coinbase" script
  | .outPoint txid index scriptSig =>
    always "txid" txid ++ always "vout" index ++ always "scriptSig" scriptSig

/-- A member named for the block reward wins over an outpoint. -/
def ofJson? (v : Json) : Option InputSource :=
  match required? String "coinbase" v with
  | some script => some (.coinbase script)
  | none => do
    let txid ← required? Hash256 "txid" v
    let index ← required? UInt32 "vout" v
    let scriptSig ← required? ScriptSig "scriptSig" v
    return .outPoint txid index scriptSig

end InputSource

instance : JsonForm Input where
  toJson d := .object (
    d.source.members ++ whenSome "txinwitness" d.witness ++ always "sequence" d.sequence)
  ofJson? v := do
    let source ← InputSource.ofJson? v
    let witness ← optional? (List String) "txinwitness" v
    let sequence ← required? UInt32 "sequence" v
    return ⟨source, witness, sequence⟩

instance : JsonForm Output where
  toJson d := .object (
    always "value" d.value ++ always "n" d.index ++ always "scriptPubKey" d.scriptPubKey)
  ofJson? v := do
    let value ← required? Amount "value" v
    let index ← required? UInt32 "n" v
    let scriptPubKey ← required? ScriptPubKey "scriptPubKey" v
    return ⟨value, index, scriptPubKey⟩

namespace MasternodeMembers

/-- The members of the records that are there, in one order. -/
def members (m : MasternodeMembers) : List (String × Json) :=
  whenSome "proRegTx" m.proRegTx ++ whenSome "proUpServTx" m.proUpServTx
    ++ whenSome "proUpRegTx" m.proUpRegTx ++ whenSome "proUpRevTx" m.proUpRevTx
    ++ whenSome "cbTx" m.cbTx ++ whenSome "qcTx" m.qcTx

/-- Read the masternode members. A null member counts as absent. -/
def ofJson? (v : Json) : Option MasternodeMembers := do
  let proRegTx ← optional? Json "proRegTx" v
  let proUpServTx ← optional? Json "proUpServTx" v
  let proUpRegTx ← optional? Json "proUpRegTx" v
  let proUpRevTx ← optional? Json "proUpRevTx" v
  let cbTx ← optional? Json "cbTx" v
  let qcTx ← optional? Json "qcTx" v
  return ⟨proRegTx, proUpServTx, proUpRegTx, proUpRevTx, cbTx, qcTx⟩

end MasternodeMembers

instance : JsonForm Tx where
  toJson d := .object (
    always "txid" d.txid ++ always "hash" d.witnessHash ++ always "version" d.version
      ++ always "size" d.size ++ always "vsize" d.virtualSize ++ always "weight" d.weight
      ++ always "locktime" d.lockTime ++ always "vin" d.inputs ++ always "vout" d.outputs
      ++ d.masternode.members ++ whenSome "systx" d.assets ++ whenSome "blockhash" d.blockHash
      ++ whenSome "hex" d.wireHex)
  ofJson? v := do
    let txid ← required? Hash256 "txid" v
    let witnessHash ← required? Hash256 "hash" v
    let version ← required? UInt32 "version" v
    let size ← required? UInt64 "size" v
    let virtualSize ← required? UInt64 "vsize" v
    let weight ← required? UInt64 "weight" v
    let lockTime ← required? UInt32 "locktime" v
    let inputs ← required? (List Input) "vin" v
    let outputs ← required? (List Output) "vout" v
    let masternode ← MasternodeMembers.ofJson? v
    let assets ← optional? Section "systx" v
    let blockHash ← optional? Hash256 "blockhash" v
    let wireHex ← optional? String "hex" v
    return { txid, witnessHash, version, size, virtualSize, weight, lockTime, inputs, outputs,
             masternode, assets, blockHash, wireHex }

instance : JsonForm Config where
  toJson d := .object (
    always "includeHex" d.includeHex ++ always "hexIncludeWitness" d.hexIncludeWitness)
  ofJson?
    | .object members => do
      let defaults : Config := {}
      let includeHex ← withDefault? "includeHex" defaults.includeHex (.object members)
      let hexIncludeWitness ←
        withDefault? "hexIncludeWitness" defaults.hexIncludeWitness (.object members)
      return ⟨includeHex, hexIncludeWitness⟩
    | _ => none

end UtxoAssets.Document
