import UtxoAssets.Document.Tx
import UtxoAssets.Render.Script
import UtxoAssets.Render.Section

/-!
# Rendering transactions

* `MasternodeCalls` are the decoders of masternode records as a rendering calls them: a call may
  have an effect of its own.
* `Document.Tx.ofTransaction` builds the document of a transaction, with whatever effects those
  calls have.
* `Renderer` gathers what a rendering depends on besides the transaction: the text of addresses, the
  decoders of masternode records, and the options.  `Renderer.render` runs the program with decoders
  that log their calls.
-/

set_option autoImplicit false

namespace UtxoAssets

/-- A quorum commitment holds a coinbase record of its own. -/
structure QuorumCommitment where
  cbTx : Json
  qcTx : Json

/-! ## Decoders of masternode records -/

/-- The decoders as they are called. A call says by `none` that the decoder has nothing to show. -/
structure MasternodeCalls (m : Type → Type) where
  registration : Transaction → m (Option Json)
  serviceUpdate : Transaction → m (Option Json)
  registrarUpdate : Transaction → m (Option Json)
  revocation : Transaction → m (Option Json)
  coinbase : Transaction → m (Option Json)
  quorumCommitment : Transaction → m (Option QuorumCommitment)

namespace MasternodeCalls

variable {m : Type → Type} [Monad m]

/-- Call the decoder of a record. Its answer is the member of that record, and with a quorum
commitment the member of its coinbase record too. -/
def call (calls : MasternodeCalls m) (tx : Transaction) :
    MasternodeRecord → m Document.MasternodeMembers
  | .registration => do
    let proRegTx ← calls.registration tx
    return { proRegTx }
  | .serviceUpdate => do
    let proUpServTx ← calls.serviceUpdate tx
    return { proUpServTx }
  | .registrarUpdate => do
    let proUpRegTx ← calls.registrarUpdate tx
    return { proUpRegTx }
  | .revocation => do
    let proUpRevTx ← calls.revocation tx
    return { proUpRevTx }
  | .coinbase => do
    let cbTx ← calls.coinbase tx
    return { cbTx }
  | .quorumCommitment => do
    match ← calls.quorumCommitment tx with
    | some q => return { cbTx := some q.cbTx, qcTx := some q.qcTx }
    | none => return {}

/-- The members of masternode records for a payload shown along the given route. -/
def members (calls : MasternodeCalls m) (tx : Transaction) : Route → m Document.MasternodeMembers
  | .masternode record => calls.call tx record
  | .nowhere | .mint | .definition | .allocation | .burn => return {}

end MasternodeCalls

/-- Decoders of the masternode records, which are formats of their own. A decoder that gives nothing
leaves its member out. -/
structure MasternodeDecoder where
  registration : Transaction → Option Json := fun _ => none
  serviceUpdate : Transaction → Option Json := fun _ => none
  registrarUpdate : Transaction → Option Json := fun _ => none
  revocation : Transaction → Option Json := fun _ => none
  coinbase : Transaction → Option Json := fun _ => none
  quorumCommitment : Transaction → Option QuorumCommitment := fun _ => none

/-- Computations that log which decoders were called, the first one first. -/
abbrev CallLog := StateM (List MasternodeRecord)

/-- A decoder that logs each of its calls. -/
def logCall {α : Type} (record : MasternodeRecord) (decode : Transaction → Option α)
    (tx : Transaction) : CallLog (Option α) := do
  modify fun log => log ++ [record]
  return decode tx

/-- The same decoders, each logging its calls. -/
def MasternodeDecoder.logged (d : MasternodeDecoder) : MasternodeCalls CallLog where
  registration := logCall .registration d.registration
  serviceUpdate := logCall .serviceUpdate d.serviceUpdate
  registrarUpdate := logCall .registrarUpdate d.registrarUpdate
  revocation := logCall .revocation d.revocation
  coinbase := logCall .coinbase d.coinbase
  quorumCommitment := logCall .quorumCommitment d.quorumCommitment

/-! ## Documents -/

namespace Document

/-- An input. That of a coinbase shows its script as data. -/
def Input.ofTxInput (inCoinbase : Bool) (i : TxInput) : Input where
  source :=
    if inCoinbase then .coinbase (hex i.script)
    else .outPoint i.outPoint.txid i.outPoint.index (ScriptSig.ofScript i.script)
  witness := if i.hasWitness then some (i.witness.map hex) else none
  sequence := i.sequence

/-- An output with its place among the outputs of its transaction. -/
def Output.ofTxOutput (encoder : AddressEncoder) (index : Nat) (o : TxOutput) : Output where
  value := ⟨o.value⟩
  index := UInt32.ofNat index
  scriptPubKey := ScriptPubKey.ofScript encoder o.script

/-- The form of the transaction that the document shows in hexadecimal. -/
def Config.wireForm (c : Config) : WireForm := if c.hexIncludeWitness then .full else .stripped

/-- The document with the parts that its payload gives. -/
def Tx.ofParts (encoder : AddressEncoder) (config : Config) (tx : Transaction)
    (blockHash : Option Hash256) (masternode : MasternodeMembers) (assets : Option Section) :
    Tx where
  txid := tx.id
  witnessHash := tx.witnessHash
  version := tx.version.toUInt32
  size := UInt64.ofNat tx.size
  virtualSize := UInt64.ofNat tx.virtualSize
  weight := UInt64.ofNat tx.weight
  lockTime := tx.lockTime
  inputs := tx.inputs.map (Input.ofTxInput tx.isCoinbase)
  outputs := tx.outputs.mapIdx (Output.ofTxOutput encoder)
  masternode
  assets
  blockHash
  wireHex := if config.includeHex then some (hex (tx.encode config.wireForm)) else none

/-- Build the document of a transaction in the given block, calling decoders for its masternode
record. The zero hash is the hash of no block. -/
def Tx.ofTransaction {m : Type → Type} [Monad m] (encoder : AddressEncoder) (config : Config)
    (decoders : MasternodeCalls m) (tx : Transaction) (blockHash : Option Hash256) :
    ExceptT TotalError m Tx := do
  let blockHash := blockHash.filter fun h => !h.isZero
  let masternode ← decoders.members tx tx.kind.route
  let assets ← ofExcept (Section.ofTx? encoder tx blockHash)
  return Tx.ofParts encoder config tx blockHash masternode assets

end Document

/-! ## Renderings -/

/-- What a rendering depends on besides the transaction. -/
structure Renderer where
  encoder : AddressEncoder
  masternode : MasternodeDecoder := {}
  config : Document.Config := {}

/-- A document with the log of the decoders asked for it. -/
structure Rendering where
  document : Document.Tx
  asked : List MasternodeRecord

/-- Render a transaction of the given block, logging the decoders that are asked. -/
def Renderer.render (r : Renderer) (tx : Transaction) (blockHash : Option Hash256) :
    Except TotalError Rendering :=
  let program : ExceptT TotalError CallLog Document.Tx :=
    Document.Tx.ofTransaction r.encoder r.config r.masternode.logged tx blockHash
  let (outcome, asked) := program.run.run []
  outcome.map fun document => ⟨document, asked⟩

end UtxoAssets
