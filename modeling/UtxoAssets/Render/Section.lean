import UtxoAssets.Asset.Burn
import UtxoAssets.Asset.Definition
import UtxoAssets.Asset.Mint
import UtxoAssets.Document.Section
import UtxoAssets.Script.Destination
import UtxoAssets.Tx.Encoding

/-!
# Rendering the asset section

The payload of an asset operation stands in the transaction's data output; the amounts come from the
transaction's own allocation.

* `assetPayload` finds the payload.
* `MintSection.ofPayload`, `AssetSection.ofPayload` and `AllocationSection.ofTx` render one kind of
  section each.
* `Section.ofTx?` chooses among them by the kind of the transaction.  A payload that cannot be read
  leaves the section out; a total that overflows does not.
-/

set_option autoImplicit false

namespace UtxoAssets

/-- The causes for which a section cannot be rendered. -/
inductive RenderError where
  | payload (cause : PayloadError)
  | amount (cause : AmountError)
  | total (cause : TotalError)
  deriving DecidableEq

/-- The words for an error, where `whyNot` are those for bytes that are not base64. -/
def RenderError.message (e : RenderError)
    (whyNot : Bytes → String := PayloadError.undecodable) : String :=
  match e with
  | .payload cause => "Payload decoding error: " ++ cause.message whyNot
  | .amount cause => "Amount formatting error: " ++ cause.message
  | .total cause => cause.message

/-- Read a payload for rendering. -/
def Decoder.decodeForRender {α : Type} (d : Decoder α) (payload : Bytes) : Except RenderError α :=
  (d.decode payload).mapError .payload

/-- The data of the first output that carries data. -/
def assetPayload (tx : Transaction) : Except PayloadError Bytes :=
  match tx.outputs.find? fun output => output.script.head? == some Opcode.ret with
  | some output =>
    match dataCarrier? output.script with
    | some data => .ok data
    | none => .error .noDataCarrier
  | none => .error .noDataCarrier

namespace Document

open UtxoAssets (hex)

/-- Bytes as the other chain writes them. -/
def prefixedHex (bs : Bytes) : String := "0x" ++ hex bs

/-- The amounts of one asset, and their sum. -/
def AssetAllocation.ofGroup (g : AssetGroup) : Except TotalError AssetAllocation := do
  let total ← g.total
  return ⟨g.asset, g.outputs.map fun o => ⟨o.index, o.amount⟩, total⟩

/-- The amounts of a transaction, asset by asset. -/
def allocationsOf (tx : Transaction) : Except RenderError (List AssetAllocation) :=
  (tx.allocation.mapM AssetAllocation.ofGroup).mapError .total

/-- The heading of a section, which every asset transaction has. -/
def Heading.ofTx (tx : Transaction) (blockHash : Hash256) : Heading :=
  ⟨tx.kind.label, tx.id, blockHash⟩

/-- The amounts that a transaction moves. Its payload is not looked at. -/
def AllocationSection.ofTx (tx : Transaction) (blockHash : Hash256) :
    Except RenderError AllocationSection := do
  let allocations ← allocationsOf tx
  return ⟨Heading.ofTx tx blockHash, allocations, none⟩

/-- The proof in a mint, with its two values found in the nodes. -/
def SpvProof.ofMint (m : Mint) : Except PayloadError SpvProof := do
  let txValue ← m.tx.resolved
  let receiptValue ← m.receipt.resolved
  return {
    transferId := m.transferId
    txValue := hex txValue
    txParentNodes := hex m.tx.parentNodes
    txPath := hex m.txPath
    receiptValue := hex receiptValue
    receiptParentNodes := hex m.receipt.parentNodes
    blockNumber := m.blockNumber }

/-- The section of a mint. The payload is read before any sum is taken. -/
def MintSection.ofPayload (tx : Transaction) (payload : Bytes) (blockHash : Hash256) :
    Except RenderError MintSection := do
  let mint ← Mint.decoder.decodeForRender payload
  let spvProof ← (SpvProof.ofMint mint).mapError .payload
  let allocations ← allocationsOf tx
  return ⟨Heading.ofTx tx blockHash, spvProof, allocations⟩

/-- A fee tier with its bound at the precision of the asset. -/
def tierTexts (precision : UInt8) (tier : FeeTier) : Except AmountError (String × String) := do
  let bound ← assetAmountText tier.bound precision
  return (bound, percentText tier.percent)

/-- The tiers of a fee, in order. -/
def FeeDetails.ofTiers (precision : UInt8) (tiers : List FeeTier) :
    Except AmountError FeeDetails := do
  let texts ← tiers.mapM (tierTexts precision)
  return ⟨texts⟩

/-- The tiers of the fee that an asset has, if it has one. -/
def FeeDetails.ofDefinition (d : AssetDefinition) : Except AmountError (Option FeeDetails) :=
  match d.feeTiers with
  | some tiers => some <$> FeeDetails.ofTiers d.precision tiers
  | none => .ok none

/-- The details of a notary, as they stand in the payload. -/
def NotaryDetails.ofNotary (n : Notary) : NotaryDetails :=
  ⟨n.endpoint, n.instantTransfers, n.hdRequired⟩

/-- The address of a key that signs for an asset. -/
def keyAddress (encoder : AddressEncoder) (key : KeyId) : String := encoder (.witnessKeyHash key)

/-- The section of an asset definition. Activation fields are shown for an activation only, and so
is the precision, which every payload has. -/
def AssetSection.ofPayload (encoder : AddressEncoder) (tx : Transaction) (payload : Bytes)
    (blockHash : Hash256) : Except RenderError AssetSection := do
  let isActivation := tx.kind = .asset .activate
  let definition ← (AssetDefinition.decoder isActivation).decodeForRender payload
  let allocations ← allocationsOf tx
  let feeDetails ← (FeeDetails.ofDefinition definition).mapError .amount
  return {
    heading := Heading.ofTx tx blockHash
    allocations
    symbol := definition.activation.map Activation.symbol
    maxSupply := definition.activation.map Activation.maxSupply
    precision := definition.activation.map fun _ => definition.precision
    publicValue := definition.publicValue
    contract := definition.contract.map prefixedHex
    notaryAddress := definition.notaryKey.map (keyAddress encoder)
    feeAddress := definition.feeKey.map (keyAddress encoder)
    feeDetails
    notaryDetails := definition.notary.map NotaryDetails.ofNotary
    capabilityFlags := definition.capabilityFlags
    balance := definition.balance
    updateFlags := definition.mask }

/-- The account that a burn pays to. -/
def burnDestination (tx : Transaction) : Except RenderError String := do
  let payload ← (assetPayload tx).mapError .payload
  let burn ← Burn.decoder.decodeForRender payload
  return prefixedHex burn.account.toBytes

/-- The section of a payload shown along the given route. -/
def Section.ofRoute (encoder : AddressEncoder) (tx : Transaction) (blockHash : Hash256) :
    Route → Except RenderError (Option Section)
  | .mint => do
    let payload ← (assetPayload tx).mapError .payload
    let doc ← MintSection.ofPayload tx payload blockHash
    return some (.mint doc)
  | .definition => do
    let payload ← (assetPayload tx).mapError .payload
    let doc ← AssetSection.ofPayload encoder tx payload blockHash
    return some (.asset doc)
  | .allocation => do
    let doc ← AllocationSection.ofTx tx blockHash
    return some (.allocation doc)
  | .burn => do
    let doc ← AllocationSection.ofTx tx blockHash
    let destination ← burnDestination tx
    return some (.allocation { doc with ethereumDestination := some destination })
  | .nowhere | .masternode _ => .ok none

/-- The asset section of a transaction. A block that is not known has the zero hash. -/
def Section.ofTx? (encoder : AddressEncoder) (tx : Transaction) (blockHash : Option Hash256) :
    Except TotalError (Option Section) :=
  match Section.ofRoute encoder tx (blockHash.getD Hash256.zero) tx.kind.route with
  | .ok shown => .ok shown
  | .error (.total cause) => .error cause
  | .error _ => .ok none

end Document

end UtxoAssets
