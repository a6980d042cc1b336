import UtxoAssets.Json.Form

/-!
# The asset section of a document

What a transaction does with assets is shown as one of three documents: a mint, an activation or
update of an asset, or an allocation.

* `Section` is any of the three.  Its JSON form bears no tag: reading takes the first of mint, asset
  and allocation that the value fits.
-/

set_option autoImplicit false

namespace UtxoAssets.Document

open Json (always whenSome required? optional?)

/-- An amount of an asset and the output that it goes to. -/
structure AllocationOutput where
  index : UInt32
  amount : Int64
  deriving DecidableEq

/-- The outputs of one asset and the sum of their amounts. -/
structure AssetAllocation where
  asset : UInt32
  outputs : List AllocationOutput
  total : Int64
  deriving DecidableEq

/-- The members that every section begins with. -/
structure Heading where
  txtype : String
  txid : Hash256
  blockhash : Hash256
  deriving DecidableEq

/-- The section of a transaction that moves amounts of assets. The account on the other chain is
there for a burn only. -/
structure AllocationSection where
  heading : Heading
  allocations : List AssetAllocation
  ethereumDestination : Option String
  deriving DecidableEq

/-- A bridge proof; its byte strings are in hex. -/
structure SpvProof where
  transferId : UInt32
  txValue : String
  txParentNodes : String
  txPath : String
  receiptValue : String
  receiptParentNodes : String
  blockNumber : UInt32
  deriving DecidableEq

/-- The section of a mint. -/
structure MintSection where
  heading : Heading
  spvProof : SpvProof
  allocations : List AssetAllocation
  deriving DecidableEq

/-- The notary of an asset. -/
structure NotaryDetails where
  endpoint : String
  instantTransfers : Bool
  hdRequired : Bool
  deriving DecidableEq

/-- Fee tiers as pairs of bound and percentage, both decimal texts. -/
structure FeeDetails where
  tiers : List (String × String)
  deriving DecidableEq

/-- The section of a transaction that makes or changes an asset. What its payload does not have is
left out. -/
structure AssetSection where
  heading : Heading
  allocations : List AssetAllocation
  symbol : Option String
  maxSupply : Option Int64
  precision : Option UInt8
  publicValue : Option String
  contract : Option String
  notaryAddress : Option String
  feeAddress : Option String
  feeDetails : Option FeeDetails
  notaryDetails : Option NotaryDetails
  capabilityFlags : Option UInt8
  balance : Option Int64
  updateFlags : UInt8
  deriving DecidableEq

/-- The asset section of a transaction, by the kind of its payload. -/
inductive Section where
  | mint (doc : MintSection)
  | asset (doc : AssetSection)
  | allocation (doc : AllocationSection)
  deriving DecidableEq

instance : JsonForm AllocationOutput where
  toJson d := .object (always "n" d.index ++ always "amount" d.amount)
  ofJson? v := do
    let index ← required? UInt32 "n" v
    let amount ← required? Int64 "amount" v
    return ⟨index, amount⟩

instance : JsonForm AssetAllocation where
  toJson d := .object (
    always "asset_guid" d.asset ++ always "outputs" d.outputs ++ always "total" d.total)
  ofJson? v := do
    let asset ← required? UInt32 "asset_guid" v
    let outputs ← required? (List AllocationOutput) "outputs" v
    let total ← required? Int64 "total" v
    return ⟨asset, outputs, total⟩

namespace Heading

/-- The members that all sections begin with. -/
def members (h : Heading) : List (String × Json) :=
  always "txtype" h.txtype ++ always "txid" h.txid ++ always "blockhash" h.blockhash

/-- Read the heading of a section. -/
def ofJson? (v : Json) : Option Heading := do
  let txtype ← required? String "txtype" v
  let txid ← required? Hash256 "txid" v
  let blockhash ← required? Hash256 "blockhash" v
  return ⟨txtype, txid, blockhash⟩

end Heading

instance : JsonForm AllocationSection where
  toJson d := .object (
    d.heading.members ++ always "allocations" d.allocations
      ++ whenSome "ethereum_destination" d.ethereumDestination)
  ofJson? v := do
    let heading ← Heading.ofJson? v
    let allocations ← required? (List AssetAllocation) "allocations" v
    let ethereumDestination ← optional? String "ethereum_destination" v
    return ⟨heading, allocations, ethereumDestination⟩

instance : JsonForm SpvProof where
  toJson d := .object (
    always "bridgetransferid" d.transferId ++ always "txvalue" d.txValue
      ++ always "txparentnodes" d.txParentNodes ++ always "txpath" d.txPath
      ++ always "receiptvalue" d.receiptValue ++ always "receiptparentnodes" d.receiptParentNodes
      ++ always "ethblocknumber" d.blockNumber)
  ofJson? v := do
    let transferId ← required? UInt32 "bridgetransferid" v
    let txValue ← required? String "txvalue" v
    let txParentNodes ← required? String "txparentnodes" v
    let txPath ← required? String "txpath" v
    let receiptValue ← required? String "receiptvalue" v
    let receiptParentNodes ← required? String "receiptparentnodes" v
    let blockNumber ← required? UInt32 "ethblocknumber" v
    return ⟨transferId, txValue, txParentNodes, txPath, receiptValue, receiptParentNodes,
      blockNumber⟩

instance : JsonForm MintSection where
  toJson d := .object (
    d.heading.members ++ always "spv_proof" d.spvProof ++ always "allocations" d.allocations)
  ofJson? v := do
    let heading ← Heading.ofJson? v
    let spvProof ← required? SpvProof "spv_proof" v
    let allocations ← required? (List AssetAllocation) "allocations" v
    return ⟨heading, spvProof, allocations⟩

instance : JsonForm NotaryDetails where
  toJson d := .object (
    always "endpoint" d.endpoint ++ always "instant_transfers" d.instantTransfers
      ++ always "hd_required" d.hdRequired)
  ofJson? v := do
    let endpoint ← required? String "endpoint" v
    let instantTransfers ← required? Bool "instant_transfers" v
    let hdRequired ← required? Bool "hd_required" v
    return ⟨endpoint, instantTransfers, hdRequired⟩

instance : JsonForm FeeDetails where
  toJson d := .object (always "fee_struct" d.tiers)
  ofJson? v := do
    let tiers ← required? (List (String × String)) "fee_struct" v
    return ⟨tiers⟩

instance : JsonForm AssetSection where
  toJson d := .object (
    d.heading.members ++ always "allocations" d.allocations
      ++ whenSome "symbol" d.symbol ++ whenSome "max_supply" d.maxSupply
      ++ whenSome "precision" d.precision ++ whenSome "public_value" d.publicValue
      ++ whenSome "contract" d.contract ++ whenSome "notary_address" d.notaryAddress
      ++ whenSome "auxfee_address" d.feeAddress ++ whenSome "auxfee_details" d.feeDetails
      ++ whenSome "notary_details" d.notaryDetails
      ++ whenSome "updatecapability_flags" d.capabilityFlags ++ whenSome "balance" d.balance
      ++ always "update_flags" d.updateFlags)
  ofJson? v := do
    let heading ← Heading.ofJson? v
    let allocations ← required? (List AssetAllocation) "allocations" v
    let symbol ← optional? String "symbol" v
    let maxSupply ← optional? Int64 "max_supply" v
    let precision ← optional? UInt8 "precision" v
    let publicValue ← optional? String "public_value" v
    let contract ← optional? String "contract" v
    let notaryAddress ← optional? String "notary_address" v
    let feeAddress ← optional? String "auxfee_address" v
    let feeDetails ← optional? FeeDetails "auxfee_details" v
    let notaryDetails ← optional? NotaryDetails "notary_details" v
    let capabilityFlags ← optional? UInt8 "updatecapability_flags" v
    let balance ← optional? Int64 "balance" v
    let updateFlags ← required? UInt8 "update_flags" v
    return { heading, allocations, symbol, maxSupply, precision, publicValue, contract,
             notaryAddress, feeAddress, feeDetails, notaryDetails, capabilityFlags, balance,
             updateFlags }

instance : JsonForm Section where
  toJson
    | .mint doc => JsonForm.toJson doc
    | .asset doc => JsonForm.toJson doc
    | .allocation doc => JsonForm.toJson doc
  ofJson? v :=
    match (JsonForm.ofJson? v : Option MintSection) with
    | some doc => some (.mint doc)
    | none =>
    match (JsonForm.ofJson? v : Option AssetSection) with
    | some doc => some (.asset doc)
    | none => (JsonForm.ofJson? v : Option AllocationSection).map .allocation

end UtxoAssets.Document
