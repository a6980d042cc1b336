import UtxoAssets.Bytes.Word

/-!
# Transaction kinds

The version of a transaction says what its payload is.

* `TxKind.ofVersion` reads a version: a plain transfer, a masternode record or an asset operation.
* `TxKind.route` names the part of the document that the payload is shown in.
-/

set_option autoImplicit false

namespace UtxoAssets

/-- The records of the masternode system. -/
inductive MasternodeRecord where
  | registration
  | serviceUpdate
  | registrarUpdate
  | revocation
  | coinbase
  | quorumCommitment
  deriving DecidableEq

/-- The operations on assets. -/
inductive AssetOperation where
  | burnToCoins
  | burnFromCoins
  | activate
  | update
  | send
  | mint
  | burnToEthereum
  | sendAllocation
  deriving DecidableEq

/-- What a transaction is for. -/
inductive TxKind where
  | transfer
  | masternode (record : MasternodeRecord)
  | asset (operation : AssetOperation)
  deriving DecidableEq

/-- Where a payload is shown in the document of its transaction. -/
inductive Route where
  | nowhere
  | masternode (record : MasternodeRecord)
  | mint
  | definition
  | allocation
  | burn
  deriving DecidableEq

namespace MasternodeRecord

/-- The document key of the record. -/
def key : MasternodeRecord → String
  | .registration => "proRegTx"
  | .serviceUpdate => "proUpServTx"
  | .registrarUpdate => "proUpRegTx"
  | .revocation => "proUpRevTx"
  | .coinbase => "cbTx"
  | .quorumCommitment => "qcTx"

end MasternodeRecord

namespace AssetOperation

/-- The name that documents give the operation. -/
def label : AssetOperation → String
  | .burnToCoins => "assetallocationburntosyscoin"
  | .burnFromCoins => "syscoinburntoassetallocation"
  | .activate => "assetactivate"
  | .update => "assetupdate"
  | .send => "assetsend"
  | .mint => "assetallocationmint"
  | .burnToEthereum => "assetallocationburntoethereum"
  | .sendAllocation => "assetallocationsend"

/-- The section in which an operation is shown. -/
def route : AssetOperation → Route
  | .mint => .mint
  | .activate | .update => .definition
  | .burnToEthereum => .burn
  | .burnToCoins | .burnFromCoins | .send | .sendAllocation => .allocation

end AssetOperation

namespace TxKind

/-- The kind of a version. Versions that are not listed are those of plain transfers. -/
def ofVersion (version : Int32) : TxKind :=
  match version.toInt with
  | 80 => .masternode .registration
  | 81 => .masternode .serviceUpdate
  | 82 => .masternode .registrarUpdate
  | 83 => .masternode .revocation
  | 84 => .masternode .coinbase
  | 85 => .masternode .quorumCommitment
  | 128 => .asset .burnToCoins
  | 129 => .asset .burnFromCoins
  | 130 => .asset .activate
  | 131 => .asset .update
  | 132 => .asset .send
  | 133 => .asset .mint
  | 134 => .asset .burnToEthereum
  | 135 => .asset .sendAllocation
  | _ => .transfer

/-- Operations on an asset as a whole. -/
def isAsset : TxKind → Bool
  | .asset .activate | .asset .update | .asset .send => true
  | _ => false

/-- Operations on allocations of an asset, mints aside. -/
def isAllocation : TxKind → Bool
  | .asset .burnToCoins | .asset .burnFromCoins | .asset .burnToEthereum
  | .asset .sendAllocation => true
  | _ => false

/-- Whether units come from the other chain. -/
def isMint : TxKind → Bool
  | .asset .mint => true
  | _ => false

/-- Whether the payload is a masternode record. -/
def isMasternode : TxKind → Bool
  | .masternode _ => true
  | _ => false

/-- The name of an operation in documents; other transactions are given none of them. -/
def label : TxKind → String
  | .asset operation => operation.label
  | _ => "<unknown assetallocation op>"

/-- Where the payload of a transaction is shown. -/
def route : TxKind → Route
  | .transfer => .nowhere
  | .masternode record => .masternode record
  | .asset operation => operation.route

/-- The name of a kind. -/
def name : TxKind → String
  | .transfer => "Standard"
  | .masternode .registration => "MnRegister"
  | .masternode .serviceUpdate => "MnUpdateService"
  | .masternode .registrarUpdate => "MnUpdateRegistrar"
  | .masternode .revocation => "MnUpdateRevoke"
  | .masternode .coinbase => "MnCoinbase"
  | .masternode .quorumCommitment => "MnQuorumCommitment"
  | .asset .burnToCoins => "AllocationBurnToSyscoin"
  | .asset .burnFromCoins => "SyscoinBurnToAllocation"
  | .asset .activate => "AssetActivate"
  | .asset .update => "AssetUpdate"
  | .asset .send => "AssetSend"
  | .asset .mint => "AllocationMint"
  | .asset .burnToEthereum => "AllocationBurnToEthereum"
  | .asset .sendAllocation => "AllocationSend"

end TxKind

namespace Route

/-- Whether the payload is shown in the asset section. -/
def isAssetSection : Route → Bool
  | .mint | .definition | .allocation | .burn => true
  | _ => false

/-- The name of a route. -/
def name : Route → String
  | .nowhere => "None"
  | .masternode .registration => "ProRegTx"
  | .masternode .serviceUpdate => "ProUpServTx"
  | .masternode .registrarUpdate => "ProUpRegTx"
  | .masternode .revocation => "ProUpRevTx"
  | .masternode .coinbase => "CbTx"
  | .masternode .quorumCommitment => "QcTx"
  | .mint => "Mint"
  | .definition => "Asset"
  | .allocation => "Allocation"
  | .burn => "BurnToEthereum"

end Route

end UtxoAssets
