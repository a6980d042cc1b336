import UtxoAssets.Asset.Allocation

/-!
# Burns to ethereum

A burn gives up an allocation, to be released to an ethereum account.
-/

set_option autoImplicit false

namespace UtxoAssets

/-- A payload that takes units off this chain and credits an account on another one. -/
structure Burn where
  allocation : Allocation
  account : FixedBytes 20
  deriving DecidableEq

namespace Burn

/-- The allocation, and the account as a field. -/
def encode (b : Burn) : Bytes :=
  Allocation.encode b.allocation ++ Wire.varBytes b.account.toBytes

/-- Read a burn. Its account has to have exactly twenty bytes. -/
def decoder : Decoder Burn := do
  let allocation ← Allocation.decoder
  let account ← Decoder.fixed "ethereum_destination" 20
  return ⟨allocation, account⟩

end Burn

end UtxoAssets
