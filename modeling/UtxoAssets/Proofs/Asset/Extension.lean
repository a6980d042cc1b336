import UtxoAssets.Asset.Burn
import UtxoAssets.Asset.Definition
import UtxoAssets.Asset.Mint
import UtxoAssets.Proofs.Payload.Streaming

/-!
# Records in longer payloads

Every record decoder meets the contract `Decoder.Streaming`, so what it makes of a payload is
settled by the bytes it reads (`recordDecoders_prefixStable`).  The nested lists of an allocation,
the fields that a mask announces and the proofs of a mint need no argument of their own: they are
built by combinators that keep the contract.
-/

set_option autoImplicit false

namespace UtxoAssets

open Decoder

/-! ## Allocations, burns and mints -/

/-- An output is decided by the bytes it reads, as are the records built from it below. -/
theorem AssetOutput.streaming_decoder : AssetOutput.decoder.Streaming := by
  refine streaming_compactSize.bind fun index => ?_
  dsimp only
  split
  · refine (streaming_throw ?_).bind fun _ =>
      (streaming_word Int64).bind fun _ => streaming_pure _
    rintro _ _ ⟨⟩
  · exact (streaming_word Int64).bind fun _ => streaming_pure _

theorem AssetGroup.streaming_decoder : AssetGroup.decoder.Streaming :=
  (streaming_word UInt32).bind fun _ =>
    AssetOutput.streaming_decoder.counted.bind fun _ => streaming_pure _

theorem Allocation.streaming_decoder : Allocation.decoder.Streaming :=
  AssetGroup.streaming_decoder.counted

theorem Burn.streaming_decoder : Burn.decoder.Streaming :=
  Allocation.streaming_decoder.bind fun _ =>
    (streaming_fixed "ethereum_destination" 20).bind fun _ => streaming_pure _

theorem ProofSlice.isFinal_of_resolved {p : ProofSlice} {e : PayloadError}
    (h : p.resolved = .error e) : e.IsFinal := by
  unfold ProofSlice.resolved at h
  split at h
  · dsimp only at h
    split at h
    · cases h
    · cases h
      rintro _ _ ⟨⟩
  · cases h

/-- The two proof slices are resolved at the end, and a slice out of range stays so in a longer
payload. -/
theorem Mint.streaming_decoder : Mint.decoder.Streaming := by
  refine Allocation.streaming_decoder.bind fun allocation => ?_
  refine (streaming_word UInt32).bind fun transferId => ?_
  refine (streaming_word UInt32).bind fun blockNumber => ?_
  refine streaming_varBytes.bind fun txValue => ?_
  refine streaming_varBytes.bind fun txNodes => ?_
  refine streaming_varBytes.bind fun txPath => ?_
  refine streaming_varBytes.bind fun receiptValue => ?_
  refine streaming_varBytes.bind fun receiptNodes => ?_
  refine (streaming_check fun _ => ProofSlice.isFinal_of_resolved).bind fun _ => ?_
  exact (streaming_check fun _ => ProofSlice.isFinal_of_resolved).bind fun _ => streaming_pure _

/-! ## Asset definitions -/

theorem FeeTier.streaming_decoder : FeeTier.decoder.Streaming :=
  (streaming_word Int64).bind fun _ => (streaming_word UInt16).bind fun _ => streaming_pure _

theorem Notary.streaming_decoder : Notary.decoder.Streaming :=
  (streaming_base64Field "notary_endpoint").bind fun _ =>
    streaming_flag.bind fun _ => streaming_flag.bind fun _ => streaming_pure _

theorem Activation.streaming_decoder : Activation.decoder.Streaming :=
  (streaming_base64Field "symbol").bind fun _ =>
    (streaming_word Int64).bind fun _ => streaming_pure _

namespace AssetDefinition

theorem streaming_decodePrecision : decodePrecision.Streaming := by
  refine (streaming_word UInt8).bind fun precision => ?_
  dsimp only
  split
  · refine (streaming_throw ?_).bind fun _ => streaming_pure _
    rintro _ _ ⟨⟩
  · exact streaming_pure _

/-- Each field is read under a condition known before it, so the definition streams field by
field. -/
theorem streaming_decoder (isActivation : Bool) : (decoder isActivation).Streaming := by
  refine Allocation.streaming_decoder.bind fun allocation => ?_
  refine streaming_decodePrecision.bind fun precision => ?_
  refine (streaming_word UInt8).bind fun mask => ?_
  refine (Activation.streaming_decoder.onlyIf _).bind fun activation => ?_
  refine ((streaming_base64Field _).onlyIf _).bind fun publicValue => ?_
  refine (streaming_varBytes.onlyIf _).bind fun contract => ?_
  refine ((streaming_word Int64).onlyIf _).bind fun balance => ?_
  refine ((streaming_fixed _ 20).onlyIf _).bind fun notaryKey => ?_
  refine (Notary.streaming_decoder.onlyIf _).bind fun notary => ?_
  refine ((streaming_fixed _ 20).onlyIf _).bind fun feeKey => ?_
  refine (FeeTier.streaming_decoder.counted.onlyIf _).bind fun feeTiers => ?_
  exact ((streaming_word UInt8).onlyIf _).bind fun capabilityFlags => streaming_pure _

end AssetDefinition

/-- **Bytes behind a payload change what a record decoder makes of it only if bytes were
missing.** -/
theorem recordDecoders_prefixStable :
    Allocation.decoder.PrefixStable ∧ Burn.decoder.PrefixStable ∧ Mint.decoder.PrefixStable ∧
      ∀ isActivation, (AssetDefinition.decoder isActivation).PrefixStable :=
  ⟨Allocation.streaming_decoder.prefixStable, Burn.streaming_decoder.prefixStable,
    Mint.streaming_decoder.prefixStable,
    fun isActivation => (AssetDefinition.streaming_decoder isActivation).prefixStable⟩

-- An output without its amount lacks eight bytes, and seven if one more is there.
example : Allocation.decoder.decode [1, 7, 0, 0, 0, 1, 0] = .error (.unexpectedEnd 7 8) := rfl

example : Allocation.decoder.decode [1, 7, 0, 0, 0, 1, 0, 9] = .error (.unexpectedEnd 7 7) := rfl

end UtxoAssets
