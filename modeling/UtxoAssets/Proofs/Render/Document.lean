import UtxoAssets.Proofs.Document.ReadBack
import UtxoAssets.Proofs.Render.Calls

/-!
# The document of a transaction, member by member

* `Document.Tx.IsOf` — what each member shows, if nothing decodes masternode records.
* `Renderer.exists_render` — a transaction whose totals fit has such a document.
* `Document.Tx.toJson_injective` — documents without masternode records are told apart by their
  JSON forms.
-/

set_option autoImplicit false

namespace UtxoAssets

variable {encoder : AddressEncoder} {config : Document.Config} {tx : Transaction}
  {blockHash : Option Hash256}

/-- Decoders that decode nothing give no members. -/
theorem MasternodeDecoder.members_consult_none (tx : Transaction) :
    (({} : MasternodeDecoder).consult tx).1 = {} := by
  obtain ⟨record, hversion⟩ | hversion := tx.has_record_or_not
  · rw [consult_of_version _ tx hversion]
    cases record <;> rfl
  · rw [consult_of_no_record _ tx hversion]

namespace Document

/-- What each member of a document shows of a transaction. -/
structure Tx.IsOf (d : Tx) (encoder : AddressEncoder) (config : Config) (tx : Transaction)
    (blockHash : Option Hash256) : Prop where
  txid : d.txid = tx.id
  witnessHash : d.witnessHash = tx.witnessHash
  version : d.version = tx.version.toUInt32
  size : d.size = UInt64.ofNat tx.size
  virtualSize : d.virtualSize = UInt64.ofNat tx.virtualSize
  weight : d.weight = UInt64.ofNat tx.weight
  lockTime : d.lockTime = tx.lockTime
  inputs : d.inputs = tx.inputs.map (Input.ofTxInput tx.isCoinbase)
  outputs : d.outputs = tx.outputs.mapIdx (Output.ofTxOutput encoder)
  masternode : d.masternode = {}
  assets : Section.ofTx? encoder tx (blockHash.filter fun h => !h.isZero) = .ok d.assets
  blockHash : d.blockHash = blockHash.filter fun h => !h.isZero
  wireHex : d.wireHex = if config.includeHex then some (hex (tx.encode config.wireForm)) else none

end Document

/-- Without masternode decoders, totals that fit are all that rendering needs. -/
theorem Renderer.exists_render (encoder : AddressEncoder) (config : Document.Config)
    (blockHash : Option Hash256) (h : tx.TotalsFit) :
    ∃ r, (⟨encoder, {}, config⟩ : Renderer).render tx blockHash = .ok r ∧
      r.document.IsOf encoder config tx blockHash := by
  obtain ⟨assets, hassets⟩ := Document.Section.exists_ofTx? h
  refine ⟨_, render_eq_ok_iff.mpr ⟨assets, hassets, rfl⟩, ?_⟩
  constructor
  case masternode => exact MasternodeDecoder.members_consult_none tx
  case assets => exact hassets
  all_goals rfl

/-- Documents without masternode members are read back, so they are told apart by their JSON. -/
theorem Document.Tx.toJson_injective {d e : Document.Tx} (hd : d.masternode = {})
    (he : e.masternode = {}) (h : JsonForm.toJson d = JsonForm.toJson e) : d = e := by
  have hnull : ({} : MasternodeMembers).NotNull := by
    simp [MasternodeMembers.NotNull, MasternodeMembers.fields]
  have hread := d.ofJson?_toJson (hd ▸ hnull)
  rw [h, e.ofJson?_toJson (he ▸ hnull)] at hread
  exact (Option.some.inj hread).symm

end UtxoAssets
