import UtxoAssets.Proofs.Document.Members
import UtxoAssets.Proofs.Render.Section

/-!
# The mask from the payload to the document

The mask of an asset definition is not kept: it is derived anew from the fields that were read, and
the document shows that one.

* `AssetDefinition.maskByte?` — the byte of a payload that announces the fields.
* `AssetDefinition.maskByte?_of_decode` — it is the mask that the accepted definition derives.
* `AssetSection.Gated` — each optional field and its member are there under its own bit of the mask
  shown.
* `mask_gates_document` — both together, with the fields of an activation.
-/

set_option autoImplicit false

namespace UtxoAssets

open JsonForm (toJson)

/-! ## The mask in the payload -/

namespace AssetDefinition

/-- The byte that follows the allocation and the precision. -/
def maskByte? (payload : Bytes) : Option UInt8 :=
  payload[(Allocation.decoder.consumed payload).length + 1]?

/-- The mask that was decoded is the byte at its place in the payload. -/
theorem maskByte?_of_decode {isActivation : Bool} {p : Bytes} {d : AssetDefinition}
    (h : (decoder isActivation).decode p = .ok d) : maskByte? p = some d.mask := by
  rw [decoder_eq] at h
  obtain ⟨w, hw, rfl⟩ := Decoder.decode_map_eq_ok_iff.mp h
  obtain ⟨hconsumed, haccepted⟩ := (WireDefinition.canonical_decoder isActivation).consumed_eq hw
  obtain ⟨behind, hp⟩ := Decoder.exists_eq_consumed_append (WireDefinition.decoder isActivation) p
  -- What was read is the encoding of what it was read as, and the mask has its place there.
  obtain ⟨rest, hrest⟩ : ∃ rest,
      p = Allocation.encode w.allocation ++ ([w.precision, w.meaning.mask] ++ rest) := by
    rw [hp, ← hconsumed, WireDefinition.encode]
    simp only [List.append_assoc]
    exact ⟨_, rfl⟩
  have hallocation : Allocation.decoder.consumed p = Allocation.encode w.allocation := by
    rw [hrest]
    exact (Allocation.reads_decoder haccepted.allocation).consumed_append _
  rw [maskByte?, hallocation, hrest, List.getElem?_append_right (Nat.le_add_right _ _),
    Nat.add_sub_cancel_left]
  rfl

end AssetDefinition

/-! ## The mask in the document -/

namespace Document

theorem FeeDetails.isSome_of_ofDefinition {d : AssetDefinition} {details : Option FeeDetails}
    (h : FeeDetails.ofDefinition d = .ok details) : details.isSome = d.feeTiers.isSome := by
  unfold FeeDetails.ofDefinition at h
  split at h
  · rename_i tiers htiers
    rw [map_eq_pure_bind] at h
    obtain ⟨texts, -, h⟩ := bind_eq_ok_iff.mp h
    cases h
    rw [htiers]
    rfl
  · rename_i htiers
    cases h
    rw [htiers]
    rfl

namespace AssetSection

variable {encoder : AddressEncoder} {tx : Transaction} {payload : Bytes} {blockHash : Hash256}
  {doc : AssetSection}

/-- A section shows the definition that its payload is read as. -/
theorem exists_definition (h : ofPayload encoder tx payload blockHash = .ok doc) :
    ∃ d amounts feeDetails,
      (AssetDefinition.decoder (tx.kind = .asset .activate)).decode payload = .ok d ∧
      FeeDetails.ofDefinition d = .ok feeDetails ∧
      doc = ofDefinition encoder (Heading.ofTx tx blockHash) amounts feeDetails d := by
  obtain ⟨d, hd, h⟩ := bind_eq_ok_iff.mp h
  obtain ⟨amounts, -, h⟩ := bind_eq_ok_iff.mp h
  obtain ⟨feeDetails, hfee, h⟩ := bind_eq_ok_iff.mp h
  cases h
  exact ⟨d, amounts, feeDetails, mapError_eq_ok_iff.mp hd, mapError_eq_ok_iff.mp hfee, rfl⟩

/-- A field and its member are there under a condition, and absent without it. -/
structure ShownWhen {α : Type} (doc : AssetSection) (condition : Prop) (field : Option α)
    (key : String) : Prop where
  field_iff : field.isSome ↔ condition
  member_iff : key ∈ (toJson doc).keys ↔ condition

/-- A key is present exactly if its field is. -/
theorem ShownWhen.of_member? {α : Type} [JsonForm α] {condition : Prop} {field : Option α}
    {key : String} (hmember : (toJson doc).member? key = field.map toJson)
    (hfield : field.isSome ↔ condition) : doc.ShownWhen condition field key where
  field_iff := hfield
  member_iff := by rw [Json.mem_keys_iff, hmember, Option.isSome_map, hfield]

/-- Each optional field is gated by its own bit of the mask that the section shows. -/
structure Gated (doc : AssetSection) : Prop where
  publicValue : doc.ShownWhen (doc.updateFlags &&& 0x01 ≠ 0) doc.publicValue "public_value"
  contract : doc.ShownWhen (doc.updateFlags &&& 0x02 ≠ 0) doc.contract "contract"
  balance : doc.ShownWhen (doc.updateFlags &&& 0x04 ≠ 0) doc.balance "balance"
  notaryAddress : doc.ShownWhen (doc.updateFlags &&& 0x08 ≠ 0) doc.notaryAddress "notary_address"
  notaryDetails : doc.ShownWhen (doc.updateFlags &&& 0x10 ≠ 0) doc.notaryDetails "notary_details"
  feeAddress : doc.ShownWhen (doc.updateFlags &&& 0x20 ≠ 0) doc.feeAddress "auxfee_address"
  feeDetails : doc.ShownWhen (doc.updateFlags &&& 0x40 ≠ 0) doc.feeDetails "auxfee_details"
  capabilityFlags :
    doc.ShownWhen (doc.updateFlags &&& 0x80 ≠ 0) doc.capabilityFlags "updatecapability_flags"

/-- The fields that an activation alone has. -/
structure ShowsActivation (doc : AssetSection) (isActivation : Prop) : Prop where
  symbol : doc.ShownWhen isActivation doc.symbol "symbol"
  maxSupply : doc.ShownWhen isActivation doc.maxSupply "max_supply"
  precision : doc.ShownWhen isActivation doc.precision "precision"

section Definition

variable {heading : Heading} {amounts : List AssetAllocation} {feeDetails : Option FeeDetails}
  {d : AssetDefinition}

/-- Each key of the document is gated by its bit of the mask. -/
theorem gated_ofDefinition (hfee : FeeDetails.ofDefinition d = .ok feeDetails) :
    (ofDefinition encoder heading amounts feeDetails d).Gated := by
  obtain ⟨bvalue, bcontract, bbalance, bkey, bnotary, bfeeKey, btiers, bflags⟩ := d.isIn_mask
  obtain ⟨-, -, -, mvalue, mcontract, mkey, mfeeKey, mtiers, mnotary, mflags, mbalance, -⟩ :=
    (ofDefinition encoder heading amounts feeDetails d).members
  have hbit : ∀ {bit : MaskBit} {present : Bool}, bit.isIn d.mask = present →
      (present ↔ d.mask &&& bit.value ≠ 0) := by
    rintro bit _ rfl
    exact bne_iff_ne
  constructor
  case publicValue => exact .of_member? mvalue (hbit bvalue)
  case contract => exact .of_member? mcontract (hbit (bcontract.trans Option.isSome_map.symm))
  case balance => exact .of_member? mbalance (hbit bbalance)
  case notaryAddress => exact .of_member? mkey (hbit (bkey.trans Option.isSome_map.symm))
  case notaryDetails => exact .of_member? mnotary (hbit (bnotary.trans Option.isSome_map.symm))
  case feeAddress => exact .of_member? mfeeKey (hbit (bfeeKey.trans Option.isSome_map.symm))
  case feeDetails =>
    have hdetails := FeeDetails.isSome_of_ofDefinition hfee
    exact .of_member? mtiers (hbit (btiers.trans hdetails.symm))
  case capabilityFlags => exact .of_member? mflags (hbit bflags)

theorem showsActivation_ofDefinition {isActivation : Prop}
    (h : d.activation.isSome ↔ isActivation) :
    (ofDefinition encoder heading amounts feeDetails d).ShowsActivation isActivation := by
  obtain ⟨msymbol, msupply, mprecision, -⟩ :=
    (ofDefinition encoder heading amounts feeDetails d).members
  have hmap : ∀ {α : Type} (f : Activation → α), (d.activation.map f).isSome ↔ isActivation := by
    intro α f
    rw [Option.isSome_map, h]
  constructor
  case symbol => exact .of_member? msymbol (hmap _)
  case maxSupply => exact .of_member? msupply (hmap _)
  case precision => exact .of_member? mprecision (hmap _)

end Definition

end AssetSection

/-- **The mask of a payload gates the fields of the definition and the members of the document.** -/
theorem mask_gates_document :
    (∀ (isActivation : Bool) (p : Bytes) (d : AssetDefinition),
      (AssetDefinition.decoder isActivation).decode p = .ok d →
      AssetDefinition.maskByte? p = some d.mask ∧ (d.activation.isSome ↔ isActivation) ∧
      d.precision ≤ 8) ∧
    (∀ (encoder : AddressEncoder) (tx : Transaction) (p : Bytes) (blockHash : Hash256)
      (doc : AssetSection), AssetSection.ofPayload encoder tx p blockHash = .ok doc →
      AssetDefinition.maskByte? p = some doc.updateFlags ∧ doc.Gated ∧
      doc.ShowsActivation (tx.version = 130)) := by
  refine ⟨?payload, ?document⟩
  case payload =>
    intro isActivation p d h
    have haccepted := AssetDefinition.accepted_of_decode h
    exact ⟨AssetDefinition.maskByte?_of_decode h, by rw [haccepted.activation],
      haccepted.precision⟩
  case document =>
    intro encoder tx p blockHash doc h
    obtain ⟨d, amounts, feeDetails, hd, hfee, rfl⟩ := AssetSection.exists_definition h
    have hactivation : d.activation.isSome ↔ tx.version = 130 := by
      rw [(AssetDefinition.accepted_of_decode hd).activation, decide_eq_true_iff]
      exact Transaction.kind_eq_asset_iff
    exact ⟨AssetDefinition.maskByte?_of_decode hd, AssetSection.gated_ofDefinition hfee,
      AssetSection.showsActivation_ofDefinition hactivation⟩

/-- An update of an asset with no allocation, two decimals, a balance and a notary. -/
def updateSample : Bytes :=
  [0, 2, 0x14] ++ [7, 0, 0, 0, 0, 0, 0, 0] ++ [4, 0x61, 0x47, 0x6b, 0x3d, 1, 0]

theorem mask_gates_document_update :
    (∃ d, (AssetDefinition.decoder false).decode updateSample = .ok d ∧ d.mask = 0x14) ∧
    ∃ doc, AssetSection.ofPayload (fun _ => "") (.pushing 131 ⟨0x01, [], [0xaa]⟩) updateSample
        Hash256.zero = .ok doc ∧
      doc.updateFlags = 0x14 ∧ "balance" ∈ (toJson doc).keys ∧
      "notary_details" ∈ (toJson doc).keys ∧ "contract" ∉ (toJson doc).keys ∧
      "symbol" ∉ (toJson doc).keys := by
  obtain ⟨hpayload, hdocument⟩ := mask_gates_document
  have hbyte : AssetDefinition.maskByte? updateSample = some 0x14 := rfl
  have hread : (AssetDefinition.decoder false).decode updateSample =
      .ok { precision := 2, balance := some 7, notary := some ⟨"hi", true, false⟩ } := rfl
  obtain ⟨hmask, -, -⟩ := hpayload _ _ _ hread
  obtain ⟨amounts, hamounts⟩ :=
    exists_allocationsOf (Transaction.totalsFit_pushing 131 ⟨0x01, [], [0xaa]⟩)
  obtain ⟨doc, hdoc⟩ : ∃ doc, AssetSection.ofPayload (fun _ => "")
      (.pushing 131 ⟨0x01, [], [0xaa]⟩) updateSample Hash256.zero = .ok doc :=
    ⟨_, AssetSection.ofPayload_eq_ok hread rfl hamounts⟩
  obtain ⟨hflags, hgated, hactivation⟩ := hdocument _ _ _ _ _ hdoc
  rw [hbyte] at hmask hflags
  have hshown := Option.some.inj hflags
  refine ⟨⟨_, hread, (Option.some.inj hmask).symm⟩, _, hdoc, hshown.symm, ?_, ?_, ?_, ?_⟩
  · rw [hgated.balance.member_iff, ← hshown]
    decide
  · rw [hgated.notaryDetails.member_iff, ← hshown]
    decide
  · rw [hgated.contract.member_iff, ← hshown]
    decide
  · rw [hactivation.symbol.member_iff]
    decide

end Document

end UtxoAssets
