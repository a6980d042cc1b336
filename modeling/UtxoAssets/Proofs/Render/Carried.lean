import UtxoAssets.Proofs.Document.Members
import UtxoAssets.Proofs.Render.Section
import UtxoAssets.Proofs.Script.Carrier

/-!
# A transaction shows the record it was given

A record is encoded, pushed behind the return opcode of an output, found there, read back and
rendered.  Along this way nothing is lost or moved to another place.

* `ProofSlice.shown` — the value of a proof, told by the bytes of the proof alone.
* `AssetDefinition.ShownIn` — the members of a document that belong to a definition.
* `Transaction.HasCarrier.carries` — a record that is read from its encoding is carried by a
  transaction that pushes the encoding.
* `Section.shows_carried` — the document of such a transaction, for each kind of record.
-/

set_option autoImplicit false

namespace UtxoAssets

open Json (member?)

/-! ## From the push to the record -/

/-- The length of a push takes at most four bytes. -/
theorem Instruction.WellFormed.isLength_data {i : Instruction} (h : i.WellFormed) :
    Wire.IsLength i.data.length := by
  cases h with
  | single _ => exact Nat.zero_lt_succ _
  | @direct opcode data _ _ hdata =>
    have hlt := opcode.toNat_lt
    dsimp only
    omega
  | @pushData1 lengthBytes data hlength hdata
  | @pushData2 lengthBytes data hlength hdata
  | @pushData4 lengthBytes data hlength hdata =>
    have hlt := ofLittleEndian_lt lengthBytes
    simp only [hlength, byteRange] at hlt
    dsimp only
    omega

theorem Transaction.HasCarrier.carries {α : Type} {tx : Transaction} {push : Instruction}
    {tail : Script} {d : Decoder α} {r : α} (h : tx.HasCarrier push tail)
    (hr : d.Reads push.data r) : tx.Carries d push.data r := by
  refine ⟨h.assetPayload_eq, ?_⟩
  rw [← List.append_nil push.data]
  exact hr.decode_append []

/-! ## Proofs of a mint -/

/-- The value of a proof: its own, unless that is two bytes.  These are an offset, high byte first,
and the value is what the parent nodes have from there on. -/
def ProofSlice.shown (p : ProofSlice) : Bytes :=
  if p.value.length = 2 then p.parentNodes.drop (ofLittleEndian p.value.reverse) else p.value

/-- A slice that can be resolved is shown as the bytes it resolves to. -/
theorem ProofSlice.resolved_eq_shown {p : ProofSlice} (h : ∃ v, p.resolved = .ok v) :
    p.resolved = .ok p.shown := by
  obtain ⟨v, hv⟩ := h
  unfold resolved at hv ⊢
  unfold shown
  split at hv
  · rename_i high low hvalue
    have hoffset : ofLittleEndian p.value.reverse = high.toNat * 256 + low.toNat := by
      rw [hvalue]
      simp only [List.reverse_cons, List.reverse_nil, List.nil_append, List.cons_append,
        ofLittleEndian]
      omega
    dsimp only at hv ⊢
    split at hv
    · rename_i hle
      rw [if_pos hle, hoffset, hvalue]
      rfl
    · cases hv
  · rename_i hvalue
    rw [if_neg]
    intro hlen
    obtain ⟨high, low, heq⟩ := List.length_eq_two.mp hlen
    exact hvalue high low heq

namespace Document

/-- The proof of a mint, each byte string in hex. -/
def SpvProof.shown (m : Mint) : SpvProof where
  transferId := m.transferId
  txValue := hex m.tx.shown
  txParentNodes := hex m.tx.parentNodes
  txPath := hex m.txPath
  receiptValue := hex m.receipt.shown
  receiptParentNodes := hex m.receipt.parentNodes
  blockNumber := m.blockNumber

/-- The proof of a mint whose slices can be resolved is shown field by field. -/
theorem SpvProof.ofMint_eq_shown {m : Mint} (h : m.Resolves) :
    SpvProof.ofMint m = .ok (SpvProof.shown m) := by
  rw [SpvProof.ofMint, ProofSlice.resolved_eq_shown h.tx, ProofSlice.resolved_eq_shown h.receipt]
  rfl

end Document

/-! ## Fields of an asset definition -/

/-- A fee tier in words: its bound at the precision of the asset, and its rate. -/
structure FeeTier.IsText (precision : UInt8) (tier : FeeTier) (text : String × String) : Prop where
  bound : assetAmountText tier.bound precision = .ok text.1
  percent : text.2 = percentText tier.percent

/-- The members that belong to a definition, each under its own key; a field that is absent has
none. -/
structure AssetDefinition.ShownIn (encoder : AddressEncoder) (d : AssetDefinition) (doc : Json) :
    Prop where
  symbol : member? "symbol" doc = d.activation.map fun a => .text a.symbol
  maxSupply : member? "max_supply" doc = d.activation.map fun a => .int a.maxSupply.toInt
  precision : member? "precision" doc = d.activation.map fun _ => .int d.precision.toNat
  publicValue : member? "public_value" doc = d.publicValue.map .text
  contract : member? "contract" doc = d.contract.map fun bs => .text ("0x" ++ hex bs)
  balance : member? "balance" doc = d.balance.map fun n => .int n.toInt
  notaryKey : member? "notary_address" doc =
    d.notaryKey.map fun key => .text (encoder (.witnessKeyHash key))
  notary : member? "notary_details" doc = d.notary.map fun n => .object [
    ("endpoint", .text n.endpoint), ("instant_transfers", .bool n.instantTransfers),
    ("hd_required", .bool n.hdRequired)]
  feeKey : member? "auxfee_address" doc =
    d.feeKey.map fun key => .text (encoder (.witnessKeyHash key))
  feeTiers : ∀ tiers ∈ d.feeTiers, ∃ texts : List (String × String),
    List.Forall₂ (FeeTier.IsText d.precision) tiers texts ∧
    member? "auxfee_details" doc = some (.object [
      ("fee_struct", .list (texts.map fun text => .list [.text text.1, .text text.2]))])
  noFeeTiers : d.feeTiers = none → member? "auxfee_details" doc = none
  capabilityFlags : member? "updatecapability_flags" doc =
    d.capabilityFlags.map fun flags => .int flags.toNat
  updateFlags : member? "update_flags" doc = some (.int d.mask.toNat)

namespace Document

theorem tierTexts_eq_ok_iff {precision : UInt8} {tier : FeeTier} {text : String × String} :
    tierTexts precision tier = .ok text ↔ FeeTier.IsText precision tier text := by
  unfold tierTexts
  rw [bind_eq_ok_iff]
  constructor
  · rintro ⟨bound, hbound, htext⟩
    cases htext
    exact ⟨hbound, rfl⟩
  · rintro ⟨hbound, hpercent⟩
    refine ⟨text.1, hbound, ?_⟩
    rw [← hpercent]
    rfl

/-- Tiers that are present are shown in order, each with its two texts. -/
theorem FeeDetails.of_ofDefinition {d : AssetDefinition} {feeDetails : Option FeeDetails}
    {tiers : List FeeTier} (htiers : d.feeTiers = some tiers)
    (h : FeeDetails.ofDefinition d = .ok feeDetails) :
    ∃ texts, feeDetails = some ⟨texts⟩ ∧
      List.Forall₂ (FeeTier.IsText d.precision) tiers texts := by
  unfold FeeDetails.ofDefinition at h
  rw [htiers] at h
  dsimp only at h
  rw [map_eq_pure_bind] at h
  obtain ⟨details, hdetails, h⟩ := bind_eq_ok_iff.mp h
  obtain ⟨texts, htexts, hpure⟩ := bind_eq_ok_iff.mp hdetails
  cases h
  cases hpure
  refine ⟨texts, rfl, ?_⟩
  simpa only [tierTexts_eq_ok_iff] using mapM_eq_ok_iff.mp htexts

theorem AssetSection.shownIn_ofDefinition {encoder : AddressEncoder} {heading : Heading}
    {amounts : List AssetAllocation} {feeDetails : Option FeeDetails} {d : AssetDefinition}
    (hfee : FeeDetails.ofDefinition d = .ok feeDetails) :
    d.ShownIn encoder
      (JsonForm.toJson (AssetSection.ofDefinition encoder heading amounts feeDetails d)) := by
  obtain ⟨hsymbol, hsupply, hprecision, hvalue, hcontract, hnotaryKey, hfeeKey, hdetails, hnotary,
    hflags, hbalance, hmask⟩ :=
    (AssetSection.ofDefinition encoder heading amounts feeDetails d).members
  constructor
  case symbol => exact hsymbol.trans (Option.map_map _ _ _)
  case maxSupply => exact hsupply.trans (Option.map_map _ _ _)
  case precision => exact hprecision.trans (Option.map_map _ _ _)
  case publicValue => exact hvalue
  case contract => exact hcontract.trans (Option.map_map _ _ _)
  case balance => exact hbalance
  case notaryKey => exact hnotaryKey.trans (Option.map_map _ _ _)
  case notary => exact hnotary.trans (Option.map_map _ _ _)
  case feeKey => exact hfeeKey.trans (Option.map_map _ _ _)
  case capabilityFlags => exact hflags
  case updateFlags => exact hmask
  case feeTiers =>
    intro tiers htiers
    obtain ⟨texts, rfl, htexts⟩ := FeeDetails.of_ofDefinition htiers hfee
    exact ⟨texts, htexts, hdetails⟩
  case noFeeTiers =>
    intro hnone
    rw [FeeDetails.ofDefinition, hnone] at hfee
    cases hfee
    exact hdetails

/-! ## The document of a carried record -/

/-- **A record that is encoded into a transaction is what its document shows.** -/
theorem Section.shows_carried (encoder : AddressEncoder) (tx : Transaction)
    (blockHash : Option Hash256) (push : Instruction) (tail : Script) (htotals : tx.TotalsFit)
    (hcarrier : tx.HasCarrier push tail) :
    (∀ m : Mint, tx.version = 133 → m.Resolves → push.data = m.encode →
      ∃ doc, Section.ofTx? encoder tx blockHash = .ok (some (.mint doc)) ∧
        member? "spv_proof" (JsonForm.toJson doc) = some (.object [
          ("bridgetransferid", .int m.transferId.toNat), ("txvalue", .text (hex m.tx.shown)),
          ("txparentnodes", .text (hex m.tx.parentNodes)), ("txpath", .text (hex m.txPath)),
          ("receiptvalue", .text (hex m.receipt.shown)),
          ("receiptparentnodes", .text (hex m.receipt.parentNodes)),
          ("ethblocknumber", .int m.blockNumber.toNat)])) ∧
    (∀ b : Burn, tx.version = 134 → push.data = b.encode →
      ∃ doc, Section.ofTx? encoder tx blockHash = .ok (some (.allocation doc)) ∧
        member? "ethereum_destination" (JsonForm.toJson doc) =
          some (.text ("0x" ++ hex b.account.toBytes))) ∧
    (∀ d : AssetDefinition, tx.version = 130 ∨ tx.version = 131 → d.precision ≤ 8 →
      (d.activation.isSome ↔ tx.version = 130) → push.data = d.encode →
      ∃ doc, Section.ofTx? encoder tx blockHash = .ok (some (.asset doc)) ∧
        d.ShownIn encoder (JsonForm.toJson doc)) := by
  obtain ⟨amounts, hamounts⟩ := exists_allocationsOf htotals
  have hlength := hcarrier.wellFormed.isLength_data
  refine ⟨?mint, ?burn, ?definition⟩
  case mint =>
    intro m hversion hresolves hdata
    rw [hdata] at hlength
    have htx := ProofSlice.resolved_eq_shown hresolves.tx
    have hreceipt := ProofSlice.resolved_eq_shown hresolves.receipt
    have hreads := Mint.reads_decoder (Mint.fits_of_length hlength) htx hreceipt
    rw [← hdata] at hreads
    have hroute := Transaction.route_of_version .mint hversion
    have hproof := SpvProof.ofMint_eq_shown hresolves
    have hcarries := hcarrier.carries hreads
    exact ⟨_, (ofTx?_eq_some_iff hroute).mpr (ofRoute_mint hcarries hproof hamounts),
      MintSection.member?_spvProof _⟩
  case burn =>
    intro b hversion hdata
    have hfits : Allocation.Fits b.allocation := by
      rw [hdata, Burn.encode, List.length_append] at hlength
      exact Allocation.fits_of_length (by omega)
    have hreads := Burn.reads_decoder hfits
    rw [← hdata] at hreads
    have hroute := Transaction.route_of_version .burnToEthereum hversion
    have hcarries := hcarrier.carries hreads
    exact ⟨_, (ofTx?_eq_some_iff hroute).mpr (ofRoute_burn hcarries hamounts),
      AllocationSection.member?_ethereumDestination _⟩
  case definition =>
    intro d hversion hprecision hactivation hdata
    rw [hdata] at hlength
    have hkind : tx.kind = .asset .activate ↔ tx.version = 130 := Transaction.kind_eq_asset_iff
    have hreads := AssetDefinition.reads_decoder (AssetDefinition.fits_of_length hlength) hprecision
    have hflag : d.activation.isSome = decide (tx.kind = .asset .activate) := by
      rw [Bool.eq_iff_iff, decide_eq_true_iff, hactivation, hkind]
    rw [← hdata, hflag] at hreads
    have hroute : tx.kind.route = .definition := by
      rcases hversion with hv | hv
      · exact Transaction.route_of_version .activate hv
      · exact Transaction.route_of_version .update hv
    obtain ⟨feeDetails, hfee⟩ := FeeDetails.exists_ofDefinition hprecision
    have hcarries := hcarrier.carries hreads
    exact ⟨_, (ofTx?_eq_some_iff hroute).mpr (ofRoute_definition hcarries hfee hamounts),
      AssetSection.shownIn_ofDefinition hfee⟩

end Document

/-- The push of at most 255 bytes that states their number in a byte of its own. -/
def Instruction.stated (data : Bytes) : Instruction := ⟨0x4c, [UInt8.ofNat data.length], data⟩

theorem Transaction.hasCarrier_stated (version : Int32) {data : Bytes} (h : data.length < 256) :
    (pushing version (.stated data)).HasCarrier (.stated data) [Opcode.pushData1] := by
  refine ⟨.pushData1 rfl ?_, rfl, [⟨7, [Opcode.dup]⟩], 0, [], rfl, ?_⟩
  · rw [ofLittleEndian, Text.toNat_byte h]
    rfl
  · intro o ho
    obtain rfl := List.mem_singleton.mp ho
    decide

theorem Document.Section.shows_carried_samples :
    (∃ doc, Section.ofTx? (fun _ => "") (.pushing 133 (.stated Mint.sample.encode)) none =
        .ok (some (.mint doc)) ∧
      member? "spv_proof" (JsonForm.toJson doc) = some (.object [
        ("bridgetransferid", .int 1), ("txvalue", .text "81"), ("txparentnodes", .text "8081"),
        ("txpath", .text "80"), ("receiptvalue", .text "010203"), ("receiptparentnodes", .text ""),
        ("ethblocknumber", .int 2)])) ∧
    (∃ doc, Section.ofTx? (fun _ => "") (.pushing 134 (.stated Burn.sample.encode)) none =
        .ok (some (.allocation doc)) ∧
      member? "ethereum_destination" (JsonForm.toJson doc) =
        some (.text "0xabababababababababababababababababababab")) ∧
    (∃ doc, Section.ofTx? (fun _ => "") (.pushing 130 (.stated AssetDefinition.sample.encode))
        none = .ok (some (.asset doc)) ∧
      member? "symbol" (JsonForm.toJson doc) = some (.text "GOLD") ∧
      member? "contract" (JsonForm.toJson doc) = none) := by
  refine ⟨?mint, ?burn, ?definition⟩
  case mint =>
    obtain ⟨hmint, -⟩ := Section.shows_carried (fun _ => "") _ none _ _
      (Transaction.totalsFit_pushing 133 (.stated Mint.sample.encode))
      (Transaction.hasCarrier_stated 133 (by decide))
    exact hmint Mint.sample rfl ⟨⟨[0x81], by cbv⟩, [1, 2, 3], rfl⟩ rfl
  case burn =>
    obtain ⟨-, hburn, -⟩ := Section.shows_carried (fun _ => "") _ none _ _
      (Transaction.totalsFit_pushing 134 (.stated Burn.sample.encode))
      (Transaction.hasCarrier_stated 134 (by decide))
    exact hburn Burn.sample rfl rfl
  case definition =>
    obtain ⟨-, -, hdefinition⟩ := Section.shows_carried (fun _ => "") _ none _ _
      (Transaction.totalsFit_pushing 130 (.stated AssetDefinition.sample.encode))
      (Transaction.hasCarrier_stated 130 (by decide))
    obtain ⟨doc, hshown, hdoc⟩ := hdefinition AssetDefinition.sample (.inl rfl) (by decide)
      (by decide) rfl
    exact ⟨doc, hshown, hdoc.symbol, hdoc.contract⟩

end UtxoAssets
