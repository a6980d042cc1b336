import UtxoAssets.Proofs.Asset.Canonical
import UtxoAssets.Proofs.Outcome
import UtxoAssets.Render.Section

/-!
# Which section a transaction shows

The version says which section a transaction may show, and the payload whether it does.  A payload
that is read as a record is always shown: what the rendering tests of a mint or of an asset
definition has been tested by its decoder, and the amounts are those of the transaction itself.

* `SpvProof.exists_ofMint`, `FeeDetails.exists_ofDefinition` — nothing fails after the decoder, so a
  section is missing because of its payload or because of a total (`Section.error_of_ofRoute`).
* `Section.isOf_of_ofRoute` — heading and amounts of a section do not depend on the payload.
* `Transaction.kind_eq_iff` — the version of each kind, plain transfers apart.
* `Section.chosen_of_totalsFit` — the section that is shown, version by version.
-/

set_option autoImplicit false

namespace UtxoAssets

/-! ## The payload of a transaction -/

/-- The amounts of each asset add up to an amount. -/
def Transaction.TotalsFit (tx : Transaction) : Prop :=
  ∀ g ∈ tx.allocation, ∃ total, g.total = .ok total

/-- The data output of the transaction holds `payload`, and `payload` is read as `r`. -/
structure Transaction.Carries {α : Type} (tx : Transaction) (d : Decoder α) (payload : Bytes)
    (r : α) : Prop where
  payload_eq : assetPayload tx = .ok payload
  decode_eq : d.decode payload = .ok r

/-- The payload is missing or cannot be read. -/
def RenderError.IsPayload (e : RenderError) : Prop := ∃ cause, e = .payload cause

theorem isPayload_of_mapError {α : Type} {x : Except PayloadError α} {e : RenderError}
    (h : x.mapError .payload = .error e) : e.IsPayload := by
  obtain ⟨cause, -, rfl⟩ := mapError_eq_error_iff.mp h
  exact ⟨cause, rfl⟩

/-! ## Nothing fails after the decoder -/

theorem Mint.resolves_of_decode {p : Bytes} {m : Mint} (h : Mint.decoder.decode p = .ok m) :
    m.Resolves := (Mint.canonical_decoder.consumed_eq h).2

theorem AssetDefinition.accepted_of_decode {isActivation : Bool} {p : Bytes} {d : AssetDefinition}
    (h : (AssetDefinition.decoder isActivation).decode p = .ok d) : d.Accepted isActivation := by
  rw [AssetDefinition.decoder_eq] at h
  obtain ⟨w, hw, rfl⟩ := Decoder.decode_map_eq_ok_iff.mp h
  exact ((WireDefinition.canonical_decoder isActivation).consumed_eq hw).2

theorem exists_assetAmountText (units : Int64) {precision : UInt8} (h : precision ≤ maxPrecision) :
    ∃ text, assetAmountText units precision = .ok text := by
  unfold assetAmountText
  rw [if_neg (UInt8.not_lt.mpr h)]
  split
  · exact ⟨_, rfl⟩
  · exact ⟨_, rfl⟩

namespace Document

theorem SpvProof.exists_ofMint {m : Mint} (h : m.Resolves) :
    ∃ proof, SpvProof.ofMint m = .ok proof := by
  obtain ⟨⟨txValue, htx⟩, receiptValue, hreceipt⟩ := h
  rw [SpvProof.ofMint, htx, hreceipt]
  exact ⟨_, rfl⟩

theorem exists_tierTexts (tier : FeeTier) {precision : UInt8} (h : precision ≤ maxPrecision) :
    ∃ texts, tierTexts precision tier = .ok texts := by
  obtain ⟨bound, hbound⟩ := exists_assetAmountText tier.bound h
  rw [tierTexts, hbound]
  exact ⟨_, rfl⟩

theorem FeeDetails.exists_ofDefinition {d : AssetDefinition} (h : d.precision ≤ maxPrecision) :
    ∃ details, FeeDetails.ofDefinition d = .ok details := by
  unfold FeeDetails.ofDefinition
  cases d.feeTiers with
  | none => exact ⟨none, rfl⟩
  | some tiers =>
    obtain ⟨texts, htexts⟩ := exists_mapM_eq_ok fun tier (_ : tier ∈ tiers) =>
      exists_tierTexts tier h
    refine ⟨some ⟨texts⟩, ?_⟩
    dsimp only
    rw [FeeDetails.ofTiers, htexts]
    rfl

/-! ## Amounts and heading -/

/-- The document of a group: its asset, its outputs in order, and their total. -/
structure AssetAllocation.Shows (g : AssetGroup) (a : AssetAllocation) : Prop where
  asset : a.asset = g.asset
  outputs : a.outputs = g.outputs.map fun o => ⟨o.index, o.amount⟩
  total : g.total = .ok a.total

/-- The projection of a group is the relation of a group to its document. -/
theorem AssetAllocation.ofGroup_eq_ok_iff {g : AssetGroup} {a : AssetAllocation} :
    AssetAllocation.ofGroup g = .ok a ↔ AssetAllocation.Shows g a := by
  unfold AssetAllocation.ofGroup
  rw [bind_eq_ok_iff]
  constructor
  · rintro ⟨total, htotal, heq⟩
    cases heq
    exact ⟨rfl, rfl, htotal⟩
  · rintro ⟨hasset, houtputs, htotal⟩
    refine ⟨a.total, htotal, ?_⟩
    rw [← hasset, ← houtputs]
    rfl

theorem allocationsOf_eq_ok_iff {tx : Transaction} {shown : List AssetAllocation} :
    allocationsOf tx = .ok shown ↔ List.Forall₂ AssetAllocation.Shows tx.allocation shown := by
  rw [allocationsOf, mapError_eq_ok_iff, mapM_eq_ok_iff]
  simp only [AssetAllocation.ofGroup_eq_ok_iff]

/-- Totals that fit are all that the allocations need. -/
theorem exists_allocationsOf {tx : Transaction} (h : tx.TotalsFit) :
    ∃ shown, allocationsOf tx = .ok shown := by
  have hgroups : ∀ g ∈ tx.allocation, ∃ a, AssetAllocation.ofGroup g = .ok a := by
    intro g hg
    obtain ⟨total, htotal⟩ := h g hg
    exact ⟨⟨g.asset, _, total⟩, AssetAllocation.ofGroup_eq_ok_iff.mpr ⟨rfl, rfl, htotal⟩⟩
  obtain ⟨shown, hshown⟩ := exists_mapM_eq_ok hgroups
  exact ⟨shown, mapError_eq_ok_iff.mpr hshown⟩

/-! ## One kind of section at a time -/

section Projectors

variable {encoder : AddressEncoder} {tx : Transaction} {payload : Bytes} {blockHash : Hash256}
  {amounts : List AssetAllocation} {e : RenderError}

theorem AllocationSection.ofTx_eq_ok (h : allocationsOf tx = .ok amounts) :
    AllocationSection.ofTx tx blockHash = .ok ⟨Heading.ofTx tx blockHash, amounts, none⟩ := by
  rw [AllocationSection.ofTx, h]
  rfl

theorem MintSection.ofPayload_eq_ok {m : Mint} {proof : SpvProof}
    (hm : Mint.decoder.decode payload = .ok m) (hproof : SpvProof.ofMint m = .ok proof)
    (h : allocationsOf tx = .ok amounts) :
    MintSection.ofPayload tx payload blockHash =
      .ok ⟨Heading.ofTx tx blockHash, proof, amounts⟩ := by
  rw [MintSection.ofPayload, Decoder.decodeForRender, hm, h]
  dsimp only [Except.mapError, bind, Except.bind]
  rw [hproof]
  rfl

/-- The section of a definition whose fee tiers are written out. -/
def AssetSection.ofDefinition (encoder : AddressEncoder) (heading : Heading)
    (amounts : List AssetAllocation) (feeDetails : Option FeeDetails) (d : AssetDefinition) :
    AssetSection where
  heading
  allocations := amounts
  symbol := d.activation.map Activation.symbol
  maxSupply := d.activation.map Activation.maxSupply
  precision := d.activation.map fun _ => d.precision
  publicValue := d.publicValue
  contract := d.contract.map prefixedHex
  notaryAddress := d.notaryKey.map (keyAddress encoder)
  feeAddress := d.feeKey.map (keyAddress encoder)
  feeDetails
  notaryDetails := d.notary.map NotaryDetails.ofNotary
  capabilityFlags := d.capabilityFlags
  balance := d.balance
  updateFlags := d.mask

theorem AssetSection.ofPayload_eq_ok {d : AssetDefinition} {feeDetails : Option FeeDetails}
    (hd : (AssetDefinition.decoder (tx.kind = .asset .activate)).decode payload = .ok d)
    (hfee : FeeDetails.ofDefinition d = .ok feeDetails) (h : allocationsOf tx = .ok amounts) :
    AssetSection.ofPayload encoder tx payload blockHash =
      .ok (ofDefinition encoder (Heading.ofTx tx blockHash) amounts feeDetails d) := by
  rw [AssetSection.ofPayload, Decoder.decodeForRender, hd, h]
  dsimp only [Except.mapError, bind, Except.bind]
  rw [hfee]
  rfl

theorem AllocationSection.error_of_ofTx (h : AllocationSection.ofTx tx blockHash = .error e) :
    allocationsOf tx = .error e := by
  unfold AllocationSection.ofTx at h
  rcases bind_eq_error_iff.mp h with hamounts | ⟨amounts, -, h⟩
  · exact hamounts
  · cases h

theorem MintSection.error_of_ofPayload (h : MintSection.ofPayload tx payload blockHash = .error e) :
    e.IsPayload ∨ allocationsOf tx = .error e := by
  unfold MintSection.ofPayload at h
  rcases bind_eq_error_iff.mp h with hdecode | ⟨m, -, h⟩
  · exact .inl (isPayload_of_mapError hdecode)
  rcases bind_eq_error_iff.mp h with hproof | ⟨proof, -, h⟩
  · exact .inl (isPayload_of_mapError hproof)
  rcases bind_eq_error_iff.mp h with hamounts | ⟨amounts, -, h⟩
  · exact .inr hamounts
  · cases h

theorem AssetSection.error_of_ofPayload
    (h : AssetSection.ofPayload encoder tx payload blockHash = .error e) :
    e.IsPayload ∨ allocationsOf tx = .error e := by
  unfold AssetSection.ofPayload at h
  rcases bind_eq_error_iff.mp h with hdecode | ⟨d, hd, h⟩
  · exact .inl (isPayload_of_mapError hdecode)
  rcases bind_eq_error_iff.mp h with hamounts | ⟨amounts, -, h⟩
  · exact .inr hamounts
  rcases bind_eq_error_iff.mp h with hfee | ⟨feeDetails, -, h⟩
  · -- The decoder has let the precision pass, so the bounds of the tiers are written.
    have haccepted := AssetDefinition.accepted_of_decode (mapError_eq_ok_iff.mp hd)
    obtain ⟨details, hdetails⟩ := FeeDetails.exists_ofDefinition haccepted.precision
    rw [hdetails] at hfee
    cases hfee
  · cases h

/-- A burn whose destination is not found fails by its payload. -/
theorem isPayload_of_burnDestination (h : burnDestination tx = .error e) : e.IsPayload := by
  unfold burnDestination at h
  rcases bind_eq_error_iff.mp h with hpayload | ⟨p, -, h⟩
  · exact isPayload_of_mapError hpayload
  rcases bind_eq_error_iff.mp h with hdecode | ⟨b, -, h⟩
  · exact isPayload_of_mapError hdecode
  · cases h

/-- A section is missing because of its payload or because of a total. -/
theorem Section.error_of_ofRoute {route : Route}
    (h : Section.ofRoute encoder tx blockHash route = .error e) :
    e.IsPayload ∨ allocationsOf tx = .error e := by
  cases route with
  | nowhere => cases h
  | masternode record => cases h
  | mint =>
    rcases bind_eq_error_iff.mp h with hpayload | ⟨p, -, h⟩
    · exact .inl (isPayload_of_mapError hpayload)
    rcases bind_eq_error_iff.mp h with hdoc | ⟨doc, -, h⟩
    · exact MintSection.error_of_ofPayload hdoc
    · cases h
  | definition =>
    rcases bind_eq_error_iff.mp h with hpayload | ⟨p, -, h⟩
    · exact .inl (isPayload_of_mapError hpayload)
    rcases bind_eq_error_iff.mp h with hdoc | ⟨doc, -, h⟩
    · exact AssetSection.error_of_ofPayload hdoc
    · cases h
  | allocation =>
    rcases bind_eq_error_iff.mp h with hdoc | ⟨doc, -, h⟩
    · exact .inr (AllocationSection.error_of_ofTx hdoc)
    · cases h
  | burn =>
    rcases bind_eq_error_iff.mp h with hdoc | ⟨doc, -, h⟩
    · exact .inr (AllocationSection.error_of_ofTx hdoc)
    rcases bind_eq_error_iff.mp h with hburn | ⟨destination, -, h⟩
    · exact .inl (isPayload_of_burnDestination hburn)
    · cases h

theorem Section.ofRoute_mint {m : Mint} {proof : SpvProof} (hc : tx.Carries Mint.decoder payload m)
    (hproof : SpvProof.ofMint m = .ok proof) (h : allocationsOf tx = .ok amounts) :
    Section.ofRoute encoder tx blockHash .mint =
      .ok (some (.mint ⟨Heading.ofTx tx blockHash, proof, amounts⟩)) := by
  rw [Section.ofRoute, hc.payload_eq]
  dsimp only [Except.mapError, bind, Except.bind]
  rw [MintSection.ofPayload_eq_ok hc.decode_eq hproof h]
  rfl

theorem Section.ofRoute_definition {d : AssetDefinition} {feeDetails : Option FeeDetails}
    (hc : tx.Carries (AssetDefinition.decoder (tx.kind = .asset .activate)) payload d)
    (hfee : FeeDetails.ofDefinition d = .ok feeDetails) (h : allocationsOf tx = .ok amounts) :
    Section.ofRoute encoder tx blockHash .definition = .ok (some (.asset
      (AssetSection.ofDefinition encoder (Heading.ofTx tx blockHash) amounts feeDetails d))) := by
  rw [Section.ofRoute, hc.payload_eq]
  dsimp only [Except.mapError, bind, Except.bind]
  rw [AssetSection.ofPayload_eq_ok hc.decode_eq hfee h]
  rfl

theorem Section.ofRoute_allocation (h : allocationsOf tx = .ok amounts) :
    Section.ofRoute encoder tx blockHash .allocation =
      .ok (some (.allocation ⟨Heading.ofTx tx blockHash, amounts, none⟩)) := by
  rw [Section.ofRoute, AllocationSection.ofTx_eq_ok h]
  rfl

theorem burnDestination_eq_ok {b : Burn} (hc : tx.Carries Burn.decoder payload b) :
    burnDestination tx = .ok (prefixedHex b.account.toBytes) := by
  rw [burnDestination, hc.payload_eq]
  dsimp only [Except.mapError, bind, Except.bind]
  rw [Decoder.decodeForRender, hc.decode_eq]
  rfl

theorem Section.ofRoute_burn {b : Burn} (hc : tx.Carries Burn.decoder payload b)
    (h : allocationsOf tx = .ok amounts) :
    Section.ofRoute encoder tx blockHash .burn = .ok (some (.allocation
      ⟨Heading.ofTx tx blockHash, amounts, some (prefixedHex b.account.toBytes)⟩)) := by
  rw [Section.ofRoute, AllocationSection.ofTx_eq_ok h]
  dsimp only [bind, Except.bind]
  rw [burnDestination_eq_ok hc]
  rfl

/-! ## What every section has -/

/-- The heading that every section has. -/
def Section.heading : Section → Heading
  | .mint doc => doc.heading
  | .asset doc => doc.heading
  | .allocation doc => doc.heading

/-- The amounts that every section has. -/
def Section.allocations : Section → List AssetAllocation
  | .mint doc => doc.allocations
  | .asset doc => doc.allocations
  | .allocation doc => doc.allocations

/-- Heading and amounts of a section are those of its transaction. -/
structure Section.IsOf (s : Section) (tx : Transaction) (blockHash : Hash256) : Prop where
  txtype : s.heading.txtype = tx.kind.label
  txid : s.heading.txid = tx.id
  blockhash : s.heading.blockhash = blockHash
  allocations : List.Forall₂ AssetAllocation.Shows tx.allocation s.allocations

theorem Section.isOf_of_eq {s : Section} (hheading : s.heading = Heading.ofTx tx blockHash)
    (hamounts : allocationsOf tx = .ok s.allocations) : s.IsOf tx blockHash := by
  refine ⟨?_, ?_, ?_, allocationsOf_eq_ok_iff.mp hamounts⟩
  all_goals rw [hheading]; rfl

theorem AllocationSection.of_ofTx {doc : AllocationSection}
    (h : AllocationSection.ofTx tx blockHash = .ok doc) :
    doc.heading = Heading.ofTx tx blockHash ∧ allocationsOf tx = .ok doc.allocations := by
  obtain ⟨amounts, hamounts, h⟩ := bind_eq_ok_iff.mp h
  cases h
  exact ⟨rfl, hamounts⟩

theorem MintSection.of_ofPayload {doc : MintSection}
    (h : MintSection.ofPayload tx payload blockHash = .ok doc) :
    doc.heading = Heading.ofTx tx blockHash ∧ allocationsOf tx = .ok doc.allocations := by
  obtain ⟨m, -, h⟩ := bind_eq_ok_iff.mp h
  obtain ⟨proof, -, h⟩ := bind_eq_ok_iff.mp h
  obtain ⟨amounts, hamounts, h⟩ := bind_eq_ok_iff.mp h
  cases h
  exact ⟨rfl, hamounts⟩

theorem AssetSection.of_ofPayload {doc : AssetSection}
    (h : AssetSection.ofPayload encoder tx payload blockHash = .ok doc) :
    doc.heading = Heading.ofTx tx blockHash ∧ allocationsOf tx = .ok doc.allocations := by
  obtain ⟨d, -, h⟩ := bind_eq_ok_iff.mp h
  obtain ⟨amounts, hamounts, h⟩ := bind_eq_ok_iff.mp h
  obtain ⟨feeDetails, -, h⟩ := bind_eq_ok_iff.mp h
  cases h
  exact ⟨rfl, hamounts⟩

/-- Whatever its route, a section carries the heading and the allocations of its transaction. -/
theorem Section.isOf_of_ofRoute {route : Route} {s : Section}
    (h : Section.ofRoute encoder tx blockHash route = .ok (some s)) : s.IsOf tx blockHash := by
  cases route with
  | nowhere => cases h
  | masternode record => cases h
  | mint =>
    obtain ⟨p, -, h⟩ := bind_eq_ok_iff.mp h
    obtain ⟨doc, hdoc, h⟩ := bind_eq_ok_iff.mp h
    cases h
    obtain ⟨hheading, hamounts⟩ := MintSection.of_ofPayload hdoc
    exact isOf_of_eq hheading hamounts
  | definition =>
    obtain ⟨p, -, h⟩ := bind_eq_ok_iff.mp h
    obtain ⟨doc, hdoc, h⟩ := bind_eq_ok_iff.mp h
    cases h
    obtain ⟨hheading, hamounts⟩ := AssetSection.of_ofPayload hdoc
    exact isOf_of_eq hheading hamounts
  | allocation =>
    obtain ⟨doc, hdoc, h⟩ := bind_eq_ok_iff.mp h
    cases h
    obtain ⟨hheading, hamounts⟩ := AllocationSection.of_ofTx hdoc
    exact isOf_of_eq hheading hamounts
  | burn =>
    obtain ⟨doc, hdoc, h⟩ := bind_eq_ok_iff.mp h
    obtain ⟨destination, -, h⟩ := bind_eq_ok_iff.mp h
    cases h
    obtain ⟨hheading, hamounts⟩ := AllocationSection.of_ofTx hdoc
    exact isOf_of_eq hheading hamounts

end Projectors

/-! ## The choice of a section -/

section Choice

variable {encoder : AddressEncoder} {tx : Transaction} {blockHash : Option Hash256} {route : Route}

theorem Section.ofTx?_eq_some_iff {s : Section} (hroute : tx.kind.route = route) :
    Section.ofTx? encoder tx blockHash = .ok (some s) ↔
      Section.ofRoute encoder tx (blockHash.getD Hash256.zero) route = .ok (some s) := by
  unfold Section.ofTx?
  rw [hroute]
  constructor
  · intro h
    split at h
    · rename_i shown hshown
      cases h
      exact hshown
    · cases h
    · cases h
  · intro h
    rw [h]

/-- If the totals fit, whatever fails leaves the section out. -/
theorem Section.exists_ofTx? (h : tx.TotalsFit) :
    ∃ shown, Section.ofTx? encoder tx blockHash = .ok shown := by
  obtain ⟨amounts, hamounts⟩ := exists_allocationsOf h
  unfold Section.ofTx?
  split
  · rename_i shown _
    exact ⟨shown, rfl⟩
  · rename_i cause htotal
    rcases error_of_ofRoute htotal with ⟨_, hcause⟩ | hoverflow
    · cases hcause
    · rw [hamounts] at hoverflow
      cases hoverflow
  · exact ⟨none, rfl⟩

/-- A section is shown if and only if the transaction carries a record that `d` reads, and then it
is the one that `projected` makes of it. -/
structure Section.ShownFor {α : Type} (tx : Transaction) (d : Decoder α)
    (projected : Bytes → α → Except RenderError Section)
    (outcome : Except TotalError (Option Section)) : Prop where
  shown_iff : (∃ s, outcome = .ok (some s)) ↔ ∃ p r, tx.Carries d p r
  eq_projected : ∀ p r, tx.Carries d p r → ∃ s, projected p r = .ok s ∧ outcome = .ok (some s)

/-- The shape that the next three lemmas share: the record decides whether the route has a section,
and which one. -/
theorem Section.shownFor_of_route {α : Type} {d : Decoder α}
    {projected : Bytes → α → Except RenderError Section} (hroute : tx.kind.route = route)
    (hcarries : ∀ s, Section.ofRoute encoder tx (blockHash.getD Hash256.zero) route = .ok (some s) →
      ∃ p r, tx.Carries d p r)
    (hshown : ∀ p r, tx.Carries d p r → ∃ s, projected p r = .ok s ∧
      Section.ofRoute encoder tx (blockHash.getD Hash256.zero) route = .ok (some s)) :
    ShownFor tx d projected (Section.ofTx? encoder tx blockHash) := by
  refine ⟨⟨?_, ?_⟩, ?_⟩
  · rintro ⟨s, hs⟩
    exact hcarries s ((ofTx?_eq_some_iff hroute).mp hs)
  · rintro ⟨p, r, hc⟩
    obtain ⟨s, -, hs⟩ := hshown p r hc
    exact ⟨s, (ofTx?_eq_some_iff hroute).mpr hs⟩
  · intro p r hc
    obtain ⟨s, hprojected, hs⟩ := hshown p r hc
    exact ⟨s, hprojected, (ofTx?_eq_some_iff hroute).mpr hs⟩

theorem Section.shownFor_mint (h : tx.TotalsFit) (hroute : tx.kind.route = .mint) :
    ShownFor tx Mint.decoder
      (fun p _ => .mint <$> MintSection.ofPayload tx p (blockHash.getD Hash256.zero))
      (Section.ofTx? encoder tx blockHash) := by
  obtain ⟨amounts, hamounts⟩ := exists_allocationsOf h
  refine shownFor_of_route hroute ?_ ?_
  · intro s hs
    obtain ⟨p, hp, hs⟩ := bind_eq_ok_iff.mp hs
    obtain ⟨doc, hdoc, -⟩ := bind_eq_ok_iff.mp hs
    obtain ⟨m, hm, -⟩ := bind_eq_ok_iff.mp hdoc
    exact ⟨p, m, mapError_eq_ok_iff.mp hp, mapError_eq_ok_iff.mp hm⟩
  · intro p m hc
    obtain ⟨proof, hproof⟩ := SpvProof.exists_ofMint (Mint.resolves_of_decode hc.decode_eq)
    refine ⟨_, ?_, ofRoute_mint hc hproof hamounts⟩
    rw [MintSection.ofPayload_eq_ok hc.decode_eq hproof hamounts]
    rfl

theorem Section.shownFor_definition (h : tx.TotalsFit) (hroute : tx.kind.route = .definition) :
    ShownFor tx (AssetDefinition.decoder (tx.kind = .asset .activate))
      (fun p _ => .asset <$> AssetSection.ofPayload encoder tx p (blockHash.getD Hash256.zero))
      (Section.ofTx? encoder tx blockHash) := by
  obtain ⟨amounts, hamounts⟩ := exists_allocationsOf h
  refine shownFor_of_route hroute ?_ ?_
  · intro s hs
    obtain ⟨p, hp, hs⟩ := bind_eq_ok_iff.mp hs
    obtain ⟨doc, hdoc, -⟩ := bind_eq_ok_iff.mp hs
    obtain ⟨d, hd, -⟩ := bind_eq_ok_iff.mp hdoc
    exact ⟨p, d, mapError_eq_ok_iff.mp hp, mapError_eq_ok_iff.mp hd⟩
  · intro p d hc
    have haccepted := AssetDefinition.accepted_of_decode hc.decode_eq
    obtain ⟨details, hdetails⟩ := FeeDetails.exists_ofDefinition haccepted.precision
    refine ⟨_, ?_, ofRoute_definition hc hdetails hamounts⟩
    rw [AssetSection.ofPayload_eq_ok hc.decode_eq hdetails hamounts]
    rfl

theorem Section.shownFor_burn (h : tx.TotalsFit) (hroute : tx.kind.route = .burn) :
    ShownFor tx Burn.decoder (fun _ b => do
        let doc ← AllocationSection.ofTx tx (blockHash.getD Hash256.zero)
        let destination := "0x" ++ hex b.account.toBytes
        return .allocation { doc with ethereumDestination := some destination })
      (Section.ofTx? encoder tx blockHash) := by
  obtain ⟨amounts, hamounts⟩ := exists_allocationsOf h
  refine shownFor_of_route hroute ?_ ?_
  · intro s hs
    obtain ⟨doc, -, hs⟩ := bind_eq_ok_iff.mp hs
    obtain ⟨destination, hburn, -⟩ := bind_eq_ok_iff.mp hs
    obtain ⟨p, hp, hburn⟩ := bind_eq_ok_iff.mp hburn
    obtain ⟨b, hb, -⟩ := bind_eq_ok_iff.mp hburn
    exact ⟨p, b, mapError_eq_ok_iff.mp hp, mapError_eq_ok_iff.mp hb⟩
  · intro p b hc
    refine ⟨_, ?_, ofRoute_burn hc hamounts⟩
    rw [AllocationSection.ofTx_eq_ok hamounts]
    rfl

end Choice

end Document

/-! ## Versions -/

/-- The version of the transactions that perform the operation. -/
def AssetOperation.version : AssetOperation → Int32
  | .burnToCoins => 128
  | .burnFromCoins => 129
  | .activate => 130
  | .update => 131
  | .send => 132
  | .mint => 133
  | .burnToEthereum => 134
  | .sendAllocation => 135

/-- The version of the transactions that hold the record. -/
def MasternodeRecord.version : MasternodeRecord → Int32
  | .registration => 80
  | .serviceUpdate => 81
  | .registrarUpdate => 82
  | .revocation => 83
  | .coinbase => 84
  | .quorumCommitment => 85

/-- The version of a kind; plain transfers have all that are left. -/
def TxKind.version? : TxKind → Option Int32
  | .transfer => none
  | .masternode record => some record.version
  | .asset operation => some operation.version

theorem Transaction.kind_eq_iff {tx : Transaction} {kind : TxKind} {version : Int32}
    (h : kind.version? = some version) : tx.kind = kind ↔ tx.version = version := by
  unfold Transaction.kind
  constructor
  · intro hkind
    unfold TxKind.ofVersion at hkind
    split at hkind
    all_goals
      subst hkind
      cases h
    all_goals
      rename_i hversion
      exact Int32.toInt_inj.mp hversion
  · intro hversion
    rw [hversion]
    cases kind with
    | transfer => cases h
    | masternode record =>
      cases h
      cases record <;> rfl
    | asset operation =>
      cases h
      cases operation <;> rfl

theorem Transaction.kind_eq_asset_iff {tx : Transaction} {operation : AssetOperation} :
    tx.kind = .asset operation ↔ tx.version = operation.version :=
  kind_eq_iff rfl

theorem Transaction.kind_eq_masternode_iff {tx : Transaction} {record : MasternodeRecord} :
    tx.kind = .masternode record ↔ tx.version = record.version :=
  kind_eq_iff rfl

/-- The version of an operation is routed as the operation is. -/
theorem Transaction.route_of_version {tx : Transaction} (operation : AssetOperation)
    (h : tx.version = operation.version) : tx.kind.route = operation.route := by
  rw [kind_eq_asset_iff.mpr h]
  rfl

namespace Document

/-- The section that a transaction shows, by its version. -/
structure Section.Chosen (encoder : AddressEncoder) (tx : Transaction) (blockHash : Hash256)
    (outcome : Except TotalError (Option Section)) : Prop where
  allocation : tx.version ∈ ([128, 129, 132, 135] : List Int32) →
    ∃ doc, AllocationSection.ofTx tx blockHash = .ok doc ∧ doc.ethereumDestination = none ∧
      outcome = .ok (some (.allocation doc))
  definition : tx.version = 130 ∨ tx.version = 131 →
    ShownFor tx (AssetDefinition.decoder (tx.version = 130))
      (fun p _ => .asset <$> AssetSection.ofPayload encoder tx p blockHash) outcome
  mint : tx.version = 133 →
    ShownFor tx Mint.decoder (fun p _ => .mint <$> MintSection.ofPayload tx p blockHash) outcome
  burn : tx.version = 134 →
    ShownFor tx Burn.decoder (fun _ b => do
      let doc ← AllocationSection.ofTx tx blockHash
      let destination := "0x" ++ hex b.account.toBytes
      return .allocation { doc with ethereumDestination := some destination }) outcome
  other : tx.version ∉ ([128, 129, 130, 131, 132, 133, 134, 135] : List Int32) →
    outcome = .ok none
  isOf : ∀ s, outcome = .ok (some s) → s.IsOf tx blockHash

/-- **The version and the payload choose the section, and nothing fails after the decoder.** -/
theorem Section.chosen_of_totalsFit (encoder : AddressEncoder) (tx : Transaction)
    (blockHash : Option Hash256) (h : tx.TotalsFit) :
    Chosen encoder tx (blockHash.getD Hash256.zero) (Section.ofTx? encoder tx blockHash) ∧
    (∃ shown, Section.ofTx? encoder tx blockHash = .ok shown) ∧
    (∀ route cause, Section.ofRoute encoder tx (blockHash.getD Hash256.zero) route ≠
      .error (.amount cause)) ∧
    (∀ p cause, AssetSection.ofPayload encoder tx p (blockHash.getD Hash256.zero) ≠
      .error (.amount cause)) ∧
    (∀ p m, Mint.decoder.decode p = .ok m → ∃ proof, SpvProof.ofMint m = .ok proof) := by
  have hamount : ∀ cause, ¬ (RenderError.IsPayload (.amount cause) ∨
      allocationsOf tx = .error (.amount cause)) := by
    obtain ⟨amounts, hamounts⟩ := exists_allocationsOf h
    rintro cause (⟨_, hcause⟩ | htotal)
    · cases hcause
    · rw [hamounts] at htotal
      cases htotal
  refine ⟨⟨?allocation, ?definition, ?mint, ?burn, ?other, ?isOf⟩, exists_ofTx? h, ?_, ?_, ?_⟩
  case allocation =>
    intro hversion
    have hroute : tx.kind.route = .allocation := by
      simp only [List.mem_cons, List.not_mem_nil, or_false] at hversion
      rcases hversion with hv | hv | hv | hv
      · exact Transaction.route_of_version .burnToCoins hv
      · exact Transaction.route_of_version .burnFromCoins hv
      · exact Transaction.route_of_version .send hv
      · exact Transaction.route_of_version .sendAllocation hv
    obtain ⟨amounts, hamounts⟩ := exists_allocationsOf h
    exact ⟨_, AllocationSection.ofTx_eq_ok hamounts, rfl,
      (ofTx?_eq_some_iff hroute).mpr (ofRoute_allocation hamounts)⟩
  case definition =>
    intro hversion
    have hactivation : tx.kind = .asset .activate ↔ tx.version = 130 :=
      Transaction.kind_eq_asset_iff
    rw [← decide_eq_decide.mpr hactivation]
    refine shownFor_definition h ?_
    rcases hversion with hv | hv
    · exact Transaction.route_of_version .activate hv
    · exact Transaction.route_of_version .update hv
  case mint =>
    intro hv
    exact shownFor_mint h (Transaction.route_of_version .mint hv)
  case burn =>
    intro hv
    exact shownFor_burn h (Transaction.route_of_version .burnToEthereum hv)
  case other =>
    intro hversion
    unfold Section.ofTx?
    cases hkind : tx.kind with
    | transfer => rfl
    | masternode record => rfl
    | asset operation =>
      rw [Transaction.kind_eq_asset_iff.mp hkind] at hversion
      cases operation <;> exact absurd (by decide) hversion
  case isOf =>
    intro s hs
    exact isOf_of_ofRoute ((ofTx?_eq_some_iff rfl).mp hs)
  · intro route cause herror
    exact hamount cause (error_of_ofRoute herror)
  · intro p cause herror
    exact hamount cause (AssetSection.error_of_ofPayload herror)
  · intro p m hm
    exact SpvProof.exists_ofMint (Mint.resolves_of_decode hm)

end Document

/-- A transaction with two assignments of one asset.  Its second output has the push, and behind it
another one that is cut off. -/
def Transaction.pushing (version : Int32) (push : Instruction) : Transaction where
  version
  inputs := []
  outputs := [⟨7, [Opcode.dup]⟩, ⟨0, Opcode.ret :: (push.encoded ++ [Opcode.pushData1])⟩]
  lockTime := 0
  allocation := Allocation.sample

theorem Transaction.totalsFit_pushing (version : Int32) (push : Instruction) :
    (pushing version push).TotalsFit := by
  intro g hg
  obtain rfl := List.mem_singleton.mp hg
  exact ⟨999, rfl⟩

/-- A burn, pushed by one opcode that counts its 47 bytes. -/
theorem Document.Section.chosen_burn :
    (Transaction.pushing 134 ⟨0x2f, [], Burn.sample.encode⟩).TotalsFit ∧
    ∃ doc : AllocationSection,
      Section.ofTx? (fun _ => "") (Transaction.pushing 134 ⟨0x2f, [], Burn.sample.encode⟩) none =
        .ok (some (.allocation doc)) ∧
      doc.ethereumDestination = some "0xabababababababababababababababababababab" := by
  have htotals := Transaction.totalsFit_pushing 134 ⟨0x2f, [], Burn.sample.encode⟩
  obtain ⟨hchosen, -⟩ := Section.chosen_of_totalsFit (fun _ => "") _ none htotals
  have hcarries : (Transaction.pushing 134 ⟨0x2f, [], Burn.sample.encode⟩).Carries
      Burn.decoder Burn.sample.encode Burn.sample := ⟨rfl, rfl⟩
  obtain ⟨s, hs, hshown⟩ := (hchosen.burn rfl).eq_projected _ _ hcarries
  obtain ⟨doc, -, hs⟩ := bind_eq_ok_iff.mp hs
  cases hs
  exact ⟨htotals, _, hshown, rfl⟩

end UtxoAssets
