import UtxoAssets.Proofs.Asset.Total
import UtxoAssets.Proofs.Render.Section

/-!
# Totals that overflow

A total that overflows ends the rendering of a transaction, but only where the total is computed.
Assignments and burns are added up before anything else is read; for a mint and for an asset
definition the payload comes first, and one that cannot be read leaves the totals alone.

* `Transaction.Overflows` — the total of some asset is no amount.
* `Transaction.AddsUp` — the totals are computed, by version and payload; `Transaction.AddsUpFor` is
  the same by route (`Transaction.addsUpFor_route_iff`).
* `Section.ofRoute_eq_overflow`, `Section.addsUpFor_of_ofRoute` — the two directions.
* `totals_exact_and_overflow` — totals are exact, and an overflow ends the rendering exactly if it is
  reached.
-/

set_option autoImplicit false

namespace UtxoAssets

namespace Transaction

/-- Some sum of the transaction's amounts does not fit in 64 bits on the way. -/
def Overflows (tx : Transaction) : Prop := ∃ g ∈ tx.allocation, ¬ g.PartialSumsFit

/-- Along this route the totals are computed, for a mint or a definition once it has been read. -/
def AddsUpFor (tx : Transaction) : Route → Prop
  | .allocation | .burn => True
  | .definition => ∃ p d, tx.Carries (AssetDefinition.decoder (tx.kind = .asset .activate)) p d
  | .mint => ∃ p m, tx.Carries Mint.decoder p m
  | .nowhere | .masternode _ => False

/-- Assignments and burns are always added up, definitions and mints if they can be read. -/
def AddsUp (tx : Transaction) : Prop :=
  tx.version ∈ ([128, 129, 132, 134, 135] : List Int32) ∨
  ((tx.version = 130 ∨ tx.version = 131) ∧
    ∃ p d, tx.Carries (AssetDefinition.decoder (tx.version = 130)) p d) ∨
  (tx.version = 133 ∧ ∃ p m, tx.Carries Mint.decoder p m)

variable {tx : Transaction}

theorem totalsFit_iff : tx.TotalsFit ↔ ¬ tx.Overflows := by
  constructor
  · rintro h ⟨g, hg, hoverflow⟩
    obtain ⟨total, htotal⟩ := h g hg
    exact hoverflow (AssetGroup.total_eq_ok_iff.mp htotal).1
  · intro h g hg
    have hfits : g.PartialSumsFit := by
      by_contra hoverflow
      exact h ⟨g, hg, hoverflow⟩
    obtain ⟨total, htotal, -⟩ := hfits.exists_total
    exact ⟨total, htotal⟩

/-- Activations are the definitions of version 130. -/
theorem carries_definition_iff {p : Bytes} {d : AssetDefinition} :
    tx.Carries (AssetDefinition.decoder (tx.kind = .asset .activate)) p d ↔
      tx.Carries (AssetDefinition.decoder (tx.version = 130)) p d := by
  have hactivation : tx.kind = .asset .activate ↔ tx.version = 130 := kind_eq_asset_iff
  rw [decide_eq_decide.mpr hactivation]

theorem addsUpFor_of_version (operation : AssetOperation) (hversion : tx.version = operation.version)
    (h : tx.AddsUpFor operation.route) : tx.AddsUpFor tx.kind.route := by
  rw [route_of_version operation hversion]
  exact h

theorem addsUpFor_route_iff : tx.AddsUpFor tx.kind.route ↔ tx.AddsUp := by
  constructor
  · intro h
    cases hkind : tx.kind with
    | transfer =>
      rw [hkind] at h
      cases h
    | masternode record =>
      rw [hkind] at h
      cases record <;> cases h
    | asset operation =>
      have hversion : tx.version = operation.version := kind_eq_asset_iff.mp hkind
      rw [route_of_version operation hversion] at h
      cases operation with
      | burnToCoins | burnFromCoins | send | burnToEthereum | sendAllocation =>
        apply Or.inl
        rw [hversion]
        decide
      | activate =>
        obtain ⟨p, d, hcarries⟩ := h
        exact .inr (.inl ⟨.inl hversion, p, d, carries_definition_iff.mp hcarries⟩)
      | update =>
        obtain ⟨p, d, hcarries⟩ := h
        exact .inr (.inl ⟨.inr hversion, p, d, carries_definition_iff.mp hcarries⟩)
      | mint => exact .inr (.inr ⟨hversion, h⟩)
  · rintro (hversion | ⟨hversion, p, d, hcarries⟩ | ⟨hversion, hcarries⟩)
    · simp only [List.mem_cons, List.not_mem_nil, or_false] at hversion
      rcases hversion with hv | hv | hv | hv | hv
      · exact addsUpFor_of_version .burnToCoins hv trivial
      · exact addsUpFor_of_version .burnFromCoins hv trivial
      · exact addsUpFor_of_version .send hv trivial
      · exact addsUpFor_of_version .burnToEthereum hv trivial
      · exact addsUpFor_of_version .sendAllocation hv trivial
    · have hread := carries_definition_iff.mpr hcarries
      rcases hversion with hv | hv
      · exact addsUpFor_of_version .activate hv ⟨p, d, hread⟩
      · exact addsUpFor_of_version .update hv ⟨p, d, hread⟩
    · exact addsUpFor_of_version .mint hversion hcarries

end Transaction

namespace Document

variable {encoder : AddressEncoder} {tx : Transaction} {blockHash : Hash256} {route : Route}

/-- One group that overflows is enough: projecting a group can fail in no other way. -/
theorem allocationsOf_eq_overflow (h : tx.Overflows) :
    allocationsOf tx = .error (.total .overflow) := by
  cases hamounts : tx.allocation.mapM AssetAllocation.ofGroup with
  | error cause =>
    rw [allocationsOf, hamounts]
    rfl
  | ok amounts =>
    obtain ⟨g, hg, hoverflow⟩ := h
    obtain ⟨a, ha⟩ := exists_eq_ok_of_mapM hamounts g hg
    have htotal := (AssetAllocation.ofGroup_eq_ok_iff.mp ha).total
    exact absurd (AssetGroup.total_eq_ok_iff.mp htotal).1 hoverflow

/-- Wherever totals are added up, one that overflows is what the section fails with. -/
theorem Section.ofRoute_eq_overflow (h : allocationsOf tx = .error (.total .overflow))
    (hadds : tx.AddsUpFor route) :
    Section.ofRoute encoder tx blockHash route = .error (.total .overflow) := by
  cases route with
  | nowhere => cases hadds
  | masternode record => cases hadds
  | allocation | burn =>
    rw [Section.ofRoute, AllocationSection.ofTx, h]
    rfl
  | mint =>
    obtain ⟨p, m, hpayload, hm⟩ := hadds
    obtain ⟨proof, hproof⟩ := SpvProof.exists_ofMint (Mint.resolves_of_decode hm)
    rw [Section.ofRoute, hpayload]
    dsimp only [Except.mapError, bind, Except.bind]
    rw [MintSection.ofPayload, Decoder.decodeForRender, hm, h]
    dsimp only [Except.mapError, bind, Except.bind]
    rw [hproof]
  | definition =>
    obtain ⟨p, d, hpayload, hd⟩ := hadds
    rw [Section.ofRoute, hpayload]
    dsimp only [Except.mapError, bind, Except.bind]
    rw [AssetSection.ofPayload, Decoder.decodeForRender, hd, h]
    rfl

theorem not_isPayload_total {cause : TotalError} : ¬ RenderError.IsPayload (.total cause) := by
  rintro ⟨_, h⟩
  cases h

section BeforeTotals

variable {α β : Type} {d : Decoder α} {cause : TotalError}

theorem exists_decode_of_total {payload : Bytes} {projected : α → Except RenderError β}
    (h : (d.decodeForRender payload >>= projected) = .error (.total cause)) :
    ∃ r, d.decode payload = .ok r := by
  rcases bind_eq_error_iff.mp h with hdecode | ⟨r, hr, -⟩
  · exact absurd (isPayload_of_mapError hdecode) not_isPayload_total
  · exact ⟨r, mapError_eq_ok_iff.mp hr⟩

/-- A failure of the totals comes after the payload was found and decoded. -/
theorem exists_carries_of_total {projected : Bytes → Except RenderError β} {wrapped : β → Section}
    (h : (do
      let payload ← (assetPayload tx).mapError .payload
      let doc ← projected payload
      return some (wrapped doc)) = Except.error (RenderError.total cause))
    (hdecode : ∀ payload, projected payload = .error (.total cause) →
      ∃ r, d.decode payload = .ok r) : ∃ p r, tx.Carries d p r := by
  rcases bind_eq_error_iff.mp h with hpayload | ⟨p, hp, h⟩
  · exact absurd (isPayload_of_mapError hpayload) not_isPayload_total
  rcases bind_eq_error_iff.mp h with hdoc | ⟨doc, -, h⟩
  · obtain ⟨r, hr⟩ := hdecode p hdoc
    exact ⟨p, r, mapError_eq_ok_iff.mp hp, hr⟩
  · cases h

/-- A section that fails with a total has had everything read that comes before the totals. -/
theorem Section.addsUpFor_of_ofRoute
    (h : Section.ofRoute encoder tx blockHash route = .error (.total cause)) :
    tx.AddsUpFor route := by
  cases route with
  | nowhere => cases h
  | masternode record => cases h
  | allocation | burn => trivial
  | mint => exact exists_carries_of_total h fun _ hdoc => exists_decode_of_total hdoc
  | definition => exact exists_carries_of_total h fun _ hdoc => exists_decode_of_total hdoc

end BeforeTotals

theorem Section.ofTx?_eq_error_iff {blockHash : Option Hash256} {cause : TotalError} :
    Section.ofTx? encoder tx blockHash = .error cause ↔
      Section.ofRoute encoder tx (blockHash.getD Hash256.zero) tx.kind.route =
        .error (.total cause) := by
  unfold Section.ofTx?
  constructor
  · intro h
    split at h
    · cases h
    · rename_i cause' hcause
      cases h
      exact hcause
    · cases h
  · intro h
    rw [h]

/-- Overflow surfaces exactly where the totals are computed. -/
theorem Section.ofTx?_eq_overflow_iff {blockHash : Option Hash256} :
    Section.ofTx? encoder tx blockHash = .error .overflow ↔ tx.Overflows ∧ tx.AddsUp := by
  rw [ofTx?_eq_error_iff, ← Transaction.addsUpFor_route_iff]
  constructor
  · intro h
    refine ⟨?_, addsUpFor_of_ofRoute h⟩
    by_contra hfits
    obtain ⟨shown, hshown⟩ := exists_ofTx? (Transaction.totalsFit_iff.mpr hfits)
    rw [ofTx?_eq_error_iff.mpr h] at hshown
    cases hshown
  · rintro ⟨hoverflow, hadds⟩
    exact ofRoute_eq_overflow (allocationsOf_eq_overflow hoverflow) hadds

/-- The overflow of a total is the only failure. -/
theorem Section.exists_ofTx?_of_not_overflow {blockHash : Option Hash256}
    (h : ¬ (tx.Overflows ∧ tx.AddsUp)) :
    ∃ shown, Section.ofTx? encoder tx blockHash = .ok shown := by
  cases houtcome : Section.ofTx? encoder tx blockHash with
  | ok shown => exact ⟨shown, rfl⟩
  | error cause =>
    cases cause with
    | overflow => exact absurd (ofTx?_eq_overflow_iff.mp houtcome) h

end Document

open Document

/-- **A total is the exact sum or an overflow, and an overflow ends the rendering if and only if the
total is computed.**  Amounts that are not negative can be added up in any order. -/
theorem totals_exact_and_overflow :
    (∀ g : AssetGroup,
      (g.PartialSumsFit → ∃ total, g.total = .ok total ∧ total.toInt = g.exactSum) ∧
      (¬ g.PartialSumsFit → g.total = .error .overflow) ∧
      (g.NonNegative → (g.PartialSumsFit ↔ FitsInt64 g.exactSum) ∧
        (∀ g' : AssetGroup, g'.NonNegative → g'.exactSum = g.exactSum → g'.total = g.total) ∧
        ∀ g' : AssetGroup, g'.outputs.Perm g.outputs → g'.total = g.total)) ∧
    (∀ (encoder : AddressEncoder) (tx : Transaction) (blockHash : Option Hash256),
      (tx.Overflows →
        (Section.ofTx? encoder tx blockHash = .error .overflow ↔ tx.AddsUp) ∧
        (¬ tx.AddsUp → ∃ shown, Section.ofTx? encoder tx blockHash = .ok shown)) ∧
      (¬ tx.Overflows → ∃ shown, Section.ofTx? encoder tx blockHash = .ok shown)) := by
  constructor
  · intro g
    refine ⟨AssetGroup.PartialSumsFit.exists_total, AssetGroup.total_eq_overflow_iff.mpr, ?_⟩
    intro hg
    refine ⟨AssetGroup.partialSumsFit_iff_of_nonNegative hg, ?_, ?_⟩
    · intro g' hg' hsum
      exact AssetGroup.total_eq_of_exactSum_eq hg hg' hsum
    · intro g' hperm
      exact AssetGroup.total_eq_of_perm hg hperm
  · intro encoder tx blockHash
    constructor
    · intro hoverflow
      constructor
      · rw [Section.ofTx?_eq_overflow_iff]
        exact and_iff_right hoverflow
      · intro hadds
        apply Section.exists_ofTx?_of_not_overflow
        exact fun h => hadds h.2
    · intro hfits
      apply Section.exists_ofTx?_of_not_overflow
      exact fun h => hfits h.1

/-- A group that sends each of the amounts to the first output. -/
def AssetGroup.ofAmounts (amounts : List Int64) : AssetGroup := ⟨5, amounts.map fun a => ⟨0, a⟩⟩

/-- A transaction that assigns the amounts of a group and has no output at all. -/
def Transaction.assigning (version : Int32) (g : AssetGroup) : Transaction where
  version
  inputs := []
  outputs := []
  lockTime := 0
  allocation := [g]

/-- The largest amount and one more: with the loss first it is a total, with the gain first it is
not.  Without a payload a burn runs into the overflow, and an update of an asset does not. -/
theorem totals_exact_and_overflow_samples :
    (AssetGroup.ofAmounts [0x7fffffffffffffff, -1, 1]).total = .ok 0x7fffffffffffffff ∧
    (AssetGroup.ofAmounts [0x7fffffffffffffff, 1, -1]).total = .error .overflow ∧
    (AssetGroup.ofAmounts [1, 0x7fffffffffffffff]).total =
      (AssetGroup.ofAmounts [0x7fffffffffffffff, 1]).total ∧
    (AssetGroup.ofAmounts [3]).total = (AssetGroup.ofAmounts [2, 1]).total ∧
    Section.ofTx? (fun _ => "") (.assigning 134 (.ofAmounts [0x7fffffffffffffff, 1])) none =
      .error .overflow ∧
    (∃ shown, Section.ofTx? (fun _ => "")
      (.assigning 131 (.ofAmounts [0x7fffffffffffffff, 1])) none = .ok shown) ∧
    ∃ shown, Section.ofTx? (fun _ => "") (.assigning 134 (.ofAmounts [2, 1])) none = .ok shown := by
  obtain ⟨htotals, hrendering⟩ := totals_exact_and_overflow
  have hfull : ¬ (AssetGroup.ofAmounts [0x7fffffffffffffff, 1]).PartialSumsFit := by
    intro h
    exact absurd (h 2) (by decide)
  have hoverflows : ∀ version,
      (Transaction.assigning version (.ofAmounts [0x7fffffffffffffff, 1])).Overflows :=
    fun _ => ⟨_, List.mem_singleton_self _, hfull⟩
  refine ⟨?loss, ?gain, ?reordered, ?merged, ?burn, ?update, ?fitting⟩
  case loss =>
    have hfits : (AssetGroup.ofAmounts [0x7fffffffffffffff, -1, 1]).PartialSumsFit := by
      intro k
      match k with
      | 0 => decide
      | 1 => decide
      | 2 => decide
      | k + 3 =>
        rw [List.take_of_length_le (Nat.le_add_left 3 k)]
        decide
    obtain ⟨hexact, -⟩ := htotals (.ofAmounts [0x7fffffffffffffff, -1, 1])
    obtain ⟨total, htotal, hvalue⟩ := hexact hfits
    have hlargest : total = 0x7fffffffffffffff := Int64.toInt_inj.mp hvalue
    rw [htotal, hlargest]
  case gain =>
    obtain ⟨-, hoverflow, -⟩ := htotals (.ofAmounts [0x7fffffffffffffff, 1, -1])
    apply hoverflow
    intro h
    exact absurd (h 2) (by decide)
  case reordered =>
    obtain ⟨-, -, hnonNegative⟩ := htotals (.ofAmounts [0x7fffffffffffffff, 1])
    obtain ⟨-, -, hperm⟩ := hnonNegative (by decide)
    exact hperm _ (.swap _ _ [])
  case merged =>
    obtain ⟨-, -, hnonNegative⟩ := htotals (.ofAmounts [2, 1])
    obtain ⟨-, hsum, -⟩ := hnonNegative (by decide)
    exact hsum _ (by decide) rfl
  case burn =>
    obtain ⟨hoverflow, -⟩ := hrendering (fun _ => "") (.assigning 134 (.ofAmounts _)) none
    exact (hoverflow (hoverflows 134)).1.mpr (.inl (by decide))
  case update =>
    obtain ⟨hoverflow, -⟩ := hrendering (fun _ => "") (.assigning 131 (.ofAmounts _)) none
    apply (hoverflow (hoverflows 131)).2
    rintro (hversion | ⟨-, p, d, hcarries⟩ | ⟨hversion, -⟩)
    · exact absurd hversion (by decide)
    · cases hcarries.payload_eq
    · exact absurd hversion (by decide)
  case fitting =>
    obtain ⟨-, hfits⟩ := hrendering (fun _ => "") (.assigning 134 (.ofAmounts [2, 1])) none
    apply hfits
    rintro ⟨g, hg, hoverflow⟩
    obtain rfl := List.mem_singleton.mp hg
    apply hoverflow
    rw [AssetGroup.partialSumsFit_iff_of_nonNegative (by decide)]
    decide

end UtxoAssets
