import UtxoAssets.Asset.Burn
import UtxoAssets.Asset.Definition
import UtxoAssets.Asset.Mint
import UtxoAssets.Proofs.Payload.Reading

/-!
# Records are read back from their encodings

Encoder and decoder of each record list the same fields in the same order, and each field is read
back by the lemma for its kind.  What remains is that the mask of an asset definition announces
exactly the fields that are there (`AssetDefinition.isIn_mask`).

* `Fits` predicates say that the lengths a record has to state are lengths that 64 bits hold.
* `recordDecoders_decode_encode_append` — decoding undoes encoding for every record, with any bytes
  behind it.
-/

set_option autoImplicit false

namespace UtxoAssets

open Decoder

/-! ## Allocations, burns and mints -/

/-- The numbers of groups and of outputs can be written as lengths. -/
structure Allocation.Fits (a : Allocation) : Prop where
  groups : Wire.IsLength a.length
  outputs : ∀ g ∈ a, Wire.IsLength g.outputs.length

/-- The numbers and the byte strings of a mint can be written with their lengths. -/
structure Mint.Fits (m : Mint) : Prop where
  allocation : Allocation.Fits m.allocation
  txValue : Wire.IsLength m.tx.value.length
  txNodes : Wire.IsLength m.tx.parentNodes.length
  txPath : Wire.IsLength m.txPath.length
  receiptValue : Wire.IsLength m.receipt.value.length
  receiptNodes : Wire.IsLength m.receipt.parentNodes.length

theorem AssetOutput.reads_decoder (o : AssetOutput) :
    AssetOutput.decoder.Reads o.encode o := by
  have hindex := o.index.toNat_lt
  refine (reads_compactSize (by omega)).bind ?_
  dsimp only
  rw [if_neg (by omega), UInt32.ofNat_toNat]
  exact (reads_word o.amount).bind_pure (AssetOutput.mk o.index)

theorem AssetGroup.reads_decoder {g : AssetGroup} (h : Wire.IsLength g.outputs.length) :
    AssetGroup.decoder.Reads g.encode g := by
  have houtputs := reads_counted h fun o _ => AssetOutput.reads_decoder o
  exact (reads_word g.asset).bind (houtputs.bind_pure (AssetGroup.mk g.asset))

/-- The decoder reads the encoding of an allocation back, whatever follows it. -/
theorem Allocation.reads_decoder {a : Allocation} (h : Allocation.Fits a) :
    Allocation.decoder.Reads (Allocation.encode a) a :=
  reads_counted h.groups fun g hg => AssetGroup.reads_decoder (h.outputs g hg)

theorem Burn.reads_decoder {b : Burn} (h : Allocation.Fits b.allocation) :
    Burn.decoder.Reads b.encode b := by
  have haccount := reads_fixed "ethereum_destination" b.account (by decide)
  exact (Allocation.reads_decoder h).bind (haccount.bind_pure (Burn.mk b.allocation))

/-- A mint is read back if its two slices can be resolved, since the decoder resolves them
itself. -/
theorem Mint.reads_decoder {m : Mint} (h : m.Fits) {txValue receiptValue : Bytes}
    (htx : m.tx.resolved = .ok txValue) (hreceipt : m.receipt.resolved = .ok receiptValue) :
    Mint.decoder.Reads m.encode m := by
  -- The two checks read nothing; they are the last two of the pieces.
  rw [← List.append_nil m.encode, ← List.append_nil []]
  simp only [Mint.encode, List.append_assoc]
  refine (Allocation.reads_decoder h.allocation).bind ?_
  refine (reads_word m.transferId).bind ?_
  refine (reads_word m.blockNumber).bind ?_
  refine (reads_varBytes h.txValue).bind ?_
  refine (reads_varBytes h.txNodes).bind ?_
  refine (reads_varBytes h.txPath).bind ?_
  refine (reads_varBytes h.receiptValue).bind ?_
  refine (reads_varBytes h.receiptNodes).bind ?_
  exact (reads_check htx).bind ((reads_check hreceipt).bind_pure fun _ => m)

/-! ## Masks -/

namespace MaskBit

theorem isIn_or (bit : MaskBit) (m m' : UInt8) :
    bit.isIn (m ||| m') = (bit.isIn m || bit.isIn m') := by
  have h : (m ||| m') &&& bit.value = (m &&& bit.value) ||| (m' &&& bit.value) :=
    UInt8.toBitVec_inj.mp BitVec.and_or_distrib_right
  rw [Bool.eq_iff_iff]
  simp only [isIn, h, bne_iff_ne, ne_eq, UInt8.or_eq_zero_iff, Bool.or_eq_true]
  exact Classical.not_and_iff_not_or_not

theorem isIn_value (bit bit' : MaskBit) : bit.isIn bit'.value = decide (bit = bit') := by
  cases bit <;> cases bit' <;> decide

/-- A field adds to the mask its own bit and no other. -/
theorem isIn_ofField {α : Type} (bit bit' : MaskBit) (field : Option α) :
    bit.isIn (bit'.ofField field) = (decide (bit = bit') && field.isSome) := by
  cases field with
  | none =>
    have h : bit.isIn 0 = false := by cases bit <;> decide
    simp [ofField, h]
  | some value => simp [ofField, isIn_value]

end MaskBit

/-! ## Asset definitions -/

/-- The base64 form of a text has a length that 64 bits hold. -/
abbrev Text.Fits (s : String) : Prop := Wire.IsLength (Base64.encode (Text.utf8 s)).length

/-- The texts of a definition can be written with their lengths. -/
structure AssetDefinition.TextsFit (d : AssetDefinition) : Prop where
  activation : ∀ a ∈ d.activation, Text.Fits a.symbol
  publicValue : ∀ s ∈ d.publicValue, Text.Fits s
  notary : ∀ n ∈ d.notary, Text.Fits n.endpoint

/-- Everything in a definition that has a length can be written with it. -/
structure AssetDefinition.Fits (d : AssetDefinition) : Prop extends d.TextsFit where
  allocation : Allocation.Fits d.allocation
  contract : ∀ bs ∈ d.contract, Wire.IsLength bs.length
  feeTiers : ∀ ts ∈ d.feeTiers, Wire.IsLength ts.length

theorem FeeTier.reads_decoder (t : FeeTier) : FeeTier.decoder.Reads t.encode t :=
  (reads_word t.bound).bind ((reads_word t.percent).bind_pure (FeeTier.mk t.bound))

theorem Notary.reads_decoder {n : Notary} (h : Text.Fits n.endpoint) :
    Notary.decoder.Reads n.encode n := by
  refine (reads_base64Field "notary_endpoint" h).bind ?_
  refine Reads.bind (f := [n.instantTransfers.toUInt8]) (reads_flag _) ?_
  exact (reads_flag n.hdRequired).bind_pure (Notary.mk n.endpoint n.instantTransfers)

theorem Activation.reads_decoder {a : Activation} (h : Text.Fits a.symbol) :
    Activation.decoder.Reads a.encode a :=
  (reads_base64Field "symbol" h).bind ((reads_word a.maxSupply).bind_pure (Activation.mk a.symbol))

namespace AssetDefinition

/-- A field behind its mask bit is read back if the bit says whether it is there. -/
theorem reads_onlyIf {α : Type} {d : Decoder α} {encode : α → Bytes} {field : Option α}
    {condition : Bool} (hcond : condition = field.isSome)
    (h : ∀ v ∈ field, d.Reads (encode v) v) :
    (onlyIf condition d).Reads (encodeField encode field) field := by
  subst hcond
  cases field with
  | none => exact reads_pure none
  | some v => exact (h v rfl).map some

theorem reads_decodePrecision {precision : UInt8} (h : precision ≤ maxPrecision) :
    decodePrecision.Reads [precision] precision := by
  rw [← List.append_nil [precision]]
  refine (reads_byte precision).bind ?_
  dsimp only
  rw [if_neg (UInt8.not_lt.mpr h)]
  exact reads_pure precision

/-- The mask announces the fields that are there, each by its own bit. -/
theorem isIn_mask (d : AssetDefinition) :
    MaskBit.publicValue.isIn d.mask = d.publicValue.isSome ∧
    MaskBit.contract.isIn d.mask = d.contract.isSome ∧
    MaskBit.balance.isIn d.mask = d.balance.isSome ∧
    MaskBit.notaryKey.isIn d.mask = d.notaryKey.isSome ∧
    MaskBit.notary.isIn d.mask = d.notary.isSome ∧
    MaskBit.feeKey.isIn d.mask = d.feeKey.isSome ∧
    MaskBit.feeTiers.isIn d.mask = d.feeTiers.isSome ∧
    MaskBit.capabilityFlags.isIn d.mask = d.capabilityFlags.isSome := by
  simp [mask, MaskBit.isIn_or, MaskBit.isIn_ofField]

/-- A definition is read back if its precision is one the decoder lets pass. -/
theorem reads_decoder {d : AssetDefinition} (h : d.Fits) (hp : d.precision ≤ 8) :
    (decoder d.activation.isSome).Reads d.encode d := by
  obtain ⟨hvalue, hcontract, hbalance, hkey, hnotary, hfeeKey, htiers, hflags⟩ := d.isIn_mask
  have hhead : [d.precision, d.mask] = [d.precision] ++ [d.mask] := rfl
  simp only [encode, hhead, List.append_assoc]
  refine (Allocation.reads_decoder h.allocation).bind ?_
  refine (reads_decodePrecision hp).bind ?_
  refine (reads_byte d.mask).bind ?_
  refine (reads_onlyIf rfl fun a ha => Activation.reads_decoder (h.activation a ha)).bind ?_
  refine (reads_onlyIf hvalue fun s hs => reads_base64Field _ (h.publicValue s hs)).bind ?_
  refine (reads_onlyIf hcontract fun bs hbs => reads_varBytes (h.contract bs hbs)).bind ?_
  refine (reads_onlyIf hbalance fun x _ => reads_word x).bind ?_
  refine (reads_onlyIf hkey fun k _ => reads_fixed _ k (by decide)).bind ?_
  refine (reads_onlyIf hnotary fun n hn => Notary.reads_decoder (h.notary n hn)).bind ?_
  refine (reads_onlyIf hfeeKey fun k _ => reads_fixed _ k (by decide)).bind ?_
  refine (reads_onlyIf htiers fun ts hts =>
    reads_counted (h.feeTiers ts hts) fun t _ => FeeTier.reads_decoder t).bind ?_
  exact (reads_onlyIf hflags fun x _ => reads_word x).bind_pure fun flags =>
    { d with capabilityFlags := flags }

end AssetDefinition

/-- **Decoding undoes encoding, with anything behind it.** -/
theorem recordDecoders_decode_encode_append :
    (∀ (a : Allocation) (t : Bytes), Allocation.Fits a →
      Allocation.decoder.decode (Allocation.encode a ++ t) = .ok a) ∧
    (∀ (b : Burn) (t : Bytes), Allocation.Fits b.allocation →
      Burn.decoder.decode (b.encode ++ t) = .ok b) ∧
    (∀ (m : Mint) (t : Bytes), m.Fits → (∃ v, m.tx.resolved = .ok v) →
      (∃ v, m.receipt.resolved = .ok v) → Mint.decoder.decode (m.encode ++ t) = .ok m) ∧
    (∀ (d : AssetDefinition) (t : Bytes), d.Fits → d.precision ≤ 8 →
      (AssetDefinition.decoder d.activation.isSome).decode (d.encode ++ t) = .ok d) := by
  refine ⟨?_, ?_, ?_, ?_⟩
  · intro a t h
    exact (Allocation.reads_decoder h).decode_append t
  · intro b t h
    exact (Burn.reads_decoder h).decode_append t
  · rintro m t h ⟨_, htx⟩ ⟨_, hreceipt⟩
    exact (Mint.reads_decoder h htx hreceipt).decode_append t
  · intro d t h hp
    exact (AssetDefinition.reads_decoder h hp).decode_append t

/-- Two outputs of one asset; the index of the second takes three bytes. -/
def Allocation.sample : Allocation := [⟨5, [⟨0, 1000⟩, ⟨300, -1⟩]⟩]

/-- A burn to an account of twenty equal bytes. -/
def Burn.sample : Burn := ⟨Allocation.sample, FixedBytes.replicate 20 0xab⟩

/-- The transaction is given by an offset into its nodes, the receipt by itself. -/
def Mint.sample : Mint where
  allocation := Allocation.sample
  transferId := 1
  blockNumber := 2
  tx := ⟨[0, 1], [0x80, 0x81]⟩
  txPath := [0x80]
  receipt := ⟨[1, 2, 3], []⟩

/-- An activation with three of the optional fields. -/
def AssetDefinition.sample : AssetDefinition where
  allocation := Allocation.sample
  precision := 8
  activation := some ⟨"GOLD", 100⟩
  publicValue := some "one"
  notary := some ⟨"n.io", true, false⟩
  feeTiers := some [⟨0, 1⟩, ⟨100, 20⟩]

theorem recordDecoders_decode_encode_sample :
    Allocation.decoder.decode (Allocation.encode Allocation.sample ++ [0xff]) =
      .ok Allocation.sample ∧
    Burn.decoder.decode (Burn.sample.encode ++ [0xff]) = .ok Burn.sample ∧
    Mint.decoder.decode (Mint.sample.encode ++ [0xff]) = .ok Mint.sample ∧
    (AssetDefinition.decoder true).decode (AssetDefinition.sample.encode ++ [0xff]) =
      .ok AssetDefinition.sample := by
  obtain ⟨hallocation, hburn, hmint, hdefinition⟩ := recordDecoders_decode_encode_append
  have hfits : Allocation.Fits Allocation.sample := ⟨by decide, by decide⟩
  refine ⟨hallocation _ _ hfits, hburn _ _ hfits, ?_, ?_⟩
  · have htx : Mint.sample.tx.resolved = .ok [0x81] := by cbv
    have hreceipt : Mint.sample.receipt.resolved = .ok [1, 2, 3] := rfl
    refine hmint Mint.sample [0xff] ⟨hfits, ?_, ?_, ?_, ?_, ?_⟩ ⟨_, htx⟩ ⟨_, hreceipt⟩
    all_goals decide
  · have htexts : AssetDefinition.sample.TextsFit := ⟨by decide, by decide, by decide⟩
    refine hdefinition AssetDefinition.sample [0xff] ⟨htexts, hfits, ?_, ?_⟩ ?_
    all_goals decide

end UtxoAssets
