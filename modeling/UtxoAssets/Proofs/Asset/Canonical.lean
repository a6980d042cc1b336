import UtxoAssets.Proofs.Asset.Size
import UtxoAssets.Proofs.Payload.Canonical

/-!
# Accepted payloads are encodings

An allocation, a burn or a mint is accepted in one form only.  An asset definition keeps less than
its payload holds at two places: every flag byte but zero is true, and bytes that are no text are
replaced.

* `WireDefinition` — an asset definition with those bytes as they stand in the payload; its decoder
  loses nothing (`WireDefinition.canonical_decoder`), and `AssetDefinition.decoder` gives what it
  reads a meaning (`AssetDefinition.decoder_eq`).
* `WireDefinition.IsPlain` — the flag bytes are zero or one, and the texts are texts.
* `recordDecoders_encode_eq_consumed` — encoding an accepted record gives back the bytes it was
  read from, for an asset definition if these are plain.
-/

set_option autoImplicit false

namespace UtxoAssets

open Decoder

/-! ## Allocations, burns and mints -/

theorem AssetOutput.canonical_decoder :
    AssetOutput.decoder.Canonical AssetOutput.encode fun _ => True := by
  refine canonical_compactSize.bind fun index _ => ?_
  dsimp only
  split
  · exact yields_throw_bind _ _
  · rename_i hindex
    refine (canonical_word Int64).bind fun amount _ => yields_pure ⟨?_, trivial⟩
    have hnat : (UInt32.ofNat index).toNat = index := by
      rw [UInt32.toNat_ofNat']
      exact Nat.mod_eq_of_lt (by omega)
    simp only [AssetOutput.encode, hnat, List.append_nil]

/-- A group is accepted in one form only. The number of its outputs is a size that was read, so it
fits one. -/
theorem AssetGroup.canonical_decoder :
    AssetGroup.decoder.Canonical AssetGroup.encode fun g => Wire.IsLength g.outputs.length := by
  refine (canonical_word UInt32).bind fun asset _ => ?_
  refine AssetOutput.canonical_decoder.counted.bind fun outputs houtputs => ?_
  refine yields_pure ⟨?_, houtputs.1⟩
  simp only [AssetGroup.encode, List.append_nil]

theorem Allocation.canonical_decoder :
    Allocation.decoder.Canonical Allocation.encode Allocation.Fits := by
  refine AssetGroup.canonical_decoder.counted.mono ?_
  rintro front a ⟨rfl, hgroups, houtputs⟩
  exact ⟨rfl, hgroups, houtputs⟩

theorem Burn.canonical_decoder : Burn.decoder.Canonical Burn.encode fun _ => True := by
  refine Allocation.canonical_decoder.bind fun allocation _ => ?_
  refine (canonical_fixed _ 20).bind fun account _ => yields_pure ⟨?_, trivial⟩
  simp only [Burn.encode, List.append_nil]

/-- Both proofs of the mint have a value. -/
structure Mint.Resolves (m : Mint) : Prop where
  tx : ∃ v, m.tx.resolved = .ok v
  receipt : ∃ v, m.receipt.resolved = .ok v

/-- A mint is accepted in one form only, and its two slices have been resolved before it is
returned. -/
theorem Mint.canonical_decoder : Mint.decoder.Canonical Mint.encode Mint.Resolves := by
  refine Allocation.canonical_decoder.bind fun allocation _ => ?_
  refine (canonical_word UInt32).bind fun transferId _ => ?_
  refine (canonical_word UInt32).bind fun blockNumber _ => ?_
  refine canonical_varBytes.bind fun txValue _ => ?_
  refine canonical_varBytes.bind fun txNodes _ => ?_
  refine canonical_varBytes.bind fun txPath _ => ?_
  refine canonical_varBytes.bind fun receiptValue _ => ?_
  refine canonical_varBytes.bind fun receiptNodes _ => ?_
  refine canonical_check.bind fun _ htx => ?_
  refine canonical_check.bind fun _ hreceipt => yields_pure ⟨?_, htx, hreceipt⟩
  simp only [Mint.encode, List.append_assoc, List.append_nil]

/-! ## Asset definitions as they stand in a payload -/

/-- A text field, whatever bytes are in it. -/
def Wire.base64Bytes (bs : Bytes) : Bytes := Wire.varBytes (Base64.encode bs)

/-- Read a text field without making a text of its bytes. -/
def Decoder.base64Bytes (field : String) : Decoder Bytes := do
  let encoded ← varBytes
  match Base64.decode? encoded with
  | some bs => return bs
  | none => throw (@PayloadError.invalidBase64 encoded field)

/-- The part of an activation whose symbol is any bytes. -/
structure WireActivation where
  symbol : Bytes
  maxSupply : Int64
  deriving DecidableEq

/-- The details of a notary whose endpoint is any bytes and whose flags are bytes. -/
structure WireNotary where
  endpoint : Bytes
  instantTransfers : UInt8
  hdRequired : UInt8
  deriving DecidableEq

/-- An asset definition whose texts are any bytes and whose flags are bytes. -/
structure WireDefinition where
  allocation : Allocation
  precision : UInt8
  activation : Option WireActivation
  publicValue : Option Bytes
  contract : Option Bytes
  balance : Option Int64
  notaryKey : Option KeyId
  notary : Option WireNotary
  feeKey : Option KeyId
  feeTiers : Option (List FeeTier)
  capabilityFlags : Option UInt8
  deriving DecidableEq

namespace WireActivation

/-- The bytes that it was read from. -/
def encode (a : WireActivation) : Bytes := Wire.base64Bytes a.symbol ++ Word.toBytes a.maxSupply

/-- Read what only the activation of an asset says, byte by byte. -/
def decoder : Decoder WireActivation := do
  let symbol ← Decoder.base64Bytes "symbol"
  let maxSupply ← Decoder.word Int64
  return ⟨symbol, maxSupply⟩

/-- What those bytes are taken for. -/
def meaning (a : WireActivation) : Activation := ⟨Text.decodeLossy a.symbol, a.maxSupply⟩

end WireActivation

namespace WireNotary

/-- The bytes that it was read from. -/
def encode (n : WireNotary) : Bytes :=
  Wire.base64Bytes n.endpoint ++ [n.instantTransfers, n.hdRequired]

/-- Read the details of a notary, byte by byte. -/
def decoder : Decoder WireNotary := do
  let endpoint ← Decoder.base64Bytes "notary_endpoint"
  let instantTransfers ← Decoder.word UInt8
  let hdRequired ← Decoder.word UInt8
  return ⟨endpoint, instantTransfers, hdRequired⟩

/-- What those bytes are taken for. -/
def meaning (n : WireNotary) : Notary :=
  ⟨Text.decodeLossy n.endpoint, n.instantTransfers != 0, n.hdRequired != 0⟩

end WireNotary

namespace WireDefinition

/-- What the decoder of asset definitions makes of the bytes. -/
def meaning (w : WireDefinition) : AssetDefinition where
  allocation := w.allocation
  precision := w.precision
  activation := w.activation.map WireActivation.meaning
  publicValue := w.publicValue.map Text.decodeLossy
  contract := w.contract
  balance := w.balance
  notaryKey := w.notaryKey
  notary := w.notary.map WireNotary.meaning
  feeKey := w.feeKey
  feeTiers := w.feeTiers
  capabilityFlags := w.capabilityFlags

/-- The bytes that it was read from. -/
def encode (w : WireDefinition) : Bytes :=
  Allocation.encode w.allocation ++ [w.precision, w.meaning.mask]
    ++ AssetDefinition.encodeField WireActivation.encode w.activation
    ++ AssetDefinition.encodeField Wire.base64Bytes w.publicValue
    ++ AssetDefinition.encodeField Wire.varBytes w.contract
    ++ AssetDefinition.encodeField Word.toBytes w.balance
    ++ AssetDefinition.encodeField (fun k => Wire.varBytes k.toBytes) w.notaryKey
    ++ AssetDefinition.encodeField WireNotary.encode w.notary
    ++ AssetDefinition.encodeField (fun k => Wire.varBytes k.toBytes) w.feeKey
    ++ AssetDefinition.encodeField (Wire.counted FeeTier.encode) w.feeTiers
    ++ AssetDefinition.encodeField Word.toBytes w.capabilityFlags

/-- Read an asset definition, byte by byte. -/
def decoder (isActivation : Bool) : Decoder WireDefinition := do
  let allocation ← Allocation.decoder
  let precision ← AssetDefinition.decodePrecision
  let mask ← Decoder.word UInt8
  let activation ← onlyIf isActivation WireActivation.decoder
  let publicValue ← onlyIf (MaskBit.publicValue.isIn mask) (Decoder.base64Bytes "public_value")
  let contract ← onlyIf (MaskBit.contract.isIn mask) varBytes
  let balance ← onlyIf (MaskBit.balance.isIn mask) (word Int64)
  let notaryKey ← onlyIf (MaskBit.notaryKey.isIn mask) (fixed "notary_key_id" 20)
  let notary ← onlyIf (MaskBit.notary.isIn mask) WireNotary.decoder
  let feeKey ← onlyIf (MaskBit.feeKey.isIn mask) (fixed "auxfee_key_id" 20)
  let feeTiers ← onlyIf (MaskBit.feeTiers.isIn mask) (Decoder.counted FeeTier.decoder)
  let capabilityFlags ← onlyIf (MaskBit.capabilityFlags.isIn mask) (word UInt8)
  return {
    allocation, precision, activation, publicValue, contract, balance, notaryKey, notary, feeKey,
    feeTiers, capabilityFlags }

end WireDefinition

/-! ### The meaning of what is read -/

/-- The text of a base64 field is the lossy reading of bytes that are kept nowhere else. -/
theorem Decoder.base64Field_eq (field : String) :
    base64Field field = Text.decodeLossy <$> Decoder.base64Bytes field := by
  unfold base64Field Decoder.base64Bytes
  rw [map_bind]
  congr 1
  funext bs
  cases Base64.decode? bs with
  | some text => rfl
  | none => rfl

theorem Decoder.onlyIf_map {α β : Type} (condition : Bool) (f : α → β) (d : Decoder α) :
    onlyIf condition (f <$> d) = Option.map f <$> onlyIf condition d := by
  unfold onlyIf
  split
  · rw [Functor.map_map, Functor.map_map]
    rfl
  · rw [map_pure]
    rfl

theorem WireActivation.decoder_eq :
    Activation.decoder = WireActivation.meaning <$> WireActivation.decoder := by
  unfold Activation.decoder WireActivation.decoder
  simp only [base64Field_eq, map_bind, bind_map_left, map_pure]
  rfl

theorem WireNotary.decoder_eq :
    Notary.decoder = WireNotary.meaning <$> WireNotary.decoder := by
  unfold Notary.decoder WireNotary.decoder
  have hflag : flag = (· != 0) <$> word UInt8 := rfl
  simp only [base64Field_eq, hflag, map_bind, bind_map_left, map_pure]
  rfl

/-- The definition is what its wire form means, and the wire form is what the decoder sees. -/
theorem AssetDefinition.decoder_eq (isActivation : Bool) :
    AssetDefinition.decoder isActivation =
      WireDefinition.meaning <$> WireDefinition.decoder isActivation := by
  unfold AssetDefinition.decoder WireDefinition.decoder
  simp only [base64Field_eq, WireActivation.decoder_eq, WireNotary.decoder_eq, onlyIf_map,
    map_bind, bind_map_left, map_pure]
  rfl

/-! ### Nothing is lost of what is read -/

theorem Decoder.canonical_base64Bytes (field : String) :
    (Decoder.base64Bytes field).Canonical Wire.base64Bytes fun _ => True := by
  refine canonical_varBytes.bind fun text _ => ?_
  split
  · rename_i bs hbs
    refine yields_pure ⟨?_, trivial⟩
    rw [Wire.base64Bytes, Base64.encode_of_decode? hbs, List.append_nil]
  · exact yields_throw _

/-- A field behind a mask bit is written exactly if it was read. -/
theorem Decoder.Canonical.onlyIf {α : Type} {d : Decoder α} {encode : α → Bytes}
    {Valid : α → Prop} (h : d.Canonical encode Valid) (condition : Bool) :
    (onlyIf condition d).Canonical (AssetDefinition.encodeField encode) fun field =>
      field.isSome = condition ∧ ∀ v ∈ field, Valid v := by
  unfold Decoder.onlyIf
  split
  · rename_i hcond
    rw [map_eq_pure_bind]
    refine h.bind fun v hv => yields_pure ⟨List.append_nil _, hcond.symm, ?_⟩
    rintro _ ⟨⟩
    exact hv
  · rename_i hcond
    refine yields_pure ⟨rfl, (Bool.eq_false_iff.mpr hcond).symm, ?_⟩
    rintro _ ⟨⟩

theorem WireActivation.canonical_decoder :
    WireActivation.decoder.Canonical WireActivation.encode fun _ => True := by
  refine (canonical_base64Bytes _).bind fun symbol _ => ?_
  refine (canonical_word Int64).bind fun maxSupply _ => yields_pure ⟨?_, trivial⟩
  simp only [WireActivation.encode, List.append_nil]

theorem WireNotary.canonical_decoder :
    WireNotary.decoder.Canonical WireNotary.encode fun _ => True := by
  refine (canonical_base64Bytes _).bind fun endpoint _ => ?_
  refine (canonical_word UInt8).bind fun instantTransfers _ => ?_
  refine (canonical_word UInt8).bind fun hdRequired _ => yields_pure ⟨?_, trivial⟩
  simp only [WireNotary.encode, Word.toBytes_uint8, List.append_nil]
  rfl

theorem FeeTier.canonical_decoder :
    FeeTier.decoder.Canonical FeeTier.encode fun _ => True := by
  refine (canonical_word Int64).bind fun bound _ => ?_
  refine (canonical_word UInt16).bind fun percent _ => yields_pure ⟨?_, trivial⟩
  simp only [FeeTier.encode, List.append_nil]

namespace AssetDefinition

theorem canonical_decodePrecision :
    decodePrecision.Canonical (fun precision => [precision]) (· ≤ maxPrecision) := by
  refine (canonical_word UInt8).bind fun precision _ => ?_
  dsimp only
  split
  · exact yields_throw_bind _ _
  · rename_i hle
    refine yields_pure ⟨?_, UInt8.not_lt.mp hle⟩
    rw [Word.toBytes_uint8]
    rfl

/-- What a decoder lets pass, apart from the lengths of texts. -/
structure Accepted (isActivation : Bool) (d : AssetDefinition) : Prop where
  allocation : Allocation.Fits d.allocation
  precision : d.precision ≤ maxPrecision
  activation : d.activation.isSome = isActivation
  contract : ∀ bs ∈ d.contract, Wire.IsLength bs.length
  feeTiers : ∀ ts ∈ d.feeTiers, Wire.IsLength ts.length

/-- A mask is the one that the fields it announces give. -/
theorem mask_eq {d : AssetDefinition} {m : UInt8}
    (hvalue : d.publicValue.isSome = MaskBit.publicValue.isIn m)
    (hcontract : d.contract.isSome = MaskBit.contract.isIn m)
    (hbalance : d.balance.isSome = MaskBit.balance.isIn m)
    (hkey : d.notaryKey.isSome = MaskBit.notaryKey.isIn m)
    (hnotary : d.notary.isSome = MaskBit.notary.isIn m)
    (hfeeKey : d.feeKey.isSome = MaskBit.feeKey.isIn m)
    (htiers : d.feeTiers.isSome = MaskBit.feeTiers.isIn m)
    (hflags : d.capabilityFlags.isSome = MaskBit.capabilityFlags.isIn m) : d.mask = m := by
  unfold mask MaskBit.ofField
  rw [hvalue, hcontract, hbalance, hkey, hnotary, hfeeKey, htiers, hflags]
  have hlt := m.toNat_lt
  have hm : m = UInt8.ofNat m.toNat := UInt8.ofNat_toNat.symm
  rw [hm]
  generalize m.toNat = k at hlt
  revert k
  decide +kernel

end AssetDefinition

/-- Nothing is lost in the wire form: mask, flag bytes and raw texts come back as they were. -/
theorem WireDefinition.canonical_decoder (isActivation : Bool) :
    (WireDefinition.decoder isActivation).Canonical WireDefinition.encode
      fun w => w.meaning.Accepted isActivation := by
  refine Allocation.canonical_decoder.bind fun allocation hallocation => ?_
  refine AssetDefinition.canonical_decodePrecision.bind fun precision hprecision => ?_
  refine (canonical_word UInt8).bind fun mask _ => ?_
  refine (WireActivation.canonical_decoder.onlyIf _).bind fun activation hactivation => ?_
  refine ((canonical_base64Bytes _).onlyIf _).bind fun publicValue hvalue => ?_
  refine (canonical_varBytes.onlyIf _).bind fun contract hcontract => ?_
  refine ((canonical_word Int64).onlyIf _).bind fun balance hbalance => ?_
  refine ((canonical_fixed _ 20).onlyIf _).bind fun notaryKey hkey => ?_
  refine (WireNotary.canonical_decoder.onlyIf _).bind fun notary hnotary => ?_
  refine ((canonical_fixed _ 20).onlyIf _).bind fun feeKey hfeeKey => ?_
  refine (FeeTier.canonical_decoder.counted.onlyIf _).bind fun feeTiers htiers => ?_
  refine ((canonical_word UInt8).onlyIf _).bind fun capabilityFlags hflags => yields_pure ?_
  have hmask : AssetDefinition.mask (WireDefinition.meaning ⟨allocation, precision, activation,
      publicValue, contract, balance, notaryKey, notary, feeKey, feeTiers, capabilityFlags⟩) =
      mask := by
    refine AssetDefinition.mask_eq ?_ hcontract.1 hbalance.1 hkey.1 ?_ hfeeKey.1 htiers.1 hflags.1
    · rw [← hvalue.1]
      exact Option.isSome_map
    · rw [← hnotary.1]
      exact Option.isSome_map
  refine ⟨?_, hallocation, hprecision, ?_, hcontract.2, fun ts hts => (htiers.2 ts hts).1⟩
  · simp only [encode, hmask, Word.toBytes_uint8, List.append_assoc, List.append_nil,
      List.cons_append, List.nil_append]
  · rw [← hactivation.1]
    exact Option.isSome_map

/-! ### Plain bytes -/

/-- The bytes are those of a text. -/
def Text.IsUtf8 (bs : Bytes) : Prop := ∃ s, Text.utf8 s = bs

/-- The flag bytes are zero or one, and every text field holds a text. -/
structure WireDefinition.IsPlain (w : WireDefinition) : Prop where
  symbol : ∀ a ∈ w.activation, Text.IsUtf8 a.symbol
  publicValue : ∀ bs ∈ w.publicValue, Text.IsUtf8 bs
  endpoint : ∀ n ∈ w.notary, Text.IsUtf8 n.endpoint
  instantTransfers : ∀ n ∈ w.notary, n.instantTransfers = 0 ∨ n.instantTransfers = 1
  hdRequired : ∀ n ∈ w.notary, n.hdRequired = 0 ∨ n.hdRequired = 1

/-- Text that is UTF-8 passes through the lossy reading unchanged. -/
theorem Wire.base64Field_decodeLossy {bs : Bytes} (h : Text.IsUtf8 bs) :
    Wire.base64Field (Text.decodeLossy bs) = Wire.base64Bytes bs := by
  obtain ⟨s, rfl⟩ := h
  rw [Text.decodeLossy_utf8]
  rfl

theorem toUInt8_bne_zero {b : UInt8} (h : b = 0 ∨ b = 1) : (b != 0).toUInt8 = b := by
  rcases h with rfl | rfl <;> rfl

theorem WireNotary.encode_meaning {n : WireNotary} (he : Text.IsUtf8 n.endpoint)
    (hi : n.instantTransfers = 0 ∨ n.instantTransfers = 1)
    (hd : n.hdRequired = 0 ∨ n.hdRequired = 1) : n.meaning.encode = n.encode := by
  simp only [Notary.encode, WireNotary.encode, meaning, Wire.base64Field_decodeLossy he,
    toUInt8_bne_zero hi, toUInt8_bne_zero hd]

theorem WireActivation.encode_meaning {a : WireActivation} (h : Text.IsUtf8 a.symbol) :
    a.meaning.encode = a.encode := by
  simp only [Activation.encode, WireActivation.encode, meaning, Wire.base64Field_decodeLossy h]

theorem AssetDefinition.encodeField_map {α β : Type} {f : α → β} {encode : β → Bytes}
    {encode' : α → Bytes} {field : Option α} (h : ∀ v ∈ field, encode (f v) = encode' v) :
    encodeField encode (field.map f) = encodeField encode' field := by
  cases field with
  | none => rfl
  | some v => exact h v rfl

/-- A wire form with plain texts and flags of 0 or 1 is what its meaning is written as. -/
theorem WireDefinition.encode_meaning {w : WireDefinition} (h : w.IsPlain) :
    w.meaning.encode = w.encode := by
  have hactivation := AssetDefinition.encodeField_map fun a ha =>
    WireActivation.encode_meaning (h.symbol a ha)
  have hvalue := AssetDefinition.encodeField_map fun bs hbs =>
    Wire.base64Field_decodeLossy (h.publicValue bs hbs)
  have hnotary := AssetDefinition.encodeField_map fun n hn =>
    WireNotary.encode_meaning (h.endpoint n hn) (h.instantTransfers n hn) (h.hdRequired n hn)
  unfold AssetDefinition.encode WireDefinition.encode
  simp only [meaning, hactivation, hvalue, hnotary]

/-! ### Texts that fit -/

/-- A text grows at most threefold where bytes are replaced. -/
theorem Text.fits_decodeLossy {bs : Bytes} (h : Wire.IsLength (3 * (Base64.encode bs).length)) :
    Text.Fits (Text.decodeLossy bs) := by
  have hlossy := Text.length_utf8_decodeLossy_le bs
  unfold Text.Fits Wire.IsLength at *
  rw [Base64.length_encode] at h ⊢
  omega

open AssetDefinition in
/-- A lossy reading is at most three times as long as the bytes it reads, so its length still
fits. -/
theorem WireDefinition.textsFit_meaning {w : WireDefinition}
    (h : Wire.IsLength (3 * w.encode.length)) : w.meaning.TextsFit := by
  have hfits : ∀ bs : Bytes, (Wire.base64Bytes bs).length ≤ w.encode.length →
      Text.Fits (Text.decodeLossy bs) := by
    intro bs hle
    have htext : _ ≤ (Wire.base64Bytes bs).length := Wire.length_le_varBytes (Base64.encode bs)
    exact Text.fits_decodeLossy (by unfold Wire.IsLength at *; omega)
  unfold encode at hfits
  simp only [List.length_append] at hfits
  refine ⟨?_, ?_, ?_⟩
  · intro a ha
    obtain ⟨a', ha', rfl⟩ := Option.map_eq_some_iff.mp ha
    have hfield := length_encode_le_encodeField WireActivation.encode ha'
    rw [WireActivation.encode, List.length_append] at hfield
    exact hfits a'.symbol (by omega)
  · intro s hs
    obtain ⟨bs, hbs, rfl⟩ := Option.map_eq_some_iff.mp hs
    have hfield := length_encode_le_encodeField Wire.base64Bytes hbs
    exact hfits bs (by omega)
  · intro n hn
    obtain ⟨n', hn', rfl⟩ := Option.map_eq_some_iff.mp hn
    have hfield := length_encode_le_encodeField WireNotary.encode hn'
    rw [WireNotary.encode, List.length_append] at hfield
    exact hfits n'.endpoint (by omega)

/-! ## Re-encoding -/

theorem AssetDefinition.Accepted.fits {isActivation : Bool} {d : AssetDefinition}
    (h : d.Accepted isActivation) (ht : d.TextsFit) : d.Fits :=
  { ht with allocation := h.allocation, contract := h.contract, feeTiers := h.feeTiers }

/-- **Encoding an accepted record gives back the bytes it was read from.**  Of an asset definition
this holds if those bytes are plain.  In any case its encoding is read as the same definition, if 64
bits hold the lengths of its texts, which they do unless the payload itself is near that length. -/
theorem recordDecoders_encode_eq_consumed :
    Allocation.decoder.OneForm Allocation.encode ∧ Burn.decoder.OneForm Burn.encode ∧
    Mint.decoder.OneForm Mint.encode ∧
    ∀ (isActivation : Bool) (p : Bytes) (d : AssetDefinition),
      (AssetDefinition.decoder isActivation).decode p = .ok d →
      (d.TextsFit → (AssetDefinition.decoder isActivation).decode d.encode = .ok d) ∧
      (Wire.IsLength (3 * p.length) → d.TextsFit) ∧
      ∃ w : WireDefinition, (WireDefinition.decoder isActivation).decode p = .ok w ∧
        w.meaning = d ∧ w.encode = (AssetDefinition.decoder isActivation).consumed p ∧
        (w.IsPlain → d.encode = (AssetDefinition.decoder isActivation).consumed p) := by
  refine ⟨Allocation.canonical_decoder.oneForm, Burn.canonical_decoder.oneForm,
    Mint.canonical_decoder.oneForm, ?_⟩
  intro isActivation p d hp
  have heq := AssetDefinition.decoder_eq isActivation
  rw [heq] at hp
  obtain ⟨w, hw, rfl⟩ := decode_map_eq_ok_iff.mp hp
  obtain ⟨hconsumed, haccepted⟩ := (WireDefinition.canonical_decoder isActivation).consumed_eq hw
  have hwire : w.encode = (AssetDefinition.decoder isActivation).consumed p := by
    rw [hconsumed, heq, consumed_map]
  refine ⟨?_, ?_, w, hw, rfl, hwire, ?_⟩
  · intro ht
    have hread := AssetDefinition.reads_decoder (haccepted.fits ht) haccepted.precision
    have hdecode := hread.decode_append []
    rwa [List.append_nil, haccepted.activation] at hdecode
  · intro hlength
    have hle := length_consumed_le (WireDefinition.decoder isActivation) p
    rw [← hconsumed] at hle
    exact WireDefinition.textsFit_meaning (by unfold Wire.IsLength at *; omega)
  · intro hplain
    rw [WireDefinition.encode_meaning hplain, hwire]

/-- The first payload has a flag byte that is neither zero nor one, and is read like the second,
which is plain. -/
theorem recordDecoders_encode_notary :
    (AssetDefinition.decoder false).decode [0, 2, 0x10, 4, 0x61, 0x47, 0x6b, 0x3d, 2, 0] =
      .ok { precision := 2, notary := some ⟨"hi", true, false⟩ } ∧
    AssetDefinition.encode { precision := 2, notary := some ⟨"hi", true, false⟩ } =
      (AssetDefinition.decoder false).consumed [0, 2, 0x10, 4, 0x61, 0x47, 0x6b, 0x3d, 1, 0, 7] ∧
    (AssetDefinition.decoder false).decode
        (AssetDefinition.encode { precision := 2, notary := some ⟨"hi", true, false⟩ }) =
      .ok { precision := 2, notary := some ⟨"hi", true, false⟩ } := by
  obtain ⟨-, -, -, hdefinition⟩ := recordDecoders_encode_eq_consumed
  have hread : (AssetDefinition.decoder false).decode
      [0, 2, 0x10, 4, 0x61, 0x47, 0x6b, 0x3d, 1, 0, 7] =
      .ok { precision := 2, notary := some ⟨"hi", true, false⟩ } := rfl
  obtain ⟨hround, hfits, w, hw, -, -, hplain⟩ := hdefinition false _ _ hread
  refine ⟨rfl, hplain ?_, hround (hfits (by decide))⟩
  have hbytes : (WireDefinition.decoder false).decode
      [0, 2, 0x10, 4, 0x61, 0x47, 0x6b, 0x3d, 1, 0, 7] =
      .ok ⟨[], 2, none, none, none, none, none, some ⟨[0x68, 0x69], 1, 0⟩, none, none, none⟩ := by
    cbv
  rw [hbytes] at hw
  cases hw
  refine ⟨?_, ?_, ?_, ?_, ?_⟩ <;> rintro _ ⟨⟩
  · exact ⟨"hi", rfl⟩
  · exact .inr rfl
  · exact .inl rfl

end UtxoAssets
