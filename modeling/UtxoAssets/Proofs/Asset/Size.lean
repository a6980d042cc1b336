import UtxoAssets.Proofs.Asset.RoundTrip

/-!
# Records whose encoding is not too long

Each length and count that an encoding states counts bytes or items of that encoding, so a record
fits as soon as the length of its encoding is one that 64 bits hold.
-/

set_option autoImplicit false

namespace UtxoAssets

namespace Wire

variable {α : Type} {encode : α → Bytes}

theorem length_le_varBytes (bs : Bytes) : bs.length ≤ (varBytes bs).length := by
  rw [varBytes, List.length_append]
  exact Nat.le_add_left _ _

theorem length_encode_le_flatMap {x : α} {xs : List α} (h : x ∈ xs) :
    (encode x).length ≤ (xs.flatMap encode).length := by
  obtain ⟨before, after, rfl⟩ := List.append_of_mem h
  simp only [List.flatMap_append, List.flatMap_cons, List.length_append]
  omega

/-- An item is not longer than the list it is written in. -/
theorem length_encode_le_counted {x : α} {xs : List α} (h : x ∈ xs) :
    (encode x).length ≤ (counted encode xs).length := by
  have hle : (encode x).length ≤ (xs.flatMap encode).length := length_encode_le_flatMap h
  rw [counted, List.length_append]
  omega

/-- Items that are not empty are not more than the bytes they take. -/
theorem length_le_counted (hpos : ∀ x, encode x ≠ []) (xs : List α) :
    xs.length ≤ (counted encode xs).length := by
  have hle : xs.length ≤ (xs.flatMap encode).length := by
    induction xs with
    | nil => exact Nat.le_refl 0
    | cons x xs ih =>
      have hx := List.length_pos_iff.mpr (hpos x)
      rw [List.flatMap_cons, List.length_append, List.length_cons]
      omega
  rw [counted, List.length_append]
  omega

end Wire

theorem AssetOutput.encode_ne_nil (o : AssetOutput) : o.encode ≠ [] := by
  refine List.ne_nil_of_length_pos ?_
  rw [encode, List.length_append, Word.length_toBytes]
  exact Nat.lt_of_lt_of_le (by decide : 0 < Word.width Int64) (Nat.le_add_left _ _)

theorem AssetGroup.encode_ne_nil (g : AssetGroup) : g.encode ≠ [] := by
  refine List.ne_nil_of_length_pos ?_
  rw [encode, List.length_append, Word.length_toBytes]
  exact Nat.lt_of_lt_of_le (by decide : 0 < Word.width UInt32) (Nat.le_add_right _ _)

theorem FeeTier.encode_ne_nil (t : FeeTier) : t.encode ≠ [] := by
  refine List.ne_nil_of_length_pos ?_
  rw [encode, List.length_append, Word.length_toBytes]
  exact Nat.lt_of_lt_of_le (by decide : 0 < Word.width Int64) (Nat.le_add_right _ _)

theorem Allocation.fits_of_length {a : Allocation} (h : Wire.IsLength (encode a).length) :
    Allocation.Fits a := by
  constructor
  · exact Nat.lt_of_le_of_lt (Wire.length_le_counted AssetGroup.encode_ne_nil a) h
  · intro g hg
    have hgroup : g.encode.length ≤ (encode a).length := Wire.length_encode_le_counted hg
    have houtputs := Wire.length_le_counted AssetOutput.encode_ne_nil g.outputs
    rw [AssetGroup.encode, List.length_append] at hgroup
    omega

/-- A record whose encoding has a length that fits a size has no part whose length does not. -/
theorem Mint.fits_of_length {m : Mint} (h : Wire.IsLength m.encode.length) : m.Fits := by
  simp only [encode, List.length_append] at h
  have hfield : ∀ bs : Bytes, (Wire.varBytes bs).length < 0x10000000000000000 →
      Wire.IsLength bs.length := fun bs hlt => Nat.lt_of_le_of_lt (Wire.length_le_varBytes bs) hlt
  refine ⟨Allocation.fits_of_length (by omega), ?_, ?_, ?_, ?_, ?_⟩
  all_goals
    refine hfield _ ?_
    omega

namespace AssetDefinition

theorem length_encode_le_encodeField {α : Type} (encode : α → Bytes) {field : Option α} {v : α}
    (h : v ∈ field) : (encode v).length ≤ (encodeField encode field).length := by
  cases h
  exact Nat.le_refl _

theorem fits_of_length {d : AssetDefinition} (h : Wire.IsLength d.encode.length) : d.Fits := by
  have htext : ∀ s : String, (Wire.base64Field s).length ≤ d.encode.length → Text.Fits s := by
    intro s hle
    have hs := Wire.length_le_varBytes (Base64.encode (Text.utf8 s))
    rw [Wire.base64Field] at hle
    unfold Text.Fits Wire.IsLength at *
    omega
  unfold encode at h htext
  simp only [List.length_append] at h htext
  refine ⟨⟨?activation, ?publicValue, ?notary⟩, ?allocation, ?contract, ?feeTiers⟩
  case activation =>
    intro a ha
    have hfield := length_encode_le_encodeField Activation.encode ha
    rw [Activation.encode, List.length_append] at hfield
    exact htext a.symbol (by omega)
  case publicValue =>
    intro s hs
    have hfield := length_encode_le_encodeField Wire.base64Field hs
    exact htext s (by omega)
  case notary =>
    intro n hn
    have hfield := length_encode_le_encodeField Notary.encode hn
    rw [Notary.encode, List.length_append] at hfield
    exact htext n.endpoint (by omega)
  case allocation =>
    exact Allocation.fits_of_length (by omega)
  case contract =>
    intro bs hbs
    have hfield := length_encode_le_encodeField Wire.varBytes hbs
    have hle := Wire.length_le_varBytes bs
    omega
  case feeTiers =>
    intro ts hts
    have hfield := length_encode_le_encodeField (Wire.counted FeeTier.encode) hts
    have hle := Wire.length_le_counted FeeTier.encode_ne_nil ts
    omega

end AssetDefinition

end UtxoAssets
