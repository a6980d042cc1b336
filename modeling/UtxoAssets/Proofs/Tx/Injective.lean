import UtxoAssets.Proofs.Wire.SelfDelimiting
import UtxoAssets.Tx.Encoding

/-!
# The wire form of a transaction determines it

The parts of a wire form tell where they end, so two equal forms are taken apart side by side.

* `Transaction.SameStripped` — agreement in all that the stripped form shows.
* `Transaction.encodeRow` — what follows the version in either form, which differs only in a marker
  and in the witness stacks.
* `Transaction.not_marked_row` — the marker is the count of no inputs, so a transaction that has
  inputs is never taken for one with witnesses.
* `Transaction.sameFields_of_encode_eq` — equal stripped forms agree in all fields that they show,
  equal full forms in the witnesses too, and equal ids without that come from a collision of the
  digest.
-/

set_option autoImplicit false

namespace UtxoAssets

open Wire

/-- Two messages with one digest. -/
def Digest.Collide (a b : Bytes) : Prop := a ≠ b ∧ sha256 a = sha256 b

/-- Two messages whose doubled digests agree are equal, or collide in the first pass, or their
digests collide in the second. -/
theorem Digest.eq_or_collide {a b : Bytes} (h : doubleSha256 a = doubleSha256 b) :
    a = b ∨ Collide a b ∨ Collide (sha256 a).toBytes (sha256 b).toBytes := by
  by_cases hab : a = b
  · exact .inl hab
  by_cases hdigest : sha256 a = sha256 b
  · exact .inr (.inl ⟨hab, hdigest⟩)
  · exact .inr (.inr ⟨fun hbytes => hdigest (FixedBytes.ext hbytes), h⟩)

/-! ## Inputs and outputs -/

namespace TxInput

/-- An input as it stands in the row of inputs, which holds no witnesses. -/
def bare (i : TxInput) : TxInput := { i with witness := [] }

/-- The byte strings of an input can be written with their lengths. -/
structure Fits (i : TxInput) : Prop where
  script : IsLength i.script.length
  stack : IsLength i.witness.length
  items : ∀ item ∈ i.witness, IsLength item.length

instance (i : TxInput) : Decidable i.Fits :=
  decidable_of_iff (IsLength i.script.length ∧ IsLength i.witness.length ∧
      ∀ item ∈ i.witness, IsLength item.length)
    ⟨fun ⟨script, stack, items⟩ => ⟨script, stack, items⟩,
      fun h => ⟨h.script, h.stack, h.items⟩⟩

theorem selfDelimiting_encode :
    SelfDelimiting encode fun i => IsLength i.script.length ∧ i.witness = [] := by
  rintro ⟨⟨txid, index⟩, script, sequence, _⟩ ⟨⟨txid', index'⟩, script', sequence', _⟩ t u
    ⟨hscript, rfl⟩ ⟨hscript', rfl⟩ heq
  simp only [encode, OutPoint.encode, List.append_assoc] at heq
  obtain ⟨rfl, hindex⟩ := selfDelimiting_fixedBytes 32 trivial trivial heq
  obtain ⟨rfl, hscripts⟩ := selfDelimiting_word UInt32 trivial trivial hindex
  obtain ⟨rfl, hsequence⟩ := selfDelimiting_varBytes hscript hscript' hscripts
  obtain ⟨rfl, rfl⟩ := selfDelimiting_word UInt32 trivial trivial hsequence
  exact ⟨rfl, rfl⟩

end TxInput

theorem TxOutput.selfDelimiting_encode :
    SelfDelimiting TxOutput.encode fun o => IsLength o.script.length := by
  rintro ⟨value, script⟩ ⟨value', script'⟩ t u hscript hscript' heq
  simp only [encode, List.append_assoc] at heq
  obtain ⟨rfl, hscripts⟩ := selfDelimiting_word Int64 trivial trivial heq
  obtain ⟨rfl, rfl⟩ := selfDelimiting_varBytes hscript hscript' hscripts
  exact ⟨rfl, rfl⟩

/-! ## Transactions -/

namespace Transaction

/-- The lengths that a transaction states are lengths that 64 bits hold. -/
structure Fits (tx : Transaction) : Prop where
  inputCount : IsLength tx.inputs.length
  inputs : ∀ i ∈ tx.inputs, i.Fits
  outputCount : IsLength tx.outputs.length
  outputs : ∀ o ∈ tx.outputs, IsLength o.script.length
  extraPayload : IsLength tx.extraPayload.length

instance (tx : Transaction) : Decidable tx.Fits :=
  decidable_of_iff (IsLength tx.inputs.length ∧ (∀ i ∈ tx.inputs, i.Fits) ∧
      IsLength tx.outputs.length ∧ (∀ o ∈ tx.outputs, IsLength o.script.length) ∧
      IsLength tx.extraPayload.length)
    ⟨fun ⟨inputCount, inputs, outputCount, outputs, extraPayload⟩ =>
        ⟨inputCount, inputs, outputCount, outputs, extraPayload⟩,
      fun h => ⟨h.inputCount, h.inputs, h.outputCount, h.outputs, h.extraPayload⟩⟩

/-- Agreement in all that the stripped form shows; the extra payload is part of it in a masternode
record only. -/
structure SameStripped (t₁ t₂ : Transaction) : Prop where
  version : t₁.version = t₂.version
  inputs : t₁.inputs.map TxInput.bare = t₂.inputs.map TxInput.bare
  outputs : t₁.outputs = t₂.outputs
  lockTime : t₁.lockTime = t₂.lockTime
  extraPayload : t₁.kind.isMasternode → t₁.extraPayload = t₂.extraPayload

/-- The witness stack of every input. -/
def witnesses (tx : Transaction) : List (List Bytes) := tx.inputs.map TxInput.witness

/-- A wire form from its inputs on, with the given witness stacks. -/
def encodeRow (witnesses : List (List Bytes)) (tx : Transaction) : Bytes :=
  counted TxInput.encode (tx.inputs.map TxInput.bare) ++ (counted TxOutput.encode tx.outputs ++
    (witnesses.flatMap (counted varBytes) ++ (Word.toBytes tx.lockTime ++ tx.encodeExtra)))

theorem counted_bare (tx : Transaction) :
    counted TxInput.encode (tx.inputs.map TxInput.bare) = counted TxInput.encode tx.inputs := by
  rw [counted, counted, List.length_map, List.flatMap_map]
  rfl

theorem encodeWitnesses_eq (tx : Transaction) :
    tx.encodeWitnesses = tx.witnesses.flatMap (counted varBytes) := by
  rw [encodeWitnesses, witnesses, List.flatMap_map]
  rfl

theorem encode_stripped (tx : Transaction) :
    tx.encode .stripped = Word.toBytes tx.version ++ tx.encodeRow [] := by
  rw [encode, encodeRow, counted_bare]
  simp

theorem encode_full_of_hasWitness {tx : Transaction} (h : tx.hasWitness) :
    tx.encode .full =
      Word.toBytes tx.version ++ (witnessMarker ++ tx.encodeRow tx.witnesses) := by
  rw [encode, encodeRow, counted_bare, encodeWitnesses_eq]
  simp [h]

theorem encode_full_of_not_hasWitness {tx : Transaction} (h : ¬ tx.hasWitness) :
    tx.encode .full = tx.encode .stripped := by
  rw [encode_stripped, encode, encodeRow, counted_bare]
  simp [h]

theorem witnesses_of_not_hasWitness {tx : Transaction} (h : ¬ tx.hasWitness) :
    tx.witnesses = List.replicate tx.inputs.length [] := by
  rw [witnesses, List.map_eq_replicate_iff]
  intro i hi
  have hany : ∀ i ∈ tx.inputs, i.hasWitness = false := by simpa [hasWitness] using h
  simpa [TxInput.hasWitness] using hany i hi

theorem Fits.witnesses {tx : Transaction} (h : tx.Fits) :
    ∀ stack ∈ tx.witnesses, IsLength stack.length ∧ ∀ item ∈ stack, IsLength item.length := by
  intro stack hstack
  obtain ⟨i, hi, rfl⟩ := List.mem_map.mp hstack
  exact ⟨(h.inputs i hi).stack, (h.inputs i hi).items⟩

theorem Fits.bareInputs {tx : Transaction} (h : tx.Fits) :
    IsLength (tx.inputs.map TxInput.bare).length ∧
      ∀ i ∈ tx.inputs.map TxInput.bare, IsLength i.script.length ∧ i.witness = [] := by
  refine ⟨by simpa using h.inputCount, fun i hi => ?_⟩
  obtain ⟨j, hj, rfl⟩ := List.mem_map.mp hi
  exact ⟨(h.inputs j hj).script, rfl⟩

/-- The marker says that there are no inputs. -/
theorem not_marked_row {tx : Transaction} (h : tx.Fits) (hinputs : tx.inputs ≠ []) {row : Bytes} :
    witnessMarker ++ row ≠ tx.encodeRow [] := by
  intro heq
  have hmarker : witnessMarker = compactSize 0 ++ [0x01] := rfl
  have hzero : IsLength 0 := by decide
  unfold encodeRow at heq
  unfold counted at heq
  rw [hmarker, List.append_assoc, List.append_assoc (compactSize (tx.inputs.map _).length)] at heq
  obtain ⟨hcount, -⟩ := selfDelimiting_compactSize hzero h.bareInputs.1 heq
  rw [List.length_map] at hcount
  exact hinputs (List.length_eq_zero_iff.mp hcount.symm)

section Pair

variable {t₁ t₂ : Transaction} (h₁ : t₁.Fits) (h₂ : t₂.Fits)

include h₁ h₂

/-- Equal rows agree in every part, if the stacks in them are as many. -/
theorem sameStripped_of_encodeRow_eq {witnesses₁ witnesses₂ : List (List Bytes)}
    (hversion : t₁.version = t₂.version)
    (hcount : t₁.inputs.length = t₂.inputs.length → witnesses₁.length = witnesses₂.length)
    (hs₁ : witnesses₁ ⊆ t₁.witnesses) (hs₂ : witnesses₂ ⊆ t₂.witnesses)
    (heq : t₁.encodeRow witnesses₁ = t₂.encodeRow witnesses₂) :
    t₁.SameStripped t₂ ∧ witnesses₁ = witnesses₂ := by
  unfold encodeRow at heq
  obtain ⟨hinputs, hrest⟩ :=
    TxInput.selfDelimiting_encode.counted h₁.bareInputs h₂.bareInputs heq
  obtain ⟨houtputs, hrest⟩ := TxOutput.selfDelimiting_encode.counted
    ⟨h₁.outputCount, h₁.outputs⟩ ⟨h₂.outputCount, h₂.outputs⟩ hrest
  have hlength : t₁.inputs.length = t₂.inputs.length := by
    simpa using congrArg List.length hinputs
  obtain ⟨hwitnesses, hrest⟩ := selfDelimiting_varBytes.counted.flatMap (hcount hlength)
    (fun stack hstack => h₁.witnesses stack (hs₁ hstack))
    (fun stack hstack => h₂.witnesses stack (hs₂ hstack)) hrest
  obtain ⟨hlockTime, hextra⟩ := selfDelimiting_word UInt32 trivial trivial hrest
  refine ⟨⟨hversion, hinputs, houtputs, hlockTime, fun hmasternode => ?_⟩, hwitnesses⟩
  have hkind : t₂.kind = t₁.kind := by rw [kind, kind, hversion]
  rw [encodeExtra, encodeExtra, hkind, if_pos hmasternode, if_pos hmasternode,
    ← List.append_nil (varBytes t₁.extraPayload),
    ← List.append_nil (varBytes t₂.extraPayload)] at hextra
  exact (selfDelimiting_varBytes h₁.extraPayload h₂.extraPayload hextra).1

/-- The stripped form determines its fields, one after the other from the front. -/
theorem sameStripped_of_stripped_eq (heq : t₁.encode .stripped = t₂.encode .stripped) :
    t₁.SameStripped t₂ := by
  rw [encode_stripped, encode_stripped] at heq
  obtain ⟨hversion, hrow⟩ := selfDelimiting_word Int32 trivial trivial heq
  exact (sameStripped_of_encodeRow_eq h₁ h₂ hversion (fun _ => rfl) (List.nil_subset _)
    (List.nil_subset _) hrow).1

/-- With an input on either side the marker cannot be taken for a count of inputs. -/
theorem sameWitnesses_of_full_eq (hne₁ : t₁.inputs ≠ []) (hne₂ : t₂.inputs ≠ [])
    (heq : t₁.encode .full = t₂.encode .full) :
    t₁.SameStripped t₂ ∧ t₁.witnesses = t₂.witnesses := by
  by_cases hw₁ : t₁.hasWitness
  · rw [encode_full_of_hasWitness hw₁] at heq
    by_cases hw₂ : t₂.hasWitness
    · rw [encode_full_of_hasWitness hw₂] at heq
      obtain ⟨hversion, hrow⟩ := selfDelimiting_word Int32 trivial trivial heq
      refine sameStripped_of_encodeRow_eq h₁ h₂ hversion ?_ (List.Subset.refl _)
        (List.Subset.refl _) (List.append_cancel_left hrow)
      rw [witnesses, witnesses, List.length_map, List.length_map]
      exact fun hlength => hlength
    · rw [encode_full_of_not_hasWitness hw₂, encode_stripped] at heq
      exact absurd (selfDelimiting_word Int32 trivial trivial heq).2 (not_marked_row h₂ hne₂)
  · rw [encode_full_of_not_hasWitness hw₁] at heq
    by_cases hw₂ : t₂.hasWitness
    · rw [encode_full_of_hasWitness hw₂, encode_stripped] at heq
      exact absurd (selfDelimiting_word Int32 trivial trivial heq.symm).2 (not_marked_row h₁ hne₁)
    · rw [encode_full_of_not_hasWitness hw₂] at heq
      have hsame := sameStripped_of_stripped_eq h₁ h₂ heq
      have hlength : t₁.inputs.length = t₂.inputs.length := by
        simpa using congrArg List.length hsame.inputs
      refine ⟨hsame, ?_⟩
      rw [witnesses_of_not_hasWitness hw₁, witnesses_of_not_hasWitness hw₂, hlength]

end Pair

/-- **The wire form of a transaction determines it.**  Equal stripped forms agree in all that they
show.  Equal full forms of transactions with inputs agree in the witness stacks too.  Transactions
that share an id without agreeing exhibit a collision, of their stripped forms or of the digests of
these. -/
theorem sameFields_of_encode_eq :
    (∀ t₁ t₂ : Transaction, t₁.Fits → t₂.Fits →
      t₁.encode .stripped = t₂.encode .stripped → t₁.SameStripped t₂) ∧
    (∀ t₁ t₂ : Transaction, t₁.Fits → t₂.Fits → t₁.inputs ≠ [] → t₂.inputs ≠ [] →
      t₁.encode .full = t₂.encode .full →
      t₁.SameStripped t₂ ∧ t₁.inputs.map TxInput.witness = t₂.inputs.map TxInput.witness) ∧
    (∀ t₁ t₂ : Transaction, t₁.Fits → t₂.Fits → t₁.id = t₂.id →
      t₁.SameStripped t₂ ∨
      Digest.Collide (t₁.encode .stripped) (t₂.encode .stripped) ∨
      Digest.Collide (Digest.sha256 (t₁.encode .stripped)).toBytes
        (Digest.sha256 (t₂.encode .stripped)).toBytes) := by
  refine ⟨?stripped, ?full, ?id⟩
  case stripped =>
    intro t₁ t₂ h₁ h₂ heq
    exact sameStripped_of_stripped_eq h₁ h₂ heq
  case full =>
    intro t₁ t₂ h₁ h₂ hne₁ hne₂ heq
    exact sameWitnesses_of_full_eq h₁ h₂ hne₁ hne₂ heq
  case id =>
    intro t₁ t₂ h₁ h₂ hid
    rcases Digest.eq_or_collide hid with heq | hcollide
    · exact .inl (sameStripped_of_stripped_eq h₁ h₂ heq)
    · exact .inr hcollide

/-- A plain transfer with one input; its extra payload is not part of any wire form. -/
def sample (witness : List Bytes) (extraPayload : Bytes) : Transaction where
  version := 2
  inputs := [⟨⟨FixedBytes.replicate 32 0x11, 1⟩, [0x51], 0xffffffff, witness⟩]
  outputs := [⟨5000, [0x6a, 0x01, 0xaa]⟩]
  lockTime := 7
  extraPayload := extraPayload

theorem sameFields_of_sample :
    (sample [[0xaa, 0xbb], []] []).SameStripped (sample [] [0x01]) ∧
    (sample [[0xaa, 0xbb], []] []).SameStripped (sample [[0xaa, 0xbb], []] [0x01]) ∧
    (sample [[0xaa, 0xbb], []] []).inputs.map TxInput.witness =
      (sample [[0xaa, 0xbb], []] [0x01]).inputs.map TxInput.witness ∧
    ((sample [[0xaa]] []).SameStripped (sample [] []) ∨
      Digest.Collide ((sample [[0xaa]] []).encode .stripped) ((sample [] []).encode .stripped) ∨
      Digest.Collide (Digest.sha256 ((sample [[0xaa]] []).encode .stripped)).toBytes
        (Digest.sha256 ((sample [] []).encode .stripped)).toBytes) := by
  obtain ⟨hstripped, hfull, hid⟩ := sameFields_of_encode_eq
  have hplain : (sample [[0xaa, 0xbb], []] []).Fits := by decide
  have hextra : (sample [[0xaa, 0xbb], []] [0x01]).Fits := by decide
  refine ⟨hstripped _ _ hplain (by decide) rfl, ?_⟩
  obtain ⟨hsame, hwitnesses⟩ := hfull _ _ hplain hextra (by decide) (by decide) rfl
  refine ⟨hsame, hwitnesses, hid _ _ (by decide) (by decide) ?_⟩
  have hencode : (sample [[0xaa]] []).encode .stripped = (sample [] []).encode .stripped := rfl
  rw [id, id, hencode]

end Transaction

end UtxoAssets
