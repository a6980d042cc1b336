import UtxoAssets.Proofs.Tx.Injective

/-!
# Full form, stripped form and sizes

The full form is the stripped form with the witnesses put in at two places, so all sizes follow from
the stripped size and the number of bytes put in.

* `Transaction.bare` — a transaction without its witnesses, whose full form is the stripped form.
* `Transaction.insertedSize` — how many bytes the full form has more.
* `Transaction.wireForms_consistent` — both forms, both digests, and sizes and weights.
-/

set_option autoImplicit false

namespace UtxoAssets.Transaction

open Wire

/-! ## Witnesses -/

theorem hasWitness_iff {tx : Transaction} :
    tx.hasWitness ↔ ∃ i ∈ tx.inputs, i.witness ≠ [] := by
  simp [hasWitness, TxInput.hasWitness]

theorem not_hasWitness_iff {tx : Transaction} :
    ¬ tx.hasWitness ↔ ∀ i ∈ tx.inputs, i.witness = [] := by
  simp [hasWitness, TxInput.hasWitness]

/-- A transaction without its witnesses. -/
def bare (tx : Transaction) : Transaction := { tx with inputs := tx.inputs.map TxInput.bare }

theorem not_hasWitness_bare (tx : Transaction) : ¬ tx.bare.hasWitness := by
  rw [not_hasWitness_iff]
  intro i hi
  obtain ⟨j, -, rfl⟩ := List.mem_map.mp hi
  rfl

/-- The stripped form does not see the witnesses. -/
theorem encode_stripped_bare (tx : Transaction) :
    tx.bare.encode .stripped = tx.encode .stripped := by
  have hinputs : tx.bare.inputs.map TxInput.bare = tx.inputs.map TxInput.bare := by
    rw [bare, List.map_map]
    rfl
  rw [encode_stripped, encode_stripped, encodeRow, encodeRow, hinputs]
  rfl

/-! ## Sizes -/

/-- The bytes that the full form has and the stripped form has not, counted. -/
def insertedSize (tx : Transaction) : Nat :=
  if tx.hasWitness then witnessMarker.length + tx.encodeWitnesses.length else 0

theorem size_eq (tx : Transaction) : tx.size = tx.strippedSize + tx.insertedSize := by
  unfold size strippedSize insertedSize
  by_cases h : tx.hasWitness
  · rw [if_pos h, encode_full_of_hasWitness h, encode_stripped, encodeRow, encodeRow,
      encodeWitnesses_eq]
    simp only [List.length_append, List.flatMap_nil, List.length_nil]
    omega
  · rw [if_neg h, encode_full_of_not_hasWitness h, Nat.add_zero]

/-- The weight counts the stripped bytes four times and the inserted ones once. -/
theorem weight_eq (tx : Transaction) : tx.weight = 4 * tx.strippedSize + tx.insertedSize := by
  have hsize := tx.size_eq
  unfold weight
  omega

theorem virtualSize_eq (tx : Transaction) :
    tx.virtualSize = tx.strippedSize + (tx.insertedSize + 3) / 4 := by
  have hweight := tx.weight_eq
  unfold virtualSize
  omega

/-- Witnesses come with their marker, so more than one byte is put in or none is. -/
theorem insertedSize_le_one_iff {tx : Transaction} : tx.insertedSize ≤ 1 ↔ ¬ tx.hasWitness := by
  have hmarker : witnessMarker.length = 2 := rfl
  unfold insertedSize
  by_cases h : tx.hasWitness
  · rw [if_pos h]
    exact ⟨fun hle => by omega, fun hnot => absurd h hnot⟩
  · rw [if_neg h]
    exact ⟨fun _ => h, fun _ => Nat.zero_le 1⟩

/-- The virtual size and the size differ as soon as there is a witness. -/
theorem virtualSize_eq_size_iff {tx : Transaction} :
    tx.virtualSize = tx.size ↔ ¬ tx.hasWitness := by
  have hsize := tx.size_eq
  have hvirtual := tx.virtualSize_eq
  rw [← insertedSize_le_one_iff]
  omega

/-! ## Both forms -/

/-- **Full form, stripped form and sizes of a transaction are consistent.**  The stripped form is the
full form of the transaction without witnesses.  Where there are witnesses, the full form has a
marker after the version, and one stack for each input, empty ones included, before the lock time. -/
theorem wireForms_consistent (tx : Transaction) :
    tx.encode .stripped = tx.bare.encode .full ∧
    ((∀ i ∈ tx.inputs, i.witness = []) →
      tx.encode .full = tx.encode .stripped ∧ tx.id = tx.witnessHash ∧ tx.insertedSize = 0) ∧
    ((∃ i ∈ tx.inputs, i.witness ≠ []) → ∃ body,
      let version := Word.toBytes tx.version
      let witnesses := tx.inputs.flatMap fun i => counted varBytes i.witness
      let rest := Word.toBytes tx.lockTime ++ tx.encodeExtra
      tx.encode .stripped = version ++ body ++ rest ∧
      tx.encode .full = version ++ [0x00, 0x01] ++ body ++ witnesses ++ rest ∧
      tx.insertedSize = 2 + witnesses.length) ∧
    tx.size = tx.strippedSize + tx.insertedSize ∧
    tx.weight = 4 * tx.strippedSize + tx.insertedSize ∧
    tx.virtualSize = tx.strippedSize + (tx.insertedSize + 3) / 4 ∧
    tx.strippedSize ≤ tx.virtualSize ∧ tx.virtualSize ≤ tx.size ∧
    (tx.virtualSize = tx.size ↔ ∀ i ∈ tx.inputs, i.witness = []) := by
  have hsize := tx.size_eq
  have hvirtual := tx.virtualSize_eq
  refine ⟨?stripped, ?plain, ?witnessed, hsize, tx.weight_eq, hvirtual, by omega, by omega, ?same⟩
  case stripped =>
    rw [encode_full_of_not_hasWitness tx.not_hasWitness_bare, encode_stripped_bare]
  case plain =>
    intro hplain
    have hnot := not_hasWitness_iff.mpr hplain
    have hencode := encode_full_of_not_hasWitness hnot
    exact ⟨hencode, by rw [id, witnessHash, hencode], if_neg hnot⟩
  case witnessed =>
    intro hwitness
    have hhas := hasWitness_iff.mpr hwitness
    refine ⟨counted TxInput.encode tx.inputs ++ counted TxOutput.encode tx.outputs, ?_⟩
    refine ⟨?_, ?_, if_pos hhas⟩
    · rw [encode_stripped, encodeRow, counted_bare]
      simp only [List.flatMap_nil, List.nil_append, List.append_assoc]
    · rw [encode]
      simp only [hhas, witnessMarker, encodeWitnesses, List.append_assoc]
      rfl
  case same => rw [virtualSize_eq_size_iff, not_hasWitness_iff]

/-- A masternode record of two inputs, of which the first has a witness. -/
def mixedSample : Transaction where
  version := 84
  inputs := [⟨OutPoint.null, [0x51], 1, [[0xaa, 0xbb], []]⟩, ⟨OutPoint.null, [], 2, []⟩]
  outputs := []
  lockTime := 7
  extraPayload := [0x05]

theorem wireForms_consistent_mixed :
    (∃ i ∈ mixedSample.inputs, i.witness ≠ []) ∧ mixedSample.insertedSize = 8 ∧
    (∃ body, mixedSample.encode .full =
      [84, 0, 0, 0] ++ [0x00, 0x01] ++ body ++ [2, 2, 0xaa, 0xbb, 0, 0] ++
        [7, 0, 0, 0, 1, 0x05]) ∧
    (∀ i ∈ mixedSample.bare.inputs, i.witness = []) ∧
    mixedSample.bare.encode .full = mixedSample.bare.encode .stripped ∧
    mixedSample.bare.virtualSize = mixedSample.bare.size := by
  have hwitness : ∃ i ∈ mixedSample.inputs, i.witness ≠ [] := ⟨_, List.mem_cons_self, by decide⟩
  have hbare : ∀ i ∈ mixedSample.bare.inputs, i.witness = [] := by decide
  obtain ⟨-, -, hwitnessed, -⟩ := wireForms_consistent mixedSample
  obtain ⟨body, -, hfull, hinserted⟩ := hwitnessed hwitness
  obtain ⟨-, hplain, -, -, -, -, -, -, hsame⟩ := wireForms_consistent mixedSample.bare
  exact ⟨hwitness, hinserted, ⟨body, hfull⟩, hbare, (hplain hbare).1, hsame.mpr hbare⟩

end UtxoAssets.Transaction
