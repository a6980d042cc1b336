import Mathlib.Algebra.BigOperators.Group.List.Basic
import Mathlib.Algebra.Ring.Int.Defs
import UtxoAssets.Asset.Allocation
import UtxoAssets.Proofs.Outcome

/-!
# The total of an asset

Amounts are added up from the left, and the first sum that is no amount ends the addition.

* `AssetGroup.exactSum` — the sum of the amounts as integers.
* `AssetGroup.PartialSumsFit` — every sum on the way to it is an amount.
* `addAmounts_eq_ok_iff`, `foldlM_addAmounts_eq_ok_iff` — one addition, and a row of them.
* `AssetGroup.total_eq_ok_iff`, `AssetGroup.total_eq_overflow_iff` — the two outcomes.
* `AssetGroup.partialSumsFit_iff_of_nonNegative`, `AssetGroup.total_eq_of_exactSum_eq` — if no amount
  is negative, the exact sum decides.
-/

set_option autoImplicit false

namespace UtxoAssets

/-! ## Sums of amounts -/

/-- The checked sum of two amounts is their exact sum, when it is given at all. -/
theorem addAmounts_eq_ok_iff {a b sum : Int64} :
    addAmounts a b = .ok sum ↔ sum.toInt = a.toInt + b.toInt := by
  rw [← int64OfInt?_eq_some_iff, addAmounts]
  cases int64OfInt? (a.toInt + b.toInt) with
  | none => simp
  | some sum' => simp

/-- The sum of amounts, which has no bound. -/
def amountSum (outputs : List AssetOutput) : Int := (outputs.map fun o => o.amount.toInt).sum

theorem amountSum_nil : amountSum [] = 0 := rfl

theorem amountSum_cons (o : AssetOutput) (outputs : List AssetOutput) :
    amountSum (o :: outputs) = o.amount.toInt + amountSum outputs := by
  rw [amountSum, List.map_cons, List.sum_cons]
  rfl

theorem amountSum_append (front back : List AssetOutput) :
    amountSum (front ++ back) = amountSum front + amountSum back := by
  rw [amountSum, List.map_append, List.sum_append]
  rfl

theorem amountSum_nonneg {outputs : List AssetOutput} (h : ∀ o ∈ outputs, 0 ≤ o.amount.toInt) :
    0 ≤ amountSum outputs := by
  induction outputs with
  | nil => exact Int.le_refl 0
  | cons o outputs ih =>
    obtain ⟨ho, houtputs⟩ := List.forall_mem_cons.mp h
    rw [amountSum_cons]
    exact Int.add_nonneg ho (ih houtputs)

/-- A row of additions succeeds if every sum on the way is an amount, and then yields the last. -/
theorem foldlM_addAmounts_eq_ok_iff {outputs : List AssetOutput} {start total : Int64} :
    outputs.foldlM (fun sum o => addAmounts sum o.amount) start = .ok total ↔
      (∀ k, FitsInt64 (start.toInt + amountSum (outputs.take k))) ∧
        total.toInt = start.toInt + amountSum outputs := by
  induction outputs generalizing start with
  | nil =>
    simp only [List.foldlM_nil, List.take_nil, amountSum_nil, Int.add_zero]
    constructor
    · rintro ⟨⟩
      exact ⟨fun _ => fitsInt64_toInt _, rfl⟩
    · rintro ⟨-, htotal⟩
      rw [Int64.toInt_inj.mp htotal]
      rfl
  | cons o outputs ih =>
    rw [List.foldlM_cons, bind_eq_ok_iff]
    constructor
    · rintro ⟨next, hnext, hrest⟩
      rw [addAmounts_eq_ok_iff] at hnext
      obtain ⟨hfits, htotal⟩ := ih.mp hrest
      constructor
      · intro k
        cases k with
        | zero =>
          rw [List.take_zero, amountSum_nil, Int.add_zero]
          exact fitsInt64_toInt start
        | succ k =>
          rw [List.take_succ_cons, amountSum_cons, ← Int.add_assoc, ← hnext]
          exact hfits k
      · rw [htotal, hnext, amountSum_cons, Int.add_assoc]
    · rintro ⟨hfits, htotal⟩
      have hfirst : FitsInt64 (start.toInt + o.amount.toInt) := by
        simpa [amountSum] using hfits 1
      obtain ⟨next, hnext⟩ := hfirst.exists_toInt
      refine ⟨next, addAmounts_eq_ok_iff.mpr hnext, ih.mpr ⟨?_, ?_⟩⟩
      · intro k
        have hlater := hfits (k + 1)
        rwa [List.take_succ_cons, amountSum_cons, ← Int.add_assoc, ← hnext] at hlater
      · rw [htotal, hnext, amountSum_cons, Int.add_assoc]

/-! ## Totals -/

namespace AssetGroup

/-- The sum of a group's amounts, whether 64 bits hold it or not. -/
def exactSum (g : AssetGroup) : Int := amountSum g.outputs

/-- The sum of the first `k` amounts is an amount, for every `k`. -/
def PartialSumsFit (g : AssetGroup) : Prop := ∀ k, FitsInt64 (amountSum (g.outputs.take k))

/-- No amount of the group is below zero. -/
def NonNegative (g : AssetGroup) : Prop := ∀ o ∈ g.outputs, 0 ≤ o.amount.toInt

instance (g : AssetGroup) : Decidable g.NonNegative :=
  inferInstanceAs (Decidable (∀ o ∈ g.outputs, 0 ≤ o.amount.toInt))

variable {g g' : AssetGroup}

/-- The total is the exact sum, and it is given exactly if no partial sum leaves the 64 bits. -/
theorem total_eq_ok_iff {total : Int64} :
    g.total = .ok total ↔ g.PartialSumsFit ∧ total.toInt = g.exactSum := by
  have hstart : (0 : Int64).toInt = 0 := rfl
  rw [AssetGroup.total, foldlM_addAmounts_eq_ok_iff, hstart, Int.zero_add]
  simp only [Int.zero_add]
  rfl

theorem PartialSumsFit.exactSum (h : g.PartialSumsFit) : FitsInt64 g.exactSum := by
  have hall := h g.outputs.length
  rwa [List.take_length] at hall

theorem PartialSumsFit.exists_total (h : g.PartialSumsFit) :
    ∃ total, g.total = .ok total ∧ total.toInt = g.exactSum := by
  obtain ⟨total, htotal⟩ := h.exactSum.exists_toInt
  exact ⟨total, total_eq_ok_iff.mpr ⟨h, htotal⟩, htotal⟩

/-- The other way for a total to end is overflow, at the first partial sum that does not fit. -/
theorem total_eq_overflow_iff : g.total = .error .overflow ↔ ¬ g.PartialSumsFit := by
  constructor
  · intro h hfits
    obtain ⟨total, htotal, -⟩ := hfits.exists_total
    rw [h] at htotal
    cases htotal
  · intro h
    cases htotal : g.total with
    | ok total => exact absurd (total_eq_ok_iff.mp htotal).1 h
    | error cause => rfl

/-- Without negative amounts the partial sums grow, and the last of them decides. -/
theorem partialSumsFit_iff_of_nonNegative (h : g.NonNegative) :
    g.PartialSumsFit ↔ FitsInt64 g.exactSum := by
  constructor
  · exact PartialSumsFit.exactSum
  · rintro ⟨-, hsum⟩ k
    have hsplit := amountSum_append (g.outputs.take k) (g.outputs.drop k)
    rw [List.take_append_drop] at hsplit
    have hfront : 0 ≤ amountSum (g.outputs.take k) :=
      amountSum_nonneg fun o ho => h o (List.mem_of_mem_take ho)
    have hback : 0 ≤ amountSum (g.outputs.drop k) :=
      amountSum_nonneg fun o ho => h o (List.mem_of_mem_drop ho)
    unfold AssetGroup.exactSum at hsum
    constructor
    · omega
    · omega

/-- Amounts that are not negative can be added in any grouping and order. -/
theorem total_eq_of_exactSum_eq (h : g.NonNegative) (h' : g'.NonNegative)
    (hsum : g'.exactSum = g.exactSum) : g'.total = g.total := by
  by_cases hfits : g.PartialSumsFit
  · have hfits' : g'.PartialSumsFit := by
      rw [partialSumsFit_iff_of_nonNegative h', hsum]
      exact hfits.exactSum
    obtain ⟨total, htotal, hvalue⟩ := hfits.exists_total
    rw [htotal, total_eq_ok_iff, hsum]
    exact ⟨hfits', hvalue⟩
  · have hfits' : ¬ g'.PartialSumsFit := by
      rwa [partialSumsFit_iff_of_nonNegative h', hsum, ← partialSumsFit_iff_of_nonNegative h]
    rw [total_eq_overflow_iff.mpr hfits, total_eq_overflow_iff.mpr hfits']

/-- Without negative amounts the order of the outputs does not matter. -/
theorem total_eq_of_perm (h : g.NonNegative) (hperm : g'.outputs.Perm g.outputs) :
    g'.total = g.total := by
  apply total_eq_of_exactSum_eq h
  · intro o ho
    exact h o (hperm.mem_iff.mp ho)
  · exact (hperm.map _).sum_eq

end AssetGroup

end UtxoAssets
