import UtxoAssets.Proofs.Render.Carried
import UtxoAssets.Proofs.Text.Amount

/-!
# Asset amounts and fee tiers

The units of an asset are shown as a numeral with as many places as the precision says, and with one
place if it says none.

* `assetAmountText_eq` — that numeral, at any precision an asset may declare.
* `assetAmountText_injective` — at one precision, a text belongs to one amount.
* `isNearest_iff_text_eq_percentText` — the text of a fee rate is what rounding to five places makes
  of any number close to the rate.
* `FeeTier.ShownExactly`, `asset_amounts_exact` — the two texts of a fee tier, and all of this for
  whole schedules.
-/

set_option autoImplicit false

namespace UtxoAssets

open Text (Numeral NoLeadingZero)

/-! ## Amounts at a precision -/

/-- At least one place is shown. -/
def shownPlaces (precision : UInt8) : Nat := max 1 precision.toNat

/-- An amount in units of the last place that is shown. -/
def shownUnits (precision : UInt8) (units : Int64) : Int :=
  units.toInt * 10 ^ (shownPlaces precision - precision.toNat)

theorem decimal_append_zero (n : Int) :
    Text.decimal n ++ ".0" = Text.signedFixedPoint 1 (n * 10) := by
  have habs : (n * 10).natAbs = n.natAbs * 10 := Int.natAbs_mul n 10
  have hneg : n * 10 < 0 ↔ n < 0 := by omega
  have hscale : Text.scale 1 = 10 := rfl
  rw [Text.decimal, Text.signedFixedPoint, Text.signed, Text.signed, Text.fixedPoint, habs, hscale,
    Nat.mul_div_cancel _ (by decide), Nat.mul_mod_left]
  simp only [hneg]
  change _ ++ String.ofList ['.', '0'] = _
  rw [← String.ofList_append, List.append_assoc]
  rfl

/-- An amount is shown as a numeral of its precision, with one zero place where the precision has
none. -/
theorem assetAmountText_eq {precision : UInt8} (h : precision ≤ maxPrecision) (units : Int64) :
    assetAmountText units precision =
      .ok (Numeral.ofUnits (shownPlaces precision) (shownUnits precision units)).text := by
  rw [assetAmountText, if_neg (UInt8.not_lt.mpr h), Numeral.text_ofUnits, shownUnits]
  by_cases hzero : precision = 0
  · subst hzero
    rw [if_pos rfl, decimal_append_zero]
    rfl
  · have hpos : 1 ≤ precision.toNat :=
      Nat.one_le_iff_ne_zero.mpr fun hnat => hzero (UInt8.toNat_inj.mp hnat)
    have hplaces : shownPlaces precision = precision.toNat := Nat.max_eq_right hpos
    rw [if_neg hzero, hplaces, Nat.sub_self, pow_zero, Int.mul_one]

theorem shownUnits_injective {precision : UInt8} {a b : Int64}
    (h : shownUnits precision a = shownUnits precision b) : a = b := by
  have hpow : (10 : Int) ^ (shownPlaces precision - precision.toNat) ≠ 0 :=
    pow_ne_zero _ (by decide)
  exact Int64.toInt_inj.mp (mul_right_cancel₀ hpow h)

/-- At one precision, different amounts have different texts. -/
theorem assetAmountText_injective {precision : UInt8} (h : precision ≤ maxPrecision) {a b : Int64}
    (heq : assetAmountText a precision = assetAmountText b precision) : a = b := by
  rw [assetAmountText_eq h, assetAmountText_eq h, Except.ok.injEq] at heq
  have hunits := congrArg Numeral.units (Numeral.text_injective heq)
  rw [Numeral.units_ofUnits, Numeral.units_ofUnits] at hunits
  exact shownUnits_injective hunits

/-- The place that is added at precision zero leaves the value as it is. -/
theorem value_shownUnits (precision : UInt8) (units : Int64) :
    (Numeral.ofUnits (shownPlaces precision) (shownUnits precision units)).value =
      units.toInt / 10 ^ precision.toNat := by
  have hle : precision.toNat ≤ shownPlaces precision := Nat.le_max_right _ _
  have hsplit : (10 : ℚ) ^ shownPlaces precision =
      10 ^ precision.toNat * 10 ^ (shownPlaces precision - precision.toNat) := by
    rw [← pow_add, Nat.add_sub_cancel' hle]
  rw [Numeral.value_ofUnits, shownUnits, hsplit]
  push_cast
  rw [mul_div_mul_right]
  exact pow_ne_zero _ (by norm_num)

theorem shownUnits_neg_iff {precision : UInt8} {units : Int64} :
    shownUnits precision units < 0 ↔ units.toInt < 0 := by
  have hpow : (0 : Int) < 10 ^ (shownPlaces precision - precision.toNat) := pow_pos (by decide) _
  constructor
  · intro h
    by_contra hneg
    exact absurd (mul_nonneg (not_lt.mp hneg) hpow.le) (not_le.mpr h)
  · intro h
    exact mul_neg_of_neg_of_pos h hpow

/-! ## Fee rates -/

/-- A percentage is shown with five places. -/
theorem percentText_eq (percent : UInt16) :
    percentText percent = (Numeral.ofUnits 5 percent.toNat).text :=
  (Numeral.text_ofUnits _).symm

theorem value_percent (percent : UInt16) :
    (Numeral.ofUnits 5 percent.toNat).value = (percent.toNat : ℚ) / 100000 := by
  rw [Numeral.value_ofUnits]
  norm_num

theorem negative_percent (percent : UInt16) :
    (Numeral.ofUnits 5 percent.toNat).negative = false := by
  rw [← Bool.not_eq_true, Numeral.negative_ofUnits_iff]
  exact Int.not_lt.mpr (Int.natCast_nonneg _)

/-- The rate itself has five places, so rounding a number beside it to five places gives it back. -/
theorem isNearest_iff_text_eq_percentText {percent : UInt16} {x : ℚ}
    (hx : |x - percent.toNat / 100000| < 1 / 200000) {d : Numeral 5}
    (hzero : NoLeadingZero d.quotient) (hpositive : d.negative = false) :
    d.IsNearest x ↔ d.text = percentText percent := by
  have hrate : |(Numeral.ofUnits 5 percent.toNat).value - x| < 1 / 10 ^ 5 / 2 := by
    rw [value_percent, abs_sub_comm]
    norm_num at hx ⊢
    exact hx
  rw [percentText_eq]
  constructor
  · intro hd
    have hunits := Numeral.units_eq_of_isNearest hrate hd
    have hshown : Numeral.ofUnits 5 d.units = d :=
      Numeral.ofUnits_units_iff.mpr
        ⟨hzero, fun hneg => Bool.false_ne_true (hpositive.symm.trans hneg.1)⟩
    rw [← hshown, hunits, Numeral.units_ofUnits]
  · intro htext
    rw [Numeral.text_injective htext]
    exact Numeral.isNearest_of_abs_le hrate.le

/-! ## Fee tiers -/

/-- The two texts of a fee tier: the bound is the only amount shown so at this precision, and the rate
is told exactly, with five places. -/
structure FeeTier.ShownExactly (precision : UInt8) (tier : FeeTier) (texts : String × String) :
    Prop where
  bound : assetAmountText tier.bound precision = .ok texts.1
  determines : ∀ amount : Int64, assetAmountText amount precision = .ok texts.1 →
    amount = tier.bound
  rate : ∃ d : Numeral 5, d.text = texts.2 ∧ d.value = (tier.percent.toNat : ℚ) / 100000 ∧
    NoLeadingZero d.quotient ∧ d.negative = false

/-- The two texts of a tier are its exact amount and its exact percentage. -/
theorem FeeTier.IsText.shownExactly {precision : UInt8} (h : precision ≤ maxPrecision)
    {tier : FeeTier} {texts : String × String} (htexts : FeeTier.IsText precision tier texts) :
    FeeTier.ShownExactly precision tier texts where
  bound := htexts.bound
  determines _ hamount := assetAmountText_injective h (hamount.trans htexts.bound.symm)
  rate := by
    refine ⟨Numeral.ofUnits 5 tier.percent.toNat, ?_, ?_, ?_, ?_⟩
    · rw [htexts.percent, percentText_eq]
    · exact value_percent _
    · exact Numeral.noLeadingZero_ofUnits _
    · exact negative_percent _

theorem Document.FeeDetails.ofTiers_shownExactly {precision : UInt8}
    (h : precision ≤ maxPrecision) (tiers : List FeeTier) :
    ∃ details, Document.FeeDetails.ofTiers precision tiers = .ok details ∧
      List.Forall₂ (FeeTier.ShownExactly precision) tiers details.tiers := by
  obtain ⟨texts, htexts⟩ := exists_mapM_eq_ok fun tier (_ : tier ∈ tiers) =>
    Document.exists_tierTexts tier h
  refine ⟨⟨texts⟩, bind_eq_ok_iff.mpr ⟨texts, htexts, rfl⟩, ?_⟩
  have hall := mapM_eq_ok_iff.mp htexts
  simp only [Document.tierTexts_eq_ok_iff] at hall
  exact hall.imp fun _ _ htier => htier.shownExactly h

/-- **Asset amounts are shown exactly, whatever the precision, and so are fee schedules.**  The last
part is about rates that are computed by a division that does not come out even: a quotient off by
less than half a unit of the fifth place is rounded to the rate. -/
theorem asset_amounts_exact :
    (∀ (amount : Int64) (precision : UInt8), precision ≤ 8 →
      ∃ d : Numeral (max 1 precision.toNat), assetAmountText amount precision = .ok d.text ∧
        d.value = amount.toInt / 10 ^ precision.toNat ∧ NoLeadingZero d.quotient ∧
        (d.negative = true ↔ amount.toInt < 0)) ∧
    (∀ (amount other : Int64) (precision : UInt8), precision ≤ 8 → amount ≠ other →
      assetAmountText amount precision ≠ assetAmountText other precision) ∧
    (∀ amount : Int64, assetAmountText amount 8 = .ok (Amount.text ⟨amount⟩)) ∧
    (∀ (amount : Int64) (precision : UInt8), 8 < precision →
      assetAmountText amount precision = .error (.invalidPrecision precision)) ∧
    (∀ (tiers : List FeeTier) (precision : UInt8), precision ≤ 8 →
      ∃ details, Document.FeeDetails.ofTiers precision tiers = .ok details ∧
        List.Forall₂ (FeeTier.ShownExactly precision) tiers details.tiers) ∧
    (∀ (percent : UInt16) (quotient : ℚ), |quotient - percent.toNat / 100000| < 1 / 200000 →
      ∀ d : Numeral 5, NoLeadingZero d.quotient → d.negative = false →
        (d.IsNearest quotient ↔ d.text = percentText percent)) := by
  refine ⟨?_, ?_, ?_, ?_, ?_, ?_⟩
  · intro amount precision h
    refine ⟨Numeral.ofUnits (shownPlaces precision) (shownUnits precision amount),
      assetAmountText_eq h amount, value_shownUnits precision amount, ?_, ?_⟩
    · exact Numeral.noLeadingZero_ofUnits _
    · exact Numeral.negative_ofUnits_iff.trans shownUnits_neg_iff
  · intro amount other precision h hne heq
    exact hne (assetAmountText_injective h heq)
  · exact fun amount => rfl
  · intro amount precision h
    exact if_pos h
  · intro tiers precision h
    exact Document.FeeDetails.ofTiers_shownExactly h tiers
  · intro percent quotient hx d hzero hpositive
    exact isNearest_iff_text_eq_percentText hx hzero hpositive

/-- A negative amount, an amount without places, one precision too many, a schedule of two tiers, and
a quotient that is slightly too large. -/
theorem asset_amounts_exact_samples :
    (assetAmountText (-5) 3 = .ok "-0.005" ∧
      assetAmountText (-5) 3 ≠ assetAmountText 5 3) ∧
    (assetAmountText 7 0 = .ok "7.0" ∧
      ∃ d : Numeral 1, assetAmountText 7 0 = .ok d.text ∧ d.value = 7) ∧
    assetAmountText 7 9 = .error (.invalidPrecision 9) ∧
    (∃ details, Document.FeeDetails.ofTiers 2 [⟨1000, 500⟩, ⟨-25, 65535⟩] = .ok details ∧
      details.tiers = [("10.00", "0.00500"), ("-0.25", "0.65535")] ∧
      List.Forall₂ (FeeTier.ShownExactly 2) [⟨1000, 500⟩, ⟨-25, 65535⟩] details.tiers) ∧
    (Numeral.ofUnits 5 500).IsNearest (500001 / 100000000) := by
  obtain ⟨hvalue, hinjective, -, hprecision, hfees, hrates⟩ := asset_amounts_exact
  refine ⟨⟨by decide +kernel, ?_⟩, ⟨by decide +kernel, ?_⟩, ?_, ?_, ?_⟩
  · exact hinjective (-5) 5 3 (by decide) (by decide)
  · obtain ⟨d, htext, hd, -⟩ := hvalue 7 0 (by decide)
    have hseven : (7 : Int64).toInt = 7 := by decide
    rw [hseven] at hd
    exact ⟨d, htext, hd.trans (by norm_num)⟩
  · exact hprecision 7 9 (by decide)
  · obtain ⟨details, hdetails, htiers⟩ := hfees [⟨1000, 500⟩, ⟨-25, 65535⟩] 2 (by decide)
    have hrun : Document.FeeDetails.ofTiers 2 [⟨1000, 500⟩, ⟨-25, 65535⟩] =
        .ok ⟨[("10.00", "0.00500"), ("-0.25", "0.65535")]⟩ := by decide +kernel
    have htexts : details = ⟨[("10.00", "0.00500"), ("-0.25", "0.65535")]⟩ :=
      Except.ok.inj (hdetails.symm.trans hrun)
    exact ⟨details, hdetails, congrArg Document.FeeDetails.tiers htexts, htiers⟩
  · have hrate : (500 : UInt16).toNat = 500 := by decide
    have hclose : |(500001 / 100000000 : ℚ) - (500 : UInt16).toNat / 100000| < 1 / 200000 := by
      rw [hrate]
      norm_num [abs_of_pos]
    have hzero : NoLeadingZero (Numeral.ofUnits 5 500).quotient := Numeral.noLeadingZero_ofUnits _
    exact (hrates 500 _ hclose _ hzero (by decide)).mpr (by decide +kernel)

end UtxoAssets
