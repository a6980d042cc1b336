import UtxoAssets.Proofs.Outcome
import UtxoAssets.Proofs.Text.Numeral

/-!
# Amounts as text

An amount is shown as a numeral with eight places, and every numeral with eight places is read as the
amount it denotes, if 64 bits hold it.

* `ofDigits?_eq_some_iff`, `magnitude?_eq_some_iff`, `signed?_eq_some_iff` — each step of the 64-bit
  arithmetic is exact or leaves its range.
* `ofText_numeral_eq_ok_iff`, `ofText_numeral_eq_error_iff` — the steps together leave the range
  exactly if the number does.
* `FailsAs` — the first condition that a text fails to meet.
* `read_exactly` — what is read of any text; `text_canonical` — among the texts of one amount, which
  is the one that is shown.
-/

set_option autoImplicit false

namespace UtxoAssets.Amount

open Text (Numeral IsDigitByte NoLeadingZero)

/-! ## 64-bit arithmetic -/

/-- A sum that fits 64 bits has terms that do. -/
theorem bind_uint64OfNat?_eq_some_iff {a b : Nat} {n : UInt64} :
    ((uint64OfNat? a).bind fun t => uint64OfNat? (t.toNat + b)) = some n ↔ n.toNat = a + b := by
  rw [Option.bind_eq_some_iff]
  simp only [uint64OfNat?_eq_some_iff]
  constructor
  · rintro ⟨t, rfl, hn⟩
    exact hn
  · intro hn
    have hfits : a < UInt64.size := Nat.lt_of_le_of_lt (Nat.le_add_right a b) (hn ▸ n.toNat_lt)
    obtain ⟨t, rfl⟩ := exists_uint64_toNat hfits
    exact ⟨t, rfl, hn⟩

theorem pushDigit?_eq_some_iff {n m : UInt64} {c : Char} :
    pushDigit? n c = some m ↔ m.toNat = 10 * n.toNat + (c.toNat - '0'.toNat) :=
  bind_uint64OfNat?_eq_some_iff

theorem le_ofDigitChars (digits : List Char) (start : Nat) :
    start ≤ Nat.ofDigitChars 10 digits start := by
  induction digits generalizing start with
  | nil => exact Nat.le_refl start
  | cons c digits ih =>
    rw [Nat.ofDigitChars_cons]
    exact Nat.le_trans (by omega) (ih _)

/-- The number read so far never shrinks, so it has fitted on the way if it fits at the end. -/
theorem foldlM_pushDigit?_eq_some_iff {digits : List Char} {start n : UInt64} :
    digits.foldlM pushDigit? start = some n ↔
      n.toNat = Nat.ofDigitChars 10 digits start.toNat := by
  induction digits generalizing start with
  | nil =>
    rw [List.foldlM_nil, Nat.ofDigitChars_nil, UInt64.toNat_inj]
    exact Option.some_inj.trans eq_comm
  | cons c digits ih =>
    rw [List.foldlM_cons, Nat.ofDigitChars_cons, Option.bind_eq_bind, Option.bind_eq_some_iff]
    simp only [pushDigit?_eq_some_iff, ih]
    constructor
    · rintro ⟨next, hnext, hn⟩
      rw [hn, hnext]
    · intro hn
      have hfits : 10 * start.toNat + (c.toNat - '0'.toNat) < UInt64.size := by
        have hle := le_ofDigitChars digits (10 * start.toNat + (c.toNat - '0'.toNat))
        exact Nat.lt_of_le_of_lt hle (hn ▸ n.toNat_lt)
      obtain ⟨next, hnext⟩ := exists_uint64_toNat hfits
      exact ⟨next, hnext, by rw [hn, hnext]⟩

theorem ofDigits?_eq_some_iff {digits : List Char} {n : UInt64} :
    ofDigits? digits = some n ↔ n.toNat = Nat.ofDigitChars 10 digits 0 :=
  foldlM_pushDigit?_eq_some_iff

theorem magnitude?_eq_some_iff {coins fraction n : UInt64} :
    magnitude? coins fraction = some n ↔ n.toNat = coins.toNat * 10 ^ 8 + fraction.toNat :=
  bind_uint64OfNat?_eq_some_iff

theorem signed?_eq_some_iff {negative : Bool} {magnitude : UInt64} {units : Int64} :
    signed? negative magnitude = some units ↔
      units.toInt = if negative then -(magnitude.toNat : Int) else magnitude.toNat :=
  int64OfInt?_eq_some_iff

theorem orError_eq_ok_iff {α : Type} {cause : AmountError} {x : Option α} {a : α} :
    orError cause x = .ok a ↔ x = some a := by
  cases x with
  | none => simp [orError]
  | some a' => simp [orError]

theorem orError_eq_error_iff {α : Type} {cause e : AmountError} {x : Option α} :
    orError cause x = .error e ↔ x = none ∧ e = cause := by
  cases x with
  | none => simp [orError, eq_comm]
  | some a => simp [orError]

/-! ## The sign and the point -/

/-- What stands behind one leading minus sign, if there is one. -/
inductive Signed (s : String) : Bool → List Char → Prop where
  | minus {unsigned : List Char} : s.toList = '-' :: unsigned → Signed s true unsigned
  | plain {unsigned : List Char} :
    s.toList = unsigned → unsigned.head? ≠ some '-' → Signed s false unsigned

variable {s : String} {negative : Bool} {unsigned quotient fraction : List Char}

theorem signed_iff : Signed s negative unsigned ↔ splitSign s.toList = (negative, unsigned) := by
  unfold splitSign
  constructor
  · rintro (h | ⟨rfl, hhead⟩)
    · rw [h]
      rfl
    · split
      · rename_i cs heq
        rw [heq] at hhead
        exact absurd rfl hhead
      · rfl
  · intro hsplit
    split at hsplit
    · rename_i cs heq
      cases hsplit
      exact .minus heq
    · rename_i hne
      cases hsplit
      refine .plain rfl fun hhead => ?_
      obtain ⟨cs', hcs⟩ := List.head?_eq_some_iff.mp hhead
      exact hne cs' hcs

theorem Signed.exists (s : String) : ∃ negative unsigned, Signed s negative unsigned :=
  ⟨_, _, signed_iff.mpr rfl⟩

theorem Signed.text_numeral {d : Numeral places} (h : Signed s d.negative d.unsigned) :
    d.text = s := by
  rw [Numeral.text]
  cases hnegative : d.negative with
  | false =>
    rw [hnegative] at h
    cases h with
    | plain hs _ => rw [if_neg Bool.false_ne_true, List.nil_append, ← hs, String.ofList_toList]
  | true =>
    rw [hnegative] at h
    cases h with
    | minus hs => rw [if_pos rfl, List.singleton_append, ← hs, String.ofList_toList]

/-- A text with a point is first tested for the length of its fraction in bytes. -/
theorem ofText_of_point (hsigned : Signed s negative (quotient ++ '.' :: fraction))
    (hfirst : '.' ∉ quotient) :
    ofText s =
      if (Text.utf8 (String.ofList fraction)).length ≠ places then
        .error (.fractionLength (Text.utf8 (String.ofList fraction)).length)
      else if quotient.isEmpty || !Text.isDigits quotient || !Text.isDigits fraction then
        .error (.invalidDigits s)
      else ofParts s negative quotient fraction := by
  unfold ofText
  rw [signed_iff.mp hsigned]
  dsimp only
  rw [Text.splitAtPoint_eq_some_iff.mpr ⟨rfl, hfirst⟩]

/-! ## Numerals are read -/

theorem ofText_numeral (d : Numeral places) :
    ofText d.text = ofParts d.text d.negative d.quotient d.fraction := by
  have hfirst := Text.point_not_mem_of_isDigits d.isDigits_quotient
  have hbytes : (Text.utf8 (String.ofList d.fraction)).length = places := by
    rw [Text.length_utf8_of_isDigits d.isDigits_fraction, d.length_fraction]
  rw [ofText_of_point (signed_iff.mpr d.splitSign_text) hfirst, if_neg (not_not.mpr hbytes),
    List.isEmpty_eq_false_iff.mpr d.quotient_ne_nil, d.isDigits_quotient, d.isDigits_fraction]
  exact if_neg Bool.false_ne_true

theorem magnitude_lt_of_units {d : Numeral places} {units : Int64} (h : units.toInt = d.units) :
    d.magnitude < UInt64.size := by
  have hlow := units.le_toInt
  have hhigh := units.toInt_lt
  rw [← d.natAbs_units, ← h, UInt64.size]
  omega

/-- A numeral is read as its value, if 64 bits hold the value. -/
theorem ofText_numeral_eq_ok_iff {d : Numeral places} {a : Amount} :
    ofText d.text = .ok a ↔ a.units.toInt = d.units := by
  simp only [ofText_numeral, ofParts, bind_eq_ok_iff, orError_eq_ok_iff, ofDigits?_eq_some_iff,
    magnitude?_eq_some_iff, signed?_eq_some_iff]
  constructor
  · rintro ⟨coins, hcoins, rest, hrest, magnitude, hmagnitude, units, hunits, ⟨⟩⟩
    rw [hunits, hmagnitude, hcoins, hrest]
    rfl
  · intro h
    -- Every number on the way is at most the magnitude.
    have hlt := magnitude_lt_of_units h
    have hwhole : d.whole ≤ d.magnitude :=
      Nat.le_add_right_of_le (Nat.le_mul_of_pos_right d.whole (by decide))
    have hpart : d.part ≤ d.magnitude := Nat.le_add_left _ _
    obtain ⟨coins, hcoins⟩ := exists_uint64_toNat (Nat.lt_of_le_of_lt hwhole hlt)
    obtain ⟨rest, hrest⟩ := exists_uint64_toNat (Nat.lt_of_le_of_lt hpart hlt)
    obtain ⟨magnitude, hmagnitude⟩ := exists_uint64_toNat hlt
    refine ⟨coins, hcoins, rest, hrest, magnitude, ?_, a.units, ?_, rfl⟩
    · rw [hmagnitude, hcoins, hrest]
      rfl
    · rw [h, hmagnitude]
      rfl

/-- Eight digits are never too many for 64 bits, so only the number as a whole can be. -/
theorem eq_outOfRange_of_ofText_numeral {d : Numeral places} {e : AmountError}
    (h : ofText d.text = .error e) : e = .outOfRange d.text := by
  have hpart : d.part < UInt64.size := Nat.lt_trans d.part_lt (by decide)
  obtain ⟨n, hn⟩ := exists_uint64_toNat hpart
  simp only [ofText_numeral, ofParts, bind_eq_error_iff, orError_eq_error_iff,
    orError_eq_ok_iff] at h
  rcases h with ⟨-, rfl⟩ | ⟨coins, -, ⟨hrest, -⟩ | ⟨rest, -, ⟨-, rfl⟩ | ⟨magnitude, -, h⟩⟩⟩
  · rfl
  · rw [ofDigits?_eq_some_iff.mpr hn] at hrest
    cases hrest
  · rfl
  · rcases h with ⟨-, rfl⟩ | ⟨units, -, hpure⟩
    · rfl
    · cases hpure

/-- The range is the only reason for which a numeral is rejected. -/
theorem ofText_numeral_eq_error_iff {d : Numeral places} {e : AmountError} :
    ofText d.text = .error e ↔ e = .outOfRange d.text ∧ ¬ FitsInt64 d.units := by
  constructor
  · intro h
    refine ⟨eq_outOfRange_of_ofText_numeral h, fun hfits => ?_⟩
    obtain ⟨units, hunits⟩ := hfits.exists_toInt
    have hread : ofText d.text = .ok ⟨units⟩ := ofText_numeral_eq_ok_iff.mpr hunits
    rw [h] at hread
    cases hread
  · rintro ⟨rfl, hfits⟩
    cases h : ofText d.text with
    | ok a =>
      have hunits := fitsInt64_toInt a.units
      rw [ofText_numeral_eq_ok_iff.mp h] at hunits
      exact absurd hunits hfits
    | error e => rw [eq_outOfRange_of_ofText_numeral h]

theorem text_eq (a : Amount) : a.text = (Numeral.ofUnits places a.units.toInt).text :=
  (Numeral.text_ofUnits _).symm

theorem ofText_text (a : Amount) : ofText a.text = .ok a := by
  rw [text_eq, ofText_numeral_eq_ok_iff, Numeral.units_ofUnits]

theorem text_eq_text_iff {d : Numeral places} {a : Amount} (h : a.units.toInt = d.units) :
    a.text = d.text ↔ NoLeadingZero d.quotient ∧ ¬ d.IsNegativeZero := by
  rw [← Numeral.ofUnits_units_iff, text_eq, h]
  exact ⟨Numeral.text_injective, congrArg Numeral.text⟩

/-! ## What a text is refused for -/

/-- The first condition that a text fails to meet. -/
inductive FailsAs (s : String) : AmountError → Prop where
  | missingPoint {negative : Bool} {unsigned : List Char} :
    Signed s negative unsigned → '.' ∉ unsigned → FailsAs s (.missingPoint s)
  | fractionLength {negative : Bool} {quotient fraction : List Char} :
    Signed s negative (quotient ++ '.' :: fraction) → '.' ∉ quotient →
    (Text.utf8 (String.ofList fraction)).length ≠ 8 →
    FailsAs s (.fractionLength (Text.utf8 (String.ofList fraction)).length)
  | invalidDigits {negative : Bool} {quotient fraction : List Char} :
    Signed s negative (quotient ++ '.' :: fraction) → '.' ∉ quotient →
    (Text.utf8 (String.ofList fraction)).length = 8 →
    (quotient = [] ∨ (∃ b ∈ Text.utf8 (String.ofList quotient), ¬ IsDigitByte b) ∨
      ∃ b ∈ Text.utf8 (String.ofList fraction), ¬ IsDigitByte b) →
    FailsAs s (.invalidDigits s)
  | outOfRange {d : Numeral 8} : d.text = s → ¬ FitsInt64 d.units → FailsAs s (.outOfRange s)

/-- Every text is a numeral or misses a condition. -/
theorem exists_numeral_or_failsAs (s : String) :
    (∃ d : Numeral places, d.text = s) ∨ ∃ e, FailsAs s e := by
  obtain ⟨negative, unsigned, hsigned⟩ := Signed.exists s
  cases hpoint : Text.splitAtPoint unsigned with
  | none => exact .inr ⟨_, .missingPoint hsigned (Text.splitAtPoint_eq_none_iff.mp hpoint)⟩
  | some parts =>
    obtain ⟨quotient, fraction⟩ := parts
    obtain ⟨rfl, hfirst⟩ := Text.splitAtPoint_eq_some_iff.mp hpoint
    by_cases hbytes : (Text.utf8 (String.ofList fraction)).length = 8
    · by_cases hdigits : quotient ≠ [] ∧ Text.isDigits quotient = true ∧
          Text.isDigits fraction = true
      · obtain ⟨hne, hquotient, hfraction⟩ := hdigits
        have hlength : fraction.length = places := by
          rw [← Text.length_utf8_of_isDigits hfraction, hbytes, places]
        exact .inl ⟨⟨negative, quotient, fraction, hne, hquotient, hfraction, hlength⟩,
          hsigned.text_numeral⟩
      · refine .inr ⟨_, .invalidDigits hsigned hfirst hbytes ?_⟩
        simpa only [Text.isDigits_iff, ne_eq, not_and_or, not_not, not_forall, exists_prop]
          using hdigits
    · exact .inr ⟨_, .fractionLength hsigned hfirst hbytes⟩

/-- The causes are tried in the order in which they are listed. -/
theorem ofText_eq_error_of_failsAs {e : AmountError} (h : FailsAs s e) : ofText s = .error e := by
  cases h with
  | missingPoint hsigned hpoint =>
    unfold ofText
    rw [signed_iff.mp hsigned]
    dsimp only
    rw [Text.splitAtPoint_eq_none_iff.mpr hpoint]
  | fractionLength hsigned hfirst hbytes =>
    rw [ofText_of_point hsigned hfirst]
    exact if_pos hbytes
  | @invalidDigits _ quotient fraction hsigned hfirst hbytes hdigits =>
    have hinvalid : quotient = [] ∨ Text.isDigits quotient = false ∨
        Text.isDigits fraction = false := by
      simpa only [← Bool.not_eq_true, Text.isDigits_iff, not_forall, exists_prop] using hdigits
    have htest : (quotient.isEmpty || !Text.isDigits quotient || !Text.isDigits fraction) = true := by
      rcases hinvalid with rfl | hquotient | hfraction
      · rfl
      · simp [hquotient]
      · simp [hfraction]
    rw [ofText_of_point hsigned hfirst, if_pos htest]
    exact if_neg (not_not.mpr hbytes)
  | outOfRange htext hfits =>
    rw [← htext]
    exact ofText_numeral_eq_error_iff.mpr ⟨rfl, hfits⟩

/-- The texts that are read are the numerals whose value fits. -/
theorem ofText_eq_ok_iff {a : Amount} :
    ofText s = .ok a ↔ ∃ d : Numeral places, d.text = s ∧ a.units.toInt = d.units := by
  constructor
  · intro h
    rcases exists_numeral_or_failsAs s with ⟨d, rfl⟩ | ⟨e, he⟩
    · exact ⟨d, rfl, ofText_numeral_eq_ok_iff.mp h⟩
    · rw [ofText_eq_error_of_failsAs he] at h
      cases h
  · rintro ⟨d, rfl, hunits⟩
    exact ofText_numeral_eq_ok_iff.mpr hunits

theorem ofText_eq_error_iff {e : AmountError} : ofText s = .error e ↔ FailsAs s e := by
  constructor
  · intro h
    rcases exists_numeral_or_failsAs s with ⟨d, rfl⟩ | ⟨e', he⟩
    · obtain ⟨rfl, hfits⟩ := ofText_numeral_eq_error_iff.mp h
      exact .outOfRange rfl hfits
    · rw [ofText_eq_error_of_failsAs he] at h
      cases h
      exact he
  · exact ofText_eq_error_of_failsAs

/-! ## The two contracts -/

/-- **What is read of any text.**  A numeral with eight places is read as the amount it denotes, and
every other text is refused for the first condition it misses; the range is the last of them, and no
step of the arithmetic changes a number, whatever the digits. -/
theorem read_exactly :
    (∀ (s : String) (a : Amount),
      ofText s = .ok a ↔ ∃ d : Numeral 8, d.text = s ∧ a.units.toInt = d.units) ∧
    (∀ (s : String) (e : AmountError), ofText s = .error e ↔ FailsAs s e) ∧
    (∀ (digits : List Char) (n : UInt64),
      ofDigits? digits = some n ↔ n.toNat = Nat.ofDigitChars 10 digits 0) ∧
    (∀ coins fraction n : UInt64,
      magnitude? coins fraction = some n ↔ n.toNat = coins.toNat * 10 ^ 8 + fraction.toNat) ∧
    (∀ (negative : Bool) (magnitude : UInt64) (units : Int64),
      signed? negative magnitude = some units ↔
        units.toInt = if negative then -(magnitude.toNat : Int) else magnitude.toNat) :=
  ⟨fun _ _ => ofText_eq_ok_iff, fun _ _ => ofText_eq_error_iff, fun _ _ => ofDigits?_eq_some_iff,
    fun _ _ _ => magnitude?_eq_some_iff, fun _ _ _ => signed?_eq_some_iff⟩

-- The smallest amount has no positive counterpart, and the fraction is counted in bytes.
example : ofText "-92233720368.54775808" = .ok ⟨Int64.minValue⟩ := by decide +kernel
example : ofText "92233720368.54775808" = .error (.outOfRange "92233720368.54775808") := by
  decide +kernel
example : ofText "--1.é" = .error (.fractionLength 2) := by decide +kernel

/-- **The text of an amount is read back, and it is the canonical one.**  Of the texts that are read
as an amount, it is the one without superfluous zeros in front that is no negative zero. -/
theorem text_canonical :
    (∀ u : Int64, ofText (text ⟨u⟩) = .ok ⟨u⟩ ∧ ∃ d : Numeral 8, d.text = text ⟨u⟩ ∧
      (d.negative = true ↔ u.toInt < 0) ∧ NoLeadingZero d.quotient ∧
      d.value = u.toInt / 10 ^ 8) ∧
    (∀ (s : String) (a : Amount), ofText s = .ok a → ∃ d : Numeral 8, d.text = s ∧
      (a.text = s ↔ NoLeadingZero d.quotient ∧ ¬ d.IsNegativeZero)) := by
  constructor
  · intro u
    refine ⟨ofText_text ⟨u⟩, Numeral.ofUnits 8 u.toInt, Numeral.text_ofUnits _, ?_, ?_, ?_⟩
    · exact Numeral.negative_ofUnits_iff
    · exact Numeral.noLeadingZero_ofUnits _
    · exact Numeral.value_ofUnits _
  · intro s a h
    obtain ⟨d, rfl, hunits⟩ := ofText_eq_ok_iff.mp h
    exact ⟨d, rfl, text_eq_text_iff hunits⟩

/-- Zeros in front are read over, but not shown again. -/
theorem text_canonical_zeros_in_front :
    ofText "-007.50000000" = .ok ⟨-750000000⟩ ∧ text ⟨-750000000⟩ ≠ "-007.50000000" := by
  have hread : ofText "-007.50000000" = .ok ⟨-750000000⟩ := by decide +kernel
  obtain ⟨d, htext, hshown⟩ := text_canonical.2 "-007.50000000" ⟨-750000000⟩ hread
  have hd : d = ⟨true, ['0', '0', '7'], ['5', '0', '0', '0', '0', '0', '0', '0'], by decide,
      by decide, by decide, by decide⟩ := Numeral.text_injective (htext.trans (by decide))
  refine ⟨hread, fun heq => ?_⟩
  obtain ⟨hzero, -⟩ := hshown.mp heq
  rw [hd] at hzero
  cases hzero ['0', '7'] rfl

end UtxoAssets.Amount
