import Mathlib.Data.List.Basic
import Mathlib.Data.List.ModifyLast
import Mathlib.Tactic.Ring
import UtxoAssets.Bytes.Word
import UtxoAssets.Script.Number
import UtxoAssets.Script.Signature

/-!
# What a script number denotes

* `numberOf` — the number of a byte string of any length, by the value of its bytes.
* `pushDigits_eq` — the fold over the bytes from the most significant on adds up that value.
* `scriptNumber_eq_numberOf` — the number that is read of at most eight bytes.
* `number64?` — the same number by 64-bit steps, each of which has to give a 64-bit number;
  `foldlM_pushByte?_eq_some_iff` is the invariant of its fold.
* `lengthened` — the number in more bytes than it needs (`numberOf_lengthened`).
* `scriptNumber_exact` — what is read of any bytes.
-/

set_option autoImplicit false

namespace UtxoAssets

/-- Little-endian, with the top bit of the last byte for a minus sign. -/
def numberOf (bytes : Bytes) : Int :=
  match bytes.getLast? with
  | none => 0
  | some last =>
    let magnitude : Int := ofLittleEndian (bytes.dropLast ++ [last &&& 0x7f])
    if topBit last then -magnitude else magnitude

/-- The last byte holds the sign in its top bit and the highest digits in the others. -/
theorem numberOf_concat (lower : Bytes) (last : UInt8) :
    numberOf (lower ++ [last]) =
      if topBit last then -(ofLittleEndian (lower ++ [last &&& 0x7f]) : Int)
      else ofLittleEndian (lower ++ [last &&& 0x7f]) := by
  rw [numberOf, List.getLast?_concat, List.dropLast_concat]

theorem pushDigits_eq (high : Int) (bytes : Bytes) :
    pushDigits high bytes = high * byteRange bytes.length + ofLittleEndian bytes.reverse := by
  unfold pushDigits
  induction bytes generalizing high with
  | nil => simp [byteRange, ofLittleEndian]
  | cons b bytes ih =>
    rw [List.foldl_cons, ih, List.reverse_cons, ofLittleEndian_append, List.length_reverse,
      List.length_cons, byteRange, ofLittleEndian, ofLittleEndian]
    push_cast
    ring

theorem toNat_and_0x7f (b : UInt8) : (b &&& 0x7f).toNat = b.toNat % 128 := by
  rw [UInt8.toNat_and]
  exact Nat.and_two_pow_sub_one_eq_mod b.toNat 7

theorem topBit_iff (b : UInt8) : topBit b ↔ 128 ≤ b.toNat := by
  rw [topBit, decide_eq_true_iff, UInt8.le_iff_toNat_le]
  rfl

theorem pushDigits_reverse (lower : Bytes) (last : UInt8) :
    pushDigits (last.toNat % 128 : Int) lower.reverse =
      ofLittleEndian (lower ++ [last &&& 0x7f]) := by
  rw [pushDigits_eq, List.length_reverse, List.reverse_reverse, ofLittleEndian_append,
    ofLittleEndian, ofLittleEndian, toNat_and_0x7f]
  push_cast
  ring

theorem scriptNumber_eq_numberOf {bytes : Bytes} (h : bytes.length ≤ maxNumberSize) :
    scriptNumber bytes = .ok (numberOf bytes) := by
  rw [scriptNumber, if_neg (Nat.not_lt.mpr h)]
  rcases List.eq_nil_or_concat' bytes with rfl | ⟨lower, last, rfl⟩
  · rfl
  · rw [List.reverse_append, List.reverse_singleton, List.singleton_append, numberOf_concat]
    dsimp only
    rw [pushDigits_reverse]
    simp only [topBit_iff]

theorem scriptNumber_of_length_gt {bytes : Bytes} (h : maxNumberSize < bytes.length) :
    scriptNumber bytes = .error (.numberTooLong bytes) := if_pos h

/-- Short pushes are read as their exact number, and only those are read. -/
theorem scriptNumber_eq_ok_iff {bytes : Bytes} {n : Int} :
    scriptNumber bytes = .ok n ↔ bytes.length ≤ maxNumberSize ∧ numberOf bytes = n := by
  by_cases h : bytes.length ≤ maxNumberSize
  · rw [scriptNumber_eq_numberOf h, Except.ok.injEq, and_iff_right h]
  · rw [scriptNumber_of_length_gt (Nat.not_le.mp h)]
    exact ⟨nofun, fun hread => absurd hread.1 h⟩

/-! ## How large it is -/

theorem byteRange_eq (k : Nat) : byteRange k = 2 ^ (8 * k) := by
  induction k with
  | zero => rfl
  | succ k ih =>
    rw [byteRange, ih, Nat.mul_succ, Nat.pow_add]
    ring

theorem magnitude_lt (lower : Bytes) (last : UInt8) :
    ofLittleEndian (lower ++ [last &&& 0x7f]) < 2 ^ (8 * lower.length + 7) := by
  have hlower := ofLittleEndian_lt lower
  have htop : last.toNat % 128 ≤ 127 := Nat.le_of_lt_succ (Nat.mod_lt _ (by decide))
  rw [ofLittleEndian_append, ofLittleEndian, ofLittleEndian, toNat_and_0x7f, Nat.mul_zero,
    Nat.add_zero]
  calc ofLittleEndian lower + byteRange lower.length * (last.toNat % 128)
      < byteRange lower.length + byteRange lower.length * (last.toNat % 128) :=
        Nat.add_lt_add_right hlower _
    _ = byteRange lower.length * (last.toNat % 128 + 1) := by ring
    _ ≤ byteRange lower.length * 128 := Nat.mul_le_mul_left _ (Nat.succ_le_succ htop)
    _ = 2 ^ (8 * lower.length + 7) := by rw [byteRange_eq, Nat.pow_add]

theorem natAbs_numberOf_concat (lower : Bytes) (last : UInt8) :
    (numberOf (lower ++ [last])).natAbs = ofLittleEndian (lower ++ [last &&& 0x7f]) := by
  rw [numberOf_concat]
  split
  · rw [Int.natAbs_neg, Int.natAbs_natCast]
  · rw [Int.natAbs_natCast]

/-- One bit of the push is the sign, so the magnitude has one bit less. -/
theorem natAbs_numberOf_lt {bytes : Bytes} (h : bytes ≠ []) :
    (numberOf bytes).natAbs < 2 ^ (8 * bytes.length - 1) := by
  rcases List.eq_nil_or_concat' bytes with rfl | ⟨lower, last, rfl⟩
  · exact absurd rfl h
  · rw [natAbs_numberOf_concat, List.length_append, List.length_singleton,
      Nat.mul_succ]
    exact magnitude_lt lower last

/-! ## By 64-bit steps -/

/-- A byte behind a number: the number is shifted by a byte, and the byte added. -/
def pushByte? (n : Int64) (b : UInt8) : Option Int64 := do
  let shifted ← int64OfInt? (n.toInt * 256)
  int64OfInt? (shifted.toInt + b.toNat)

/-- The number of some bytes, if every step on the way to it gives a 64-bit number. -/
def number64? (bytes : Bytes) : Option Int64 :=
  match bytes.reverse with
  | [] => some 0
  | last :: lower => do
    let start ← int64OfInt? (last.toNat % 128)
    let magnitude ← lower.foldlM pushByte? start
    int64OfInt? (magnitude.toInt * if topBit last then -1 else 1)

theorem le_pushDigits {high : Int} (h : 0 ≤ high) (bytes : Bytes) :
    high ≤ pushDigits high bytes := by
  induction bytes generalizing high with
  | nil => exact Int.le_refl high
  | cons b bytes ih =>
    have hnext : high ≤ high * 256 + b.toNat := by omega
    exact Int.le_trans hnext (ih (by omega))

theorem pushByte?_eq_some_iff {n m : Int64} {b : UInt8} (h : 0 ≤ n.toInt) :
    pushByte? n b = some m ↔ m.toInt = n.toInt * 256 + b.toNat := by
  rw [pushByte?, Option.bind_eq_bind, Option.bind_eq_some_iff]
  simp only [int64OfInt?_eq_some_iff]
  constructor
  · rintro ⟨shifted, hshifted, hm⟩
    rw [hm, hshifted]
  · intro hm
    -- The shifted number is not larger than the sum.
    have hfits : FitsInt64 (n.toInt * 256) := by
      have hmost := m.toInt_lt
      constructor <;> omega
    obtain ⟨shifted, hshifted⟩ := hfits.exists_toInt
    exact ⟨shifted, hshifted, by rw [hm, hshifted]⟩

/-- By induction on the bytes: no step leaves the 64 bits unless the whole number does. -/
theorem foldlM_pushByte?_eq_some_iff {lower : Bytes} {n m : Int64} (h : 0 ≤ n.toInt) :
    lower.foldlM pushByte? n = some m ↔ m.toInt = pushDigits n.toInt lower := by
  induction lower generalizing n with
  | nil =>
    rw [List.foldlM_nil, pushDigits, List.foldl_nil, Int64.toInt_inj]
    exact Option.some_inj.trans eq_comm
  | cons b lower ih =>
    have hstep : pushDigits n.toInt (b :: lower) = pushDigits (n.toInt * 256 + b.toNat) lower := rfl
    rw [List.foldlM_cons, Option.bind_eq_bind, Option.bind_eq_some_iff, hstep]
    simp only [pushByte?_eq_some_iff h]
    constructor
    · rintro ⟨next, hnext, hm⟩
      rw [← hnext]
      exact (ih (by omega)).mp hm
    · intro hm
      have hle : n.toInt * 256 + b.toNat ≤ pushDigits (n.toInt * 256 + b.toNat) lower :=
        le_pushDigits (by omega) lower
      have hfits : FitsInt64 (n.toInt * 256 + b.toNat) := by
        have hmost := m.toInt_lt
        constructor <;> omega
      obtain ⟨next, hnext⟩ := hfits.exists_toInt
      exact ⟨next, hnext, (ih (by omega)).mpr (by rw [hm, hnext])⟩

theorem magnitude_lt_of_length {lower : Bytes} (h : lower.length < maxNumberSize) (last : UInt8) :
    ofLittleEndian (lower ++ [last &&& 0x7f]) < 2 ^ 63 := by
  have hexponent : 8 * lower.length + 7 ≤ 63 := by
    simp only [maxNumberSize] at h
    omega
  exact Nat.lt_of_lt_of_le (magnitude_lt lower last)
    (Nat.pow_le_pow_right (by decide) hexponent)

/-- Eight bytes are few enough for every step. -/
theorem exists_number64? {bytes : Bytes} (h : bytes.length ≤ maxNumberSize) :
    ∃ n, number64? bytes = some n ∧ n.toInt = numberOf bytes := by
  rcases List.eq_nil_or_concat' bytes with rfl | ⟨lower, last, rfl⟩
  · exact ⟨0, rfl, rfl⟩
  · rw [List.length_append, List.length_singleton] at h
    have hmagnitude := magnitude_lt_of_length h last
    generalize hvalue : ofLittleEndian (lower ++ [last &&& 0x7f]) = value at hmagnitude
    have hfits : FitsInt64 (last.toNat % 128) := by
      constructor <;> omega
    obtain ⟨start, hstart⟩ := hfits.exists_toInt
    obtain ⟨magnitude, hm⟩ := FitsInt64.exists_toInt (n := value) (by constructor <;> omega)
    have hfold : lower.reverse.foldlM pushByte? start = some magnitude := by
      rw [foldlM_pushByte?_eq_some_iff (by omega), hstart, pushDigits_reverse, hvalue, hm]
    have hsigned : magnitude.toInt * (if topBit last then -1 else 1) =
        numberOf (lower ++ [last]) := by
      rw [numberOf_concat, hvalue, hm]
      split
      · exact Int.mul_neg_one _
      · exact Int.mul_one _
    obtain ⟨n, hn⟩ := FitsInt64.exists_toInt (n := numberOf (lower ++ [last])) (by
      have habs := natAbs_numberOf_concat lower last
      rw [hvalue] at habs
      constructor <;> omega)
    refine ⟨n, ?_, hn⟩
    rw [number64?, List.reverse_append, List.reverse_singleton,
      List.singleton_append]
    dsimp only
    rw [int64OfInt?_eq_some_iff.mpr hstart, Option.bind_eq_bind, Option.bind_some, hfold,
      Option.bind_some, hsigned]
    exact int64OfInt?_eq_some_iff.mpr hn

/-! ## The same number in more bytes -/

/-- Whether the last byte says that the number is negative. -/
def signBit (bytes : Bytes) : Bool := bytes.getLast?.any topBit

/-- Zero bytes behind the magnitude; a minus sign moves to the last of them. -/
def lengthened (bytes : Bytes) (zeros : Nat) : Bytes :=
  if signBit bytes then
    (bytes.modifyLast (· &&& 0x7f) ++ List.replicate zeros 0x00).modifyLast (· ||| 0x80)
  else bytes ++ List.replicate zeros 0x00

theorem signBit_concat (lower : Bytes) (last : UInt8) :
    signBit (lower ++ [last]) = topBit last := by
  rw [signBit, List.getLast?_concat, Option.any_some]

theorem exists_concat_of_signBit {bytes : Bytes} (h : signBit bytes) :
    ∃ lower last, bytes = lower ++ [last] ∧ topBit last := by
  rcases List.eq_nil_or_concat' bytes with rfl | ⟨lower, last, rfl⟩
  · cases h
  · rw [signBit_concat] at h
    exact ⟨lower, last, rfl, h⟩

theorem length_modifyLast (f : UInt8 → UInt8) (bytes : Bytes) :
    (bytes.modifyLast f).length = bytes.length := by
  rcases List.eq_nil_or_concat' bytes with rfl | ⟨lower, last, rfl⟩
  · rfl
  · rw [List.modifyLast_concat, List.length_append, List.length_append,
      List.length_singleton, List.length_singleton]

theorem length_lengthened (bytes : Bytes) (zeros : Nat) :
    (lengthened bytes zeros).length = bytes.length + zeros := by
  unfold lengthened
  split
  · rw [length_modifyLast, List.length_append, length_modifyLast, List.length_replicate]
  · rw [List.length_append, List.length_replicate]

theorem ofLittleEndian_append_zeros (bytes : Bytes) (zeros : Nat) :
    ofLittleEndian (bytes ++ List.replicate zeros 0x00) = ofLittleEndian bytes := by
  have hzeros : ofLittleEndian (List.replicate zeros 0x00) = 0 := by
    induction zeros with
    | zero => rfl
    | succ zeros ih =>
      rw [List.replicate_succ, ofLittleEndian, ih]
      rfl
  rw [ofLittleEndian_append, hzeros, Nat.mul_zero, Nat.add_zero]

theorem signBit_append_zeros {bytes : Bytes} (h : ¬ signBit bytes) (zeros : Nat) :
    ¬ signBit (bytes ++ List.replicate zeros 0x00) := by
  cases zeros with
  | zero => rwa [List.replicate_zero, List.append_nil]
  | succ zeros =>
    rw [List.replicate_succ', ← List.append_assoc, signBit_concat]
    decide

theorem topBit_and_0x7f (b : UInt8) : ¬ topBit (b &&& 0x7f) := by
  rw [topBit_iff, toNat_and_0x7f]
  exact Nat.not_le.mpr (Nat.mod_lt _ (by decide))

theorem topBit_or_0x80 (b : UInt8) : topBit (b ||| 0x80) := by
  rw [topBit_iff, UInt8.toNat_or]
  exact Nat.right_le_or

theorem and_0x7f_of_not_topBit {b : UInt8} (h : ¬ topBit b) : b &&& 0x7f = b := by
  rw [topBit_iff] at h
  apply UInt8.toNat_inj.mp
  rw [toNat_and_0x7f]
  exact Nat.mod_eq_of_lt (Nat.not_le.mp h)

theorem or_0x80_and_0x7f (b : UInt8) : (b ||| 0x80) &&& 0x7f = b &&& 0x7f := by
  apply UInt8.toNat_inj.mp
  rw [toNat_and_0x7f, toNat_and_0x7f, UInt8.toNat_or]
  change (b.toNat ||| 128) % 2 ^ 7 = b.toNat % 2 ^ 7
  rw [Nat.or_mod_two_pow]
  exact Nat.or_zero _

theorem numberOf_of_not_signBit {bytes : Bytes} (h : ¬ signBit bytes) :
    numberOf bytes = ofLittleEndian bytes := by
  rcases List.eq_nil_or_concat' bytes with rfl | ⟨lower, last, rfl⟩
  · rfl
  · rw [signBit_concat] at h
    rw [numberOf_concat, if_neg h, and_0x7f_of_not_topBit h]

theorem numberOf_modifyLast_or {bytes : Bytes} (hne : bytes ≠ []) (h : ¬ signBit bytes) :
    numberOf (bytes.modifyLast (· ||| 0x80)) = -(ofLittleEndian bytes : Int) := by
  rcases List.eq_nil_or_concat' bytes with rfl | ⟨lower, last, rfl⟩
  · exact absurd rfl hne
  · rw [signBit_concat] at h
    rw [List.modifyLast_concat, numberOf_concat, if_pos (topBit_or_0x80 last), or_0x80_and_0x7f,
      and_0x7f_of_not_topBit h]

/-- Zero bytes put in below the sign leave the number as it is. -/
theorem numberOf_lengthened (bytes : Bytes) (zeros : Nat) :
    numberOf (lengthened bytes zeros) = numberOf bytes := by
  unfold lengthened
  split
  next hsign =>
    obtain ⟨lower, last, rfl, hlast⟩ := exists_concat_of_signBit hsign
    have hclear : ¬ signBit (lower ++ [last &&& 0x7f]) := by
      rw [signBit_concat]
      exact topBit_and_0x7f last
    rw [List.modifyLast_concat,
      numberOf_modifyLast_or (by simp) (signBit_append_zeros hclear zeros),
      ofLittleEndian_append_zeros, numberOf_concat, if_pos hlast]
  next hsign =>
    rw [numberOf_of_not_signBit (signBit_append_zeros hsign zeros), ofLittleEndian_append_zeros,
      numberOf_of_not_signBit hsign]

/-! ## All of it -/

/-- At most eight bytes are read as the magnitude of all bits but the last byte's top bit, with
that bit for the sign. No step on the way leaves 64 bits, the number is smaller than what all the
bits would hold, so never the least one, and more bytes than needed denote it as well. -/
theorem scriptNumber_exact :
    scriptNumber [] = .ok 0 ∧
    (∀ lower last, lower.length < maxNumberSize →
      scriptNumber (lower ++ [last]) =
        .ok ((if topBit last then -1 else 1) * ofLittleEndian (lower ++ [last &&& 0x7f]))) ∧
    (∀ bytes, bytes.length ≤ maxNumberSize →
      ∃ n, number64? bytes = some n ∧ scriptNumber bytes = .ok n.toInt) ∧
    (∀ bytes n, bytes ≠ [] → scriptNumber bytes = .ok n →
      n.natAbs ≤ 2 ^ (8 * bytes.length - 1) - 1 ∧ n ≠ Int64.minValue.toInt) ∧
    (∀ bytes zeros, bytes.length + zeros ≤ maxNumberSize →
      (lengthened bytes zeros).length = bytes.length + zeros ∧
      scriptNumber (lengthened bytes zeros) = scriptNumber bytes) ∧
    ∀ bytes, maxNumberSize < bytes.length →
      scriptNumber bytes = .error (.numberTooLong bytes) := by
  refine ⟨rfl, ?value, ?steps, ?bound, ?longer, ?tooLong⟩
  case value =>
    intro lower last h
    have hlength : (lower ++ [last]).length ≤ maxNumberSize := by
      rwa [List.length_append, List.length_singleton]
    rw [scriptNumber_eq_numberOf hlength, numberOf_concat]
    split
    · rw [Int.neg_one_mul]
    · rw [Int.one_mul]
  case steps =>
    intro bytes h
    obtain ⟨n, hn, hvalue⟩ := exists_number64? h
    exact ⟨n, hn, by rw [scriptNumber_eq_numberOf h, hvalue]⟩
  case bound =>
    intro bytes n hne hread
    obtain ⟨hlength, rfl⟩ := scriptNumber_eq_ok_iff.mp hread
    have hlt := natAbs_numberOf_lt hne
    refine ⟨Nat.le_sub_one_of_lt hlt, ?_⟩
    -- The least number would need all of 64 bits for its magnitude.
    intro hleast
    have hmost : 2 ^ (8 * bytes.length - 1) ≤ 2 ^ 63 :=
      Nat.pow_le_pow_right (by decide) (by simp only [maxNumberSize] at hlength; omega)
    rw [hleast] at hlt
    exact absurd (Nat.lt_of_lt_of_le hlt hmost) (by decide)
  case longer =>
    intro bytes zeros h
    have hlength : (lengthened bytes zeros).length ≤ maxNumberSize := by
      rwa [length_lengthened]
    refine ⟨length_lengthened bytes zeros, ?_⟩
    rw [scriptNumber_eq_numberOf hlength, numberOf_lengthened,
      scriptNumber_eq_numberOf (Nat.le_of_add_right_le h)]
  case tooLong => exact fun bytes h => scriptNumber_of_length_gt h

/-- Eight bytes of ones, one byte in the place of eight, and nine bytes. -/
theorem scriptNumber_exact_samples :
    (∃ n, number64? (List.replicate 8 0xff) = some n ∧
      scriptNumber (List.replicate 8 0xff) = .ok n.toInt) ∧
    scriptNumber (List.replicate 7 0xff ++ [0xff]) =
      .ok ((if topBit 0xff then -1 else 1) *
        ofLittleEndian (List.replicate 7 0xff ++ [0xff &&& 0x7f])) ∧
    ((0x7fffffffffffffff : Int).natAbs ≤
        2 ^ (8 * (List.replicate 7 0xff ++ [0x7f] : Bytes).length - 1) - 1 ∧
      0x7fffffffffffffff ≠ Int64.minValue.toInt) ∧
    ((lengthened [0x81] 7).length = 8 ∧
      scriptNumber (lengthened [0x81] 7) = scriptNumber [0x81]) ∧
    scriptNumber (List.replicate 9 0x00) = .error (.numberTooLong (List.replicate 9 0x00)) := by
  obtain ⟨-, value, steps, bound, longer, tooLong⟩ := scriptNumber_exact
  exact ⟨steps _ (by decide), value _ _ (by decide),
    bound (List.replicate 7 0xff ++ [0x7f]) 0x7fffffffffffffff (by decide) rfl,
    longer [0x81] 7 (by decide), tooLong _ (by decide)⟩

end UtxoAssets
