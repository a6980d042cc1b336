import Mathlib.Data.List.Induction
import UtxoAssets.Amount
import UtxoAssets.Digest.Hash256

/-!
# Digits are read back

Numbers and hashes are shown as ASCII text.

* `Text.utf8_ofList_ascii` — an ASCII text has one byte for each character.
* `Text.forall_mem_utf8_iff` — what holds of ASCII bytes only, of all bytes of a text.
* `Text.isDigits_iff` — a text is made of digits if its bytes are.
* `Text.ofDigitChars_digitsOf`, `Text.digitsOf_ofDigitChars` — digits of a known number and their
  value determine each other; `Text.toDigits_ofDigitChars` says so of digits without superfluous
  zeros.
* `Hash256.ofText_text` — a hash is read back from its text.
-/

set_option autoImplicit false

namespace UtxoAssets

namespace Text

/-! ## ASCII -/

theorem utf8EncodeChar_ascii {c : Char} (h : c.toNat < 0x80) :
    String.utf8EncodeChar c = [UInt8.ofNat c.toNat] := by
  have hle : c.val.toNat ≤ 0x7f := Nat.le_of_lt_succ h
  simp only [String.utf8EncodeChar, if_pos hle]
  rfl

theorem utf8_ofList_ascii {cs : List Char} (h : ∀ c ∈ cs, c.toNat < 0x80) :
    utf8 (String.ofList cs) = cs.map fun c => UInt8.ofNat c.toNat := by
  rw [utf8, String.toList_ofList]
  induction cs with
  | nil => rfl
  | cons c cs ih =>
    obtain ⟨hc, hcs⟩ := List.forall_mem_cons.mp h
    rw [List.flatMap_cons, utf8EncodeChar_ascii hc, ih hcs]
    rfl

theorem length_utf8_ascii {s : String} (h : ∀ c ∈ s.toList, c.toNat < 0x80) :
    (utf8 s).length = s.toList.length := by
  have hbytes := utf8_ofList_ascii h
  rw [String.ofList_toList] at hbytes
  rw [hbytes, List.length_map]

/-- The last byte of a character past ASCII continues it. -/
theorem exists_mem_utf8EncodeChar_ge {c : Char} (h : 0x80 ≤ c.toNat) :
    ∃ b ∈ String.utf8EncodeChar c, 0x80 ≤ b.toNat := by
  have hlarge : ¬ c.val.toNat ≤ 0x7f := Nat.not_le.mpr h
  refine ⟨UInt8.ofNat (c.val.toNat % 0x40 + 0x80), ?_, ?_⟩
  · simp only [String.utf8EncodeChar, if_neg hlarge]
    split
    · simp
    · split
      · simp
      · simp
  · rw [toNat_byte (by omega)]
    exact Nat.le_add_left _ _

/-- What holds of ASCII bytes only holds of all bytes of a character if the character is ASCII. -/
theorem forall_mem_utf8EncodeChar_iff {P : UInt8 → Prop} (hP : ∀ b, P b → b.toNat < 0x80)
    {c : Char} :
    (∀ b ∈ String.utf8EncodeChar c, P b) ↔ c.toNat < 0x80 ∧ P (UInt8.ofNat c.toNat) := by
  by_cases hascii : c.toNat < 0x80
  · rw [utf8EncodeChar_ascii hascii, List.forall_mem_singleton, and_iff_right hascii]
  · constructor
    · intro h
      obtain ⟨b, hb, hhigh⟩ := exists_mem_utf8EncodeChar_ge (Nat.not_lt.mp hascii)
      exact absurd (hP b (h b hb)) (Nat.not_lt.mpr hhigh)
    · exact fun h => absurd h.1 hascii

/-- A property of ASCII bytes may be tested on the bytes of a text or on its characters. -/
theorem forall_mem_utf8_iff {P : UInt8 → Prop} (hP : ∀ b, P b → b.toNat < 0x80) {s : String} :
    (∀ b ∈ utf8 s, P b) ↔ ∀ c ∈ s.toList, c.toNat < 0x80 ∧ P (UInt8.ofNat c.toNat) := by
  simp only [utf8, List.mem_flatMap, ← forall_mem_utf8EncodeChar_iff hP]
  constructor
  · intro h c hc b hb
    exact h b ⟨c, hc, hb⟩
  · rintro h b ⟨c, hc, hb⟩
    exact h c hc b hb

theorem lt_of_isDigit {c : Char} (h : c.isDigit) : c.toNat < 0x80 := by
  have hle : c.toNat ≤ '9'.toNat := (Char.isDigit_iff_toNat.mp h).2
  exact Nat.lt_of_le_of_lt hle (by decide)

/-- An ASCII digit as a byte. -/
def IsDigitByte (b : UInt8) : Prop := 0x30 ≤ b ∧ b ≤ 0x39

theorem IsDigitByte.lt {b : UInt8} (h : IsDigitByte b) : b.toNat < 0x80 :=
  Nat.lt_of_le_of_lt (UInt8.le_iff_toNat_le.mp h.2) (by decide)

theorem isDigit_iff {c : Char} :
    c.isDigit = true ↔ c.toNat < 0x80 ∧ IsDigitByte (UInt8.ofNat c.toNat) := by
  have hbyte (h : c.toNat < 0x80) : IsDigitByte (UInt8.ofNat c.toNat) ↔ c.isDigit = true := by
    rw [Char.isDigit_iff_toNat, IsDigitByte, UInt8.le_iff_toNat_le, UInt8.le_iff_toNat_le,
      toNat_byte (by omega)]
    rfl
  constructor
  · exact fun h => ⟨lt_of_isDigit h, (hbyte (lt_of_isDigit h)).mpr h⟩
  · exact fun ⟨hlt, h⟩ => (hbyte hlt).mp h

theorem isDigits_iff {cs : List Char} :
    isDigits cs = true ↔ ∀ b ∈ utf8 (String.ofList cs), IsDigitByte b := by
  rw [forall_mem_utf8_iff fun b => IsDigitByte.lt, String.toList_ofList, isDigits,
    List.all_eq_true]
  simp only [isDigit_iff]

/-! ## Decimal texts -/

theorem isDigits_toDigits (n : Nat) : isDigits (Nat.toDigits 10 n) = true :=
  List.all_eq_true.mpr fun _ => Nat.isDigit_of_mem_toDigits (by decide) (by decide)

theorem isDigits_digitsOf (k n : Nat) : isDigits (digitsOf k n) = true := by
  have hdigit : ∀ d < 10, (Nat.digitChar d).isDigit := by decide
  induction k generalizing n with
  | zero => rfl
  | succ k ih =>
    have hlast := hdigit (n % 10) (Nat.mod_lt n (by decide))
    have hfront := ih (n / 10)
    rw [isDigits] at hfront ⊢
    simp [digitsOf, hfront, hlast]

/-- A number that fits the places is read from its digits. -/
theorem ofDigitChars_digitsOf {k n : Nat} (h : n < scale k) :
    Nat.ofDigitChars 10 (digitsOf k n) 0 = n := by
  induction k generalizing n with
  | zero =>
    have hzero : n = 0 := by simpa [scale] using h
    subst hzero
    rfl
  | succ k ih =>
    have hfront : n / 10 < scale k := by
      rw [scale] at h
      omega
    have hlast : n % 10 < 10 := Nat.mod_lt n (by decide)
    rw [digitsOf, Nat.ofDigitChars_append, ih hfront,
      Nat.ofDigitChars_cons_digitChar_of_lt_ten hlast, Nat.ofDigitChars_nil]
    omega

/-! ### Digits of their value -/

theorem digitChar_of_isDigit {c : Char} (h : c.isDigit) :
    Nat.digitChar (c.toNat - '0'.toNat) = c := by
  have hall : ∀ k < 10, Nat.digitChar k = Char.ofNat (48 + k) := by decide
  obtain ⟨hlow, hhigh⟩ := Char.isDigit_iff_toNat.mp h
  change 48 ≤ c.toNat at hlow
  change c.toNat ≤ 57 at hhigh
  change Nat.digitChar (c.toNat - 48) = c
  rw [hall _ (by omega), Nat.add_sub_cancel' hlow]
  exact Char.ofNat_toNat c

theorem digit_lt_ten {c : Char} (h : c.isDigit) : c.toNat - '0'.toNat < 10 := by
  have hhigh : c.toNat ≤ 57 := (Char.isDigit_iff_toNat.mp h).2
  change c.toNat - 48 < 10
  omega

theorem isDigits_concat {cs : List Char} {c : Char} :
    isDigits (cs ++ [c]) = true ↔ isDigits cs = true ∧ c.isDigit = true := by
  simp [isDigits]

theorem ofDigitChars_concat (cs : List Char) (c : Char) :
    Nat.ofDigitChars 10 (cs ++ [c]) 0 = 10 * Nat.ofDigitChars 10 cs 0 + (c.toNat - '0'.toNat) := by
  rw [Nat.ofDigitChars_append, Nat.ofDigitChars_cons, Nat.ofDigitChars_nil]

theorem ofDigitChars_lt {cs : List Char} (h : isDigits cs = true) :
    Nat.ofDigitChars 10 cs 0 < scale cs.length := by
  induction cs using List.reverseRecOn with
  | nil => decide
  | append_singleton cs c ih =>
    obtain ⟨hcs, hc⟩ := isDigits_concat.mp h
    have hfront := ih hcs
    have hlast := digit_lt_ten hc
    rw [ofDigitChars_concat, List.length_append, List.length_singleton, scale]
    omega

/-- A row of digits is the digits of its number, at its own length. -/
theorem digitsOf_ofDigitChars {cs : List Char} (h : isDigits cs = true) :
    digitsOf cs.length (Nat.ofDigitChars 10 cs 0) = cs := by
  induction cs using List.reverseRecOn with
  | nil => rfl
  | append_singleton cs c ih =>
    obtain ⟨hcs, hc⟩ := isDigits_concat.mp h
    have hlast := digit_lt_ten hc
    rw [ofDigitChars_concat, List.length_append, List.length_singleton, digitsOf,
      Nat.mul_add_div (by decide), Nat.div_eq_of_lt hlast, Nat.add_zero, ih hcs,
      Nat.mul_add_mod, Nat.mod_eq_of_lt hlast, digitChar_of_isDigit hc]

/-- No zero stands in front of another digit. -/
def NoLeadingZero (cs : List Char) : Prop := ∀ rest, cs = '0' :: rest → rest = []

theorem noLeadingZero_toDigits (n : Nat) : NoLeadingZero (Nat.toDigits 10 n) := by
  induction n using Nat.strongRecOn with
  | ind n ih =>
    intro rest heq
    by_cases hsmall : n < 10
    · rw [Nat.toDigits_of_lt_base hsmall] at heq
      exact (List.cons_eq_cons.mp heq).2.symm
    · have hten : 10 ≤ n := Nat.not_lt.mp hsmall
      rw [Nat.toDigits_of_base_le (by decide) hten] at heq
      cases hfront : Nat.toDigits 10 (n / 10) with
      | nil => exact absurd hfront Nat.toDigits_ne_nil
      | cons c cs =>
        rw [hfront, List.cons_append] at heq
        obtain ⟨rfl, -⟩ := List.cons_eq_cons.mp heq
        -- What stands before the last digit would be a zero alone, but `n` has more than one digit.
        obtain rfl := ih (n / 10) (by omega) cs hfront
        have hvalue := Nat.ofDigitChars_ten_toDigits (n := n / 10)
        rw [hfront] at hvalue
        have hzero : n / 10 = 0 := hvalue.symm
        omega

theorem NoLeadingZero.of_concat {cs : List Char} {c : Char} (h : NoLeadingZero (cs ++ [c])) :
    NoLeadingZero cs ∧ cs ≠ ['0'] := by
  constructor
  · rintro rest rfl
    exact absurd (h (rest ++ [c]) rfl) (by simp)
  · rintro rfl
    exact absurd (h [c] rfl) (by simp)

/-- Without a leading zero no length is needed. -/
theorem toDigits_ofDigitChars {cs : List Char} (hne : cs ≠ []) (hdigits : isDigits cs = true)
    (hzero : NoLeadingZero cs) : Nat.toDigits 10 (Nat.ofDigitChars 10 cs 0) = cs := by
  induction cs using List.reverseRecOn with
  | nil => exact absurd rfl hne
  | append_singleton cs c ih =>
    obtain ⟨hcs, hc⟩ := isDigits_concat.mp hdigits
    have hlast := digit_lt_ten hc
    have hchar := digitChar_of_isDigit hc
    rw [ofDigitChars_concat]
    by_cases hnil : cs = []
    · subst hnil
      rw [Nat.ofDigitChars_nil, Nat.mul_zero, Nat.zero_add, Nat.toDigits_of_lt_base hlast, hchar]
      rfl
    · obtain ⟨hfrontZero, hnotZero⟩ := hzero.of_concat
      have hfront := ih hnil hcs hfrontZero
      have hpos : 0 < Nat.ofDigitChars 10 cs 0 := by
        apply Nat.pos_of_ne_zero
        intro hvalue
        rw [hvalue] at hfront
        exact hnotZero hfront.symm
      rw [← Nat.toDigits_append_toDigits (by decide) hpos hlast, hfront,
        Nat.toDigits_of_lt_base hlast, hchar]

theorem scale_pos (places : Nat) : 0 < scale places := by
  induction places with
  | zero => decide
  | succ places ih =>
    rw [scale]
    omega

theorem point_not_mem_of_isDigits {cs : List Char} (h : isDigits cs = true) : '.' ∉ cs := fun hmem =>
  absurd (List.all_eq_true.mp h '.' hmem) (by decide)

theorem splitAtPoint_eq_none_iff {cs : List Char} : splitAtPoint cs = none ↔ '.' ∉ cs := by
  induction cs with
  | nil => simp [splitAtPoint]
  | cons c cs ih =>
    rw [splitAtPoint, List.mem_cons, not_or, eq_comm (a := '.')]
    by_cases hc : c = '.'
    · simp [hc]
    · simp [hc, ih]

theorem splitAtPoint_eq_some_iff {cs quotient fraction : List Char} :
    splitAtPoint cs = some (quotient, fraction) ↔
      cs = quotient ++ '.' :: fraction ∧ '.' ∉ quotient := by
  induction cs generalizing quotient fraction with
  | nil => simp [splitAtPoint]
  | cons c cs ih =>
    rw [splitAtPoint]
    by_cases hc : c = '.'
    · rw [if_pos hc]
      cases quotient with
      | nil => simp [hc]
      | cons q quotient =>
        rw [List.cons_append, List.cons_eq_cons, List.mem_cons, not_or]
        constructor
        · intro heq
          cases heq
        · rintro ⟨⟨hq, -⟩, hne, -⟩
          exact absurd (hc.symm.trans hq) hne
    · rw [if_neg hc]
      cases quotient with
      | nil => simp [hc]
      | cons q quotient =>
        simp only [Option.map_eq_some_iff, Prod.exists, Prod.mk.injEq, List.cons_eq_cons, ih,
          List.cons_append, List.mem_cons, not_or]
        constructor
        · rintro ⟨_, _, ⟨rfl, hpoint⟩, ⟨rfl, rfl⟩, rfl⟩
          exact ⟨⟨rfl, rfl⟩, Ne.symm hc, hpoint⟩
        · rintro ⟨⟨rfl, rfl⟩, -, hpoint⟩
          exact ⟨quotient, fraction, ⟨rfl, hpoint⟩, ⟨rfl, rfl⟩, rfl⟩

theorem length_utf8_of_isDigits {cs : List Char} (h : isDigits cs = true) :
    (utf8 (String.ofList cs)).length = cs.length := by
  have hascii : ∀ c ∈ (String.ofList cs).toList, c.toNat < 0x80 := by
    rw [String.toList_ofList]
    exact fun c hc => lt_of_isDigit (List.all_eq_true.mp h c hc)
  rw [length_utf8_ascii hascii, String.toList_ofList]

end Text

/-! ## Hexadecimal texts and hashes -/

theorem exists_of_mem_hexChars {bs : Bytes} {c : Char} (h : c ∈ hexChars bs) :
    ∃ d < 16, c = hexDigit d := by
  obtain ⟨b, -, hc⟩ := List.mem_flatMap.mp h
  have hb := b.toNat_lt
  simp only [hexByte, List.mem_cons, List.not_mem_nil, or_false] at hc
  rcases hc with hhigh | hlow
  · exact ⟨b.toNat / 16, by omega, hhigh⟩
  · exact ⟨b.toNat % 16, by omega, hlow⟩

/-- The digits of a byte string as ASCII bytes. -/
def hexBytes (bs : Bytes) : Bytes :=
  bs.flatMap fun b =>
    [UInt8.ofNat (hexDigit (b.toNat / 16)).toNat, UInt8.ofNat (hexDigit (b.toNat % 16)).toNat]

theorem utf8_hex (bs : Bytes) : Text.utf8 (hex bs) = hexBytes bs := by
  have hdigit : ∀ d < 16, (hexDigit d).toNat < 0x80 := by decide
  have hascii : ∀ c ∈ hexChars bs, c.toNat < 0x80 := by
    intro c hc
    obtain ⟨d, hd, rfl⟩ := exists_of_mem_hexChars hc
    exact hdigit d hd
  rw [hex, Text.utf8_ofList_ascii hascii, hexChars, List.map_flatMap]
  rfl

theorem length_hexBytes (bs : Bytes) : (hexBytes bs).length = 2 * bs.length := by
  induction bs with
  | nil => rfl
  | cons b bs ih =>
    change (_ :: _ :: hexBytes bs).length = _
    rw [List.length_cons, List.length_cons, List.length_cons, ih]
    omega

namespace Hash256

theorem digitAt_hexDigit {d : Nat} (h : d < 16) (position : Nat) :
    digitAt position (UInt8.ofNat (hexDigit d).toNat) = .ok d := by
  have hall : ∀ d < 16, hexValue? (Char.ofNat (UInt8.ofNat (hexDigit d).toNat).toNat) = some d := by
    decide
  rw [digitAt, hall d h]

theorem readPairs_hexBytes (position : Nat) (bs : Bytes) :
    readPairs position (hexBytes bs) = .ok bs := by
  induction bs generalizing position with
  | nil => rfl
  | cons b bs ih =>
    have hb := b.toNat_lt
    have hvalue : UInt8.ofNat (16 * (b.toNat / 16) + b.toNat % 16) = b := by
      rw [Nat.div_add_mod, UInt8.ofNat_toNat]
    change readPairs position (_ :: _ :: hexBytes bs) = _
    rw [readPairs, digitAt_hexDigit (by omega), digitAt_hexDigit (by omega), ih (position + 2)]
    change Except.ok (UInt8.ofNat (16 * (b.toNat / 16) + b.toNat % 16) :: bs) = _
    rw [hvalue]

/-- The hash whose bytes, last first, were read. -/
def ofReversed (bs : Bytes) : Except HashTextError Hash256 :=
  match FixedBytes.ofBytes? 32 bs with
  | some h => .ok h.reverse
  | none => .error .wrongLength

theorem ofReversed_toBytes (h : Hash256) : ofReversed h.toBytes = .ok h.reverse := by
  rw [ofReversed, FixedBytes.ofBytes?_toBytes]

theorem ofText_eq {s : String} (h : (Text.utf8 s).length = 64) :
    ofText s = readPairs 0 (Text.utf8 s) >>= ofReversed := by
  unfold ofText
  dsimp only
  rw [if_neg (by rw [h]; decide), if_neg (not_not_intro h)]
  rfl

theorem ofText_text (h : Hash256) : ofText h.text = .ok h := by
  have hbytes : Text.utf8 h.text = hexBytes h.reverse.toBytes := utf8_hex h.reverse.toBytes
  have hlength : (Text.utf8 h.text).length = 64 := by
    rw [hbytes, length_hexBytes, h.reverse.length_toBytes]
  rw [ofText_eq hlength, hbytes, readPairs_hexBytes]
  change ofReversed h.reverse.toBytes = _
  rw [ofReversed_toBytes, FixedBytes.reverse_reverse]

end Hash256

end UtxoAssets
