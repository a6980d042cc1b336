import UtxoAssets.Proofs.Text.Digits

/-!
# Texts of hashes

* `getElem?_hexChars` — where the digits of a byte stand.
* `readPairs_eq_ok`, `readPairs_eq_error` — what is read of pairs of digits, and of bytes among
  which one is no digit.
* `Hash256.TextFails` — the error of a text that is none of a hash.
* `Hash256.text_exact` — the text of a hash, and what is read of any text.
-/

set_option autoImplicit false

namespace UtxoAssets

/-! ## Digits -/

/-- The digit of each value. -/
def lowerHexDigits : List Char :=
  ['0', '1', '2', '3', '4', '5', '6', '7', '8', '9', 'a', 'b', 'c', 'd', 'e', 'f']

/-- The digits that may stand in the text of a hash. -/
def hexDigits : List Char := lowerHexDigits ++ ['A', 'B', 'C', 'D', 'E', 'F']

/-- A hexadecimal digit of either case. -/
def IsHexDigit (c : Char) : Prop := c ∈ hexDigits

instance (c : Char) : Decidable (IsHexDigit c) := inferInstanceAs (Decidable (_ ∈ _))

/-- A hexadecimal digit as a byte. -/
def IsHexByte (b : UInt8) : Prop := IsHexDigit (Char.ofNat b.toNat)

instance (b : UInt8) : Decidable (IsHexByte b) := inferInstanceAs (Decidable (IsHexDigit _))

theorem lowerHexDigits_getElem? {d : Nat} (h : d < 16) :
    lowerHexDigits[d]? = some (hexDigit d) := by
  have hall : ∀ d < 16, lowerHexDigits[d]? = some (hexDigit d) := by decide
  exact hall d h

theorem IsHexDigit.lt {c : Char} (h : IsHexDigit c) : c.toNat < 0x80 := by
  have hall : hexDigits.all (fun c => c.toNat < 0x80) = true := by decide
  exact of_decide_eq_true (List.all_eq_true.mp hall c h)

theorem toNat_ofNat_byte (b : UInt8) : (Char.ofNat b.toNat).toNat = b.toNat := by
  have hlt := b.toNat_lt
  rw [Char.ofNat, dif_pos (Or.inl (by omega))]
  rfl

theorem IsHexByte.lt {b : UInt8} (h : IsHexByte b) : b.toNat < 0x80 := by
  rw [← toNat_ofNat_byte b]
  exact IsHexDigit.lt h

theorem ofNat_toNat_byte {c : Char} (h : c.toNat < 0x80) :
    Char.ofNat (UInt8.ofNat c.toNat).toNat = c := by
  rw [Text.toNat_byte (by omega), Char.ofNat_toNat]

theorem isHexDigit_iff {c : Char} :
    IsHexDigit c ↔ c.toNat < 0x80 ∧ IsHexByte (UInt8.ofNat c.toNat) := by
  have hbyte (h : c.toNat < 0x80) : IsHexByte (UInt8.ofNat c.toNat) ↔ IsHexDigit c := by
    rw [IsHexByte, ofNat_toNat_byte h]
  constructor
  · exact fun h => ⟨h.lt, (hbyte h.lt).mpr h⟩
  · exact fun ⟨hlt, h⟩ => (hbyte hlt).mp h

theorem getElem?_hexChars (bs : Bytes) (i : Nat) :
    (hexChars bs)[2 * i]? = bs[i]?.map (fun b => hexDigit (b.toNat / 16)) ∧
    (hexChars bs)[2 * i + 1]? = bs[i]?.map (fun b => hexDigit (b.toNat % 16)) := by
  induction bs generalizing i with
  | nil => exact ⟨rfl, rfl⟩
  | cons b bs ih =>
    cases i with
    | zero => exact ⟨rfl, rfl⟩
    | succ i => exact ih i

theorem length_hexChars (bs : Bytes) : (hexChars bs).length = 2 * bs.length := by
  induction bs with
  | nil => rfl
  | cons b bs ih =>
    change (_ :: _ :: hexChars bs).length = _
    rw [List.length_cons, List.length_cons, List.length_cons, ih]
    omega

namespace Hash256

theorem exists_digitAt {b : UInt8} (h : IsHexByte b) (position : Nat) :
    ∃ d < 16, digitAt position b = .ok d ∧ hexDigit d = (Char.ofNat b.toNat).toLower := by
  have hall : hexDigits.all (fun c =>
      (hexValue? c).any fun d => d < 16 ∧ hexDigit d = c.toLower) = true := by decide
  obtain ⟨d, hvalue, hd⟩ := (Option.any_eq_true _ _).mp (List.all_eq_true.mp hall _ h)
  obtain ⟨hlt, hdigit⟩ := of_decide_eq_true hd
  exact ⟨d, hlt, by rw [digitAt, hvalue], hdigit⟩

theorem digitAt_eq_error {b : UInt8} (h : ¬ IsHexByte b) (position : Nat) :
    digitAt position b = .error (.badDigit b position) := by
  have hall : ∀ n < 0x100, hexValue? (Char.ofNat n) = none ∨ IsHexDigit (Char.ofNat n) := by
    decide +kernel
  rw [digitAt, (hall b.toNat b.toNat_lt).resolve_right h]

/-! ## Pairs of digits -/

/-- Digits in an even number are read, and written again in lower case. -/
theorem readPairs_eq_ok : ∀ {digits : Bytes} (position : Nat), digits.length % 2 = 0 →
    (∀ b ∈ digits, IsHexByte b) →
    ∃ bs, readPairs position digits = .ok bs ∧
      hexChars bs = digits.map fun b => (Char.ofNat b.toNat).toLower
  | [], _, _, _ => ⟨[], rfl, rfl⟩
  | [_], _, heven, _ => by simp at heven
  | c :: d :: rest, position, heven, h => by
    obtain ⟨hc, hd, hrest⟩ : IsHexByte c ∧ IsHexByte d ∧ ∀ b ∈ rest, IsHexByte b := by
      simpa using h
    rw [List.length_cons, List.length_cons, Nat.add_assoc, Nat.add_mod_right] at heven
    obtain ⟨high, hhigh, hreadHigh, hcharHigh⟩ := exists_digitAt hc position
    obtain ⟨low, hlow, hreadLow, hcharLow⟩ := exists_digitAt hd (position + 1)
    obtain ⟨bs, hread, hchars⟩ := readPairs_eq_ok (position + 2) heven hrest
    refine ⟨UInt8.ofNat (16 * high + low) :: bs, ?_, ?_⟩
    · rw [readPairs, hreadHigh, hreadLow, hread]
      rfl
    · have hdiv : (16 * high + low) / 16 = high := by omega
      have hmod : (16 * high + low) % 16 = low := by omega
      rw [List.map_cons, List.map_cons, ← hchars, ← hcharHigh, ← hcharLow]
      change hexByte _ ++ hexChars bs = _
      rw [hexByte, Text.toNat_byte (by omega), hdiv, hmod]
      rfl

/-- The first byte that is no digit is the one reported. -/
theorem readPairs_eq_error : ∀ {front : Bytes} {byte : UInt8} {back : Bytes} (position : Nat),
    (front ++ byte :: back).length % 2 = 0 → (∀ b ∈ front, IsHexByte b) → ¬ IsHexByte byte →
    readPairs position (front ++ byte :: back) = .error (.badDigit byte (position + front.length))
  | [], byte, [], _, heven, _, _ => by simp at heven
  | [], byte, _ :: _, position, _, _, hbyte => by
    rw [List.nil_append, readPairs, digitAt_eq_error hbyte]
    rfl
  | [c], byte, back, position, _, h, hbyte => by
    obtain ⟨high, -, hreadHigh, -⟩ := exists_digitAt (h c (List.mem_singleton_self c)) position
    rw [List.singleton_append, readPairs, hreadHigh, digitAt_eq_error hbyte]
    rfl
  | c :: d :: front, byte, back, position, heven, h, hbyte => by
    obtain ⟨hc, hd, hfront⟩ : IsHexByte c ∧ IsHexByte d ∧ ∀ b ∈ front, IsHexByte b := by
      simpa using h
    rw [List.cons_append, List.cons_append] at heven ⊢
    rw [List.length_cons, List.length_cons, Nat.add_assoc, Nat.add_mod_right] at heven
    obtain ⟨high, -, hreadHigh, -⟩ := exists_digitAt hc position
    obtain ⟨low, -, hreadLow, -⟩ := exists_digitAt hd (position + 1)
    rw [readPairs, hreadHigh, hreadLow, readPairs_eq_error (position + 2) heven hfront hbyte,
      List.length_cons, List.length_cons, Nat.add_assoc position, Nat.add_comm 2]
    rfl

/-! ## Texts -/

theorem length_toList_text (h : Hash256) : h.text.toList.length = 64 := by
  rw [text, hex, String.toList_ofList, length_hexChars, h.reverse.length_toBytes]

theorem exists_getElem?_text (h : Hash256) {i : Nat} (hi : i < 32) :
    ∃ b, h.toBytes[31 - i]? = some b ∧
      h.text.toList[2 * i]? = lowerHexDigits[b.toNat / 16]? ∧
      h.text.toList[2 * i + 1]? = lowerHexDigits[b.toNat % 16]? := by
  have hlength := h.length_toBytes
  have hreversed : h.reverse.toBytes[i]? = h.toBytes[31 - i]? := by
    change h.toBytes.reverse[i]? = _
    rw [List.getElem?_reverse (by omega), hlength]
  obtain ⟨b, hb⟩ : ∃ b, h.toBytes[31 - i]? = some b := ⟨_, List.getElem?_eq_getElem (by omega)⟩
  obtain ⟨hhigh, hlow⟩ := getElem?_hexChars h.reverse.toBytes i
  have hlt := b.toNat_lt
  refine ⟨b, hb, ?_, ?_⟩
  · rw [text, hex, String.toList_ofList, hhigh, hreversed, hb, lowerHexDigits_getElem? (by omega)]
    rfl
  · rw [text, hex, String.toList_ofList, hlow, hreversed, hb, lowerHexDigits_getElem? (by omega)]
    rfl

/-- The text of a hash in digits of either case. -/
def IsHashText (s : String) : Prop := s.toList.length = 64 ∧ ∀ c ∈ s.toList, IsHexDigit c

/-- The form of a text of a hash may be tested on bytes, as the reader does. -/
theorem isHashText_iff {s : String} :
    IsHashText s ↔ (Text.utf8 s).length = 64 ∧ ∀ b ∈ Text.utf8 s, IsHexByte b := by
  have hbytes : (∀ b ∈ Text.utf8 s, IsHexByte b) ↔ ∀ c ∈ s.toList, IsHexDigit c := by
    rw [Text.forall_mem_utf8_iff fun b => IsHexByte.lt]
    simp only [isHexDigit_iff]
  rw [hbytes, IsHashText]
  refine and_congr_left fun h => ?_
  rw [Text.length_utf8_ascii fun c hc => (h c hc).lt]

theorem exists_ofText {s : String} (h : IsHashText s) :
    ∃ hash, ofText s = .ok hash ∧ hash.text = s.toLower := by
  obtain ⟨hlength, hbytes⟩ := isHashText_iff.mp h
  obtain ⟨bs, hread, hchars⟩ := readPairs_eq_ok 0 (by rw [hlength]) hbytes
  have hbs : bs.length = 32 := by
    have hdouble := congrArg List.length hchars
    rw [length_hexChars, List.length_map, hlength] at hdouble
    omega
  let reversed : Hash256 := ⟨bs, hbs⟩
  refine ⟨reversed.reverse, ?_, ?_⟩
  · rw [ofText_eq hlength, hread]
    exact ofReversed_toBytes reversed
  · have hascii : ∀ c ∈ s.toList, c.toNat < 0x80 := fun c hc => (h.2 c hc).lt
    have hutf8 := Text.utf8_ofList_ascii hascii
    rw [String.ofList_toList] at hutf8
    have hlower : hexChars bs = s.toList.map Char.toLower := by
      rw [hchars, hutf8, List.map_map]
      refine List.map_congr_left fun c hc => ?_
      rw [Function.comp_apply, ofNat_toNat_byte (hascii c hc)]
    have hcase : s.toLower.toList = hexChars bs := by
      rw [hlower]
      exact String.toList_map
    rw [text, FixedBytes.reverse_reverse, hex, ← String.toList_inj, String.toList_ofList, hcase]

/-! ## Failures -/

/-- The error that a text fails for: the parity of its length in bytes, else the length, else the
first byte that is no digit. -/
inductive TextFails (s : String) : HashTextError → Prop
  | oddLength (hodd : (Text.utf8 s).length % 2 = 1) : TextFails s .oddLength
  | wrongLength (heven : (Text.utf8 s).length % 2 = 0) (hlength : (Text.utf8 s).length ≠ 64) :
      TextFails s .wrongLength
  | badDigit {front : Bytes} {byte : UInt8} {back : Bytes} (hlength : (Text.utf8 s).length = 64)
      (hbytes : Text.utf8 s = front ++ byte :: back) (hfront : ∀ b ∈ front, IsHexByte b)
      (hbyte : ¬ IsHexByte byte) : TextFails s (.badDigit byte front.length)

theorem TextFails.ofText_eq_error {s : String} {e : HashTextError} (h : TextFails s e) :
    ofText s = .error e := by
  cases h with
  | oddLength hodd =>
    unfold ofText
    dsimp only
    rw [if_pos hodd]
    rfl
  | wrongLength heven hlength =>
    unfold ofText
    dsimp only
    rw [if_neg (by omega), if_pos hlength]
    rfl
  | @badDigit front byte back hlength hbytes hfront hbyte =>
    have heven : (front ++ byte :: back).length % 2 = 0 := by rw [← hbytes, hlength]
    rw [ofText_eq hlength, hbytes, readPairs_eq_error 0 heven hfront hbyte, Nat.zero_add]
    rfl

theorem exists_textFails {s : String} (h : ¬ IsHashText s) : ∃ e, TextFails s e := by
  rcases Nat.mod_two_eq_zero_or_one (Text.utf8 s).length with heven | hodd
  · by_cases hlength : (Text.utf8 s).length = 64
    · -- Some byte is no digit, and so there is a first one.
      have hsome : ((Text.utf8 s).find? fun b => ¬ IsHexByte b).isSome := by
        rw [isHashText_iff, not_and] at h
        simpa using h hlength
      obtain ⟨byte, hfind⟩ := Option.isSome_iff_exists.mp hsome
      obtain ⟨hbyte, front, back, hbytes, hfront⟩ := List.find?_eq_some_iff_append.mp hfind
      exact ⟨_, .badDigit hlength hbytes (by simpa using hfront) (by simpa using hbyte)⟩
    · exact ⟨_, .wrongLength heven hlength⟩
  · exact ⟨_, .oddLength hodd⟩

theorem exists_ofText_iff {s : String} : (∃ h, ofText s = .ok h) ↔ IsHashText s := by
  constructor
  · rintro ⟨h, hread⟩
    by_contra hs
    obtain ⟨e, he⟩ := exists_textFails hs
    rw [he.ofText_eq_error] at hread
    cases hread
  · intro hs
    obtain ⟨h, hread, -⟩ := exists_ofText hs
    exact ⟨h, hread⟩

theorem ofText_eq_error_iff {s : String} {e : HashTextError} :
    ofText s = .error e ↔ TextFails s e := by
  refine ⟨fun h => ?_, TextFails.ofText_eq_error⟩
  have hs : ¬ IsHashText s := by
    rw [← exists_ofText_iff, h]
    rintro ⟨_, hread⟩
    cases hread
  obtain ⟨first, hfirst⟩ := exists_textFails hs
  rw [hfirst.ofText_eq_error] at h
  cases h
  exact hfirst

/-- The text of a hash is read back, and has the digits of the last byte first. A text is read if
it has 64 digits of either case, and it is then the text of what is read but for the case. -/
theorem text_exact :
    (∀ h : Hash256, ofText h.text = .ok h ∧
      h.text.toList.length = 64 ∧
      ∀ i < 32, ∃ b, h.toBytes[31 - i]? = some b ∧
        h.text.toList[2 * i]? = lowerHexDigits[b.toNat / 16]? ∧
        h.text.toList[2 * i + 1]? = lowerHexDigits[b.toNat % 16]?) ∧
    (∀ s, (∃ h, ofText s = .ok h) ↔ s.toList.length = 64 ∧ ∀ c ∈ s.toList, IsHexDigit c) ∧
    (∀ s h, ofText s = .ok h → h.text = s.toLower) ∧
    ∀ s e, ofText s = .error e ↔ TextFails s e := by
  refine ⟨fun h => ?text, fun s => exists_ofText_iff, fun s h hread => ?lower,
    fun s e => ofText_eq_error_iff⟩
  case text => exact ⟨ofText_text h, h.length_toList_text, fun i hi => h.exists_getElem?_text hi⟩
  case lower =>
    obtain ⟨same, hsame, hlower⟩ := exists_ofText (exists_ofText_iff.mp ⟨h, hread⟩)
    rw [hread] at hsame
    cases hsame
    exact hlower

/-- Digits of the other case; and a text of 63 characters, the last of them no digit but two
bytes. -/
theorem text_exact_samples :
    (∃ h, ofText (String.ofList (List.replicate 64 'F')) = .ok h ∧
      h.text = (String.ofList (List.replicate 64 'F')).toLower) ∧
    ofText (String.ofList (List.replicate 62 '0' ++ [Char.ofNat 0xe9])) =
      .error (.badDigit 0xc3 62) := by
  obtain ⟨-, reads, lower, fails⟩ := text_exact
  obtain ⟨h, hread⟩ := (reads (String.ofList (List.replicate 64 'F'))).mpr (by
    rw [String.toList_ofList]
    exact ⟨List.length_replicate, fun c hc => List.eq_of_mem_replicate hc ▸ by decide⟩)
  have hbytes : Text.utf8 (String.ofList (List.replicate 62 '0' ++ [Char.ofNat 0xe9])) =
      List.replicate 62 0x30 ++ 0xc3 :: [0xa9] := by
    rw [Text.utf8, String.toList_ofList]
    decide
  exact ⟨⟨h, hread, lower _ _ hread⟩, (fails _ _).mpr
    (.badDigit (by rw [hbytes]; rfl) hbytes
      (fun b hb => List.eq_of_mem_replicate hb ▸ by decide) (by decide))⟩

end Hash256

end UtxoAssets
