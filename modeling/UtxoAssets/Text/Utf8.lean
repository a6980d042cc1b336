import UtxoAssets.Bytes.Basic

/-!
# UTF-8

* `utf8` gives the bytes of a text.
* `decodeLossy` reads any bytes as a text: each longest piece that could still begin a character,
  but is not one, becomes a single replacement character.

* `decodeLossy_utf8`: nothing is lost of a text; `length_utf8_decodeLossy_le`: a text read from any
  bytes is at most three times as long.

The decoder is a scan whose state is the character under way (`Pending`).
-/

set_option autoImplicit false

namespace UtxoAssets.Text

/-- The bytes of a text. -/
def utf8 (s : String) : Bytes := s.toList.flatMap String.utf8EncodeChar

/-- Stands for bytes that are no character. -/
def replacement : Char := Char.ofNat 0xfffd

/-- A character under way: the bits read, how many continuation bytes are missing, and the range the
next one must lie in. -/
structure Pending where
  bits : Nat
  missing : Nat
  low : Nat
  high : Nat

/-- What a byte between characters begins. -/
inductive Lead where
  | char (c : Char)
  | pending (p : Pending)
  | invalid

/-- The ranges exclude overlong forms, surrogates and numbers past the last code point. -/
def Lead.ofByte (b : UInt8) : Lead :=
  let n := b.toNat
  if n < 0x80 then .char (Char.ofNat n)
  else if n < 0xc2 then .invalid
  else if n < 0xe0 then .pending ⟨n - 0xc0, 1, 0x80, 0xbf⟩
  else if n = 0xe0 then .pending ⟨0, 2, 0xa0, 0xbf⟩
  else if n = 0xed then .pending ⟨0x0d, 2, 0x80, 0x9f⟩
  else if n < 0xf0 then .pending ⟨n - 0xe0, 2, 0x80, 0xbf⟩
  else if n = 0xf0 then .pending ⟨0, 3, 0x90, 0xbf⟩
  else if n < 0xf4 then .pending ⟨n - 0xf0, 3, 0x80, 0xbf⟩
  else if n = 0xf4 then .pending ⟨4, 3, 0x80, 0x8f⟩
  else .invalid

/-- What a byte does to a character under way. -/
inductive Continuation where
  | done (c : Char)
  | more (p : Pending)
  | broken

/-- The next byte of a character that is not complete. -/
def Pending.push (p : Pending) (b : UInt8) : Continuation :=
  if p.low ≤ b.toNat ∧ b.toNat ≤ p.high then
    let bits := p.bits * 64 + b.toNat % 64
    if p.missing ≤ 1 then .done (Char.ofNat bits) else .more ⟨bits, p.missing - 1, 0x80, 0xbf⟩
  else .broken

/-- The characters that one byte completes between characters, and the state after it. -/
def startWith (b : UInt8) : List Char × Option Pending :=
  match Lead.ofByte b with
  | .char c => ([c], none)
  | .pending p => ([], some p)
  | .invalid => ([replacement], none)

/-- One byte of the scan. A byte that breaks a character off is read again as the start of the
next. -/
def scanByte (state : Option Pending) (b : UInt8) : List Char × Option Pending :=
  match state with
  | none => startWith b
  | some p =>
    match p.push b with
    | .done c => ([c], none)
    | .more q => ([], some q)
    | .broken => (replacement :: (startWith b).1, (startWith b).2)

/-- The characters of a byte string, in the given state. A character cut off by the end is replaced
as well. -/
def scan : Option Pending → Bytes → List Char
  | none, [] => []
  | some _, [] => [replacement]
  | state, b :: bs => (scanByte state b).1 ++ scan (scanByte state b).2 bs

/-- The text of a byte string, each malformed part of it replaced. -/
def decodeLossy (bs : Bytes) : String := String.ofList (scan none bs)

/-! ## Reading back what was written -/

theorem toNat_byte {n : Nat} (h : n < 256) : (UInt8.ofNat n).toNat = n := by
  rw [UInt8.toNat_ofNat']
  exact Nat.mod_eq_of_lt h

/-- A byte that goes on with the character under way. -/
theorem scan_push_more {p q : Pending} {b : UInt8} {bs : Bytes} (h : p.push b = .more q) :
    scan (some p) (b :: bs) = scan (some q) bs := by
  simp [scan, scanByte, h]

theorem scan_push_done {p : Pending} {c : Char} {b : UInt8} {bs : Bytes} (h : p.push b = .done c) :
    scan (some p) (b :: bs) = c :: scan none bs := by
  simp [scan, scanByte, h]

theorem scan_pending {p : Pending} {b : UInt8} {bs : Bytes} (h : Lead.ofByte b = .pending p) :
    scan none (b :: bs) = scan (some p) bs := by
  simp [scan, scanByte, startWith, h]

theorem scan_char {c : Char} {b : UInt8} {bs : Bytes} (h : Lead.ofByte b = .char c) :
    scan none (b :: bs) = c :: scan none bs := by
  simp [scan, scanByte, startWith, h]

/-- The last byte of a character. -/
theorem push_last {bits low high n : Nat} (hn : n < 256) (hl : low ≤ n) (hh : n ≤ high) :
    Pending.push ⟨bits, 1, low, high⟩ (UInt8.ofNat n) = .done (Char.ofNat (bits * 64 + n % 64)) := by
  simp [Pending.push, hl, hh, Nat.mod_eq_of_lt hn]

theorem push_inner {bits missing low high n : Nat} (hn : n < 256) (hl : low ≤ n) (hh : n ≤ high) :
    Pending.push ⟨bits, missing + 2, low, high⟩ (UInt8.ofNat n) =
      .more ⟨bits * 64 + n % 64, missing + 1, 0x80, 0xbf⟩ := by
  simp [Pending.push, hl, hh, Nat.mod_eq_of_lt hn]

theorem scan_two {v : Nat} (h : 0x7f < v) (h2 : v ≤ 0x7ff) (rest : Bytes) :
    scan none (UInt8.ofNat (v / 64 % 0x20 + 0xc0) :: UInt8.ofNat (v % 0x40 + 0x80) :: rest) =
      Char.ofNat v :: scan none rest := by
  have hl : Lead.ofByte (UInt8.ofNat (v / 64 % 0x20 + 0xc0)) = .pending ⟨v / 64, 1, 0x80, 0xbf⟩ := by
    simp only [Lead.ofByte, toNat_byte (show v / 64 % 0x20 + 0xc0 < 256 by omega)]
    rw [if_neg (by omega), if_neg (by omega), if_pos (by omega),
      show v / 64 % 0x20 + 0xc0 - 0xc0 = v / 64 by omega]
  rw [scan_pending hl, scan_push_done (push_last (by omega) (by omega) (by omega))]
  congr 2
  omega

theorem scan_three {v : Nat} (h : 0x7ff < v) (h2 : v ≤ 0xffff) (hs : v < 0xd800 ∨ 0xdfff < v)
    (rest : Bytes) :
    scan none (UInt8.ofNat (v / 4096 % 0x10 + 0xe0) :: UInt8.ofNat (v / 64 % 0x40 + 0x80)
      :: UInt8.ofNat (v % 0x40 + 0x80) :: rest) = Char.ofNat v :: scan none rest := by
  have hl : ∃ low high, Lead.ofByte (UInt8.ofNat (v / 4096 % 0x10 + 0xe0)) =
      .pending ⟨v / 4096, 2, low, high⟩ ∧ low ≤ v / 64 % 0x40 + 0x80
        ∧ v / 64 % 0x40 + 0x80 ≤ high := by
    simp only [Lead.ofByte, toNat_byte (show v / 4096 % 0x10 + 0xe0 < 256 by omega)]
    rw [if_neg (by omega), if_neg (by omega), if_neg (by omega)]
    by_cases h0 : v / 4096 = 0
    · rw [if_pos (by omega)]
      exact ⟨_, _, by rw [h0], by omega, by omega⟩
    · rw [if_neg (by omega)]
      by_cases hd : v / 4096 = 0x0d
      · rw [if_pos (by omega)]
        exact ⟨_, _, by rw [hd], by omega, by omega⟩
      · rw [if_neg (by omega), if_pos (by omega),
          show v / 4096 % 0x10 + 0xe0 - 0xe0 = v / 4096 by omega]
        exact ⟨_, _, rfl, by omega, by omega⟩
  obtain ⟨low, high, hl, h3, h4⟩ := hl
  rw [scan_pending hl, scan_push_more (push_inner (by omega) h3 h4),
    scan_push_done (push_last (by omega) (by omega) (by omega))]
  congr 2
  omega

theorem scan_four {v : Nat} (h : 0xffff < v) (h2 : v < 0x110000) (rest : Bytes) :
    scan none (UInt8.ofNat (v / 262144 % 0x08 + 0xf0) :: UInt8.ofNat (v / 4096 % 0x40 + 0x80)
      :: UInt8.ofNat (v / 64 % 0x40 + 0x80) :: UInt8.ofNat (v % 0x40 + 0x80) :: rest) =
      Char.ofNat v :: scan none rest := by
  have hl : ∃ low high, Lead.ofByte (UInt8.ofNat (v / 262144 % 0x08 + 0xf0)) =
      .pending ⟨v / 262144, 3, low, high⟩ ∧ low ≤ v / 4096 % 0x40 + 0x80
        ∧ v / 4096 % 0x40 + 0x80 ≤ high := by
    simp only [Lead.ofByte, toNat_byte (show v / 262144 % 0x08 + 0xf0 < 256 by omega)]
    rw [if_neg (by omega), if_neg (by omega), if_neg (by omega), if_neg (by omega),
      if_neg (by omega), if_neg (by omega)]
    by_cases h0 : v / 262144 = 0
    · rw [if_pos (by omega)]
      exact ⟨_, _, by rw [h0], by omega, by omega⟩
    · rw [if_neg (by omega)]
      by_cases hd : v / 262144 < 4
      · rw [if_pos (by omega), show v / 262144 % 0x08 + 0xf0 - 0xf0 = v / 262144 by omega]
        exact ⟨_, _, rfl, by omega, by omega⟩
      · rw [if_neg (by omega), if_pos (by omega)]
        exact ⟨_, _, by rw [show v / 262144 = 4 by omega], by omega, by omega⟩
  obtain ⟨low, high, hl, h3, h4⟩ := hl
  rw [scan_pending hl, scan_push_more (push_inner (by omega) h3 h4),
    scan_push_more (push_inner (by omega) (by omega) (by omega)),
    scan_push_done (push_last (by omega) (by omega) (by omega))]
  congr 2
  omega

theorem scan_utf8EncodeChar (c : Char) (rest : Bytes) :
    scan none (String.utf8EncodeChar c ++ rest) = c :: scan none rest := by
  have hv : c.val.toNat < 0xd800 ∨ (0xdfff < c.val.toNat ∧ c.val.toNat < 0x110000) := c.valid
  have hc : Char.ofNat c.val.toNat = c := Char.ofNat_toNat c
  generalize hg : c.val.toNat = v at hv hc
  simp only [String.utf8EncodeChar, hg]
  split
  · rename_i h
    have hl : Lead.ofByte (UInt8.ofNat v) = .char c := by
      simp only [Lead.ofByte, toNat_byte (show v < 256 by omega), hc]
      rw [if_pos (by omega)]
    exact scan_char hl
  · split
    · rw [← hc]
      exact scan_two (by omega) (by omega) rest
    · split
      · rw [← hc]
        exact scan_three (by omega) (by omega) (by omega) rest
      · rw [← hc]
        exact scan_four (by omega) (by omega) rest

/-- Text is read back from its own bytes. -/
theorem decodeLossy_utf8 (s : String) : decodeLossy (utf8 s) = s := by
  have h : ∀ cs : List Char, scan none (cs.flatMap String.utf8EncodeChar) = cs := by
    intro cs
    induction cs with
    | nil => rfl
    | cons c cs ih => rw [List.flatMap_cons, scan_utf8EncodeChar, ih]
  rw [decodeLossy, utf8, h, String.ofList_toList]

/-! ## How long a text becomes -/

/-- The bytes that a state may still write for those it has read: a character under way may turn out
to be a replacement. -/
def owed : Option Pending → Nat
  | none => 0
  | some _ => 3

theorem length_utf8EncodeChar_le (c : Char) : (String.utf8EncodeChar c).length ≤ 4 := by
  rw [String.length_utf8EncodeChar]
  exact c.utf8Size_le_four

theorem length_startWith_le (b : UInt8) :
    ((startWith b).1.flatMap String.utf8EncodeChar).length + owed (startWith b).2 ≤ 3 := by
  unfold startWith
  split
  · rename_i c hlead
    have hc : c.val.toNat < 0x80 := by
      unfold Lead.ofByte at hlead
      simp only at hlead
      split at hlead
      · rename_i hlt
        cases hlead
        rw [Char.ofNat, dif_pos (.inl (by omega))]
        exact hlt
      · repeat' split at hlead
        all_goals cases hlead
    have hlen : (String.utf8EncodeChar c).length = 1 := by
      unfold String.utf8EncodeChar
      simp only
      rw [if_pos (by omega)]
      rfl
    simp only [List.flatMap_cons, List.flatMap_nil, List.append_nil, hlen, owed]
    omega
  · exact Nat.le_refl 3
  · decide

theorem length_scanByte_le (state : Option Pending) (b : UInt8) :
    ((scanByte state b).1.flatMap String.utf8EncodeChar).length + owed (scanByte state b).2 ≤
      3 + owed state := by
  unfold scanByte
  split
  · exact length_startWith_le b
  · split
    · rename_i c _
      have hlen := length_utf8EncodeChar_le c
      simp only [List.flatMap_cons, List.flatMap_nil, List.append_nil, owed]
      omega
    · exact Nat.le_add_left 3 3
    · have hstart := length_startWith_le b
      have hreplacement : (String.utf8EncodeChar replacement).length = 3 := by decide
      rw [List.flatMap_cons, List.length_append, hreplacement, Nat.add_assoc]
      exact Nat.add_le_add_left hstart 3

theorem length_scan_le (state : Option Pending) (bs : Bytes) :
    ((scan state bs).flatMap String.utf8EncodeChar).length ≤ 3 * bs.length + owed state := by
  induction bs generalizing state with
  | nil =>
    cases state with
    | none => exact Nat.le_refl 0
    | some p => exact Nat.le_refl 3
  | cons b bs ih =>
    have hbyte := length_scanByte_le state b
    have hrest := ih (scanByte state b).2
    simp only [scan, List.flatMap_append, List.length_append, List.length_cons]
    omega

/-- A byte that belongs to no character is replaced by a character of three bytes. -/
theorem length_utf8_decodeLossy_le (bs : Bytes) :
    (utf8 (decodeLossy bs)).length ≤ 3 * bs.length := by
  rw [utf8, decodeLossy, String.toList_ofList]
  exact length_scan_le none bs

end UtxoAssets.Text
