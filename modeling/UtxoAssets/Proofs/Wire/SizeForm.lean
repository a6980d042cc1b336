import Mathlib.Tactic.SplitIfs
import UtxoAssets.Proofs.Payload.Reading

/-!
# Forms of a size

A number below `2 ^ 64` has up to four forms as a size, one for each width that holds it.  The
shortest of them is the one that is written.

* `Wire.wideForm?` — the wide forms as one with parameters; writer and reader go by it
  (`compactSize_eq_wide`, `Decoder.compactSize_eq`).
* `Wire.SizeForm` — all forms of a number, told without the bounds that the writer and the reader
  compare with; `SizeForm.eq_or_longer` — all but the written one are longer than that one.
* `Wire.Overlong`, `Wire.CutForm` — what is no encoding: a form in the place of a shorter one, and
  bytes that end before a form does.
-/

set_option autoImplicit false

namespace UtxoAssets

/-! ## Widths -/

/-- The width of the number behind a tag byte, and the least number that needs so many bytes. -/
def Wire.wideForm? (tag : UInt8) : Option (Nat × Nat) :=
  if tag = 0xfd then some (2, 0xfd)
  else if tag = 0xfe then some (4, 0x10000)
  else if tag = 0xff then some (8, 0x100000000)
  else none

namespace Wire

variable {tag : UInt8} {width least n : Nat} {digits form bs : Bytes}

theorem wideForm?_eq_none_iff : wideForm? tag = none ↔ tag.toNat < 0xfd := by
  have hlt := tag.toNat_lt
  simp only [wideForm?, ← UInt8.toNat_inj, UInt8.reduceToNat]
  split_ifs <;> simp only [false_iff, true_iff] <;> omega

/-- The three wide forms. -/
theorem wideForm?_cases (h : wideForm? tag = some (width, least)) :
    (tag = 0xfd ∧ width = 2 ∧ least = 0xfd) ∨ (tag = 0xfe ∧ width = 4 ∧ least = 0x10000) ∨
      (tag = 0xff ∧ width = 8 ∧ least = 0x100000000) := by
  unfold wideForm? at h
  split_ifs at h with hfd hfe hff
  · cases h
    exact .inl ⟨hfd, rfl, rfl⟩
  · cases h
    exact .inr (.inl ⟨hfe, rfl, rfl⟩)
  · cases h
    exact .inr (.inr ⟨hff, rfl, rfl⟩)

theorem isLength_of_wide (h : wideForm? tag = some (width, least)) (hn : n < byteRange width) :
    IsLength n := by
  rcases wideForm?_cases h with ⟨-, rfl, -⟩ | ⟨-, rfl, -⟩ | ⟨-, rfl, -⟩
  all_goals
    simp only [byteRange] at hn
    omega

/-- A number that needs the width is written in it. -/
theorem compactSize_eq_wide (h : wideForm? tag = some (width, least)) (hleast : least ≤ n)
    (hn : n < byteRange width) : compactSize n = tag :: littleEndian width n := by
  rcases wideForm?_cases h with ⟨rfl, rfl, rfl⟩ | ⟨rfl, rfl, rfl⟩ | ⟨rfl, rfl, rfl⟩
  all_goals simp only [byteRange] at hn
  · rw [compactSize, if_neg (by omega), if_pos (by omega)]
  · rw [compactSize, if_neg (by omega), if_neg (by omega), if_pos (by omega)]
  · rw [compactSize, if_neg (by omega), if_neg (by omega), if_neg (by omega)]

/-- One that does not is written in fewer bytes. -/
theorem length_compactSize_le_of_lt (h : wideForm? tag = some (width, least)) (hn : n < least) :
    (compactSize n).length ≤ width := by
  rcases wideForm?_cases h with ⟨rfl, rfl, rfl⟩ | ⟨rfl, rfl, rfl⟩ | ⟨rfl, rfl, rfl⟩
  all_goals
    unfold compactSize
    split_ifs <;> simp

theorem byte_eq_compactSize {b : UInt8} (h : wideForm? b = none) : [b] = compactSize b.toNat := by
  rw [compactSize, if_pos (wideForm?_eq_none_iff.mp h), UInt8.ofNat_toNat]

/-- A wide form whose number needs its width is what the writer writes. -/
theorem wide_eq_compactSize (h : wideForm? tag = some (width, least)) (hlen : digits.length = width)
    (hleast : least ≤ ofLittleEndian digits) :
    tag :: digits = compactSize (ofLittleEndian digits) := by
  subst hlen
  rw [compactSize_eq_wide h hleast (ofLittleEndian_lt digits), littleEndian_ofLittleEndian]

/-! ## All forms of a number -/

/-- The bytes state the number: as a byte that is no tag, or behind a tag with as many digits as that
announces.  The least number that needs so many digits is no matter here. -/
inductive SizeForm : Bytes → Nat → Prop where
  | byte {b : UInt8} : wideForm? b = none → SizeForm [b] b.toNat
  | wide {tag : UInt8} {width least : Nat} {digits : Bytes} :
    wideForm? tag = some (width, least) → digits.length = width →
    SizeForm (tag :: digits) (ofLittleEndian digits)

/-- A form of the number, which has a shorter one as well. -/
def Overlong (form : Bytes) (n : Nat) : Prop :=
  SizeForm form n ∧ ∃ shorter, SizeForm shorter n ∧ shorter.length < form.length

/-- A form begins with these bytes and has more of them. -/
def CutForm (bs : Bytes) : Prop :=
  ∃ form n, SizeForm form n ∧ bs <+: form ∧ bs.length < form.length

theorem sizeForm_wide (h : wideForm? tag = some (width, least)) (hn : n < byteRange width) :
    SizeForm (tag :: littleEndian width n) n := by
  have hform := SizeForm.wide h (length_littleEndian width n)
  rwa [ofLittleEndian_littleEndian hn] at hform

/-- What is written is a form. -/
theorem sizeForm_compactSize (h : IsLength n) : SizeForm (compactSize n) n := by
  unfold compactSize
  split_ifs with hbyte hfd hfe
  · have hb : (UInt8.ofNat n).toNat = n := Text.toNat_byte (by omega)
    have hform := SizeForm.byte (wideForm?_eq_none_iff.mpr (hb.symm ▸ hbyte))
    rwa [hb] at hform
  · have hwide : wideForm? 0xfd = some (2, 0xfd) := rfl
    exact sizeForm_wide hwide (by simpa only [byteRange] using hfd)
  · have hwide : wideForm? 0xfe = some (4, 0x10000) := rfl
    exact sizeForm_wide hwide (by simpa only [byteRange] using hfe)
  · have hwide : wideForm? 0xff = some (8, 0x100000000) := rfl
    exact sizeForm_wide hwide (by simpa only [byteRange] using h)

theorem SizeForm.isLength (h : SizeForm form n) : IsLength n := by
  cases h with
  | @byte b _ =>
    have hlt := b.toNat_lt
    omega
  | @wide _ _ _ digits hform hlen =>
    exact isLength_of_wide hform (hlen ▸ ofLittleEndian_lt digits)

/-- Every form but the one that is written has more bytes than that. -/
theorem SizeForm.eq_or_longer (h : SizeForm form n) :
    form = compactSize n ∨ (compactSize n).length < form.length := by
  cases h with
  | byte hform => exact .inl (byte_eq_compactSize hform)
  | @wide tag width least digits hform hlen =>
    by_cases hleast : ofLittleEndian digits < least
    · right
      rw [List.length_cons, hlen]
      exact Nat.lt_succ_of_le (length_compactSize_le_of_lt hform hleast)
    · exact .inl (wide_eq_compactSize hform hlen (Nat.not_lt.mp hleast))

/-- The writer's form is the shortest. -/
theorem SizeForm.compactSize_length_le (h : SizeForm form n) :
    (compactSize n).length ≤ form.length := by
  rcases h.eq_or_longer with rfl | hlonger
  · exact Nat.le_refl _
  · exact Nat.le_of_lt hlonger

theorem overlong_iff : Overlong form n ↔ SizeForm form n ∧ form ≠ compactSize n := by
  constructor
  · rintro ⟨hform, shorter, hshorter, hlt⟩
    refine ⟨hform, ?_⟩
    rintro rfl
    exact absurd hshorter.compactSize_length_le (Nat.not_le.mpr hlt)
  · rintro ⟨hform, hne⟩
    exact ⟨hform, compactSize n, sizeForm_compactSize hform.isLength,
      hform.eq_or_longer.resolve_left hne⟩

/-- Digits of a wide form are missing, or not even a tag is there. -/
theorem cutForm_iff :
    CutForm bs ↔ bs = [] ∨ ∃ tag width least digits, bs = tag :: digits ∧
      wideForm? tag = some (width, least) ∧ digits.length < width := by
  constructor
  · rintro ⟨form, n, hform, hbegins, hlt⟩
    cases bs with
    | nil => exact .inl rfl
    | cons b front =>
      right
      cases hform with
      | byte => exact absurd (Nat.lt_of_succ_lt_succ hlt) (Nat.not_lt_zero _)
      | @wide tag width least digits hwide hlen =>
        obtain ⟨rfl, -⟩ := List.cons_prefix_cons.mp hbegins
        exact ⟨b, width, least, front, rfl, hwide, hlen ▸ Nat.lt_of_succ_lt_succ hlt⟩
  · rintro (rfl | ⟨tag, width, least, front, rfl, hwide, hlt⟩)
    · exact ⟨[0], 0, .byte rfl, List.nil_prefix, Nat.one_pos⟩
    · -- Any digits would do for those that are missing.
      have hlen : (front ++ List.replicate (width - front.length) 0).length = width := by
        rw [List.length_append, List.length_replicate]
        omega
      refine ⟨_, _, .wide hwide hlen, List.cons_prefix_cons.mpr ⟨rfl, List.prefix_append _ _⟩, ?_⟩
      rw [List.length_cons, List.length_cons, hlen]
      exact Nat.succ_lt_succ hlt

end Wire

/-- The reader goes by the same widths. -/
theorem Decoder.compactSize_eq :
    compactSize = word UInt8 >>= fun tag =>
      match Wire.wideForm? tag with
      | some (width, least) => wideSize width least
      | none => pure tag.toNat := by
  unfold compactSize
  congr 1
  funext tag
  unfold Wire.wideForm?
  by_cases hfd : tag = 0xfd
  · rw [if_pos hfd, if_pos hfd]
  by_cases hfe : tag = 0xfe
  · rw [if_neg hfd, if_pos hfe, if_neg hfd, if_pos hfe]
  by_cases hff : tag = 0xff
  · rw [if_neg hfd, if_neg hfe, if_pos hff, if_neg hfd, if_neg hfe, if_pos hff]
  · rw [if_neg hfd, if_neg hfe, if_neg hff, if_neg hfd, if_neg hfe, if_neg hff]

end UtxoAssets
