import UtxoAssets.Proofs.Payload.Failure
import UtxoAssets.Proofs.Payload.WriteRead
import UtxoAssets.Proofs.Wire.SelfDelimiting

/-!
# Sizes are a canonical prefix code

Of the forms of a size the shortest is read, and no other.

* `Decoder.PrefixCode` — a decoder reads one encoding of each value, and no other encoding begins
  with it (`Canonical.prefixCode`).
* `SizeFails.nonCanonical_iff`, `SizeFails.unexpectedEnd_iff` — the two ways to fail are an overlong
  form and one that is cut off.
* `compactSize_prefixCode` — what is read of any bytes, and why nothing is read of others.
-/

set_option autoImplicit false

namespace UtxoAssets

variable {α : Type} {d : Decoder α} {encode : α → Bytes} {Valid : α → Prop}

/-! ## Prefix codes -/

/-- **Each value has one encoding, and that tells where it ends.** -/
structure Decoder.PrefixCode (d : Decoder α) (encode : α → Bytes) (Valid : α → Prop) : Prop where
  /-- The encoding of a value is read back, and no byte more, wherever it stands. -/
  reads : ∀ v, Valid v → ∀ offset t,
    d.run ⟨offset, encode v ++ t⟩ = .ok v ⟨offset + (encode v).length, t⟩
  /-- Whatever is read, the bytes that have been passed over are the encoding of the value. -/
  passes : ∀ c after v, d.run c = .ok v after → c.Passes (encode v) after ∧ Valid v
  unique : ∀ v, Valid v → ∃! bs, d.run (Cursor.start bs) = .ok v ⟨bs.length, []⟩
  prefixFree : ∀ v w, Valid v → Valid w → encode v <+: encode w → v = w

theorem Wire.SelfDelimiting.eq_of_isPrefix (h : SelfDelimiting encode Valid) {v w : α} (hv : Valid v)
    (hw : Valid w) (hbegins : encode v <+: encode w) : v = w := by
  obtain ⟨t, ht⟩ := hbegins
  have hsame : encode v ++ t = encode w ++ [] := by rw [ht, List.append_nil]
  exact (h hv hw hsame).1

/-- A decoder that reads encodings back and accepts nothing else makes the encodings a prefix
code. -/
theorem Decoder.Canonical.prefixCode (hcanonical : d.Canonical encode Valid)
    (hreads : ∀ v, Valid v → d.Reads (encode v) v) : d.PrefixCode encode Valid where
  reads v hv offset t := hreads v hv _ _ ⟨rfl, rfl⟩
  passes c after v hrun := (Decoder.run_eq_ok_iff hcanonical hreads).mp hrun
  unique v hv := by
    refine ⟨encode v, ?_, ?_⟩
    · exact hreads v hv _ _ ⟨(List.append_nil _).symm, (Nat.zero_add _).symm⟩
    · intro bs hrun
      obtain ⟨⟨hbytes, -⟩, -⟩ := (Decoder.run_eq_ok_iff hcanonical hreads).mp hrun
      exact hbytes.trans (List.append_nil _)
  prefixFree _ _ hv hw := (Decoder.selfDelimiting_of_reads hreads).eq_of_isPrefix hv hw

/-! ## Bytes that are no size -/

theorem Cursor.exists_passes_iff {c : Cursor} {front : Bytes} :
    (∃ after, c.Passes front after) ↔ front <+: c.rest := by
  constructor
  · rintro ⟨after, hrest, -⟩
    exact ⟨after.rest, hrest.symm⟩
  · rintro ⟨rest, hrest⟩
    exact ⟨⟨c.offset + front.length, rest⟩, hrest.symm, rfl⟩

namespace Cursor.SizeFails

open Wire

variable {c after : Cursor} {e : PayloadError}

/-- The error for longer forms is raised at exactly those. -/
theorem nonCanonical_iff {n : Nat} :
    (∃ after, c.SizeFails after (.nonCanonicalSize n)) ↔
      ∃ form, form <+: c.rest ∧ Overlong form n := by
  constructor
  · rintro ⟨after, hfails⟩
    cases hfails with
    | noTag hlacks => cases hlacks.cause
    | cut _ _ hlacks => cases hlacks.cause
    | @nonCanonical tag width least digits _ hform hlen hpass hleast =>
      have hsize := SizeForm.wide hform hlen
      refine ⟨tag :: digits, exists_passes_iff.mp ⟨after, hpass⟩, overlong_iff.mpr ⟨hsize, ?_⟩⟩
      intro heq
      have hle := length_compactSize_le_of_lt hform hleast
      rw [← heq, List.length_cons, hlen] at hle
      exact Nat.not_succ_le_self width hle
  · rintro ⟨form, hbegins, hoverlong⟩
    obtain ⟨hsize, hne⟩ := overlong_iff.mp hoverlong
    obtain ⟨after, hpass⟩ := exists_passes_iff.mpr hbegins
    cases hsize with
    | byte hform => exact absurd (byte_eq_compactSize hform) hne
    | wide hform hlen =>
      refine ⟨after, .nonCanonical hform hlen hpass (Nat.not_le.mp fun hleast => ?_)⟩
      exact hne (wide_eq_compactSize hform hlen hleast)

/-- The error for missing bytes is raised at exactly the cut forms. -/
theorem unexpectedEnd_iff :
    (∃ after offset missing, c.SizeFails after (.unexpectedEnd offset missing)) ↔
      CutForm c.rest := by
  rw [cutForm_iff]
  constructor
  · rintro ⟨after, offset, missing, hfails⟩
    cases hfails with
    | noTag hlacks => exact .inl (List.length_eq_zero_iff.mp (Nat.lt_one_iff.mp hlacks.short))
    | @cut tag width least _ _ hform htag hlacks =>
      exact .inr ⟨tag, width, least, after.rest, htag.1, hform, hlacks.short⟩
  · rintro (hnil | ⟨tag, width, least, digits, hrest, hform, hlt⟩)
    · exact ⟨c, _, _, .noTag ⟨by rw [hnil]; exact Nat.one_pos, rfl⟩⟩
    · exact ⟨⟨c.offset + 1, digits⟩, _, _, .cut hform ⟨hrest, rfl⟩ ⟨hlt, rfl⟩⟩

/-- There is no other way. -/
theorem nonCanonical_or_unexpectedEnd (h : c.SizeFails after e) :
    (∃ n, e = .nonCanonicalSize n) ∨ ∃ offset missing, e = .unexpectedEnd offset missing := by
  cases h with
  | noTag hlacks => exact .inr ⟨_, _, hlacks.cause⟩
  | cut _ _ hlacks => exact .inr ⟨_, _, hlacks.cause⟩
  | nonCanonical => exact .inl ⟨_, rfl⟩

end Cursor.SizeFails

/-- **Sizes are a canonical prefix code.**  What is written behind a buffer is the encoding of a
number, and nothing but such an encoding is read.  A form that is longer than it has to be is refused
for the number it states, bytes that end before their form does are missing some, and there is no
other failure. -/
theorem compactSize_prefixCode :
    (∀ buffer n, Buffer.writeLength buffer n = buffer ++ Wire.compactSize n) ∧
    Decoder.compactSize.PrefixCode Wire.compactSize Wire.IsLength ∧
    (∀ (c : Cursor) (n : Nat),
      (∃ after, Decoder.compactSize.run c = .error (.nonCanonicalSize n) after) ↔
        ∃ form, form <+: c.rest ∧ Wire.Overlong form n) ∧
    (∀ c : Cursor,
      (∃ after offset missing,
        Decoder.compactSize.run c = .error (.unexpectedEnd offset missing) after) ↔
        Wire.CutForm c.rest) ∧
    ∀ (c after : Cursor) (e : PayloadError), Decoder.compactSize.run c = .error e after →
      (∃ n, e = .nonCanonicalSize n) ∨ ∃ offset missing, e = .unexpectedEnd offset missing := by
  simp only [Decoder.run_compactSize_eq_error_iff]
  exact ⟨Buffer.writeLength_eq,
    Decoder.canonical_compactSize.prefixCode fun _ => Decoder.reads_compactSize,
    fun _ _ => Cursor.SizeFails.nonCanonical_iff,
    fun _ => Cursor.SizeFails.unexpectedEnd_iff,
    fun _ _ _ => Cursor.SizeFails.nonCanonical_or_unexpectedEnd⟩

/-- The least number with four digits, the greatest of all, and the least with two; four digits for a
number that two can hold, and three digits of eight. -/
theorem compactSize_prefixCode_samples :
    (∀ offset t, Decoder.compactSize.run ⟨offset, [0xfe, 0x00, 0x00, 0x01, 0x00] ++ t⟩ =
      .ok 0x10000 ⟨offset + 5, t⟩) ∧
    (∃! bs, Decoder.compactSize.run (Cursor.start bs) = .ok 0xffffffffffffffff ⟨bs.length, []⟩) ∧
    Cursor.Passes ⟨3, [0xfd, 0xfd, 0x00, 0x07]⟩ (Wire.compactSize 0xfd) ⟨6, [0x07]⟩ ∧
    ¬ Wire.compactSize 0xfd <+: Wire.compactSize 0xfdfd ∧
    (∃ form, form <+: [0xfe, 0xff, 0xff, 0x00, 0x00, 0x07] ∧ Wire.Overlong form 0xffff) ∧
    Wire.CutForm [0xff, 0x01, 0x02, 0x03] ∧
    ((∃ n, PayloadError.unexpectedEnd 0 1 = .nonCanonicalSize n) ∨
      ∃ offset missing, PayloadError.unexpectedEnd 0 1 = .unexpectedEnd offset missing) := by
  obtain ⟨-, code, overlong, cut, other⟩ := compactSize_prefixCode
  refine ⟨code.reads 0x10000 (by decide), code.unique 0xffffffffffffffff (by decide),
    (code.passes _ _ 0xfd rfl).1, fun hbegins => ?_,
    (overlong ⟨0, [0xfe, 0xff, 0xff, 0x00, 0x00, 0x07]⟩ 0xffff).mp ⟨_, rfl⟩,
    (cut ⟨0, [0xff, 0x01, 0x02, 0x03]⟩).mp ⟨_, _, _, rfl⟩, other ⟨0, []⟩ _ _ rfl⟩
  exact absurd (code.prefixFree 0xfd 0xfdfd (by decide) (by decide) hbegins) (by decide)

end UtxoAssets
