import UtxoAssets.Payload.Step
import UtxoAssets.Proofs.Payload.Canonical

/-!
# Where a failed read leaves the cursor

A read that is made of parts may fail after some of them, and the cursor then stays behind those.

* `Cursor.Lacks` — bytes are wanted at a cursor that has fewer.
* `Cursor.SizeFails`, `Cursor.LengthFails`, `ReadStep.Fails` — how a read may fail, told by the
  bytes in front of it: which cursor it leaves, and for what cause.
* `Decoder.run_eq_ok_iff` and the lemmas after it say when a part succeeds, the lemmas beside them
  when it fails; `Cursor.read_eq_error_iff` — a read fails in these ways and in no other.
-/

set_option autoImplicit false

namespace UtxoAssets

variable {α β : Type} {c after : Cursor} {e : PayloadError}

/-! ## The ways to fail -/

/-- `wanted` bytes are wanted at the cursor, and so many of them are missing. -/
structure Cursor.Lacks (c : Cursor) (wanted : Nat) (e : PayloadError) : Prop where
  short : c.rest.length < wanted
  cause : e = .unexpectedEnd c.offset (wanted - c.rest.length)

/-- There is no size at the cursor `c`. -/
inductive Cursor.SizeFails (c : Cursor) : Cursor → PayloadError → Prop where
  /-- Not even a tag is left. -/
  | noTag {e : PayloadError} : c.Lacks 1 e → SizeFails c c e
  /-- The number behind the tag is cut off. -/
  | cut {tag : UInt8} {width least : Nat} {after : Cursor} {e : PayloadError} :
    Wire.wideForm? tag = some (width, least) → c.Passes [tag] after → after.Lacks width e →
    SizeFails c after e
  /-- A shorter form would hold the number. -/
  | nonCanonical {tag : UInt8} {width least : Nat} {digits : Bytes} {after : Cursor} :
    Wire.wideForm? tag = some (width, least) → digits.length = width →
    c.Passes (tag :: digits) after → ofLittleEndian digits < least →
    SizeFails c after (.nonCanonicalSize (ofLittleEndian digits))

/-- There is no size at the cursor `c`, or one that the bytes behind it do not reach. -/
inductive Cursor.LengthFails (c : Cursor) : Cursor → PayloadError → Prop where
  | size {after : Cursor} {e : PayloadError} : c.SizeFails after e → LengthFails c after e
  | tooLarge {n : Nat} {after : Cursor} {e : PayloadError} :
    Wire.IsLength n → c.Passes (Wire.compactSize n) after → after.Lacks n e → LengthFails c after e

/-- A byte string with its length stands at the cursor `c`, and ends at `after`. -/
def Cursor.PassesField (c : Cursor) (bs : Bytes) (after : Cursor) : Prop :=
  c.Passes (Wire.varBytes bs) after ∧ Wire.IsLength bs.length

/-- How each kind of read may fail at the cursor `c`. -/
def ReadStep.Fails (c after : Cursor) (e : PayloadError) : ReadStep → Prop
  | .bytes n => after = c ∧ c.Lacks n e
  | .u8 => after = c ∧ c.Lacks 1 e
  | .flag => after = c ∧ c.Lacks 1 e
  | .u16 => after = c ∧ c.Lacks 2 e
  | .u32 => after = c ∧ c.Lacks 4 e
  | .i64 => after = c ∧ c.Lacks 8 e
  | .compactSize => c.SizeFails after e
  | .length => c.LengthFails after e
  | .varBytes => c.LengthFails after e
  | .fixed field n =>
    c.LengthFails after e ∨
      ∃ bs, c.PassesField bs after ∧ bs.length ≠ n ∧ e = .fieldLength field bs.length n
  | .base64 field =>
    c.LengthFails after e ∨
      ∃ bs, c.PassesField bs after ∧ Base64.decode? bs = none ∧
        e = @PayloadError.invalidBase64 bs field

namespace Decoder

/-! ## When a part succeeds -/

/-- A decoder that is canonical and reads encodings back succeeds exactly at the encodings. -/
theorem run_eq_ok_iff {d : Decoder α} {encode : α → Bytes} {Valid : α → Prop} {v : α}
    (hcanonical : d.Canonical encode Valid) (hreads : ∀ v, Valid v → d.Reads (encode v) v) :
    d.run c = .ok v after ↔ c.Passes (encode v) after ∧ Valid v := by
  constructor
  · intro h
    obtain ⟨front, hpass, rfl, hv⟩ := hcanonical c after v h
    exact ⟨hpass, hv⟩
  · rintro ⟨hpass, hv⟩
    exact hreads v hv c after hpass

theorem run_take_eq_ok_iff {n : Nat} {bs : Bytes} :
    (take n).run c = .ok bs after ↔ c.Passes bs after ∧ bs.length = n :=
  run_eq_ok_iff (canonical_take n) fun bs hbs => hbs ▸ reads_take bs

theorem run_byte_eq_ok_iff {b : UInt8} :
    (word UInt8).run c = .ok b after ↔ c.Passes [b] after := by
  rw [run_eq_ok_iff (canonical_word UInt8) fun b _ => reads_word b, Word.toBytes_uint8, and_true]

theorem run_compactSize_eq_ok_iff {n : Nat} :
    compactSize.run c = .ok n after ↔ c.Passes (Wire.compactSize n) after ∧ Wire.IsLength n :=
  run_eq_ok_iff canonical_compactSize fun _ h => reads_compactSize h

theorem run_varBytes_eq_ok_iff {bs : Bytes} :
    varBytes.run c = .ok bs after ↔ c.PassesField bs after :=
  run_eq_ok_iff canonical_varBytes fun _ h => reads_varBytes h

/-! ## When a part fails -/

theorem run_map_eq_error_iff {d : Decoder α} {f : α → β} :
    (f <$> d).run c = .error e after ↔ d.run c = .error e after := by
  rw [map_eq_pure_bind, run_bind_eq_error_iff]
  constructor
  · rintro (h | ⟨_, _, _, ⟨⟩⟩)
    exact h
  · exact Or.inl

/-- A decoder that only asks for `n` bytes. -/
theorem run_eq_error_iff_lacks {d : Decoder α} {n : Nat}
    (hok : n ≤ c.rest.length → ∃ v between, d.run c = .ok v between)
    (hshort : c.rest.length < n →
      d.run c = .error (.unexpectedEnd c.offset (n - c.rest.length)) c) :
    d.run c = .error e after ↔ after = c ∧ c.Lacks n e := by
  by_cases hn : n ≤ c.rest.length
  · obtain ⟨v, between, hrun⟩ := hok hn
    rw [hrun]
    constructor
    · rintro ⟨⟩
    · rintro ⟨-, hlacks⟩
      exact absurd hn (Nat.not_le.mpr hlacks.short)
  · rw [hshort (Nat.not_le.mp hn)]
    constructor
    · rintro ⟨⟩
      exact ⟨rfl, Nat.not_le.mp hn, rfl⟩
    · rintro ⟨rfl, -, rfl⟩
      rfl

theorem run_take_eq_error_iff {n : Nat} :
    (take n).run c = .error e after ↔ after = c ∧ c.Lacks n e :=
  run_eq_error_iff_lacks (fun h => ⟨_, _, run_take_of_le h⟩) run_take_of_lt

theorem run_require_eq_error_iff {n : Nat} :
    (require n).run c = .error e after ↔ after = c ∧ c.Lacks n e :=
  run_eq_error_iff_lacks (fun h => ⟨_, _, run_require_of_le h⟩) run_require_of_lt

/-- A word fails by lack of bytes only, and leaves the cursor where it was. -/
theorem run_word_eq_error_iff (α : Type) [Word α] :
    (word α).run c = .error e after ↔ after = c ∧ c.Lacks (Word.width α) e := by
  unfold word
  rw [← map_eq_pure_bind, run_map_eq_error_iff, run_take_eq_error_iff]

theorem run_flag_eq_error_iff : flag.run c = .error e after ↔ after = c ∧ c.Lacks 1 e := by
  unfold flag
  rw [← map_eq_pure_bind, run_map_eq_error_iff, run_word_eq_error_iff]
  rfl

theorem run_wideSize_eq_error_iff {width least : Nat} :
    (wideSize width least).run c = .error e after ↔
      (after = c ∧ c.Lacks width e) ∨
        ∃ digits, digits.length = width ∧ c.Passes digits after ∧ ofLittleEndian digits < least ∧
          e = .nonCanonicalSize (ofLittleEndian digits) := by
  unfold wideSize
  rw [run_bind_eq_error_iff, run_take_eq_error_iff]
  simp only [run_take_eq_ok_iff]
  refine or_congr_right ⟨?_, ?_⟩
  · rintro ⟨digits, between, ⟨hpass, hlen⟩, hrest⟩
    split at hrest
    · rename_i hleast
      cases hrest
      exact ⟨digits, hlen, hpass, hleast, rfl⟩
    · cases hrest
  · rintro ⟨digits, hlen, hpass, hleast, rfl⟩
    refine ⟨digits, after, ⟨hpass, hlen⟩, ?_⟩
    rw [if_pos hleast]
    rfl

/-- A size fails at its tag, at its digits, or by being in a longer form than it needs; what was
read of it by then is passed. -/
theorem run_compactSize_eq_error_iff :
    compactSize.run c = .error e after ↔ c.SizeFails after e := by
  rw [compactSize_eq, run_bind_eq_error_iff, run_word_eq_error_iff]
  simp only [run_byte_eq_ok_iff]
  constructor
  · rintro (⟨rfl, hlacks⟩ | ⟨tag, between, htag, hrest⟩)
    · exact .noTag hlacks
    · split at hrest
      · rename_i width least hform
        rcases run_wideSize_eq_error_iff.mp hrest with
          ⟨rfl, hlacks⟩ | ⟨digits, hlen, hpass, hl, rfl⟩
        · exact .cut hform htag hlacks
        · exact .nonCanonical hform hlen (htag.append hpass) hl
      · cases hrest
  · intro h
    cases h with
    | noTag hlacks => exact .inl ⟨rfl, hlacks⟩
    | @cut tag _ _ _ _ hform htag hlacks =>
      refine .inr ⟨tag, after, htag, ?_⟩
      rw [hform]
      exact run_wideSize_eq_error_iff.mpr (.inl ⟨rfl, hlacks⟩)
    | @nonCanonical tag _ _ digits _ hform hlen hpass hl =>
      obtain ⟨between, htag, hdigits⟩ := Cursor.Passes.split (f := [tag]) hpass
      refine .inr ⟨tag, between, htag, ?_⟩
      rw [hform]
      exact run_wideSize_eq_error_iff.mpr (.inr ⟨digits, hlen, hdigits, hl, rfl⟩)

/-- A length fails as its size does, or by announcing more bytes than are left. -/
theorem run_length_eq_error_iff :
    Decoder.length.run c = .error e after ↔ c.LengthFails after e := by
  unfold Decoder.length
  rw [run_bind_eq_error_iff, run_compactSize_eq_error_iff]
  simp only [run_compactSize_eq_ok_iff, run_bind_eq_error_iff, run_require_eq_error_iff]
  constructor
  · rintro (hsize | ⟨n, between, ⟨hpass, hn⟩, ⟨rfl, hlacks⟩ | ⟨_, _, _, ⟨⟩⟩⟩)
    · exact .size hsize
    · exact .tooLarge hn hpass hlacks
  · intro h
    cases h with
    | size hsize => exact .inl hsize
    | @tooLarge n _ _ hn hpass hlacks =>
      exact .inr ⟨n, after, ⟨hpass, hn⟩, .inl ⟨rfl, hlacks⟩⟩

/-- A length that has been read is one that the bytes behind it reach. -/
theorem le_of_run_length_eq_ok {n : Nat} (h : Decoder.length.run c = .ok n after) :
    n ≤ after.rest.length := by
  obtain ⟨n, between, -, hrest⟩ := run_bind_eq_ok_iff.mp h
  obtain ⟨_, between', hrequire, ⟨⟩⟩ := run_bind_eq_ok_iff.mp hrest
  by_cases hn : n ≤ between.rest.length
  · rw [run_require_of_le hn] at hrequire
    cases hrequire
    exact hn
  · rw [run_require_of_lt (Nat.not_le.mp hn)] at hrequire
    cases hrequire

theorem run_varBytes_eq_error_iff : varBytes.run c = .error e after ↔ c.LengthFails after e := by
  unfold varBytes
  rw [run_bind_eq_error_iff, run_length_eq_error_iff]
  constructor
  · rintro (h | ⟨n, between, hlen, htake⟩)
    · exact h
    · obtain ⟨rfl, hlacks⟩ := run_take_eq_error_iff.mp htake
      exact absurd (le_of_run_length_eq_ok hlen) (Nat.not_le.mpr hlacks.short)
  · exact Or.inl

/-- A field whose bytes are not what they should be is passed over as a whole. -/
theorem run_field_eq_error_iff {f : Bytes → Decoder β} (parse : Bytes → Option α)
    (cause : Bytes → PayloadError) (hsome : ∀ bs v, parse bs = some v → ∃ w, f bs = pure w)
    (hnone : ∀ bs, parse bs = none → f bs = throw (cause bs)) :
    (varBytes >>= f).run c = .error e after ↔
      c.LengthFails after e ∨
        ∃ bs, c.PassesField bs after ∧ parse bs = none ∧ e = cause bs := by
  rw [run_bind_eq_error_iff, run_varBytes_eq_error_iff]
  simp only [run_varBytes_eq_ok_iff]
  refine or_congr_right ⟨?_, ?_⟩
  · rintro ⟨bs, between, hfield, hrest⟩
    cases hparse : parse bs with
    | some v =>
      obtain ⟨w, hw⟩ := hsome bs v hparse
      rw [hw] at hrest
      cases hrest
    | none =>
      rw [hnone bs hparse] at hrest
      cases hrest
      exact ⟨bs, hfield, hparse, rfl⟩
  · rintro ⟨bs, hfield, hparse, rfl⟩
    refine ⟨bs, after, hfield, ?_⟩
    rw [hnone bs hparse]
    rfl

/-- A field of fixed width is read as a whole before its length is compared. -/
theorem run_fixed_eq_error_iff {field : String} {n : Nat} :
    (fixed field n).run c = .error e after ↔
      c.LengthFails after e ∨
        ∃ bs, c.PassesField bs after ∧ bs.length ≠ n ∧ e = .fieldLength field bs.length n := by
  simp only [← FixedBytes.ofBytes?_eq_none_iff]
  exact run_field_eq_error_iff (FixedBytes.ofBytes? n) (fun bs => .fieldLength field bs.length n)
    (fun bs v h => ⟨v, by rw [h]⟩) (fun bs h => by rw [h])

/-- A field of base64 text is read as a whole before it is decoded. -/
theorem run_base64Field_eq_error_iff {field : String} :
    (base64Field field).run c = .error e after ↔
      c.LengthFails after e ∨
        ∃ bs, c.PassesField bs after ∧ Base64.decode? bs = none ∧
          e = @PayloadError.invalidBase64 bs field :=
  run_field_eq_error_iff Base64.decode? (fun bs => @PayloadError.invalidBase64 bs field)
    (fun bs text h => ⟨Text.decodeLossy text, by rw [h]⟩) (fun bs h => by rw [h])

end Decoder

namespace ReadStep

open Decoder

/-- The relation is exact: it holds of every failure and of nothing else. -/
theorem run_decoder_eq_error_iff {step : ReadStep} :
    step.decoder.run c = .error e after ↔ step.Fails c after e := by
  cases step with
  | bytes n => exact run_map_eq_error_iff.trans run_take_eq_error_iff
  | u8 => exact run_map_eq_error_iff.trans (run_word_eq_error_iff UInt8)
  | flag => exact run_map_eq_error_iff.trans run_flag_eq_error_iff
  | u16 => exact run_map_eq_error_iff.trans (run_word_eq_error_iff UInt16)
  | u32 => exact run_map_eq_error_iff.trans (run_word_eq_error_iff UInt32)
  | i64 => exact run_map_eq_error_iff.trans (run_word_eq_error_iff Int64)
  | compactSize => exact run_map_eq_error_iff.trans run_compactSize_eq_error_iff
  | length => exact run_map_eq_error_iff.trans run_length_eq_error_iff
  | varBytes => exact run_map_eq_error_iff.trans run_varBytes_eq_error_iff
  | fixed field n => exact run_map_eq_error_iff.trans run_fixed_eq_error_iff
  | base64 field => exact run_map_eq_error_iff.trans run_base64Field_eq_error_iff

/-- A read fails in the ways of its kind, and leaves the cursor where they say. -/
theorem read_eq_error_iff {step : ReadStep} :
    (c.read step).outcome = .error e ↔ step.Fails c (c.read step).cursor e := by
  rw [← run_decoder_eq_error_iff]
  unfold Cursor.read
  cases step.decoder.run c with
  | ok v after => simp
  | error e' after => simp

end ReadStep

/-! ## Missing bytes -/

theorem Cursor.Lacks.missingAt {wanted : Nat} (h : c.Lacks wanted e) : e.MissingAt c := by
  obtain ⟨hshort, rfl⟩ := h
  exact ⟨rfl, by omega⟩

theorem Cursor.SizeFails.missingAt (h : c.SizeFails after e) : e.MissingAt after := by
  cases h with
  | noTag hlacks => exact hlacks.missingAt
  | cut _ _ hlacks => exact hlacks.missingAt
  | nonCanonical => trivial

theorem Cursor.LengthFails.missingAt (h : c.LengthFails after e) : e.MissingAt after := by
  cases h with
  | size hsize => exact hsize.missingAt
  | tooLarge _ _ hlacks => exact hlacks.missingAt

/-- A shortage is reported at the offset where the reader is left. -/
theorem ReadStep.Fails.missingAt {step : ReadStep} (h : step.Fails c after e) :
    e.MissingAt after := by
  cases step with
  | bytes _ | u8 | flag | u16 | u32 | i64 =>
    obtain ⟨rfl, hlacks⟩ := h
    exact hlacks.missingAt
  | compactSize => exact Cursor.SizeFails.missingAt h
  | length | varBytes => exact Cursor.LengthFails.missingAt h
  | fixed field n =>
    rcases h with hlength | ⟨bs, -, -, rfl⟩
    · exact hlength.missingAt
    · trivial
  | base64 field =>
    rcases h with hlength | ⟨bs, -, -, rfl⟩
    · exact hlength.missingAt
    · trivial

end UtxoAssets
