import UtxoAssets.Proofs.Wire.SizeForm

/-!
# Each value has one encoding that is read

* `Decoder.Yields d P` — whatever value `d` makes of the bytes it reads, bytes and value satisfy
  `P`.
* `Decoder.Canonical d encode Valid` — the bytes are the encoding of the value, and the value is
  valid.
* `canonical_compactSize`, `canonical_varBytes`, `Canonical.counted` and the lemmas beside them: a
  length is read in its shortest form only, so what is built of lengths, words and bytes is
  canonical.
* `Canonical.bind` follows a row of readings: every value comes with its own encoding, and the last
  step sees them one behind the other.
-/

set_option autoImplicit false

namespace UtxoAssets.Decoder

variable {α β : Type}

/-- Each value that is read has the property together with the bytes that were passed for it. -/
def Yields (d : Decoder α) (P : Bytes → α → Prop) : Prop :=
  ∀ c after v, d.run c = .ok v after → ∃ front, c.Passes front after ∧ P front v

/-- Each value that is read is valid, and the bytes passed for it are its encoding. -/
def Canonical (d : Decoder α) (encode : α → Bytes) (Valid : α → Prop) : Prop :=
  d.Yields fun front v => front = encode v ∧ Valid v

/-- Decoders in sequence yield what the second does, behind the encoding that the first has read. -/
theorem Canonical.bind {x : Decoder α} {encode : α → Bytes} {Valid : α → Prop} {k : α → Decoder β}
    {P : Bytes → β → Prop} (hx : x.Canonical encode Valid)
    (hk : ∀ a, Valid a → (k a).Yields fun g v => P (encode a ++ g) v) : (x >>= k).Yields P := by
  intro c after v h
  obtain ⟨a, between, hrun, hrest⟩ := run_bind_eq_ok_iff.mp h
  obtain ⟨f, hf, rfl, ha⟩ := hx c between a hrun
  obtain ⟨g, hg, hv⟩ := hk a ha between after v hrest
  exact ⟨encode a ++ g, hf.append hg, hv⟩

theorem yields_pure {P : Bytes → α → Prop} {v : α} (h : P [] v) :
    (pure v : Decoder α).Yields P := by
  intro c after v' hrun
  cases hrun
  exact ⟨[], Cursor.Passes.nil c, h⟩

theorem yields_throw {P : Bytes → α → Prop} (e : PayloadError) :
    (throw e : Decoder α).Yields P := by
  intro c after v hrun
  cases hrun

/-- Whatever follows a failure is not reached. -/
theorem yields_throw_bind {P : Bytes → β → Prop} (e : PayloadError) (k : α → Decoder β) :
    ((throw e : Decoder α) >>= k).Yields P := by
  intro c after v hrun
  obtain ⟨a, between, hthrow, -⟩ := run_bind_eq_ok_iff.mp hrun
  cases hthrow

theorem Yields.mono {d : Decoder α} {P Q : Bytes → α → Prop} (h : d.Yields P)
    (hPQ : ∀ front v, P front v → Q front v) : d.Yields Q := by
  intro c after v hrun
  obtain ⟨front, hpass, hP⟩ := h c after v hrun
  exact ⟨front, hpass, hPQ front v hP⟩

/-! ## Words and lengths -/

theorem canonical_take (n : Nat) : (take n).Canonical id fun bs => bs.length = n := by
  intro c after bs hrun
  by_cases hn : n ≤ c.rest.length
  · rw [run_take_of_le hn] at hrun
    cases hrun
    have hlen : (c.rest.take n).length = n := by rw [List.length_take, Nat.min_eq_left hn]
    refine ⟨c.rest.take n, ⟨?_, ?_⟩, rfl, hlen⟩
    · exact (List.take_append_drop n c.rest).symm
    · rw [hlen]
  · rw [run_take_of_lt (Nat.not_le.mp hn)] at hrun
    cases hrun

theorem canonical_word (α : Type) [Word α] : (word α).Canonical Word.toBytes fun _ => True := by
  refine (canonical_take _).bind fun bs hbs => yields_pure ?_
  rw [Word.toBytes_ofBytes hbs]
  exact ⟨List.append_nil bs, trivial⟩

theorem canonical_wideSize (width least : Nat) :
    (wideSize width least).Canonical (littleEndian width) fun n =>
      least ≤ n ∧ n < byteRange width := by
  refine (canonical_take width).bind fun bs hbs => ?_
  dsimp only
  split
  · exact yields_throw_bind _ _
  · rename_i hleast
    have hlt := ofLittleEndian_lt bs
    have hbytes := littleEndian_ofLittleEndian bs
    rw [hbs] at hlt hbytes
    refine yields_pure ⟨?_, Nat.not_lt.mp hleast, hlt⟩
    rw [hbytes]
    exact List.append_nil bs

/-- A tag and a wide number make up the shortest form, if the number needs that width. -/
theorem yields_wideForm {tag : UInt8} {width least : Nat}
    (h : Wire.wideForm? tag = some (width, least)) :
    (wideSize width least).Yields fun g n =>
      [tag] ++ g = Wire.compactSize n ∧ Wire.IsLength n := by
  refine (canonical_wideSize width least).mono ?_
  rintro g n ⟨rfl, hl, hn⟩
  exact ⟨(Wire.compactSize_eq_wide h hl hn).symm, Wire.isLength_of_wide h hn⟩

/-- Sizes are accepted in their shortest form only: a longer one is rejected after it was read. -/
theorem canonical_compactSize : compactSize.Canonical Wire.compactSize Wire.IsLength := by
  rw [compactSize_eq]
  refine (canonical_word UInt8).bind fun tag _ => ?_
  rw [Word.toBytes_uint8]
  split
  · rename_i width least hform
    exact yields_wideForm hform
  · rename_i hform
    exact yields_pure ⟨Wire.byte_eq_compactSize hform, (Wire.SizeForm.byte hform).isLength⟩

theorem canonical_require (n : Nat) : (require n).Canonical (fun _ => []) fun _ => True := by
  intro c after v hrun
  by_cases hn : n ≤ c.rest.length
  · rw [run_require_of_le hn] at hrun
    cases hrun
    exact ⟨[], Cursor.Passes.nil c, rfl, trivial⟩
  · rw [run_require_of_lt (Nat.not_le.mp hn)] at hrun
    cases hrun

theorem canonical_length : Decoder.length.Canonical Wire.compactSize Wire.IsLength := by
  refine canonical_compactSize.bind fun n hn => ?_
  exact (canonical_require n).bind fun _ _ => yields_pure ⟨List.append_nil _, hn⟩

theorem canonical_varBytes :
    varBytes.Canonical Wire.varBytes fun bs => Wire.IsLength bs.length := by
  refine canonical_length.bind fun n hn => ?_
  refine (canonical_take n).mono ?_
  rintro front bs ⟨rfl, rfl⟩
  exact ⟨rfl, hn⟩

theorem canonical_fixed (field : String) (n : Nat) :
    (fixed field n).Canonical (fun bs => Wire.varBytes bs.toBytes) fun _ => True := by
  refine canonical_varBytes.bind fun bs _ => ?_
  split
  · rename_i value hvalue
    refine yields_pure ⟨?_, trivial⟩
    dsimp only
    rw [FixedBytes.ofBytes?_eq_some_iff.mp hvalue]
    exact List.append_nil _
  · exact yields_throw _

/-! ## Lists, checks and optional values -/

/-- The loop accepts the encodings of its items, one after the other. -/
theorem Canonical.many {item : Decoder α} {encode : α → Bytes} {Valid : α → Prop}
    (h : item.Canonical encode Valid) (count : Nat) :
    (many count item).Canonical (List.flatMap encode) fun vs =>
      vs.length = count ∧ ∀ v ∈ vs, Valid v := by
  induction count with
  | zero =>
    refine yields_pure ⟨rfl, rfl, fun v hv => ?_⟩
    cases hv
  | succ count ih =>
    refine h.bind fun v hv => ih.bind fun vs hvs => yields_pure ?_
    obtain ⟨rfl, hall⟩ := hvs
    refine ⟨?_, rfl, List.forall_mem_cons.mpr ⟨hv, hall⟩⟩
    rw [List.append_nil, List.flatMap_cons]

/-- A counted list is accepted in one form only if its items are. -/
theorem Canonical.counted {item : Decoder α} {encode : α → Bytes} {Valid : α → Prop}
    (h : item.Canonical encode Valid) :
    (counted item).Canonical (Wire.counted encode) fun vs =>
      Wire.IsLength vs.length ∧ ∀ v ∈ vs, Valid v := by
  refine canonical_compactSize.bind fun n hn => ?_
  refine (h.many n).mono ?_
  rintro front vs ⟨rfl, rfl, hall⟩
  exact ⟨rfl, hn, hall⟩

theorem canonical_check {test : Except PayloadError α} :
    (check test).Canonical (fun _ => []) fun _ => ∃ v, test = .ok v := by
  cases test with
  | ok v => exact yields_pure ⟨rfl, v, rfl⟩
  | error e => exact yields_throw e

/-! ## Whole payloads -/

/-- **What a decoder has read of a payload is the encoding of the record it gives.** -/
structure OneForm (d : Decoder α) (encode : α → Bytes) : Prop where
  encode_eq : ∀ p r, d.decode p = .ok r → encode r = d.consumed p
  consumed_eq : ∀ p q r, d.decode p = .ok r → d.decode q = .ok r → d.consumed p = d.consumed q

/-- What a canonical decoder has consumed is the encoding of its result. -/
theorem Canonical.consumed_eq {d : Decoder α} {encode : α → Bytes} {Valid : α → Prop}
    (h : d.Canonical encode Valid) {p : Bytes} {r : α} (hp : d.decode p = .ok r) :
    encode r = d.consumed p ∧ Valid r := by
  obtain ⟨after, hrun⟩ := decode_eq_ok_iff.mp hp
  obtain ⟨front, ⟨hrest, hoffset⟩, rfl, hr⟩ := h _ after r hrun
  refine ⟨?_, hr⟩
  simp only [Cursor.start, Nat.zero_add] at hrest hoffset
  rw [consumed_eq_of_run hrun, hrest, hoffset, List.take_left]

theorem Canonical.oneForm {d : Decoder α} {encode : α → Bytes} {Valid : α → Prop}
    (h : d.Canonical encode Valid) : d.OneForm encode where
  encode_eq _ _ hp := (h.consumed_eq hp).1
  consumed_eq _ _ _ hp hq := (h.consumed_eq hp).1.symm.trans (h.consumed_eq hq).1

end UtxoAssets.Decoder
