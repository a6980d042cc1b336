import UtxoAssets.Proofs.Payload.Streaming
import UtxoAssets.Wire.CompactSize

/-!
# Reading back what was written

* `Decoder.Reads d front v` — wherever the bytes `front` stand in a payload, and whatever follows
  them, `d` reads the value `v` from them and no byte more.
* `reads_compactSize`, `reads_varBytes`, `reads_base64Field`, `Reads.counted` — each encoding of
  `Wire` is read back, if the length it states is one that 64 bits hold.
* `Reads.bind` puts such readings in a row.
-/

set_option autoImplicit false

namespace UtxoAssets

variable {α β : Type}

/-- The lengths that 64 bits hold. -/
abbrev Wire.IsLength (n : Nat) : Prop := n < 0x10000000000000000

theorem Cursor.Passes.split {c after : Cursor} {f g : Bytes} (h : c.Passes (f ++ g) after) :
    ∃ between, c.Passes f between ∧ between.Passes g after := by
  obtain ⟨hr, ho⟩ := h
  refine ⟨⟨c.offset + f.length, g ++ after.rest⟩, ⟨?_, rfl⟩, rfl, ?_⟩
  · rw [hr, List.append_assoc]
  · rw [ho, List.length_append, Nat.add_assoc]

theorem Cursor.Passes.cursors {c after : Cursor} {f : Bytes} (h : c.Passes f after) :
    ∃ offset rest, c = ⟨offset, f ++ rest⟩ ∧ after = ⟨offset + f.length, rest⟩ := by
  cases c with
  | mk offset rest =>
    cases after with
    | mk offset' rest' =>
      obtain ⟨hr, ho⟩ := h
      dsimp only at hr ho
      subst hr ho
      exact ⟨offset, rest', rfl, rfl⟩

theorem Word.toBytes_uint8 (b : UInt8) : Word.toBytes b = [b] := by
  have h : UInt8.ofNat b.toNat = b := UInt8.ofNat_toNat
  simp only [Word.toBytes, Word.width, Word.toNat, littleEndian, h]

namespace Decoder

/-- From any cursor that has `front` before it, the value is read and `front` is passed over. -/
def Reads (d : Decoder α) (front : Bytes) (v : α) : Prop :=
  ∀ c after : Cursor, c.Passes front after → d.run c = .ok v after

/-- What is read in two steps is written in two pieces. -/
theorem Reads.bind {x : Decoder α} {k : α → Decoder β} {f g : Bytes} {a : α} {v : β}
    (hx : x.Reads f a) (hk : (k a).Reads g v) : (x >>= k).Reads (f ++ g) v := by
  intro c after h
  obtain ⟨between, hf, hg⟩ := h.split
  exact run_bind_eq_ok_iff.mpr ⟨a, between, hx c between hf, hk between after hg⟩

theorem reads_pure (v : α) : (pure v : Decoder α).Reads [] v := by
  intro c after h
  obtain ⟨offset, rest, rfl, rfl⟩ := h.cursors
  rfl

/-- A last step that only puts the values together reads no bytes. -/
theorem Reads.bind_pure {x : Decoder α} {f : Bytes} {a : α} (hx : x.Reads f a) (g : α → β) :
    (x >>= fun a => pure (g a)).Reads f (g a) := by
  rw [← List.append_nil f]
  exact hx.bind (reads_pure (g a))

theorem Reads.map {d : Decoder α} {f : Bytes} {a : α} (h : d.Reads f a) (g : α → β) :
    (g <$> d).Reads f (g a) := by
  rw [map_eq_pure_bind]
  exact h.bind_pure g

/-- A decoder that reads a piece reads it at the start of any payload that begins with it. -/
theorem Reads.decode_append {d : Decoder α} {f : Bytes} {v : α} (h : d.Reads f v) (t : Bytes) :
    d.decode (f ++ t) = .ok v :=
  decode_eq_ok_iff.mpr ⟨⟨f.length, t⟩, h _ _ ⟨rfl, (Nat.zero_add _).symm⟩⟩

/-- Of such a payload it consumes that piece and nothing behind it. -/
theorem Reads.consumed_append {d : Decoder α} {f : Bytes} {v : α} (h : d.Reads f v) (t : Bytes) :
    d.consumed (f ++ t) = f := by
  have hrun : d.run (Cursor.start (f ++ t)) = .ok v ⟨f.length, t⟩ :=
    h _ _ ⟨rfl, (Nat.zero_add _).symm⟩
  rw [consumed_eq_of_run hrun, List.take_left]

/-! ## Words and lengths -/

theorem reads_take (bs : Bytes) : (take bs.length).Reads bs bs := by
  intro c after h
  obtain ⟨offset, rest, rfl, rfl⟩ := h.cursors
  have hle : bs.length ≤ (bs ++ rest).length := by simp
  rw [run_take_of_le hle, List.take_left, List.drop_left]

theorem reads_word [Word α] (x : α) : (word α).Reads (Word.toBytes x) x := by
  have h := (reads_take (Word.toBytes x)).bind_pure (Word.ofBytes α)
  rwa [Word.length_toBytes, Word.ofBytes_toBytes] at h

theorem reads_byte (b : UInt8) : (word UInt8).Reads [b] b := by
  rw [← Word.toBytes_uint8]
  exact reads_word b

theorem reads_flag (b : Bool) : flag.Reads [b.toUInt8] b := by
  have h := (reads_byte b.toUInt8).bind_pure (· != 0)
  have hb : (b.toUInt8 != 0) = b := by cases b <;> rfl
  rwa [hb] at h

theorem reads_wideSize {width least n : Nat} (hl : least ≤ n) (hn : n < byteRange width) :
    (wideSize width least).Reads (littleEndian width n) n := by
  have htake := reads_take (littleEndian width n)
  rw [length_littleEndian] at htake
  rw [← List.append_nil (littleEndian width n)]
  refine htake.bind ?_
  dsimp only
  rw [ofLittleEndian_littleEndian hn, if_neg (Nat.not_lt.mpr hl)]
  exact reads_pure n

/-- A size is read from its shortest form. -/
theorem reads_compactSize {n : Nat} (h : Wire.IsLength n) :
    compactSize.Reads (Wire.compactSize n) n := by
  unfold Wire.compactSize Decoder.compactSize
  split
  · rename_i hn
    have hb : (UInt8.ofNat n).toNat = n := Text.toNat_byte (by omega)
    have hne : ∀ tag : UInt8, 0xfd ≤ tag.toNat → UInt8.ofNat n ≠ tag := by
      rintro tag htag rfl
      omega
    refine Reads.bind (g := []) (reads_byte (UInt8.ofNat n)) ?_
    rw [if_neg (hne 0xfd (by decide)), if_neg (hne 0xfe (by decide)), if_neg (hne 0xff (by decide)),
      hb]
    exact reads_pure n
  split
  · exact (reads_byte 0xfd).bind (reads_wideSize (by omega) (by simp only [byteRange]; omega))
  split
  · exact (reads_byte 0xfe).bind (reads_wideSize (by omega) (by simp only [byteRange]; omega))
  · exact (reads_byte 0xff).bind (reads_wideSize (by omega) (by simp only [byteRange]; omega))

theorem reads_varBytes {bs : Bytes} (h : Wire.IsLength bs.length) :
    varBytes.Reads (Wire.varBytes bs) bs := by
  intro c after hpass
  obtain ⟨between, hlen, hbs⟩ := hpass.split
  refine run_bind_eq_ok_iff.mpr ⟨bs.length, between, ?_, reads_take bs between after hbs⟩
  refine run_bind_eq_ok_iff.mpr ⟨bs.length, between, reads_compactSize h c between hlen, ?_⟩
  -- `require` looks at all that follows, and what follows begins with `bs`.
  have hle : bs.length ≤ between.rest.length := by
    rw [hbs.1, List.length_append]
    omega
  exact run_bind_eq_ok_iff.mpr ⟨(), between, run_require_of_le hle, rfl⟩

theorem reads_fixed (field : String) {n : Nat} (bs : FixedBytes n) (h : Wire.IsLength n) :
    (fixed field n).Reads (Wire.varBytes bs.toBytes) bs := by
  have hlen : Wire.IsLength bs.toBytes.length := by rwa [bs.length_toBytes]
  rw [← List.append_nil (Wire.varBytes bs.toBytes)]
  refine (reads_varBytes hlen).bind ?_
  rw [FixedBytes.ofBytes?_toBytes]
  exact reads_pure bs

/-- A text is read back from its base64 form, if that form is not too long. -/
theorem reads_base64Field (field : String) {s : String}
    (h : Wire.IsLength (Base64.encode (Text.utf8 s)).length) :
    (base64Field field).Reads (Wire.base64Field s) s := by
  rw [← List.append_nil (Wire.base64Field s)]
  refine (reads_varBytes h).bind ?_
  rw [Base64.decode?_encode]
  dsimp only
  rw [Text.decodeLossy_utf8]
  exact reads_pure s

/-! ## Lists and optional values -/

/-- The loop reads as many items as it is told, each from its encoding. -/
theorem reads_many {item : Decoder α} {encode : α → Bytes} {xs : List α}
    (h : ∀ x ∈ xs, item.Reads (encode x) x) :
    (many xs.length item).Reads (xs.flatMap encode) xs := by
  induction xs with
  | nil => exact reads_pure []
  | cons x xs ih =>
    rw [List.flatMap_cons]
    have hx := h x List.mem_cons_self
    have hxs := ih fun y hy => h y (List.mem_cons_of_mem x hy)
    exact hx.bind (hxs.bind_pure (x :: ·))

theorem reads_counted {item : Decoder α} {encode : α → Bytes} {xs : List α}
    (hlen : Wire.IsLength xs.length) (h : ∀ x ∈ xs, item.Reads (encode x) x) :
    (counted item).Reads (Wire.counted encode xs) xs :=
  (reads_compactSize hlen).bind (reads_many h)

theorem reads_check {test : Except PayloadError α} {v : α} (h : test = .ok v) :
    (check test).Reads [] () := by
  subst h
  exact reads_pure ()

end Decoder

end UtxoAssets
