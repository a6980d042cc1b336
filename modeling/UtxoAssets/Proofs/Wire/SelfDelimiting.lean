import UtxoAssets.Proofs.Payload.Reading

/-!
# Encodings that tell where they end

* `Wire.SelfDelimiting encode Valid` — bytes that begin with the encoding of a valid value do so for
  one value only, and what stands behind the encoding is settled too.
* `Decoder.selfDelimiting_of_reads` — an encoding that some decoder reads back is of this kind, which
  covers words, lengths and byte strings.
* `SelfDelimiting.flatMap`, `SelfDelimiting.counted` — so are lists, if their length is known or
  stands before them.

A row of such encodings is taken apart from the front, one after the other.
-/

set_option autoImplicit false

namespace UtxoAssets

variable {α : Type}

/-- **No encoding runs into what stands behind it.** -/
def Wire.SelfDelimiting (encode : α → Bytes) (Valid : α → Prop) : Prop :=
  ∀ ⦃x y : α⦄ ⦃t u : Bytes⦄, Valid x → Valid y → encode x ++ t = encode y ++ u → x = y ∧ t = u

/-- Values that one decoder reads back cannot be confused, whatever follows them. -/
theorem Decoder.selfDelimiting_of_reads {d : Decoder α} {encode : α → Bytes} {Valid : α → Prop}
    (h : ∀ x, Valid x → d.Reads (encode x) x) : Wire.SelfDelimiting encode Valid := by
  intro x y t u hx hy heq
  have hrunx := h x hx ⟨0, encode x ++ t⟩ ⟨(encode x).length, t⟩ ⟨rfl, (Nat.zero_add _).symm⟩
  have hruny := h y hy ⟨0, encode y ++ u⟩ ⟨(encode y).length, u⟩ ⟨rfl, (Nat.zero_add _).symm⟩
  -- The two runs are one: they start at the same bytes.
  rw [heq, hruny] at hrunx
  cases hrunx
  exact ⟨rfl, rfl⟩

namespace Wire

theorem selfDelimiting_word (α : Type) [Word α] :
    SelfDelimiting (Word.toBytes : α → Bytes) fun _ => True :=
  Decoder.selfDelimiting_of_reads fun x _ => Decoder.reads_word x

theorem selfDelimiting_compactSize : SelfDelimiting compactSize IsLength :=
  Decoder.selfDelimiting_of_reads fun _ h => Decoder.reads_compactSize h

theorem selfDelimiting_varBytes : SelfDelimiting varBytes fun bs => IsLength bs.length :=
  Decoder.selfDelimiting_of_reads fun _ h => Decoder.reads_varBytes h

theorem selfDelimiting_fixedBytes (n : Nat) :
    SelfDelimiting (FixedBytes.toBytes : FixedBytes n → Bytes) fun _ => True := by
  intro a b t u _ _ heq
  have hlen : a.toBytes.length = b.toBytes.length := by rw [a.length_toBytes, b.length_toBytes]
  obtain ⟨hbytes, hrest⟩ := List.append_inj heq hlen
  exact ⟨FixedBytes.ext hbytes, hrest⟩

/-! ## Lists -/

variable {encode : α → Bytes} {Valid : α → Prop}

/-- Two lists of one length are told apart without their count. -/
theorem SelfDelimiting.flatMap (h : SelfDelimiting encode Valid) {xs ys : List α} {t u : Bytes}
    (hlen : xs.length = ys.length) (hxs : ∀ x ∈ xs, Valid x) (hys : ∀ y ∈ ys, Valid y)
    (heq : xs.flatMap encode ++ t = ys.flatMap encode ++ u) : xs = ys ∧ t = u := by
  induction xs generalizing ys with
  | nil =>
    cases ys with
    | nil => exact ⟨rfl, heq⟩
    | cons y ys => cases hlen
  | cons x xs ih =>
    cases ys with
    | nil => cases hlen
    | cons y ys =>
      obtain ⟨hx, hxs'⟩ := List.forall_mem_cons.mp hxs
      obtain ⟨hy, hys'⟩ := List.forall_mem_cons.mp hys
      rw [List.flatMap_cons, List.flatMap_cons, List.append_assoc, List.append_assoc] at heq
      obtain ⟨rfl, hrest⟩ := h hx hy heq
      obtain ⟨rfl, rfl⟩ := ih (Nat.succ.inj hlen) hxs' hys' hrest
      exact ⟨rfl, rfl⟩

/-- A counted list ends where its items do. -/
theorem SelfDelimiting.counted (h : SelfDelimiting encode Valid) :
    SelfDelimiting (counted encode) fun xs => IsLength xs.length ∧ ∀ x ∈ xs, Valid x := by
  rintro xs ys t u ⟨hxlen, hxs⟩ ⟨hylen, hys⟩ heq
  unfold Wire.counted at heq
  rw [List.append_assoc, List.append_assoc] at heq
  obtain ⟨hlen, hrest⟩ := selfDelimiting_compactSize hxlen hylen heq
  exact h.flatMap hlen hxs hys hrest

end Wire

end UtxoAssets
