import UtxoAssets.Proofs.Asset.Canonical

/-!
# Counts that nothing has been compared with

A payload states how many items follow, and the loop over them is begun whatever the number is.  It
ends early if the payload does, since an item that is read takes bytes.

* `Decoder.Takes` — each value takes at least so many bytes; `Takes.many` — so do all of a loop.
* `Decoder.begun` — how many items a loop begins to read.  It is at most one more than bytes are
  left (`Takes.begun_le`), and a larger count makes no difference (`run_many_min`).
* `counts_within_payload` — the loops over fee tiers, outputs and asset groups.
-/

set_option autoImplicit false

namespace UtxoAssets

open Decoder

variable {α β : Type} {item : Decoder α} {least : Nat} {c after : Cursor} {e : PayloadError}

namespace Decoder

/-- Each value that is read takes at least `least` bytes. -/
def Takes (d : Decoder α) (least : Nat) : Prop :=
  ∀ c after v, d.run c = .ok v after → after.rest.length + least ≤ c.rest.length

/-- A decoder takes at least as many bytes as the shortest encoding has. -/
theorem Canonical.takes {encode : α → Bytes} {Valid : α → Prop} (h : item.Canonical encode Valid)
    (hleast : ∀ v, least ≤ (encode v).length) : item.Takes least := by
  intro c after v hrun
  obtain ⟨front, ⟨hrest, -⟩, rfl, -⟩ := h c after v hrun
  have hv := hleast v
  rw [hrest, List.length_append]
  omega

/-- What every item takes, the loop takes for each of them. -/
theorem Takes.many (h : item.Takes least) (count : Nat) :
    (many count item).Takes (least * count) := by
  induction count with
  | zero =>
    intro c after vs hrun
    cases hrun
    exact Nat.le_refl _
  | succ count ih =>
    intro c after vs hrun
    obtain ⟨v, between, hfirst, hothers⟩ := run_bind_eq_ok_iff.mp hrun
    obtain ⟨vs', after', hmany, ⟨⟩⟩ := run_bind_eq_ok_iff.mp hothers
    have hitem := h c between v hfirst
    have hrest := ih between _ vs' hmany
    rw [Nat.mul_succ]
    omega

/-- Each value takes `width` bytes, and nothing but missing bytes is a failure. -/
structure HasWidth (d : Decoder α) (width : Nat) : Prop where
  ok : ∀ {c : Cursor}, width ≤ c.rest.length →
    ∃ v after, d.run c = .ok v after ∧ after.rest.length + width = c.rest.length
  short : ∀ {c : Cursor}, c.rest.length < width →
    ∃ offset missing after, d.run c = .error (.unexpectedEnd offset missing) after

theorem hasWidth_pure (v : α) : (pure v : Decoder α).HasWidth 0 where
  ok _ := ⟨v, _, rfl, rfl⟩
  short h := absurd h (Nat.not_lt_zero _)

theorem hasWidth_take (n : Nat) : (take n).HasWidth n where
  ok h := by
    refine ⟨_, _, run_take_of_le h, ?_⟩
    rw [List.length_drop]
    omega
  short h := ⟨_, _, _, run_take_of_lt h⟩

theorem HasWidth.bind {x : Decoder α} {f : α → Decoder β} {first second : Nat}
    (hx : x.HasWidth first) (hf : ∀ a, (f a).HasWidth second) :
    (x >>= f).HasWidth (first + second) where
  ok {c} h := by
    obtain ⟨a, between, hrun, hbetween⟩ := hx.ok (Nat.le_of_add_right_le h)
    obtain ⟨v, after, hrest, hafter⟩ := (hf a).ok (c := between) (by omega)
    exact ⟨v, after, run_bind_eq_ok_iff.mpr ⟨a, between, hrun, hrest⟩, by omega⟩
  short {c} h := by
    by_cases hfirst : c.rest.length < first
    · obtain ⟨offset, missing, after, hrun⟩ := hx.short hfirst
      exact ⟨offset, missing, after, run_bind_eq_error_iff.mpr (.inl hrun)⟩
    · obtain ⟨a, between, hrun, hbetween⟩ := hx.ok (Nat.not_lt.mp hfirst)
      obtain ⟨offset, missing, after, hrest⟩ := (hf a).short (c := between) (by omega)
      exact ⟨offset, missing, after, run_bind_eq_error_iff.mpr (.inr ⟨a, between, hrun, hrest⟩)⟩

theorem hasWidth_word (α : Type) [Word α] : (word α).HasWidth (Word.width α) :=
  (hasWidth_take _).bind fun _ => hasWidth_pure _

theorem HasWidth.many {width : Nat} (h : item.HasWidth width) (count : Nat) :
    (many count item).HasWidth (width * count) := by
  induction count with
  | zero => exact hasWidth_pure []
  | succ count ih =>
    rw [Nat.mul_succ, Nat.add_comm (width * count)]
    exact h.bind fun _ => ih.bind fun _ => hasWidth_pure _

theorem HasWidth.takes {width : Nat} (h : item.HasWidth width) : item.Takes width := by
  intro c after v hrun
  by_cases hwidth : width ≤ c.rest.length
  · obtain ⟨v', after', hrun', hafter⟩ := h.ok hwidth
    rw [hrun] at hrun'
    cases hrun'
    exact Nat.le_of_eq hafter
  · obtain ⟨offset, missing, after', hrun'⟩ := h.short (Nat.not_le.mp hwidth)
    rw [hrun] at hrun'
    cases hrun'

/-! ## How far a loop comes -/

/-- The items that a loop begins to read: all up to the one that fails. -/
def begun (item : Decoder α) : Nat → Cursor → Nat
  | 0, _ => 0
  | count + 1, c =>
    match item.run c with
    | .ok _ after => begun item count after + 1
    | .error _ _ => 1

/-- Every item that is completed uses up a byte, so at most one more item is begun than there are
bytes left. -/
theorem Takes.begun_le (h : item.Takes least) (hpos : 0 < least) (count : Nat) (c : Cursor) :
    begun item count c ≤ c.rest.length + 1 := by
  induction count generalizing c with
  | zero => exact Nat.zero_le _
  | succ count ih =>
    rw [begun]
    split
    · rename_i v after hrun
      have hitem := h c after v hrun
      have hothers := ih after
      omega
    · exact Nat.le_add_left 1 _

theorem run_many_succ_of_ok {count : Nat} {v : α} (h : item.run c = .ok v after) :
    (many (count + 1) item).run c = (many count item >>= fun vs => pure (v :: vs)).run after := by
  rw [many, EStateM.run_bind, h]

theorem run_many_succ_of_error {count : Nat} (h : item.run c = .error e after) :
    (many (count + 1) item).run c = .error e after := by
  rw [many, EStateM.run_bind, h]

/-- A loop that ends before the count does not notice a smaller one. -/
theorem run_many_min {count cap : Nat} (h : begun item count c ≤ cap) :
    (many (min count cap) item).run c = (many count item).run c := by
  induction count generalizing cap c with
  | zero => rw [Nat.zero_min]
  | succ count ih =>
    rw [begun] at h
    cases cap with
    | zero => split at h <;> omega
    | succ cap =>
      rw [Nat.succ_min_succ]
      cases hrun : item.run c with
      | ok v after =>
        rw [hrun] at h
        have hothers := ih (Nat.le_of_succ_le_succ h)
        rw [run_many_succ_of_ok hrun, run_many_succ_of_ok hrun, EStateM.run_bind, EStateM.run_bind,
          hothers]
      | error e after => rw [run_many_succ_of_error hrun, run_many_succ_of_error hrun]

/-- What holds of a loop at the cursor `c`, for a count of items that take `least` bytes or more. -/
structure WithinPayload (item : Decoder α) (least count : Nat) (c : Cursor) : Prop where
  /-- It comes to its end only if there are bytes for all items. -/
  enough : ∀ vs after, (many count item).run c = .ok vs after → least * count ≤ c.rest.length
  fails : c.rest.length < least * count → ∃ e after, (many count item).run c = .error e after
  begun : Decoder.begun item count c ≤ c.rest.length + 1
  capped : (many (min count (c.rest.length + 1)) item).run c = (many count item).run c

/-- The loop is bounded by what is left of the payload, whatever count was announced. -/
theorem Takes.withinPayload (h : item.Takes least) (hpos : 0 < least) (count : Nat) (c : Cursor) :
    WithinPayload item least count c := by
  have hbegun := h.begun_le hpos count c
  have henough : ∀ vs after, (Decoder.many count item).run c = .ok vs after →
      least * count ≤ c.rest.length := by
    intro vs after hrun
    have hall := h.many count c after vs hrun
    omega
  refine ⟨henough, fun hshort => ?_, hbegun, run_many_min hbegun⟩
  cases hrun : (Decoder.many count item).run c with
  | ok vs after => exact absurd (henough vs after hrun) (Nat.not_le.mpr hshort)
  | error e after => exact ⟨e, after, rfl⟩

end Decoder

/-! ## The loops over fee tiers, outputs and groups -/

theorem Wire.length_compactSize_pos (n : Nat) : 1 ≤ (Wire.compactSize n).length := by
  unfold Wire.compactSize
  split
  · exact Nat.le_refl 1
  split
  · exact Nat.le_add_left 1 _
  split
  · exact Nat.le_add_left 1 _
  · exact Nat.le_add_left 1 _

/-- An output has a size of at least one byte and an amount of eight. -/
theorem AssetOutput.le_length_encode (o : AssetOutput) : 9 ≤ o.encode.length := by
  have hindex := Wire.length_compactSize_pos o.index.toNat
  have hamount : (Word.toBytes o.amount).length = 8 := Word.length_toBytes o.amount
  rw [encode, List.length_append]
  omega

/-- A group has an identifier of four bytes and a count of at least one. -/
theorem AssetGroup.le_length_encode (g : AssetGroup) : 5 ≤ g.encode.length := by
  have hasset : (Word.toBytes g.asset).length = 4 := Word.length_toBytes g.asset
  have hcount := Wire.length_compactSize_pos g.outputs.length
  rw [encode, Wire.counted, List.length_append, List.length_append]
  omega

theorem FeeTier.hasWidth_decoder : FeeTier.decoder.HasWidth 10 :=
  (hasWidth_word Int64).bind fun _ => (hasWidth_word UInt16).bind fun _ => hasWidth_pure _

theorem AssetOutput.takes_decoder : AssetOutput.decoder.Takes 9 :=
  AssetOutput.canonical_decoder.takes AssetOutput.le_length_encode

theorem AssetGroup.takes_decoder : AssetGroup.decoder.Takes 5 :=
  AssetGroup.canonical_decoder.takes AssetGroup.le_length_encode

/-- **A count cannot outrun the payload.**  For every count and wherever the cursor is, the loop
over fee tiers succeeds if and only if ten bytes are left for each; the loops over outputs and over
groups need nine and five.  No loop begins to read more than one item for each byte that is left and
one more, so a count beyond that is as good as any other. -/
theorem counts_within_payload (count : Nat) (c : Cursor) :
    (((∃ tiers after, (many count FeeTier.decoder).run c = .ok tiers after) ↔
        10 * count ≤ c.rest.length) ∧
      (c.rest.length < 10 * count → ∃ offset missing after,
        (many count FeeTier.decoder).run c = .error (.unexpectedEnd offset missing) after)) ∧
    WithinPayload FeeTier.decoder 10 count c ∧
    WithinPayload AssetOutput.decoder 9 count c ∧
    WithinPayload AssetGroup.decoder 5 count c := by
  have hfees := FeeTier.hasWidth_decoder.takes.withinPayload (by decide) count c
  refine ⟨⟨⟨?_, ?_⟩, ?_⟩, hfees, ?_, ?_⟩
  · rintro ⟨tiers, after, hrun⟩
    exact hfees.enough tiers after hrun
  · intro hwidth
    obtain ⟨tiers, after, hrun, -⟩ := (FeeTier.hasWidth_decoder.many count).ok hwidth
    exact ⟨tiers, after, hrun⟩
  · exact (FeeTier.hasWidth_decoder.many count).short
  · exact AssetOutput.takes_decoder.withinPayload (by decide) count c
  · exact AssetGroup.takes_decoder.withinPayload (by decide) count c

/-- Nine bytes are one too few for a single tier, and too few for any larger number of items. -/
theorem counts_within_payload_short :
    let count := 0xffffffffffffffff
    let c := Cursor.start [1, 2, 3, 4, 5, 6, 7, 8, 9]
    (c.rest.length < 10 * count ∧ c.rest.length < 9 * count ∧ c.rest.length < 5 * count) ∧
      (∃ offset missing after,
        (many count FeeTier.decoder).run c = .error (.unexpectedEnd offset missing) after) ∧
      (∃ e after, (many count AssetOutput.decoder).run c = .error e after) ∧
      (∃ e after, (many count AssetGroup.decoder).run c = .error e after) ∧
      (many 10 FeeTier.decoder).run c = (many count FeeTier.decoder).run c := by
  intro count c
  have hshort : c.rest.length < 10 * count ∧ c.rest.length < 9 * count ∧
      c.rest.length < 5 * count := by decide
  obtain ⟨⟨-, hfails⟩, hfees, houtputs, hgroups⟩ := counts_within_payload count c
  exact ⟨hshort, hfails hshort.1, houtputs.fails hshort.2.1, hgroups.fails hshort.2.2, hfees.capped⟩

end UtxoAssets
