import UtxoAssets.Proofs.Script.Parsing
import UtxoAssets.Proofs.Text.Digits
import UtxoAssets.Script.Listing

/-!
# Flat listings lose nothing

A flat listing shows an instruction in one part or in two, and no part has a blank in it.

* `flatTokenBytes?` — the bytes that a part stands for, whatever stands beside it: a number or a
  mnemonic is an opcode, all else is hex.
* `readFlat?` — a whole listing, cut at its blanks and read part by part.
* `flatTokenBytes?_flatName` — no two opcodes are shown by one name, and no name is taken for hex.
* `readParts?_flatParts` — reading the parts of a script goes along with scanning it.
* `flat_parts_decode` — every script is read back from its flat listing, so the listing determines
  the script.
-/

set_option autoImplicit false

namespace UtxoAssets

/-! ## Reading a listing -/

/-- The opcodes shown by a number or by a mnemonic: zero, minus one, and all from one to `nop10`. -/
def namedOpcodes : List UInt8 :=
  0x00 :: Opcode.negative1 :: (List.range 105).map fun k => UInt8.ofNat (0x51 + k)

/-- What stands for one of these opcodes. -/
def flatName (op : UInt8) : String :=
  if op = 0x00 then "0"
  else if op < Opcode.nop then Text.decimal ((op.toNat : Int) - 0x50)
  else bareMnemonic op

/-- The opcodes that have a name in the flat form, by their names. -/
def flatNames : List (String × UInt8) := namedOpcodes.map fun op => (flatName op, op)

/-- The bytes of one part of a listing.  The listing of the empty script is one empty part. -/
def flatTokenBytes? (token : String) : Option Bytes :=
  match token.toList with
  | [] => some []
  | '0' :: 'x' :: digits => unhexChars? digits
  | _ => (flatNames.lookup token).map fun op => [op]

/-- The parts of a text between its blanks. -/
def Text.parts (text : String) : List String := (text.split ' ').toList.map String.Slice.copy

/-- Read every part on its own, and join the bytes. -/
def readParts? (parts : List String) : Option Bytes :=
  (parts.mapM flatTokenBytes?).map List.flatten

/-- The script that a flat listing was made of, token by token. -/
def readFlat? (listing : String) : Option Bytes := readParts? (Text.parts listing)

/-! ## Parts -/

theorem mem_namedOpcodes_iff {op : UInt8} :
    op ∈ namedOpcodes ↔
      op = 0x00 ∨ (op = Opcode.negative1 ∨ Opcode.isSmallInt op) ∨
        (Opcode.nop ≤ op ∧ op ≤ Opcode.nop10) := by
  have hrange : (∃ k < 105, UInt8.ofNat (0x51 + k) = op) ↔
      Opcode.isSmallInt op ∨ (Opcode.nop ≤ op ∧ op ≤ Opcode.nop10) := by
    simp only [Opcode.isSmallInt_iff, UInt8.le_iff_toNat_le, Opcode.one, Opcode.sixteen,
      Opcode.nop, Opcode.nop10, UInt8.reduceToNat]
    constructor
    · rintro ⟨k, hk, rfl⟩
      rw [UInt8.toNat_ofNat']
      omega
    · intro hop
      refine ⟨op.toNat - 0x51, by omega, ?_⟩
      rw [Nat.add_sub_cancel' (by omega), UInt8.ofNat_toNat]
  simp only [namedOpcodes, List.mem_cons, List.mem_map, List.mem_range, hrange, or_assoc]

theorem flatTokenBytes?_flatName {op : UInt8} (h : op ∈ namedOpcodes) :
    flatTokenBytes? (flatName op) = some [op] ∧ ' ' ∉ (flatName op).toList := by
  have hall : ∀ entry ∈ flatNames,
      flatTokenBytes? entry.1 = some [entry.2] ∧ ' ' ∉ entry.1.toList := by decide +kernel
  exact hall (flatName op, op) (List.mem_map_of_mem h)

theorem toList_hexToken (bs : Bytes) : (hexToken bs).toList = '0' :: 'x' :: hexChars bs := by
  simp [hexToken, hex]

theorem flatTokenBytes?_hexToken (bs : Bytes) : flatTokenBytes? (hexToken bs) = some bs := by
  rw [flatTokenBytes?, toList_hexToken]
  exact unhexChars?_hexChars bs

theorem blank_not_mem_hexToken (bs : Bytes) : ' ' ∉ (hexToken bs).toList := by
  have hdigit : ∀ d < 16, ' ' ≠ hexDigit d := by decide
  rw [toList_hexToken]
  simp only [List.mem_cons]
  rintro (h | h | h)
  · exact absurd h (by decide)
  · exact absurd h (by decide)
  · obtain ⟨d, hd, hc⟩ := exists_of_mem_hexChars h
    exact hdigit d hd hc

theorem readParts?_singleton {token : String} {bs : Bytes} (h : flatTokenBytes? token = some bs) :
    readParts? [token] = some bs := by
  simp [readParts?, h]

theorem readParts?_append {parts₁ parts₂ : List String} {bs₁ bs₂ : Bytes}
    (h₁ : readParts? parts₁ = some bs₁) (h₂ : readParts? parts₂ = some bs₂) :
    readParts? (parts₁ ++ parts₂) = some (bs₁ ++ bs₂) := by
  obtain ⟨pieces₁, hm₁, rfl⟩ := Option.map_eq_some_iff.mp h₁
  obtain ⟨pieces₂, hm₂, rfl⟩ := Option.map_eq_some_iff.mp h₂
  simp [readParts?, List.mapM_append, hm₁, hm₂]

/-! ## From tokens to parts -/

namespace Instruction

/-- The tokens of an instruction. -/
def flatParts (i : Instruction) : List String :=
  if i.opcode ∈ namedOpcodes then [flatName i.opcode]
  else if i.data.isEmpty then [hexToken i.encoded]
  else [hexToken i.header, hexToken i.data]

theorem flatParts_ne_nil (i : Instruction) : i.flatParts ≠ [] := by
  unfold flatParts
  split
  · exact List.cons_ne_nil _ _
  split <;> exact List.cons_ne_nil _ _

theorem flatInstruction_of_mem {i : Instruction} (h : i.opcode ∈ namedOpcodes) :
    flatInstruction i = flatName i.opcode := by
  unfold flatInstruction flatName
  rcases mem_namedOpcodes_iff.mp h with hzero | (hminus | hsmall) | ⟨hnop, hnop10⟩
  · rw [if_pos hzero, if_pos hzero]
  · rw [hminus]
    rfl
  · obtain ⟨hone, hsixteen⟩ := Opcode.isSmallInt_iff.mp hsmall
    have hne : i.opcode ≠ 0x00 := fun heq => absurd (heq ▸ hone) (by decide)
    have hlt : i.opcode < Opcode.nop := UInt8.lt_of_le_of_lt hsixteen (by decide)
    rw [if_neg hne, if_pos (.inr hsmall), if_neg hne, if_pos hlt]
  · have hne : i.opcode ≠ 0x00 := fun heq => absurd (heq ▸ hnop) (by decide)
    have hnumber : ¬ (i.opcode = Opcode.negative1 ∨ Opcode.isSmallInt i.opcode) := by
      rintro (heq | hsmall)
      · exact absurd (heq ▸ hnop) (by decide)
      · have hle := UInt8.le_trans hnop (Opcode.isSmallInt_iff.mp hsmall).2
        exact absurd hle (by decide)
    rw [if_neg hne, if_neg hnumber, if_pos ⟨hnop, hnop10⟩, if_neg hne,
      if_neg (UInt8.not_lt.mpr hnop)]

theorem flatInstruction_of_not_mem {i : Instruction} (h : i.opcode ∉ namedOpcodes) :
    flatInstruction i =
      if i.data.isEmpty then hexToken i.encoded
      else hexToken i.header ++ " " ++ hexToken i.data := by
  rw [mem_namedOpcodes_iff, not_or, not_or] at h
  obtain ⟨hzero, hnumber, hmnemonic⟩ := h
  rw [flatInstruction, if_neg hzero, if_neg hnumber, if_neg hmnemonic]

theorem flatInstruction_eq (i : Instruction) :
    flatInstruction i = String.intercalate " " i.flatParts := by
  unfold flatParts
  split
  · rw [flatInstruction_of_mem ‹_›, String.intercalate_singleton]
  · rw [flatInstruction_of_not_mem ‹_›]
    split
    · rw [String.intercalate_singleton]
    · rw [String.intercalate_cons_cons, String.intercalate_singleton]

/-- An instruction shown by its name is a single byte. -/
theorem WellFormed.encoded_of_mem {i : Instruction} (h : i.WellFormed)
    (hmem : i.opcode ∈ namedOpcodes) : i.encoded = [i.opcode] := by
  have hpush : ∀ op : UInt8, 0x01 ≤ op → op ≤ 0x4e → op ∉ namedOpcodes := by
    intro op hlow hhigh hmem
    simp only [mem_namedOpcodes_iff, Opcode.isSmallInt_iff, Opcode.negative1, Opcode.one,
      Opcode.sixteen, Opcode.nop, UInt8.le_iff_toNat_le, ← UInt8.toNat_inj,
      UInt8.reduceToNat] at hlow hhigh hmem
    omega
  cases h with
  | single _ => rfl
  | direct hlow hhigh _ => exact absurd hmem (hpush _ hlow (UInt8.le_trans hhigh (by decide)))
  | pushData1 _ _ => exact absurd hmem (hpush 0x4c (by decide) (by decide))
  | pushData2 _ _ => exact absurd hmem (hpush 0x4d (by decide) (by decide))
  | pushData4 _ _ => exact absurd hmem (hpush 0x4e (by decide) (by decide))

/-- The parts of an instruction are read as the bytes it is encoded in. -/
theorem readParts?_flatParts {i : Instruction} (h : i.WellFormed) :
    readParts? i.flatParts = some i.encoded := by
  unfold flatParts
  split
  · rename_i hmem
    rw [h.encoded_of_mem hmem]
    exact readParts?_singleton (flatTokenBytes?_flatName hmem).1
  split
  · exact readParts?_singleton (flatTokenBytes?_hexToken _)
  · exact readParts?_append (readParts?_singleton (flatTokenBytes?_hexToken i.header))
      (readParts?_singleton (flatTokenBytes?_hexToken i.data))

theorem blank_not_mem_flatParts (i : Instruction) : ∀ part ∈ i.flatParts, ' ' ∉ part.toList := by
  unfold flatParts
  split
  · rename_i hmem
    simpa using (flatTokenBytes?_flatName hmem).2
  split
  · simpa using blank_not_mem_hexToken i.encoded
  · simpa using ⟨blank_not_mem_hexToken i.header, blank_not_mem_hexToken i.data⟩

end Instruction

namespace Token

/-- The tokens of an instruction or of the malformed part. -/
def flatParts : Token → List String
  | .instruction i => i.flatParts
  | .malformed _ tail => [hexToken tail]

theorem flatParts_ne_nil (t : Token) : t.flatParts ≠ [] := by
  cases t with
  | instruction i => exact i.flatParts_ne_nil
  | malformed cause tail => exact List.cons_ne_nil _ _

theorem flatToken_eq (t : Token) : flatToken t = String.intercalate " " t.flatParts := by
  cases t with
  | instruction i => exact i.flatInstruction_eq
  | malformed cause tail => exact String.intercalate_singleton.symm

theorem blank_not_mem_flatParts (t : Token) : ∀ part ∈ t.flatParts, ' ' ∉ part.toList := by
  cases t with
  | instruction i => exact i.blank_not_mem_flatParts
  | malformed cause tail => simpa [flatParts] using blank_not_mem_hexToken tail

end Token

/-! ## Whole listings -/

/-- Pieces that are joined of parts join like the parts themselves, if none of them is empty. -/
theorem Text.intercalate_flatMap {α : Type} (sep : String) {parts : α → List String}
    (h : ∀ x, parts x ≠ []) (xs : List α) :
    String.intercalate sep (xs.map fun x => String.intercalate sep (parts x)) =
      String.intercalate sep (xs.flatMap parts) := by
  induction xs with
  | nil => rfl
  | cons x xs ih =>
    rw [List.map_cons, List.flatMap_cons]
    cases xs with
    | nil =>
      rw [List.map_nil, String.intercalate_singleton, List.flatMap_nil, List.append_nil]
    | cons y ys =>
      have hrest : (y :: ys).flatMap parts ≠ [] := by
        rw [List.flatMap_cons]
        exact List.append_ne_nil_of_left_ne_nil (h y) _
      rw [String.intercalate_cons_of_ne_nil (by simp), ih,
        String.intercalate_append_of_ne_nil (h x) hrest]

/-- The parts that the listing of a script is made of. -/
def Script.flatParts (s : Script) : List String := (parse s).flatMap Token.flatParts

/-- The flat text is the parts of all tokens with a blank between each two. -/
theorem flat_eq (s : Script) : flat s = String.intercalate " " s.flatParts := by
  have htokens : flatToken = fun t : Token => String.intercalate " " t.flatParts :=
    funext Token.flatToken_eq
  rw [flat, htokens, Text.intercalate_flatMap " " Token.flatParts_ne_nil]
  rfl

theorem Script.readParts?_flatParts (s : Script) : readParts? s.flatParts = some s := by
  unfold flatParts
  induction s using Script.readInduction with
  | nil =>
    rw [parse_nil]
    rfl
  | instruction i rest hi ih =>
    rw [parse_encoded_append hi, List.flatMap_cons]
    exact readParts?_append (Instruction.readParts?_flatParts hi) ih
  | malformed opcode after cause hread =>
    rw [parse_malformed hread, List.flatMap_singleton]
    exact readParts?_singleton (flatTokenBytes?_hexToken _)

/-- Parts without blanks come back from the text they are joined in. No parts at all come back as
one empty part. -/
theorem Text.parts_intercalate {parts : List String} (h : ∀ part ∈ parts, ' ' ∉ part.toList) :
    Text.parts (String.intercalate " " parts) = if parts = [] then [""] else parts :=
  String.toList_split_intercalate h

theorem readFlat?_flat_eq (s : Script) : readFlat? (flat s) = some s := by
  have hblank : ∀ part ∈ s.flatParts, ' ' ∉ part.toList := by
    intro part hpart
    obtain ⟨t, -, hpart⟩ := List.mem_flatMap.mp hpart
    exact t.blank_not_mem_flatParts part hpart
  have hread := s.readParts?_flatParts
  rw [readFlat?, flat_eq, Text.parts_intercalate hblank]
  split
  · rename_i hnil
    rw [hnil] at hread
    cases hread
    exact readParts?_singleton rfl
  · exact hread

/-- From `nop` to `nop10` the two names of an opcode differ in the leading `OP_` only. -/
theorem mnemonic_eq {op : UInt8} (hnop : Opcode.nop ≤ op) (hnop10 : op ≤ Opcode.nop10) :
    Opcode.name op = "OP_" ++ bareMnemonic op ∧ flatName op = bareMnemonic op := by
  have hall : ∀ k < 89, Opcode.name (UInt8.ofNat (0x61 + k)) =
      "OP_" ++ bareMnemonic (UInt8.ofNat (0x61 + k)) := by decide +kernel
  rw [UInt8.le_iff_toNat_le] at hnop hnop10
  simp only [Opcode.nop, Opcode.nop10, UInt8.reduceToNat] at hnop hnop10
  have hop : UInt8.ofNat (0x61 + (op.toNat - 0x61)) = op := by
    rw [Nat.add_sub_cancel' hnop, UInt8.ofNat_toNat]
  refine ⟨by rw [← hop]; exact hall _ (by omega), ?_⟩
  have hne : op ≠ 0x00 := by
    rintro rfl
    exact absurd hnop (by decide)
  rw [flatName, if_neg hne, if_neg]
  rw [UInt8.lt_iff_toNat_lt]
  exact Nat.not_lt.mpr hnop

/-- **A flat listing loses nothing.**  Its parts are numbers, hex and mnemonics without the letters
that all of them begin with, and a part stands for its bytes whatever stands beside it. -/
theorem flat_parts_decode :
    (flatTokenBytes? "0" = some [0x00] ∧ flatTokenBytes? "-1" = some [0x4f] ∧
      (∀ n : Nat, 1 ≤ n → n ≤ 16 →
        flatTokenBytes? (Text.decimal n) = some [UInt8.ofNat (0x50 + n)]) ∧
      (∀ bs : Bytes, flatTokenBytes? ("0x" ++ hex bs) = some bs) ∧
      (∀ op : UInt8, Opcode.nop ≤ op → op ≤ Opcode.nop10 →
        Opcode.name op = "OP_" ++ bareMnemonic op ∧
        flatTokenBytes? (bareMnemonic op) = some [op])) ∧
    (∀ s : Script, ((Text.parts (flat s)).mapM flatTokenBytes?).map List.flatten = some s) ∧
    (∀ s s' : Script, flat s = flat s' → s = s') := by
  refine ⟨⟨by decide, by decide, ?numbers, flatTokenBytes?_hexToken, ?mnemonics⟩, readFlat?_flat_eq,
    ?injective⟩
  case numbers =>
    intro n hlow hhigh
    have hall : ∀ n : Nat, n < 17 → 1 ≤ n →
        flatTokenBytes? (Text.decimal n) = some [UInt8.ofNat (0x50 + n)] := by decide +kernel
    exact hall n (by omega) hlow
  case mnemonics =>
    intro op hnop hnop10
    obtain ⟨hname, hflat⟩ := mnemonic_eq hnop hnop10
    have hmem := mem_namedOpcodes_iff.mpr (.inr (.inr ⟨hnop, hnop10⟩))
    rw [← hflat]
    exact ⟨hflat ▸ hname, (flatTokenBytes?_flatName hmem).1⟩
  case injective =>
    intro s s' heq
    have hread := readFlat?_flat_eq s
    rw [heq, readFlat?_flat_eq] at hread
    exact (Option.some.inj hread).symm

/-- A push that states its length in a longer form than it need, an opcode without a name, and a
push that is cut off. -/
theorem flat_parts_decode_dup_pushes :
    ((Text.parts "DUP 0x4d0100 0x11 16 0xba 0x05aa").mapM flatTokenBytes?).map List.flatten =
      some [0x76, 0x4d, 0x01, 0x00, 0x11, 0x60, 0xba, 0x05, 0xaa] ∧
    flatTokenBytes? (Text.decimal (16 : Nat)) = some [0x60] ∧
    flatTokenBytes? (bareMnemonic 0x76) = some [0x76] := by
  obtain ⟨⟨-, -, hnumbers, -, hmnemonics⟩, hread, -⟩ := flat_parts_decode
  refine ⟨?_, hnumbers 16 (by decide) (by decide), (hmnemonics 0x76 (by decide) (by decide)).2⟩
  have hflat : flat [0x76, 0x4d, 0x01, 0x00, 0x11, 0x60, 0xba, 0x05, 0xaa] =
      "DUP 0x4d0100 0x11 16 0xba 0x05aa" := by decide +kernel
  rw [← hflat]
  exact hread _

end UtxoAssets
