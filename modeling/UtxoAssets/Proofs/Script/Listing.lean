import UtxoAssets.Proofs.Script.Annotation
import UtxoAssets.Proofs.Script.Malformed
import UtxoAssets.Proofs.Script.Number

/-!
# The tokens of a listing

* `Instruction.ListedAs` — the token of an instruction: a number, hex, or a mnemonic.
* `listing_append` — behind a script that parses, another is listed as if it stood alone, whatever
  stands for a token.
* `asm_lists_instructions` — a listing has one token for each instruction, and one more for a part
  that is no instruction.
-/

set_option autoImplicit false

namespace UtxoAssets

/-! ## One token -/

/-- The token of an instruction. -/
inductive Instruction.ListedAs (i : Instruction) : String → Prop where
  | number : i.isPush → i.data.length ≤ 4 → ListedAs i (Text.decimal (numberOf i.data))
  | bytes : i.isPush → 4 < i.data.length → ListedAs i (hex i.data)
  | mnemonic : ¬ i.isPush → ListedAs i (Opcode.name i.opcode)

theorem Text.signed_ne_empty {n : Int} {magnitude : List Char} (h : magnitude ≠ []) :
    signed n magnitude ≠ "" := by
  rw [signed, ne_eq, String.ofList_eq_empty_iff]
  exact List.append_ne_nil_of_right_ne_nil _ h

theorem hex_ne_empty {bs : Bytes} (h : bs ≠ []) : hex bs ≠ "" := by
  rw [hex, ne_eq, String.ofList_eq_empty_iff]
  cases bs with
  | nil => exact absurd rfl h
  | cons b bs => exact List.cons_ne_nil _ _

theorem Opcode.name_ne_empty (op : UInt8) : name op ≠ "" := by
  have hall : ∀ opcodeName ∈ names, opcodeName ≠ "" := by decide +kernel
  exact hall (name op) (name_mem_names op)

namespace Instruction

theorem ListedAs.ne_empty {i : Instruction} {token : String} (h : i.ListedAs token) :
    token ≠ "" := by
  cases h with
  | number _ _ => exact Text.signed_ne_empty Nat.toDigits_ne_nil
  | bytes _ hlong => exact hex_ne_empty (List.ne_nil_of_length_pos (Nat.zero_lt_of_lt hlong))
  | mnemonic _ => exact Opcode.name_ne_empty i.opcode

theorem listedAs_asmToken (i : Instruction) : i.ListedAs (asmToken false (.instruction i)) := by
  by_cases hpush : i.isPush
  · rw [asmToken_push hpush]
    by_cases hlong : maxShownNumberSize < i.data.length
    · rw [(asmPush_long hlong).2]
      exact .bytes hpush hlong
    · have hshort := Nat.not_lt.mp hlong
      obtain ⟨n, hn, hshown⟩ := asmPush_short hshort
      rw [scriptNumber_eq_numberOf (Nat.le_trans hshort (by decide))] at hn
      cases hn
      rw [hshown]
      exact .number hpush hshort
  · rw [asmToken_operator hpush]
    exact .mnemonic hpush

/-- No instruction is listed as the token for a malformed tail. -/
theorem asmToken_ne_errorToken (i : Instruction) : asmToken false (.instruction i) ≠ "[error]" := by
  intro heq
  apply (isPlain_asmToken_instruction i).bracket_not_mem
  rw [heq]
  decide

end Instruction

/-! ## Whole listings -/

theorem parse_ne_nil {s : Script} (h : s ≠ []) : parse s ≠ [] := by
  cases s.front with
  | nil => exact absurd rfl h
  | instruction i rest hi =>
    rw [parse_encoded_append hi]
    exact List.cons_ne_nil _ _
  | malformed opcode after cause hread =>
    rw [parse_malformed hread]
    exact List.cons_ne_nil _ _

/-- A listing of a script that parses goes on with that of the script behind it. -/
theorem listing_append (shown : Token → String) {a b : Script} (ha : a ≠ []) (hparses : a.Parses)
    (hb : b ≠ []) :
    String.intercalate " " ((parse (a ++ b)).map shown) =
      String.intercalate " " ((parse a).map shown) ++ " " ++
        String.intercalate " " ((parse b).map shown) := by
  rw [hparses.parse_append, List.map_append]
  apply String.intercalate_append_of_ne_nil
  · simpa using parse_ne_nil ha
  · simpa using parse_ne_nil hb

theorem parts_asm_of_ne_nil {s : Script} (h : s ≠ []) :
    Text.parts (asm s) = (parse s).map (asmToken false) := by
  rw [parts_asm, if_neg (parse_ne_nil h)]

/-- **A listing has one token for each instruction, in order.**  One more stands for the part that
is no instruction, if there is such a part; no instruction has that token.  Listings of scripts that
stand one behind the other are joined by a blank. -/
theorem asm_lists_instructions :
    asm [] = "" ∧
    (∀ s : Script, s ≠ [] → ∃ tokens : List String,
      List.Forall₂ Instruction.ListedAs (instructions s) tokens ∧
      (∀ token ∈ tokens, token ≠ "" ∧ token ≠ "[error]") ∧
      (s.Parses → Text.parts (asm s) = tokens) ∧
      (¬ s.Parses → Text.parts (asm s) = tokens ++ ["[error]"])) ∧
    (∀ a b : Script, a ≠ [] → a.Parses → b ≠ [] →
      asm (a ++ b) = asm a ++ " " ++ asm b ∧ flat (a ++ b) = flat a ++ " " ++ flat b) := by
  refine ⟨?_, ?_, ?_⟩
  · rw [asm, parse_nil]
    rfl
  · intro s hs
    refine ⟨(instructions s).map fun i => asmToken false (.instruction i), ?_, ?_, ?_, ?_⟩
    · rw [List.forall₂_map_right_iff, List.forall₂_same]
      exact fun i _ => i.listedAs_asmToken
    · intro token htoken
      obtain ⟨i, -, rfl⟩ := List.mem_map.mp htoken
      exact ⟨i.listedAs_asmToken.ne_empty, i.asmToken_ne_errorToken⟩
    · intro hparses
      rw [parts_asm_of_ne_nil hs, Script.parse_eq_of_parses hparses, List.map_map]
      rfl
    · intro hfails
      obtain ⟨cause, tail, hparse⟩ := Script.exists_parse_eq_of_not_parses hfails
      rw [parts_asm_of_ne_nil hs, hparse, List.map_append, List.map_map]
      rfl
  · intro a b ha hparses hb
    exact ⟨listing_append (asmToken false) ha hparses hb, listing_append flatToken ha hparses hb⟩

/-- A negative number in front of a push that is cut off, and an operator in front of both. -/
theorem asm_lists_instructions_sample :
    Text.parts (asm [0x02, 0xe8, 0x83, 0x02, 0xaa]) = ["-1000", "[error]"] ∧
    asm [0x76, 0x02, 0xe8, 0x83, 0x02, 0xaa] =
      asm [0x76] ++ " " ++ asm [0x02, 0xe8, 0x83, 0x02, 0xaa] ∧
    flat [0x76, 0x02, 0xe8, 0x83, 0x02, 0xaa] =
      flat [0x76] ++ " " ++ flat [0x02, 0xe8, 0x83, 0x02, 0xaa] := by
  obtain ⟨-, htokens, happend⟩ := asm_lists_instructions
  have hparse : parse [0x02, 0xe8, 0x83, 0x02, 0xaa] =
      [.instruction ⟨0x02, [], [0xe8, 0x83]⟩, .malformed (.pushDataCut 2 1) [0x02, 0xaa]] := by
    decide +kernel
  have hfails : ¬ Script.Parses [0x02, 0xe8, 0x83, 0x02, 0xaa] := by
    intro hparses
    apply hparses (.pushDataCut 2 1) [0x02, 0xaa]
    rw [hparse]
    exact List.mem_cons_of_mem _ (List.mem_singleton_self _)
  have hdup : Script.Parses [0x76] := by
    have hwf : ∀ i ∈ [(⟨0x76, [], []⟩ : Instruction)], i.WellFormed :=
      List.forall_mem_singleton.mpr (.single (.inr (by decide)))
    exact (Script.parses_flatMap_append_iff hwf []).mpr Script.parses_nil
  refine ⟨?_, happend [0x76] _ (by decide) hdup (by decide)⟩
  obtain ⟨tokens, hlisted, -, -, hshown⟩ := htokens [0x02, 0xe8, 0x83, 0x02, 0xaa] (by decide)
  rw [hshown hfails]
  rw [instructions, hparse] at hlisted
  rcases List.forall₂_cons_left_iff.mp hlisted with ⟨token, rest, htoken, hrest, rfl⟩
  cases hrest
  cases htoken with
  | number _ _ => decide
  | bytes _ hlong => exact absurd hlong (by decide)
  | mnemonic hpush => exact absurd rfl hpush

end UtxoAssets
