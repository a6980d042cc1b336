import UtxoAssets.Script.Instruction

/-!
# Scripts are rows of instructions

* `Instruction.WellFormed` — the shapes of an instruction; the reader reads exactly these
  (`Instruction.read_encoded`, `Instruction.wellFormed_of_read`).
* `Script.front` — a script is empty, or an instruction in front of a script, or malformed at its
  first byte.  `Script.readInduction` is the induction of this kind, and `Scanner.run` has one
  equation for each of the three.
* `Script.flatMap_encoded_instructions_append`, `Script.unread_eq_nil_iff` — what a scan yields and
  what it leaves make up the script, and nothing is left if and only if the script parses.
* `parse_instructions_correspond` — scripts that parse and rows of well-formed instructions
  correspond one to one.
-/

set_option autoImplicit false

namespace UtxoAssets

/-! ## Well-formed instructions -/

/-- A single byte, a byte that counts the data behind it, or a push that states a length, in the
shortest form or not. -/
inductive Instruction.WellFormed : Instruction → Prop where
  | single {opcode : UInt8} :
      opcode = 0x00 ∨ 0x4f ≤ opcode → WellFormed ⟨opcode, [], []⟩
  | direct {opcode : UInt8} {data : Bytes} :
      0x01 ≤ opcode → opcode ≤ 0x4b → data.length = opcode.toNat → WellFormed ⟨opcode, [], data⟩
  | pushData1 {lengthBytes data : Bytes} :
      lengthBytes.length = 1 → data.length = ofLittleEndian lengthBytes →
      WellFormed ⟨0x4c, lengthBytes, data⟩
  | pushData2 {lengthBytes data : Bytes} :
      lengthBytes.length = 2 → data.length = ofLittleEndian lengthBytes →
      WellFormed ⟨0x4d, lengthBytes, data⟩
  | pushData4 {lengthBytes data : Bytes} :
      lengthBytes.length = 4 → data.length = ofLittleEndian lengthBytes →
      WellFormed ⟨0x4e, lengthBytes, data⟩

namespace Opcode

theorem lt_pushData1_iff {opcode : UInt8} : opcode < pushData1 ↔ opcode ≤ 0x4b := by
  simp only [UInt8.lt_iff_toNat_lt, UInt8.le_iff_toNat_le, pushData1, UInt8.reduceToNat]
  omega

theorem pushData4_lt_iff {opcode : UInt8} : pushData4 < opcode ↔ 0x4f ≤ opcode := by
  simp only [UInt8.lt_iff_toNat_lt, UInt8.le_iff_toNat_le, pushData4, UInt8.reduceToNat]
  omega

theorem lengthWidth_eq_zero {opcode : UInt8} (h : opcode < pushData1 ∨ pushData4 < opcode) :
    lengthWidth opcode = 0 := by
  have hne : ∀ b : UInt8, pushData1 ≤ b → b ≤ pushData4 → opcode ≠ b := by
    rintro b hlow hhigh rfl
    rcases h with hlt | hgt
    · exact UInt8.not_lt.mpr hlow hlt
    · exact UInt8.not_lt.mpr hhigh hgt
  rw [lengthWidth, if_neg (hne _ (by decide) (by decide)), if_neg (hne _ (by decide) (by decide)),
    if_neg (hne _ (by decide) (by decide))]

/-- An opcode lies below the long pushes, is one of them, or lies above them. -/
theorem longPush_cases (opcode : UInt8) :
    opcode < pushData1 ∨ opcode = pushData1 ∨ opcode = pushData2 ∨ opcode = pushData4 ∨
      pushData4 < opcode := by
  simp only [UInt8.lt_iff_toNat_lt, ← UInt8.toNat_inj, pushData1, pushData2, pushData4,
    UInt8.reduceToNat]
  omega

end Opcode

namespace Instruction

theorem announcedLength_of_lt {opcode : UInt8} (h : opcode < Opcode.pushData1)
    (lengthBytes : Bytes) : announcedLength opcode lengthBytes = opcode.toNat := by
  rw [announcedLength, if_pos (Opcode.lengthWidth_eq_zero (.inl h)), Opcode.directLength, if_pos h]

theorem announcedLength_of_gt {opcode : UInt8} (h : Opcode.pushData4 < opcode)
    (lengthBytes : Bytes) : announcedLength opcode lengthBytes = 0 := by
  have hge : ¬ opcode < Opcode.pushData1 := by
    rw [UInt8.not_lt]
    exact UInt8.le_trans (by decide) (UInt8.le_of_lt h)
  rw [announcedLength, if_pos (Opcode.lengthWidth_eq_zero (.inr h)), Opcode.directLength,
    if_neg hge]

/-- The parts of an instruction are as long as its opcode and its length bytes say. -/
theorem WellFormed.lengths {i : Instruction} (h : i.WellFormed) :
    i.lengthBytes.length = Opcode.lengthWidth i.opcode ∧
      i.data.length = announcedLength i.opcode i.lengthBytes := by
  cases h with
  | @single opcode h =>
    rcases h with rfl | h
    · decide
    · have hgt := Opcode.pushData4_lt_iff.mpr h
      exact ⟨(Opcode.lengthWidth_eq_zero (.inr hgt)).symm, (announcedLength_of_gt hgt []).symm⟩
  | @direct opcode data _ hle hdata =>
    have hlt := Opcode.lt_pushData1_iff.mpr hle
    refine ⟨(Opcode.lengthWidth_eq_zero (.inl hlt)).symm, ?_⟩
    rw [hdata, announcedLength_of_lt hlt]
  | pushData1 hlength hdata => exact ⟨hlength, hdata⟩
  | pushData2 hlength hdata => exact ⟨hlength, hdata⟩
  | pushData4 hlength hdata => exact ⟨hlength, hdata⟩

/-- An instruction is well formed if its two lengths are those that its opcode and its length bytes
ask for. -/
theorem wellFormed_of_lengths {opcode : UInt8} {lengthBytes data : Bytes}
    (hlength : lengthBytes.length = Opcode.lengthWidth opcode)
    (hdata : data.length = announcedLength opcode lengthBytes) :
    WellFormed ⟨opcode, lengthBytes, data⟩ := by
  rcases Opcode.longPush_cases opcode with h | rfl | rfl | rfl | h
  · rw [Opcode.lengthWidth_eq_zero (.inl h), List.length_eq_zero_iff] at hlength
    rw [announcedLength_of_lt h] at hdata
    subst hlength
    by_cases hzero : opcode = 0
    · subst hzero
      rw [List.length_eq_zero_iff.mp hdata]
      exact .single (.inl rfl)
    · have hpos : opcode.toNat ≠ 0 := fun h0 => hzero (UInt8.toNat_inj.mp h0)
      have hone : 0x01 ≤ opcode := UInt8.le_iff_toNat_le.mpr (Nat.one_le_iff_ne_zero.mpr hpos)
      exact .direct hone (Opcode.lt_pushData1_iff.mp h) hdata
  · exact .pushData1 hlength hdata
  · exact .pushData2 hlength hdata
  · exact .pushData4 hlength hdata
  · rw [Opcode.lengthWidth_eq_zero (.inr h), List.length_eq_zero_iff] at hlength
    rw [announcedLength_of_gt h, List.length_eq_zero_iff] at hdata
    subst hlength hdata
    exact .single (.inr (Opcode.pushData4_lt_iff.mp h))

/-- A well-formed instruction is read from its encoding, whatever follows. -/
theorem read_encoded {i : Instruction} (h : i.WellFormed) (rest : Script) :
    read i.opcode (i.lengthBytes ++ (i.data ++ rest)) = .ok (i, rest) := by
  obtain ⟨hlength, hdata⟩ := h.lengths
  unfold read
  rw [splitExactly?_append hlength]
  dsimp only
  rw [splitExactly?_append hdata]

theorem wellFormed_of_read {opcode : UInt8} {after rest : Script} {i : Instruction}
    (h : read opcode after = .ok (i, rest)) : i.WellFormed := by
  unfold read at h
  split at h
  · cases h
  · rename_i lengthBytes body hlength
    split at h
    · cases h
    · rename_i data rest' hdata
      cases h
      exact wellFormed_of_lengths (length_of_splitExactly? hlength)
        (length_of_splitExactly? hdata)

end Instruction

/-! ## The scan of a script -/

/-- What stands at the front of a script. -/
inductive Script.Front : Script → Prop where
  | nil : Front []
  | instruction (i : Instruction) (rest : Script) (h : i.WellFormed) : Front (i.encoded ++ rest)
  | malformed (opcode : UInt8) (after : Script) (cause : ScriptError)
      (h : Instruction.read opcode after = .error cause) : Front (opcode :: after)

/-- A script is empty, or begins with an instruction, or is malformed at its first byte. -/
theorem Script.front (s : Script) : s.Front := by
  cases s with
  | nil => exact .nil
  | cons opcode after =>
    cases hread : Instruction.read opcode after with
    | error cause => exact .malformed opcode after cause hread
    | ok read =>
      obtain ⟨i, rest⟩ := read
      rw [← Instruction.append_eq_of_read hread]
      exact .instruction i rest (Instruction.wellFormed_of_read hread)

/-- Induction over a script, instruction by instruction. -/
theorem Script.readInduction {P : Script → Prop} (nil : P [])
    (instruction : ∀ (i : Instruction) (rest : Script), i.WellFormed → P rest →
      P (i.encoded ++ rest))
    (malformed : ∀ (opcode : UInt8) (after : Script) (cause : ScriptError),
      Instruction.read opcode after = .error cause → P (opcode :: after))
    (s : Script) : P s := by
  -- The rest behind an instruction is no part of the list's own structure.
  induction hn : s.length using Nat.strongRecOn generalizing s with
  | ind n ih =>
    cases s.front with
    | nil => exact nil
    | instruction i rest hi =>
      refine instruction i rest hi (ih rest.length ?_ rest rfl)
      rw [← hn, List.length_append, Instruction.encoded, Instruction.header, List.cons_append,
        List.length_cons]
      omega
    | malformed opcode after cause hread => exact malformed opcode after cause hread

namespace Scanner

variable {i : Instruction} {opcode : UInt8} {after : Script} {cause : ScriptError}

/-- Where the scanner stands once it yields nothing more. -/
def endOffset (s : Scanner) : Nat := s.run.foldl (fun _ stamped => stamped.2) s.offset

theorem run_of_next_eq_none {s : Scanner} (h : s.next = none) : s.run = [] := by
  rw [run]
  split
  · rfl
  · rename_i hsome
    rw [h] at hsome
    cases hsome

theorem run_of_next_eq_some {s t : Scanner} {token : Token} (h : s.next = some (token, t)) :
    s.run = (token, t.offset) :: t.run := by
  rw [run]
  split
  · rename_i hnone
    rw [h] at hnone
    cases hnone
  · rename_i hsome
    rw [h] at hsome
    cases hsome
    rfl

theorem run_nil (offset : Nat) : run ⟨offset, [], false⟩ = [] :=
  run_of_next_eq_none rfl

theorem next_encoded_append (h : i.WellFormed) (offset : Nat) (rest : Script) :
    next ⟨offset, i.encoded ++ rest, false⟩ =
      some (.instruction i, ⟨offset + i.encoded.length, rest, false⟩) := by
  simp only [next, Instruction.encoded, Instruction.header, List.cons_append, List.append_assoc,
    Instruction.read_encoded h rest]

theorem next_malformed (h : Instruction.read opcode after = .error cause) (offset : Nat) :
    next ⟨offset, opcode :: after, false⟩ =
      some (.malformed cause (opcode :: after), ⟨offset, opcode :: after, true⟩) := by
  simp only [next, h]

/-- A run over an instruction goes on behind it. -/
theorem run_encoded_append (h : i.WellFormed) (offset : Nat) (rest : Script) :
    run ⟨offset, i.encoded ++ rest, false⟩ =
      (.instruction i, offset + i.encoded.length)
        :: run ⟨offset + i.encoded.length, rest, false⟩ :=
  run_of_next_eq_some (next_encoded_append h offset rest)

/-- A run over a malformed tail yields one token and stops, without moving. -/
theorem run_malformed (h : Instruction.read opcode after = .error cause) (offset : Nat) :
    run ⟨offset, opcode :: after, false⟩ = [(.malformed cause (opcode :: after), offset)] := by
  rw [run_of_next_eq_some (next_malformed h offset), run_of_next_eq_none rfl]

/-- The tokens do not depend on where a scan starts, and the offsets move with it. -/
theorem run_eq_map (offset : Nat) (s : Script) :
    run ⟨offset, s, false⟩ = (start s).run.map fun stamped => (stamped.1, offset + stamped.2) := by
  induction s using Script.readInduction generalizing offset with
  | nil => rw [start, run_nil, run_nil, List.map_nil]
  | instruction i rest hi ih =>
    rw [start, run_encoded_append hi, run_encoded_append hi, ih, ih (0 + i.encoded.length),
      List.map_cons, List.map_map]
    simp only [Function.comp_def, Nat.zero_add, Nat.add_assoc]
  | malformed opcode after cause hread =>
    rw [start, run_malformed hread, run_malformed hread]
    rfl

/-- Where a scan ends moves with where it starts. -/
theorem endOffset_eq_add (offset : Nat) (s : Script) :
    endOffset ⟨offset, s, false⟩ = offset + (start s).endOffset := by
  induction s using Script.readInduction generalizing offset with
  | nil => simp only [endOffset, start, run_nil, List.foldl_nil, Nat.add_zero]
  | instruction i rest hi ih =>
    simp only [endOffset, start, run_encoded_append hi, List.foldl_cons] at ih ⊢
    rw [ih, ih (0 + i.encoded.length), Nat.zero_add, Nat.add_assoc]
  | malformed opcode after cause hread =>
    simp only [endOffset, start, run_malformed hread, List.foldl_cons, List.foldl_nil,
      Nat.add_zero]

theorem endOffset_start_encoded_append (h : i.WellFormed) (rest : Script) :
    (start (i.encoded ++ rest)).endOffset = i.encoded.length + (start rest).endOffset := by
  rw [← endOffset_eq_add]
  simp only [endOffset, start, run_encoded_append h, List.foldl_cons, Nat.zero_add]

end Scanner

/-! ## The tokens of a script -/

/-- The instruction that a token is, if it is one. -/
def Token.instruction? : Token → Option Instruction
  | .instruction i => some i
  | .malformed _ _ => none

/-- The instructions that a scan yields before it ends or fails. -/
def instructions (s : Script) : List Instruction := (parse s).filterMap Token.instruction?

/-- The bytes that a scan does not get past. -/
def Script.unread (s : Script) : Script := s.drop (Scanner.start s).endOffset

/-- The scan yields no error. -/
def Script.Parses (s : Script) : Prop := ∀ cause tail, .malformed cause tail ∉ parse s

theorem parse_nil : parse [] = [] := by
  rw [parse, Scanner.start, Scanner.run_nil, List.map_nil]

theorem instructions_nil : instructions [] = [] := by
  rw [instructions, parse_nil, List.filterMap_nil]

theorem Script.unread_nil : Script.unread [] = [] := List.drop_nil

section Instruction

variable {i : Instruction} (h : i.WellFormed) (rest : Script)

include h

theorem parse_encoded_append : parse (i.encoded ++ rest) = .instruction i :: parse rest := by
  rw [parse, Scanner.start, Scanner.run_encoded_append h, Scanner.run_eq_map, List.map_cons,
    List.map_map]
  rfl

theorem instructions_encoded_append :
    instructions (i.encoded ++ rest) = i :: instructions rest := by
  rw [instructions, parse_encoded_append h]
  rfl

theorem Script.unread_encoded_append : Script.unread (i.encoded ++ rest) = rest.unread := by
  rw [unread, Scanner.endOffset_start_encoded_append h, List.drop_length_add_append]
  rfl

end Instruction

section Malformed

variable {opcode : UInt8} {after : Script} {cause : ScriptError}
  (h : Instruction.read opcode after = .error cause)

include h

theorem parse_malformed : parse (opcode :: after) = [.malformed cause (opcode :: after)] := by
  rw [parse, Scanner.start, Scanner.run_malformed h, List.map_cons, List.map_nil]

theorem instructions_malformed : instructions (opcode :: after) = [] := by
  rw [instructions, parse_malformed h]
  rfl

theorem Script.unread_malformed : Script.unread (opcode :: after) = opcode :: after := by
  rw [unread, Scanner.endOffset, Scanner.start, Scanner.run_malformed h]
  rfl

end Malformed

/-! ## From instructions to scripts and back -/

/-- Instructions in front of a script are parsed first, and do not change how the script is
parsed. -/
theorem parse_flatMap_encoded_append {is : List Instruction} (h : ∀ i ∈ is, i.WellFormed)
    (rest : Script) :
    parse (is.flatMap Instruction.encoded ++ rest) = is.map Token.instruction ++ parse rest := by
  induction is with
  | nil => rfl
  | cons i is ih =>
    obtain ⟨hi, his⟩ := List.forall_mem_cons.mp h
    rw [List.flatMap_cons, List.append_assoc, parse_encoded_append hi, ih his]
    rfl

theorem parse_flatMap_encoded {is : List Instruction} (h : ∀ i ∈ is, i.WellFormed) :
    parse (is.flatMap Instruction.encoded) = is.map Token.instruction := by
  have happend := parse_flatMap_encoded_append h []
  rwa [parse_nil, List.append_nil, List.append_nil] at happend

theorem endOffset_start_flatMap_encoded {is : List Instruction} (h : ∀ i ∈ is, i.WellFormed) :
    (Scanner.start (is.flatMap Instruction.encoded)).endOffset =
      (is.flatMap Instruction.encoded).length := by
  induction is with
  | nil => rw [List.flatMap_nil, Scanner.endOffset, Scanner.start, Scanner.run_nil]; rfl
  | cons i is ih =>
    obtain ⟨hi, his⟩ := List.forall_mem_cons.mp h
    rw [List.flatMap_cons, Scanner.endOffset_start_encoded_append hi, ih his, List.length_append]

namespace Script

theorem wellFormed_of_mem_instructions (s : Script) : ∀ i ∈ instructions s, i.WellFormed := by
  induction s using Script.readInduction with
  | nil =>
    rw [instructions_nil]
    rintro _ ⟨⟩
  | instruction i rest hi ih =>
    rw [instructions_encoded_append hi]
    exact List.forall_mem_cons.mpr ⟨hi, ih⟩
  | malformed opcode after cause hread =>
    rw [instructions_malformed hread]
    rintro _ ⟨⟩

/-- No byte of a script is lost. -/
theorem flatMap_encoded_instructions_append (s : Script) :
    (instructions s).flatMap Instruction.encoded ++ s.unread = s := by
  induction s using Script.readInduction with
  | nil =>
    rw [instructions_nil, unread_nil]
    rfl
  | instruction i rest hi ih =>
    rw [instructions_encoded_append hi, unread_encoded_append hi, List.flatMap_cons,
      List.append_assoc, ih]
  | malformed opcode after cause hread =>
    rw [instructions_malformed hread, unread_malformed hread]
    rfl

theorem unread_eq_nil_iff (s : Script) : s.unread = [] ↔ s.Parses := by
  unfold Parses
  induction s using Script.readInduction with
  | nil =>
    rw [unread_nil, parse_nil]
    exact ⟨fun _ _ _ => List.not_mem_nil, fun _ => rfl⟩
  | instruction i rest hi ih =>
    rw [unread_encoded_append hi, parse_encoded_append hi, ih]
    simp only [List.mem_cons, reduceCtorEq, false_or]
  | malformed opcode after cause hread =>
    rw [unread_malformed hread, parse_malformed hread]
    constructor
    · rintro ⟨⟩
    · intro h
      exact absurd List.mem_cons_self (h cause (opcode :: after))

/-- A scan yields a row of instructions if and only if the script is that row written out. -/
theorem parse_eq_map_instruction_iff {s : Script} {is : List Instruction} :
    parse s = is.map Token.instruction ↔
      (∀ i ∈ is, i.WellFormed) ∧ s = is.flatMap Instruction.encoded := by
  constructor
  · intro h
    have hparses : s.Parses := by
      intro cause tail
      rw [h]
      simp
    have hinstructions : instructions s = is := by
      rw [instructions, h, List.filterMap_map]
      exact List.filterMap_some
    have hall := s.flatMap_encoded_instructions_append
    rw [s.unread_eq_nil_iff.mpr hparses, List.append_nil] at hall
    rw [← hinstructions]
    exact ⟨s.wellFormed_of_mem_instructions, hall.symm⟩
  · rintro ⟨his, rfl⟩
    exact parse_flatMap_encoded his

/-- Scripts that parse can be joined. -/
theorem Parses.parse_append {a : Script} (h : a.Parses) (b : Script) :
    parse (a ++ b) = parse a ++ parse b := by
  have hwf := a.wellFormed_of_mem_instructions
  have ha : (instructions a).flatMap Instruction.encoded = a := by
    have hall := a.flatMap_encoded_instructions_append
    rwa [a.unread_eq_nil_iff.mpr h, List.append_nil] at hall
  calc parse (a ++ b)
    _ = parse ((instructions a).flatMap Instruction.encoded ++ b) := by rw [ha]
    _ = (instructions a).map Token.instruction ++ parse b := parse_flatMap_encoded_append hwf b
    _ = parse ((instructions a).flatMap Instruction.encoded) ++ parse b := by
      rw [parse_flatMap_encoded hwf]
    _ = parse a ++ parse b := by rw [ha]

end Script

/-- **Scripts that parse and rows of well-formed instructions correspond one to one.**  A scan of
any script yields well-formed instructions and leaves the bytes behind them, of which there are none
if and only if it does not fail.  Behind a script that parses, another is read as if it stood
alone. -/
theorem parse_instructions_correspond :
    (∀ is : List Instruction, (∀ i ∈ is, i.WellFormed) →
      parse (is.flatMap Instruction.encoded) = is.map .instruction ∧
      (Scanner.start (is.flatMap Instruction.encoded)).endOffset =
        (is.flatMap Instruction.encoded).length) ∧
    (∀ s : Script,
      (instructions s).flatMap Instruction.encoded ++ s.drop (Scanner.start s).endOffset = s ∧
      (∀ i ∈ instructions s, i.WellFormed ∧ i.encoded = i.header ++ i.data) ∧
      (s.drop (Scanner.start s).endOffset = [] ↔ s.Parses)) ∧
    (∀ a b : Script, a.Parses → parse (a ++ b) = parse a ++ parse b) := by
  refine ⟨?_, ?_, ?_⟩
  · intro is h
    exact ⟨parse_flatMap_encoded h, endOffset_start_flatMap_encoded h⟩
  · intro s
    refine ⟨s.flatMap_encoded_instructions_append, ?_, s.unread_eq_nil_iff⟩
    intro i hi
    exact ⟨s.wellFormed_of_mem_instructions i hi, rfl⟩
  · intro a b h
    exact h.parse_append b

/-- A lone opcode, a direct push, and a push that states its length in a longer form than it need;
and a script that fails behind one that parses. -/
theorem parse_dup_pushes :
    parse [0x76, 0x02, 0xaa, 0xbb, 0x4d, 0x01, 0x00, 0x11] =
      [.instruction ⟨0x76, [], []⟩, .instruction ⟨0x02, [], [0xaa, 0xbb]⟩,
        .instruction ⟨0x4d, [0x01, 0x00], [0x11]⟩] ∧
    parse [0x76, 0x05, 0xaa] =
      [.instruction ⟨0x76, [], []⟩, .malformed (.pushDataCut 5 1) [0x05, 0xaa]] := by
  have hdup : Instruction.WellFormed ⟨0x76, [], []⟩ := .single (.inr (by decide))
  have hdirect : Instruction.WellFormed ⟨0x02, [], [0xaa, 0xbb]⟩ :=
    .direct (by decide) (by decide) rfl
  have hlong : Instruction.WellFormed ⟨0x4d, [0x01, 0x00], [0x11]⟩ := .pushData2 rfl rfl
  have hparse : parse [0x76] = [.instruction ⟨0x76, [], []⟩] :=
    (parse_instructions_correspond.1 [⟨0x76, [], []⟩] (by simpa using hdup)).1
  have hparses : Script.Parses [0x76] := by
    unfold Script.Parses
    rw [hparse]
    simp
  constructor
  · exact (parse_instructions_correspond.1
      [⟨0x76, [], []⟩, ⟨0x02, [], [0xaa, 0xbb]⟩, ⟨0x4d, [0x01, 0x00], [0x11]⟩]
      (by simp [hdup, hdirect, hlong])).1
  · have happend := parse_instructions_correspond.2.2 [0x76] [0x05, 0xaa] hparses
    rwa [hparse, parse_malformed rfl] at happend

end UtxoAssets
