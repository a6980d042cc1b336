import UtxoAssets.Bytes.Word
import UtxoAssets.Script.Error
import UtxoAssets.Script.Opcode

/-!
# Instructions of a script

An instruction is an opcode, the length bytes of a long push, and the data it pushes.

* `Instruction.read` reads the first instruction of a non-empty script, and loses no byte of it
  (`Instruction.append_eq_of_read`).
* `Scanner.next` moves over a script one instruction at a time and stops for good at a malformed
  one, without moving past it.
* `parse` lists what the scanner yields; a malformed instruction comes last, with all the bytes from
  its start on.
-/

set_option autoImplicit false

namespace UtxoAssets

/-- The bytes of a script, well formed or not. -/
abbrev Script := Bytes

/-- An opcode with what belongs to it. -/
structure Instruction where
  opcode : UInt8
  lengthBytes : Bytes
  data : Bytes
  deriving DecidableEq

namespace Instruction

/-- The opcode with the length bytes. -/
def header (i : Instruction) : Bytes := i.opcode :: i.lengthBytes

/-- The bytes of an instruction in its script. -/
def encoded (i : Instruction) : Bytes := i.header ++ i.data

/-- Whether an instruction pushes bytes. -/
def isPush (i : Instruction) : Bool := Opcode.isPush i.opcode

/-- The data length that an opcode and its length bytes state. -/
def announcedLength (opcode : UInt8) (lengthBytes : Bytes) : Nat :=
  if Opcode.lengthWidth opcode = 0 then Opcode.directLength opcode
  else ofLittleEndian lengthBytes

/-- Read the instruction of the given opcode from what follows it, and give back the rest. -/
def read (opcode : UInt8) (after : Script) : Except ScriptError (Instruction × Script) :=
  match splitExactly? (Opcode.lengthWidth opcode) after with
  | none => .error (.pushLengthCut (opcode :: after))
  | some (lengthBytes, body) =>
    match splitExactly? (announcedLength opcode lengthBytes) body with
    | none => .error (.pushDataCut (announcedLength opcode lengthBytes) body.length)
    | some (data, rest) => .ok (⟨opcode, lengthBytes, data⟩, rest)

/-- What was read and what is left make up the script. -/
theorem append_eq_of_read {opcode : UInt8} {after rest : Script} {i : Instruction}
    (h : read opcode after = .ok (i, rest)) : i.encoded ++ rest = opcode :: after := by
  unfold read at h
  split at h
  · cases h
  · rename_i lengthBytes body hlength
    split at h
    · cases h
    · rename_i data rest' hdata
      cases h
      have h1 := append_eq_of_splitExactly? hlength
      have h2 := append_eq_of_splitExactly? hdata
      simp [encoded, header, h1, h2]

theorem length_rest_le_of_read {opcode : UInt8} {after rest : Script} {i : Instruction}
    (h : read opcode after = .ok (i, rest)) : rest.length ≤ after.length := by
  have hlen := congrArg List.length (append_eq_of_read h)
  simp only [encoded, header, List.length_append, List.length_cons] at hlen
  omega

end Instruction

/-- What a scan of a script yields. -/
inductive Token where
  | instruction (i : Instruction)
  | malformed (cause : ScriptError) (tail : Script)
  deriving DecidableEq

/-- A place in a script, and whether the script was found malformed there. -/
structure Scanner where
  offset : Nat
  rest : Script
  failed : Bool := false

namespace Scanner

/-- In front of a script. -/
def start (s : Script) : Scanner := { offset := 0, rest := s }

/-- The next token, and the scanner after it. A malformed instruction is yielded once. -/
def next (s : Scanner) : Option (Token × Scanner) :=
  match s.failed, s.rest with
  | false, opcode :: after =>
    match Instruction.read opcode after with
    | .ok (i, rest) => some (.instruction i, ⟨s.offset + i.encoded.length, rest, false⟩)
    | .error cause => some (.malformed cause (opcode :: after), { s with failed := true })
  | _, _ => none

/-- Bounds the tokens still to come. -/
def size (s : Scanner) : Nat := if s.failed then 0 else s.rest.length + 1

theorem size_lt_of_next {s t : Scanner} {token : Token} (h : s.next = some (token, t)) :
    t.size < s.size := by
  unfold next at h
  split at h
  · rename_i opcode after hf hr
    split at h
    · rename_i i rest hread
      cases h
      have hle := Instruction.length_rest_le_of_read hread
      simp only [size, hf, hr, List.length_cons, Bool.false_eq_true, if_false]
      omega
    · cases h
      simp [size, hf]
  · cases h

/-- The tokens to come, each with the offset after it. -/
def run (s : Scanner) : List (Token × Nat) :=
  match _h : s.next with
  | none => []
  | some (token, t) => (token, t.offset) :: run t
termination_by s.size
decreasing_by exact size_lt_of_next _h

end Scanner

/-- The tokens of a script. -/
def parse (s : Script) : List Token := (Scanner.start s).run.map Prod.fst

/-- Every token is an instruction that pushes data or a small number. -/
def isPushOnly (s : Script) : Bool :=
  (parse s).all fun
    | .instruction i => i.opcode ≤ Opcode.sixteen
    | .malformed _ _ => false

/-- Scripts longer than this cannot be spent. -/
def maxScriptSize : Nat := 10000

/-- No input can spend an output with this script. -/
def isUnspendable (s : Script) : Bool :=
  s.head? == some Opcode.ret || maxScriptSize < s.length

end UtxoAssets
