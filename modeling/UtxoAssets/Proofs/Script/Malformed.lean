import UtxoAssets.Proofs.Script.Parsing

/-!
# Where a script is malformed

A scan fails at a push that is cut off, and nowhere else.

* `Script.IsCutPush` — bytes that begin a push and break off before its end;
  `Script.CutInLength` and `Script.CutInData` are the two places where they can break off.
* `Instruction.read_eq_error_iff` — the reader refuses exactly these, and tells them apart.
* `Script.CutInData.parses_append` — how many bytes are missing.
* `Scanner.call`, `Scanner.after` — a scanner that is asked again and again, also after its end;
  `Scanner.call_after` says that the answers are the tokens of the script, and
  `Scanner.after_of_malformed` that a failure moves it no further.
* `parse_fails_at_cut_push` — the error of every script that has one.
-/

set_option autoImplicit false

namespace UtxoAssets

/-! ## Pushes that are cut off -/

namespace Script

/-- The bytes begin a push instruction, and some of its bytes are missing. -/
def IsCutPush (tail : Script) : Prop :=
  tail ≠ [] ∧ ∃ (push : Instruction) (missing : Bytes),
    push.WellFormed ∧ push.isPush ∧ missing ≠ [] ∧ push.encoded = tail ++ missing

/-- A push has fewer length bytes than its opcode takes. -/
inductive CutInLength : Script → Prop where
  | pushData1 : CutInLength [0x4c]
  | pushData2 {lengthBytes : Bytes} : lengthBytes.length < 2 → CutInLength (0x4d :: lengthBytes)
  | pushData4 {lengthBytes : Bytes} : lengthBytes.length < 4 → CutInLength (0x4e :: lengthBytes)

/-- A push announces a number of bytes, and fewer are there. -/
inductive CutInData : Script → Nat → Nat → Prop where
  | direct {opcode : UInt8} {data : Bytes} :
      0x01 ≤ opcode → opcode ≤ 0x4b → data.length < opcode.toNat →
      CutInData (opcode :: data) opcode.toNat data.length
  | pushData1 {lengthBytes data : Bytes} :
      lengthBytes.length = 1 → data.length < ofLittleEndian lengthBytes →
      CutInData (0x4c :: (lengthBytes ++ data)) (ofLittleEndian lengthBytes) data.length
  | pushData2 {lengthBytes data : Bytes} :
      lengthBytes.length = 2 → data.length < ofLittleEndian lengthBytes →
      CutInData (0x4d :: (lengthBytes ++ data)) (ofLittleEndian lengthBytes) data.length
  | pushData4 {lengthBytes data : Bytes} :
      lengthBytes.length = 4 → data.length < ofLittleEndian lengthBytes →
      CutInData (0x4e :: (lengthBytes ++ data)) (ofLittleEndian lengthBytes) data.length

theorem cutInLength_iff {opcode : UInt8} {after : Script} :
    CutInLength (opcode :: after) ↔ after.length < Opcode.lengthWidth opcode := by
  constructor
  · intro h
    cases h with
    | pushData1 => exact Nat.zero_lt_one
    | pushData2 hlength => exact hlength
    | pushData4 hlength => exact hlength
  · intro hlength
    rcases Opcode.longPush_cases opcode with h | rfl | rfl | rfl | h
    · rw [Opcode.lengthWidth_eq_zero (.inl h)] at hlength
      exact absurd hlength (Nat.not_lt_zero _)
    · rw [List.length_eq_zero_iff.mp (Nat.lt_one_iff.mp hlength)]
      exact .pushData1
    · exact .pushData2 hlength
    · exact .pushData4 hlength
    · rw [Opcode.lengthWidth_eq_zero (.inr h)] at hlength
      exact absurd hlength (Nat.not_lt_zero _)

theorem cutInData_iff {opcode : UInt8} {after : Script} {announced available : Nat} :
    CutInData (opcode :: after) announced available ↔
      ∃ lengthBytes data : Bytes, after = lengthBytes ++ data ∧
        lengthBytes.length = Opcode.lengthWidth opcode ∧
        Instruction.announcedLength opcode lengthBytes = announced ∧
        data.length = available ∧ available < announced := by
  constructor
  · intro h
    cases h with
    | direct _ hhigh hdata =>
      have hlt := Opcode.lt_pushData1_iff.mpr hhigh
      exact ⟨[], after, rfl, (Opcode.lengthWidth_eq_zero (.inl hlt)).symm,
        Instruction.announcedLength_of_lt hlt [], rfl, hdata⟩
    | pushData1 hlength hdata => exact ⟨_, _, rfl, hlength, rfl, rfl, hdata⟩
    | pushData2 hlength hdata => exact ⟨_, _, rfl, hlength, rfl, rfl, hdata⟩
    | pushData4 hlength hdata => exact ⟨_, _, rfl, hlength, rfl, rfl, hdata⟩
  · rintro ⟨lengthBytes, data, rfl, hlength, rfl, rfl, hdata⟩
    rcases Opcode.longPush_cases opcode with h | rfl | rfl | rfl | h
    · rw [Opcode.lengthWidth_eq_zero (.inl h), List.length_eq_zero_iff] at hlength
      rw [Instruction.announcedLength_of_lt h] at hdata ⊢
      subst hlength
      have hone : 0x01 ≤ opcode := UInt8.le_iff_toNat_le.mpr (Nat.zero_lt_of_lt hdata)
      exact .direct hone (Opcode.lt_pushData1_iff.mp h) hdata
    · exact .pushData1 hlength hdata
    · exact .pushData2 hlength hdata
    · exact .pushData4 hlength hdata
    · rw [Instruction.announcedLength_of_gt h] at hdata
      exact absurd hdata (Nat.not_lt_zero _)

theorem CutInData.lt {tail : Script} {announced available : Nat}
    (h : CutInData tail announced available) : available < announced := by
  cases h <;> assumption

theorem CutInData.exists_cons {tail : Script} {announced available : Nat}
    (h : CutInData tail announced available) : ∃ opcode after, tail = opcode :: after := by
  cases h <;> exact ⟨_, _, rfl⟩

end Script

/-! ## The reader's errors -/

/-- Bytes that are too few can be filled up, by zeros for instance. -/
theorem exists_filling {bs : Bytes} {n : Nat} (h : bs.length < n) :
    ∃ missing : Bytes, missing ≠ [] ∧ (bs ++ missing).length = n := by
  refine ⟨List.replicate (n - bs.length) 0, ?_, ?_⟩
  · apply List.ne_nil_of_length_pos
    rw [List.length_replicate]
    omega
  · rw [List.length_append, List.length_replicate]
    omega

namespace Instruction

variable {opcode : UInt8} {after : Script} {cause : ScriptError}

/-- A push that ends within its length bytes fails with the rest of the script. -/
theorem read_of_cutInLength (h : Script.CutInLength (opcode :: after)) :
    read opcode after = .error (.pushLengthCut (opcode :: after)) := by
  rw [read, splitExactly?_eq_none_iff.mpr (Script.cutInLength_iff.mp h)]

/-- A push that ends within its data fails with the length it announces and the length that is
there. -/
theorem read_of_cutInData {announced available : Nat}
    (h : Script.CutInData (opcode :: after) announced available) :
    read opcode after = .error (.pushDataCut announced available) := by
  obtain ⟨lengthBytes, data, rfl, hlength, rfl, rfl, hdata⟩ := Script.cutInData_iff.mp h
  rw [read, splitExactly?_append hlength]
  dsimp only
  rw [splitExactly?_eq_none_iff.mpr hdata]

/-- The reader refuses a push that is cut off, and nothing else. -/
theorem read_eq_error_iff :
    read opcode after = .error cause ↔
      (Script.CutInLength (opcode :: after) ∧ cause = .pushLengthCut (opcode :: after)) ∨
      ∃ announced available, Script.CutInData (opcode :: after) announced available ∧
        cause = .pushDataCut announced available := by
  constructor
  · intro h
    unfold read at h
    split at h
    · rename_i hlength
      cases h
      exact .inl ⟨Script.cutInLength_iff.mpr (splitExactly?_eq_none_iff.mp hlength), rfl⟩
    · rename_i lengthBytes body hlength
      split at h
      · rename_i hdata
        cases h
        have hafter := (append_eq_of_splitExactly? hlength).symm
        have hwidth := length_of_splitExactly? hlength
        exact .inr ⟨_, _, Script.cutInData_iff.mpr
          ⟨lengthBytes, body, hafter, hwidth, rfl, rfl, splitExactly?_eq_none_iff.mp hdata⟩, rfl⟩
      · cases h
  · rintro (⟨hcut, rfl⟩ | ⟨announced, available, hcut, rfl⟩)
    · exact read_of_cutInLength hcut
    · exact read_of_cutInData hcut

theorem isPush_of_not_lt {i : Instruction} (h : ¬ Opcode.pushData4 < i.opcode) : i.isPush := by
  rw [isPush, Opcode.isPush, decide_eq_true_iff]
  exact UInt8.not_lt.mp h

/-- What is refused can be completed to a push. -/
theorem isCutPush_of_read_eq_error (h : read opcode after = .error cause) :
    Script.IsCutPush (opcode :: after) := by
  refine ⟨List.cons_ne_nil _ _, ?_⟩
  rcases read_eq_error_iff.mp h with ⟨hcut, -⟩ | ⟨announced, available, hcut, -⟩
  · have hshort := Script.cutInLength_iff.mp hcut
    obtain ⟨missing, hne, hlength⟩ := exists_filling hshort
    have hpush : ¬ Opcode.pushData4 < opcode := by
      intro hgt
      rw [Opcode.lengthWidth_eq_zero (.inr hgt)] at hshort
      exact Nat.not_lt_zero _ hshort
    -- The length bytes that are filled in announce data, and these are missing as well.
    obtain ⟨data, hdata⟩ : ∃ data : Bytes,
        data.length = announcedLength opcode (after ++ missing) :=
      ⟨List.replicate _ 0, List.length_replicate⟩
    refine ⟨⟨opcode, after ++ missing, data⟩, missing ++ data,
      wellFormed_of_lengths hlength hdata, isPush_of_not_lt hpush,
      List.append_ne_nil_of_left_ne_nil hne data, ?_⟩
    simp only [encoded, header, List.cons_append, List.append_assoc]
  · obtain ⟨lengthBytes, data, rfl, hlength, rfl, rfl, hdata⟩ := Script.cutInData_iff.mp hcut
    obtain ⟨missing, hne, hfull⟩ := exists_filling hdata
    have hpush : ¬ Opcode.pushData4 < opcode := by
      intro hgt
      rw [announcedLength_of_gt hgt] at hdata
      exact Nat.not_lt_zero _ hdata
    refine ⟨⟨opcode, lengthBytes, data ++ missing⟩, missing,
      wellFormed_of_lengths hlength hfull, isPush_of_not_lt hpush, hne, ?_⟩
    simp only [encoded, header, List.cons_append, List.append_assoc]

/-- An instruction that is read ends where it ends, whatever follows it. -/
theorem WellFormed.rest_eq {i j : Instruction} {rest rest' : Script} (hi : i.WellFormed)
    (hj : j.WellFormed) (h : i.encoded ++ rest = j.encoded ++ rest') : i = j ∧ rest = rest' := by
  have hread := read_encoded hi rest
  simp only [encoded, header, List.cons_append, List.append_assoc, List.cons.injEq] at h
  obtain ⟨hopcode, hafter⟩ := h
  rw [hopcode, hafter, read_encoded hj rest'] at hread
  cases hread
  exact ⟨rfl, rfl⟩

theorem exists_read_eq_error_of_isCutPush (h : Script.IsCutPush (opcode :: after)) :
    ∃ cause, read opcode after = .error cause := by
  obtain ⟨-, push, missing, hpush, -, hmissing, hencoded⟩ := h
  cases hread : read opcode after with
  | error cause => exact ⟨cause, rfl⟩
  | ok result =>
    obtain ⟨i, rest⟩ := result
    have hsame : push.encoded ++ [] = i.encoded ++ (rest ++ missing) := by
      rw [List.append_nil, hencoded, ← append_eq_of_read hread, List.append_assoc]
    obtain ⟨-, hrest⟩ := hpush.rest_eq (wellFormed_of_read hread) hsame
    exact absurd (List.append_eq_nil_iff.mp hrest.symm).2 hmissing

end Instruction

/-! ## Scripts that end in a cut push -/

namespace Script

theorem IsCutPush.exists_cause {tail : Script} (h : IsCutPush tail) :
    ∃ opcode after cause, tail = opcode :: after ∧ Instruction.read opcode after = .error cause := by
  cases tail with
  | nil => exact absurd rfl h.1
  | cons opcode after =>
    obtain ⟨cause, hread⟩ := Instruction.exists_read_eq_error_of_isCutPush h
    exact ⟨opcode, after, cause, rfl, hread⟩

theorem parses_nil : Parses [] := by
  intro cause tail
  rw [parse_nil]
  exact List.not_mem_nil

theorem parses_flatMap_append_iff {is : List Instruction} (h : ∀ i ∈ is, i.WellFormed)
    (rest : Script) : Parses (is.flatMap Instruction.encoded ++ rest) ↔ rest.Parses := by
  unfold Parses
  rw [parse_flatMap_encoded_append h]
  simp

theorem not_parses_of_read_eq_error {opcode : UInt8} {after : Script} {cause : ScriptError}
    (h : Instruction.read opcode after = .error cause) : ¬ Parses (opcode :: after) := by
  intro hparses
  apply hparses cause (opcode :: after)
  rw [parse_malformed h]
  exact List.mem_singleton_self _

/-- As many bytes as are missing make the push whole, and fewer do not. -/
theorem CutInData.parses_append {tail : Script} {announced available : Nat}
    (h : CutInData tail announced available) {more : Bytes} :
    (more.length = announced - available → Parses (tail ++ more)) ∧
    (more.length < announced - available → ¬ Parses (tail ++ more)) := by
  obtain ⟨opcode, after, rfl⟩ := h.exists_cons
  obtain ⟨lengthBytes, data, rfl, hlength, rfl, rfl, hdata⟩ := cutInData_iff.mp h
  constructor
  · intro hmore
    have hfull : (data ++ more).length = Instruction.announcedLength opcode lengthBytes := by
      rw [List.length_append]
      omega
    have hwf := Instruction.wellFormed_of_lengths hlength hfull
    have hwhole : opcode :: (lengthBytes ++ data) ++ more =
        [⟨opcode, lengthBytes, data ++ more⟩].flatMap Instruction.encoded ++ [] := by
      simp [Instruction.encoded, Instruction.header]
    rw [hwhole, parses_flatMap_append_iff (by simpa using hwf)]
    exact parses_nil
  · intro hmore
    have hcut : CutInData (opcode :: (lengthBytes ++ data ++ more))
        (Instruction.announcedLength opcode lengthBytes) (data ++ more).length := by
      apply cutInData_iff.mpr
      refine ⟨lengthBytes, data ++ more, List.append_assoc _ _ _, hlength, rfl, rfl, ?_⟩
      rw [List.length_append]
      omega
    exact not_parses_of_read_eq_error (Instruction.read_of_cutInData hcut)

end Script

/-! ## A scanner that is asked again and again -/

namespace Scanner

/-- One call: what it yields, and the scanner from then on.  A scanner that yields nothing stays
what it is. -/
def call (s : Scanner) : Option Token × Scanner :=
  match s.next with
  | some (token, t) => (some token, t)
  | none => (none, s)

/-- The scanner after a number of calls. -/
def after : Nat → Scanner → Scanner
  | 0, s => s
  | k + 1, s => after k s.call.2

theorem call_of_next_eq_some {s t : Scanner} {token : Token} (h : s.next = some (token, t)) :
    s.call = (some token, t) := by
  rw [call, h]

theorem call_of_next_eq_none {s : Scanner} (h : s.next = none) : s.call = (none, s) := by
  rw [call, h]

theorem after_of_next_eq_none {s : Scanner} (h : s.next = none) (k : Nat) : s.after k = s := by
  induction k with
  | zero => rfl
  | succ k ih => rw [after, call_of_next_eq_none h, ih]

theorem after_add (j k : Nat) (s : Scanner) : s.after (j + k) = (s.after j).after k := by
  induction j generalizing s with
  | zero => rw [Nat.zero_add, after]
  | succ j ih => rw [Nat.succ_add, after, after, ih]

/-- The calls yield the tokens of a run, in order, and nothing after the last. -/
theorem call_after (s : Scanner) (k : Nat) :
    (s.after k).call.1 = (s.run.map Prod.fst)[k]? := by
  induction k generalizing s with
  | zero =>
    cases hnext : s.next with
    | none =>
      rw [after, call_of_next_eq_none hnext, run_of_next_eq_none hnext]
      rfl
    | some yielded =>
      obtain ⟨token, t⟩ := yielded
      rw [after, call_of_next_eq_some hnext, run_of_next_eq_some hnext]
      rfl
  | succ k ih =>
    cases hnext : s.next with
    | none =>
      rw [after_of_next_eq_none hnext, call_of_next_eq_none hnext, run_of_next_eq_none hnext]
      rfl
    | some yielded =>
      obtain ⟨token, t⟩ := yielded
      rw [after, call_of_next_eq_some hnext, ih, run_of_next_eq_some hnext]
      rfl

/-- A row of instructions is passed with one call for each. -/
theorem after_flatMap_encoded {is : List Instruction} (h : ∀ i ∈ is, i.WellFormed) (offset : Nat)
    (rest : Script) :
    after is.length ⟨offset, is.flatMap Instruction.encoded ++ rest, false⟩ =
      ⟨offset + (is.flatMap Instruction.encoded).length, rest, false⟩ := by
  induction is generalizing offset with
  | nil => rfl
  | cons i is ih =>
    obtain ⟨hi, his⟩ := List.forall_mem_cons.mp h
    rw [List.length_cons, after, List.flatMap_cons, List.append_assoc,
      call_of_next_eq_some (next_encoded_append hi offset _), ih his, List.length_append,
      Nat.add_assoc]

/-- A failed scanner stays at the push that is cut off. -/
theorem after_of_malformed {offset : Nat} {opcode : UInt8} {rest : Script} {cause : ScriptError}
    (h : Instruction.read opcode rest = .error cause) (k : Nat) :
    after (k + 1) ⟨offset, opcode :: rest, false⟩ = ⟨offset, opcode :: rest, true⟩ := by
  rw [after, call_of_next_eq_some (next_malformed h offset)]
  exact after_of_next_eq_none rfl k

end Scanner

theorem length_parse_le (s : Script) : (parse s).length ≤ s.length := by
  induction s using Script.readInduction with
  | nil => exact Nat.le_of_eq (congrArg List.length parse_nil)
  | instruction i rest hi ih =>
    rw [parse_encoded_append hi, List.length_cons, List.length_append, Instruction.encoded,
      Instruction.header, List.cons_append, List.length_cons]
    omega
  | malformed opcode after cause hread =>
    rw [parse_malformed hread, List.length_singleton, List.length_cons]
    omega

/-! ## The error of a script -/

namespace Script

/-- What a scanner leaves unread is a cut push, if it leaves anything. -/
theorem isCutPush_unread {s : Script} (h : ¬ s.Parses) : IsCutPush s.unread := by
  induction s using readInduction with
  | nil => exact absurd parses_nil h
  | instruction i rest hi ih =>
    rw [unread_encoded_append hi]
    apply ih
    intro hrest
    apply h
    have hrow := (parses_flatMap_append_iff (List.forall_mem_singleton.mpr hi) rest).mpr hrest
    rwa [List.flatMap_singleton] at hrow
  | malformed opcode after cause hread =>
    rw [unread_malformed hread]
    exact Instruction.isCutPush_of_read_eq_error hread

/-- The script is a row of instructions and `tail`, and fails at `tail` for the given cause. -/
structure FailsAt (s : Script) (is : List Instruction) (tail : Script) (cause : ScriptError) :
    Prop where
  parse_eq : parse s = is.map .instruction ++ [.malformed cause tail]
  cutInLength_iff : cause = .pushLengthCut tail ↔ tail.CutInLength
  cutInData : ¬ tail.CutInLength → ∃ announced available, cause = .pushDataCut announced available ∧
    available < announced ∧ tail.CutInData announced available ∧
    ∀ more : Bytes, (more.length = announced - available → Parses (s ++ more)) ∧
      (more.length < announced - available → ¬ Parses (s ++ more))
  offset_eq : ∀ k, is.length ≤ k →
    ((Scanner.start s).after k).offset = (is.flatMap Instruction.encoded).length
  call_eq : ∀ k, is.length < k →
    ((Scanner.start s).after k).call = (none, (Scanner.start s).after k)

variable {is : List Instruction} {tail : Script}

theorem exists_failsAt (his : ∀ i ∈ is, i.WellFormed) (htail : IsCutPush tail) :
    ∃ cause, FailsAt (is.flatMap Instruction.encoded ++ tail) is tail cause := by
  obtain ⟨opcode, after, cause, rfl, hread⟩ := htail.exists_cause
  have hpassed := Scanner.after_flatMap_encoded his 0 (opcode :: after)
  -- From the tail on, a scanner is where it was, and has failed after the first call.
  have hstays : ∀ k, (Scanner.start (is.flatMap Instruction.encoded ++ opcode :: after)).after
      (is.length + (k + 1)) =
        ⟨0 + (is.flatMap Instruction.encoded).length, opcode :: after, true⟩ := by
    intro k
    rw [Scanner.after_add, Scanner.start, hpassed, Scanner.after_of_malformed hread]
  refine ⟨cause, ?parse, ?length, ?data, ?offset, ?call⟩
  case parse =>
    rw [parse_flatMap_encoded_append his, parse_malformed hread]
  case length =>
    constructor
    · rintro rfl
      rcases Instruction.read_eq_error_iff.mp hread with ⟨hcut, -⟩ | ⟨_, _, -, hcause⟩
      · exact hcut
      · cases hcause
    · intro hcut
      rw [Instruction.read_of_cutInLength hcut] at hread
      cases hread
      rfl
  case data =>
    intro hlength
    rcases Instruction.read_eq_error_iff.mp hread with ⟨hcut, -⟩ | ⟨announced, available, hcut, rfl⟩
    · exact absurd hcut hlength
    · refine ⟨announced, available, rfl, hcut.lt, hcut, ?_⟩
      intro more
      rw [List.append_assoc, parses_flatMap_append_iff his]
      exact hcut.parses_append
  case offset =>
    intro k hk
    obtain ⟨j, rfl⟩ := Nat.exists_eq_add_of_le hk
    cases j with
    | zero =>
      rw [Nat.add_zero, Scanner.start, hpassed]
      exact Nat.zero_add _
    | succ j =>
      rw [hstays]
      exact Nat.zero_add _
  case call =>
    intro k hk
    obtain ⟨j, rfl⟩ := Nat.exists_eq_add_of_lt hk
    rw [Nat.add_assoc, hstays]
    rfl

theorem parse_eq_of_parses {s : Script} (h : s.Parses) :
    parse s = (instructions s).map .instruction := by
  apply parse_eq_map_instruction_iff.mpr
  refine ⟨s.wellFormed_of_mem_instructions, ?_⟩
  have hall := s.flatMap_encoded_instructions_append
  rwa [s.unread_eq_nil_iff.mpr h, List.append_nil, eq_comm] at hall

/-- Any other script has one malformed token, and it comes last. -/
theorem exists_parse_eq_of_not_parses {s : Script} (h : ¬ s.Parses) :
    ∃ cause tail, parse s = (instructions s).map .instruction ++ [.malformed cause tail] := by
  obtain ⟨cause, hfails⟩ :=
    exists_failsAt s.wellFormed_of_mem_instructions (isCutPush_unread h)
  rw [s.flatMap_encoded_instructions_append] at hfails
  exact ⟨cause, s.unread, hfails.parse_eq⟩

end Script

/-- **A script fails where a push is cut off.**  The error says whether length bytes or data are
missing, and then how many there are; it is the last token, and a scanner that is asked again yields
nothing more and stays where the push begins. -/
theorem parse_fails_at_cut_push (s : Script) :
    ((∃ cause tail, .malformed cause tail ∈ parse s) ↔
      ∃ (is : List Instruction) (tail : Script), (∀ i ∈ is, i.WellFormed) ∧ tail.IsCutPush ∧
        s = is.flatMap Instruction.encoded ++ tail) ∧
    (∀ (is : List Instruction) (tail : Script), (∀ i ∈ is, i.WellFormed) → tail.IsCutPush →
      s = is.flatMap Instruction.encoded ++ tail → ∃ cause, s.FailsAt is tail cause) ∧
    (∀ k, ((Scanner.start s).after k).call.1 = (parse s)[k]?) ∧
    (parse s).length ≤ s.length := by
  refine ⟨⟨?_, ?_⟩, ?_, (Scanner.start s).call_after, length_parse_le s⟩
  · rintro ⟨cause, tail, hmem⟩
    have hfails : ¬ s.Parses := fun hparses => hparses cause tail hmem
    exact ⟨instructions s, s.unread, s.wellFormed_of_mem_instructions,
      Script.isCutPush_unread hfails, s.flatMap_encoded_instructions_append.symm⟩
  · rintro ⟨is, tail, his, htail, rfl⟩
    obtain ⟨cause, hfails⟩ := Script.exists_failsAt his htail
    refine ⟨cause, tail, ?_⟩
    rw [hfails.parse_eq]
    exact List.mem_append_right _ (List.mem_singleton_self _)
  · rintro is tail his htail rfl
    exact Script.exists_failsAt his htail

/-- A push that announces three bytes and has one.  Two more make the script whole, one does not. -/
theorem parse_fails_at_cut_push_sample :
    Script.IsCutPush [0x4c, 0x03, 0xaa] ∧
    parse [0x76, 0x4c, 0x03, 0xaa] =
      [.instruction ⟨0x76, [], []⟩, .malformed (.pushDataCut 3 1) [0x4c, 0x03, 0xaa]] ∧
    Script.Parses [0x76, 0x4c, 0x03, 0xaa, 0xbb, 0xcc] ∧
    ¬ Script.Parses [0x76, 0x4c, 0x03, 0xaa, 0xbb] ∧
    ((Scanner.start [0x76, 0x4c, 0x03, 0xaa]).after 7).call.1 = none ∧
    ((Scanner.start [0x76, 0x4c, 0x03, 0xaa]).after 7).offset = 1 := by
  have hdup : ∀ i ∈ [(⟨0x76, [], []⟩ : Instruction)], i.WellFormed :=
    List.forall_mem_singleton.mpr (.single (.inr (by decide)))
  have hcut : Script.IsCutPush [0x4c, 0x03, 0xaa] :=
    ⟨by decide, ⟨0x4c, [0x03], [0xaa, 0xbb, 0xcc]⟩, [0xbb, 0xcc], .pushData1 rfl rfl, by decide,
      by decide, rfl⟩
  obtain ⟨-, hexists, -, -⟩ := parse_fails_at_cut_push [0x76, 0x4c, 0x03, 0xaa]
  obtain ⟨cause, hfails⟩ := hexists [⟨0x76, [], []⟩] [0x4c, 0x03, 0xaa] hdup hcut rfl
  have hlength : ¬ Script.CutInLength [0x4c, 0x03, 0xaa] := by
    rintro ⟨⟩
  obtain ⟨announced, available, rfl, -, hdata, hmore⟩ := hfails.cutInData hlength
  obtain ⟨rfl, rfl⟩ : announced = 3 ∧ available = 1 := by
    have hread := Instruction.read_of_cutInData hdata
    cases hread
    exact ⟨rfl, rfl⟩
  refine ⟨hcut, hfails.parse_eq, (hmore [0xbb, 0xcc]).1 rfl, (hmore [0xbb]).2 (by decide), ?_, ?_⟩
  · rw [hfails.call_eq 7 (by decide)]
  · exact hfails.offset_eq 7 (by decide)

end UtxoAssets
