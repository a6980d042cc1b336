import UtxoAssets.Proofs.Script.Form
import UtxoAssets.Proofs.Script.Parsing
import UtxoAssets.Script.Destination

/-!
# The grammar of bare multisig

* `Script.IsMultiSig` — a number of required signatures, keys behind pushes of any form, the number
  of the keys, and the closing opcode.
* `exists_pushes_of_splitKeys`, `splitKeys_map_append` — the keys are cut off a row of tokens up to
  the first token that holds none.
* `multiSig?_eq_some_iff` — the recogniser accepts exactly the scripts of the grammar.
* `ScriptForm.ofScript_of_multiSig?` — no recogniser that is asked before accepts one of them.  A
  witness program can begin with the same byte, and even with the same two; it ends too early.
* `ScriptForm.multiSig_grammar` — the form of a script is multisig by this grammar alone, and its
  destinations are the hashes of its keys.
-/

set_option autoImplicit false

namespace UtxoAssets

variable {s : Script} {required : Nat} {keys : List Bytes}

/-- A number of required signatures, the keys that may give them, each behind a push of any form,
the number of the keys, and the closing opcode. -/
structure Script.IsMultiSig (s : Script) (required : Nat) (keys : List Bytes) : Prop where
  one_le_required : 1 ≤ required
  required_le_length : required ≤ keys.length
  length_le : keys.length ≤ 16
  isKey : ∀ key ∈ keys, IsKey key
  written : ∃ pushes : List Instruction, (∀ push ∈ pushes, push.WellFormed ∧ push.isPush) ∧
    pushes.map Instruction.data = keys ∧
    s = [UInt8.ofNat (0x50 + required)] ++ pushes.flatMap Instruction.encoded
      ++ [UInt8.ofNat (0x50 + keys.length), 0xae]

/-! ## Single opcodes and pushes -/

namespace Instruction

/-- An opcode above the pushes stands alone. -/
theorem WellFormed.eq_of_le_opcode {i : Instruction} (h : i.WellFormed) (hop : 0x4f ≤ i.opcode) :
    i = ⟨i.opcode, [], []⟩ := by
  obtain ⟨hlength, hdata⟩ := h.lengths
  have hgt := Opcode.pushData4_lt_iff.mpr hop
  rw [Opcode.lengthWidth_eq_zero (.inr hgt), List.length_eq_zero_iff] at hlength
  rw [announcedLength_of_gt hgt, List.length_eq_zero_iff] at hdata
  cases i
  cases hlength
  cases hdata
  rfl

/-- Data come from a push only. -/
theorem WellFormed.isPush_of_data_ne_nil {i : Instruction} (h : i.WellFormed)
    (hdata : i.data ≠ []) : i.isPush := by
  rw [isPush, Opcode.isPush, decide_eq_true_iff, ← UInt8.not_lt]
  intro hgt
  rw [h.eq_of_le_opcode (Opcode.pushData4_lt_iff.mp hgt)] at hdata
  exact hdata rfl

end Instruction

theorem Opcode.le_of_count? {opcode : UInt8} {n : Nat} (h : count? opcode = some n) :
    0x4f ≤ opcode := by
  obtain ⟨hone, hsixteen, rfl⟩ := count?_eq_some_iff.mp h
  rw [ofSmallInt, if_neg (by omega), UInt8.le_iff_toNat_le, UInt8.toNat_ofNat']
  simp only [UInt8.reduceToNat]
  omega

theorem Opcode.count?_ofNat {n : Nat} (hone : 1 ≤ n) (hsixteen : n ≤ 16) :
    count? (UInt8.ofNat (0x50 + n)) = some n :=
  count?_eq_some_iff.mpr ⟨hone, hsixteen, (if_neg (by omega)).symm⟩

theorem Opcode.eq_ofNat_of_count? {opcode : UInt8} {n : Nat} (h : count? opcode = some n) :
    opcode = UInt8.ofNat (0x50 + n) := by
  obtain ⟨hone, -, rfl⟩ := count?_eq_some_iff.mp h
  exact if_neg (by omega)

/-! ## Keys in front of other tokens -/

/-- The keys are the data of a row of pushes in front. -/
theorem exists_pushes_of_splitKeys {tokens after : List Token}
    (h : splitKeys tokens = (keys, after)) :
    ∃ pushes : List Instruction, tokens = pushes.map Token.instruction ++ after ∧
      pushes.map Instruction.data = keys ∧ ∀ key ∈ keys, IsKey key := by
  fun_induction splitKeys tokens generalizing keys with
  | case1 i rest hkey keys' after' hrest ih =>
    cases h
    obtain ⟨pushes, rfl, rfl, hkeys⟩ := ih hrest
    exact ⟨i :: pushes, rfl, rfl, List.forall_mem_cons.mpr ⟨isKeySize_iff.mp hkey, hkeys⟩⟩
  | case2 i rest _ =>
    cases h
    exact ⟨[], rfl, rfl, by simp⟩
  | case3 tokens _ =>
    cases h
    exact ⟨[], rfl, rfl, by simp⟩

/-- A row of pushes of keys is split off as a whole if what follows begins with no key. -/
theorem splitKeys_map_append {pushes : List Instruction} {after : List Token}
    (h : ∀ push ∈ pushes, IsKey push.data) (hafter : splitKeys after = ([], after)) :
    splitKeys (pushes.map Token.instruction ++ after) =
      (pushes.map Instruction.data, after) := by
  induction pushes with
  | nil => exact hafter
  | cons push pushes ih =>
    obtain ⟨hpush, hpushes⟩ := List.forall_mem_cons.mp h
    rw [List.map_cons, List.cons_append, splitKeys, if_pos (isKeySize_iff.mpr hpush),
      ih hpushes]
    rfl

/-! ## The recogniser -/

/-- A script that the recogniser accepts is a row of instructions, from the number of signatures to
the closing opcode. -/
theorem exists_parse_of_multiSig? (h : multiSig? s = some (required, keys)) :
    ∃ (first count last : Instruction) (pushes : List Instruction),
      parse s = ([first] ++ pushes ++ [count, last]).map Token.instruction ∧
      pushes.map Instruction.data = keys ∧ (∀ key ∈ keys, IsKey key) ∧
      Opcode.count? first.opcode = some required ∧
      Opcode.count? count.opcode = some keys.length ∧
      last.opcode = Opcode.checkMultiSig ∧ required ≤ keys.length := by
  unfold multiSig? at h
  split at h
  · rename_i first rest hparse
    split at h
    · rename_i keys' count last hsplit
      split at h
      · rename_i m n hm hn
        obtain ⟨⟨hlast, hlength, hle⟩, hpair⟩ := Option.ite_none_right_eq_some.mp h
        cases hpair
        subst hlength
        obtain ⟨pushes, rfl, hdata, hkeys⟩ := exists_pushes_of_splitKeys hsplit
        refine ⟨first, count, last, pushes, ?_, hdata, hkeys, hm, hn, hlast, hle⟩
        rw [hparse]
        simp
      · cases h
    · cases h
  · cases h

/-- A script of the multisig shape parses into its tokens, whatever the form of its pushes. -/
theorem parse_multiSig {m n : Nat} {pushes : List Instruction}
    (hm : Opcode.count? (UInt8.ofNat (0x50 + m)) = some m)
    (hn : Opcode.count? (UInt8.ofNat (0x50 + n)) = some n)
    (hpushes : ∀ push ∈ pushes, push.WellFormed) :
    parse ([UInt8.ofNat (0x50 + m)] ++ pushes.flatMap Instruction.encoded
        ++ [UInt8.ofNat (0x50 + n), 0xae]) =
      .instruction ⟨UInt8.ofNat (0x50 + m), [], []⟩ :: (pushes.map Token.instruction
        ++ [.instruction ⟨UInt8.ofNat (0x50 + n), [], []⟩, .instruction ⟨0xae, [], []⟩]) := by
  have hfirst : Instruction.WellFormed ⟨UInt8.ofNat (0x50 + m), [], []⟩ :=
    .single (.inr (Opcode.le_of_count? hm))
  have hcount : Instruction.WellFormed ⟨UInt8.ofNat (0x50 + n), [], []⟩ :=
    .single (.inr (Opcode.le_of_count? hn))
  have hlast : Instruction.WellFormed ⟨0xae, [], []⟩ := .single (.inr (by decide))
  have hall : ∀ i ∈ [⟨UInt8.ofNat (0x50 + m), [], []⟩] ++ pushes
      ++ [⟨UInt8.ofNat (0x50 + n), [], []⟩, ⟨0xae, [], []⟩], Instruction.WellFormed i := by
    simp only [List.mem_append, List.mem_cons, List.not_mem_nil, or_false]
    rintro i ((rfl | hi) | (rfl | rfl))
    · exact hfirst
    · exact hpushes i hi
    · exact hcount
    · exact hlast
  have hparse := parse_flatMap_encoded hall
  simpa [Instruction.encoded, Instruction.header] using hparse

theorem isMultiSig_of_multiSig? (h : multiSig? s = some (required, keys)) :
    s.IsMultiSig required keys := by
  obtain ⟨first, count, last, pushes, hparse, hdata, hkeys, hfirst, hcount, hlast, hle⟩ :=
    exists_parse_of_multiSig? h
  obtain ⟨hwf, hs⟩ := Script.parse_eq_map_instruction_iff.mp hparse
  obtain ⟨hone, -⟩ := Opcode.count?_eq_some_iff.mp hfirst
  obtain ⟨-, hsixteen, -⟩ := Opcode.count?_eq_some_iff.mp hcount
  have hpushes : ∀ push ∈ pushes, push.WellFormed ∧ push.isPush := by
    intro push hpush
    have hpushwf : push.WellFormed := hwf push (by simp [hpush])
    have hkey : IsKey push.data := hkeys push.data (hdata ▸ List.mem_map_of_mem hpush)
    refine ⟨hpushwf, hpushwf.isPush_of_data_ne_nil fun hnil => ?_⟩
    rw [hnil] at hkey
    exact absurd hkey (by decide)
  -- The three instructions that push no key are single bytes.
  have hfirsteq := (hwf first (by simp)).eq_of_le_opcode (Opcode.le_of_count? hfirst)
  have hcounteq := (hwf count (by simp)).eq_of_le_opcode (Opcode.le_of_count? hcount)
  have hlasteq := (hwf last (by simp)).eq_of_le_opcode (by rw [hlast]; decide)
  refine ⟨hone, hle, hsixteen, hkeys, pushes, hpushes, hdata, ?_⟩
  rw [hs, hfirsteq, hcounteq, hlasteq, Opcode.eq_ofNat_of_count? hfirst,
    Opcode.eq_ofNat_of_count? hcount, hlast]
  simp [Instruction.encoded, Instruction.header, Opcode.checkMultiSig]

theorem multiSig?_of_isMultiSig (h : s.IsMultiSig required keys) :
    multiSig? s = some (required, keys) := by
  obtain ⟨hone, hle, hsixteen, hkeys, pushes, hpushes, rfl, rfl⟩ := h
  rw [List.forall_mem_map] at hkeys
  have hm := Opcode.count?_ofNat hone (Nat.le_trans hle hsixteen)
  have hn := Opcode.count?_ofNat (Nat.le_trans hone hle) hsixteen
  have hparse := parse_multiSig hm hn fun push hpush => (hpushes push hpush).1
  -- The number of the keys pushes no data, so it is taken for no key.
  have hcount : ¬ isKeySize [] := by decide
  unfold multiSig?
  rw [hparse]
  dsimp only
  rw [splitKeys_map_append hkeys (by rw [splitKeys, if_neg hcount])]
  dsimp only
  rw [hm, hn]
  dsimp only
  rw [if_pos ⟨rfl, rfl, hle⟩]

/-- The recogniser accepts exactly the scripts of the grammar. -/
theorem multiSig?_eq_some_iff :
    multiSig? s = some (required, keys) ↔ s.IsMultiSig required keys :=
  ⟨isMultiSig_of_multiSig?, multiSig?_of_isMultiSig⟩

/-! ## The form of a multisig script -/

namespace Script.IsMultiSig

/-- The script of a single key, behind a direct push. -/
theorem oneKey (key : Bytes) (h : IsKey key) :
    IsMultiSig ([0x51, UInt8.ofNat key.length] ++ key ++ [0x51, 0xae]) 1 [key] := by
  have hpush : Instruction.WellFormed ⟨UInt8.ofNat key.length, [], key⟩ ∧
      Instruction.isPush ⟨UInt8.ofNat key.length, [], key⟩ := by
    rcases h.length with hlength | hlength
    · rw [hlength]
      exact ⟨.direct (by decide) (by decide) hlength, rfl⟩
    · rw [hlength]
      exact ⟨.direct (by decide) (by decide) hlength, rfl⟩
  refine ⟨by decide, by simp, by simp, by simpa using h, [⟨UInt8.ofNat key.length, [], key⟩],
    by simpa using hpush, rfl, ?_⟩
  simp [Instruction.encoded, Instruction.header]

theorem exists_head? (h : s.IsMultiSig required keys) :
    ∃ n ≤ 16, s.head? = some (Opcode.ofSmallInt n) := by
  obtain ⟨hone, hle, hsixteen, -, -, -, -, rfl⟩ := h
  refine ⟨required, Nat.le_trans hle hsixteen, ?_⟩
  rw [Opcode.ofSmallInt, if_neg (by omega)]
  rfl

/-- The first key would be the witness program, and a multisig script goes on behind it. -/
theorem witnessProgram?_eq_none (h : s.IsMultiSig required keys) : witnessProgram? s = none := by
  refine Option.eq_none_iff_forall_ne_some.mpr fun ⟨version, program⟩ hwitness => ?_
  obtain ⟨-, -, hmost, rfl⟩ := witnessProgram?_eq_some_iff.mp hwitness
  obtain ⟨hone, hle, -, -, pushes, hpushes, rfl, hwritten⟩ := h
  obtain ⟨push, rest, rfl⟩ : ∃ push rest, pushes = push :: rest := by
    refine List.exists_cons_of_length_pos ?_
    rw [List.length_map] at hle
    omega
  simp only [List.flatMap_cons, Instruction.encoded, Instruction.header, List.cons_append,
    List.nil_append, List.append_assoc, List.cons.injEq] at hwritten
  obtain ⟨-, hopcode, hprogram⟩ := hwritten
  have hsize : push.opcode.toNat = program.length := by
    rw [← hopcode, UInt8.toNat_ofNat']
    omega
  have hdirect : push.opcode < Opcode.pushData1 := by
    have hlong : Opcode.pushData1.toNat = 76 := rfl
    rw [UInt8.lt_iff_toNat_lt, hsize]
    omega
  have hdata : push.data.length = program.length := by
    obtain ⟨hpush, -⟩ := hpushes push List.mem_cons_self
    rw [hpush.lengths.2, Instruction.announcedLength_of_lt hdirect, hsize]
  have hlength := congrArg List.length hprogram
  simp only [List.length_append, List.length_cons] at hlength
  omega

end Script.IsMultiSig

namespace ScriptForm

theorem ofScript_of_multiSig? (h : multiSig? s = some (required, keys)) :
    ofScript s = .multiSig required keys := by
  have hgrammar := multiSig?_eq_some_iff.mp h
  have hhead : ∀ op ∈ [0xa9, 0x6a, 0x21, 0x41, 0x76], s.head? ≠ some op := by
    have hapart : ∀ n ≤ 16, Opcode.ofSmallInt n ∉ [0xa9, 0x6a, 0x21, 0x41, 0x76] := by decide
    obtain ⟨n, hn, hhead⟩ := hgrammar.exists_head?
    intro op hop heq
    rw [hhead] at heq
    cases heq
    exact hapart n hn hop
  have hhash : payToScriptHash? s = none := payToScriptHash?_eq_none (hhead _ (by decide))
  have hnull : isNullData s = false := isNullData_eq_false (hhead _ (by decide))
  have hkey : payToPubKey? s = none :=
    payToPubKey?_eq_none (hhead _ (by decide)) (hhead _ (by decide))
  have hkeyHash : payToPubKeyHash? s = none := payToPubKeyHash?_eq_none (hhead _ (by decide))
  simp [ofScript, hhash, hgrammar.witnessProgram?_eq_none, hnull, hkey, hkeyHash, h]

/-- No recogniser tried before takes a multisig script away. -/
theorem ofScript_eq_multiSig_iff :
    ofScript s = .multiSig required keys ↔ s.IsMultiSig required keys := by
  rw [← multiSig?_eq_some_iff]
  constructor
  · intro h
    have hform := recognisedAs_ofScript s
    generalize ofScript s = form at hform h
    cases hform with
    | multiSig hkeys =>
      cases h
      exact hkeys
    | @witnessProgram version program _ =>
      have hclass : (ofWitnessProgram version program).scriptClass = .multiSig :=
        congrArg scriptClass h
      exact absurd (hclass ▸ scriptClass_ofWitnessProgram_mem version program) (by decide)
    | _ => cases h
  · exact ofScript_of_multiSig?

end ScriptForm

open ScriptForm (ofScript)

/-- **A script is a bare multisig by its grammar alone.**  Its destinations are the hashes of its
keys, in order and with repetitions, and as many signatures are required as its first opcode says. -/
theorem ScriptForm.multiSig_grammar :
    (∀ (s : Script) (required : Nat) (keys : List Bytes),
      ofScript s = .multiSig required keys ↔ s.IsMultiSig required keys) ∧
    (∀ (s : Script) (required : Nat) (keys : List Bytes), s.IsMultiSig required keys →
      (ofScript s).destinations = keys.map (fun key => .pubKeyHash (hash160 key)) ∧
      (ofScript s).requiredSignatures = required) := by
  refine ⟨?grammar, ?destinations⟩
  case grammar =>
    intro s required keys
    exact ofScript_eq_multiSig_iff
  case destinations =>
    intro s required keys h
    rw [ofScript_eq_multiSig_iff.mpr h]
    exact ⟨rfl, rfl⟩

/-- Two of three, one key listed twice and pushed in two forms, and a key that ends in the closing
opcode. -/
theorem ScriptForm.multiSig_grammar_two_of_three :
    Script.IsMultiSig
      ([0x52] ++ (0x21 :: 0x02 :: List.replicate 32 0xae)
        ++ (0x4c :: 0x21 :: 0x02 :: List.replicate 32 0xae)
        ++ (0x4d :: 0x41 :: 0x00 :: 0x04 :: List.replicate 64 0x11) ++ [0x53, 0xae])
      2 [0x02 :: List.replicate 32 0xae, 0x02 :: List.replicate 32 0xae,
        0x04 :: List.replicate 64 0x11] ∧
    (ofScript ([0x52] ++ (0x21 :: 0x02 :: List.replicate 32 0xae)
        ++ (0x4c :: 0x21 :: 0x02 :: List.replicate 32 0xae)
        ++ (0x4d :: 0x41 :: 0x00 :: 0x04 :: List.replicate 64 0x11) ++ [0x53, 0xae])).destinations =
      [.pubKeyHash (hash160 (0x02 :: List.replicate 32 0xae)),
        .pubKeyHash (hash160 (0x02 :: List.replicate 32 0xae)),
        .pubKeyHash (hash160 (0x04 :: List.replicate 64 0x11))] := by
  have hgrammar : Script.IsMultiSig
      ([0x52] ++ (0x21 :: 0x02 :: List.replicate 32 0xae)
        ++ (0x4c :: 0x21 :: 0x02 :: List.replicate 32 0xae)
        ++ (0x4d :: 0x41 :: 0x00 :: 0x04 :: List.replicate 64 0x11) ++ [0x53, 0xae])
      2 [0x02 :: List.replicate 32 0xae, 0x02 :: List.replicate 32 0xae,
        0x04 :: List.replicate 64 0x11] := by
    refine ⟨by decide, by decide, by decide, by decide,
      [⟨0x21, [], 0x02 :: List.replicate 32 0xae⟩, ⟨0x4c, [0x21], 0x02 :: List.replicate 32 0xae⟩,
        ⟨0x4d, [0x41, 0x00], 0x04 :: List.replicate 64 0x11⟩], ?_, rfl, rfl⟩
    simp only [List.forall_mem_cons]
    exact ⟨⟨.direct (by decide) (by decide) rfl, rfl⟩, ⟨.pushData1 rfl rfl, rfl⟩,
      ⟨.pushData2 rfl rfl, rfl⟩, by simp⟩
  exact ⟨hgrammar, (multiSig_grammar.2 _ _ _ hgrammar).1⟩

end UtxoAssets
