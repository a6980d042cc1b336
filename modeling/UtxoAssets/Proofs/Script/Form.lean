import UtxoAssets.Script.Form

/-!
# What each recogniser accepts

* `IsKey` — a key whose first byte announces its length.
* `payToScriptHash?_eq_some_iff`, `witnessProgram?_eq_some_iff`, `payToPubKey?_eq_some_iff` and
  `payToPubKeyHash?_eq_some_iff` — each recogniser accepts the scripts of one template, written out
  byte by byte.
* `ScriptForm.recognisedAs_ofScript` — a script has its form by one of the recognisers.
* `ScriptForm.ofScript_of_witnessProgram?` and the lemmas beside it — a script that a recogniser
  accepts has the form it stands for, since its first byte keeps the earlier ones off.
-/

set_option autoImplicit false

namespace UtxoAssets

variable {s : Script} {keyId scriptId : FixedBytes 20} {version : Nat} {program key : Bytes}

/-! ## Keys and small numbers -/

/-- The first byte of a key announces one of two lengths. -/
def IsKey (key : Bytes) : Prop :=
  key.length = 33 ∧ (key.head? = some 0x02 ∨ key.head? = some 0x03) ∨
  key.length = 65 ∧ (key.head? = some 0x04 ∨ key.head? = some 0x06 ∨ key.head? = some 0x07)

instance (key : Bytes) : Decidable (IsKey key) := by unfold IsKey; infer_instance

theorem isKeySize_iff : isKeySize key ↔ IsKey key := by
  cases key with
  | nil => simp [isKeySize, IsKey]
  | cons header body =>
    simp only [isKeySize, IsKey, List.head?_cons, Option.some.injEq, List.length_cons]
    by_cases hcompressed : header = 0x02 ∨ header = 0x03
    · have hnot : ¬ (header = 0x04 ∨ header = 0x06 ∨ header = 0x07) := by
        rcases hcompressed with rfl | rfl <;> decide
      simp [hcompressed, hnot]
    · by_cases huncompressed : header = 0x04 ∨ header = 0x06 ∨ header = 0x07
      · simp [hcompressed, huncompressed]
      · simp [hcompressed, huncompressed]

theorem IsKey.length (h : IsKey key) : key.length = 33 ∨ key.length = 65 :=
  h.imp And.left And.left

/-- The opcode that pushes a number from zero to sixteen. -/
def Opcode.ofSmallInt (n : Nat) : UInt8 := if n = 0 then 0x00 else UInt8.ofNat (0x50 + n)

theorem Opcode.smallInt?_eq_some_iff {opcode : UInt8} {n : Nat} :
    smallInt? opcode = some n ↔ n ≤ 16 ∧ opcode = ofSmallInt n := by
  constructor
  · intro h
    unfold smallInt? at h
    split at h
    · rename_i hzero
      cases h
      exact ⟨Nat.zero_le 16, hzero⟩
    · obtain ⟨hsmall, hn⟩ := Option.ite_none_right_eq_some.mp h
      cases hn
      obtain ⟨hone, hsixteen⟩ := isSmallInt_iff.mp hsmall
      simp only [UInt8.le_iff_toNat_le, one, sixteen, UInt8.reduceToNat] at hone hsixteen
      refine ⟨by omega, ?_⟩
      rw [ofSmallInt, if_neg (by omega), Nat.add_sub_cancel' (by omega), UInt8.ofNat_toNat]
  · rintro ⟨hsixteen, rfl⟩
    have hnumbers : ∀ n ≤ 16, smallInt? (ofSmallInt n) = some n := by decide
    exact hnumbers n hsixteen

theorem Opcode.count?_eq_some_iff {opcode : UInt8} {n : Nat} :
    count? opcode = some n ↔ 1 ≤ n ∧ n ≤ 16 ∧ opcode = ofSmallInt n := by
  have hcounts : ∀ n ≤ 16, isSmallInt (ofSmallInt n) ↔ 1 ≤ n := by decide
  rw [count?, Option.ite_none_right_eq_some, smallInt?_eq_some_iff]
  constructor
  · rintro ⟨hsmall, hsixteen, rfl⟩
    exact ⟨(hcounts n hsixteen).mp hsmall, hsixteen, rfl⟩
  · rintro ⟨hone, hsixteen, rfl⟩
    exact ⟨(hcounts n hsixteen).mpr hone, hsixteen, rfl⟩

/-! ## Templates -/

theorem eq_take_append_of_drop_eq {n : Nat} {bs tail : Bytes} (h : bs.drop n = tail)
    (hne : tail ≠ []) : bs = bs.take n ++ tail ∧ (bs.take n).length = n := by
  refine ⟨by rw [← h, List.take_append_drop], ?_⟩
  rw [List.length_take, Nat.min_eq_left]
  refine Nat.le_of_not_lt fun hlt => hne ?_
  rw [← h, List.drop_eq_nil_of_le (Nat.le_of_lt hlt)]

/-- The test by length and single bytes accepts exactly the scripts of this form. The next three
tests are described the same way. -/
theorem payToScriptHash?_eq_some_iff :
    payToScriptHash? s = some scriptId ↔ s = [0xa9, 0x14] ++ scriptId.toBytes ++ [0x87] := by
  constructor
  · intro h
    unfold payToScriptHash? at h
    split at h
    · split at h
      · rename_i htemplate
        obtain ⟨rfl, rfl, hdrop⟩ := htemplate
        obtain ⟨heq, -⟩ := eq_take_append_of_drop_eq hdrop (by simp)
        rw [heq, ← FixedBytes.ofBytes?_eq_some_iff.mp h]
        rfl
      · cases h
    · cases h
  · rintro rfl
    have hlength := scriptId.length_toBytes
    simp [payToScriptHash?, Opcode.hash160, Opcode.equal, ← hlength]

theorem payToPubKeyHash?_eq_some_iff :
    payToPubKeyHash? s = some keyId ↔
      s = [0x76, 0xa9, 0x14] ++ keyId.toBytes ++ [0x88, 0xac] := by
  constructor
  · intro h
    unfold payToPubKeyHash? at h
    split at h
    · split at h
      · rename_i htemplate
        obtain ⟨rfl, rfl, rfl, hdrop⟩ := htemplate
        obtain ⟨heq, -⟩ := eq_take_append_of_drop_eq hdrop (by simp)
        rw [heq, ← FixedBytes.ofBytes?_eq_some_iff.mp h]
        rfl
      · cases h
    · cases h
  · rintro rfl
    have hlength := keyId.length_toBytes
    simp [payToPubKeyHash?, Opcode.dup, Opcode.hash160, Opcode.equalVerify, Opcode.checkSig,
      ← hlength]

theorem payToPubKey?_eq_some_iff :
    payToPubKey? s = some key ↔
      IsKey key ∧ s = [UInt8.ofNat key.length] ++ key ++ [0xac] := by
  constructor
  · intro h
    unfold payToPubKey? at h
    split at h
    · rename_i size rest
      obtain ⟨⟨-, hdrop, hkey⟩, ⟨⟩⟩ := Option.ite_none_right_eq_some.mp h
      obtain ⟨heq, hlength⟩ := eq_take_append_of_drop_eq hdrop (by simp)
      refine ⟨isKeySize_iff.mp hkey, ?_⟩
      rw [hlength, UInt8.ofNat_toNat]
      exact congrArg (size :: ·) heq
    · cases h
  · rintro ⟨hkey, rfl⟩
    have hsize : (UInt8.ofNat key.length).toNat = key.length := by
      rw [UInt8.toNat_ofNat']
      rcases hkey.length with hlength | hlength <;> rw [hlength]
    have hlengths : UInt8.ofNat key.length = 33 ∨ UInt8.ofNat key.length = 65 :=
      hkey.length.imp (congrArg UInt8.ofNat) (congrArg UInt8.ofNat)
    simp [payToPubKey?, hsize, hlengths, isKeySize_iff.mpr hkey, Opcode.checkSig]

theorem witnessProgram?_eq_some_iff :
    witnessProgram? s = some (version, program) ↔
      version ≤ 16 ∧ 2 ≤ program.length ∧ program.length ≤ 40 ∧
        s = [Opcode.ofSmallInt version, UInt8.ofNat program.length] ++ program := by
  constructor
  · intro h
    unfold witnessProgram? at h
    split at h
    · rename_i op size body
      obtain ⟨⟨hsize, hleast, hmost⟩, h⟩ := Option.ite_none_right_eq_some.mp h
      have hlength : UInt8.ofNat body.length = size := by rw [← hsize, UInt8.ofNat_toNat]
      obtain ⟨n, hn, hpair⟩ := Option.map_eq_some_iff.mp h
      cases hpair
      obtain ⟨hsixteen, rfl⟩ := Opcode.smallInt?_eq_some_iff.mp hn
      exact ⟨hsixteen, hleast, hmost, by rw [hlength]; rfl⟩
    · cases h
  · rintro ⟨hsixteen, hleast, hmost, rfl⟩
    have hsize : (UInt8.ofNat program.length).toNat = program.length := by
      rw [UInt8.toNat_ofNat']
      omega
    have htest : (UInt8.ofNat program.length).toNat = program.length ∧ 2 ≤ program.length ∧
        program.length ≤ 40 := ⟨hsize, hleast, hmost⟩
    have hversion : Opcode.smallInt? (Opcode.ofSmallInt version) = some version :=
      Opcode.smallInt?_eq_some_iff.mpr ⟨hsixteen, rfl⟩
    simp only [witnessProgram?, List.cons_append, List.nil_append, if_pos htest, hversion,
      Option.map_some]

/-! ## First bytes -/

theorem head?_of_payToScriptHash? (h : payToScriptHash? s = some scriptId) :
    s.head? = some 0xa9 := by
  rw [payToScriptHash?_eq_some_iff.mp h]
  rfl

theorem head?_of_payToPubKeyHash? (h : payToPubKeyHash? s = some keyId) :
    s.head? = some 0x76 := by
  rw [payToPubKeyHash?_eq_some_iff.mp h]
  rfl

theorem head?_of_payToPubKey? (h : payToPubKey? s = some key) :
    s.head? = some 0x21 ∨ s.head? = some 0x41 := by
  obtain ⟨hkey, rfl⟩ := payToPubKey?_eq_some_iff.mp h
  exact hkey.length.imp (congrArg fun n => some (UInt8.ofNat n))
    (congrArg fun n => some (UInt8.ofNat n))

theorem head?_of_witnessProgram? (h : witnessProgram? s = some (version, program)) :
    s.head? = some (Opcode.ofSmallInt version) := by
  obtain ⟨-, -, -, rfl⟩ := witnessProgram?_eq_some_iff.mp h
  rfl

theorem head?_of_isNullData (h : isNullData s) : s.head? = some 0x6a := by
  cases s with
  | nil => cases h
  | cons op rest =>
    have hop : op = Opcode.ret := by
      simp only [isNullData, Bool.and_eq_true, decide_eq_true_eq] at h
      exact h.1
    rw [hop]
    rfl

/-! ### What a first byte keeps off -/

theorem payToScriptHash?_eq_none (h : s.head? ≠ some 0xa9) : payToScriptHash? s = none :=
  Option.eq_none_iff_forall_ne_some.mpr fun _ hs => h (head?_of_payToScriptHash? hs)

theorem witnessProgram?_eq_none
    (h : ∀ version ≤ 16, s.head? ≠ some (Opcode.ofSmallInt version)) :
    witnessProgram? s = none := by
  refine Option.eq_none_iff_forall_ne_some.mpr fun ⟨version, program⟩ hs => ?_
  obtain ⟨hversion, -⟩ := witnessProgram?_eq_some_iff.mp hs
  exact h version hversion (head?_of_witnessProgram? hs)

theorem isNullData_eq_false (h : s.head? ≠ some 0x6a) : isNullData s = false :=
  Bool.eq_false_iff.mpr fun hs => h (head?_of_isNullData hs)

theorem payToPubKey?_eq_none (h : s.head? ≠ some 0x21) (h' : s.head? ≠ some 0x41) :
    payToPubKey? s = none :=
  Option.eq_none_iff_forall_ne_some.mpr fun _ hs => (head?_of_payToPubKey? hs).elim h h'

theorem payToPubKeyHash?_eq_none (h : s.head? ≠ some 0x76) : payToPubKeyHash? s = none :=
  Option.eq_none_iff_forall_ne_some.mpr fun _ hs => h (head?_of_payToPubKeyHash? hs)

/-! ## The form of a script -/

namespace ScriptForm

theorem ofScript_of_payToScriptHash? (h : payToScriptHash? s = some scriptId) :
    ofScript s = .scriptHash scriptId := by
  simp only [ofScript, h]

theorem ofScript_of_witnessProgram? (h : witnessProgram? s = some (version, program)) :
    ofScript s = ofWitnessProgram version program := by
  obtain ⟨hversion, -⟩ := witnessProgram?_eq_some_iff.mp h
  have hfirst : ∀ n ≤ 16, some (Opcode.ofSmallInt n) ≠ some 0xa9 := by decide
  have hhash : payToScriptHash? s = none := by
    refine payToScriptHash?_eq_none ?_
    rw [head?_of_witnessProgram? h]
    exact hfirst version hversion
  simp only [ofScript, hhash, h]

/-- The first bytes of keys and key hashes keep off the recognisers that are asked before. -/
theorem keptOff_of_head? {op : UInt8} (hhead : s.head? = some op) (hop : op ∈ [0x21, 0x41, 0x76]) :
    payToScriptHash? s = none ∧ witnessProgram? s = none ∧ isNullData s = false := by
  simp only [List.mem_cons, List.not_mem_nil, or_false] at hop
  refine ⟨payToScriptHash?_eq_none ?_, witnessProgram?_eq_none ?_, isNullData_eq_false ?_⟩
  all_goals
    rw [hhead]
    rcases hop with rfl | rfl | rfl <;> decide

theorem ofScript_of_payToPubKey? (h : payToPubKey? s = some key) : ofScript s = .pubKey key := by
  obtain ⟨hhash, hwitness, hnull⟩ :
      payToScriptHash? s = none ∧ witnessProgram? s = none ∧ isNullData s = false := by
    rcases head?_of_payToPubKey? h with hhead | hhead
    · exact keptOff_of_head? hhead (by decide)
    · exact keptOff_of_head? hhead (by decide)
  simp [ofScript, hhash, hwitness, hnull, h]

theorem ofScript_of_payToPubKeyHash? (h : payToPubKeyHash? s = some keyId) :
    ofScript s = .pubKeyHash keyId := by
  have hhead := head?_of_payToPubKeyHash? h
  obtain ⟨hhash, hwitness, hnull⟩ := keptOff_of_head? hhead (by decide)
  have hkey : payToPubKey? s = none :=
    payToPubKey?_eq_none (by rw [hhead]; decide) (by rw [hhead]; decide)
  simp [ofScript, hhash, hwitness, hnull, hkey, h]

/-- The recogniser to which a script owes a form. -/
inductive RecognisedAs (s : Script) : ScriptForm → Prop
  | scriptHash {scriptId : FixedBytes 20} (h : payToScriptHash? s = some scriptId) :
    RecognisedAs s (.scriptHash scriptId)
  | witnessProgram {version : Nat} {program : Bytes}
    (h : witnessProgram? s = some (version, program)) :
    RecognisedAs s (ofWitnessProgram version program)
  | nullData (h : isNullData s) : RecognisedAs s .nullData
  | pubKey {key : Bytes} (h : payToPubKey? s = some key) : RecognisedAs s (.pubKey key)
  | pubKeyHash {keyId : FixedBytes 20} (h : payToPubKeyHash? s = some keyId) :
    RecognisedAs s (.pubKeyHash keyId)
  | multiSig {required : Nat} {keys : List Bytes} (h : multiSig? s = some (required, keys)) :
    RecognisedAs s (.multiSig required keys)
  | nonStandard : RecognisedAs s .nonStandard

/-- What the chain of recognisers returns is owed to one of them, or to none of them where the
script is non-standard. -/
theorem recognisedAs_ofScript (s : Script) : RecognisedAs s (ofScript s) := by
  unfold ofScript
  split
  · exact .scriptHash ‹_›
  split
  · exact .witnessProgram ‹_›
  split
  · exact .nullData ‹_›
  split
  · exact .pubKey ‹_›
  split
  · exact .pubKeyHash ‹_›
  split
  · exact .multiSig ‹_›
  · exact .nonStandard

/-- A witness program has one of four forms. -/
theorem ofWitnessProgram_cases (version : Nat) (program : Bytes) :
    (∃ keyId : FixedBytes 20, version = 0 ∧ program = keyId.toBytes ∧
      ofWitnessProgram version program = .witnessKeyHash keyId) ∨
    (∃ scriptId : FixedBytes 32, version = 0 ∧ program = scriptId.toBytes ∧
      ofWitnessProgram version program = .witnessScriptHash scriptId) ∨
    (version = 0 ∧ ofWitnessProgram version program = .nonStandard) ∨
    (∃ output : FixedBytes 32, version = 1 ∧ program = output.toBytes ∧
      ofWitnessProgram version program = .taproot output) ∨
    (version ≠ 0 ∧ ofWitnessProgram version program = .witnessUnknown version program) := by
  unfold ofWitnessProgram
  split
  · rename_i hprogram
    exact .inl ⟨_, rfl, (FixedBytes.ofBytes?_eq_some_iff.mp hprogram).symm, rfl⟩
  · rename_i hprogram
    exact .inr (.inl ⟨_, rfl, (FixedBytes.ofBytes?_eq_some_iff.mp hprogram).symm, rfl⟩)
  · exact .inr (.inr (.inl ⟨rfl, rfl⟩))
  · rename_i hprogram
    refine .inr (.inr (.inr (.inl ⟨_, rfl, ?_, rfl⟩)))
    exact (FixedBytes.ofBytes?_eq_some_iff.mp hprogram).symm
  · rename_i hkeyHash htaproot hscriptHash hother
    refine .inr (.inr (.inr (.inr ⟨?_, rfl⟩)))
    -- Version zero has been taken by the first three, whatever the length.
    rintro rfl
    cases hlong : FixedBytes.ofBytes? 20 program with
    | some keyId => exact hkeyHash keyId rfl hlong
    | none =>
      cases hlonger : FixedBytes.ofBytes? 32 program with
      | some scriptId => exact hscriptHash scriptId rfl hlong hlonger
      | none => exact hother rfl hlong hlonger

theorem scriptClass_ofWitnessProgram_mem (version : Nat) (program : Bytes) :
    (ofWitnessProgram version program).scriptClass ∈
      [.witnessKeyHash, .witnessScriptHash, .nonStandard, .taproot, .witnessUnknown] := by
  rcases ofWitnessProgram_cases version program with
    ⟨_, -, -, h⟩ | ⟨_, -, -, h⟩ | ⟨-, h⟩ | ⟨_, -, -, h⟩ | ⟨-, h⟩
  all_goals
    rw [h]
    simp [scriptClass]

end ScriptForm

end UtxoAssets
