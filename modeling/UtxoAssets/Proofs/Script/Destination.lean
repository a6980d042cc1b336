import UtxoAssets.Proofs.Script.Form
import UtxoAssets.Script.Destination

/-!
# A destination identifies its script

* `Destination.script` — the script that pays to a destination.
* `ScriptForm.destination?_ofScript_script` — that script has the destination.
* `ScriptForm.script_of_destination?` — no other script has it, bare keys apart, which share the
  destinations of their hashes.
* `Destination.identifies_script` — both, with the scripts that are bare keys.
-/

set_option autoImplicit false

namespace UtxoAssets

namespace Destination

/-- The script that pays to a destination. -/
def script : Destination → Script
  | .pubKeyHash keyId => [0x76, 0xa9, 0x14] ++ keyId.toBytes ++ [0x88, 0xac]
  | .scriptHash scriptId => [0xa9, 0x14] ++ scriptId.toBytes ++ [0x87]
  | .witnessKeyHash keyId => [0x00, 0x14] ++ keyId.toBytes
  | .witnessScriptHash scriptId => [0x00, 0x20] ++ scriptId.toBytes
  | .witnessUnknown version program =>
    [UInt8.ofNat (0x50 + version), UInt8.ofNat program.length] ++ program

/-- The versions and programs that a script can have, version zero apart. -/
def InRange : Destination → Prop
  | .witnessUnknown version program =>
    1 ≤ version ∧ version ≤ 16 ∧ 2 ≤ program.length ∧ program.length ≤ 40
  | _ => True

end Destination

namespace ScriptForm

variable {s : Script} {d : Destination}

/-! ## Programs -/

theorem destination?_ofWitnessProgram {version : Nat} {program : Bytes} (h : version ≠ 0) :
    (ofWitnessProgram version program).destination? = some (.witnessUnknown version program) := by
  rcases ofWitnessProgram_cases version program with
    ⟨_, rfl, -⟩ | ⟨_, rfl, -⟩ | ⟨rfl, -⟩ | ⟨output, rfl, rfl, hform⟩ | ⟨-, hform⟩
  · exact absurd rfl h
  · exact absurd rfl h
  · exact absurd rfl h
  · rw [hform]
    rfl
  · rw [hform]
    rfl

theorem ofWitnessProgram_zero_keyHash (keyId : FixedBytes 20) :
    ofWitnessProgram 0 keyId.toBytes = .witnessKeyHash keyId := by
  simp only [ofWitnessProgram, FixedBytes.ofBytes?_toBytes]

theorem ofWitnessProgram_zero_scriptHash (scriptId : FixedBytes 32) :
    ofWitnessProgram 0 scriptId.toBytes = .witnessScriptHash scriptId := by
  have hlength : FixedBytes.ofBytes? 20 scriptId.toBytes = none :=
    dif_neg (by rw [scriptId.length_toBytes]; decide)
  simp only [ofWitnessProgram, hlength, FixedBytes.ofBytes?_toBytes]

/-! ## From the destination to the script and back -/

/-- The script of a destination is recognised as paying to it. -/
theorem destination?_ofScript_script (h : d.InRange) : (ofScript d.script).destination? = some d := by
  cases d with
  | pubKeyHash keyId =>
    have htemplate : payToPubKeyHash? (Destination.script (.pubKeyHash keyId)) = some keyId :=
      payToPubKeyHash?_eq_some_iff.mpr rfl
    rw [ofScript_of_payToPubKeyHash? htemplate]
    rfl
  | scriptHash scriptId =>
    have htemplate : payToScriptHash? (Destination.script (.scriptHash scriptId)) = some scriptId :=
      payToScriptHash?_eq_some_iff.mpr rfl
    rw [ofScript_of_payToScriptHash? htemplate]
    rfl
  | witnessKeyHash keyId =>
    have hlength := keyId.length_toBytes
    have hprogram : witnessProgram? (Destination.script (.witnessKeyHash keyId)) =
        some (0, keyId.toBytes) :=
      witnessProgram?_eq_some_iff.mpr ⟨by decide, by omega, by omega, by rw [hlength]; rfl⟩
    rw [ofScript_of_witnessProgram? hprogram, ofWitnessProgram_zero_keyHash]
    rfl
  | witnessScriptHash scriptId =>
    have hlength := scriptId.length_toBytes
    have hprogram : witnessProgram? (Destination.script (.witnessScriptHash scriptId)) =
        some (0, scriptId.toBytes) :=
      witnessProgram?_eq_some_iff.mpr ⟨by decide, by omega, by omega, by rw [hlength]; rfl⟩
    rw [ofScript_of_witnessProgram? hprogram, ofWitnessProgram_zero_scriptHash]
    rfl
  | witnessUnknown version program =>
    obtain ⟨hone, hsixteen, hleast, hmost⟩ := h
    have hne : version ≠ 0 := by omega
    have hprogram : witnessProgram? (Destination.script (.witnessUnknown version program)) =
        some (version, program) := by
      refine witnessProgram?_eq_some_iff.mpr ⟨hsixteen, hleast, hmost, ?_⟩
      rw [Opcode.ofSmallInt, if_neg hne]
      rfl
    rw [ofScript_of_witnessProgram? hprogram, destination?_ofWitnessProgram hne]

theorem script_of_witnessProgram? {version : Nat} {program : Bytes}
    (h : witnessProgram? s = some (version, program))
    (hd : (ofWitnessProgram version program).destination? = some d) :
    s = d.script ∧ d.InRange := by
  obtain ⟨hsixteen, hleast, hmost, rfl⟩ := witnessProgram?_eq_some_iff.mp h
  by_cases hzero : version = 0
  · subst hzero
    rcases ofWitnessProgram_cases 0 program with
      ⟨keyId, -, rfl, hform⟩ | ⟨scriptId, -, rfl, hform⟩ | ⟨-, hform⟩ | ⟨_, hone, -⟩ | ⟨hne, -⟩
    · rw [hform] at hd
      cases hd
      rw [keyId.length_toBytes]
      exact ⟨rfl, trivial⟩
    · rw [hform] at hd
      cases hd
      rw [scriptId.length_toBytes]
      exact ⟨rfl, trivial⟩
    · rw [hform] at hd
      cases hd
    · cases hone
    · exact absurd rfl hne
  · rw [destination?_ofWitnessProgram hzero] at hd
    cases hd
    refine ⟨?_, by omega, hsixteen, hleast, hmost⟩
    rw [Opcode.ofSmallInt, if_neg hzero]
    rfl

/-- A recognised destination determines the script, except for the pay-to-pubkey form, whose
destination is the hash of its key. -/
theorem script_of_destination? (hclass : (ofScript s).scriptClass ≠ .pubKey)
    (hd : (ofScript s).destination? = some d) : s = d.script ∧ d.InRange := by
  have hform := recognisedAs_ofScript s
  generalize ofScript s = form at hform hclass hd
  cases hform with
  | scriptHash h =>
    cases hd
    exact ⟨payToScriptHash?_eq_some_iff.mp h, trivial⟩
  | witnessProgram h => exact script_of_witnessProgram? h hd
  | nullData h => cases hd
  | pubKey h => exact absurd rfl hclass
  | pubKeyHash h =>
    cases hd
    exact ⟨payToPubKeyHash?_eq_some_iff.mp h, trivial⟩
  | multiSig h => cases hd
  | nonStandard => cases hd

/-! ## Bare keys -/

theorem scriptClass_ofWitnessProgram_ne_pubKey (version : Nat) (program : Bytes) :
    (ofWitnessProgram version program).scriptClass ≠ .pubKey := by
  intro hclass
  exact absurd (hclass ▸ scriptClass_ofWitnessProgram_mem version program) (by decide)

theorem payToPubKey?_of_scriptClass (h : (ofScript s).scriptClass = .pubKey) :
    ∃ key, payToPubKey? s = some key := by
  have hform := recognisedAs_ofScript s
  generalize ofScript s = form at hform h
  cases hform with
  | witnessProgram _ => exact absurd h (scriptClass_ofWitnessProgram_ne_pubKey _ _)
  | pubKey hkey => exact ⟨_, hkey⟩
  | _ => cases h

/-- A script has the pay-to-pubkey form if it is a push of a key and a signature check. -/
theorem scriptClass_eq_pubKey_iff :
    (ofScript s).scriptClass = .pubKey ↔
      ∃ key, IsKey key ∧ s = [UInt8.ofNat key.length] ++ key ++ [0xac] := by
  constructor
  · intro h
    obtain ⟨key, hkey⟩ := payToPubKey?_of_scriptClass h
    exact ⟨key, payToPubKey?_eq_some_iff.mp hkey⟩
  · rintro ⟨key, hkey⟩
    rw [ofScript_of_payToPubKey? (payToPubKey?_eq_some_iff.mpr hkey)]
    rfl

end ScriptForm

open ScriptForm (ofScript)

/-- **A displayed destination identifies its script.**  Bare keys are the exception: each is shown by
the destination of its hash. -/
theorem Destination.identifies_script :
    (∀ d : Destination, d.InRange → (ofScript d.script).destination? = some d) ∧
    (∀ (s : Script) (d : Destination), (ofScript s).scriptClass ≠ .pubKey →
      (ofScript s).destination? = some d → s = d.script ∧ d.InRange) ∧
    (∀ s : Script, (ofScript s).scriptClass = .pubKey ↔
      ∃ key, IsKey key ∧ s = [UInt8.ofNat key.length] ++ key ++ [0xac]) ∧
    (∀ key : Bytes, IsKey key →
      (ofScript ([UInt8.ofNat key.length] ++ key ++ [0xac])).destination? =
        some (.pubKeyHash (hash160 key))) ∧
    (∀ (s t : Script) (d : Destination), (ofScript s).scriptClass ≠ .pubKey →
      (ofScript t).scriptClass ≠ .pubKey → (ofScript s).destination? = some d →
      (ofScript t).destination? = some d → s = t) := by
  refine ⟨?script, ?unique, ?bareKey, ?key, ?apart⟩
  case script =>
    intro d h
    exact ScriptForm.destination?_ofScript_script h
  case unique =>
    intro s d hclass hd
    exact ScriptForm.script_of_destination? hclass hd
  case bareKey =>
    intro s
    exact ScriptForm.scriptClass_eq_pubKey_iff
  case key =>
    intro key hkey
    rw [ScriptForm.ofScript_of_payToPubKey? (payToPubKey?_eq_some_iff.mpr ⟨hkey, rfl⟩)]
    rfl
  case apart =>
    intro s t d hs ht hds hdt
    obtain ⟨rfl, -⟩ := ScriptForm.script_of_destination? hs hds
    obtain ⟨rfl, -⟩ := ScriptForm.script_of_destination? ht hdt
    rfl

/-- The longest program of the last version, and a compressed key. -/
theorem Destination.identifies_script_samples :
    (Destination.witnessUnknown 16 (List.replicate 40 0xab)).InRange ∧
    (ofScript ([0x60, 0x28] ++ List.replicate 40 0xab)).destination? =
      some (.witnessUnknown 16 (List.replicate 40 0xab)) ∧
    IsKey (0x02 :: List.replicate 32 0x01) ∧
    (ofScript ([0x21] ++ (0x02 :: List.replicate 32 0x01) ++ [0xac])).destination? =
      some (.pubKeyHash (hash160 (0x02 :: List.replicate 32 0x01))) ∧
    (ofScript [0x51, 0x02, 0xaa, 0xbb]).scriptClass ≠ .pubKey ∧
    [0x51, 0x02, 0xaa, 0xbb] = (Destination.witnessUnknown 1 [0xaa, 0xbb]).script ∧
    (Destination.witnessUnknown 1 [0xaa, 0xbb]).InRange := by
  obtain ⟨hscript, hunique, -, hkey, -⟩ := identifies_script
  have hrange : (Destination.witnessUnknown 16 (List.replicate 40 0xab)).InRange := by
    simp [InRange]
  have hcompressed : IsKey (0x02 :: List.replicate 32 0x01) := by decide
  have hclass : (ofScript [0x51, 0x02, 0xaa, 0xbb]).scriptClass ≠ .pubKey := by decide
  exact ⟨hrange, hscript _ hrange, hcompressed, hkey _ hcompressed, hclass,
    hunique _ _ hclass rfl⟩

end UtxoAssets
