import UtxoAssets.Proofs.Script.Destination
import UtxoAssets.Proofs.Script.MultiSig
import UtxoAssets.Proofs.Script.Signature
import UtxoAssets.Render.Script

/-!
# The two documents of a script agree

A script is shown as an output script, with all its destinations, or alone, with one at most.

* `ScriptForm.InBounds` — the numbers of signatures and of keys that a multisig script can have;
  `ScriptForm.inBounds_ofScript` says so of every script.
* `ScriptForm.destination?_eq_some_iff`, `ScriptForm.isResolved_iff` — the one destination and all
  of them, and the classes that have any.
* `Script.FitsTemplate` — the templates with a hash at a fixed place, told by the bytes around it;
  `Script.FitsTemplate.resolved` says that no such script goes without its destination.
* `Document.AgreeOn` — what the two documents have in common; `Document.script_documents_agree`
  proves it of every script.
-/

set_option autoImplicit false

namespace UtxoAssets

namespace ScriptForm

/-- A multisig script asks for one signature at least, for no more than it has keys, and has at most
sixteen of them. -/
def InBounds : ScriptForm → Prop
  | .multiSig required keys => 1 ≤ required ∧ required ≤ keys.length ∧ keys.length ≤ 16
  | _ => True

/-- What the recognisers return is within the bounds that the multisig grammar sets. -/
theorem inBounds_ofScript (s : Script) : (ofScript s).InBounds := by
  cases hform : ofScript s with
  | multiSig required keys =>
    have hgrammar := ofScript_eq_multiSig_iff.mp hform
    exact ⟨hgrammar.one_le_required, hgrammar.required_le_length, hgrammar.length_le⟩
  | _ => trivial

variable {form : ScriptForm}

theorem destination?_eq_some_iff {d : Destination} :
    form.destination? = some d ↔
      form.scriptClass ≠ .multiSig ∧ form.destinations = [d] ∧ form.requiredSignatures = 1 := by
  cases form <;> simp [destination?, scriptClass, destinations, requiredSignatures]

theorem isResolved_iff (h : form.InBounds) :
    form.isResolved ↔ form.scriptClass ∉ [.nonStandard, .nullData] := by
  cases form with
  | multiSig required keys =>
    have hne : keys ≠ [] := by
      rintro rfl
      obtain ⟨hone, hle, -⟩ := h
      exact absurd (Nat.le_trans hone hle) (by decide)
    simpa [isResolved, destinations, scriptClass] using hne
  | _ => simp [isResolved, destinations, destination?, scriptClass]

theorem eq_zero_of_not_isResolved (h : form.InBounds) (hform : ¬ form.isResolved) :
    form.requiredSignatures = 0 ∧ form.destinations = [] := by
  rw [isResolved_iff h, Decidable.not_not] at hform
  cases form with
  | nonStandard => exact ⟨rfl, rfl⟩
  | nullData => exact ⟨rfl, rfl⟩
  | _ => simp [scriptClass] at hform

/-- A form with destinations requires at least one signature, and no more than it has keys. -/
theorem requiredSignatures_bounds (h : form.InBounds) (hform : form.isResolved) :
    1 ≤ form.requiredSignatures ∧ form.requiredSignatures ≤ form.destinations.length ∧
      form.destinations.length ≤ 16 := by
  rw [isResolved_iff h] at hform
  cases form with
  | multiSig required keys =>
    rw [destinations, List.length_map]
    exact h
  | nonStandard => simp [scriptClass] at hform
  | nullData => simp [scriptClass] at hform
  | _ => simp [requiredSignatures, destinations, destination?]

end ScriptForm

/-! ## Hashes at fixed places -/

/-- The templates with a hash at a fixed place, told by the length of the script and the bytes
around the hash. -/
inductive Script.FitsTemplate (s : Script) : ScriptClass → Prop
  | scriptHash : s.length = 23 → s[0]? = some 0xa9 → s[1]? = some 0x14 → s[22]? = some 0x87 →
    FitsTemplate s .scriptHash
  | pubKeyHash : s.length = 25 → s[0]? = some 0x76 → s[1]? = some 0xa9 → s[2]? = some 0x14 →
    s[23]? = some 0x88 → s[24]? = some 0xac → FitsTemplate s .pubKeyHash
  | witnessKeyHash : s.length = 22 → s[0]? = some 0x00 → s[1]? = some 0x14 →
    FitsTemplate s .witnessKeyHash
  | witnessScriptHash : s.length = 34 → s[0]? = some 0x00 → s[1]? = some 0x20 →
    FitsTemplate s .witnessScriptHash

theorem drop_eq_of_getElem? {s : Script} {i j : Nat} {b : UInt8} (h : s[i]? = some b)
    (hj : j = i + 1) : s.drop i = b :: s.drop j := by
  obtain ⟨hi, rfl⟩ := List.getElem?_eq_some_iff.mp h
  exact drop_eq_cons hi hj

theorem witnessProgram?_of_getElem? {s : Script} {n : Nat} (h0 : s[0]? = some 0x00)
    (h1 : s[1]? = some (UInt8.ofNat n)) (hlength : (s.drop 2).length = n) (hn : 2 ≤ n ∧ n ≤ 40) :
    witnessProgram? s = some (0, s.drop 2) := by
  have hs : s = [Opcode.ofSmallInt 0, UInt8.ofNat (s.drop 2).length] ++ s.drop 2 := by
    rw [hlength]
    exact (drop_eq_of_getElem? h0 rfl).trans (congrArg _ (drop_eq_of_getElem? h1 rfl))
  exact witnessProgram?_eq_some_iff.mpr ⟨by decide, by omega, by omega, hs⟩

namespace Script.FitsTemplate

variable {s : Script} {c : ScriptClass}

/-- The hash can be cut out of every script that fits. -/
theorem resolved (h : s.FitsTemplate c) :
    (ScriptForm.ofScript s).scriptClass = c ∧ (ScriptForm.ofScript s).destination?.isSome := by
  cases h with
  | scriptHash hlength h0 h1 hequal =>
    have hhash : ((s.drop 2).take 20).length = 20 := by simp; omega
    have htail : s.drop 22 = [0x87] := by
      rw [drop_eq_of_getElem? hequal rfl, List.drop_eq_nil_of_le (by omega)]
    have hs : s = [0xa9, 0x14] ++ (s.drop 2).take 20 ++ [0x87] := by
      rw [← htail, List.append_assoc, ← drop_eq_append rfl]
      exact (drop_eq_of_getElem? h0 rfl).trans (congrArg _ (drop_eq_of_getElem? h1 rfl))
    have htemplate : payToScriptHash? s = some ⟨(s.drop 2).take 20, hhash⟩ :=
      payToScriptHash?_eq_some_iff.mpr hs
    rw [ScriptForm.ofScript_of_payToScriptHash? htemplate]
    exact ⟨rfl, rfl⟩
  | pubKeyHash hlength h0 h1 h2 hverify hcheckSig =>
    have hhash : ((s.drop 3).take 20).length = 20 := by simp; omega
    have htail : s.drop 23 = [0x88, 0xac] := by
      rw [drop_eq_of_getElem? hverify rfl, drop_eq_of_getElem? hcheckSig rfl,
        List.drop_eq_nil_of_le (by omega)]
    have hs : s = [0x76, 0xa9, 0x14] ++ (s.drop 3).take 20 ++ [0x88, 0xac] := by
      rw [← htail, List.append_assoc, ← drop_eq_append rfl]
      exact (drop_eq_of_getElem? h0 rfl).trans (congrArg _ ((drop_eq_of_getElem? h1 rfl).trans
        (congrArg _ (drop_eq_of_getElem? h2 rfl))))
    have htemplate : payToPubKeyHash? s = some ⟨(s.drop 3).take 20, hhash⟩ :=
      payToPubKeyHash?_eq_some_iff.mpr hs
    rw [ScriptForm.ofScript_of_payToPubKeyHash? htemplate]
    exact ⟨rfl, rfl⟩
  | witnessKeyHash hlength h0 h1 =>
    have hhash : (s.drop 2).length = 20 := by simp; omega
    have hprogram := witnessProgram?_of_getElem? h0 h1 hhash (by decide)
    rw [ScriptForm.ofScript_of_witnessProgram? hprogram,
      ScriptForm.ofWitnessProgram_zero_keyHash ⟨s.drop 2, hhash⟩]
    exact ⟨rfl, rfl⟩
  | witnessScriptHash hlength h0 h1 =>
    have hhash : (s.drop 2).length = 32 := by simp; omega
    have hprogram := witnessProgram?_of_getElem? h0 h1 hhash (by decide)
    rw [ScriptForm.ofScript_of_witnessProgram? hprogram,
      ScriptForm.ofWitnessProgram_zero_scriptHash ⟨s.drop 2, hhash⟩]
    exact ⟨rfl, rfl⟩

end Script.FitsTemplate

/-! ## The documents -/

namespace Document

open ScriptForm (ofScript)

/-- What the document of a script that stands alone and the one of an output script say of the form
of the script, and of one another. -/
structure AgreeOn (form : ScriptForm) (alone : DecodedScript) (output : ScriptPubKey) : Prop where
  texts : alone.asm = output.asm ∧ alone.hex = output.hex ∧ alone.scriptClass = output.scriptClass
  class_name : output.scriptClass = form.scriptClass.name
  destination_iff : ∀ d, form.destination? = some d ↔
    form.scriptClass ≠ .multiSig ∧ form.destinations = [d] ∧ form.requiredSignatures = 1
  resolved_iff : form.isResolved ↔ form.scriptClass ∉ [.nonStandard, .nullData]
  unresolved : ¬ form.isResolved → form.requiredSignatures = 0 ∧ form.destinations = []
  requiredSignatures_iff : output.requiredSignatures.isSome ↔
    form.scriptClass ∉ [.nonStandard, .nullData, .pubKey]
  addresses_iff : output.addresses.isSome ↔
    form.scriptClass ∉ [.nonStandard, .nullData, .pubKey]
  bounds : ∀ n addresses, output.requiredSignatures = some n → output.addresses = some addresses →
    1 ≤ n.toNat ∧ n.toNat ≤ addresses.length ∧ addresses.length ≤ 16
  address_iff : ∀ address, alone.address = some address ↔
    form.scriptClass ≠ .multiSig ∧ output.addresses = some [address]

theorem showsDestinations_iff {form : ScriptForm} (h : form.InBounds) :
    showsDestinations form ↔ form.scriptClass ∉ [.nonStandard, .nullData, .pubKey] := by
  rw [showsDestinations, Bool.and_eq_true, ScriptForm.isResolved_iff h]
  simp [and_assoc]

theorem bounds_of_shown {encoder : AddressEncoder} {s : Script} {n : UInt64}
    {addresses : List String} (hn : (ScriptPubKey.ofScript encoder s).requiredSignatures = some n)
    (haddresses : (ScriptPubKey.ofScript encoder s).addresses = some addresses) :
    1 ≤ n.toNat ∧ n.toNat ≤ addresses.length ∧ addresses.length ≤ 16 := by
  obtain ⟨hshown, hn⟩ := Option.ite_none_right_eq_some.mp hn
  obtain ⟨-, haddresses⟩ := Option.ite_none_right_eq_some.mp haddresses
  cases hn
  cases haddresses
  rw [showsDestinations, Bool.and_eq_true] at hshown
  obtain ⟨hone, hle, hsixteen⟩ :=
    ScriptForm.requiredSignatures_bounds (ScriptForm.inBounds_ofScript s) hshown.1
  rw [List.length_map, UInt64.toNat_ofNat_of_lt' (by simp only [UInt64.size]; omega)]
  exact ⟨hone, hle, hsixteen⟩

/-- A single address is shown exactly where the list of addresses has one entry and the form is no
multisig. -/
theorem address_eq_some_iff (encoder : AddressEncoder) (s : Script) (address : String) :
    (DecodedScript.ofScript encoder s).address = some address ↔
      (ofScript s).scriptClass ≠ .multiSig ∧
        (ScriptPubKey.ofScript encoder s).addresses = some [address] := by
  simp only [DecodedScript.ofScript, ScriptPubKey.ofScript, showsDestinations]
  cases hform : ofScript s <;>
    simp [ScriptForm.scriptClass, ScriptForm.destination?, ScriptForm.destinations,
      ScriptForm.isResolved]

/-- **The two documents of a script agree.**  They show the same texts, and the one destination of a
script that is no multisig is the list of its destinations. -/
theorem script_documents_agree :
    (∀ (encoder : AddressEncoder) (s : Script),
      AgreeOn (ofScript s) (DecodedScript.ofScript encoder s) (ScriptPubKey.ofScript encoder s)) ∧
    (∀ (s : Script) (c : ScriptClass), s.FitsTemplate c →
      (ofScript s).scriptClass = c ∧ (ofScript s).destination?.isSome) := by
  refine ⟨?agree, ?template⟩
  case agree =>
    intro encoder s
    have hbounds := ScriptForm.inBounds_ofScript s
    have hshown := showsDestinations_iff hbounds
    exact {
      texts := ⟨rfl, rfl, rfl⟩
      class_name := rfl
      destination_iff := fun d => ScriptForm.destination?_eq_some_iff
      resolved_iff := ScriptForm.isResolved_iff hbounds
      unresolved := ScriptForm.eq_zero_of_not_isResolved hbounds
      requiredSignatures_iff := by
        rw [← hshown]
        simp [ScriptPubKey.ofScript]
      addresses_iff := by
        rw [← hshown]
        simp [ScriptPubKey.ofScript]
      bounds := fun n addresses => bounds_of_shown
      address_iff := address_eq_some_iff encoder s }
  case template =>
    intro s c h
    exact h.resolved

/-- A multisig script of one key lists an address but shows none where it stands alone; and a hash
behind a version of zero. -/
theorem script_documents_agree_samples :
    (ScriptPubKey.ofScript (fun _ => "address")
        ([0x51, 0x21] ++ 0x02 :: List.replicate 32 0x11 ++ [0x51, 0xae])).addresses =
      some ["address"] ∧
    (DecodedScript.ofScript (fun _ => "address")
        ([0x51, 0x21] ++ 0x02 :: List.replicate 32 0x11 ++ [0x51, 0xae])).address ≠
      some "address" ∧
    Script.FitsTemplate ([0x00, 0x14] ++ List.replicate 20 0xab) .witnessKeyHash ∧
    (ofScript ([0x00, 0x14] ++ List.replicate 20 0xab)).scriptClass = .witnessKeyHash := by
  have hgrammar : Script.IsMultiSig
      ([0x51, 0x21] ++ 0x02 :: List.replicate 32 0x11 ++ [0x51, 0xae])
      1 [0x02 :: List.replicate 32 0x11] :=
    .oneKey (0x02 :: List.replicate 32 0x11) (by decide)
  have hform := ScriptForm.ofScript_eq_multiSig_iff.mpr hgrammar
  have hfits : Script.FitsTemplate ([0x00, 0x14] ++ List.replicate 20 0xab) .witnessKeyHash :=
    .witnessKeyHash rfl rfl rfl
  refine ⟨?_, ?_, hfits, (script_documents_agree.2 _ _ hfits).1⟩
  · rw [ScriptPubKey.ofScript, hform]
    rfl
  · intro haddress
    have hclass := ((script_documents_agree.1 _ _).address_iff "address").mp haddress
    rw [hform] at hclass
    exact hclass.1 rfl

end Document

end UtxoAssets
