import UtxoAssets.Proofs.Script.MultiSig

/-!
# The templates exclude one another

* `Template.form?` — what each of the six recognisers makes of a script.
* `Template.ofScript_of_form?` — a recogniser that accepts a script gives the script its form,
  although others are asked before it.
* `Template.template_of_form?` — a form tells which recogniser has given it.
* `Template.mutually_exclusive` — so no two of them accept one script, and the order in which they
  are asked does not matter.
-/

set_option autoImplicit false

namespace UtxoAssets

variable {s : Script} {form : ScriptForm}

/-- The recognisers, without regard to the order in which they are asked. -/
inductive Template where
  | scriptHash
  | witnessProgram
  | nullData
  | pubKey
  | pubKeyHash
  | multiSig
  deriving DecidableEq

namespace Template

/-- The form that the recogniser of a template gives to a script, if it accepts the script. -/
def form? : Template → Script → Option ScriptForm
  | scriptHash, s => (payToScriptHash? s).map .scriptHash
  | witnessProgram, s => (witnessProgram? s).map fun found => .ofWitnessProgram found.1 found.2
  | nullData, s => if isNullData s then some .nullData else none
  | pubKey, s => (payToPubKey? s).map .pubKey
  | pubKeyHash, s => (payToPubKeyHash? s).map .pubKeyHash
  | multiSig, s => (multiSig? s).map fun found => .multiSig found.1 found.2

/-- The recogniser of the template accepts the script. -/
def Accepts (t : Template) (s : Script) : Prop := (t.form? s).isSome

/-- The form that the first recogniser of a list gives, of those that accept the script. -/
def firstForm (order : List Template) (s : Script) : ScriptForm :=
  (order.findSome? fun t => t.form? s).getD .nonStandard

end Template

/-- The template whose recogniser gives forms of a class.  Of the nonstandard scripts, witness
programs of version zero with an unassigned length are given that form by a recogniser. -/
def ScriptClass.template : ScriptClass → Template
  | .scriptHash => .scriptHash
  | .nullData => .nullData
  | .pubKey => .pubKey
  | .pubKeyHash => .pubKeyHash
  | .multiSig => .multiSig
  | .nonStandard | .witnessKeyHash | .witnessScriptHash | .taproot | .witnessUnknown =>
    .witnessProgram

namespace ScriptForm

theorem template_ofWitnessProgram (version : Nat) (program : Bytes) :
    (ofWitnessProgram version program).scriptClass.template = .witnessProgram := by
  have hall : ∀ c ∈ [ScriptClass.witnessKeyHash, .witnessScriptHash, .nonStandard, .taproot,
      .witnessUnknown], c.template = .witnessProgram := by decide
  exact hall _ (scriptClass_ofWitnessProgram_mem version program)

theorem ofScript_of_isNullData (h : isNullData s) : ofScript s = .nullData := by
  have hhead := head?_of_isNullData h
  have hhash : payToScriptHash? s = none := payToScriptHash?_eq_none (by rw [hhead]; decide)
  have hwitness : witnessProgram? s = none := witnessProgram?_eq_none (by rw [hhead]; decide)
  simp [ofScript, hhash, hwitness, h]

end ScriptForm

namespace Template

variable {t : Template}

/-! ## What an accepting recogniser says -/

/-- A template that finds a form makes it the form of the script, whatever stands before it in the
chain. -/
theorem ofScript_of_form? (h : t.form? s = some form) : ScriptForm.ofScript s = form := by
  cases t with
  | scriptHash =>
    obtain ⟨scriptId, hs, rfl⟩ := Option.map_eq_some_iff.mp h
    exact ScriptForm.ofScript_of_payToScriptHash? hs
  | witnessProgram =>
    obtain ⟨⟨version, program⟩, hs, rfl⟩ := Option.map_eq_some_iff.mp h
    exact ScriptForm.ofScript_of_witnessProgram? hs
  | nullData =>
    obtain ⟨hs, ⟨⟩⟩ := Option.ite_none_right_eq_some.mp h
    exact ScriptForm.ofScript_of_isNullData hs
  | pubKey =>
    obtain ⟨key, hs, rfl⟩ := Option.map_eq_some_iff.mp h
    exact ScriptForm.ofScript_of_payToPubKey? hs
  | pubKeyHash =>
    obtain ⟨keyId, hs, rfl⟩ := Option.map_eq_some_iff.mp h
    exact ScriptForm.ofScript_of_payToPubKeyHash? hs
  | multiSig =>
    obtain ⟨⟨required, keys⟩, hs, rfl⟩ := Option.map_eq_some_iff.mp h
    exact ScriptForm.ofScript_of_multiSig? hs

/-- The class of a form tells the template that has found it. -/
theorem template_of_form? (h : t.form? s = some form) : form.scriptClass.template = t := by
  cases t with
  | witnessProgram =>
    obtain ⟨⟨version, program⟩, -, rfl⟩ := Option.map_eq_some_iff.mp h
    exact ScriptForm.template_ofWitnessProgram version program
  | nullData =>
    obtain ⟨-, ⟨⟩⟩ := Option.ite_none_right_eq_some.mp h
    rfl
  | _ =>
    obtain ⟨_, -, rfl⟩ := Option.map_eq_some_iff.mp h
    rfl

theorem ofScript_eq_nonStandard (h : ∀ t : Template, t.form? s = none) :
    ScriptForm.ofScript s = .nonStandard := by
  have hform := ScriptForm.recognisedAs_ofScript s
  generalize ScriptForm.ofScript s = form at hform
  cases hform with
  | scriptHash hs => simpa [form?, hs] using h .scriptHash
  | witnessProgram hs => simpa [form?, hs] using h .witnessProgram
  | nullData hs => simpa [form?, hs] using h .nullData
  | pubKey hs => simpa [form?, hs] using h .pubKey
  | pubKeyHash hs => simpa [form?, hs] using h .pubKeyHash
  | multiSig hs => simpa [form?, hs] using h .multiSig
  | nonStandard => rfl

/-! ## Any order -/

/-- No script is accepted by two templates. -/
theorem eq_of_accepts {t u : Template} (ht : t.Accepts s) (hu : u.Accepts s) : t = u := by
  obtain ⟨form, hform⟩ := Option.isSome_iff_exists.mp ht
  obtain ⟨form', hform'⟩ := Option.isSome_iff_exists.mp hu
  calc t
    _ = form.scriptClass.template := (template_of_form? hform).symm
    _ = (ScriptForm.ofScript s).scriptClass.template := by rw [ofScript_of_form? hform]
    _ = form'.scriptClass.template := by rw [ofScript_of_form? hform']
    _ = u := template_of_form? hform'

theorem firstForm_eq_ofScript {order : List Template} (h : ∀ t, t ∈ order) (s : Script) :
    firstForm order s = ScriptForm.ofScript s := by
  unfold firstForm
  cases hfound : order.findSome? fun t => t.form? s with
  | some form =>
    obtain ⟨t, -, hform⟩ := List.exists_of_findSome?_eq_some hfound
    exact (ofScript_of_form? hform).symm
  | none =>
    rw [List.findSome?_eq_none_iff] at hfound
    exact (ofScript_eq_nonStandard fun t => hfound t (h t)).symm

/-- **The templates exclude one another.**  At most one of the six recognisers accepts a script, so
its form is the one that they give in any order in which all of them are asked. -/
theorem mutually_exclusive :
    (∀ (s : Script) (t u : Template), t.Accepts s → u.Accepts s → t = u) ∧
    (∀ (order : List Template), (∀ t, t ∈ order) →
      ∀ s : Script, firstForm order s = ScriptForm.ofScript s) := by
  refine ⟨?accepts, ?order⟩
  case accepts =>
    intro s t u
    exact eq_of_accepts
  case order =>
    intro order h
    exact firstForm_eq_ofScript h

/-- A witness program of 33 bytes, and the multisig script that goes on where it ends. -/
theorem mutually_exclusive_same_start :
    witnessProgram.Accepts ([0x51, 0x21] ++ 0x02 :: List.replicate 32 0x11) ∧
    ¬ multiSig.Accepts ([0x51, 0x21] ++ 0x02 :: List.replicate 32 0x11) ∧
    firstForm [multiSig, pubKeyHash, pubKey, nullData, witnessProgram, scriptHash]
        ([0x51, 0x21] ++ 0x02 :: List.replicate 32 0x11) =
      .witnessUnknown 1 (0x02 :: List.replicate 32 0x11) ∧
    firstForm [multiSig, pubKeyHash, pubKey, nullData, witnessProgram, scriptHash]
        ([0x51, 0x21] ++ 0x02 :: List.replicate 32 0x11 ++ [0x51, 0xae]) =
      .multiSig 1 [0x02 :: List.replicate 32 0x11] := by
  have hwitness : witnessProgram.Accepts ([0x51, 0x21] ++ 0x02 :: List.replicate 32 0x11) := rfl
  have hall : ∀ t, t ∈ [multiSig, pubKeyHash, pubKey, nullData, witnessProgram, scriptHash] := by
    intro t
    cases t <;> decide
  have hgrammar : Script.IsMultiSig
      ([0x51, 0x21] ++ 0x02 :: List.replicate 32 0x11 ++ [0x51, 0xae])
      1 [0x02 :: List.replicate 32 0x11] :=
    .oneKey (0x02 :: List.replicate 32 0x11) (by decide)
  refine ⟨hwitness, ?_, ?_, ?_⟩
  · intro hmultiSig
    exact absurd (mutually_exclusive.1 _ _ _ hwitness hmultiSig) (by decide)
  · rw [mutually_exclusive.2 _ hall]
    rfl
  · rw [mutually_exclusive.2 _ hall]
    exact ScriptForm.ofScript_eq_multiSig_iff.mpr hgrammar

end Template

end UtxoAssets
