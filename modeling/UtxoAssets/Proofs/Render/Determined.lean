import UtxoAssets.Proofs.Render.Document

/-!
# The document determines the transaction

The document hides the outpoint of a coinbase, leaves out empty witness stacks and shows the version
without a sign, but no two transactions differ in these alone.

* `Document.Input.eq_of_ofTxInput_eq` — an input is told from its document, because a coinbase
  spends the null outpoint.
* `Document.Output.ofTxOutput_injective`, `Document.AssetAllocation.shows_leftUnique` — so are an
  output and the amounts of an asset.
* `Transaction.determined_by_document` — so is the transaction, but for the allocation of one
  without a section and the extra payload.
-/

set_option autoImplicit false

namespace UtxoAssets

attribute [ext] OutPoint TxInput TxOutput AssetOutput AssetGroup

theorem eq_of_map_eq_map {α β : Type} {f g : α → β} {xs ys : List α}
    (hinj : ∀ x ∈ xs, ∀ y ∈ ys, f x = g y → x = y) (h : xs.map f = ys.map g) : xs = ys := by
  induction xs generalizing ys with
  | nil => exact (List.map_eq_nil_iff.mp h.symm).symm
  | cons x xs ih =>
    cases ys with
    | nil => cases h
    | cons y ys =>
      obtain ⟨hhead, htail⟩ := List.cons.inj h
      have hxy : x = y := hinj x List.mem_cons_self y List.mem_cons_self hhead
      have hrest : xs = ys := ih (fun x' hx' y' hy' =>
        hinj x' (List.mem_cons_of_mem x hx') y' (List.mem_cons_of_mem y hy')) htail
      rw [hxy, hrest]

theorem OutPoint.eq_null_of_isNull {o : OutPoint} (h : o.isNull) : o = null := by
  obtain ⟨txid, index⟩ := o
  simp only [isNull, Hash256.isZero, Bool.and_eq_true, beq_iff_eq] at h
  obtain ⟨rfl, rfl⟩ := h
  rfl

/-- A coinbase spends the null output, so that nothing is lost where its document does not name
it. -/
theorem Transaction.outPoint_of_isCoinbase {tx : Transaction} (h : tx.isCoinbase) :
    ∀ i ∈ tx.inputs, i.outPoint = OutPoint.null := by
  unfold isCoinbase at h
  split at h
  · rename_i input hinputs
    intro i hi
    rw [hinputs] at hi
    rw [List.mem_singleton.mp hi]
    exact OutPoint.eq_null_of_isNull h
  · cases h

namespace Document

/-! ## Inputs -/

theorem map_hex_injective {xs ys : List Bytes} (h : xs.map hex = ys.map hex) : xs = ys :=
  List.map_injective_iff.mpr (fun _ _ => hex_injective) h

/-- An input without a witness and one with an empty witness are the same input. -/
theorem Input.witness_ofTxInput (inCoinbase : Bool) (i : TxInput) :
    (Input.ofTxInput inCoinbase i).witness.getD [] = i.witness.map hex := by
  unfold ofTxInput TxInput.hasWitness
  cases i.witness with
  | nil => rfl
  | cons item items => rfl

theorem Input.spends_of_source_eq {c₁ c₂ : Bool} {i j : TxInput}
    (hi : c₁ → i.outPoint = OutPoint.null) (hj : c₂ → j.outPoint = OutPoint.null)
    (h : (Input.ofTxInput c₁ i).source = (Input.ofTxInput c₂ j).source) :
    i.outPoint = j.outPoint ∧ i.script = j.script := by
  cases c₁ with
  | true =>
    cases c₂ with
    | true =>
      have hscript : hex i.script = hex j.script := InputSource.coinbase.inj h
      exact ⟨(hi rfl).trans (hj rfl).symm, hex_injective hscript⟩
    | false => cases h
  | false =>
    cases c₂ with
    | true => cases h
    | false =>
      obtain ⟨htxid, hindex, hscriptSig⟩ := InputSource.outPoint.inj h
      have hscript : hex i.script = hex j.script := congrArg ScriptSig.hex hscriptSig
      exact ⟨OutPoint.ext htxid hindex, hex_injective hscript⟩

/-- Two inputs with one document are the same, whether or not they are shown as coinbase inputs. -/
theorem Input.eq_of_ofTxInput_eq {c₁ c₂ : Bool} {i j : TxInput}
    (hi : c₁ → i.outPoint = OutPoint.null) (hj : c₂ → j.outPoint = OutPoint.null)
    (h : Input.ofTxInput c₁ i = Input.ofTxInput c₂ j) : i = j := by
  obtain ⟨houtPoint, hscript⟩ := Input.spends_of_source_eq hi hj (congrArg Input.source h)
  have hsequence : i.sequence = j.sequence := congrArg Input.sequence h
  have hwitness : i.witness = j.witness := by
    apply map_hex_injective
    rw [← Input.witness_ofTxInput c₁ i, ← Input.witness_ofTxInput c₂ j, h]
  exact TxInput.ext houtPoint hscript hsequence hwitness

/-! ## Outputs and amounts -/

/-- The amount is shown in canonical form and the script in hex, so an output is known from its
document. -/
theorem Output.ofTxOutput_injective (encoder : AddressEncoder) (index : Nat) :
    Function.Injective (Output.ofTxOutput encoder index) := by
  intro o p h
  have hvalue : o.value = p.value := congrArg (Amount.units ∘ Output.value) h
  have hscript : hex o.script = hex p.script := congrArg (ScriptPubKey.hex ∘ Output.scriptPubKey) h
  exact TxOutput.ext hvalue (hex_injective hscript)

theorem AssetAllocation.shows_leftUnique : Relator.LeftUnique AssetAllocation.Shows := by
  intro g g' a h h'
  have hinj : Function.Injective fun o : AssetOutput =>
      (⟨o.index, o.amount⟩ : AllocationOutput) := by
    intro o p heq
    exact AssetOutput.ext (congrArg AllocationOutput.index heq)
      (congrArg AllocationOutput.amount heq)
  have hasset : g.asset = g'.asset := h.asset.symm.trans h'.asset
  have houtputs : g.outputs = g'.outputs :=
    List.map_injective_iff.mpr hinj (h.outputs.symm.trans h'.outputs)
  exact AssetGroup.ext hasset houtputs

end Document

open Document in
/-- **The document of a transaction determines it.** -/
theorem Transaction.determined_by_document (encoder : AddressEncoder) (config : Document.Config)
    (blockHash : Option Hash256) (t₁ t₂ : Transaction) (h₁ : t₁.TotalsFit) (h₂ : t₂.TotalsFit) :
    ∃ r₁ r₂ : Rendering,
      (⟨encoder, {}, config⟩ : Renderer).render t₁ blockHash = .ok r₁ ∧
      (⟨encoder, {}, config⟩ : Renderer).render t₂ blockHash = .ok r₂ ∧
      (JsonForm.toJson r₁.document = JsonForm.toJson r₂.document → r₁.document = r₂.document) ∧
      (r₁.document = r₂.document →
        t₁.version = t₂.version ∧ t₁.lockTime = t₂.lockTime ∧
        t₁.inputs = t₂.inputs ∧ t₁.outputs = t₂.outputs ∧
        (r₁.document.assets.isSome → t₁.allocation = t₂.allocation)) := by
  obtain ⟨r₁, hr₁, hd₁⟩ := Renderer.exists_render encoder config blockHash h₁
  obtain ⟨r₂, hr₂, hd₂⟩ := Renderer.exists_render encoder config blockHash h₂
  refine ⟨r₁, r₂, hr₁, hr₂, Tx.toJson_injective hd₁.masternode hd₂.masternode, fun heq => ?_⟩
  rw [heq] at hd₁ ⊢
  refine ⟨?version, hd₁.lockTime.symm.trans hd₂.lockTime, ?inputs, ?outputs, ?allocation⟩
  case version =>
    have hversion := congrArg UInt32.toInt32 (hd₁.version.symm.trans hd₂.version)
    rwa [Int32.toInt32_toUInt32, Int32.toInt32_toUInt32] at hversion
  case inputs =>
    refine eq_of_map_eq_map ?_ (hd₁.inputs.symm.trans hd₂.inputs)
    intro i hi j hj
    exact Input.eq_of_ofTxInput_eq (fun h => outPoint_of_isCoinbase h i hi)
      (fun h => outPoint_of_isCoinbase h j hj)
  case outputs =>
    have houtputs := hd₁.outputs.symm.trans hd₂.outputs
    refine List.ext_getElem? fun k => ?_
    have hk := congrArg (fun os => os[k]?) houtputs
    simp only [List.getElem?_mapIdx] at hk
    exact Option.map_injective (Output.ofTxOutput_injective encoder k) hk
  case allocation =>
    intro hsome
    obtain ⟨s, hs⟩ := Option.isSome_iff_exists.mp hsome
    have hs₁ := hd₁.assets
    have hs₂ := hd₂.assets
    rw [hs] at hs₁ hs₂
    have hof₁ := Section.isOf_of_ofRoute ((Section.ofTx?_eq_some_iff rfl).mp hs₁)
    have hof₂ := Section.isOf_of_ofRoute ((Section.ofTx?_eq_some_iff rfl).mp hs₂)
    exact List.left_unique_forall₂' AssetAllocation.shows_leftUnique hof₁.allocations
      hof₂.allocations

/-- Two transfers of an asset that differ in an extra payload, which only masternode records
show. -/
theorem Transaction.determined_by_document_send :
    let t₁ := pushing 132 ⟨0x01, [], [0xaa]⟩
    let t₂ := { t₁ with extraPayload := [0x01] }
    t₁.TotalsFit ∧ t₂.TotalsFit ∧
    ∃ r₁ r₂ : Rendering,
      (⟨fun _ => "", {}, {}⟩ : Renderer).render t₁ none = .ok r₁ ∧
      (⟨fun _ => "", {}, {}⟩ : Renderer).render t₂ none = .ok r₂ ∧
      r₁.document = r₂.document ∧ r₁.document.assets.isSome ∧
      t₁.outputs = t₂.outputs ∧ t₁.allocation = t₂.allocation := by
  intro t₁ t₂
  have h₁ : t₁.TotalsFit := totalsFit_pushing _ _
  have h₂ : t₂.TotalsFit := h₁
  obtain ⟨r₁, r₂, hr₁, hr₂, -, hdetermined⟩ :=
    determined_by_document (fun _ => "") {} none t₁ t₂ h₁ h₂
  have hrender : (⟨fun _ => "", {}, {}⟩ : Renderer).render t₁ none =
      (⟨fun _ => "", {}, {}⟩ : Renderer).render t₂ none := rfl
  have heq : r₁ = r₂ := by
    rw [hrender, hr₂] at hr₁
    exact (Except.ok.inj hr₁).symm
  have hsome : r₁.document.assets.isSome := by
    obtain ⟨amounts, hamounts⟩ := Document.exists_allocationsOf h₁
    obtain ⟨assets, hassets, rfl⟩ := Renderer.render_eq_ok_iff.mp hr₁
    rw [(Document.Section.ofTx?_eq_some_iff rfl).mpr
      (Document.Section.ofRoute_allocation hamounts)] at hassets
    cases hassets
    rfl
  obtain ⟨-, -, -, houtputs, hallocation⟩ := hdetermined (congrArg Rendering.document heq)
  exact ⟨h₁, h₂, r₁, r₂, hr₁, hr₂, congrArg Rendering.document heq, hsome, houtputs,
    hallocation hsome⟩

end UtxoAssets
