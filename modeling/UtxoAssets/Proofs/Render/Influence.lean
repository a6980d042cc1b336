import UtxoAssets.Proofs.Render.Document
import UtxoAssets.Proofs.Tx.WireForms

/-!
# What can influence which part of the document

Two documents are compared key by key.

* `Json.AgreeExcept` — two values have the same members but for the given keys.
* `Document.Tx.EqualBut.agreeExcept`, `Document.Input.agreeExcept` — documents agree but for the
  keys of the fields in which they differ.
* `Document.Section.ofTx?_congr` — the section depends on version, outputs, id and allocation alone.
* `Transaction.influence_on_document` — witness stacks, the allocation and the extra payload each
  influence no more than the members that are theirs.
-/

set_option autoImplicit false

namespace UtxoAssets

open JsonForm (toJson)

/-! ## Agreement of members -/

namespace Json

/-- The values have the same members under all other keys. -/
def AgreeExcept (keys : List String) (v w : Json) : Prop :=
  ∀ key ∉ keys, v.member? key = w.member? key

namespace AgreeExcept

variable {α : Type} [JsonForm α] {keys : List String} {key : String}
  {front front' rest rest' : List (String × Json)}

theorem refl (v : Json) : AgreeExcept keys v v := fun _ _ => rfl

theorem append (hfront : AgreeExcept keys (.object front) (.object front'))
    (hrest : AgreeExcept keys (.object rest) (.object rest')) :
    AgreeExcept keys (.object (front ++ rest)) (.object (front' ++ rest')) := by
  intro key hkey
  have hf : lookup? key front = lookup? key front' := hfront key hkey
  have hr : lookup? key rest = lookup? key rest' := hrest key hkey
  rw [member?, member?, lookup?_append, lookup?_append, hf, hr]

theorem whenSome {x y : Option α} (h : key ∈ keys ∨ x = y) :
    AgreeExcept keys (.object (whenSome key x)) (.object (whenSome key y)) := by
  intro key' hkey'
  rcases h with hmem | rfl
  · have hne : key ≠ key' := fun heq => hkey' (heq ▸ hmem)
    rw [member?, member?, lookup?_whenSome, lookup?_whenSome, if_neg hne, if_neg hne]
  · rfl

theorem always {x y : α} (h : key ∈ keys ∨ x = y) :
    AgreeExcept keys (.object (always key x)) (.object (always key y)) := by
  have hfields : key ∈ keys ∨ some x = some y := h.imp_right (congrArg some)
  exact whenSome hfields

end AgreeExcept

end Json

open Json (AgreeExcept)

namespace Document

theorem Input.agreeExcept {keys : List String} {i j : Input} (hsource : i.source = j.source)
    (hwitness : "txinwitness" ∈ keys ∨ i.witness = j.witness)
    (hsequence : "sequence" ∈ keys ∨ i.sequence = j.sequence) :
    AgreeExcept keys (toJson i) (toJson j) := by
  refine .append (.append ?source (.whenSome hwitness)) (.always hsequence)
  rw [hsource]
  exact .refl _

/-- Each field is either equal or shown under one of the keys. -/
structure Tx.EqualBut (keys : List String) (d e : Tx) : Prop where
  txid : "txid" ∈ keys ∨ d.txid = e.txid
  witnessHash : "hash" ∈ keys ∨ d.witnessHash = e.witnessHash
  version : "version" ∈ keys ∨ d.version = e.version
  size : "size" ∈ keys ∨ d.size = e.size
  virtualSize : "vsize" ∈ keys ∨ d.virtualSize = e.virtualSize
  weight : "weight" ∈ keys ∨ d.weight = e.weight
  lockTime : "locktime" ∈ keys ∨ d.lockTime = e.lockTime
  inputs : "vin" ∈ keys ∨ d.inputs = e.inputs
  outputs : "vout" ∈ keys ∨ d.outputs = e.outputs
  masternode : d.masternode = e.masternode
  assets : "systx" ∈ keys ∨ d.assets = e.assets
  blockHash : "blockhash" ∈ keys ∨ d.blockHash = e.blockHash
  wireHex : "hex" ∈ keys ∨ d.wireHex = e.wireHex

/-- Documents with equal fields, but for those of some keys, agree under all other keys. -/
theorem Tx.EqualBut.agreeExcept {keys : List String} {d e : Tx} (h : EqualBut keys d e) :
    AgreeExcept keys (toJson d) (toJson e) := by
  have hmasternode : AgreeExcept keys (.object d.masternode.members)
      (.object e.masternode.members) := by
    rw [h.masternode]
    exact .refl _
  refine .append (.append (.append (.append (.append (.append (.append (.append (.append
    (.append (.append (.append ?_ ?_) ?_) ?_) ?_) ?_) ?_) ?_) ?_) hmasternode) ?_) ?_) ?_
  · exact .always h.txid
  · exact .always h.witnessHash
  · exact .always h.version
  · exact .always h.size
  · exact .always h.virtualSize
  · exact .always h.weight
  · exact .always h.lockTime
  · exact .always h.inputs
  · exact .always h.outputs
  · exact .whenSome h.assets
  · exact .whenSome h.blockHash
  · exact .whenSome h.wireHex

theorem Tx.member?_inputs (d : Tx) :
    Json.member? "vin" (toJson d) = some (.list (d.inputs.map toJson)) := by
  simp only [toJson, Json.member?, Json.lookup?_append, Json.lookup?_always]
  rfl

theorem Tx.EqualBut.eq {d e : Tx} (h : EqualBut [] d e) : d = e := by
  have hequal : ∀ {key : String} {p : Prop}, key ∈ ([] : List String) ∨ p → p :=
    fun hp => hp.resolve_left (List.not_mem_nil)
  cases d
  cases e
  rw [Tx.mk.injEq]
  exact ⟨hequal h.txid, hequal h.witnessHash, hequal h.version, hequal h.size,
    hequal h.virtualSize, hequal h.weight, hequal h.lockTime, hequal h.inputs, hequal h.outputs,
    h.masternode, hequal h.assets, hequal h.blockHash, hequal h.wireHex⟩

/-! ## Sections -/

section Pair

variable {encoder : AddressEncoder} {t₁ t₂ : Transaction}

/-- Of a transaction the section shows the version, the payload, the id and the allocation. -/
theorem Section.ofTx?_congr (hversion : t₁.version = t₂.version)
    (houtputs : t₁.outputs = t₂.outputs) (hid : t₁.id = t₂.id)
    (hallocation : t₁.allocation = t₂.allocation) (blockHash : Option Hash256) :
    Section.ofTx? encoder t₁ blockHash = Section.ofTx? encoder t₂ blockHash := by
  have hkind : t₁.kind = t₂.kind := congrArg TxKind.ofVersion hversion
  have hpayload : assetPayload t₁ = assetPayload t₂ := by
    rw [assetPayload, assetPayload, houtputs]
  have hamounts : allocationsOf t₁ = allocationsOf t₂ := by
    rw [allocationsOf, allocationsOf, hallocation]
  have hheading : ∀ blockHash, Heading.ofTx t₁ blockHash = Heading.ofTx t₂ blockHash := by
    intro blockHash
    rw [Heading.ofTx, Heading.ofTx, hkind, hid]
  have hroute : ∀ blockHash route,
      Section.ofRoute encoder t₁ blockHash route = Section.ofRoute encoder t₂ blockHash route := by
    intro blockHash route
    cases route <;> simp only [Section.ofRoute, MintSection.ofPayload, AssetSection.ofPayload,
      AllocationSection.ofTx, burnDestination, hkind, hpayload, hamounts, hheading]
  rw [Section.ofTx?, Section.ofTx?, hroute, hkind]

end Pair

end Document

/-! ## Transactions without a part -/

namespace Transaction

/-- The transaction that assigns no amounts of assets. -/
def withoutAllocation (tx : Transaction) : Transaction := { tx with allocation := [] }

/-- The transaction with no extra payload. -/
def withoutExtraPayload (tx : Transaction) : Transaction := { tx with extraPayload := [] }

theorem isCoinbase_bare (tx : Transaction) : tx.bare.isCoinbase = tx.isCoinbase := by
  obtain ⟨_, inputs, _, _, _, _⟩ := tx
  match inputs with
  | [] => rfl
  | [_] => rfl
  | _ :: _ :: _ => rfl

/-- The extra payload is written for masternode transactions only. -/
theorem encode_withoutExtraPayload {tx : Transaction} (h : tx.kind.isMasternode = false)
    (form : WireForm) : tx.withoutExtraPayload.encode form = tx.encode form := by
  have hextra : tx.encodeExtra = [] := by rw [encodeExtra, h]; rfl
  have hwithout : tx.withoutExtraPayload.encodeExtra = [] := by
    rw [encodeExtra, show tx.withoutExtraPayload.kind = tx.kind from rfl, h]
    rfl
  rw [encode, encode, hextra, hwithout]
  rfl

/-- The allocation is part of neither form on the wire. -/
theorem encode_withoutAllocation (tx : Transaction) (form : WireForm) :
    tx.withoutAllocation.encode form = tx.encode form := rfl

end Transaction

/-! ## Two documents -/

namespace Document

/-- The keys of the members that witnesses may influence. -/
def Config.witnessKeys (c : Config) : List String :=
  ["hash", "size", "vsize", "weight", "vin"]
    ++ if c.includeHex && c.hexIncludeWitness then ["hex"] else []

theorem Config.witnessKeys_subset (c : Config) :
    c.witnessKeys ⊆ ["hash", "size", "vsize", "weight", "vin", "hex"] := by
  unfold witnessKeys
  split <;> decide

section Pair

variable {encoder : AddressEncoder} {config : Config} {blockHash : Option Hash256}
  {t₁ t₂ : Transaction} {d₁ d₂ : Tx}

/-- Documents of transactions with one stripped form differ at most where the full form is seen and
in their sections. -/
theorem Tx.IsOf.equalBut {keys : List String} (h₁ : d₁.IsOf encoder config t₁ blockHash)
    (h₂ : d₂.IsOf encoder config t₂ blockHash) (hversion : t₁.version = t₂.version)
    (hlockTime : t₁.lockTime = t₂.lockTime) (houtputs : t₁.outputs = t₂.outputs)
    (hstripped : t₁.encode .stripped = t₂.encode .stripped)
    (hfull : config.witnessKeys ⊆ keys ∨
      t₁.inputs = t₂.inputs ∧ t₁.encode .full = t₂.encode .full)
    (hassets : "systx" ∈ keys ∨ d₁.assets = d₂.assets) : EqualBut keys d₁ d₂ := by
  have hid : t₁.id = t₂.id := by rw [Transaction.id, Transaction.id, hstripped]
  have hwitnessKeys : ∀ key ∈ ["hash", "size", "vsize", "weight", "vin"],
      config.witnessKeys ⊆ keys → key ∈ keys :=
    fun key hkey hkeys => hkeys (List.mem_append_left _ hkey)
  have hsize : t₁.encode .full = t₂.encode .full → t₁.size = t₂.size := congrArg List.length
  have hweight : t₁.encode .full = t₂.encode .full → t₁.weight = t₂.weight := by
    intro hencode
    rw [Transaction.weight, Transaction.weight, Transaction.strippedSize,
      Transaction.strippedSize, hstripped, hsize hencode]
  constructor
  case txid => exact .inr (by rw [h₁.txid, h₂.txid, hid])
  case witnessHash =>
    refine hfull.imp (hwitnessKeys "hash" (by simp)) fun hsame => ?_
    rw [h₁.witnessHash, h₂.witnessHash, Transaction.witnessHash, Transaction.witnessHash, hsame.2]
  case version => exact .inr (by rw [h₁.version, h₂.version, hversion])
  case size =>
    refine hfull.imp (hwitnessKeys "size" (by simp)) fun hsame => ?_
    rw [h₁.size, h₂.size, hsize hsame.2]
  case virtualSize =>
    refine hfull.imp (hwitnessKeys "vsize" (by simp)) fun hsame => ?_
    rw [h₁.virtualSize, h₂.virtualSize, Transaction.virtualSize, Transaction.virtualSize,
      hweight hsame.2]
  case weight =>
    refine hfull.imp (hwitnessKeys "weight" (by simp)) fun hsame => ?_
    rw [h₁.weight, h₂.weight, hweight hsame.2]
  case lockTime => exact .inr (by rw [h₁.lockTime, h₂.lockTime, hlockTime])
  case inputs =>
    refine hfull.imp (hwitnessKeys "vin" (by simp)) fun hsame => ?_
    rw [h₁.inputs, h₂.inputs, Transaction.isCoinbase, Transaction.isCoinbase, hsame.1]
  case outputs => exact .inr (by rw [h₁.outputs, h₂.outputs, houtputs])
  case masternode => rw [h₁.masternode, h₂.masternode]
  case assets => exact hassets
  case blockHash => exact .inr (by rw [h₁.blockHash, h₂.blockHash])
  case wireHex =>
    rw [h₁.wireHex, h₂.wireHex, Config.wireForm]
    by_cases hshown : config.includeHex = true
    · by_cases hwitness : config.hexIncludeWitness = true
      · have hhex : "hex" ∈ config.witnessKeys := by simp [Config.witnessKeys, hshown, hwitness]
        refine hfull.imp (fun hkeys => hkeys hhex) fun hsame => ?_
        rw [if_pos hwitness, hsame.2]
      · exact .inr (by rw [if_neg hwitness, hstripped])
    · exact .inr (by rw [if_neg hshown, if_neg hshown])

/-- The asset section is made from version, outputs, allocation and id alone. -/
theorem Tx.IsOf.assets_eq (h₁ : d₁.IsOf encoder config t₁ blockHash)
    (h₂ : d₂.IsOf encoder config t₂ blockHash) (hversion : t₁.version = t₂.version)
    (houtputs : t₁.outputs = t₂.outputs) (hid : t₁.id = t₂.id)
    (hallocation : t₁.allocation = t₂.allocation) : d₁.assets = d₂.assets := by
  have hsection := h₁.assets
  rw [Section.ofTx?_congr hversion houtputs hid hallocation, h₂.assets] at hsection
  exact (Except.ok.inj hsection).symm

/-- Transactions that differ in witnesses only have documents that differ in the fields of the
witness keys. -/
theorem Tx.IsOf.equalBut_of_bare_eq (h₁ : d₁.IsOf encoder config t₁ blockHash)
    (h₂ : d₂.IsOf encoder config t₂ blockHash) (h : t₁.bare = t₂.bare) :
    EqualBut config.witnessKeys d₁ d₂ := by
  obtain ⟨hversion, -, houtputs, hlockTime, hallocation, -⟩ := Transaction.mk.inj h
  have hstripped : t₁.encode .stripped = t₂.encode .stripped := by
    rw [← t₁.encode_stripped_bare, h, t₂.encode_stripped_bare]
  have hid : t₁.id = t₂.id := by rw [Transaction.id, Transaction.id, hstripped]
  have hassets := h₁.assets_eq h₂ hversion houtputs hid hallocation
  exact h₁.equalBut h₂ hversion hlockTime houtputs hstripped (.inl (List.Subset.refl _))
    (.inr hassets)

/-- Inputs that differ in their witnesses have documents that differ there. -/
theorem Tx.IsOf.inputs_agreeExcept (h₁ : d₁.IsOf encoder config t₁ blockHash)
    (h₂ : d₂.IsOf encoder config t₂ blockHash) (h : t₁.bare = t₂.bare) :
    List.Forall₂ (fun i j => AgreeExcept ["txinwitness"] (toJson i) (toJson j))
      d₁.inputs d₂.inputs := by
  obtain ⟨-, hbare, -⟩ := Transaction.mk.inj h
  have hcoinbase : t₁.isCoinbase = t₂.isCoinbase := by
    rw [← t₁.isCoinbase_bare, h, t₂.isCoinbase_bare]
  have hpairs : List.Forall₂ (fun i j => TxInput.bare i = TxInput.bare j) t₁.inputs t₂.inputs := by
    rw [← List.forall₂_eq_eq_eq] at hbare
    rwa [List.forall₂_map_left_iff, List.forall₂_map_right_iff] at hbare
  rw [h₁.inputs, h₂.inputs, hcoinbase, List.forall₂_map_left_iff, List.forall₂_map_right_iff]
  refine hpairs.imp fun i j hij => Input.agreeExcept ?_ (.inl (by simp)) (.inr ?_)
  · obtain ⟨houtPoint, hscript, -⟩ := TxInput.mk.inj hij
    simp only [Input.ofTxInput, houtPoint, hscript]
  · obtain ⟨-, -, hsequence, -⟩ := TxInput.mk.inj hij
    exact hsequence

end Pair

end Document

open Json (member?) in
/-- **What can influence which part of the document.** -/
theorem Transaction.influence_on_document (encoder : AddressEncoder) (config : Document.Config)
    (blockHash : Option Hash256) (t₁ t₂ : Transaction) (h₁ : t₁.TotalsFit) (h₂ : t₂.TotalsFit) :
    ∃ r₁ r₂ : Rendering,
      (⟨encoder, {}, config⟩ : Renderer).render t₁ blockHash = .ok r₁ ∧
      (⟨encoder, {}, config⟩ : Renderer).render t₂ blockHash = .ok r₂ ∧
      (t₁.bare = t₂.bare →
        AgreeExcept config.witnessKeys (toJson r₁.document) (toJson r₂.document) ∧
        r₁.document.txid = r₂.document.txid ∧ r₁.document.assets = r₂.document.assets ∧
        ∃ vin₁ vin₂, member? "vin" (toJson r₁.document) = some (.list vin₁) ∧
          member? "vin" (toJson r₂.document) = some (.list vin₂) ∧
          List.Forall₂ (AgreeExcept ["txinwitness"]) vin₁ vin₂) ∧
      (t₁.withoutAllocation = t₂.withoutAllocation →
        AgreeExcept ["systx"] (toJson r₁.document) (toJson r₂.document)) ∧
      (t₁.kind.isMasternode = false → t₁.withoutExtraPayload = t₂.withoutExtraPayload →
        r₁.document = r₂.document) := by
  obtain ⟨r₁, hr₁, hd₁⟩ := Renderer.exists_render encoder config blockHash h₁
  obtain ⟨r₂, hr₂, hd₂⟩ := Renderer.exists_render encoder config blockHash h₂
  refine ⟨r₁, r₂, hr₁, hr₂, ?witnesses, ?allocation, ?extraPayload⟩
  case witnesses =>
    intro hbare
    have hequal := hd₁.equalBut_of_bare_eq hd₂ hbare
    have hkeys := config.witnessKeys_subset
    refine ⟨hequal.agreeExcept, hequal.txid.resolve_left fun hmem => ?txid,
      hequal.assets.resolve_left fun hmem => ?systx, r₁.document.inputs.map toJson,
      r₂.document.inputs.map toJson, r₁.document.member?_inputs, r₂.document.member?_inputs, ?vin⟩
    case txid => exact absurd (hkeys hmem) (by decide)
    case systx => exact absurd (hkeys hmem) (by decide)
    case vin =>
      rw [List.forall₂_map_left_iff, List.forall₂_map_right_iff]
      exact hd₁.inputs_agreeExcept hd₂ hbare
  case allocation =>
    intro hsame
    obtain ⟨hversion, hinputs, houtputs, hlockTime, -, -⟩ := Transaction.mk.inj hsame
    have hencode : ∀ form, t₁.encode form = t₂.encode form := by
      intro form
      rw [← t₁.encode_withoutAllocation, hsame, t₂.encode_withoutAllocation]
    have hequal : Document.Tx.EqualBut ["systx"] r₁.document r₂.document :=
      hd₁.equalBut hd₂ hversion hlockTime houtputs (hencode .stripped)
        (.inr ⟨hinputs, hencode .full⟩) (.inl (List.mem_singleton_self _))
    exact hequal.agreeExcept
  case extraPayload =>
    intro hkind hsame
    obtain ⟨hversion, hinputs, houtputs, hlockTime, hallocation, -⟩ := Transaction.mk.inj hsame
    have hkind₂ : t₂.kind.isMasternode = false := by
      rw [← hkind, kind, kind, hversion]
    have hencode : ∀ form, t₁.encode form = t₂.encode form := by
      intro form
      rw [← encode_withoutExtraPayload hkind, hsame, encode_withoutExtraPayload hkind₂]
    have hid : t₁.id = t₂.id := by rw [id, id, hencode]
    have hassets := hd₁.assets_eq hd₂ hversion houtputs hid hallocation
    have hequal : Document.Tx.EqualBut [] r₁.document r₂.document :=
      hd₁.equalBut hd₂ hversion hlockTime houtputs (hencode .stripped)
        (.inr ⟨hinputs, hencode .full⟩) (.inr hassets)
    exact hequal.eq

/-- A witness more, an allocation less and another extra payload. -/
theorem Transaction.influence_on_document_samples :
    ((sample [[0xaa]] []).TotalsFit ∧ (sample [] []).TotalsFit ∧
      ∃ r₁ r₂ : Rendering,
        (⟨fun _ => "", {}, { includeHex := true }⟩ : Renderer).render (sample [[0xaa]] []) none =
          .ok r₁ ∧
        (⟨fun _ => "", {}, { includeHex := true }⟩ : Renderer).render (sample [] []) none = .ok r₂ ∧
        AgreeExcept ["hash", "size", "vsize", "weight", "vin", "hex"] (toJson r₁.document)
          (toJson r₂.document)) ∧
    (∃ r₁ r₂ : Rendering,
      (⟨fun _ => "", {}, {}⟩ : Renderer).render (pushing 132 ⟨0x01, [], [0xaa]⟩) none = .ok r₁ ∧
      (⟨fun _ => "", {}, {}⟩ : Renderer).render
        (pushing 132 ⟨0x01, [], [0xaa]⟩).withoutAllocation none = .ok r₂ ∧
      AgreeExcept ["systx"] (toJson r₁.document) (toJson r₂.document)) ∧
    ∃ r₁ r₂ : Rendering,
      (⟨fun _ => "", {}, {}⟩ : Renderer).render (sample [] []) none = .ok r₁ ∧
      (⟨fun _ => "", {}, {}⟩ : Renderer).render (sample [] [0x01]) none = .ok r₂ ∧
      r₁.document = r₂.document := by
  have hsample : ∀ stack payload, (sample stack payload).TotalsFit := by
    intro stack payload g hg
    cases hg
  refine ⟨⟨hsample _ _, hsample _ _, ?witnesses⟩, ?allocation, ?extraPayload⟩
  case witnesses =>
    obtain ⟨r₁, r₂, hr₁, hr₂, hwitnesses, -⟩ := influence_on_document (fun _ => "")
      { includeHex := true } none _ _ (hsample [[0xaa]] []) (hsample [] [])
    obtain ⟨hagree, -⟩ := hwitnesses rfl
    exact ⟨r₁, r₂, hr₁, hr₂, hagree⟩
  case allocation =>
    have hpushing := totalsFit_pushing 132 ⟨0x01, [], [0xaa]⟩
    have hwithout : (pushing 132 ⟨0x01, [], [0xaa]⟩).withoutAllocation.TotalsFit := by
      intro g hg
      cases hg
    obtain ⟨r₁, r₂, hr₁, hr₂, -, hallocation, -⟩ :=
      influence_on_document (fun _ => "") {} none _ _ hpushing hwithout
    exact ⟨r₁, r₂, hr₁, hr₂, hallocation rfl⟩
  case extraPayload =>
    obtain ⟨r₁, r₂, hr₁, hr₂, -, -, hextra⟩ :=
      influence_on_document (fun _ => "") {} none _ _ (hsample [] []) (hsample [] [0x01])
    exact ⟨r₁, r₂, hr₁, hr₂, hextra rfl rfl⟩

end UtxoAssets
