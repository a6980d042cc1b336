import UtxoAssets.Document.Tx
import UtxoAssets.Proofs.Document.Members
import UtxoAssets.Proofs.Json.Lawful

/-!
# Documents are read back

* Each type of document but `Document.Tx` is a `LawfulJsonForm`.  A section or an input is read back
  as what it was because the forms read before its own require a member that its JSON form does not
  have.
* `Tx.ofJson?_toJson` — the document of a transaction is read back if no payload member of it is
  null.
* `documents_read_back` — every document is, and so is whatever a JSON value was read as.
-/

set_option autoImplicit false

namespace UtxoAssets.Document

open Json (member? required? required?_bind required?_eq required?_eq_none optional?_bind
  optional?_bind_of_mem withDefault?_bind)
open JsonForm (toJson ofJson?)

/-! ## Scripts -/

instance : LawfulJsonForm ScriptSig where
  ofJson?_toJson d := by
    refine required?_bind d.asm ?asm (required?_bind d.hex ?hex rfl)
    all_goals simp [member?, toJson]
  toJson_ne_null d := by rintro ⟨⟩

instance : LawfulJsonForm ScriptPubKey where
  ofJson?_toJson d := by
    refine required?_bind d.asm ?asm (required?_bind d.hex ?hex
      (optional?_bind d.requiredSignatures ?requiredSignatures
      (required?_bind d.scriptClass ?scriptClass (optional?_bind d.addresses ?addresses rfl))))
    all_goals simp [member?, toJson]
  toJson_ne_null d := by rintro ⟨⟩

instance : LawfulJsonForm DecodedScript where
  ofJson?_toJson d := by
    refine required?_bind d.asm ?asm (required?_bind d.hex ?hex
      (required?_bind d.scriptClass ?scriptClass (optional?_bind d.address ?address rfl)))
    all_goals simp [member?, toJson]
  toJson_ne_null d := by rintro ⟨⟩

/-! ## Parts of a section -/

instance : LawfulJsonForm AllocationOutput where
  ofJson?_toJson d := by
    refine required?_bind d.index ?index (required?_bind d.amount ?amount rfl)
    all_goals simp [member?, toJson]
  toJson_ne_null d := by rintro ⟨⟩

instance : LawfulJsonForm AssetAllocation where
  ofJson?_toJson d := by
    refine required?_bind d.asset ?asset (required?_bind d.outputs ?outputs
      (required?_bind d.total ?total rfl))
    all_goals simp [member?, toJson]
  toJson_ne_null d := by rintro ⟨⟩

instance : LawfulJsonForm SpvProof where
  ofJson?_toJson d := by
    refine required?_bind d.transferId ?transferId (required?_bind d.txValue ?txValue
      (required?_bind d.txParentNodes ?txParentNodes (required?_bind d.txPath ?txPath
      (required?_bind d.receiptValue ?receiptValue
      (required?_bind d.receiptParentNodes ?receiptParentNodes
      (required?_bind d.blockNumber ?blockNumber rfl))))))
    all_goals simp [member?, toJson]
  toJson_ne_null d := by rintro ⟨⟩

instance : LawfulJsonForm NotaryDetails where
  ofJson?_toJson d := by
    refine required?_bind d.endpoint ?endpoint
      (required?_bind d.instantTransfers ?instantTransfers
      (required?_bind d.hdRequired ?hdRequired rfl))
    all_goals simp [member?, toJson]
  toJson_ne_null d := by rintro ⟨⟩

instance : LawfulJsonForm FeeDetails where
  ofJson?_toJson d := by
    refine required?_bind d.tiers ?tiers rfl
    simp [member?, toJson]
  toJson_ne_null d := by rintro ⟨⟩

/-- A document whose heading members are those of `h` is read with the heading `h` first. -/
theorem Heading.ofJson?_bind {β : Type} {v : Json} {f : Heading → Option β} {b : β} (h : Heading)
    (htxtype : v.member? "txtype" = some (toJson h.txtype))
    (htxid : v.member? "txid" = some (toJson h.txid))
    (hblockhash : v.member? "blockhash" = some (toJson h.blockhash)) (hf : f h = some b) :
    (Heading.ofJson? v >>= f) = some b :=
  bind_eq_some_of_eq (required?_bind h.txtype htxtype (required?_bind h.txid htxid
    (required?_bind h.blockhash hblockhash rfl))) hf

/-! ## Sections -/

instance : LawfulJsonForm MintSection where
  ofJson?_toJson d := by
    refine Heading.ofJson?_bind d.heading ?txtype ?txid ?blockhash
      (required?_bind d.spvProof ?spvProof (required?_bind d.allocations ?allocations rfl))
    all_goals simp [member?, toJson, Heading.members]
  toJson_ne_null d := by rintro ⟨⟩

instance : LawfulJsonForm AssetSection where
  ofJson?_toJson d := by
    refine Heading.ofJson?_bind d.heading ?txtype ?txid ?blockhash
      (required?_bind d.allocations ?allocations
      (optional?_bind d.symbol ?symbol
      (optional?_bind d.maxSupply ?maxSupply
      (optional?_bind d.precision ?precision
      (optional?_bind d.publicValue ?publicValue
      (optional?_bind d.contract ?contract
      (optional?_bind d.notaryAddress ?notaryAddress
      (optional?_bind d.feeAddress ?feeAddress
      (optional?_bind d.feeDetails ?feeDetails
      (optional?_bind d.notaryDetails ?notaryDetails
      (optional?_bind d.capabilityFlags ?capabilityFlags
      (optional?_bind d.balance ?balance
      (required?_bind d.updateFlags ?updateFlags rfl)))))))))))))
    all_goals simp [member?, toJson, Heading.members]
  toJson_ne_null d := by rintro ⟨⟩

instance : LawfulJsonForm AllocationSection where
  ofJson?_toJson d := by
    refine Heading.ofJson?_bind d.heading ?txtype ?txid ?blockhash
      (required?_bind d.allocations ?allocations
      (optional?_bind d.ethereumDestination ?ethereumDestination rfl))
    all_goals simp [member?, toJson, Heading.members]
  toJson_ne_null d := by rintro ⟨⟩

/-- A section without a proof is no mint section, so the untagged reading goes on to the next
form. -/
theorem MintSection.ofJson?_eq_none {v : Json} (h : v.member? "spv_proof" = none) :
    (ofJson? v : Option MintSection) = none := by
  have hproof : required? SpvProof "spv_proof" v = none := required?_eq_none h
  simp [ofJson?, hproof]

theorem AssetSection.ofJson?_eq_none {v : Json} (h : v.member? "update_flags" = none) :
    (ofJson? v : Option AssetSection) = none := by
  have hflags : required? UInt8 "update_flags" v = none := required?_eq_none h
  simp [ofJson?, hflags]

namespace Section

variable {v : Json}

theorem ofJson?_of_mint {doc : MintSection} (h : ofJson? v = some doc) :
    ofJson? v = some (Section.mint doc) := by
  unfold ofJson? instJsonFormSection
  dsimp only
  rw [h]

theorem ofJson?_of_asset {doc : AssetSection} (hmint : (ofJson? v : Option MintSection) = none)
    (h : ofJson? v = some doc) : ofJson? v = some (Section.asset doc) := by
  unfold ofJson? instJsonFormSection
  dsimp only
  rw [hmint, h]

/-- An allocation section is reached when the two forms tried before it fail. -/
theorem ofJson?_of_allocation {doc : AllocationSection}
    (hmint : (ofJson? v : Option MintSection) = none)
    (hasset : (ofJson? v : Option AssetSection) = none) (h : ofJson? v = some doc) :
    ofJson? v = some (Section.allocation doc) := by
  unfold ofJson? instJsonFormSection
  dsimp only
  rw [hmint, hasset, h]
  rfl

end Section

instance : LawfulJsonForm Section where
  ofJson?_toJson s := by
    cases s with
    | mint doc => exact Section.ofJson?_of_mint (LawfulJsonForm.ofJson?_toJson doc)
    | asset doc =>
      have hmint : (ofJson? (toJson doc) : Option MintSection) = none :=
        MintSection.ofJson?_eq_none (by simp [member?, toJson, Heading.members])
      exact Section.ofJson?_of_asset hmint (LawfulJsonForm.ofJson?_toJson doc)
    | allocation doc =>
      have hmint : (ofJson? (toJson doc) : Option MintSection) = none :=
        MintSection.ofJson?_eq_none (by simp [member?, toJson, Heading.members])
      have hasset : (ofJson? (toJson doc) : Option AssetSection) = none :=
        AssetSection.ofJson?_eq_none (by simp [member?, toJson, Heading.members])
      exact Section.ofJson?_of_allocation hmint hasset (LawfulJsonForm.ofJson?_toJson doc)
  toJson_ne_null s := by cases s <;> rintro ⟨⟩

/-! ## Inputs and outputs -/

theorem Input.ofJson?_source (d : Input) : InputSource.ofJson? (toJson d) = some d.source := by
  cases hsource : d.source with
  | coinbase script =>
    have hscript : required? String "coinbase" (toJson d) = some script :=
      required?_eq (by simp [member?, toJson, hsource, InputSource.members])
    rw [InputSource.ofJson?, hscript]
  | outPoint txid index scriptSig =>
    have hscript : required? String "coinbase" (toJson d) = none :=
      required?_eq_none (by simp [member?, toJson, hsource, InputSource.members])
    rw [InputSource.ofJson?, hscript]
    refine required?_bind txid ?txid (required?_bind index ?index
      (required?_bind scriptSig ?scriptSig rfl))
    all_goals simp [member?, toJson, hsource, InputSource.members]

instance : LawfulJsonForm Input where
  ofJson?_toJson d := by
    have hwitness : Json.lookup? "txinwitness" d.source.members = none := by
      cases d.source <;> simp [InputSource.members]
    have hsequence : Json.lookup? "sequence" d.source.members = none := by
      cases d.source <;> simp [InputSource.members]
    refine bind_eq_some_of_eq d.ofJson?_source (optional?_bind d.witness ?witness
      (required?_bind d.sequence ?sequence rfl))
    all_goals simp [member?, toJson, hwitness, hsequence]
  toJson_ne_null d := by rintro ⟨⟩

instance : LawfulJsonForm Output where
  ofJson?_toJson d := by
    refine required?_bind d.value ?value (required?_bind d.index ?index
      (required?_bind d.scriptPubKey ?scriptPubKey rfl))
    all_goals simp [member?, toJson]
  toJson_ne_null d := by rintro ⟨⟩

/-! ## Transactions -/

/-- The members in a row, absent ones included. -/
def MasternodeMembers.fields (m : MasternodeMembers) : List (Option Json) :=
  [m.proRegTx, m.proUpServTx, m.proUpRegTx, m.proUpRevTx, m.cbTx, m.qcTx]

/-- A payload member that is there is not null. -/
def MasternodeMembers.NotNull (m : MasternodeMembers) : Prop :=
  ∀ field ∈ m.fields, ∀ value ∈ field, value ≠ .null

theorem Tx.ofJson?_masternode (d : Tx) (h : d.masternode.NotNull) :
    MasternodeMembers.ofJson? (toJson d) = some d.masternode := by
  have hread : ∀ field ∈ d.masternode.fields, ∀ value ∈ field,
      toJson value ≠ .null ∧ ofJson? (toJson value) = some value :=
    fun field hfield value hvalue => ⟨h field hfield value hvalue, rfl⟩
  simp only [MasternodeMembers.fields, List.forall_mem_cons] at hread
  obtain ⟨hproRegTx, hproUpServTx, hproUpRegTx, hproUpRevTx, hcbTx, hqcTx, -⟩ := hread
  refine optional?_bind_of_mem _ hproRegTx ?proRegTx
    (optional?_bind_of_mem _ hproUpServTx ?proUpServTx
    (optional?_bind_of_mem _ hproUpRegTx ?proUpRegTx
    (optional?_bind_of_mem _ hproUpRevTx ?proUpRevTx
    (optional?_bind_of_mem _ hcbTx ?cbTx (optional?_bind_of_mem _ hqcTx ?qcTx rfl)))))
  all_goals simp [member?, toJson, MasternodeMembers.members]

/-- A transaction document is read back if no masternode member is null: a null would be read as
absent. -/
theorem Tx.ofJson?_toJson (d : Tx) (h : d.masternode.NotNull) : ofJson? (toJson d) = some d := by
  refine required?_bind d.txid ?txid (required?_bind d.witnessHash ?witnessHash
    (required?_bind d.version ?version (required?_bind d.size ?size
    (required?_bind d.virtualSize ?virtualSize (required?_bind d.weight ?weight
    (required?_bind d.lockTime ?lockTime (required?_bind d.inputs ?inputs
    (required?_bind d.outputs ?outputs (bind_eq_some_of_eq (d.ofJson?_masternode h)
    (optional?_bind d.assets ?assets (optional?_bind d.blockHash ?blockHash
    (optional?_bind d.wireHex ?wireHex rfl))))))))))))
  all_goals simp [member?, toJson, MasternodeMembers.members]

/-- Null is read as an absent member, so none is left in what was read. -/
theorem ne_null_of_optional? {key : String} {v : Json} {field : Option Json}
    (h : Json.optional? Json key v = some field) : ∀ value ∈ field, value ≠ .null := by
  intro value hvalue
  unfold Json.optional? at h
  split at h
  case h_1 => cases h; cases hvalue
  case h_2 => cases h; cases hvalue
  case h_3 hnull _ =>
    cases h
    cases hvalue
    exact hnull

theorem MasternodeMembers.notNull_of_ofJson? {v : Json} {m : MasternodeMembers}
    (h : MasternodeMembers.ofJson? v = some m) : m.NotNull := by
  obtain ⟨_, hproRegTx, h⟩ := Option.bind_eq_some_iff.mp h
  obtain ⟨_, hproUpServTx, h⟩ := Option.bind_eq_some_iff.mp h
  obtain ⟨_, hproUpRegTx, h⟩ := Option.bind_eq_some_iff.mp h
  obtain ⟨_, hproUpRevTx, h⟩ := Option.bind_eq_some_iff.mp h
  obtain ⟨_, hcbTx, h⟩ := Option.bind_eq_some_iff.mp h
  obtain ⟨_, hqcTx, h⟩ := Option.bind_eq_some_iff.mp h
  cases h
  simp only [NotNull, fields, List.forall_mem_cons]
  exact ⟨ne_null_of_optional? hproRegTx, ne_null_of_optional? hproUpServTx,
    ne_null_of_optional? hproUpRegTx, ne_null_of_optional? hproUpRevTx,
    ne_null_of_optional? hcbTx, ne_null_of_optional? hqcTx, List.forall_mem_nil _⟩

/-- What was read from a document never has a null masternode member. -/
theorem Tx.notNull_of_ofJson? {v : Json} {d : Tx} (h : ofJson? v = some d) :
    d.masternode.NotNull := by
  -- Nine fields are read before the payload members, and three after them.
  iterate 9 obtain ⟨_, -, h⟩ := Option.bind_eq_some_iff.mp h
  obtain ⟨_, hmasternode, h⟩ := Option.bind_eq_some_iff.mp h
  iterate 3 obtain ⟨_, -, h⟩ := Option.bind_eq_some_iff.mp h
  cases h
  exact MasternodeMembers.notNull_of_ofJson? hmasternode

/-! ## Configurations -/

instance : LawfulJsonForm Config where
  ofJson?_toJson d := by
    refine withDefault?_bind d.includeHex ?includeHex
      (withDefault?_bind d.hexIncludeWitness ?hexIncludeWitness rfl)
    all_goals simp [member?]
  toJson_ne_null d := by rintro ⟨⟩

/-! ## All documents -/

/-- Every value is read back as itself, and what a JSON value is read as is read again. -/
def ReadsBack (α : Type) [JsonForm α] : Prop :=
  (∀ d : α, ofJson? (toJson d) = some d) ∧
  ∀ (v : Json) (d : α), ofJson? v = some d → ofJson? (toJson d) = some d

theorem ReadsBack.of_lawful (α : Type) [JsonForm α] [LawfulJsonForm α] : ReadsBack α :=
  ⟨LawfulJsonForm.ofJson?_toJson, fun _ d _ => LawfulJsonForm.ofJson?_toJson d⟩

/-- Documents of every type are read back, whatever keys, nulls or texts the value had that they
were read from. -/
theorem documents_read_back :
    (∀ d : Tx, d.masternode.NotNull → ofJson? (toJson d) = some d) ∧
    (∀ (v : Json) (d : Tx), ofJson? v = some d → ofJson? (toJson d) = some d) ∧
    ReadsBack Input ∧ ReadsBack Output ∧ ReadsBack Section ∧ ReadsBack AssetAllocation ∧
    ReadsBack ScriptSig ∧ ReadsBack ScriptPubKey ∧ ReadsBack DecodedScript ∧ ReadsBack Amount ∧
    ReadsBack Hash256 ∧ ReadsBack Config := by
  refine ⟨Tx.ofJson?_toJson, fun v d hread => d.ofJson?_toJson (Tx.notNull_of_ofJson? hread),
    ?_, ?_, ?_, ?_, ?_, ?_, ?_, ?_, ?_, ?_⟩
  all_goals exact ReadsBack.of_lawful _

/-- A block reward with a payload, an allocation and a witness. -/
def rewardDocument : Tx where
  txid := Hash256.zero
  witnessHash := Hash256.zero
  version := 135
  size := 200
  virtualSize := 180
  weight := 720
  lockTime := 0
  inputs := [⟨.coinbase "03a1b2c3", some ["00"], 0xffffffff⟩]
  outputs := [⟨⟨5000000000⟩, 0, ⟨"", "", none, "nonstandard", none⟩⟩]
  masternode := { cbTx := some (.object [("version", .int 2), ("height", .null)]) }
  assets := some (.allocation ⟨⟨"assetallocation_send", Hash256.zero, Hash256.zero⟩,
    [⟨7, [⟨0, 100⟩], 100⟩], none⟩)
  blockHash := some Hash256.zero
  wireHex := none

theorem documents_read_back_reward :
    (rewardDocument.masternode.NotNull ∧ ofJson? (toJson rewardDocument) = some rewardDocument) ∧
    (ofJson? (.object [("includeHex", .bool true), ("other", .null)]) =
        some (⟨true, true⟩ : Config) ∧
      ofJson? (toJson (⟨true, true⟩ : Config)) = some (⟨true, true⟩ : Config)) ∧
    (ofJson? (.text "-00.00000000") = some (⟨0⟩ : Amount) ∧
      ofJson? (toJson (⟨0⟩ : Amount)) = some (⟨0⟩ : Amount)) := by
  obtain ⟨htx, -, -, -, -, -, -, -, -, hamount, -, hconfig⟩ := documents_read_back
  have hnull : rewardDocument.masternode.NotNull := by
    simp [MasternodeMembers.NotNull, MasternodeMembers.fields, rewardDocument]
  have hread : ofJson? (.object [("includeHex", .bool true), ("other", .null)]) =
      some (⟨true, true⟩ : Config) := rfl
  have hzero : ofJson? (.text "-00.00000000") = some (⟨0⟩ : Amount) := by decide +kernel
  exact ⟨⟨hnull, htx rewardDocument hnull⟩, ⟨hread, hconfig.2 _ _ hread⟩,
    ⟨hzero, hamount.2 _ _ hzero⟩⟩

end UtxoAssets.Document
