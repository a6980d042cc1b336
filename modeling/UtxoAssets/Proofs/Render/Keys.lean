import UtxoAssets.Proofs.Document.Members
import UtxoAssets.Proofs.Render.Calls

/-!
# The keys of a document

The version of a transaction says which masternode record its payload is, if any.  Only the decoder
of that record is asked, and its answer is what the document shows.

* `MasternodeDecoder.members_consult` — the members that the decoders give, by version.
* `MasternodeDecoder.consult_eq_of_agree` — they depend on no decoder but the one that was asked.
* `Document.Tx.keys_order`, `Document.Tx.mem_keys` — the keys of a document are in one order, and
  those of its optional fields are there with them.
* `Renderer.keys_follow_version` — the keys and the decoders asked, for every transaction.
-/

set_option autoImplicit false

namespace UtxoAssets

/-! ## What the decoders are found to give -/

theorem isSome_ite_none_iff {α : Type} {p : Prop} [Decidable p] {answer : Option α} :
    (if p then answer else none).isSome ↔ p ∧ answer.isSome := by
  by_cases hp : p
  · rw [if_pos hp, and_iff_right hp]
  · rw [if_neg hp, iff_false_right (not_and_of_not_left _ hp)]
    exact Bool.false_ne_true

namespace MasternodeDecoder

variable (d : MasternodeDecoder) (tx : Transaction)

/-- Decoders that agree where they are asked give the same members, and the same are asked. -/
theorem consult_eq_of_agree {d e : MasternodeDecoder} {tx : Transaction}
    (h : ∀ record ∈ (d.consult tx).2, e.answer tx record = d.answer tx record) :
    e.consult tx = d.consult tx := by
  obtain ⟨record, hversion⟩ | hversion := tx.has_record_or_not
  · rw [consult_of_version d tx hversion] at h ⊢
    rw [consult_of_version e tx hversion, h record (List.mem_singleton_self _)]
  · rw [consult_of_no_record d tx hversion, consult_of_no_record e tx hversion]

/-- The members of masternode records, each with the versions that may have it. -/
def membersFor : Document.MasternodeMembers where
  proRegTx := if tx.version = 80 then d.registration tx else none
  proUpServTx := if tx.version = 81 then d.serviceUpdate tx else none
  proUpRegTx := if tx.version = 82 then d.registrarUpdate tx else none
  proUpRevTx := if tx.version = 83 then d.revocation tx else none
  cbTx :=
    if tx.version = 84 then d.coinbase tx
    else if tx.version = 85 then (d.quorumCommitment tx).map QuorumCommitment.cbTx
    else none
  qcTx := if tx.version = 85 then (d.quorumCommitment tx).map QuorumCommitment.qcTx else none

theorem members_consult : (d.consult tx).1 = d.membersFor tx := by
  obtain ⟨record, hversion⟩ | hversion := tx.has_record_or_not
  · rw [consult_of_version d tx hversion]
    cases record with
    | quorumCommitment =>
      simp only [membersFor, hversion, MasternodeRecord.version, answer]
      cases d.quorumCommitment tx <;> rfl
    | _ =>
      simp only [membersFor, hversion, MasternodeRecord.version, answer]
      rfl
  · rw [consult_of_no_record d tx hversion]
    simp only [List.mem_cons, List.not_mem_nil, or_false, not_or] at hversion
    obtain ⟨h80, h81, h82, h83, h84, h85⟩ := hversion
    simp only [membersFor, if_neg h80, if_neg h81, if_neg h82, if_neg h83, if_neg h84, if_neg h85]

theorem isSome_membersFor_cbTx : (d.membersFor tx).cbTx.isSome ↔
    (tx.version = 84 ∧ (d.coinbase tx).isSome) ∨
    (tx.version = 85 ∧ (d.quorumCommitment tx).isSome) := by
  dsimp only [membersFor]
  by_cases h84 : tx.version = 84
  · have h85 : tx.version ≠ 85 := by rw [h84]; decide
    rw [if_pos h84, and_iff_right h84, or_iff_left (fun h => h85 h.1)]
  · rw [if_neg h84, isSome_ite_none_iff, Option.isSome_map, or_iff_right (fun h => h84 h.1)]

end MasternodeDecoder

/-! ## The order of the keys -/

theorem Json.sublist_keys_whenSome {α : Type} [JsonForm α] (key : String) (field : Option α) :
    ((Json.whenSome key field).map Prod.fst).Sublist [key] := by
  cases field with
  | none => exact List.nil_sublist [key]
  | some value => exact List.Sublist.refl [key]

namespace Document

open JsonForm (toJson)

/-- The keys of a document as it is written. -/
def Tx.keys (d : Tx) : List String := (toJson d).keys

/-- Masternode members have these keys, in this order, and no others. -/
theorem MasternodeMembers.sublist_keys (m : MasternodeMembers) :
    (m.members.map Prod.fst).Sublist
      ["proRegTx", "proUpServTx", "proUpRegTx", "proUpRevTx", "cbTx", "qcTx"] := by
  simp only [members, List.map_append]
  have hfields := ((((Json.sublist_keys_whenSome "proRegTx" m.proRegTx).append
    (Json.sublist_keys_whenSome "proUpServTx" m.proUpServTx)).append
    (Json.sublist_keys_whenSome "proUpRegTx" m.proUpRegTx)).append
    (Json.sublist_keys_whenSome "proUpRevTx" m.proUpRevTx)).append
    (Json.sublist_keys_whenSome "cbTx" m.cbTx)
  exact hfields.append (Json.sublist_keys_whenSome "qcTx" m.qcTx)

/-- Nine keys are always there. Behind them come those of the other fields, in one order and each at
most once. -/
theorem Tx.keys_order (d : Tx) : ∃ rest, d.keys =
      ["txid", "hash", "version", "size", "vsize", "weight", "locktime", "vin", "vout"] ++ rest ∧
    rest.Sublist ["proRegTx", "proUpServTx", "proUpRegTx", "proUpRevTx", "cbTx", "qcTx", "systx",
      "blockhash", "hex"] := by
  refine ⟨d.masternode.members.map Prod.fst ++ (Json.whenSome "systx" d.assets).map Prod.fst ++
    (Json.whenSome "blockhash" d.blockHash).map Prod.fst ++
    (Json.whenSome "hex" d.wireHex).map Prod.fst, ?_, ?_⟩
  · simp only [keys, toJson, Json.keys, Json.always, List.map_append, List.append_assoc]
    rfl
  · have hsections := d.masternode.sublist_keys.append
      (Json.sublist_keys_whenSome "systx" d.assets)
    have hblock := hsections.append (Json.sublist_keys_whenSome "blockhash" d.blockHash)
    exact hblock.append (Json.sublist_keys_whenSome "hex" d.wireHex)

theorem Tx.mem_keys (d : Tx) :
    ("proRegTx" ∈ d.keys ↔ d.masternode.proRegTx.isSome) ∧
    ("proUpServTx" ∈ d.keys ↔ d.masternode.proUpServTx.isSome) ∧
    ("proUpRegTx" ∈ d.keys ↔ d.masternode.proUpRegTx.isSome) ∧
    ("proUpRevTx" ∈ d.keys ↔ d.masternode.proUpRevTx.isSome) ∧
    ("cbTx" ∈ d.keys ↔ d.masternode.cbTx.isSome) ∧
    ("qcTx" ∈ d.keys ↔ d.masternode.qcTx.isSome) ∧
    ("systx" ∈ d.keys ↔ d.assets.isSome) ∧
    ("blockhash" ∈ d.keys ↔ d.blockHash.isSome) ∧
    ("hex" ∈ d.keys ↔ d.wireHex.isSome) := by
  simp only [keys, Json.mem_keys_iff]
  refine ⟨?_, ?_, ?_, ?_, ?_, ?_, ?_, ?_, ?_⟩
  all_goals simp [Json.member?, toJson, MasternodeMembers.members]

/-- A document without masternode members has none of the six keys, since none of the other members
has one of them. -/
theorem Tx.key_not_mem_keys {d : Tx} (h : d.masternode = {}) (record : MasternodeRecord) :
    record.key ∉ d.keys := by
  obtain ⟨hproRegTx, hproUpServTx, hproUpRegTx, hproUpRevTx, hcbTx, hqcTx, -⟩ := d.mem_keys
  rw [h] at hproRegTx hproUpServTx hproUpRegTx hproUpRevTx hcbTx hqcTx
  intro hkey
  cases record with
  | registration => cases hproRegTx.mp hkey
  | serviceUpdate => cases hproUpServTx.mp hkey
  | registrarUpdate => cases hproUpRegTx.mp hkey
  | revocation => cases hproUpRevTx.mp hkey
  | coinbase => cases hcbTx.mp hkey
  | quorumCommitment => cases hqcTx.mp hkey

theorem Section.ofTx?_of_masternode {encoder : AddressEncoder} {tx : Transaction}
    {blockHash : Option Hash256} {record : MasternodeRecord} (h : tx.kind = .masternode record) :
    Section.ofTx? encoder tx blockHash = .ok none := by
  unfold Section.ofTx?
  rw [h]
  rfl

end Document

/-! ## Renderings -/

open Document (Section)

/-- The keys of a rendering and the decoders asked for it, as the version has them. -/
structure Rendering.FollowsVersion (out : Rendering) (r : Renderer) (tx : Transaction)
    (blockHash : Option Hash256) : Prop where
  asked : ∀ record : MasternodeRecord, tx.version = record.version → out.asked = [record]
  none_asked : tx.version ∉ ([80, 81, 82, 83, 84, 85] : List Int32) → out.asked = []
  determined : ∀ d : MasternodeDecoder,
    (∀ record ∈ out.asked, d.answer tx record = r.masternode.answer tx record) →
      ({ r with masternode := d } : Renderer).render tx blockHash = .ok out
  members : out.document.masternode = r.masternode.membersFor tx
  order : ∃ rest, out.document.keys =
      ["txid", "hash", "version", "size", "vsize", "weight", "locktime", "vin", "vout"] ++ rest ∧
    rest.Sublist ["proRegTx", "proUpServTx", "proUpRegTx", "proUpRevTx", "cbTx", "qcTx", "systx",
      "blockhash", "hex"]
  proRegTx : "proRegTx" ∈ out.document.keys ↔
    tx.version = 80 ∧ (r.masternode.registration tx).isSome
  proUpServTx : "proUpServTx" ∈ out.document.keys ↔
    tx.version = 81 ∧ (r.masternode.serviceUpdate tx).isSome
  proUpRegTx : "proUpRegTx" ∈ out.document.keys ↔
    tx.version = 82 ∧ (r.masternode.registrarUpdate tx).isSome
  proUpRevTx : "proUpRevTx" ∈ out.document.keys ↔
    tx.version = 83 ∧ (r.masternode.revocation tx).isSome
  cbTx : "cbTx" ∈ out.document.keys ↔
    (tx.version = 84 ∧ (r.masternode.coinbase tx).isSome) ∨
    (tx.version = 85 ∧ (r.masternode.quorumCommitment tx).isSome)
  qcTx : "qcTx" ∈ out.document.keys ↔
    tx.version = 85 ∧ (r.masternode.quorumCommitment tx).isSome
  systx : "systx" ∈ out.document.keys →
    ∀ record : MasternodeRecord, record.key ∉ out.document.keys
  blockhash : "blockhash" ∈ out.document.keys ↔
    ∃ hash, blockHash = some hash ∧ hash ≠ Hash256.zero
  hex : "hex" ∈ out.document.keys ↔ r.config.includeHex

namespace Renderer

variable {r : Renderer} {tx : Transaction} {blockHash : Option Hash256} {out : Rendering}

/-- A masternode decoder that gives no answer leaves a member out; only totals can stop a
rendering. -/
theorem exists_rendering (r : Renderer) (blockHash : Option Hash256) (h : tx.TotalsFit) :
    ∃ out, r.render tx blockHash = .ok out := by
  obtain ⟨assets, hassets⟩ := Section.exists_ofTx? h
  exact ⟨_, render_eq_ok_iff.mpr ⟨assets, hassets, rfl⟩⟩

/-- The parts of a rendering that a transaction may lack. -/
theorem of_render (h : r.render tx blockHash = .ok out) :
    out.document.masternode = (r.masternode.consult tx).1 ∧
    out.asked = (r.masternode.consult tx).2 ∧
    Section.ofTx? r.encoder tx (blockHash.filter fun h => !h.isZero) = .ok out.document.assets ∧
    out.document.blockHash = blockHash.filter (fun h => !h.isZero) ∧
    out.document.wireHex.isSome = r.config.includeHex := by
  obtain ⟨assets, hassets, rfl⟩ := render_eq_ok_iff.mp h
  refine ⟨rfl, rfl, hassets, rfl, ?_⟩
  dsimp only [Document.Tx.ofParts]
  cases r.config.includeHex <;> rfl

theorem render_eq_of_agree {d : MasternodeDecoder} (h : r.render tx blockHash = .ok out)
    (hagree : ∀ record ∈ out.asked, d.answer tx record = r.masternode.answer tx record) :
    ({ r with masternode := d } : Renderer).render tx blockHash = .ok out := by
  obtain ⟨assets, hassets, rfl⟩ := render_eq_ok_iff.mp h
  rw [render_eq_ok_iff, MasternodeDecoder.consult_eq_of_agree hagree]
  exact ⟨assets, hassets, rfl⟩

/-- An asset section and masternode members exclude each other. -/
theorem masternode_of_assets (h : r.render tx blockHash = .ok out)
    (hassets : out.document.assets.isSome) : out.document.masternode = {} := by
  obtain ⟨hmasternode, -, hsection, -⟩ := of_render h
  rw [hmasternode]
  obtain ⟨record, hversion⟩ | hversion := tx.has_record_or_not
  · rw [Section.ofTx?_of_masternode (Transaction.kind_eq_masternode_iff.mpr hversion)] at hsection
    rw [← Except.ok.inj hsection] at hassets
    cases hassets
  · rw [MasternodeDecoder.consult_of_no_record _ tx hversion]

/-- **The version decides which payload keys a document has, and which decoder is asked.** -/
theorem keys_follow_version (r : Renderer) (tx : Transaction) (blockHash : Option Hash256)
    (h : tx.TotalsFit) :
    ∃ out, r.render tx blockHash = .ok out ∧ out.FollowsVersion r tx blockHash := by
  obtain ⟨out, hout⟩ := exists_rendering r blockHash h
  obtain ⟨hmasternode, hasked, -, hblock, hwire⟩ := of_render hout
  rw [MasternodeDecoder.members_consult] at hmasternode
  obtain ⟨hproRegTx, hproUpServTx, hproUpRegTx, hproUpRevTx, hcbTx, hqcTx, hsystx, hblockhash,
    hhex⟩ := out.document.mem_keys
  rw [hmasternode] at hproRegTx hproUpServTx hproUpRegTx hproUpRevTx hcbTx hqcTx
  refine ⟨out, hout, ?_⟩
  constructor
  case asked =>
    intro record hversion
    rw [hasked, MasternodeDecoder.consult_of_version _ tx hversion]
  case none_asked =>
    intro hversion
    rw [hasked, MasternodeDecoder.consult_of_no_record _ tx hversion]
  case determined => exact fun d hagree => render_eq_of_agree hout hagree
  case members => exact hmasternode
  case order => exact out.document.keys_order
  case proRegTx => exact hproRegTx.trans isSome_ite_none_iff
  case proUpServTx => exact hproUpServTx.trans isSome_ite_none_iff
  case proUpRegTx => exact hproUpRegTx.trans isSome_ite_none_iff
  case proUpRevTx => exact hproUpRevTx.trans isSome_ite_none_iff
  case cbTx => exact hcbTx.trans (MasternodeDecoder.isSome_membersFor_cbTx r.masternode tx)
  case qcTx =>
    refine hqcTx.trans (isSome_ite_none_iff.trans ?_)
    rw [Option.isSome_map]
  case systx =>
    intro hmem record
    exact Document.Tx.key_not_mem_keys (masternode_of_assets hout (hsystx.mp hmem)) record
  case blockhash =>
    rw [hblockhash, hblock, Option.isSome_filter]
    cases blockHash <;> simp [Hash256.isZero]
  case hex => rw [hhex, hwire]

/-- Decoders of a coinbase record and of the one in a quorum commitment. -/
def rewardDecoder : MasternodeDecoder where
  coinbase _ := some (.text "coinbase")
  quorumCommitment _ := some ⟨.text "nested", .null⟩

/-- A quorum commitment of a block: its nested record is shown, a null payload too. -/
theorem keys_follow_version_commitment :
    (Transaction.pushing 85 ⟨0x01, [], [0xaa]⟩).TotalsFit ∧
    ∃ out, (⟨fun _ => "", rewardDecoder, ⟨true, true⟩⟩ : Renderer).render
        (Transaction.pushing 85 ⟨0x01, [], [0xaa]⟩) (some (FixedBytes.replicate 32 1)) = .ok out ∧
      out.asked = [.quorumCommitment] ∧ out.document.masternode.cbTx = some (.text "nested") ∧
      out.document.keys = ["txid", "hash", "version", "size", "vsize", "weight", "locktime", "vin",
        "vout", "cbTx", "qcTx", "blockhash", "hex"] := by
  have htotals := Transaction.totalsFit_pushing 85 ⟨0x01, [], [0xaa]⟩
  obtain ⟨out, hout, hfollows⟩ := keys_follow_version ⟨fun _ => "", rewardDecoder, ⟨true, true⟩⟩
    _ (some (FixedBytes.replicate 32 1)) htotals
  refine ⟨htotals, out, hout, hfollows.asked .quorumCommitment rfl, ?_, ?_⟩
  · rw [hfollows.members]
    rfl
  · obtain ⟨assets, hassets, rfl⟩ := render_eq_ok_iff.mp hout
    cases hassets
    rfl

end Renderer

end UtxoAssets
