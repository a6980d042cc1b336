import UtxoAssets.Proofs.Render.Section
import UtxoAssets.Render.Tx

/-!
# The calls of a rendering

A document is built with no effect but that of the one decoder that its version asks for.  The log
of a rendering is what a run of that program leaves, so it has one entry for each call.

* `MasternodeCalls.members_of_version`, `MasternodeCalls.members_of_no_record` — the one call that
  the version makes, or none, whatever a call does.
* `Document.Tx.run_ofTransaction` — the rest of the program has no effect.
* `MasternodeDecoder.run_logged_call` — the answer of a call and what it adds to the log.
* `Renderer.render_eq_ok_iff` — a rendering in terms of that run and of the asset section.
-/

set_option autoImplicit false

namespace UtxoAssets

/-- The versions of masternode records. -/
theorem MasternodeRecord.exists_version_iff {version : Int32} :
    (∃ record : MasternodeRecord, version = record.version) ↔
      version ∈ ([80, 81, 82, 83, 84, 85] : List Int32) := by
  constructor
  · rintro ⟨record, rfl⟩
    cases record <;> decide
  · intro h
    simp only [List.mem_cons, List.not_mem_nil, or_false] at h
    rcases h with rfl | rfl | rfl | rfl | rfl | rfl
    · exact ⟨.registration, rfl⟩
    · exact ⟨.serviceUpdate, rfl⟩
    · exact ⟨.registrarUpdate, rfl⟩
    · exact ⟨.revocation, rfl⟩
    · exact ⟨.coinbase, rfl⟩
    · exact ⟨.quorumCommitment, rfl⟩

/-- A transaction has the version of one record or of none. -/
theorem Transaction.has_record_or_not (tx : Transaction) :
    (∃ record : MasternodeRecord, tx.version = record.version) ∨
      tx.version ∉ ([80, 81, 82, 83, 84, 85] : List Int32) :=
  (Decidable.em _).imp_left MasternodeRecord.exists_version_iff.mpr

/-! ## Calls with any effect -/

section Effects

variable {m : Type → Type} [Monad m] (calls : MasternodeCalls m) {tx : Transaction}

/-- A version that carries a record makes the call for that record, and no other effect takes
place. -/
theorem MasternodeCalls.members_of_version {record : MasternodeRecord}
    (h : tx.version = record.version) :
    calls.members tx tx.kind.route = calls.call tx record := by
  rw [Transaction.kind_eq_masternode_iff.mpr h]
  rfl

/-- Any other version makes no call. -/
theorem MasternodeCalls.members_of_no_record
    (h : tx.version ∉ ([80, 81, 82, 83, 84, 85] : List Int32)) :
    calls.members tx tx.kind.route = pure {} := by
  cases hkind : tx.kind with
  | transfer => rfl
  | masternode record =>
    have hversion := Transaction.kind_eq_masternode_iff.mp hkind
    exact absurd (MasternodeRecord.exists_version_iff.mp ⟨record, hversion⟩) h
  | asset operation => cases operation <;> rfl

/-- A document is built with no effect but that of the call for its masternode record. -/
theorem Document.Tx.run_ofTransaction [LawfulMonad m] (encoder : AddressEncoder) (config : Config)
    (blockHash : Option Hash256) :
    (Tx.ofTransaction encoder config calls tx blockHash).run =
      (fun masternode =>
        (Section.ofTx? encoder tx (blockHash.filter fun h => !h.isZero)).map
          (Tx.ofParts encoder config tx (blockHash.filter fun h => !h.isZero) masternode)) <$>
      calls.members tx tx.kind.route := by
  refine (ExceptT.run_bind_lift _ _).trans ?_
  rw [map_eq_pure_bind]
  refine bind_congr fun masternode => ?_
  cases Section.ofTx? encoder tx (blockHash.filter fun h => !h.isZero) with
  | ok assets => exact pure_bind (Except.ok assets) _
  | error cause => exact pure_bind (Except.error cause) _

end Effects

/-! ## Logged calls -/

namespace MasternodeDecoder

variable (d : MasternodeDecoder) (tx : Transaction)

/-- The members that the decoder of a record gives. -/
def answer : MasternodeRecord → Document.MasternodeMembers
  | .registration => { proRegTx := d.registration tx }
  | .serviceUpdate => { proUpServTx := d.serviceUpdate tx }
  | .registrarUpdate => { proUpRegTx := d.registrarUpdate tx }
  | .revocation => { proUpRevTx := d.revocation tx }
  | .coinbase => { cbTx := d.coinbase tx }
  | .quorumCommitment =>
    match d.quorumCommitment tx with
    | some q => { cbTx := some q.cbTx, qcTx := some q.qcTx }
    | none => {}

/-- A logged call answers as the decoder does and leaves its record behind what is in the log. -/
theorem run_logged_call (record : MasternodeRecord) (log : List MasternodeRecord) :
    (d.logged.call tx record).run log = (d.answer tx record, log ++ [record]) := by
  cases record with
  | quorumCommitment =>
    simp only [MasternodeCalls.call, logged, logCall, answer]
    cases d.quorumCommitment tx <;> rfl
  | _ => rfl

/-- The members found for a transaction and the log of the calls made for them. -/
def consult : Document.MasternodeMembers × List MasternodeRecord :=
  (d.logged.members tx tx.kind.route).run []

theorem consult_of_version {record : MasternodeRecord} (h : tx.version = record.version) :
    d.consult tx = (d.answer tx record, [record]) := by
  rw [consult, MasternodeCalls.members_of_version d.logged h, run_logged_call, List.nil_append]

theorem consult_of_no_record (h : tx.version ∉ ([80, 81, 82, 83, 84, 85] : List Int32)) :
    d.consult tx = ({}, []) := by
  rw [consult, MasternodeCalls.members_of_no_record d.logged h]
  rfl

end MasternodeDecoder

/-! ## Renderings -/

namespace Renderer

variable {r : Renderer} {tx : Transaction} {blockHash : Option Hash256} {out : Rendering}

/-- A rendering shows what the decoders were found to give, and fails where the asset section
does. -/
theorem render_eq_ok_iff : r.render tx blockHash = .ok out ↔
    ∃ assets, Document.Section.ofTx? r.encoder tx (blockHash.filter fun h => !h.isZero) =
        .ok assets ∧
      out = ⟨Document.Tx.ofParts r.encoder r.config tx (blockHash.filter fun h => !h.isZero)
        (r.masternode.consult tx).1 assets, (r.masternode.consult tx).2⟩ := by
  rw [render, Document.Tx.run_ofTransaction]
  cases Document.Section.ofTx? r.encoder tx (blockHash.filter fun h => !h.isZero) with
  | ok assets =>
    constructor
    · intro h
      exact ⟨assets, rfl, (Except.ok.inj h).symm⟩
    · rintro ⟨_, h, rfl⟩
      cases h
      rfl
  | error cause =>
    constructor
    · intro h
      cases h
    · rintro ⟨_, h, -⟩
      cases h

end Renderer

end UtxoAssets
