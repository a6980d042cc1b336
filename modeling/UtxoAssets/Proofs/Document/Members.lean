import UtxoAssets.Document.Section

/-!
# Members of a section

The JSON form of a section is put together of members that are always there and members of fields
that may be absent.

* `Json.lookup?_append`, `Json.lookup?_always`, `Json.lookup?_whenSome` — a key is looked up part by
  part; the keys that are found are the keys there are (`Json.mem_keys_iff`).
* `AssetSection.members`, `MintSection.member?_spvProof` and
  `AllocationSection.member?_ethereumDestination` — each field is found under its own key, and a
  field that is absent has none.
-/

set_option autoImplicit false

namespace UtxoAssets

namespace Json

variable {α : Type} [JsonForm α]

@[simp] theorem lookup?_append (key : String) (front rest : List (String × Json)) :
    lookup? key (front ++ rest) = (lookup? key front).or (lookup? key rest) := by
  induction front with
  | nil => rfl
  | cons m front ih =>
    rw [List.cons_append, lookup?, lookup?]
    split
    · rfl
    · exact ih

@[simp] theorem lookup?_always (key key' : String) (value : α) :
    lookup? key (always key' value) = if key' = key then some (JsonForm.toJson value) else none :=
  rfl

/-- A member that is written only if present is found under its key if it is present. -/
@[simp] theorem lookup?_whenSome (key key' : String) (field : Option α) :
    lookup? key (whenSome key' field) = if key' = key then field.map JsonForm.toJson else none := by
  cases field with
  | none => exact (ite_self none).symm
  | some value => rfl

theorem mem_keys_iff {key : String} {v : Json} : key ∈ v.keys ↔ (v.member? key).isSome := by
  cases v with
  | object members =>
    change key ∈ members.map Prod.fst ↔ (lookup? key members).isSome
    induction members with
    | nil => simp [lookup?]
    | cons m members ih =>
      rw [List.map_cons, List.mem_cons, ih, lookup?]
      by_cases hkey : m.1 = key
      · simp [hkey]
      · simp [hkey, Ne.symm hkey]
  | _ => simp [keys, member?]

end Json

namespace Document

open Json (member?)

theorem MintSection.member?_spvProof (doc : MintSection) :
    member? "spv_proof" (JsonForm.toJson doc) = some (JsonForm.toJson doc.spvProof) := by
  simp [member?, JsonForm.toJson, Heading.members]

theorem AllocationSection.member?_ethereumDestination (doc : AllocationSection) :
    member? "ethereum_destination" (JsonForm.toJson doc) =
      doc.ethereumDestination.map JsonForm.toJson := by
  simp [member?, JsonForm.toJson, Heading.members]

theorem AssetSection.members (doc : AssetSection) :
    member? "symbol" (JsonForm.toJson doc) = doc.symbol.map JsonForm.toJson ∧
    member? "max_supply" (JsonForm.toJson doc) = doc.maxSupply.map JsonForm.toJson ∧
    member? "precision" (JsonForm.toJson doc) = doc.precision.map JsonForm.toJson ∧
    member? "public_value" (JsonForm.toJson doc) = doc.publicValue.map JsonForm.toJson ∧
    member? "contract" (JsonForm.toJson doc) = doc.contract.map JsonForm.toJson ∧
    member? "notary_address" (JsonForm.toJson doc) = doc.notaryAddress.map JsonForm.toJson ∧
    member? "auxfee_address" (JsonForm.toJson doc) = doc.feeAddress.map JsonForm.toJson ∧
    member? "auxfee_details" (JsonForm.toJson doc) = doc.feeDetails.map JsonForm.toJson ∧
    member? "notary_details" (JsonForm.toJson doc) = doc.notaryDetails.map JsonForm.toJson ∧
    member? "updatecapability_flags" (JsonForm.toJson doc) =
      doc.capabilityFlags.map JsonForm.toJson ∧
    member? "balance" (JsonForm.toJson doc) = doc.balance.map JsonForm.toJson ∧
    member? "update_flags" (JsonForm.toJson doc) = some (JsonForm.toJson doc.updateFlags) := by
  refine ⟨?_, ?_, ?_, ?_, ?_, ?_, ?_, ?_, ?_, ?_, ?_, ?_⟩
  all_goals simp [member?, JsonForm.toJson, Heading.members]

end Document

end UtxoAssets
