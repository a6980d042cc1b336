import UtxoAssets.Json.Form
import UtxoAssets.Proofs.Text.Amount

/-!
# Types whose values are read back

* `LawfulJsonForm α` — a value of the type is read back from its JSON form, which is not null.
* `Json.required?_bind`, `Json.optional?_bind`, `Json.withDefault?_bind` — a document is read field
  by field, each from the member that shows it.
-/

set_option autoImplicit false

namespace UtxoAssets

open JsonForm (toJson ofJson? natBelow?)

/-- Types whose values are read back from their JSON forms, which are never null. -/
class LawfulJsonForm (α : Type) [JsonForm α] : Prop where
  ofJson?_toJson (x : α) : ofJson? (toJson x) = some x
  toJson_ne_null (x : α) : toJson x ≠ .null

namespace LawfulJsonForm

attribute [simp] ofJson?_toJson

variable {α β : Type}

/-! ## Numbers -/

theorem map_natBelow? {bound n : Nat} {read : Nat → α} {x : α} (h : n < bound)
    (hread : read n = x) : (natBelow? bound (.int n)).map read = some x := by
  rw [natBelow?, if_pos ⟨by omega, by omega⟩, Int.toNat_natCast, Option.map_some, hread]

instance : LawfulJsonForm UInt8 where
  ofJson?_toJson n := map_natBelow? n.toNat_lt UInt8.ofNat_toNat
  toJson_ne_null n := by rintro ⟨⟩

instance : LawfulJsonForm UInt32 where
  ofJson?_toJson n := map_natBelow? n.toNat_lt UInt32.ofNat_toNat
  toJson_ne_null n := by rintro ⟨⟩

instance : LawfulJsonForm UInt64 where
  ofJson?_toJson n := map_natBelow? n.toNat_lt UInt64.ofNat_toNat
  toJson_ne_null n := by rintro ⟨⟩

instance : LawfulJsonForm Int64 where
  ofJson?_toJson n := int64OfInt?_toInt n
  toJson_ne_null n := by rintro ⟨⟩

/-! ## Texts -/

instance : LawfulJsonForm Bool where
  ofJson?_toJson b := rfl
  toJson_ne_null b := by rintro ⟨⟩

instance : LawfulJsonForm String where
  ofJson?_toJson s := rfl
  toJson_ne_null s := by rintro ⟨⟩

instance : LawfulJsonForm Hash256 where
  ofJson?_toJson h := by
    change (Hash256.ofText h.text).toOption = some h
    rw [Hash256.ofText_text]
    rfl
  toJson_ne_null h := by rintro ⟨⟩

instance : LawfulJsonForm Amount where
  ofJson?_toJson a := by
    change (Amount.ofText a.text).toOption = some a
    rw [Amount.ofText_text]
    rfl
  toJson_ne_null a := by rintro ⟨⟩

/-! ## Lists and pairs -/

theorem mapM_ofJson?_toJson [JsonForm α] [LawfulJsonForm α] (xs : List α) :
    (xs.map toJson).mapM (ofJson? : Json → Option α) = some xs := by
  induction xs with
  | nil => rfl
  | cons x xs ih =>
    rw [List.map_cons, List.mapM_cons, ofJson?_toJson, ih]
    rfl

instance [JsonForm α] [LawfulJsonForm α] : LawfulJsonForm (List α) where
  ofJson?_toJson xs := mapM_ofJson?_toJson xs
  toJson_ne_null xs := by rintro ⟨⟩

instance [JsonForm α] [LawfulJsonForm α] [JsonForm β] [LawfulJsonForm β] :
    LawfulJsonForm (α × β) where
  ofJson?_toJson p := by
    change (ofJson? (toJson p.1) >>= fun x => ofJson? (toJson p.2) >>= fun y => pure (x, y)) = _
    rw [ofJson?_toJson, ofJson?_toJson]
    rfl
  toJson_ne_null p := by rintro ⟨⟩

end LawfulJsonForm

/-! ## Members -/

/-- A step of a reading whose outcome is known. -/
theorem bind_eq_some_of_eq {α β : Type} {x : Option α} {a : α} {f : α → Option β} {b : β}
    (hx : x = some a) (hf : f a = some b) : (x >>= f) = some b := by
  rw [hx]
  exact hf

namespace Json

variable {α β : Type} [JsonForm α] {key : String} {v : Json} {b : β}

theorem required?_eq [LawfulJsonForm α] {x : α} (h : v.member? key = some (toJson x)) :
    required? α key v = some x := by
  rw [required?, h, Option.bind_some, LawfulJsonForm.ofJson?_toJson]

theorem required?_bind [LawfulJsonForm α] {f : α → Option β} (x : α)
    (h : v.member? key = some (toJson x)) (hf : f x = some b) :
    (required? α key v >>= f) = some b :=
  bind_eq_some_of_eq (required?_eq h) hf

theorem required?_eq_none (h : v.member? key = none) : required? α key v = none := by
  rw [required?, h, Option.bind_none]

/-- A field that is read back need not be of a type all of whose values are. -/
theorem optional?_bind_of_mem {f : Option α → Option β} (field : Option α)
    (hread : ∀ x ∈ field, toJson x ≠ .null ∧ ofJson? (toJson x) = some x)
    (h : v.member? key = field.map toJson) (hf : f field = some b) :
    (optional? α key v >>= f) = some b := by
  refine bind_eq_some_of_eq ?_ hf
  rw [optional?, h]
  cases field with
  | none => rfl
  | some x =>
    obtain ⟨hnull, hback⟩ := hread x rfl
    rw [Option.map_some]
    split
    case h_1 heq => cases heq
    case h_2 heq => exact absurd (Option.some.inj heq) hnull
    case h_3 _ _ heq =>
      rw [← Option.some.inj heq, hback]
      rfl

/-- An optional member is read back, present or absent, and the reading goes on with it. -/
theorem optional?_bind [LawfulJsonForm α] {f : Option α → Option β} (field : Option α)
    (h : v.member? key = field.map toJson) (hf : f field = some b) :
    (optional? α key v >>= f) = some b :=
  optional?_bind_of_mem field
    (fun x _ => ⟨LawfulJsonForm.toJson_ne_null x, LawfulJsonForm.ofJson?_toJson x⟩) h hf

theorem withDefault?_bind [LawfulJsonForm α] {f : α → Option β} {value : α} (x : α)
    (h : v.member? key = some (toJson x)) (hf : f x = some b) :
    (withDefault? key value v >>= f) = some b := by
  refine bind_eq_some_of_eq ?_ hf
  rw [withDefault?, h]
  exact LawfulJsonForm.ofJson?_toJson x

end Json

end UtxoAssets
