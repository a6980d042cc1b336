import UtxoAssets.Amount
import UtxoAssets.Digest.Hash256
import UtxoAssets.Json.Basic

/-!
# Values with a JSON form

* `JsonForm α` writes values of a type as JSON and reads them back; reading fails on a value of
  another type or out of range.
* `Json.required?`, `Json.optional?` and `Json.withDefault?` read members of an object.  A member
  that is not asked for is ignored.
-/

set_option autoImplicit false

namespace UtxoAssets

/-- Types that have a JSON form. -/
class JsonForm (α : Type) where
  toJson : α → Json
  ofJson? : Json → Option α

namespace JsonForm

variable {α β : Type}

instance : JsonForm Json where
  toJson v := v
  ofJson? v := some v

instance : JsonForm Bool where
  toJson b := .bool b
  ofJson?
    | .bool b => some b
    | _ => none

instance : JsonForm String where
  toJson s := .text s
  ofJson?
    | .text s => some s
    | _ => none

/-- A number from zero up to but not including a bound. -/
def natBelow? (bound : Nat) : Json → Option Nat
  | .int n => if 0 ≤ n ∧ n < bound then some n.toNat else none
  | _ => none

instance : JsonForm UInt8 where
  toJson n := .int n.toNat
  ofJson? v := (natBelow? 0x100 v).map UInt8.ofNat

instance : JsonForm UInt32 where
  toJson n := .int n.toNat
  ofJson? v := (natBelow? 0x100000000 v).map UInt32.ofNat

instance : JsonForm UInt64 where
  toJson n := .int n.toNat
  ofJson? v := (natBelow? 0x10000000000000000 v).map UInt64.ofNat

instance : JsonForm Int64 where
  toJson n := .int n.toInt
  ofJson?
    | .int n => int64OfInt? n
    | _ => none

instance : JsonForm Hash256 where
  toJson h := .text h.text
  ofJson?
    | .text s => (Hash256.ofText s).toOption
    | _ => none

instance : JsonForm Amount where
  toJson a := .text a.text
  ofJson?
    | .text s => (Amount.ofText s).toOption
    | _ => none

instance [JsonForm α] : JsonForm (List α) where
  toJson xs := .list (xs.map toJson)
  ofJson?
    | .list items => items.mapM ofJson?
    | _ => none

/-- A pair is a list of exactly two items. -/
instance [JsonForm α] [JsonForm β] : JsonForm (α × β) where
  toJson p := .list [toJson p.1, toJson p.2]
  ofJson?
    | .list [x, y] => do return (← ofJson? x, ← ofJson? y)
    | _ => none

end JsonForm

namespace Json

variable {α : Type} [JsonForm α]

/-- The member of a field that is always there. -/
def always (key : String) (value : α) : List (String × Json) := [(key, JsonForm.toJson value)]

/-- The member of a field that may be absent, which then has none. -/
def whenSome (key : String) : Option α → List (String × Json)
  | some value => [(key, JsonForm.toJson value)]
  | none => []

/-- A member that has to be there. -/
def required? (α : Type) [JsonForm α] (key : String) (v : Json) : Option α :=
  (v.member? key).bind JsonForm.ofJson?

/-- A member that may be missing or null; one that is there has to be of the right type. -/
def optional? (α : Type) [JsonForm α] (key : String) (v : Json) : Option (Option α) :=
  match v.member? key with
  | none | some .null => some none
  | some value => (JsonForm.ofJson? value).map some

/-- A member that may be missing but not null. -/
def withDefault? (key : String) (value : α) (v : Json) : Option α :=
  match v.member? key with
  | none => some value
  | some found => JsonForm.ofJson? found

end Json

end UtxoAssets
