import UtxoAssets.Bytes.Basic

/-!
# Little-endian words

* `littleEndian k n` is the `k` low bytes of `n`, least significant first, and `ofLittleEndian` is
  the number a byte string denotes.  The two are inverse on `k` bytes (`ofLittleEndian_littleEndian`,
  `littleEndian_ofLittleEndian`).
* `Word α` is a fixed-width integer type read and written this way; `Word.ofBytes_toBytes` and
  `Word.toBytes_ofBytes` hold for every such type at once.
* `int64OfInt?` and `uint64OfNat?` give the 64-bit number of an exact one, if there is one.
-/

set_option autoImplicit false

namespace UtxoAssets

/-- How many numbers `k` bytes can hold. -/
def byteRange : Nat → Nat
  | 0 => 1
  | k + 1 => 256 * byteRange k

/-- The `k` low bytes of a number, least significant first. -/
def littleEndian : Nat → Nat → Bytes
  | 0, _ => []
  | k + 1, n => UInt8.ofNat n :: littleEndian k (n / 256)

/-- The number of a byte string, least significant byte first. -/
def ofLittleEndian : Bytes → Nat
  | [] => 0
  | b :: bs => b.toNat + 256 * ofLittleEndian bs

@[simp] theorem length_littleEndian (k n : Nat) : (littleEndian k n).length = k := by
  induction k generalizing n with
  | zero => rfl
  | succ k ih => simp [littleEndian, ih]

theorem ofLittleEndian_lt (bs : Bytes) : ofLittleEndian bs < byteRange bs.length := by
  induction bs with
  | nil => simp [ofLittleEndian, byteRange]
  | cons b bs ih =>
    have hb := b.toNat_lt
    simp only [ofLittleEndian, List.length_cons, byteRange]
    omega

theorem ofLittleEndian_append (low high : Bytes) :
    ofLittleEndian (low ++ high) =
      ofLittleEndian low + byteRange low.length * ofLittleEndian high := by
  induction low with
  | nil => simp [ofLittleEndian, byteRange]
  | cons b low ih =>
    simp only [List.cons_append, ofLittleEndian, ih, List.length_cons, byteRange, Nat.mul_add,
      Nat.mul_assoc, Nat.add_assoc]

/-- The digits of a number that fits the width are digits of that number. -/
theorem ofLittleEndian_littleEndian {k n : Nat} (h : n < byteRange k) :
    ofLittleEndian (littleEndian k n) = n := by
  induction k generalizing n with
  | zero =>
    simp only [byteRange] at h
    simp only [littleEndian, ofLittleEndian]
    omega
  | succ k ih =>
    have hk : n / 256 < byteRange k := by
      simp only [byteRange] at h
      omega
    simp only [littleEndian, ofLittleEndian, ih hk, UInt8.toNat_ofNat']
    omega

/-- A row of bytes is the digits of its number, at its own length. -/
theorem littleEndian_ofLittleEndian (bs : Bytes) :
    littleEndian bs.length (ofLittleEndian bs) = bs := by
  induction bs with
  | nil => rfl
  | cons b bs ih =>
    have hb := b.toNat_lt
    have hd : (b.toNat + 256 * ofLittleEndian bs) / 256 = ofLittleEndian bs := by omega
    simp only [List.length_cons, ofLittleEndian, littleEndian, hd, ih]
    congr 1
    apply UInt8.toNat_inj.mp
    rw [UInt8.toNat_ofNat']
    omega

/-- A fixed-width integer type, seen as the numbers that `width` bytes hold. -/
class Word (α : Type) where
  width : Nat
  toNat : α → Nat
  ofNat : Nat → α
  toNat_lt : ∀ x, toNat x < byteRange width
  ofNat_toNat : ∀ x, ofNat (toNat x) = x
  toNat_ofNat : ∀ n, n < byteRange width → toNat (ofNat n) = n

namespace Word

variable {α : Type} [Word α]

/-- The bytes of a word, least significant first. -/
def toBytes (x : α) : Bytes := littleEndian (width α) (toNat x)

/-- The word a byte string denotes; callers supply `width α` bytes. -/
def ofBytes (α : Type) [Word α] (bs : Bytes) : α := ofNat (ofLittleEndian bs)

@[simp] theorem length_toBytes (x : α) : (toBytes x).length = width α := by simp [toBytes]

@[simp] theorem ofBytes_toBytes (x : α) : ofBytes α (toBytes x) = x := by
  rw [ofBytes, toBytes, ofLittleEndian_littleEndian (toNat_lt x), ofNat_toNat]

theorem toBytes_ofBytes {bs : Bytes} (h : bs.length = width α) : toBytes (ofBytes α bs) = bs := by
  have hlt := ofLittleEndian_lt bs
  rw [h] at hlt
  rw [ofBytes, toBytes, toNat_ofNat _ hlt, ← h, littleEndian_ofLittleEndian]

instance : Word UInt8 where
  width := 1
  toNat := UInt8.toNat
  ofNat := UInt8.ofNat
  toNat_lt x := x.toNat_lt
  ofNat_toNat x := UInt8.ofNat_toNat
  toNat_ofNat n h := by rw [UInt8.toNat_ofNat']; exact Nat.mod_eq_of_lt h

instance : Word UInt16 where
  width := 2
  toNat := UInt16.toNat
  ofNat := UInt16.ofNat
  toNat_lt x := x.toNat_lt
  ofNat_toNat x := UInt16.ofNat_toNat
  toNat_ofNat n h := by rw [UInt16.toNat_ofNat']; exact Nat.mod_eq_of_lt h

instance : Word UInt32 where
  width := 4
  toNat := UInt32.toNat
  ofNat := UInt32.ofNat
  toNat_lt x := x.toNat_lt
  ofNat_toNat x := UInt32.ofNat_toNat
  toNat_ofNat n h := by rw [UInt32.toNat_ofNat']; exact Nat.mod_eq_of_lt h

instance : Word Int32 where
  width := 4
  toNat x := x.toUInt32.toNat
  ofNat n := (UInt32.ofNat n).toInt32
  toNat_lt x := x.toUInt32.toNat_lt
  ofNat_toNat x := by simp
  toNat_ofNat n h := by
    simp only [UInt32.toUInt32_toInt32, UInt32.toNat_ofNat']
    exact Nat.mod_eq_of_lt h

instance : Word Int64 where
  width := 8
  toNat x := x.toUInt64.toNat
  ofNat n := (UInt64.ofNat n).toInt64
  toNat_lt x := x.toUInt64.toNat_lt
  ofNat_toNat x := by simp
  toNat_ofNat n h := by
    simp only [UInt64.toUInt64_toInt64, UInt64.toNat_ofNat']
    exact Nat.mod_eq_of_lt h

end Word

/-! ## Numbers that 64 bits hold -/

/-- The 64-bit signed number of an integer, if there is one. -/
def int64OfInt? (n : Int) : Option Int64 :=
  if -0x8000000000000000 ≤ n ∧ n < 0x8000000000000000 then some (Int64.ofInt n) else none

/-- The 64-bit unsigned number of a natural number, if there is one. -/
def uint64OfNat? (n : Nat) : Option UInt64 :=
  if n < 0x10000000000000000 then some (UInt64.ofNat n) else none

/-- Some 64-bit signed number has this value. -/
def FitsInt64 (n : Int) : Prop := -0x8000000000000000 ≤ n ∧ n < 0x8000000000000000

instance (n : Int) : Decidable (FitsInt64 n) := inferInstanceAs (Decidable (_ ∧ _))

theorem fitsInt64_toInt (a : Int64) : FitsInt64 a.toInt := ⟨a.le_toInt, a.toInt_lt⟩

theorem FitsInt64.exists_toInt {n : Int} (h : FitsInt64 n) : ∃ a : Int64, a.toInt = n :=
  ⟨Int64.ofInt n, Int64.toInt_ofInt_of_le h.1 h.2⟩

theorem int64OfInt?_toInt (n : Int64) : int64OfInt? n.toInt = some n := by
  have hlow := n.le_toInt
  have hhigh := n.toInt_lt
  rw [int64OfInt?, if_pos ⟨by omega, by omega⟩, Int64.ofInt_toInt]

/-- A signed word is found for exactly the numbers it can hold. -/
theorem int64OfInt?_eq_some_iff {n : Int} {a : Int64} : int64OfInt? n = some a ↔ a.toInt = n := by
  constructor
  · intro h
    unfold int64OfInt? at h
    split at h
    · rename_i hfits
      cases h
      exact Int64.toInt_ofInt_of_le hfits.1 hfits.2
    · cases h
  · rintro rfl
    exact int64OfInt?_toInt a

theorem exists_uint64_toNat {n : Nat} (h : n < UInt64.size) : ∃ a : UInt64, a.toNat = n :=
  ⟨UInt64.ofNat n, UInt64.toNat_ofNat_of_lt' h⟩

theorem uint64OfNat?_eq_some_iff {n : Nat} {a : UInt64} :
    uint64OfNat? n = some a ↔ a.toNat = n := by
  constructor
  · intro h
    unfold uint64OfNat? at h
    split at h
    · rename_i hfits
      cases h
      exact UInt64.toNat_ofNat_of_lt' hfits
    · cases h
  · rintro rfl
    rw [uint64OfNat?, if_pos a.toNat_lt, UInt64.ofNat_toNat]

end UtxoAssets
