/-!
# Byte strings

`Bytes` is the currency of the library: scripts, payloads and encodings are lists of bytes.
`FixedBytes n` is a byte string whose length is known to be `n`; hashes and key ids are of it,
so no function on them has a case for a wrong length.

* `splitExactly?` cuts a byte string after a given number of bytes (`splitExactly?_eq`,
  `splitExactly?_append`).
* `FixedBytes.ofBytes?` accepts exactly the byte strings of the right length.
-/

set_option autoImplicit false

namespace UtxoAssets

/-- Strings of bytes: payloads, scripts and encodings. -/
abbrev Bytes := List UInt8

/-- The first `n` bytes and the rest, if there are `n`. Looks no further than those `n`. -/
def splitExactly? (n : Nat) (bs : Bytes) : Option (Bytes × Bytes) :=
  let front := bs.take n
  if front.length = n then some (front, bs.drop n) else none

theorem splitExactly?_eq (n : Nat) (bs : Bytes) :
    splitExactly? n bs = if n ≤ bs.length then some (bs.take n, bs.drop n) else none := by
  have h : (bs.take n).length = n ↔ n ≤ bs.length := by rw [List.length_take]; omega
  simp only [splitExactly?, h]

theorem splitExactly?_eq_none_iff {n : Nat} {bs : Bytes} :
    splitExactly? n bs = none ↔ bs.length < n := by
  rw [splitExactly?_eq]
  split
  · simpa using ‹n ≤ bs.length›
  · simpa using ‹¬ n ≤ bs.length›

theorem append_eq_of_splitExactly? {n : Nat} {bs front rest : Bytes}
    (h : splitExactly? n bs = some (front, rest)) : front ++ rest = bs := by
  rw [splitExactly?_eq] at h
  split at h
  · cases h
    exact List.take_append_drop n bs
  · cases h

theorem splitExactly?_append {n : Nat} {front : Bytes} (h : front.length = n) (rest : Bytes) :
    splitExactly? n (front ++ rest) = some (front, rest) := by
  subst h
  rw [splitExactly?_eq, List.length_append, if_pos (Nat.le_add_right _ _), List.take_left,
    List.drop_left]

theorem length_of_splitExactly? {n : Nat} {bs front rest : Bytes}
    (h : splitExactly? n bs = some (front, rest)) : front.length = n := by
  rw [splitExactly?_eq] at h
  split at h
  · rename_i hn
    cases h
    rw [List.length_take, Nat.min_eq_left hn]
  · cases h

/-- Exactly `n` bytes. -/
structure FixedBytes (n : Nat) where
  toBytes : Bytes
  length_toBytes : toBytes.length = n
  deriving DecidableEq

namespace FixedBytes

variable {n : Nat}

@[ext] theorem ext {a b : FixedBytes n} (h : a.toBytes = b.toBytes) : a = b := by
  cases a; cases b; cases h; rfl

/-- The byte `b`, `n` times. -/
def replicate (n : Nat) (b : UInt8) : FixedBytes n :=
  ⟨List.replicate n b, List.length_replicate⟩

instance : Inhabited (FixedBytes n) := ⟨replicate n 0⟩

/-- Read a byte string as `n` bytes, if it has that many. -/
def ofBytes? (n : Nat) (bs : Bytes) : Option (FixedBytes n) :=
  if h : bs.length = n then some ⟨bs, h⟩ else none

@[simp] theorem ofBytes?_toBytes (a : FixedBytes n) : ofBytes? n a.toBytes = some a := by
  simp [ofBytes?, a.length_toBytes]

theorem ofBytes?_eq_some_iff {bs : Bytes} {a : FixedBytes n} :
    ofBytes? n bs = some a ↔ a.toBytes = bs := by
  constructor
  · intro h
    unfold ofBytes? at h
    split at h
    · cases h; rfl
    · cases h
  · rintro rfl
    exact ofBytes?_toBytes a

theorem ofBytes?_eq_none_iff {bs : Bytes} : ofBytes? n bs = none ↔ bs.length ≠ n := by
  by_cases h : bs.length = n
  · simp [ofBytes?, h]
  · simp [ofBytes?, h]

/-- The same bytes, last first. -/
def reverse (a : FixedBytes n) : FixedBytes n :=
  ⟨a.toBytes.reverse, by rw [List.length_reverse, a.length_toBytes]⟩

@[simp] theorem reverse_reverse (a : FixedBytes n) : a.reverse.reverse = a :=
  FixedBytes.ext (List.reverse_reverse a.toBytes)

end FixedBytes

end UtxoAssets
