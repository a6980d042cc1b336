import UtxoAssets.Bytes.Basic

/-!
# Base64

Three bytes become four characters of the standard alphabet; a shorter last group is padded with
`=`.  Characters are bytes here, as they stand in a payload.

* `encode` and `decode?`; `decode?` accepts canonical text only: padding is required, its spare bits
  are zero, and nothing else may stand in the text.
* `decode?_encode`: decoding undoes encoding; `encode_of_decode?`: no other text is accepted.
* `length_encode`: four characters for three bytes.
-/

set_option autoImplicit false

namespace UtxoAssets.Base64

/-- The padding character. -/
def pad : UInt8 := 0x3d

/-- The character of a number below 64. -/
def digit (n : Nat) : UInt8 :=
  if n < 26 then UInt8.ofNat (0x41 + n)
  else if n < 52 then UInt8.ofNat (0x61 + (n - 26))
  else if n < 62 then UInt8.ofNat (0x30 + (n - 52))
  else if n = 62 then 0x2b
  else 0x2f

/-- The six bits that a digit stands for. -/
def value? (c : UInt8) : Option Nat :=
  let n := c.toNat
  if 0x41 ≤ n ∧ n ≤ 0x5a then some (n - 0x41)
  else if 0x61 ≤ n ∧ n ≤ 0x7a then some (n - 0x61 + 26)
  else if 0x30 ≤ n ∧ n ≤ 0x39 then some (n - 0x30 + 52)
  else if n = 0x2b then some 62
  else if n = 0x2f then some 63
  else none

/-- Four digits for three bytes, the last ones padded. -/
def encode : Bytes → Bytes
  | [] => []
  | [a] =>
    let n := a.toNat * 16
    [digit (n / 64), digit (n % 64), pad, pad]
  | [a, b] =>
    let n := (a.toNat * 256 + b.toNat) * 4
    [digit (n / 4096), digit (n / 64 % 64), digit (n % 64), pad]
  | a :: b :: c :: rest =>
    let n := (a.toNat * 256 + b.toNat) * 256 + c.toNat
    digit (n / 262144) :: digit (n / 4096 % 64) :: digit (n / 64 % 64) :: digit (n % 64)
      :: encode rest

/-- One byte from a last group with two padding characters. -/
def decodeOne? (a b : UInt8) : Option Bytes := do
  let n := (← value? a) * 64 + (← value? b)
  if n % 16 = 0 then return [UInt8.ofNat (n / 16)] else none

/-- Two bytes from a last group with one padding character. -/
def decodeTwo? (a b c : UInt8) : Option Bytes := do
  let n := ((← value? a) * 64 + (← value? b)) * 64 + (← value? c)
  if n % 4 = 0 then return [UInt8.ofNat (n / 1024), UInt8.ofNat (n / 4)] else none

/-- Three bytes from four digits. -/
def decodeThree? (a b c d : UInt8) : Option Bytes := do
  let n := (((← value? a) * 64 + (← value? b)) * 64 + (← value? c)) * 64 + (← value? d)
  return [UInt8.ofNat (n / 65536), UInt8.ofNat (n / 256), UInt8.ofNat n]

/-- The bytes of a text. Padding stands at the end only, and the bits that it leaves over are zero.
-/
def decode? : Bytes → Option Bytes
  | [] => some []
  | a :: b :: c :: d :: rest =>
    if d = pad ∧ rest = [] then
      if c = pad then decodeOne? a b else decodeTwo? a b c
    else do
      let group ← decodeThree? a b c d
      let bytes ← decode? rest
      return group ++ bytes
  | _ => none

theorem value?_digit {n : Nat} (h : n < 64) : value? (digit n) = some n := by
  have all : ∀ n, n < 64 → value? (digit n) = some n := by decide
  exact all n h

theorem digit_ne_pad {n : Nat} (h : n < 64) : digit n ≠ pad := by
  have all : ∀ n, n < 64 → digit n ≠ pad := by decide
  exact all n h

theorem ofNat_eq_of_mod {a : UInt8} {n : Nat} (h : n % 256 = a.toNat) : UInt8.ofNat n = a := by
  apply UInt8.toNat_inj.mp
  rw [UInt8.toNat_ofNat', h]

/-- Decoding gives back what was encoded. -/
theorem decode?_encode (bs : Bytes) : decode? (encode bs) = some bs := by
  fun_induction encode bs with
  | case1 => rfl
  | case2 a n =>
    have ha := a.toNat_lt
    have h1 : n / 64 * 64 + n % 64 = a.toNat * 16 := by omega
    simp only [decode?, and_self, if_true, decodeOne?, value?_digit (show n / 64 < 64 by omega),
      value?_digit (show n % 64 < 64 by omega), Option.bind_eq_bind, Option.bind_some, h1,
      Nat.mul_mod_left, pure]
    rw [ofNat_eq_of_mod (a := a) (by omega)]
  | case3 a b n =>
    have ha := a.toNat_lt
    have hb := b.toNat_lt
    have h1 : (n / 4096 * 64 + n / 64 % 64) * 64 + n % 64 = n := by omega
    simp only [decode?, and_self, if_true, digit_ne_pad (show n % 64 < 64 by omega), if_false,
      decodeTwo?, value?_digit (show n / 4096 < 64 by omega),
      value?_digit (show n / 64 % 64 < 64 by omega), value?_digit (show n % 64 < 64 by omega),
      Option.bind_eq_bind, Option.bind_some, h1, pure]
    rw [if_pos (by omega), ofNat_eq_of_mod (a := a) (by omega), ofNat_eq_of_mod (a := b) (by omega)]
  | case4 a b c rest n ih =>
    have ha := a.toNat_lt
    have hb := b.toNat_lt
    have hc := c.toNat_lt
    have h1 : ((n / 262144 * 64 + n / 4096 % 64) * 64 + n / 64 % 64) * 64 + n % 64 = n := by omega
    simp only [decode?, digit_ne_pad (show n % 64 < 64 by omega), false_and, if_false,
      decodeThree?, value?_digit (show n / 262144 < 64 by omega),
      value?_digit (show n / 4096 % 64 < 64 by omega),
      value?_digit (show n / 64 % 64 < 64 by omega), value?_digit (show n % 64 < 64 by omega),
      Option.bind_eq_bind, Option.bind_some, h1, ih, pure]
    rw [ofNat_eq_of_mod (a := a) (by omega), ofNat_eq_of_mod (a := b) (by omega),
      ofNat_eq_of_mod (a := c) (by omega)]
    rfl

theorem length_encode (bs : Bytes) : (encode bs).length = 4 * ((bs.length + 2) / 3) := by
  fun_induction encode bs with
  | case1 => rfl
  | case2 a n => simp
  | case3 a b n => simp
  | case4 a b c rest n ih =>
    simp only [List.length_cons, ih]
    omega

/-! ## One text for each byte string -/

theorem digit_of_value? {c : UInt8} {n : Nat} (h : value? c = some n) : n < 64 ∧ digit n = c := by
  have all : ∀ k, k < 256 → ∀ n ∈ value? (UInt8.ofNat k), n < 64 ∧ digit n = UInt8.ofNat k := by
    decide +kernel
  have hc := all c.toNat c.toNat_lt
  rw [UInt8.ofNat_toNat] at hc
  exact hc n h

/-- A padded group that decodes to one byte is the only form of that byte: bits that the byte does
not use are not let pass. -/
theorem encode_of_decodeOne? {a b : UInt8} {bs : Bytes} (h : decodeOne? a b = some bs) :
    encode bs = [a, b, pad, pad] := by
  unfold decodeOne? at h
  simp only [Option.bind_eq_bind, Option.bind_eq_some_iff, Option.ite_none_right_eq_some, pure,
    Option.some.injEq] at h
  obtain ⟨x, hx, y, hy, hz, rfl⟩ := h
  obtain ⟨hx, rfl⟩ := digit_of_value? hx
  obtain ⟨hy, rfl⟩ := digit_of_value? hy
  have h1 : (x * 64 + y) / 16 % 256 * 16 = x * 64 + y := by omega
  simp only [encode, UInt8.toNat_ofNat', h1, show (x * 64 + y) / 64 = x by omega,
    show (x * 64 + y) % 64 = y by omega]

theorem encode_of_decodeTwo? {a b c : UInt8} {bs : Bytes} (h : decodeTwo? a b c = some bs) :
    encode bs = [a, b, c, pad] := by
  unfold decodeTwo? at h
  simp only [Option.bind_eq_bind, Option.bind_eq_some_iff, Option.ite_none_right_eq_some, pure,
    Option.some.injEq] at h
  obtain ⟨x, hx, y, hy, z, hz, h0, rfl⟩ := h
  obtain ⟨hx, rfl⟩ := digit_of_value? hx
  obtain ⟨hy, rfl⟩ := digit_of_value? hy
  obtain ⟨hz, rfl⟩ := digit_of_value? hz
  have h1 : (((x * 64 + y) * 64 + z) / 1024 % 256 * 256 + ((x * 64 + y) * 64 + z) / 4 % 256) * 4 =
      (x * 64 + y) * 64 + z := by omega
  simp only [encode, UInt8.toNat_ofNat', h1, show ((x * 64 + y) * 64 + z) / 4096 = x by omega,
    show ((x * 64 + y) * 64 + z) / 64 % 64 = y by omega,
    show ((x * 64 + y) * 64 + z) % 64 = z by omega]

theorem encode_of_decodeThree? {a b c d : UInt8} {group rest : Bytes}
    (h : decodeThree? a b c d = some group) :
    encode (group ++ rest) = a :: b :: c :: d :: encode rest := by
  unfold decodeThree? at h
  simp only [Option.bind_eq_bind, Option.bind_eq_some_iff, pure, Option.some.injEq] at h
  obtain ⟨x, hx, y, hy, z, hz, w, hw, rfl⟩ := h
  obtain ⟨hx, rfl⟩ := digit_of_value? hx
  obtain ⟨hy, rfl⟩ := digit_of_value? hy
  obtain ⟨hz, rfl⟩ := digit_of_value? hz
  obtain ⟨hw, rfl⟩ := digit_of_value? hw
  generalize hn : ((x * 64 + y) * 64 + z) * 64 + w = n
  have h1 : (n / 65536 % 256 * 256 + n / 256 % 256) * 256 + n % 256 = n := by omega
  simp only [List.cons_append, List.nil_append, encode, UInt8.toNat_ofNat', h1,
    show n / 262144 = x by omega, show n / 4096 % 64 = y by omega,
    show n / 64 % 64 = z by omega, show n % 64 = w by omega]

/-- Only canonical text is decoded. -/
theorem encode_of_decode? {text bs : Bytes} (h : decode? text = some bs) : encode bs = text := by
  fun_induction decode? text generalizing bs with
  | case1 =>
    cases h
    rfl
  | case2 a b d rest hend =>
    obtain ⟨rfl, rfl⟩ := hend
    exact encode_of_decodeOne? h
  | case3 a b c d rest hend hc =>
    obtain ⟨rfl, rfl⟩ := hend
    exact encode_of_decodeTwo? h
  | case4 a b c d rest hend ih =>
    simp only [Option.bind_eq_bind, Option.bind_eq_some_iff, pure, Option.some.injEq] at h
    obtain ⟨group, hgroup, bytes, hbytes, rfl⟩ := h
    rw [encode_of_decodeThree? hgroup, ih hbytes]
  | case5 => cases h

end UtxoAssets.Base64
