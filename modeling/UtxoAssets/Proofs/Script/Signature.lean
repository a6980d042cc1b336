import UtxoAssets.Proofs.Outcome
import UtxoAssets.Script.Signature

/-!
# The form of a signature push

* `IsStrictInteger`, `signatureBytes` — the grammar: two integers in their shortest form and a flag.
* `exists_integers` — a push of the right length is cut into its parts by the two sizes that it
  states; `isStrictInteger_iff` reads an integer off the place where it stands.
* `checkDer_eq_ok_iff` — the tests pass exactly the pushes of the grammar, of any flag.
* `inspectSignature` — the same tests by someone who can only ask for a byte by its index, and gets
  no further once there is none; `inspectSignature_eq` says that there always is one.
* `checkSignature_strict` — what is accepted, and that no byte outside of the push is looked at.
-/

set_option autoImplicit false

namespace UtxoAssets

variable {sig : Bytes}

/-! ## The grammar -/

/-- The bytes of an integer, highest first: not negative, and without a zero in front unless the
integer would be negative without it. -/
structure IsStrictInteger (digits : Bytes) : Prop where
  ne_nil : digits ≠ []
  not_negative : ∀ first ∈ digits.head?, first < 0x80
  not_padded : ∀ second rest, digits = 0x00 :: second :: rest → 0x80 ≤ second

/-- A signature push of two integers and a flag. -/
def signatureBytes (r s : Bytes) (flag : UInt8) : Bytes :=
  [0x30, UInt8.ofNat (r.length + s.length + 4), 0x02, UInt8.ofNat r.length] ++ r
    ++ [0x02, UInt8.ofNat s.length] ++ s ++ [flag]

theorem length_signatureBytes (r s : Bytes) (flag : UInt8) :
    (signatureBytes r s flag).length = r.length + s.length + 7 := by
  simp [signatureBytes]
  omega

theorem not_topBit_iff {b : UInt8} : ¬ topBit b ↔ b < 0x80 := by
  rw [topBit, decide_eq_true_iff, UInt8.not_le]

/-! ## Bytes at their places -/

theorem getElem_of_eq_append (front : Bytes) {back : Bytes} {b : UInt8}
    (h : sig = front ++ b :: back) {i : Nat} (hi : i < sig.length) (hfront : i = front.length) :
    sig[i] = b := by
  subst h hfront
  simp

/-- A part of the signature is a strict integer if its first two bytes are as they should be. -/
theorem isStrictInteger_iff (front : Bytes) {digits back : Bytes} {i : Nat}
    (h : sig = front ++ digits ++ back) (hfront : i = front.length) (hi : i + 1 < sig.length) :
    IsStrictInteger digits ↔
      digits.length ≠ 0 ∧ ¬ topBit sig[i] ∧
        ¬ (1 < digits.length ∧ sig[i] = 0x00 ∧ ¬ topBit sig[i + 1]) := by
  cases digits with
  | nil => exact ⟨fun hstrict => absurd rfl hstrict.ne_nil, fun htests => absurd rfl htests.1⟩
  | cons first rest =>
    have hfirst : sig[i] = first := getElem_of_eq_append front (by simpa using h) _ hfront
    rw [hfirst, not_topBit_iff]
    cases rest with
    | nil =>
      constructor
      · intro hstrict
        exact ⟨by simp, hstrict.not_negative first rfl, by simp⟩
      · rintro ⟨-, hnegative, -⟩
        exact ⟨by simp, by simpa using hnegative, by simp⟩
    | cons second rest =>
      have hsecond : sig[i + 1] = second :=
        getElem_of_eq_append (front ++ [first]) (by simpa using h) _ (by simp [hfront])
      rw [hsecond, not_topBit_iff]
      constructor
      · intro hstrict
        refine ⟨by simp, hstrict.not_negative first rfl, ?_⟩
        rintro ⟨-, rfl, hsmall⟩
        exact absurd (hstrict.not_padded second rest rfl) (UInt8.not_le.mpr hsmall)
      · rintro ⟨-, hnegative, hpadded⟩
        refine ⟨by simp, by simpa using hnegative, ?_⟩
        rintro second' rest' ⟨⟩
        simpa using hpadded

theorem drop_eq_cons {i j : Nat} (hi : i < sig.length) (hj : j = i + 1) :
    sig.drop i = sig[i] :: sig.drop j := by
  subst hj
  exact List.drop_eq_getElem_cons hi

theorem drop_eq_append {i j size : Nat} (hj : j = i + size) :
    sig.drop i = (sig.drop i).take size ++ sig.drop j := by
  rw [hj, ← List.drop_drop, List.take_append_drop]

/-- Two sizes that add up to the length of a push cut it into its parts. -/
theorem exists_integers {rSize sSize : Nat} (h : rSize + sSize + 7 = sig.length) :
    ∃ (r s : Bytes) (flag : UInt8), r.length = rSize ∧ s.length = sSize ∧
      sig = [sig[0], sig[1], sig[2], sig[3]] ++ r ++ [sig[4 + rSize], sig[5 + rSize]] ++ s
        ++ [flag] := by
  have hfront : sig = [sig[0], sig[1], sig[2], sig[3]] ++ sig.drop 4 := by
    simp only [List.cons_append, List.nil_append, List.getElem_cons_drop]
    rfl
  have hr : sig.drop 4 = (sig.drop 4).take rSize
      ++ sig[4 + rSize] :: sig[5 + rSize] :: sig.drop (6 + rSize) := by
    rw [← drop_eq_cons (i := 5 + rSize) _ (by omega), ← drop_eq_cons (i := 4 + rSize) _ (by omega),
      ← drop_eq_append rfl]
  have hs : sig.drop (6 + rSize) = (sig.drop (6 + rSize)).take sSize
      ++ [sig[6 + rSize + sSize]] := by
    rw [← List.drop_length (l := sig), ← drop_eq_cons _ (by omega), ← drop_eq_append rfl]
  refine ⟨(sig.drop 4).take rSize, (sig.drop (6 + rSize)).take sSize, sig[6 + rSize + sSize],
    by simp; omega, by simp; omega, ?_⟩
  calc sig
    _ = [sig[0], sig[1], sig[2], sig[3]] ++ sig.drop 4 := hfront
    _ = [sig[0], sig[1], sig[2], sig[3]] ++ ((sig.drop 4).take rSize
        ++ sig[4 + rSize] :: sig[5 + rSize] :: sig.drop (6 + rSize)) := congrArg _ hr
    _ = [sig[0], sig[1], sig[2], sig[3]] ++ ((sig.drop 4).take rSize
        ++ sig[4 + rSize] :: sig[5 + rSize] :: ((sig.drop (6 + rSize)).take sSize
        ++ [sig[6 + rSize + sSize]])) := congrArg (fun tail => _ ++ (_ ++ _ :: _ :: tail)) hs
    _ = _ := by simp only [List.append_assoc, List.cons_append, List.nil_append]

/-! ## The form and the flag -/

/-- A signature is accepted for its encoding and for its flag, tested apart. -/
theorem checkSignature_eq_ok_iff :
    checkSignature sig = .ok () ↔
      checkDer sig = .ok () ∧ ∃ flag, sig.getLast? = some flag ∧ (hashTypeName? flag).isSome := by
  unfold checkSignature
  constructor
  · intro h
    obtain ⟨_, hder, hflag⟩ := bind_eq_ok_iff.mp h
    refine ⟨hder, ?_⟩
    split at hflag
    · rename_i flag hlast
      refine ⟨flag, hlast, ?_⟩
      split at hflag
      · cases hflag
      · rename_i hname
        rwa [Bool.not_eq_true, Option.isNone_eq_false_iff] at hname
    · cases hflag
  · rintro ⟨hder, flag, hlast, hname⟩
    refine bind_eq_ok_iff.mpr ⟨(), hder, ?_⟩
    rw [hlast]
    dsimp only
    rw [if_neg (by rwa [Bool.not_eq_true, Option.isNone_eq_false_iff])]
    rfl

theorem length_of_checkDer (h : checkDer sig = .ok ()) :
    9 ≤ sig.length ∧ sig.length ≤ 73 := by
  by_cases hn : sig.length < minSignatureSize ∨ maxSignatureSize < sig.length
  · rw [checkDer, dif_pos hn] at h
    cases h
  · rw [not_or, Nat.not_lt, Nat.not_lt] at hn
    exact hn

theorem isSome_hashTypeName?_iff {flag : UInt8} :
    (hashTypeName? flag).isSome ↔ flag ∈ [0x01, 0x02, 0x03, 0x81, 0x82, 0x83] := by
  constructor
  · intro h
    unfold hashTypeName? at h
    repeat' split at h
    all_goals simp_all
  · simp only [List.mem_cons, List.not_mem_nil, or_false]
    rintro (rfl | rfl | rfl | rfl | rfl | rfl) <;> rfl

/-! ## What the tests accept -/

theorem exists_strictIntegers (h : checkDer sig = .ok ()) :
    ∃ (r s : Bytes) (flag : UInt8), IsStrictInteger r ∧ IsStrictInteger s ∧
      sig = signatureBytes r s flag ∧ sig.length ≤ 73 := by
  obtain ⟨hleast, hmost⟩ := length_of_checkDer h
  unfold checkDer checkParts at h
  simp only [dite_error_eq_ok_iff, ite_error_eq_ok_iff, dite_ok_eq_ok_iff, not_not, and_true] at h
  obtain ⟨hsize, hsequence, hlength, hoverrun, hsum, hrTag, hrEmpty, hrNegative, hrPadding, hsTag,
    hsEmpty, hsNegative, hsPadding⟩ := h
  obtain ⟨r, s, flag, hrSize, hsSize, hparts⟩ := exists_integers hsum
  have hr : IsStrictInteger r := by
    rw [isStrictInteger_iff [_, _, _, _] (i := 4)
      (by simpa only [List.append_assoc] using hparts) rfl (by omega), hrSize]
    exact ⟨hrEmpty, hrNegative, hrPadding⟩
  have hs : IsStrictInteger s := by
    rw [isStrictInteger_iff _ (i := 6 + sig[3].toNat) hparts (by simp [hrSize]; omega) (by omega),
      hsSize]
    refine ⟨hsEmpty, hsNegative, ?_⟩
    rintro ⟨hlong, hpadded⟩
    exact hsPadding hlong (by simpa only [Nat.add_right_comm] using hpadded)
  have hstated : UInt8.ofNat (r.length + s.length + 4) = sig[1] := by
    rw [hrSize, hsSize, ← UInt8.ofNat_toNat (x := sig[1]), hlength]
    congr 1
    omega
  refine ⟨r, s, flag, hr, hs, ?_, hmost⟩
  rw [signatureBytes, hstated, hrSize, hsSize, UInt8.ofNat_toNat, UInt8.ofNat_toNat]
  simpa only [hsequence, hrTag, hsTag] using hparts

theorem checkDer_signatureBytes {r s : Bytes} {flag : UInt8} (hr : IsStrictInteger r)
    (hs : IsStrictInteger s) (hparts : sig = signatureBytes r s flag) (hmost : sig.length ≤ 73) :
    checkDer sig = .ok () := by
  have hlength : sig.length = r.length + s.length + 7 := by
    rw [hparts, length_signatureBytes]
  have hrPos := List.length_pos_iff.mpr hr.ne_nil
  have hsPos := List.length_pos_iff.mpr hs.ne_nil
  rw [signatureBytes] at hparts
  have hsequence : sig[0] = 0x30 := getElem_of_eq_append [] hparts _ rfl
  have hstated : sig[1] = UInt8.ofNat (r.length + s.length + 4) :=
    getElem_of_eq_append [_] hparts _ rfl
  have hrTag : sig[2] = 0x02 := getElem_of_eq_append [_, _] hparts _ rfl
  have hrByte : sig[3] = UInt8.ofNat r.length :=
    getElem_of_eq_append [_, _, _] hparts _ rfl
  have hrSize : sig[3].toNat = r.length := by
    rw [hrByte, UInt8.toNat_ofNat']
    omega
  have hsTag : sig[4 + sig[3].toNat] = 0x02 :=
    getElem_of_eq_append ([_, _, _, _] ++ r) (by simpa using hparts) _
      (by simp [hrSize]; omega)
  have hsByte : sig[5 + sig[3].toNat] = UInt8.ofNat s.length :=
    getElem_of_eq_append ([_, _, _, _] ++ r ++ [_]) (by simpa using hparts) _
      (by simp [hrSize]; omega)
  have hsSize : sig[5 + sig[3].toNat].toNat = s.length := by
    rw [hsByte, UInt8.toNat_ofNat']
    omega
  obtain ⟨hrEmpty, hrNegative, hrPadding⟩ :=
    (isStrictInteger_iff [_, _, _, _] (i := 4)
      (by simpa only [List.append_assoc] using hparts) rfl (by omega)).mp hr
  obtain ⟨hsEmpty, hsNegative, hsPadding⟩ :=
    (isStrictInteger_iff _ (i := 6 + sig[3].toNat) hparts (by simp [hrSize]; omega)
      (by omega)).mp hs
  rw [← hrSize] at hrEmpty hrPadding
  rw [← hsSize] at hsEmpty hsPadding
  have hsize : ¬ (sig.length < minSignatureSize ∨ maxSignatureSize < sig.length) := by
    rw [not_or, Nat.not_lt, Nat.not_lt]
    exact ⟨by simp only [minSignatureSize]; omega, hmost⟩
  unfold checkDer checkParts
  simp only [dite_error_eq_ok_iff, ite_error_eq_ok_iff, dite_ok_eq_ok_iff, not_not, and_true]
  refine ⟨hsize, hsequence, ?_, by omega, by omega, hrTag, hrEmpty, hrNegative, hrPadding, hsTag,
    hsEmpty, hsNegative, ?_⟩
  · rw [hstated, UInt8.toNat_ofNat']
    omega
  · intro hlong
    simpa only [Nat.add_right_comm] using fun hpadded => hsPadding ⟨hlong, hpadded⟩

/-! ## A byte at a time -/

/-- Whether an integer has a zero byte in front that it does not need. -/
def paddedAt (byteAt : Nat → Option UInt8) (start size : Nat) : Option Bool := do
  if size ≤ 1 then return false
  if (← byteAt start) ≠ 0x00 then return false
  return !topBit (← byteAt (start + 1))

/-- The tests of the form, for a push of `n` bytes. -/
def inspectDer (byteAt : Nat → Option UInt8) (n : Nat) : Option (Except ScriptError Unit) := do
  if n < 9 ∨ 73 < n then return .error (.signatureLength n)
  if (← byteAt 0) ≠ 0x30 then return .error (.signatureForm .noSequence)
  if (← byteAt 1).toNat ≠ n - 3 then return .error (.signatureForm .sequenceLength)
  let rSize ← byteAt 3
  if 5 + rSize.toNat ≥ n then return .error (.signatureForm .rOverrun)
  let sSize ← byteAt (5 + rSize.toNat)
  if rSize.toNat + sSize.toNat + 7 ≠ n then return .error (.signatureForm .lengthSum)
  if (← byteAt 2) ≠ 0x02 then return .error (.signatureForm .rNotInteger)
  if rSize.toNat = 0 then return .error (.signatureForm .rEmpty)
  if topBit (← byteAt 4) then return .error (.signatureForm .rNegative)
  if ← paddedAt byteAt 4 rSize.toNat then return .error (.signatureForm .rPadding)
  if (← byteAt (4 + rSize.toNat)) ≠ 0x02 then return .error (.signatureForm .sNotInteger)
  if sSize.toNat = 0 then return .error (.signatureForm .sEmpty)
  if topBit (← byteAt (6 + rSize.toNat)) then return .error (.signatureForm .sNegative)
  if ← paddedAt byteAt (6 + rSize.toNat) sSize.toNat then
    return .error (.signatureForm .sPadding)
  return .ok ()

/-- All tests of a signature push, by a reader that gets no further once it asks for a byte that is
not there. -/
def inspectSignature (byteAt : Nat → Option UInt8) (n : Nat) :
    Option (Except ScriptError Unit) := do
  match ← inspectDer byteAt n with
  | .error fault => return .error fault
  | .ok () =>
    let flag ← byteAt (n - 1)
    if (hashTypeName? flag).isNone then return .error (.undefinedHashType flag)
    return .ok ()

theorem bind_getElem?_eq {α : Type} {i : Nat} (h : i < sig.length) (f : UInt8 → Option α) :
    (sig[i]? >>= f) = f sig[i] := by
  rw [List.getElem?_eq_getElem h]
  rfl

theorem bind_paddedAt_eq {α : Type} {start size : Nat} (h : start + 1 < sig.length)
    (f : Bool → Option α) :
    (paddedAt (fun i => sig[i]?) start size >>= f) =
      f (decide (1 < size ∧ sig[start] = 0x00 ∧ ¬ topBit sig[start + 1])) := by
  have hstart : paddedAt (fun i => sig[i]?) start size =
      some (decide (1 < size ∧ sig[start] = 0x00 ∧ ¬ topBit sig[start + 1])) := by
    unfold paddedAt
    by_cases hsize : size ≤ 1
    · rw [if_pos hsize, decide_eq_false (by omega)]
      rfl
    · rw [if_neg hsize, bind_getElem?_eq (by omega)]
      by_cases hzero : sig[start] = 0x00
      · rw [if_neg (not_not.mpr hzero), bind_getElem?_eq h]
        simp [hzero, Nat.lt_of_not_le hsize]
      · rw [if_pos hzero, decide_eq_false (by simp [hzero])]
        rfl
  rw [hstart]
  rfl

section Tests

variable {α : Type} {c : Prop} [Decidable c] {e : ScriptError} {y : Option (Except ScriptError α)}

theorem ite_eq_some_ite {x : Except ScriptError α} (h : ¬ c → y = some x) :
    (if c then pure (.error e) else y) = some (if c then .error e else x) := by
  by_cases hc : c
  · rw [if_pos hc, if_pos hc]
    rfl
  · rw [if_neg hc, if_neg hc, h hc]

theorem ite_eq_some_dite {x : ¬ c → Except ScriptError α} (h : ∀ hc : ¬ c, y = some (x hc)) :
    (if c then pure (.error e) else y) = some (if hc : c then .error e else x hc) := by
  by_cases hc : c
  · rw [if_pos hc, dif_pos hc]
    rfl
  · rw [if_neg hc, dif_neg hc, h hc]

end Tests

/-- No test looks at a byte outside the signature. -/
theorem inspectDer_eq (sig : Bytes) :
    inspectDer (fun i => sig[i]?) sig.length = some (checkDer sig) := by
  unfold inspectDer checkDer checkParts
  -- Test by test: those that have been passed bound the index of the next byte.
  refine ite_eq_some_dite fun hn => ?_
  rw [bind_getElem?_eq (by omega)]
  refine ite_eq_some_ite fun _ => ?_
  rw [bind_getElem?_eq (by omega)]
  refine ite_eq_some_ite fun _ => ?_
  rw [bind_getElem?_eq (by omega)]
  refine ite_eq_some_dite fun hoverrun => ?_
  rw [bind_getElem?_eq (by omega)]
  refine ite_eq_some_dite fun hsum => ?_
  rw [bind_getElem?_eq (by omega)]
  refine ite_eq_some_ite fun _ => ?_
  refine ite_eq_some_ite fun hrEmpty => ?_
  rw [bind_getElem?_eq (by omega)]
  refine ite_eq_some_ite fun _ => ?_
  rw [bind_paddedAt_eq (by omega)]
  simp only [decide_eq_true_eq]
  refine ite_eq_some_ite fun _ => ?_
  rw [bind_getElem?_eq (by omega)]
  refine ite_eq_some_ite fun _ => ?_
  refine ite_eq_some_dite fun hsEmpty => ?_
  rw [bind_getElem?_eq (by omega)]
  refine ite_eq_some_ite fun _ => ?_
  rw [bind_paddedAt_eq (by omega)]
  simp only [Nat.add_right_comm 6 sig[3].toNat 1, decide_eq_true_eq]
  by_cases hlong : 1 < sig[5 + sig[3].toNat].toNat
  · simp only [hlong, true_and, dite_true]
    exact ite_eq_some_ite fun _ => rfl
  · rw [dif_neg hlong, if_neg fun hpadded => hlong hpadded.1]
    rfl

theorem inspectSignature_eq (sig : Bytes) :
    inspectSignature (fun i => sig[i]?) sig.length = some (checkSignature sig) := by
  unfold inspectSignature checkSignature
  rw [inspectDer_eq]
  cases hder : checkDer sig with
  | error fault => rfl
  | ok u =>
    have hlength := (length_of_checkDer hder).1
    rw [List.getLast?_eq_getElem?, List.getElem?_eq_getElem (by omega)]
    refine (bind_getElem?_eq (by omega) _).trans ?_
    exact ite_eq_some_ite fun _ => rfl

/-- **A signature push is accepted if and only if it is in strict form and its flag is defined.**
No byte outside of a push is looked at, whatever its length and its bytes are: an inspection that
has no outcome once it asks for one comes to the outcome of the tests. -/
theorem checkSignature_strict :
    (∀ sig : Bytes, checkSignature sig = .ok () ↔
      ∃ (r s : Bytes) (flag : UInt8), IsStrictInteger r ∧ IsStrictInteger s ∧
        flag ∈ [0x01, 0x02, 0x03, 0x81, 0x82, 0x83] ∧ sig = signatureBytes r s flag ∧
        sig.length ≤ 73) ∧
    (∀ sig : Bytes, inspectSignature (fun i => sig[i]?) sig.length = some (checkSignature sig)) := by
  refine ⟨?grammar, inspectSignature_eq⟩
  case grammar =>
    intro sig
    rw [checkSignature_eq_ok_iff]
    constructor
    · rintro ⟨hder, flag, hlast, hname⟩
      obtain ⟨r, s, flag', hr, hs, hparts, hmost⟩ := exists_strictIntegers hder
      rw [hparts, signatureBytes, List.getLast?_append_cons] at hlast
      cases hlast
      exact ⟨r, s, flag', hr, hs, isSome_hashTypeName?_iff.mp hname, hparts, hmost⟩
    · rintro ⟨r, s, flag, hr, hs, hname, hparts, hmost⟩
      refine ⟨checkDer_signatureBytes hr hs hparts hmost, flag, ?_,
        isSome_hashTypeName?_iff.mpr hname⟩
      rw [hparts, signatureBytes, List.getLast?_append_cons]
      rfl

/-- A lone zero byte is an integer in its shortest form; in front of `0x7f` it is one too many. -/
example : checkSignature (signatureBytes [0x00] [0x7f] 0x83) = .ok () ∧
    checkSignature (signatureBytes [0x00, 0x7f] [0x7f] 0x83) =
      .error (.signatureForm .rPadding) := by decide

end UtxoAssets
