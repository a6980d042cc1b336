import Mathlib.Data.List.TakeWhile
import UtxoAssets.Proofs.Script.Flat
import UtxoAssets.Proofs.Script.Signature

/-!
# A listing with flag names is the plain listing, annotated

The listing of an unlocking script shows the flag of a signature by its name.  Nothing else tells it
from the plain listing, and a name gives the flag back.

* `Script.HoldsSignature` — the place of a push that is shown as a signature.
* `plainToken` — a token with the flag that it names in hex again; `plainToken_annotated` and
  `plainToken_of_bracket_not_mem` say what it does to the two kinds of tokens.
* `asmToken_signature`, `asmToken_of_signature?_eq_none` — the two listings of one token.
* `Text.parts_listing` — the tokens of a listing are found between its blanks.
* `asmWithHashTypes_annotates` — the two listings of every script, place by place.
-/

set_option autoImplicit false

namespace UtxoAssets

/-! ## Signatures in a script -/

/-- A signature ends in a flag that has a name, and is too long to be shown as a number. -/
theorem flag_of_checkSignature {sig : Bytes} (h : checkSignature sig = .ok ()) :
    maxShownNumberSize < sig.length ∧
      ∃ body flag name, sig = body ++ [flag] ∧ hashTypeName? flag = some name := by
  obtain ⟨hder, flag, hlast, hsome⟩ := checkSignature_eq_ok_iff.mp h
  have hlength := (length_of_checkDer hder).1
  obtain ⟨name, hname⟩ := Option.isSome_iff_exists.mp hsome
  obtain ⟨body, hbody⟩ := List.getLast?_eq_some_iff.mp hlast
  have hshown : maxShownNumberSize = 4 := rfl
  exact ⟨by omega, body, flag, name, hbody, hname⟩

/-- The data of a push that has the form of a signature with a named flag. -/
def Token.signature? : Token → Option Bytes
  | .instruction i => if i.isPush && (checkSignature i.data).isOk then some i.data else none
  | .malformed _ _ => none

/-- The script can be spent, and its instruction at place `k` pushes a signature. -/
structure Script.HoldsSignature (s : Script) (k : Nat) (data : Bytes) : Prop where
  not_return : s.head? ≠ some Opcode.ret
  length_le : s.length ≤ 10000
  pushed : ∃ i, (parse s)[k]? = some (.instruction i) ∧ i.isPush ∧ i.data = data
  accepted : checkSignature data = .ok ()

theorem Token.signature?_eq_some_iff {t : Token} {data : Bytes} :
    t.signature? = some data ↔
      ∃ i, t = .instruction i ∧ i.isPush ∧ i.data = data ∧ checkSignature data = .ok () := by
  constructor
  · intro h
    cases t with
    | malformed cause tail => cases h
    | instruction i =>
      rw [signature?, Option.ite_none_right_eq_some, Bool.and_eq_true] at h
      obtain ⟨⟨hpush, hok⟩, hdata⟩ := h
      cases hdata
      refine ⟨i, rfl, hpush, rfl, ?_⟩
      cases hcheck : checkSignature i.data with
      | ok u => rfl
      | error e =>
        rw [hcheck] at hok
        cases hok
  · rintro ⟨i, rfl, hpush, rfl, hcheck⟩
    rw [signature?, hpush, hcheck]
    rfl

theorem isUnspendable_eq_false_iff {s : Script} :
    isUnspendable s = false ↔ s.head? ≠ some Opcode.ret ∧ s.length ≤ 10000 := by
  rw [isUnspendable, Bool.or_eq_false_iff, beq_eq_false_iff_ne, decide_eq_false_iff_not,
    Nat.not_lt, maxScriptSize]

/-- The places that hold a signature are found token by token, in scripts that can be spent. -/
theorem Script.holdsSignature_iff {s : Script} {k : Nat} {data : Bytes} :
    s.HoldsSignature k data ↔
      isUnspendable s = false ∧ ∃ t, (parse s)[k]? = some t ∧ t.signature? = some data := by
  rw [isUnspendable_eq_false_iff]
  constructor
  · rintro ⟨hreturn, hlength, ⟨i, hi, hpush, hdata⟩, hcheck⟩
    exact ⟨⟨hreturn, hlength⟩, .instruction i, hi,
      Token.signature?_eq_some_iff.mpr ⟨i, rfl, hpush, hdata, hcheck⟩⟩
  · rintro ⟨⟨hreturn, hlength⟩, t, ht, hsignature⟩
    obtain ⟨i, rfl, hpush, hdata, hcheck⟩ := Token.signature?_eq_some_iff.mp hsignature
    exact ⟨hreturn, hlength, ⟨i, ht, hpush, hdata⟩, hcheck⟩

theorem blank_not_mem_hashTypeName {flag : UInt8} {name : String}
    (h : hashTypeName? flag = some name) : ' ' ∉ name.toList := by
  unfold hashTypeName? at h
  repeat' split at h
  all_goals cases h
  all_goals decide

/-! ## Taking an annotation back -/

/-- The flag of a name. -/
def hashTypeFlag? (name : String) : Option UInt8 :=
  [0x01, 0x02, 0x03, 0x81, 0x82, 0x83].find? fun flag => hashTypeName? flag = some name

/-- A token with the two hex digits of a flag in place of its name in brackets. -/
def plainToken (token : String) : String :=
  let digits := token.toList.takeWhile (· ≠ '[')
  match token.toList.dropWhile (· ≠ '[') with
  | '[' :: name =>
    match hashTypeFlag? (String.ofList name.dropLast) with
    | some flag => String.ofList digits ++ hex [flag]
    | none => token
  | _ => token

/-- The names of the hash types are different, so that a name gives back its flag. -/
theorem hashTypeFlag?_of_name {flag : UInt8} {name : String} (h : hashTypeName? flag = some name) :
    hashTypeFlag? name = some flag := by
  unfold hashTypeName? at h
  repeat' split at h
  all_goals cases h
  all_goals
    subst flag
    decide

theorem plainToken_of_bracket_not_mem {token : String} (h : '[' ∉ token.toList) :
    plainToken token = token := by
  have hdrop : token.toList.dropWhile (· ≠ '[') = [] := by
    rw [List.dropWhile_eq_nil_iff]
    intro c hc
    have hne : c ≠ '[' := fun heq => h (heq ▸ hc)
    exact decide_eq_true hne
  rw [plainToken, hdrop]

/-- Taking the annotation back restores the digits of the flag. -/
theorem plainToken_annotated {digits name : String} {flag : UInt8} (h : '[' ∉ digits.toList)
    (hname : hashTypeName? flag = some name) :
    plainToken (digits ++ "[" ++ name ++ "]") = digits ++ hex [flag] := by
  have hall : ∀ c ∈ digits.toList, decide (c ≠ '[') = true := by
    intro c hc
    exact decide_eq_true fun heq => h (heq ▸ hc)
  have hlist : (digits ++ "[" ++ name ++ "]").toList =
      digits.toList ++ ('[' :: (name.toList ++ [']'])) := by simp
  have htake : (digits ++ "[" ++ name ++ "]").toList.takeWhile (· ≠ '[') = digits.toList := by
    rw [hlist, List.takeWhile_append_of_pos hall, List.takeWhile_cons_of_neg (by decide),
      List.append_nil]
  have hdrop : (digits ++ "[" ++ name ++ "]").toList.dropWhile (· ≠ '[') =
      '[' :: (name.toList ++ [']']) := by
    rw [hlist, List.dropWhile_append_of_pos hall, List.dropWhile_cons_of_neg (by decide)]
  rw [plainToken, htake, hdrop]
  simp [hashTypeFlag?_of_name hname]

theorem plainToken_errorToken : plainToken errorToken = errorToken := by decide

/-! ## The characters of a listing -/

/-- A text that is neither cut at a blank nor taken for an annotation. -/
def Text.IsPlain (text : String) : Prop := ∀ c ∈ text.toList, c ≠ ' ' ∧ c ≠ '['

/-- Decided on the characters of the text, not on all that there are. -/
instance (text : String) : Decidable (Text.IsPlain text) :=
  decidable_of_iff (text.toList.all fun c => c != ' ' && c != '[') (by simp [Text.IsPlain])

namespace Text.IsPlain

theorem append {s t : String} (hs : IsPlain s) (ht : IsPlain t) : IsPlain (s ++ t) := by
  intro c hc
  rw [String.toList_append, List.mem_append] at hc
  exact hc.elim (hs c) (ht c)

theorem blank_not_mem {s : String} (h : IsPlain s) : ' ' ∉ s.toList := fun hc => (h _ hc).1 rfl

theorem bracket_not_mem {s : String} (h : IsPlain s) : '[' ∉ s.toList := fun hc => (h _ hc).2 rfl

end Text.IsPlain

theorem Text.isPlain_decimal (n : Int) : IsPlain (decimal n) := by
  intro c hc
  rw [decimal, signed, String.toList_ofList, List.mem_append] at hc
  rcases hc with hsign | hdigits
  · split at hsign
    · obtain rfl := List.mem_singleton.mp hsign
      decide
    · cases hsign
  · have hdigit := Nat.isDigit_of_mem_toDigits (by decide) (by decide) hdigits
    constructor
    · rintro rfl
      exact absurd hdigit (by decide)
    · rintro rfl
      exact absurd hdigit (by decide)

theorem isPlain_hex (bs : Bytes) : Text.IsPlain (hex bs) := by
  have hdigit : ∀ d < 16, hexDigit d ≠ ' ' ∧ hexDigit d ≠ '[' := by decide
  intro c hc
  rw [hex, String.toList_ofList] at hc
  obtain ⟨d, hd, rfl⟩ := exists_of_mem_hexChars hc
  exact hdigit d hd

/-- All names of opcodes. -/
def Opcode.names : List String := "0" :: "OP_INVALIDOPCODE" :: unknown :: mnemonics

theorem Opcode.name_mem_names (op : UInt8) : name op ∈ names := by
  have hmnemonic : ∀ mnemonic ∈ unknown :: mnemonics, mnemonic ∈ names := fun _ h =>
    List.mem_cons_of_mem _ (List.mem_cons_of_mem _ h)
  unfold name
  split
  · exact List.mem_cons_self
  split
  · exact List.mem_cons_of_mem _ List.mem_cons_self
  split
  · exact hmnemonic _ List.mem_cons_self
  apply hmnemonic
  rw [List.getD_eq_getElem?_getD]
  cases hfound : mnemonics[op.toNat - pushData1.toNat]? with
  | none => exact List.mem_cons_self
  | some mnemonic => exact List.mem_cons_of_mem _ (List.mem_of_getElem? hfound)

theorem Opcode.isPlain_name (op : UInt8) : Text.IsPlain (name op) := by
  have hall : ∀ opcodeName ∈ names, Text.IsPlain opcodeName := by decide +kernel
  exact hall (name op) (name_mem_names op)

/-! ## The two listings of a token -/

theorem asmToken_push {i : Instruction} (h : i.isPush) (showHashTypes : Bool) :
    asmToken showHashTypes (.instruction i) = asmPush showHashTypes i.data :=
  if_pos h

theorem asmToken_operator {i : Instruction} (h : ¬ i.isPush) (showHashTypes : Bool) :
    asmToken showHashTypes (.instruction i) = Opcode.name i.opcode :=
  if_neg h

theorem asmPush_long {data : Bytes} (h : maxShownNumberSize < data.length) :
    asmPush true data = (signatureText? data).getD (hex data) ∧ asmPush false data = hex data := by
  have hlong : ¬ data.length ≤ maxShownNumberSize := Nat.not_le.mpr h
  unfold asmPush
  rw [if_neg hlong, if_neg hlong]
  cases signatureText? data with
  | none => exact ⟨rfl, rfl⟩
  | some text => exact ⟨rfl, rfl⟩

theorem exists_scriptNumber {data : Bytes} (h : data.length ≤ maxNumberSize) :
    ∃ n, scriptNumber data = .ok n := by
  unfold scriptNumber
  rw [if_neg (Nat.not_lt.mpr h)]
  split
  · exact ⟨_, rfl⟩
  · exact ⟨_, rfl⟩

theorem asmPush_short {data : Bytes} (h : data.length ≤ maxShownNumberSize) :
    ∃ n, scriptNumber data = .ok n ∧
      ∀ showHashTypes, asmPush showHashTypes data = Text.decimal n := by
  obtain ⟨n, hn⟩ := exists_scriptNumber (Nat.le_trans h (by decide))
  refine ⟨n, hn, fun showHashTypes => ?_⟩
  unfold asmPush
  rw [if_pos h, hn]

/-- Only the token of a malformed rest has a bracket in it. -/
theorem isPlain_asmToken_instruction (i : Instruction) :
    Text.IsPlain (asmToken false (.instruction i)) := by
  by_cases hpush : i.isPush
  · rw [asmToken_push hpush]
    by_cases hlong : maxShownNumberSize < i.data.length
    · rw [(asmPush_long hlong).2]
      exact isPlain_hex i.data
    · obtain ⟨n, -, hshown⟩ := asmPush_short (Nat.not_lt.mp hlong)
      rw [hshown]
      exact Text.isPlain_decimal n
  · rw [asmToken_operator hpush]
    exact Opcode.isPlain_name i.opcode

/-- A token that was shown without annotations is left as it is. -/
theorem plainToken_asmToken (t : Token) : plainToken (asmToken false t) = asmToken false t := by
  cases t with
  | malformed cause tail => exact plainToken_errorToken
  | instruction i =>
    exact plainToken_of_bracket_not_mem (isPlain_asmToken_instruction i).bracket_not_mem

/-- A signature in the two listings. -/
theorem asmToken_signature {t : Token} {data : Bytes} (h : t.signature? = some data) :
    ∃ body flag name, data = body ++ [flag] ∧ hashTypeName? flag = some name ∧
      asmToken true t = hex body ++ "[" ++ name ++ "]" ∧
      asmToken false t = hex body ++ hex [flag] := by
  obtain ⟨i, rfl, hpush, rfl, hcheck⟩ := Token.signature?_eq_some_iff.mp h
  obtain ⟨hlong, body, flag, name, hdata, hname⟩ := flag_of_checkSignature hcheck
  obtain ⟨hannotated, hplain⟩ := asmPush_long hlong
  have htext : signatureText? i.data = some (hex body ++ "[" ++ name ++ "]") := by
    rw [signatureText?, hcheck, hdata, List.getLast?_concat]
    dsimp only
    rw [hname, List.dropLast_concat]
    rfl
  refine ⟨body, flag, name, hdata, hname, ?_, ?_⟩
  · rw [asmToken_push hpush, hannotated, htext, Option.getD_some]
  · rw [asmToken_push hpush, hplain, hdata]
    simp [hex, hexChars]

theorem signatureText?_eq_none {data : Bytes} (h : (checkSignature data).isOk = false) :
    signatureText? data = none := by
  unfold signatureText?
  split
  · rename_i hcheck _
    rw [hcheck] at h
    cases h
  · rfl

/-- All else is listed alike. -/
theorem asmToken_of_signature?_eq_none {t : Token} (h : t.signature? = none) :
    asmToken true t = asmToken false t := by
  cases t with
  | malformed cause tail => rfl
  | instruction i =>
    by_cases hpush : i.isPush
    · have hrefused : (checkSignature i.data).isOk = false := by
        simpa [Token.signature?, hpush] using h
      rw [asmToken_push hpush, asmToken_push hpush]
      by_cases hlong : maxShownNumberSize < i.data.length
      · obtain ⟨hannotated, hplain⟩ := asmPush_long hlong
        rw [hannotated, hplain, signatureText?_eq_none hrefused, Option.getD_none]
      · obtain ⟨n, -, hshown⟩ := asmPush_short (Nat.not_lt.mp hlong)
        rw [hshown, hshown]
    · rw [asmToken_operator hpush, asmToken_operator hpush]

/-! ## Whole listings -/

/-- No token contains a blank, so the listing is cut at its blanks into its tokens. -/
theorem blank_not_mem_asmToken (showHashTypes : Bool) (t : Token) :
    ' ' ∉ (asmToken showHashTypes t).toList := by
  have hplain : ' ' ∉ (asmToken false t).toList := by
    cases t with
    | malformed cause tail =>
      show ' ' ∉ errorToken.toList
      decide
    | instruction i => exact (isPlain_asmToken_instruction i).blank_not_mem
  cases showHashTypes with
  | false => exact hplain
  | true =>
    cases hsignature : t.signature? with
    | none => rwa [asmToken_of_signature?_eq_none hsignature]
    | some data =>
      obtain ⟨body, flag, name, -, hname, hannotated, -⟩ := asmToken_signature hsignature
      rw [hannotated]
      simp only [String.toList_append, List.mem_append, not_or]
      exact ⟨⟨⟨(isPlain_hex body).blank_not_mem, by decide⟩, blank_not_mem_hashTypeName hname⟩,
        by decide⟩

/-- The tokens of a listing stand between its blanks; the listing of the empty script is one empty
part. -/
theorem Text.parts_listing (showHashTypes : Bool) (s : Script) :
    Text.parts (String.intercalate " " ((parse s).map (asmToken showHashTypes))) =
      if parse s = [] then [""] else (parse s).map (asmToken showHashTypes) := by
  rw [Text.parts_intercalate]
  · simp only [List.map_eq_nil_iff]
  · intro part hpart
    obtain ⟨t, -, rfl⟩ := List.mem_map.mp hpart
    exact blank_not_mem_asmToken showHashTypes t

theorem parts_asm (s : Script) :
    Text.parts (asm s) = if parse s = [] then [""] else (parse s).map (asmToken false) :=
  Text.parts_listing false s

theorem parts_asmWithHashTypes (s : Script) :
    Text.parts (asmWithHashTypes s) =
      if parse s = [] then [""] else (parse s).map (asmToken !isUnspendable s) :=
  Text.parts_listing _ s

/-- What the listing of an unlocking script shows a token as. -/
theorem asmToken_shown_eq_iff (s : Script) (t : Token) :
    asmToken (!isUnspendable s) t = asmToken false t ↔
      ¬ ∃ data, isUnspendable s = false ∧ t.signature? = some data := by
  cases hspend : isUnspendable s with
  | true => simp
  | false =>
    cases hsignature : t.signature? with
    | none => simpa using asmToken_of_signature?_eq_none hsignature
    | some data =>
      obtain ⟨body, flag, name, -, -, hannotated, hplain⟩ := asmToken_signature hsignature
      have hbracket : '[' ∈ (asmToken true t).toList := by simp [hannotated]
      have hnone : '[' ∉ (asmToken false t).toList := by
        rw [hplain]
        exact ((isPlain_hex body).append (isPlain_hex [flag])).bracket_not_mem
      have hne : asmToken true t ≠ asmToken false t := by
        intro heq
        rw [heq] at hbracket
        exact hnone hbracket
      simpa using hne

/-- Taking annotations back turns either listing of a token into the plain one. -/
theorem plainToken_asmToken_shown (showHashTypes : Bool) (t : Token) :
    plainToken (asmToken showHashTypes t) = asmToken false t := by
  cases showHashTypes with
  | false => exact plainToken_asmToken t
  | true =>
    cases hsignature : t.signature? with
    | none =>
      rw [asmToken_of_signature?_eq_none hsignature]
      exact plainToken_asmToken t
    | some data =>
      obtain ⟨body, flag, name, -, hname, hannotated, hplain⟩ := asmToken_signature hsignature
      rw [hannotated, hplain]
      exact plainToken_annotated (isPlain_hex body).bracket_not_mem hname

/-- **The names of flags are the only difference between the two listings of a script.**  Their
tokens are as many, and differ just where a script that can be spent pushes a signature.  There the
listing shows the flag by a name in brackets, and with the flag's digits put back in place of it the
plain listing comes back. -/
theorem asmWithHashTypes_annotates (s : Script) :
    (Text.parts (asmWithHashTypes s)).length = (Text.parts (asm s)).length ∧
    (∀ k, (Text.parts (asmWithHashTypes s))[k]? = (Text.parts (asm s))[k]? ↔
      ¬ ∃ data, s.HoldsSignature k data) ∧
    (∀ k data, s.HoldsSignature k data → ∃ body flag name,
      data = body ++ [flag] ∧ hashTypeName? flag = some name ∧
      (Text.parts (asmWithHashTypes s))[k]? = some (hex body ++ "[" ++ name ++ "]") ∧
      (Text.parts (asm s))[k]? = some (hex body ++ hex [flag]) ∧
      plainToken (hex body ++ "[" ++ name ++ "]") = hex body ++ hex [flag]) ∧
    String.intercalate " " ((Text.parts (asmWithHashTypes s)).map plainToken) = asm s := by
  rw [parts_asmWithHashTypes, parts_asm]
  simp only [Script.holdsSignature_iff]
  by_cases hempty : parse s = []
  · have hnone : ∀ (k : Nat) (t : Token), (parse s)[k]? ≠ some t := by simp [hempty]
    rw [if_pos hempty, if_pos hempty]
    refine ⟨rfl, ?_, ?_, ?_⟩
    · intro k
      simp [hnone]
    · rintro k data ⟨-, t, ht, -⟩
      exact absurd ht (hnone k t)
    · rw [asm, hempty]
      decide
  · rw [if_neg hempty, if_neg hempty]
    refine ⟨?length, ?equal, ?annotated, ?restored⟩
    case length => rw [List.length_map, List.length_map]
    case equal =>
      intro k
      rw [List.getElem?_map, List.getElem?_map]
      cases htoken : (parse s)[k]? with
      | none => simp
      | some t => simpa using asmToken_shown_eq_iff s t
    case annotated =>
      rintro k data ⟨hspend, t, ht, hsignature⟩
      obtain ⟨body, flag, name, hdata, hname, hannotated, hplain⟩ := asmToken_signature hsignature
      refine ⟨body, flag, name, hdata, hname, ?_, ?_, ?_⟩
      · rw [List.getElem?_map, ht, hspend]
        exact congrArg some hannotated
      · rw [List.getElem?_map, ht]
        exact congrArg some hplain
      · exact plainToken_annotated (isPlain_hex body).bracket_not_mem hname
    case restored =>
      rw [List.map_map, asm]
      congr 1
      exact List.map_congr_left fun t _ => plainToken_asmToken_shown _ t

/-- A signature push without its opcode. -/
def sampleSignature : Bytes := [0x30, 0x06, 0x02, 0x01, 0x01, 0x02, 0x01, 0x01, 0x83]

/-- A small number, the signature, and a push that is cut off. -/
theorem asmWithHashTypes_annotates_signature :
    Script.HoldsSignature (0x51 :: 0x09 :: (sampleSignature ++ [0x02])) 1 sampleSignature ∧
    (Text.parts (asmWithHashTypes (0x51 :: 0x09 :: (sampleSignature ++ [0x02]))))[1]? =
      some "3006020101020101[SINGLE|ANYONECANPAY]" ∧
    (Text.parts (asm (0x51 :: 0x09 :: (sampleSignature ++ [0x02]))))[1]? =
      some "300602010102010183" := by
  have hparse : parse (0x51 :: 0x09 :: (sampleSignature ++ [0x02])) =
      [.instruction ⟨0x51, [], []⟩, .instruction ⟨0x09, [], sampleSignature⟩,
        .malformed (.pushDataCut 2 0) [0x02]] := by decide +kernel
  have hpushed : (parse (0x51 :: 0x09 :: (sampleSignature ++ [0x02])))[1]? =
      some (.instruction ⟨0x09, [], sampleSignature⟩) := by rw [hparse]; rfl
  have hholds : Script.HoldsSignature (0x51 :: 0x09 :: (sampleSignature ++ [0x02])) 1
      sampleSignature := ⟨by decide, by decide, ⟨_, hpushed, rfl, rfl⟩, rfl⟩
  obtain ⟨-, -, hannotated, -⟩ :=
    asmWithHashTypes_annotates (0x51 :: 0x09 :: (sampleSignature ++ [0x02]))
  obtain ⟨body, flag, name, hdata, hname, hlisted, hplain, -⟩ := hannotated 1 _ hholds
  obtain ⟨rfl, hflag⟩ := List.append_inj' (show
    [0x30, 0x06, 0x02, 0x01, 0x01, 0x02, 0x01, 0x01] ++ [0x83] = body ++ [flag] from hdata) rfl
  obtain rfl := List.singleton_inj.mp hflag
  obtain rfl : "SINGLE|ANYONECANPAY" = name := Option.some.inj hname
  exact ⟨hholds, hlisted, hplain⟩

end UtxoAssets
