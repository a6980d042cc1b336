import UtxoAssets.Proofs.Script.Parsing
import UtxoAssets.Render.Section

/-!
# Where a payload is found

The payload of a transaction is the first push of the first output that begins with the return
opcode.

* `Script.BeginsWithPush` — a push in any of its forms, with anything behind it.
* `dataCarrier?_ret_eq_some_iff` — the data of a script that begins with the return opcode.
* `Transaction.FirstReturn` — the first output that begins with the return opcode; the outputs
  behind it are of no concern.
* `Transaction.HasCarrier` — such an output with a push in it;
  `Transaction.HasCarrier.assetPayload_eq` says that its data is the payload.
* `assetPayload_located_exactly` — the payload of every transaction.
-/

set_option autoImplicit false

namespace UtxoAssets

/-! ## The first push of a script -/

/-- The script begins with a whole push of `data`; what follows it need not parse. -/
def Script.BeginsWithPush (s : Script) (data : Bytes) : Prop :=
  ∃ (push : Instruction) (tail : Script), push.WellFormed ∧ push.isPush ∧ push.data = data ∧
    s = push.encoded ++ tail

/-- Only the first instruction counts, whatever follows it. -/
theorem dataCarrier?_ret_encoded_append {i : Instruction} (h : i.WellFormed) (tail : Script) :
    dataCarrier? (Opcode.ret :: (i.encoded ++ tail)) = if i.isPush then some i.data else none := by
  unfold dataCarrier?
  dsimp only
  rw [if_pos rfl, Scanner.start, Scanner.next_encoded_append h]

theorem dataCarrier?_ret_malformed {opcode : UInt8} {after : Script} {cause : ScriptError}
    (h : Instruction.read opcode after = .error cause) :
    dataCarrier? (Opcode.ret :: opcode :: after) = none := by
  unfold dataCarrier?
  dsimp only
  rw [if_pos rfl, Scanner.start, Scanner.next_malformed h]

/-- The data carrier of an output is the push its script has right behind the return. -/
theorem dataCarrier?_ret_eq_some_iff {s : Script} {data : Bytes} :
    dataCarrier? (Opcode.ret :: s) = some data ↔ s.BeginsWithPush data := by
  constructor
  · intro h
    cases s.front with
    | nil => cases h
    | instruction i tail hi =>
      rw [dataCarrier?_ret_encoded_append hi, Option.ite_none_right_eq_some] at h
      obtain ⟨hpush, hdata⟩ := h
      exact ⟨i, tail, hi, hpush, Option.some.inj hdata, rfl⟩
    | malformed opcode after cause hread =>
      rw [dataCarrier?_ret_malformed hread] at h
      cases h
  · rintro ⟨push, tail, hwf, hpush, rfl, rfl⟩
    rw [dataCarrier?_ret_encoded_append hwf, if_pos hpush]

/-! ## The first output that begins with the return opcode -/

namespace Transaction

/-- The first output that begins with the return opcode is `o`, and `rest` stands behind the
opcode. -/
structure FirstReturn (tx : Transaction) (o : TxOutput) (rest : Script) : Prop where
  script_eq : o.script = Opcode.ret :: rest
  outputs : ∃ before after, tx.outputs = before ++ o :: after ∧
    ∀ o' ∈ before, o'.script.head? ≠ some Opcode.ret

variable {tx : Transaction} {o : TxOutput} {rest : Script} {data : Bytes}

theorem FirstReturn.find?_eq (h : tx.FirstReturn o rest) :
    tx.outputs.find? (fun o => o.script.head? == some Opcode.ret) = some o := by
  obtain ⟨before, after, houtputs, hbefore⟩ := h.outputs
  have hskipped : before.find? (fun o => o.script.head? == some Opcode.ret) = none := by
    rw [List.find?_eq_none]
    intro o' ho'
    rw [beq_iff_eq]
    exact hbefore o' ho'
  rw [houtputs, List.find?_append, hskipped, Option.none_or]
  apply List.find?_cons_of_pos
  rw [h.script_eq]
  rfl

/-- The first output with a return decides; a later one is not looked at. -/
theorem FirstReturn.assetPayload_eq_ok_iff (h : tx.FirstReturn o rest) :
    assetPayload tx = .ok data ↔ rest.BeginsWithPush data := by
  rw [← dataCarrier?_ret_eq_some_iff, ← h.script_eq, assetPayload, h.find?_eq]
  dsimp only
  cases dataCarrier? o.script with
  | none => simp
  | some found => simp

theorem FirstReturn.assetPayload_of_no_push (h : tx.FirstReturn o rest)
    (hnone : ∀ data, ¬ rest.BeginsWithPush data) : assetPayload tx = .error .noDataCarrier := by
  have hcarrier : dataCarrier? o.script = none := by
    apply Option.eq_none_iff_forall_ne_some.mpr
    intro data hdata
    rw [h.script_eq] at hdata
    exact hnone data (dataCarrier?_ret_eq_some_iff.mp hdata)
  unfold assetPayload
  rw [h.find?_eq]
  dsimp only
  rw [hcarrier]

/-- Without a return there is no payload. -/
theorem assetPayload_of_no_return (h : ∀ o ∈ tx.outputs, o.script.head? ≠ some Opcode.ret) :
    assetPayload tx = .error .noDataCarrier := by
  have hnone : tx.outputs.find? (fun o => o.script.head? == some Opcode.ret) = none := by
    rw [List.find?_eq_none]
    intro o ho
    rw [beq_iff_eq]
    exact h o ho
  unfold assetPayload
  rw [hnone]

/-- The first output that begins with the return opcode has the push behind it, in any of its forms,
and `tail` after that. -/
structure HasCarrier (tx : Transaction) (push : Instruction) (tail : Script) : Prop where
  wellFormed : push.WellFormed
  isPush : push.isPush
  outputs : ∃ before value after,
    tx.outputs = before ++ ⟨value, Opcode.ret :: (push.encoded ++ tail)⟩ :: after ∧
      ∀ o ∈ before, o.script.head? ≠ some Opcode.ret

theorem HasCarrier.assetPayload_eq {push : Instruction} {tail : Script}
    (h : tx.HasCarrier push tail) : assetPayload tx = .ok push.data := by
  obtain ⟨before, value, after, houtputs, hbefore⟩ := h.outputs
  have hfirst : tx.FirstReturn ⟨value, Opcode.ret :: (push.encoded ++ tail)⟩
      (push.encoded ++ tail) := ⟨rfl, before, after, houtputs, hbefore⟩
  exact hfirst.assetPayload_eq_ok_iff.mpr ⟨push, tail, h.wellFormed, h.isPush, rfl, rfl⟩

end Transaction

/-- **The payload is the first push of the first output that begins with the return opcode.**  If
that output has something else behind the opcode, or if there is no such output, there is no
payload, whatever the other outputs hold. -/
theorem assetPayload_located_exactly (tx : Transaction) :
    (∀ (before : List TxOutput) (o : TxOutput) (after : List TxOutput) (rest : Script),
      tx.outputs = before ++ o :: after →
      (∀ o' ∈ before, o'.script.head? ≠ some Opcode.ret) → o.script = Opcode.ret :: rest →
      (∀ data, assetPayload tx = .ok data ↔ rest.BeginsWithPush data) ∧
      ((∀ data, ¬ rest.BeginsWithPush data) → assetPayload tx = .error .noDataCarrier)) ∧
    ((∀ o ∈ tx.outputs, o.script.head? ≠ some Opcode.ret) →
      assetPayload tx = .error .noDataCarrier) := by
  refine ⟨?_, Transaction.assetPayload_of_no_return⟩
  intro before o after rest houtputs hbefore hscript
  have hfirst : tx.FirstReturn o rest := ⟨hscript, before, after, houtputs, hbefore⟩
  exact ⟨fun data => hfirst.assetPayload_eq_ok_iff, hfirst.assetPayload_of_no_push⟩

/-- A transaction of which only the outputs matter. -/
def Transaction.paying (outputs : List TxOutput) : Transaction where
  version := 132
  inputs := []
  outputs
  lockTime := 0

/-- A push in a longer form than it need, with a push that is cut off behind it; a small number,
which is no push; and no data output at all.  The last output of the first two has data of its
own. -/
theorem assetPayload_located_exactly_samples :
    assetPayload (.paying [⟨7, [0x76]⟩, ⟨0, [0x6a, 0x4d, 0x01, 0x00, 0xaa, 0x05]⟩,
      ⟨0, [0x6a, 0x01, 0xbb]⟩]) = .ok [0xaa] ∧
    assetPayload (.paying [⟨7, [0x76]⟩, ⟨0, [0x6a, 0x51]⟩, ⟨0, [0x6a, 0x01, 0xbb]⟩]) =
      .error .noDataCarrier ∧
    assetPayload (.paying [⟨7, [0x76]⟩]) = .error .noDataCarrier := by
  have hbefore : ∀ o ∈ [(⟨7, [0x76]⟩ : TxOutput)], o.script.head? ≠ some Opcode.ret := by decide
  refine ⟨?push, ?number, ?nothing⟩
  case push =>
    obtain ⟨hlocated, -⟩ := assetPayload_located_exactly
      (.paying [⟨7, [0x76]⟩, ⟨0, [0x6a, 0x4d, 0x01, 0x00, 0xaa, 0x05]⟩, ⟨0, [0x6a, 0x01, 0xbb]⟩])
    obtain ⟨hexact, -⟩ := hlocated [⟨7, [0x76]⟩] _ _ [0x4d, 0x01, 0x00, 0xaa, 0x05] rfl hbefore rfl
    apply (hexact [0xaa]).mpr
    exact ⟨⟨0x4d, [0x01, 0x00], [0xaa]⟩, [0x05], .pushData2 rfl rfl, by decide, rfl, rfl⟩
  case number =>
    obtain ⟨hlocated, -⟩ := assetPayload_located_exactly
      (.paying [⟨7, [0x76]⟩, ⟨0, [0x6a, 0x51]⟩, ⟨0, [0x6a, 0x01, 0xbb]⟩])
    obtain ⟨-, hnone⟩ := hlocated [⟨7, [0x76]⟩] _ _ [0x51] rfl hbefore rfl
    apply hnone
    intro data hpush
    cases dataCarrier?_ret_eq_some_iff.mpr hpush
  case nothing =>
    exact (assetPayload_located_exactly (.paying [⟨7, [0x76]⟩])).2 hbefore

end UtxoAssets
