import UtxoAssets.Proofs.Payload.Failure

/-!
# Readers stay in their payload

* `IndexReader` — a reader that keeps the whole payload and an index into it, as one does that
  copies no bytes.  It subtracts lengths and cuts slices, and has no outcome once a difference would
  be negative or a slice would not lie in the payload.
* `IndexOp.Follows` — such a reader does what a decoder does, wherever in the payload it is;
  `follows_bytes` is the place where its arithmetic is shown to be in range, and `Follows.bind`
  carries that through reads made of several parts.
* `SoundRead` — what holds of one read, whether it fails or not; `eachReport_run` carries it through
  a run, which goes on after failures.
* `reads_stay_in_payload` — both of any run over any payload.
-/

set_option autoImplicit false

namespace UtxoAssets

variable {α β : Type} {payload : Bytes} {c after : Cursor} {e : PayloadError}

/-! ## Cursors on a payload -/

/-- The cursor has read the front of the payload, and what is left is the rest. -/
structure Cursor.On (payload : Bytes) (c : Cursor) : Prop where
  inside : c.offset ≤ payload.length
  rest : c.rest = payload.drop c.offset

theorem Cursor.On.start (payload : Bytes) : (Cursor.start payload).On payload :=
  ⟨Nat.zero_le _, rfl⟩

theorem Cursor.On.length_rest (h : c.On payload) : c.rest.length = payload.length - c.offset := by
  rw [h.rest, List.length_drop]

theorem Cursor.On.of_reaches (h : c.On payload) (hreach : c.Reaches after) : after.On payload := by
  obtain ⟨front, hrest, hoffset⟩ := hreach
  have hlen := h.length_rest
  have hinside := h.inside
  rw [hrest, List.length_append] at hlen
  refine ⟨by omega, ?_⟩
  rw [hoffset, ← List.drop_drop, ← h.rest, hrest, List.drop_left]

/-! ## Reading by index -/

/-- A payload and how many bytes of it have been read. -/
structure IndexReader where
  payload : Bytes
  offset : Nat

/-- Why a computation by index stops. Only a `cause` is a failure of the read itself. -/
inductive IndexFault where
  /-- A difference below zero, or a slice that does not lie in the payload. -/
  | outOfRange
  | cause (e : PayloadError)

/-- Computations that move an indexed reader and may stop. -/
abbrev IndexOp (α : Type) := EStateM IndexFault IndexReader α

namespace IndexOp

/-- A difference that does not go below zero. -/
def subtract (a b : Nat) : IndexOp Nat :=
  if b ≤ a then pure (a - b) else throw .outOfRange

/-- The bytes from one index up to another. The index that a slice ends at may be a sum; it is at
most the length of the payload if the slice is in range. -/
def slice (first last : Nat) : IndexOp Bytes := do
  let reader ← get
  if first ≤ last ∧ last ≤ reader.payload.length then
    return (reader.payload.take last).drop first
  else throw .outOfRange

/-- How many bytes are left. -/
def remaining : IndexOp Nat := do
  let reader ← get
  subtract reader.payload.length reader.offset

/-- End a read with an error. -/
def fail (e : PayloadError) : IndexOp α := throw (.cause e)

/-- Fail unless `n` bytes are left. -/
def require (n : Nat) : IndexOp Unit := do
  let left ← remaining
  if left < n then
    let missing ← subtract n left
    fail (.unexpectedEnd (← get).offset missing)

/-- The next `n` bytes, sliced out once there are known to be so many. -/
def bytes (n : Nat) : IndexOp Bytes := do
  require n
  let reader ← get
  let bs ← slice reader.offset (reader.offset + n)
  set { reader with offset := reader.offset + n }
  return bs

/-- The next word of a type. -/
def word (α : Type) [Word α] : IndexOp α := do
  return Word.ofBytes α (← bytes (Word.width α))

/-- A byte as a flag: any byte but zero is set. -/
def flag : IndexOp Bool := do
  return (← word UInt8) != 0

/-- A size of `width` bytes, not smaller than `least`. -/
def wideSize (width least : Nat) : IndexOp Nat := do
  let value := ofLittleEndian (← bytes width)
  if value < least then fail (.nonCanonicalSize value)
  return value

/-- A size in its shortest form. -/
def compactSize : IndexOp Nat := do
  let tag ← word UInt8
  if tag = 0xfd then wideSize 2 0xfd
  else if tag = 0xfe then wideSize 4 0x10000
  else if tag = 0xff then wideSize 8 0x100000000
  else return tag.toNat

/-- A size that the rest of the payload can hold. -/
def length : IndexOp Nat := do
  let n ← compactSize
  require n
  return n

/-- Bytes behind their length. -/
def varBytes : IndexOp Bytes := do
  bytes (← length)

/-- A field of exactly `n` bytes. -/
def fixed (field : String) (n : Nat) : IndexOp (FixedBytes n) := do
  let bs ← varBytes
  match FixedBytes.ofBytes? n bs with
  | some value => return value
  | none => fail (.fieldLength field bs.length n)

/-- A field of base64 text. -/
def base64Field (field : String) : IndexOp String := do
  let encoded ← varBytes
  match Base64.decode? encoded with
  | some bs => return Text.decodeLossy bs
  | none => fail (@PayloadError.invalidBase64 encoded field)

end IndexOp

open ReadValue (number) in
/-- The same read by index. -/
def ReadStep.indexOp : ReadStep → IndexOp ReadValue
  | .bytes n => .bytes <$> IndexOp.bytes n
  | .u8 => (fun x => number x.toNat) <$> IndexOp.word UInt8
  | .flag => .flag <$> IndexOp.flag
  | .u16 => (fun x => number x.toNat) <$> IndexOp.word UInt16
  | .u32 => (fun x => number x.toNat) <$> IndexOp.word UInt32
  | .i64 => (fun x => number x.toInt) <$> IndexOp.word Int64
  | .compactSize => (fun n : Nat => number n) <$> IndexOp.compactSize
  | .length => (fun n : Nat => number n) <$> IndexOp.length
  | .varBytes => .bytes <$> IndexOp.varBytes
  | .fixed field n => (fun b => .bytes b.toBytes) <$> IndexOp.fixed field n
  | .base64 field => .text <$> IndexOp.base64Field field

/-- What a read by index reports, and the reader after it. -/
structure IndexReport where
  outcome : Except PayloadError ReadValue
  reader : IndexReader

namespace IndexReader

/-- A read that is out of range reports nothing. -/
def read? (reader : IndexReader) (step : ReadStep) : Option IndexReport :=
  match step.indexOp.run reader with
  | .ok value after => some ⟨.ok value, after⟩
  | .error (.cause e) after => some ⟨.error e, after⟩
  | .error .outOfRange _ => none

/-- Make a row of reads, unless one of them leaves the payload. -/
def run? (reader : IndexReader) : List ReadStep → Option (List IndexReport)
  | [] => some []
  | step :: steps => do
    let report ← reader.read? step
    let reports ← report.reader.run? steps
    return report :: reports

end IndexReader

/-! ## It follows the decoders -/

/-- At every place of a payload, reading by index goes as far as the decoder and comes to the same
outcome. -/
structure IndexOp.Follows (op : IndexOp α) (d : Decoder α) : Prop where
  ok : ∀ {payload : Bytes} {c after : Cursor} {v : α}, c.On payload → d.run c = .ok v after →
    c.Reaches after ∧ op.run ⟨payload, c.offset⟩ = .ok v ⟨payload, after.offset⟩
  error : ∀ {payload : Bytes} {c after : Cursor} {e : PayloadError}, c.On payload →
    d.run c = .error e after →
    c.Reaches after ∧ op.run ⟨payload, c.offset⟩ = .error (.cause e) ⟨payload, after.offset⟩

namespace IndexOp

theorem run_bind_of_ok {op : IndexOp α} {f : α → IndexOp β} {reader between : IndexReader} {a : α}
    (h : op.run reader = .ok a between) : (op >>= f).run reader = (f a).run between := by
  rw [EStateM.run_bind, h]

theorem run_bind_of_error {op : IndexOp α} {f : α → IndexOp β} {reader between : IndexReader}
    {fault : IndexFault} (h : op.run reader = .error fault between) :
    (op >>= f).run reader = .error fault between := by
  rw [EStateM.run_bind, h]

/-- Two operations in sequence follow two decoders in sequence. -/
theorem Follows.bind {op : IndexOp α} {d : Decoder α} {f : α → IndexOp β} {g : α → Decoder β}
    (h : op.Follows d) (hfg : ∀ a, (f a).Follows (g a)) : (op >>= f).Follows (d >>= g) where
  ok hc hrun := by
    obtain ⟨a, between, hfirst, hrest⟩ := Decoder.run_bind_eq_ok_iff.mp hrun
    obtain ⟨hreach, hop⟩ := h.ok hc hfirst
    obtain ⟨hreach', hop'⟩ := (hfg a).ok (hc.of_reaches hreach) hrest
    exact ⟨hreach.trans hreach', (run_bind_of_ok hop).trans hop'⟩
  error hc hrun := by
    rcases Decoder.run_bind_eq_error_iff.mp hrun with hfirst | ⟨a, between, hfirst, hrest⟩
    · obtain ⟨hreach, hop⟩ := h.error hc hfirst
      exact ⟨hreach, run_bind_of_error hop⟩
    · obtain ⟨hreach, hop⟩ := h.ok hc hfirst
      obtain ⟨hreach', hop'⟩ := (hfg a).error (hc.of_reaches hreach) hrest
      exact ⟨hreach.trans hreach', (run_bind_of_ok hop).trans hop'⟩

theorem follows_pure (v : α) : (pure v : IndexOp α).Follows (pure v) where
  ok _ hrun := by
    cases hrun
    exact ⟨.refl _, rfl⟩
  error _ hrun := by cases hrun

theorem follows_fail (e : PayloadError) : (fail e : IndexOp α).Follows (throw e) where
  ok _ hrun := by cases hrun
  error _ hrun := by
    cases hrun
    exact ⟨.refl _, rfl⟩

theorem Follows.map {op : IndexOp α} {d : Decoder α} (h : op.Follows d) (f : α → β) :
    (f <$> op).Follows (f <$> d) := by
  rw [map_eq_pure_bind, map_eq_pure_bind]
  exact h.bind fun a => follows_pure (f a)

/-! ### The arithmetic is in range -/

theorem run_subtract {a b : Nat} (h : b ≤ a) (reader : IndexReader) :
    (subtract a b).run reader = .ok (a - b) reader := by
  rw [subtract, if_pos h]
  rfl

theorem run_slice {first last : Nat} {reader : IndexReader} (h : first ≤ last)
    (hlast : last ≤ reader.payload.length) :
    (slice first last).run reader = .ok ((reader.payload.take last).drop first) reader := by
  have hget : (get : IndexOp IndexReader).run reader = .ok reader reader := rfl
  unfold slice
  rw [run_bind_of_ok hget, if_pos ⟨h, hlast⟩]
  rfl

/-- An index in the payload leaves a difference. -/
theorem run_remaining (h : c.On payload) :
    remaining.run ⟨payload, c.offset⟩ = .ok c.rest.length ⟨payload, c.offset⟩ := by
  rw [h.length_rest]
  exact run_subtract h.inside _

theorem run_require_of_le {n : Nat} (hc : c.On payload) (h : n ≤ c.rest.length) :
    (require n).run ⟨payload, c.offset⟩ = .ok () ⟨payload, c.offset⟩ := by
  unfold require
  rw [run_bind_of_ok (run_remaining hc), if_neg (Nat.not_lt.mpr h)]
  rfl

/-- What is missing is a difference, too. -/
theorem run_require_of_lt {n : Nat} (hc : c.On payload) (h : c.rest.length < n) :
    (require n).run ⟨payload, c.offset⟩ =
      .error (.cause (.unexpectedEnd c.offset (n - c.rest.length))) ⟨payload, c.offset⟩ := by
  unfold require
  rw [run_bind_of_ok (run_remaining hc), if_pos h, run_bind_of_ok (run_subtract (Nat.le_of_lt h) _)]
  rfl

theorem run_bytes_of_le {n : Nat} (hc : c.On payload) (h : n ≤ c.rest.length) :
    (bytes n).run ⟨payload, c.offset⟩ = .ok (c.rest.take n) ⟨payload, c.offset + n⟩ := by
  have hlast : c.offset + n ≤ payload.length := by
    have hlen := hc.length_rest
    have hinside := hc.inside
    omega
  have hslice : (payload.take (c.offset + n)).drop c.offset = c.rest.take n := by
    rw [hc.rest, List.drop_take, Nat.add_sub_cancel_left]
  have hget : (get : IndexOp IndexReader).run ⟨payload, c.offset⟩ =
      .ok ⟨payload, c.offset⟩ ⟨payload, c.offset⟩ := rfl
  unfold bytes
  rw [run_bind_of_ok (run_require_of_le hc h), run_bind_of_ok hget,
    run_bind_of_ok (run_slice (Nat.le_add_right c.offset n) hlast), ← hslice]
  rfl

theorem follows_require (n : Nat) : (require n).Follows (Decoder.require n) where
  ok {payload c after v} hc hrun := by
    by_cases hn : n ≤ c.rest.length
    · rw [Decoder.run_require_of_le hn] at hrun
      cases hrun
      exact ⟨.refl c, run_require_of_le hc hn⟩
    · rw [Decoder.run_require_of_lt (Nat.not_le.mp hn)] at hrun
      cases hrun
  error {payload c after e} hc hrun := by
    obtain ⟨rfl, hshort, rfl⟩ := Decoder.run_require_eq_error_iff.mp hrun
    exact ⟨.refl _, run_require_of_lt hc hshort⟩

/-- Bytes are read by index as they are from the cursor, and no index is out of range. -/
theorem follows_bytes (n : Nat) : (bytes n).Follows (Decoder.take n) where
  ok {payload c after v} hc hrun := by
    obtain ⟨hpass, hlen⟩ := Decoder.run_take_eq_ok_iff.mp hrun
    refine ⟨⟨v, hpass⟩, ?_⟩
    obtain ⟨offset, rest, rfl, rfl⟩ := hpass.cursors
    have hle : n ≤ (v ++ rest).length := by
      rw [List.length_append]
      omega
    rw [run_bytes_of_le hc hle, ← hlen, List.take_left]
  error {payload c after e} hc hrun := by
    obtain ⟨rfl, hshort, rfl⟩ := Decoder.run_take_eq_error_iff.mp hrun
    exact ⟨.refl _, run_bind_of_error (run_require_of_lt hc hshort)⟩

/-! ### Reads made of several parts -/

theorem follows_word (α : Type) [Word α] : (word α).Follows (Decoder.word α) :=
  (follows_bytes _).bind fun _ => follows_pure _

theorem follows_flag : flag.Follows Decoder.flag :=
  (follows_word UInt8).bind fun _ => follows_pure _

theorem follows_wideSize (width least : Nat) :
    (wideSize width least).Follows (Decoder.wideSize width least) := by
  refine (follows_bytes width).bind fun bs => ?_
  dsimp only
  split
  · exact (follows_fail _).bind fun _ => follows_pure _
  · exact follows_pure _

theorem follows_compactSize : compactSize.Follows Decoder.compactSize := by
  refine (follows_word UInt8).bind fun tag => ?_
  split
  · exact follows_wideSize 2 0xfd
  split
  · exact follows_wideSize 4 0x10000
  split
  · exact follows_wideSize 8 0x100000000
  · exact follows_pure _

theorem follows_length : IndexOp.length.Follows Decoder.length :=
  follows_compactSize.bind fun n => (follows_require n).bind fun _ => follows_pure n

theorem follows_varBytes : varBytes.Follows Decoder.varBytes := follows_length.bind follows_bytes

theorem follows_fixed (field : String) (n : Nat) :
    (fixed field n).Follows (Decoder.fixed field n) := by
  refine follows_varBytes.bind fun bs => ?_
  cases FixedBytes.ofBytes? n bs with
  | some value => exact follows_pure value
  | none => exact follows_fail _

theorem follows_base64Field (field : String) :
    (base64Field field).Follows (Decoder.base64Field field) := by
  refine follows_varBytes.bind fun bs => ?_
  cases Base64.decode? bs with
  | some text => exact follows_pure _
  | none => exact follows_fail _

end IndexOp

/-- Every read by index reports what the read from the cursor does. -/
theorem ReadStep.indexOp_follows (step : ReadStep) : step.indexOp.Follows step.decoder := by
  cases step with
  | bytes n => exact (IndexOp.follows_bytes n).map _
  | u8 => exact (IndexOp.follows_word UInt8).map _
  | flag => exact IndexOp.follows_flag.map _
  | u16 => exact (IndexOp.follows_word UInt16).map _
  | u32 => exact (IndexOp.follows_word UInt32).map _
  | i64 => exact (IndexOp.follows_word Int64).map _
  | compactSize => exact IndexOp.follows_compactSize.map _
  | length => exact IndexOp.follows_length.map _
  | varBytes => exact IndexOp.follows_varBytes.map _
  | fixed field n => exact (IndexOp.follows_fixed field n).map _
  | base64 field => exact (IndexOp.follows_base64Field field).map _

/-! ## Runs -/

/-- What the reader by index reports where the cursor does. -/
def ReadReport.byIndex (payload : Bytes) (report : ReadReport) : IndexReport :=
  ⟨report.outcome, ⟨payload, report.cursor.offset⟩⟩

/-- After a read, failed or not, the cursor is still on the payload, and the read by index agrees
with it. -/
theorem Cursor.On.read (h : c.On payload) (step : ReadStep) :
    c.Reaches (c.read step).cursor ∧
      IndexReader.read? ⟨payload, c.offset⟩ step = some ((c.read step).byIndex payload) := by
  unfold Cursor.read IndexReader.read?
  cases hrun : step.decoder.run c with
  | ok v after =>
    obtain ⟨hreach, hop⟩ := step.indexOp_follows.ok h hrun
    rw [hop]
    exact ⟨hreach, rfl⟩
  | error e after =>
    obtain ⟨hreach, hop⟩ := step.indexOp_follows.error h hrun
    rw [hop]
    exact ⟨hreach, rfl⟩

/-- A row of reads by index reports what the row of reads from the cursor does, and never leaves the
payload. -/
theorem Cursor.On.run (h : c.On payload) (steps : List ReadStep) :
    IndexReader.run? ⟨payload, c.offset⟩ steps =
      some ((c.run steps).map (ReadReport.byIndex payload)) := by
  induction steps generalizing c with
  | nil => rfl
  | cons step steps ih =>
    obtain ⟨hreach, hread⟩ := h.read step
    rw [IndexReader.run?, hread, Cursor.run, List.map_cons]
    change (IndexReader.run? ⟨payload, (c.read step).cursor.offset⟩ steps >>= _) = _
    rw [ih (h.of_reaches hreach)]
    rfl

/-- The reports of a run, each of a read at the cursor that the one before it has left. -/
inductive EachReport (P : Cursor → ReadStep → ReadReport → Prop) :
    Cursor → List ReadStep → List ReadReport → Prop where
  | nil (c : Cursor) : EachReport P c [] []
  | cons {c : Cursor} {step : ReadStep} {steps : List ReadStep} {report : ReadReport}
    {reports : List ReadReport} :
    P c step report → EachReport P report.cursor steps reports →
    EachReport P c (step :: steps) (report :: reports)

/-- What holds of every read at a cursor on the payload holds of each read in a row. -/
theorem eachReport_run {P : Cursor → ReadStep → ReadReport → Prop}
    (hP : ∀ {c}, c.On payload → ∀ step, P c step (c.read step)) (hc : c.On payload)
    (steps : List ReadStep) : EachReport P c steps (c.run steps) := by
  induction steps generalizing c with
  | nil => exact .nil c
  | cons step steps ih => exact .cons (hP hc step) (ih (hc.of_reaches (hc.read step).1))

/-- What holds of a read at the cursor `c` of a reader over `payload`. -/
structure SoundRead (payload : Bytes) (c : Cursor) (step : ReadStep) (report : ReadReport) :
    Prop where
  forward : c.offset ≤ report.cursor.offset
  inside : report.cursor.offset ≤ payload.length
  rest : report.cursor.rest = payload.drop report.cursor.offset
  remaining : report.cursor.rest.length = payload.length - report.cursor.offset
  /-- It fails in no other way than its kind may, and leaves the cursor there. -/
  failed : ∀ e, report.outcome = .error e ↔ step.Fails c report.cursor e
  /-- Missing bytes are missing where the cursor is left. -/
  missing : ∀ offset missing, report.outcome = .error (.unexpectedEnd offset missing) →
    offset = report.cursor.offset ∧ 1 ≤ missing

theorem Cursor.On.soundRead (h : c.On payload) (step : ReadStep) :
    SoundRead payload c step (c.read step) := by
  have hreach := (h.read step).1
  have hafter := h.of_reaches hreach
  refine ⟨?_, hafter.inside, hafter.rest, hafter.length_rest, fun e => ?_, ?_⟩
  · obtain ⟨front, -, hoffset⟩ := hreach
    omega
  · exact ReadStep.read_eq_error_iff
  · intro offset missing hshort
    exact (ReadStep.read_eq_error_iff.mp hshort).missingAt

/-- **Readers stay in their payload, whatever they read and whatever fails.**  Each read of a run
finds the cursor where the one before it has left it, and leaves it ahead of there; and a reader by
index, which would have no outcome once it was out of range, reports what the cursor reports. -/
theorem reads_stay_in_payload (payload : Bytes) (steps : List ReadStep) :
    EachReport (SoundRead payload) (Cursor.start payload) steps ((Cursor.start payload).run steps) ∧
      IndexReader.run? ⟨payload, 0⟩ steps =
        some (((Cursor.start payload).run steps).map (ReadReport.byIndex payload)) :=
  ⟨eachReport_run Cursor.On.soundRead (.start payload) steps, (Cursor.On.start payload).run steps⟩

-- A length that is too large and a size in a longer form than it needs are passed over, a word that
-- is cut off is not; the reads after them go on from there.
example :
    ((Cursor.start [0x09, 0xaa, 0xfd, 0x10, 0x00, 0x07]).run
        [.varBytes, .u8, .compactSize, .u16, .flag]).map (fun r => (r.outcome, r.cursor.offset)) =
      [(.error (.unexpectedEnd 1 4), 1), (.ok (.number 0xaa), 2),
        (.error (.nonCanonicalSize 0x10), 5), (.error (.unexpectedEnd 5 1), 5),
        (.ok (.flag true), 6)] :=
  rfl

end UtxoAssets
