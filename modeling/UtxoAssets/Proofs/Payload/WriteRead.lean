import Mathlib.Data.List.Forall2
import UtxoAssets.Payload.Step
import UtxoAssets.Proofs.Payload.Reading

/-!
# Writing step by step and reading step by step

* `WriteStep.encoded` — the bytes that belong to a step, whatever the buffer holds already
  (`WriteStep.appendTo_eq`, `Buffer.writeAll_eq`).
* `WriteStep.ReadBy` — which read belongs to which write; it reads the value back wherever the bytes
  stand (`ReadBy.reads`).
* `Cursor.run_of_passes` — a run of reads over the bytes of a list of writes.
* `writes_read_back` — the buffer that a list of writes leaves, and what a reader makes of it.
-/

set_option autoImplicit false

namespace UtxoAssets

/-! ## What a step adds to a buffer -/

theorem Buffer.writeLength_eq (buffer : Bytes) (n : Nat) :
    Buffer.writeLength buffer n = buffer ++ Wire.compactSize n := by
  simp only [Buffer.writeLength, Buffer.update, Wire.compactSize, apply_ite (buffer ++ ·),
    List.append_assoc, List.singleton_append]

theorem Buffer.writeVarBytes_eq (buffer data : Bytes) :
    Buffer.writeVarBytes buffer data = buffer ++ Wire.varBytes data := by
  rw [Buffer.writeVarBytes, Buffer.writeLength_eq, Buffer.update, List.append_assoc, Wire.varBytes]

/-- The bytes of a step on its own. -/
def WriteStep.encoded : WriteStep → Bytes
  | .bytes data => data
  | .length n => Wire.compactSize n
  | .varBytes data => Wire.varBytes data
  | .base64 text => Wire.base64Field text

theorem WriteStep.appendTo_eq (buffer : Bytes) (step : WriteStep) :
    step.appendTo buffer = buffer ++ step.encoded := by
  cases step with
  | bytes data => rfl
  | length n => exact Buffer.writeLength_eq buffer n
  | varBytes data => exact Buffer.writeVarBytes_eq buffer data
  | base64 text => exact Buffer.writeVarBytes_eq buffer (Base64.encode (Text.utf8 text))

/-- A row of writes appends the encodings in order. -/
theorem Buffer.writeAll_eq (buffer : Bytes) (steps : List WriteStep) :
    Buffer.writeAll buffer steps = buffer ++ steps.flatMap WriteStep.encoded := by
  induction steps generalizing buffer with
  | nil => exact (List.append_nil buffer).symm
  | cons step steps ih =>
    calc Buffer.writeAll (step.appendTo buffer) steps
        = step.appendTo buffer ++ steps.flatMap WriteStep.encoded := ih _
      _ = buffer ++ (step.encoded ++ steps.flatMap WriteStep.encoded) := by
          rw [WriteStep.appendTo_eq, List.append_assoc]

/-! ## One step read back -/

namespace WriteStep

/-- What reading a step's bytes should yield. -/
def value : WriteStep → ReadValue
  | .bytes data => .bytes data
  | .length n => .number n
  | .varBytes data => .bytes data
  | .base64 text => .text text

/-- 64 bits hold the length that the step writes. -/
def Fits : WriteStep → Prop
  | .bytes _ => True
  | .length n => Wire.IsLength n
  | .varBytes data => Wire.IsLength data.length
  | .base64 text => Wire.IsLength (Base64.encode (Text.utf8 text)).length

instance : (step : WriteStep) → Decidable step.Fits
  | .bytes _ => inferInstanceAs (Decidable True)
  | .length n => inferInstanceAs (Decidable (Wire.IsLength n))
  | .varBytes data => inferInstanceAs (Decidable (Wire.IsLength data.length))
  | .base64 text =>
    inferInstanceAs (Decidable (Wire.IsLength (Base64.encode (Text.utf8 text)).length))

/-- The read that belongs to a write. The name of a text field only shows in errors. -/
inductive ReadBy : WriteStep → ReadStep → Prop
  | bytes (data : Bytes) : ReadBy (.bytes data) (.bytes data.length)
  | length (n : Nat) : ReadBy (.length n) .compactSize
  | varBytes (data : Bytes) : ReadBy (.varBytes data) .varBytes
  | base64 (text field : String) : ReadBy (.base64 text) (.base64 field)

/-- A matching read gives back what was written. -/
theorem ReadBy.reads {write : WriteStep} {read : ReadStep} (h : write.ReadBy read)
    (hfits : write.Fits) : read.decoder.Reads write.encoded write.value := by
  cases h with
  | bytes data => exact (Decoder.reads_take data).map _
  | length n => exact (Decoder.reads_compactSize hfits).map _
  | varBytes data => exact (Decoder.reads_varBytes hfits).map _
  | base64 text field => exact (Decoder.reads_base64Field field hfits).map _

end WriteStep

/-! ## Steps in a row -/

/-- The reader that has read `n` bytes of a payload. -/
def Cursor.behind (payload : Bytes) (n : Nat) : Cursor := ⟨n, payload.drop n⟩

/-- Where a run of reads leaves the cursor. -/
def Cursor.afterRun (c : Cursor) (reads : List ReadStep) : Cursor :=
  ((c.run reads).map ReadReport.cursor).getLastD c

theorem Cursor.afterRun_cons (c : Cursor) (read : ReadStep) (reads : List ReadStep) :
    c.afterRun (read :: reads) = (c.read read).cursor.afterRun reads := by
  rw [afterRun, Cursor.run, List.map_cons, List.getLastD_cons, afterRun]

theorem Cursor.start_passes_behind (front rest : Bytes) :
    (Cursor.start (front ++ rest)).Passes front (Cursor.behind (front ++ rest) front.length) := by
  rw [behind, List.drop_left]
  exact ⟨rfl, (Nat.zero_add _).symm⟩

theorem Cursor.behind_passes_end (front rest : Bytes) :
    (Cursor.behind (front ++ rest) front.length).Passes rest ⟨(front ++ rest).length, []⟩ := by
  rw [behind, List.drop_left, List.length_append]
  exact ⟨(List.append_nil rest).symm, rfl⟩

/-- A read that finds its encoding reports the value and stops behind it. -/
theorem Cursor.read_eq_of_reads {read : ReadStep} {front : Bytes} {value : ReadValue}
    (h : read.decoder.Reads front value) {c after : Cursor} (hpass : c.Passes front after) :
    c.read read = ⟨.ok value, after⟩ := by
  rw [Cursor.read, h c after hpass]

/-- The reads that belong to a list of writes get their values wherever the bytes stand, and pass over
no byte more. -/
theorem Cursor.run_of_passes {writes : List WriteStep} {reads : List ReadStep}
    (hreads : List.Forall₂ WriteStep.ReadBy writes reads) (hfits : ∀ write ∈ writes, write.Fits)
    {c after : Cursor} (hpass : c.Passes (writes.flatMap WriteStep.encoded) after) :
    (c.run reads).map ReadReport.outcome = writes.map (fun write => .ok write.value) ∧
      c.afterRun reads = after := by
  -- The cursor after a read stands where the bytes of the next write begin.
  induction hreads generalizing c with
  | nil =>
    obtain ⟨offset, rest, rfl, rfl⟩ := hpass.cursors
    exact ⟨rfl, rfl⟩
  | @cons write read writes reads hread _ ih =>
    rw [List.flatMap_cons] at hpass
    obtain ⟨between, hfirst, hothers⟩ := hpass.split
    have hwrite := hread.reads (hfits write List.mem_cons_self)
    obtain ⟨houtcomes, hend⟩ := ih (fun w hw => hfits w (List.mem_cons_of_mem write hw)) hothers
    rw [Cursor.afterRun_cons, Cursor.run, Cursor.read_eq_of_reads hwrite hfirst, List.map_cons,
      houtcomes]
    exact ⟨rfl, hend⟩

/-- **Writes are read back in order.**  Each step adds its own bytes to the buffer, whatever the buffer
held; a reader that is behind what it held gets every value back from the matching reads, without an
error, and leaves nothing. -/
theorem writes_read_back :
    (∀ (c : Bytes) (writes : List WriteStep),
      Buffer.writeAll c writes = c ++ writes.flatMap WriteStep.encoded) ∧
    (∀ (c : Bytes) (writes : List WriteStep),
      (Cursor.start (Buffer.writeAll c writes)).read (.bytes c.length) =
        ⟨.ok (.bytes c), Cursor.behind (Buffer.writeAll c writes) c.length⟩) ∧
    (∀ (c : Bytes) (writes : List WriteStep) (reads : List ReadStep),
      List.Forall₂ WriteStep.ReadBy writes reads → (∀ write ∈ writes, write.Fits) →
      ((Cursor.behind (Buffer.writeAll c writes) c.length).run reads).map ReadReport.outcome =
          writes.map (fun write => .ok write.value) ∧
        (Cursor.behind (Buffer.writeAll c writes) c.length).afterRun reads =
          ⟨(Buffer.writeAll c writes).length, []⟩) := by
  refine ⟨Buffer.writeAll_eq, ?_, ?_⟩
  · intro c writes
    rw [Buffer.writeAll_eq]
    exact Cursor.read_eq_of_reads ((Decoder.reads_take c).map _) (Cursor.start_passes_behind c _)
  · intro c writes reads hreads hfits
    rw [Buffer.writeAll_eq]
    exact Cursor.run_of_passes hreads hfits (Cursor.behind_passes_end c _)

/-- Numbers on both sides of each bound of the shorter forms, bytes with and without a length, and
texts of each length modulo three. -/
theorem writes_read_back_samples :
    let writes : List WriteStep := [.length 0xfc, .length 0xfd, .length 0xffff, .length 0x10000,
      .length 0xffffffff, .length 0x100000000, .bytes [7, 8], .varBytes [9], .base64 "",
      .base64 "a", .base64 "ab", .base64 "abc"]
    let reads : List ReadStep := List.replicate 6 .compactSize ++
      [.bytes 2, .varBytes] ++ List.replicate 4 (.base64 "memo")
    let reader := Cursor.behind (Buffer.writeAll [0xfd] writes) 1
    (reader.run reads).map ReadReport.outcome =
        [.ok (.number 0xfc), .ok (.number 0xfd), .ok (.number 0xffff), .ok (.number 0x10000),
          .ok (.number 0xffffffff), .ok (.number 0x100000000), .ok (.bytes [7, 8]),
          .ok (.bytes [9]), .ok (.text ""), .ok (.text "a"), .ok (.text "ab"), .ok (.text "abc")] ∧
      reader.afterRun reads = ⟨47, []⟩ := by
  intro writes reads reader
  have hreads : List.Forall₂ WriteStep.ReadBy writes reads := by
    repeat' constructor
  have hfits : ∀ write ∈ writes, write.Fits := of_decide_eq_true rfl
  exact writes_read_back.2.2 [0xfd] writes reads hreads hfits

end UtxoAssets
