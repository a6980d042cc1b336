import UtxoAssets.Payload.Decoder

/-!
# Runs of reads and writes

A payload may be read or written step by step.

* `Cursor.run` makes reads one after another on one cursor; a failed read is reported and the next
  one goes on from where it left the cursor.
* `WriteStep.appendTo` puts what a step writes behind a buffer, piece by piece; `Buffer.writeAll` does
  so for a list of steps.
-/

set_option autoImplicit false

namespace UtxoAssets

/-- The reads that a cursor offers. -/
inductive ReadStep where
  | bytes (length : Nat)
  | u8
  | flag
  | u16
  | u32
  | i64
  | compactSize
  | length
  | varBytes
  | fixed (field : String) (length : Nat)
  | base64 (field : String)

/-- What a read may yield. -/
inductive ReadValue where
  | bytes (value : Bytes)
  | flag (value : Bool)
  | number (value : Int)
  | text (value : String)
  deriving DecidableEq

namespace ReadStep

open ReadValue (number)

/-- The decoder of a read. -/
def decoder : ReadStep → Decoder ReadValue
  | .bytes n => .bytes <$> Decoder.take n
  | .u8 => (fun x => number x.toNat) <$> Decoder.word UInt8
  | .flag => .flag <$> Decoder.flag
  | .u16 => (fun x => number x.toNat) <$> Decoder.word UInt16
  | .u32 => (fun x => number x.toNat) <$> Decoder.word UInt32
  | .i64 => (fun x => number x.toInt) <$> Decoder.word Int64
  | .compactSize => (fun n : Nat => number n) <$> Decoder.compactSize
  | .length => (fun n : Nat => number n) <$> Decoder.length
  | .varBytes => .bytes <$> Decoder.varBytes
  | .fixed field n => (fun b => .bytes b.toBytes) <$> Decoder.fixed field n
  | .base64 field => .text <$> Decoder.base64Field field

end ReadStep

/-- What a read reports, and the cursor after it. -/
structure ReadReport where
  outcome : Except PayloadError ReadValue
  cursor : Cursor

/-- Make one read, and report what came of it and where the cursor stands then. -/
def Cursor.read (c : Cursor) (step : ReadStep) : ReadReport :=
  match step.decoder.run c with
  | .ok value after => ⟨.ok value, after⟩
  | .error cause after => ⟨.error cause, after⟩

/-- Make a row of reads. A failed one does not end it. -/
def Cursor.run (c : Cursor) : List ReadStep → List ReadReport
  | [] => []
  | step :: steps => c.read step :: Cursor.run (c.read step).cursor steps

/-- The writes that a buffer offers. -/
inductive WriteStep where
  | bytes (data : Bytes)
  | length (n : Nat)
  | varBytes (data : Bytes)
  | base64 (text : String)

namespace Buffer

/-- Append bytes. -/
def update (buffer data : Bytes) : Bytes := buffer ++ data

/-- A number below `2 ^ 64` in the shortest form that holds it: a tag and then the digits. -/
def writeLength (buffer : Bytes) (n : Nat) : Bytes :=
  if n < 0xfd then update buffer [UInt8.ofNat n]
  else if n < 0x10000 then update (update buffer [0xfd]) (littleEndian 2 n)
  else if n < 0x100000000 then update (update buffer [0xfe]) (littleEndian 4 n)
  else update (update buffer [0xff]) (littleEndian 8 n)

/-- Append bytes behind their length. -/
def writeVarBytes (buffer data : Bytes) : Bytes := update (writeLength buffer data.length) data

/-- Append a text in base64, behind its length. -/
def writeBase64 (buffer : Bytes) (text : String) : Bytes :=
  writeVarBytes buffer (Base64.encode (Text.utf8 text))

end Buffer

/-- Make one write. -/
def WriteStep.appendTo (buffer : Bytes) : WriteStep → Bytes
  | .bytes data => Buffer.update buffer data
  | .length n => Buffer.writeLength buffer n
  | .varBytes data => Buffer.writeVarBytes buffer data
  | .base64 text => Buffer.writeBase64 buffer text

/-- One buffer that grows step by step. -/
def Buffer.writeAll (buffer : Bytes) (steps : List WriteStep) : Bytes :=
  steps.foldl WriteStep.appendTo buffer

end UtxoAssets
