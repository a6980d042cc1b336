import UtxoAssets.Bytes.Base64
import UtxoAssets.Bytes.Word
import UtxoAssets.Payload.Error
import UtxoAssets.Text.Utf8

/-!
# Reading a payload

A `Decoder` moves a cursor forward over a payload.  Its outcome is a value or a cause, and the
cursor either way: a decoder made of several reads leaves the cursor after the reads that
succeeded.

* `Decoder.take` fails without moving and reports exactly how many bytes are missing; every other
  decoder is built of it.
* `Decoder.compactSize` reads the shortest form only.
* `Decoder.many` runs a decoder a given number of times.  The count may come from the payload: a
  run over too few bytes stops at the first read that finds none.
-/

set_option autoImplicit false

namespace UtxoAssets

/-- A place in a payload: the bytes read so far, counted, and the bytes still to read. -/
structure Cursor where
  offset : Nat
  rest : Bytes
  deriving DecidableEq

/-- In front of a payload. -/
def Cursor.start (payload : Bytes) : Cursor := ⟨0, payload⟩

/-- A reader of values, which moves a cursor and may fail; the cursor stays where it was left. -/
abbrev Decoder (α : Type) := EStateM PayloadError Cursor α

namespace Decoder

variable {α : Type}

/-- Decode the front of a payload; bytes after it are ignored. -/
def decode (d : Decoder α) (payload : Bytes) : Except PayloadError α :=
  match d.run (Cursor.start payload) with
  | .ok value _ => .ok value
  | .error cause _ => .error cause

/-- The next `n` bytes. If there are fewer, the cursor does not move. -/
def take (n : Nat) : Decoder Bytes := fun c =>
  match splitExactly? n c.rest with
  | some (front, rest) => .ok front ⟨c.offset + n, rest⟩
  | none => .error (.unexpectedEnd c.offset (n - c.rest.length)) c

/-- The next word of a type. -/
def word (α : Type) [Word α] : Decoder α := do
  return Word.ofBytes α (← take (Word.width α))

/-- A byte as a truth value; every byte but zero is true. -/
def flag : Decoder Bool := do
  return (← word UInt8) != 0

/-- A number of `width` bytes that has to be at least `least`. -/
def wideSize (width least : Nat) : Decoder Nat := do
  let value := ofLittleEndian (← take width)
  if value < least then throw (.nonCanonicalSize value)
  return value

/-- A size in its shortest form; longer forms are refused. -/
def compactSize : Decoder Nat := do
  let tag ← word UInt8
  if tag = 0xfd then wideSize 2 0xfd
  else if tag = 0xfe then wideSize 4 0x10000
  else if tag = 0xff then wideSize 8 0x100000000
  else return tag.toNat

/-- Fail unless `n` bytes are left. -/
def require (n : Nat) : Decoder Unit := fun c =>
  if n ≤ c.rest.length then .ok () c
  else .error (.unexpectedEnd c.offset (n - c.rest.length)) c

/-- A length that the rest of the payload can hold. -/
def length : Decoder Nat := do
  let n ← compactSize
  require n
  return n

/-- Bytes behind their length. -/
def varBytes : Decoder Bytes := do
  take (← length)

/-- A length-prefixed field of exactly `n` bytes. -/
def fixed (field : String) (n : Nat) : Decoder (FixedBytes n) := do
  let bs ← varBytes
  match FixedBytes.ofBytes? n bs with
  | some value => return value
  | none => throw (.fieldLength field bs.length n)

/-- A length-prefixed field of base64 text. -/
def base64Field (field : String) : Decoder String := do
  let encoded ← varBytes
  match Base64.decode? encoded with
  | some bs => return Text.decodeLossy bs
  | none => throw (@PayloadError.invalidBase64 encoded field)

/-- So many items, one after the other. -/
def many (count : Nat) (item : Decoder α) : Decoder (List α) :=
  match count with
  | 0 => return []
  | count + 1 => do
    let value ← item
    let values ← many count item
    return value :: values

/-- A count and that many items. -/
def counted (item : Decoder α) : Decoder (List α) := do
  many (← compactSize) item

/-- Fail if a test of values read before fails. -/
def check (test : Except PayloadError α) : Decoder Unit := fun c =>
  match test with
  | .ok _ => .ok () c
  | .error cause => .error cause c

/-- A value that is there only under a condition. -/
def onlyIf (condition : Bool) (d : Decoder α) : Decoder (Option α) :=
  if condition then some <$> d else return none

end Decoder

end UtxoAssets
