import UtxoAssets.Bytes.Word
import UtxoAssets.Digest.Padding

/-!
# RIPEMD-160

Two lines of five rounds run over each block and are added crosswise into the chain.

* `ripemd160` digests a byte string into 20 bytes; the length is part of its type.
-/

set_option autoImplicit false

namespace UtxoAssets.Digest.Ripemd160

/-- The five chaining words. -/
structure Chain where
  a : UInt32
  b : UInt32
  c : UInt32
  d : UInt32
  e : UInt32

/-- One round of sixteen steps: which message word each step takes and how far it rotates. -/
structure Round where
  mix : UInt32 → UInt32 → UInt32 → UInt32
  constant : UInt32
  words : List Nat
  shifts : List UInt32

/-- The chain before the first block. -/
def initial : Chain := ⟨0x67452301, 0xefcdab89, 0x98badcfe, 0x10325476, 0xc3d2e1f0⟩

/-- The mixing function of the first round on the left, and of the last one on the right. -/
def mix1 (x y z : UInt32) : UInt32 := x ^^^ y ^^^ z

/-- The mixing function of the second round: `x` chooses between the others. -/
def mix2 (x y z : UInt32) : UInt32 := (x &&& y) ||| (~~~x &&& z)

/-- The mixing function of the middle round on both sides. -/
def mix3 (x y z : UInt32) : UInt32 := (x ||| ~~~y) ^^^ z

/-- The mixing function of the fourth round: `z` chooses between the others. -/
def mix4 (x y z : UInt32) : UInt32 := (x &&& z) ||| (y &&& ~~~z)

/-- The mixing function of the last round on the left, and of the first one on the right. -/
def mix5 (x y z : UInt32) : UInt32 := x ^^^ (y ||| ~~~z)

/-- The rounds of the left line. -/
def leftLine : List Round :=
  [⟨mix1, 0x00000000, [0, 1, 2, 3, 4, 5, 6, 7, 8, 9, 10, 11, 12, 13, 14, 15],
      [11, 14, 15, 12, 5, 8, 7, 9, 11, 13, 14, 15, 6, 7, 9, 8]⟩,
   ⟨mix2, 0x5a827999, [7, 4, 13, 1, 10, 6, 15, 3, 12, 0, 9, 5, 2, 14, 11, 8],
      [7, 6, 8, 13, 11, 9, 7, 15, 7, 12, 15, 9, 11, 7, 13, 12]⟩,
   ⟨mix3, 0x6ed9eba1, [3, 10, 14, 4, 9, 15, 8, 1, 2, 7, 0, 6, 13, 11, 5, 12],
      [11, 13, 6, 7, 14, 9, 13, 15, 14, 8, 13, 6, 5, 12, 7, 5]⟩,
   ⟨mix4, 0x8f1bbcdc, [1, 9, 11, 10, 0, 8, 12, 4, 13, 3, 7, 15, 14, 5, 6, 2],
      [11, 12, 14, 15, 14, 15, 9, 8, 9, 14, 5, 6, 8, 6, 5, 12]⟩,
   ⟨mix5, 0xa953fd4e, [4, 0, 5, 9, 7, 12, 2, 10, 14, 1, 3, 8, 11, 6, 15, 13],
      [9, 15, 5, 11, 6, 8, 13, 12, 5, 12, 13, 14, 11, 8, 5, 6]⟩]

/-- The rounds of the right line, with the mixing functions in opposite order. -/
def rightLine : List Round :=
  [⟨mix5, 0x50a28be6, [5, 14, 7, 0, 9, 2, 11, 4, 13, 6, 15, 8, 1, 10, 3, 12],
      [8, 9, 9, 11, 13, 15, 15, 5, 7, 7, 8, 11, 14, 14, 12, 6]⟩,
   ⟨mix4, 0x5c4dd124, [6, 11, 3, 7, 0, 13, 5, 10, 14, 15, 8, 12, 4, 9, 1, 2],
      [9, 13, 15, 7, 12, 8, 9, 11, 7, 7, 12, 7, 6, 15, 13, 11]⟩,
   ⟨mix3, 0x6d703ef3, [15, 5, 1, 3, 7, 14, 6, 9, 11, 8, 12, 2, 10, 0, 4, 13],
      [9, 7, 15, 11, 8, 6, 6, 14, 12, 13, 5, 14, 13, 13, 7, 5]⟩,
   ⟨mix2, 0x7a6d76e9, [8, 6, 4, 1, 3, 11, 15, 0, 5, 12, 2, 13, 9, 7, 10, 14],
      [15, 5, 8, 11, 14, 14, 6, 14, 6, 9, 12, 9, 12, 5, 15, 8]⟩,
   ⟨mix1, 0x00000000, [12, 15, 10, 4, 1, 5, 8, 7, 6, 2, 13, 14, 0, 3, 9, 11],
      [8, 5, 12, 9, 12, 5, 14, 6, 8, 13, 6, 5, 15, 13, 11, 11]⟩]

/-- Rotate a word by `n` bits, where `n` is between 1 and 31. -/
def rotateLeft (x n : UInt32) : UInt32 := (x <<< n) ||| (x >>> (32 - n))

/-- One step: mix one word of the message into the chain. -/
def step (r : Round) (message : List UInt32) (s : Chain) (word : Nat) (shift : UInt32) : Chain :=
  let t := rotateLeft (s.a + r.mix s.b s.c s.d + message.getD word 0 + r.constant) shift + s.e
  ⟨s.e, t, s.b, rotateLeft s.c 10, s.d⟩

/-- All steps of a line. -/
def runLine (line : List Round) (message : List UInt32) (s : Chain) : Chain :=
  line.foldl (fun s r => (r.words.zip r.shifts).foldl (fun s ws => step r message s ws.1 ws.2) s) s

/-- Take in one block: both lines run from the same chain and are added to it crosswise. -/
def compress (s : Chain) (block : Bytes) : Chain :=
  let message := (pieces 3 block).map (Word.ofBytes UInt32)
  let l := runLine leftLine message s
  let r := runLine rightLine message s
  ⟨s.b + l.c + r.d, s.c + l.d + r.e, s.d + l.e + r.a, s.e + l.a + r.b, s.a + l.b + r.c⟩

/-- The chain as a digest, each word low byte first. -/
def Chain.toBytes (s : Chain) : FixedBytes 20 where
  toBytes := Word.toBytes s.a ++ Word.toBytes s.b ++ Word.toBytes s.c ++ Word.toBytes s.d
    ++ Word.toBytes s.e
  length_toBytes := by simp [Word.width]

end Ripemd160

/-- The RIPEMD-160 digest of a message. -/
def ripemd160 (message : Bytes) : FixedBytes 20 :=
  let bitLength := littleEndian 8 (8 * message.length)
  ((pieces 63 (padded message bitLength)).foldl Ripemd160.compress Ripemd160.initial).toBytes

end UtxoAssets.Digest
