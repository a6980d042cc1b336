import UtxoAssets.Bytes.Basic

/-!
# Blocks of a digest

Both digests of the library work on blocks of 64 bytes and pad in the same way: a set bit, zeros,
and the message's length in bits in the last eight bytes.  They differ in the byte order of that
length, which `padded` takes as given.
-/

set_option autoImplicit false

namespace UtxoAssets.Digest

/-- `message` with its padding; `bitLength` is its length in bits as eight bytes. -/
def padded (message bitLength : Bytes) : Bytes :=
  message ++ 0x80 :: List.replicate ((119 - message.length % 64) % 64) 0 ++ bitLength

/-- Consecutive pieces of `n + 1` bytes; the last one may be shorter. -/
def pieces (n : Nat) (bs : Bytes) : List Bytes :=
  match bs with
  | [] => []
  | b :: rest => (b :: rest.take n) :: pieces n (rest.drop n)
termination_by bs.length
decreasing_by simp only [List.length_drop, List.length_cons]; omega

end UtxoAssets.Digest
