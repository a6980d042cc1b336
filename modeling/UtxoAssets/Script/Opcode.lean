import UtxoAssets.Bytes.Basic

/-!
# Opcodes

* `Opcode.name` is the mnemonic of an opcode byte.
* `Opcode.isPush` and `Opcode.isSmallInt` tell the instructions that push data or a number.
-/

set_option autoImplicit false

namespace UtxoAssets.Opcode

/-- The length of the push is in the next byte. -/
def pushData1 : UInt8 := 0x4c

/-- The length of the push is in the next two bytes. -/
def pushData2 : UInt8 := 0x4d

/-- The length of the push is in the next four bytes. -/
def pushData4 : UInt8 := 0x4e

/-- Pushes minus one. -/
def negative1 : UInt8 := 0x4f

/-- The first of the opcodes that push a number from one to sixteen. -/
def one : UInt8 := 0x51

/-- The last of the opcodes that push a number. -/
def sixteen : UInt8 := 0x60

/-- The first opcode that does not push. -/
def nop : UInt8 := 0x61

/-- Ends a script's execution; what follows is data. -/
def ret : UInt8 := 0x6a

/-- Copies the top item. -/
def dup : UInt8 := 0x76

/-- Compares two items. -/
def equal : UInt8 := 0x87

/-- Compares two items, and fails if they differ. -/
def equalVerify : UInt8 := 0x88

/-- Replaces the top item by its hash of 20 bytes. -/
def hash160 : UInt8 := 0xa9

/-- Checks one signature. -/
def checkSig : UInt8 := 0xac

/-- Checks several signatures against several keys. -/
def checkMultiSig : UInt8 := 0xae

/-- The last opcode with a mnemonic. -/
def nop10 : UInt8 := 0xb9

/-- The mnemonics from `pushData1` to `nop10`, without a gap. -/
def mnemonics : List String :=
  ["OP_PUSHDATA1", "OP_PUSHDATA2", "OP_PUSHDATA4", "-1",
   "OP_RESERVED", "1", "2", "3", "4", "5", "6", "7", "8", "9", "10", "11", "12", "13", "14", "15",
   "16",
   "OP_NOP", "OP_VER", "OP_IF", "OP_NOTIF", "OP_VERIF", "OP_VERNOTIF", "OP_ELSE", "OP_ENDIF",
   "OP_VERIFY", "OP_RETURN", "OP_TOALTSTACK", "OP_FROMALTSTACK", "OP_2DROP", "OP_2DUP", "OP_3DUP",
   "OP_2OVER", "OP_2ROT", "OP_2SWAP", "OP_IFDUP", "OP_DEPTH", "OP_DROP", "OP_DUP", "OP_NIP",
   "OP_OVER", "OP_PICK", "OP_ROLL", "OP_ROT", "OP_SWAP", "OP_TUCK", "OP_CAT", "OP_SUBSTR",
   "OP_LEFT", "OP_RIGHT", "OP_SIZE", "OP_INVERT", "OP_AND", "OP_OR", "OP_XOR", "OP_EQUAL",
   "OP_EQUALVERIFY", "OP_RESERVED1", "OP_RESERVED2", "OP_1ADD", "OP_1SUB", "OP_2MUL", "OP_2DIV",
   "OP_NEGATE", "OP_ABS", "OP_NOT", "OP_0NOTEQUAL", "OP_ADD", "OP_SUB", "OP_MUL", "OP_DIV",
   "OP_MOD", "OP_LSHIFT", "OP_RSHIFT", "OP_BOOLAND", "OP_BOOLOR", "OP_NUMEQUAL",
   "OP_NUMEQUALVERIFY", "OP_NUMNOTEQUAL", "OP_LESSTHAN", "OP_GREATERTHAN", "OP_LESSTHANOREQUAL",
   "OP_GREATERTHANOREQUAL", "OP_MIN", "OP_MAX", "OP_WITHIN", "OP_RIPEMD160", "OP_SHA1",
   "OP_SHA256", "OP_HASH160", "OP_HASH256", "OP_CODESEPARATOR", "OP_CHECKSIG",
   "OP_CHECKSIGVERIFY", "OP_CHECKMULTISIG", "OP_CHECKMULTISIGVERIFY", "OP_NOP1",
   "OP_CHECKLOCKTIMEVERIFY", "OP_CHECKSEQUENCEVERIFY", "OP_NOP4", "OP_NOP5", "OP_NOP6", "OP_NOP7",
   "OP_NOP8", "OP_NOP9", "OP_NOP10"]

/-- Stands for the mnemonic of an opcode that has none. -/
def unknown : String := "OP_UNKNOWN"

/-- The mnemonic of an opcode; those that push a number are named by it. -/
def name (opcode : UInt8) : String :=
  if opcode = 0x00 then "0"
  else if opcode = 0xff then "OP_INVALIDOPCODE"
  else if opcode < pushData1 then unknown
  else mnemonics.getD (opcode.toNat - pushData1.toNat) unknown

/-- Pushes bytes; the opcode zero pushes none. -/
def isPush (opcode : UInt8) : Bool := opcode ≤ pushData4

/-- Pushes a number from one to sixteen. -/
def isSmallInt (opcode : UInt8) : Bool := one ≤ opcode && opcode ≤ sixteen

theorem isSmallInt_iff {opcode : UInt8} : isSmallInt opcode ↔ one ≤ opcode ∧ opcode ≤ sixteen := by
  rw [isSmallInt, Bool.and_eq_true, decide_eq_true_iff, decide_eq_true_iff]

/-- The number from zero to sixteen that an opcode pushes. -/
def smallInt? (opcode : UInt8) : Option Nat :=
  if opcode = 0x00 then some 0
  else if isSmallInt opcode then some (opcode.toNat - 0x50)
  else none

/-- The number that an opcode pushes, if it counts something: zero does not. -/
def count? (opcode : UInt8) : Option Nat := if isSmallInt opcode then smallInt? opcode else none

/-- The bytes of a push that hold the length of its data. -/
def lengthWidth (opcode : UInt8) : Nat :=
  if opcode = pushData1 then 1
  else if opcode = pushData2 then 2
  else if opcode = pushData4 then 4
  else 0

/-- The data length that an opcode below `pushData1` states by itself; other opcodes state none. -/
def directLength (opcode : UInt8) : Nat := if opcode < pushData1 then opcode.toNat else 0

end UtxoAssets.Opcode
