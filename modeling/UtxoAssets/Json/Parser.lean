import UtxoAssets.Bytes.Hex
import UtxoAssets.Json.Basic

/-!
# Reading JSON text

* `Json.parse?` reads one value and nothing after it but blanks.

The value parsers take the number of steps they may still make; a value of `n` characters is read
within `n + 1` steps, so `parse?` never runs short.
-/

set_option autoImplicit false

namespace UtxoAssets.Json

/-- The characters that may stand between tokens. -/
def isBlank (c : Char) : Bool := c = ' ' || c = '\n' || c = '\r' || c = '\t'

/-- What follows the blanks. -/
def skipBlanks (cs : List Char) : List Char := cs.dropWhile isBlank

/-- The number of four hexadecimal digits. -/
def codeUnit? (a b c d : Char) : Option Nat := do
  return (((← hexValue? a) * 16 + (← hexValue? b)) * 16 + (← hexValue? c)) * 16 + (← hexValue? d)

/-- The character a backslash and a letter stand for. -/
def simpleEscape? : Char → Option Char
  | '"' => some '"'
  | '\\' => some '\\'
  | '/' => some '/'
  | 'b' => some '\x08'
  | 'f' => some '\x0c'
  | 'n' => some '\n'
  | 'r' => some '\r'
  | 't' => some '\t'
  | _ => none

/-- A string's characters up to its closing quote, and what follows it. Two escapes that form a
surrogate pair are one character. -/
def stringBody? : List Char → Option (List Char × List Char)
  | [] => none
  | '"' :: rest => some ([], rest)
  | '\\' :: 'u' :: a :: b :: c :: d :: rest => do
    let unit ← codeUnit? a b c d
    if 0xd800 ≤ unit ∧ unit < 0xdc00 then
      match rest with
      | '\\' :: 'u' :: e :: f :: g :: h :: rest =>
        let low ← codeUnit? e f g h
        if 0xdc00 ≤ low ∧ low < 0xe000 then
          let (cs, tail) ← stringBody? rest
          return (Char.ofNat (0x10000 + (unit - 0xd800) * 0x400 + (low - 0xdc00)) :: cs, tail)
        else none
      | _ => none
    else if 0xdc00 ≤ unit ∧ unit < 0xe000 then none
    else
      let (cs, tail) ← stringBody? rest
      return (Char.ofNat unit :: cs, tail)
  | '\\' :: e :: rest => do
    let c ← simpleEscape? e
    let (cs, tail) ← stringBody? rest
    return (c :: cs, tail)
  | c :: rest =>
    if c = '\\' ∨ c.toNat < 0x20 then none
    else do
      let (cs, tail) ← stringBody? rest
      return (c :: cs, tail)

/-- The characters that a number may have. -/
def isNumberChar (c : Char) : Bool :=
  c.isDigit || c = '-' || c = '+' || c = '.' || c = 'e' || c = 'E'

/-- A number from its characters. Negative zero is no integer. -/
def number? (literal : List Char) : Option Json :=
  let negative := literal.head? == some '-'
  let digits := if negative then literal.drop 1 else literal
  if digits.isEmpty then none
  else if digits.all Char.isDigit then
    let n := digits.foldl (fun (n : Nat) c => n * 10 + (c.toNat - 48)) 0
    if digits.head? == some '0' && 1 < digits.length then none
    else if negative && n = 0 then some (.real "-0.0")
    else some (.int (if negative then -(n : Int) else n))
  else if (digits.head?.map Char.isDigit) == some true then some (.real (String.ofList literal))
  else none

mutual

/-- Read one value, and give back what follows it. A step goes one level down or one item along. -/
def value? (steps : Nat) (cs : List Char) : Option (Json × List Char) :=
  match steps with
  | 0 => none
  | steps + 1 =>
    match skipBlanks cs with
    | '\x7b' :: rest =>
      match skipBlanks rest with
      | '\x7d' :: tail => some (.object [], tail)
      | body => members? steps [] body
    | '[' :: rest =>
      match skipBlanks rest with
      | ']' :: tail => some (.list [], tail)
      | body => items? steps [] body
    | '"' :: rest => (stringBody? rest).map fun (s, tail) => (.text (String.ofList s), tail)
    | 't' :: 'r' :: 'u' :: 'e' :: tail => some (.bool true, tail)
    | 'f' :: 'a' :: 'l' :: 's' :: 'e' :: tail => some (.bool false, tail)
    | 'n' :: 'u' :: 'l' :: 'l' :: tail => some (.null, tail)
    | body => (number? (body.takeWhile isNumberChar)).map fun n => (n, body.dropWhile isNumberChar)

/-- The items of a list, the ones read so far last first. -/
def items? (steps : Nat) (before : List Json) (cs : List Char) : Option (Json × List Char) :=
  match steps with
  | 0 => none
  | steps + 1 =>
    match value? steps cs with
    | none => none
    | some (v, rest) =>
      match skipBlanks rest with
      | ',' :: tail => items? steps (v :: before) tail
      | ']' :: tail => some (.list (v :: before).reverse, tail)
      | _ => none

/-- The members of an object after those read so far. -/
def members? (steps : Nat) (before : List (String × Json)) (cs : List Char) :
    Option (Json × List Char) :=
  match steps with
  | 0 => none
  | steps + 1 =>
    match skipBlanks cs with
    | '"' :: rest =>
      match stringBody? rest with
      | none => none
      | some (key, rest) =>
        match skipBlanks rest with
        | ':' :: rest =>
          match value? steps rest with
          | none => none
          | some (v, rest) =>
            let members := put (String.ofList key) v before
            match skipBlanks rest with
            | ',' :: tail => members? steps members tail
            | '\x7d' :: tail => some (.object members, tail)
            | _ => none
        | _ => none
    | _ => none

end

/-- Read a whole text. Its length bounds the steps. -/
def parse? (s : String) : Option Json :=
  let cs := s.toList
  match value? (2 * cs.length + 1) cs with
  | some (v, rest) => if (skipBlanks rest).isEmpty then some v else none
  | none => none

end UtxoAssets.Json
