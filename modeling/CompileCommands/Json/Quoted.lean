/-!
# JSON strings

A string stands between double quotes. Writing escapes the double quote, the backslash and the
controls below the space, and nothing else. Reading accepts any escape: a character outside the
basic plane comes as two escapes, a high half and a low half, and a half on its own is read as the
replacement character.
-/

namespace CompileCommands.Json

/-! ## Writing -/

def hexPair (n : Nat) : List Char := [Nat.digitChar (n / 16), Nat.digitChar (n % 16)]

def quotedChar (c : Char) : List Char :=
  if c = '"' || c = '\\' then ['\\', c]
  else if c = '\x08' then ['\\', 'b']
  else if c = '\t' then ['\\', 't']
  else if c = '\n' then ['\\', 'n']
  else if c = '\x0c' then ['\\', 'f']
  else if c = '\r' then ['\\', 'r']
  else if c < ' ' then ['\\', 'u', '0', '0'] ++ hexPair c.toNat
  else [c]

def quote (text : String) : String :=
  String.ofList ('"' :: text.toList.flatMap quotedChar ++ ['"'])

/-! ## Reading -/

def hexDigit? (c : Char) : Option Nat :=
  if '0' ≤ c && c ≤ '9' then some (c.toNat - '0'.toNat)
  else if 'a' ≤ c && c ≤ 'f' then some (c.toNat - 'a'.toNat + 10)
  else if 'A' ≤ c && c ≤ 'F' then some (c.toNat - 'A'.toNat + 10)
  else none

def hexFour? (a b c d : Char) : Option Nat := do
  let a ← hexDigit? a
  let b ← hexDigit? b
  let c ← hexDigit? c
  let d ← hexDigit? d
  some (((a * 16 + b) * 16 + c) * 16 + d)

def shortEscape? (c : Char) : Option Char :=
  if c = '"' || c = '\\' || c = '/' then some c
  else if c = 'b' then some '\x08'
  else if c = 'f' then some '\x0c'
  else if c = 'n' then some '\n'
  else if c = 'r' then some '\r'
  else if c = 't' then some '\t'
  else none

/-- Reads the inside of a string behind code points already read, up to the closing quote. An
escape by number gives that number, which may be half of a character. -/
def readString (read : Array Nat) : List Char → Option (List Nat × List Char)
  | [] => none
  | '"' :: rest => some (read.toList, rest)
  | '\\' :: 'u' :: a :: b :: c :: d :: rest =>
      match hexFour? a b c d with
      | some n => readString (read.push n) rest
      | none => none
  | '\\' :: e :: rest =>
      match shortEscape? e with
      | some c => readString (read.push c.toNat) rest
      | none => none
  | c :: rest => if c < ' ' then none else readString (read.push c.toNat) rest

def isHighHalf (n : Nat) : Bool := 0xd800 ≤ n && n ≤ 0xdbff

def isLowHalf (n : Nat) : Bool := 0xdc00 ≤ n && n ≤ 0xdfff

/-- The characters of code points, two halves in a row being one character. A half by itself is kept
in JSON; a list of characters cannot hold it, so here a replacement character stands for it. -/
def ofCodePoints : List Nat → List Char
  | [] => []
  | [n] => [if isHighHalf n || isLowHalf n then '\ufffd' else Char.ofNat n]
  | n :: m :: rest =>
      if isHighHalf n && isLowHalf m then
        Char.ofNat (0x10000 + (n - 0xd800) * 0x400 + (m - 0xdc00)) :: ofCodePoints rest
      else if isHighHalf n || isLowHalf n then '\ufffd' :: ofCodePoints (m :: rest)
      else Char.ofNat n :: ofCodePoints (m :: rest)

end CompileCommands.Json
