import CompileCommands.Pattern.Identifier
import CompileCommands.Pattern.Tree
import CompileCommands.Text.Unit16

/-!
# Reading patterns

A pattern is alternatives between bars, each a row of terms. The reader is lenient where a mark
cannot mean anything else: a brace that opens no count, a closing brace or bracket on its own, and
a backslash before an ordinary character stand for themselves. A backslash and digits refer to a
group if the whole pattern has that many groups, and give a unit by its octal number otherwise.

What may be repeated is everything that takes text, groups, and looking ahead; not the other
assertions. A pattern names each group at most once, and refers only to names that it has.
-/

namespace CompileCommands.Pattern

/-- The character of a unit. Half of a pair has none and gives the null character, which no rule
below mentions. -/
def glyph (u : Nat) : Char := Char.ofNat u

/-! ## Looking through a pattern before it is read -/

def afterClass : List Nat → List Nat
  | [] => []
  | u :: rest =>
      if glyph u = ']' then rest
      else if glyph u = '\\' then
        match rest with
        | [] => []
        | _ :: rest => afterClass rest
      else afterClass rest

/-- The number of groups that record what they match, and whether one of them has a name, counted
from numbers found before. -/
def survey (fuel : Nat) (groups : Nat) (named : Bool) (us : List Nat) : Nat × Bool :=
  match fuel, us with
  | 0, _ | _, [] => (groups, named)
  | fuel + 1, u :: rest =>
      match glyph u, rest with
      | '\\', _ => survey fuel groups named (rest.drop 1)
      | '[', _ => survey fuel groups named (afterClass rest)
      | '(', v :: more =>
          if glyph v = '?' then
            match more with
            | a :: b :: more =>
                if glyph a = '<' && glyph b ≠ '=' && glyph b ≠ '!' then
                  survey fuel (groups + 1) true (b :: more)
                else survey fuel groups named (a :: b :: more)
            | more => survey fuel groups named more
          else survey fuel (groups + 1) named rest
      | '(', [] => (groups + 1, named)
      | _, _ => survey fuel groups named rest

/-! ## The reader -/

structure Known where
  groups : Nat
  named : Bool

/-- What is left of the pattern, and what has been met so far: the groups opened, their names, and
the names referred to. -/
structure Reading where
  left : List Nat
  opened : Nat
  names : List (List Nat × Nat)
  mentioned : List (List Nat)

abbrev Reader := ReaderT Known (StateT Reading (Except String))

def peek : Reader (Option Char) := do return (← get).left.head?.map glyph

def next? : Reader (Option Nat) := do
  match (← get).left with
  | [] => return none
  | u :: rest =>
      modify fun s => { s with left := rest }
      return some u

def drop (n : Nat) : Reader Unit := modify fun s => { s with left := s.left.drop n }

def accept (c : Char) : Reader Bool := do
  if (← peek) = some c then
    drop 1
    return true
  else return false

/-! ### Numbers -/

def hexValue? (u : Nat) : Option Nat :=
  if '0'.toNat ≤ u && u ≤ '9'.toNat then some (u - '0'.toNat)
  else if 'a'.toNat ≤ u && u ≤ 'f'.toNat then some (u - 'a'.toNat + 10)
  else if 'A'.toNat ≤ u && u ≤ 'F'.toNat then some (u - 'A'.toNat + 10)
  else none

def hexFront? (count : Nat) (us : List Nat) : Option Nat :=
  if us.length < count then none
  else (us.take count).foldlM (fun n u => (hexValue? u).map (n * 16 + ·)) 0

def isDigitUnit (u : Nat) : Bool := '0'.toNat ≤ u && u ≤ '9'.toNat

def decimalFront? (us : List Nat) : Option (Nat × List Nat) :=
  match us.span isDigitUnit with
  | ([], _) => none
  | (ds, rest) => some (ds.foldl (fun n d => n * 10 + (d - '0'.toNat)) 0, rest)

/-- Counts from this on mean any number of times. -/
def unbounded : Nat := 2147483647

def bound (n : Nat) : Option Nat := if n < unbounded then some n else none

/-- A count in braces, the opening brace already read: the least and the greatest number of times,
and what stands behind the closing brace. -/
def countFront? (us : List Nat) : Option (Nat × Option Nat × List Nat) := do
  let (least, rest) ← decimalFront? us
  let least := min least unbounded
  match rest with
  | [] => none
  | u :: rest =>
      if glyph u = '\x7d' then some (least, bound least, rest)
      else if glyph u = ',' then
        match rest with
        | [] => none
        | v :: more =>
            if glyph v = '\x7d' then some (least, none, more)
            else
              let (most, rest) ← decimalFront? rest
              match rest with
              | [] => none
              | w :: rest => if glyph w = '\x7d' then some (least, bound most, rest) else none
      else none

/-! ### Escapes -/

/-- Up to three octal digits, of which the first is given, as long as they stay below 256. -/
def octal (first : Nat) : Reader Nat := do
  let isOctal (u : Nat) := '0'.toNat ≤ u && u ≤ '7'.toNat
  let mut n := first - '0'.toNat
  match (← get).left with
  | u :: rest =>
      if isOctal u then
        n := n * 8 + (u - '0'.toNat)
        drop 1
        match rest with
        | v :: _ =>
            if n < 32 && isOctal v then
              n := n * 8 + (v - '0'.toNat)
              drop 1
        | [] => pure ()
  | [] => pure ()
  return n

/-- The unit of a control character, the `c` behind the backslash and then a letter being next.
Without the letter the backslash stands for itself, and the `c` is read again. -/
def control (inClass : Bool) : Reader Nat := do
  match (← get).left.drop 1 with
  | u :: _ =>
      let ch := glyph u
      if ch.isAlpha || (inClass && (ch.isDigit || ch = '_')) then
        drop 2
        return u % 32
      else return '\\'.toNat
  | [] => return '\\'.toNat

def escapedUnit (inClass : Bool) : Reader Nat := do
  match (← get).left with
  | [] => throw "\\ at end of pattern"
  | u :: rest =>
      match glyph u with
      | 'c' => control inClass
      | 'x' =>
          drop 1
          match hexFront? 2 rest with
          | some n => drop 2; return n
          | none => return u
      | 'u' =>
          drop 1
          match hexFront? 4 rest with
          | some n => drop 4; return n
          | none => return u
      | 'k' =>
          if (← read).named then throw "Invalid escape"
          drop 1
          return u
      | ch =>
          drop 1
          if '0' ≤ ch && ch ≤ '7' then octal u
          else
            return match ch with
              | 'f' => 0x0c
              | 'n' => 0x0a
              | 'r' => 0x0d
              | 't' => 0x09
              | 'v' => 0x0b
              | _ => u

def classOfLetter? : Char → Option Range
  | 'd' => some (.digit true)
  | 'D' => some (.digit false)
  | 's' => some (.space true)
  | 'S' => some (.space false)
  | 'w' => some (.word true)
  | 'W' => some (.word false)
  | _ => none

/-! ### Classes -/

inductive Side where
  | unit (u : Nat)
  | set (range : Range)

def Side.range : Side → Range
  | unit u => .between u u
  | set range => range

/-- Reads one side; a backslash and `b` are a backspace here. -/
def side (u : Nat) : Reader Side := do
  if glyph u = '\\' then
    match ← peek with
    | some 'b' =>
        drop 1
        return .unit 0x08
    | some ch =>
        match classOfLetter? ch with
        | some range =>
            drop 1
            return .set range
        | none => return .unit (← escapedUnit true)
    | none => throw "\\ at end of pattern"
  else return .unit u

def ranges : Nat → List Range → Reader (List Range)
  | 0, _ => throw "Unterminated character class"
  | fuel + 1, found => do
      match ← next? with
      | none => throw "Unterminated character class"
      | some u =>
          if glyph u = ']' then return found.reverse
          let first ← side u
          if ← accept '-' then
            match ← next? with
            | none => throw "Unterminated character class"
            | some v =>
                let dash := Range.between '-'.toNat '-'.toNat
                if glyph v = ']' then return (dash :: first.range :: found).reverse
                match first, ← side v with
                | .unit low, .unit high =>
                    if high < low then throw "Range out of order in character class"
                    ranges fuel (.between low high :: found)
                | first, second => ranges fuel (second.range :: dash :: first.range :: found)
          else ranges fuel (first.range :: found)

def unitClass : Reader Tree := do
  let outside ← accept '^'
  let found ← ranges ((← get).left.length + 1) []
  return .one ⟨found, !outside⟩

/-! ### Names of groups -/

def namePoint : Reader Nat := do
  match ← next? with
  | none => throw "Invalid capture group name"
  | some u =>
      match (← get).left with
      | v :: _ =>
          if 0xd800 ≤ u && u ≤ 0xdbff && 0xdc00 ≤ v && v ≤ 0xdfff then
            drop 1
            return 0x10000 + (u - 0xd800) * 0x400 + (v - 0xdc00)
          else return u
      | [] => return u

/-- The code point of an escape in a name, its backslash and `u` already read: four digits, twice
four for the two halves of a pair, or any digits in braces. -/
def escapedPoint : Reader Nat := do
  let us := (← get).left
  if us.head?.map glyph = some '\x7b' then
    let (ds, rest) := (us.drop 1).span fun u => (hexValue? u).isSome
    let n := ds.foldl (fun n u => n * 16 + (hexValue? u).getD 0) 0
    if ds.isEmpty || n > 0x10ffff || rest.head?.map glyph ≠ some '\x7d' then
      throw "Invalid Unicode escape"
    drop (ds.length + 2)
    return n
  match hexFront? 4 us with
  | none => throw "Invalid Unicode escape"
  | some n =>
      drop 4
      match us.drop 4 with
      | a :: b :: rest =>
          match hexFront? 4 rest with
          | some m =>
              if 0xd800 ≤ n && n ≤ 0xdbff && glyph a = '\\' && glyph b = 'u' &&
                  0xdc00 ≤ m && m ≤ 0xdfff then
                drop 6
                return 0x10000 + (n - 0xd800) * 0x400 + (m - 0xdc00)
              else return n
          | none => return n
      | _ => return n

/-- A name up to its closing bracket, behind what is already read of it. The bracket ends the name
also where it is written as an escape. -/
def name : Nat → List Nat → Reader (List Nat)
  | 0, _ => throw "Invalid capture group name"
  | fuel + 1, read => do
      let next ← namePoint
      let n ←
        if glyph next = '\\' then
          if ← accept 'u' then escapedPoint else throw "Invalid capture group name"
        else pure next
      if read.isEmpty then
        if startsIdentifier n then name fuel [n] else throw "Invalid capture group name"
      else if glyph n = '>' then return read.reverse
      else if continuesIdentifier n then name fuel (n :: read)
      else throw "Invalid capture group name"

def groupName : Reader (List Nat) := do name ((← get).left.length + 1) []

/-! ### Terms -/

def openGroup (name? : Option (List Nat)) : Reader Nat := do
  let index := (← get).opened + 1
  modify fun s => { s with opened := index }
  match name? with
  | none => pure ()
  | some name =>
      if (← get).names.any (·.1 = name) then throw "Duplicate capture group name"
      modify fun s => { s with names := (name, index) :: s.names }
  return index

inductive Opening where
  | plain
  | recording (index : Nat)
  | look (ahead holds : Bool)

def opening : Reader Opening := do
  if ← accept '?' then
    if ← accept ':' then return .plain
    else if ← accept '=' then return .look true true
    else if ← accept '!' then return .look true false
    else if ← accept '<' then
      if ← accept '=' then return .look false true
      else if ← accept '!' then return .look false false
      else return .recording (← openGroup (some (← groupName)))
    else throw "Invalid group"
  else return .recording (← openGroup none)

def namedReference : Reader Tree := do
  unless ← accept '<' do throw "Invalid named reference"
  let name ← groupName
  modify fun s => { s with mentioned := name :: s.mentioned }
  return .reference (.name name)

def escape : Reader (Tree × Bool) := do
  let us := (← get).left
  match us with
  | [] => throw "\\ at end of pattern"
  | u :: _ =>
      match glyph u with
      | 'b' =>
          drop 1
          return (.wordEdge true, false)
      | 'B' =>
          drop 1
          return (.wordEdge false, false)
      | ch =>
          if ch = 'k' && (← read).named then
            drop 1
            return (← namedReference, true)
          match classOfLetter? ch with
          | some range =>
              drop 1
              return (.one ⟨[range], true⟩, true)
          | none =>
              match if ch = '0' then none else decimalFront? us with
              | some (n, rest) =>
                  if n ≤ (← read).groups then
                    modify fun s => { s with left := rest }
                    return (.reference (.number n), true)
                  else return (.one (.only (← escapedUnit false)), true)
              | none => return (.one (.only (← escapedUnit false)), true)

def repeated (body : Tree) (firstGroup : Nat) : Reader Tree := do
  let loop (least : Nat) (most : Option Nat) : Reader Tree := do
    let greedy := !(← accept '?')
    if body.standsStill then return if least = 0 then .empty else body
    return .loop body least most greedy firstGroup ((← get).opened + 1)
  match ← peek with
  | some '*' => drop 1; loop 0 none
  | some '+' => drop 1; loop 1 none
  | some '?' => drop 1; loop 0 (some 1)
  | some '\x7b' =>
      match countFront? ((← get).left.drop 1) with
      | none => return body
      | some (least, most, rest) =>
          if most.any (· < least) then throw "numbers out of order in quantifier"
          modify fun s => { s with left := rest }
          loop least most
  | _ => return body

mutual

def alternatives : Nat → Reader Tree
  | 0 => throw "Regular expression too large"
  | fuel + 1 => do
      let first ← terms fuel
      if ← accept '|' then return .either first (← alternatives fuel) else return first

def terms : Nat → Reader Tree
  | 0 => throw "Regular expression too large"
  | fuel + 1 => do
      match ← peek with
      | none | some '|' | some ')' => return .empty
      | _ =>
          let first ← term fuel
          return .both first (← terms fuel)

def term : Nat → Reader Tree
  | 0 => throw "Regular expression too large"
  | fuel + 1 => do
      let firstGroup := (← get).opened + 1
      match ← next? with
      | none => return .empty
      | some u =>
          match glyph u with
          | '^' => return .lineStart
          | '$' => return .lineEnd
          | '(' =>
              let kind ← opening
              let body ← alternatives fuel
              unless ← accept ')' do throw "Unterminated group"
              match kind with
              | .plain => repeated body firstGroup
              | .recording index => repeated (.group index body) firstGroup
              | .look true holds => repeated (.look true holds body) firstGroup
              | .look false holds => return .look false holds body
          | '*' | '+' | '?' => throw "Nothing to repeat"
          | '.' => repeated (.one .dot) firstGroup
          | '[' => repeated (← unitClass) firstGroup
          | '\\' =>
              let (tree, repeatable) ← escape
              if repeatable then repeated tree firstGroup else return tree
          | '\x7b' =>
              if (countFront? (← get).left).isSome then throw "Nothing to repeat"
              repeated (.one (.only u)) firstGroup
          | _ => repeated (.one (.only u)) firstGroup

end

def parse (text : String) : Except String Pattern := do
  let us := Text.units16 text
  let (groups, named) := survey (us.length + 1) 0 false us
  let (tree, last) ← (alternatives (4 * us.length + 4)).run ⟨groups, named⟩ ⟨us, 0, [], []⟩
  unless last.left.isEmpty do throw "Unmatched \x27)\x27"
  unless last.mentioned.all (fun name => last.names.any (·.1 = name)) do
    throw "Invalid named capture referenced"
  return ⟨tree, last.opened, last.names⟩

end CompileCommands.Pattern
