import CompileCommands.Json.Quoted
import CompileCommands.Json.Value

/-!
# Reading JSON

The strict grammar: white space is space, tab, line feed and carriage return; a number has no
leading zero and no bare point; nothing follows the value. Each reader gives what it has read and
the text behind it. The fuel of the three readers that call each other is taken from the length of
the text, two for each character.
-/

namespace CompileCommands.Json

def isWhitespace (c : Char) : Bool := c = ' ' || c = '\t' || c = '\n' || c = '\r'

def skip (cs : List Char) : List Char := cs.dropWhile isWhitespace

/-! ## Numbers -/

def digits (cs : List Char) : Option (List Char × List Char) :=
  match cs.span Char.isDigit with
  | ([], _) => none
  | found => some found

/-- The digits before the point: a zero alone, or digits that begin otherwise. -/
def integerPart : List Char → Option (List Char × List Char)
  | '0' :: rest => some (['0'], rest)
  | cs => digits cs

def fractionPart : List Char → Option (List Char × List Char)
  | '.' :: rest => (digits rest).map fun (ds, rest) => ('.' :: ds, rest)
  | cs => some ([], cs)

def exponentPart : List Char → Option (List Char × List Char)
  | e :: rest =>
      if e = 'e' || e = 'E' then
        match rest with
        | s :: more =>
            if s = '+' || s = '-' then (digits more).map fun (ds, rest) => (e :: s :: ds, rest)
            else (digits rest).map fun (ds, rest) => (e :: ds, rest)
        | [] => none
      else some ([], e :: rest)
  | [] => some ([], [])

def sign : List Char → List Char × List Char
  | '-' :: rest => (['-'], rest)
  | cs => ([], cs)

def number (cs : List Char) : Option (Value × List Char) := do
  let (minus, cs) := sign cs
  let (whole, cs) ← integerPart cs
  let (fraction, cs) ← fractionPart cs
  let (exponent, cs) ← exponentPart cs
  some (.number (String.ofList (minus ++ whole ++ fraction ++ exponent)), cs)

/-! ## Values -/

/-- A string, its opening quote already read. -/
def stringTail (cs : List Char) : Option (String × List Char) :=
  (readString #[] cs).map fun (points, rest) => (String.ofList (ofCodePoints points), rest)

mutual

def value : Nat → List Char → Option (Value × List Char)
  | 0, _ => none
  | fuel + 1, cs =>
      match skip cs with
      | '{' :: rest =>
          match skip rest with
          | '}' :: rest => some (.object [], rest)
          | rest => (members fuel rest).map fun (ms, rest) => (.object ms, rest)
      | '[' :: rest =>
          match skip rest with
          | ']' :: rest => some (.array [], rest)
          | rest => (items fuel rest).map fun (vs, rest) => (.array vs, rest)
      | '"' :: rest => (stringTail rest).map fun (text, rest) => (.string text, rest)
      | 't' :: 'r' :: 'u' :: 'e' :: rest => some (.bool true, rest)
      | 'f' :: 'a' :: 'l' :: 's' :: 'e' :: rest => some (.bool false, rest)
      | 'n' :: 'u' :: 'l' :: 'l' :: rest => some (.null, rest)
      | rest => number rest

/-- The items of an array, the bracket that closes it included. -/
def items : Nat → List Char → Option (List Value × List Char)
  | 0, _ => none
  | fuel + 1, cs =>
      match value fuel cs with
      | none => none
      | some (v, rest) =>
          match skip rest with
          | ']' :: rest => some ([v], rest)
          | ',' :: rest => (items fuel rest).map fun (vs, rest) => (v :: vs, rest)
          | _ => none

def members : Nat → List Char → Option (List (String × Value) × List Char)
  | 0, _ => none
  | fuel + 1, cs =>
      match skip cs with
      | '"' :: rest =>
          match stringTail rest with
          | none => none
          | some (key, rest) =>
              match skip rest with
              | ':' :: rest =>
                  match value fuel rest with
                  | none => none
                  | some (v, rest) =>
                      match skip rest with
                      | '}' :: rest => some ([(key, v)], rest)
                      | ',' :: rest =>
                          (members fuel rest).map fun (ms, rest) => ((key, v) :: ms, rest)
                      | _ => none
              | _ => none
      | _ => none

end

def parse (text : String) : Option Value :=
  match value (2 * text.toList.length + 2) text.toList with
  | some (v, rest) => if skip rest = [] then some v else none
  | none => none

end CompileCommands.Json
