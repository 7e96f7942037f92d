import CompileCommands.Transducer

/-!
# Shell words

A command is a row of words between blanks. Outside quotes a backslash takes the next character
as it is. Single quotes take everything up to the next single quote as it is. Inside double quotes
a backslash takes the next character as it is where that is one of the escapable ones, and stands
for itself otherwise. Quoted and bare parts that touch make one word, and quotes may make an empty
one.

The scan holds a mode and the word under way; each blank outside quotes ends a word. A command is
malformed when it ends behind a backslash that still wants its character, or inside quotes.
-/

namespace CompileCommands.Shell

def isBlank (c : Char) : Bool := c = ' ' || c = '\t' || c = '\n' || c = '\r'

def singleQuote : Char := '\x27'

def doubleQuote : Char := '\x22'

def backslash : Char := '\x5c'

def backquote : Char := '\x60'

def isEscapable (c : Char) : Bool :=
  c = backslash || c = doubleQuote || c = '$' || c = backquote || c = '\n'

/-- What the next character is read as. In the two `escape` modes a backslash has been read, but
not the character behind it. -/
inductive Mode where
  | bare
  | escape
  | single
  | double
  | doubleEscape
  deriving DecidableEq

/-- A mode, and the word under way: quotes begin a word even while it is empty. -/
structure WordScan where
  mode : Mode
  word : Option String

namespace WordScan

def start : WordScan := ⟨.bare, none⟩

def enter (s : WordScan) (mode : Mode) : WordScan := ⟨mode, some (s.word.getD "")⟩

def push (s : WordScan) (mode : Mode) (c : Char) : WordScan :=
  ⟨mode, some ((s.word.getD "").push c)⟩

/-- Reads one character; a blank outside quotes gives out the word before it. -/
def step : Transducer WordScan Char String := fun s c =>
  match s.mode with
  | .bare =>
      if isBlank c then (start, s.word.toList)
      else if c = singleQuote then (s.enter .single, [])
      else if c = doubleQuote then (s.enter .double, [])
      else if c = backslash then (s.enter .escape, [])
      else (s.push .bare c, [])
  | .escape => (s.push .bare c, [])
  | .single => if c = singleQuote then (s.enter .bare, []) else (s.push .single c, [])
  | .double =>
      if c = doubleQuote then (s.enter .bare, [])
      else if c = backslash then (s.enter .doubleEscape, [])
      else (s.push .double c, [])
  | .doubleEscape =>
      if isEscapable c then (s.push .double c, [])
      else ((s.push .double backslash).push .double c, [])

end WordScan

inductive Fault where
  | nothingEscaped
  | openQuote
  deriving DecidableEq, Repr

namespace Fault

def message : Fault → String
  | nothingEscaped => "no escaped character"
  | openQuote => "no closing quotation"

end Fault

structure Malformed where
  fault : Fault
  command : String
  deriving DecidableEq, Repr

def Malformed.message (e : Malformed) : String := e.fault.message ++ ": " ++ e.command

def WordScan.finish (s : WordScan) : Except Fault (List String) :=
  match s.mode with
  | .bare => .ok s.word.toList
  | .escape => .error .nothingEscaped
  | .single | .double | .doubleEscape => .error .openQuote

def words (command : String) : Except Malformed (List String) :=
  let (last, ended) := Transducer.run WordScan.step WordScan.start command.toList
  match last.finish with
  | .ok final => .ok (ended ++ final)
  | .error fault => .error ⟨fault, command⟩

end CompileCommands.Shell
