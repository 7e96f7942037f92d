import CompileCommands.Failure
import CompileCommands.Json.Parser
import CompileCommands.Path
import CompileCommands.Text.Line
import CompileCommands.Text.Space

/-!
# Build logs

A log is a list of lines, and perhaps a failure of its source behind the last of them. A plain log
is the lines of a text. A JSON-lines log has a record on each line of its text: the records that
are objects with a string `command` carry the lines of the log, in that string, and all others
carry none. The first line that is neither blank nor JSON ends the log with a failure that names
the line, counted from one with the blank ones.
-/

namespace CompileCommands

structure Log where
  lines : List String
  failure : Option Failure

namespace Log

/-! ## Formats -/

inductive Format where
  | plain
  | records
  deriving DecidableEq, Repr

def standardInput : String := "-"

def recordEndings : List String := [".jsonl", ".ndjson", ".json"]

/-- The format of a log, told from its file's name. -/
def formatOf (name : String) : Format :=
  if name = standardInput then .plain
  else
    let ending := String.ofList ((Path.extension name).toList.map Char.toLower)
    if ending ∈ recordEndings then .records else .plain

/-! ## Records -/

def linesOfRecord (record : Json.Value) : List String :=
  match record.member? "command" with
  | some (.string command) => Text.lines command
  | _ => []

/-- The number of the next record, and the failure once there is one. -/
structure RecordScan where
  number : Nat
  failure : Option Failure

namespace RecordScan

def start : RecordScan := ⟨1, none⟩

def reason : String := "not a JSON value"

def step : Transducer RecordScan String String := fun s line =>
  if s.failure.isSome then (s, [])
  else if Text.isEmptyLine line then (⟨s.number + 1, none⟩, [])
  else
    match Json.parse line with
    | some record => (⟨s.number + 1, none⟩, linesOfRecord record)
    | none => (⟨s.number, some (.invalidRecord s.number reason)⟩, [])

end RecordScan

def ofRecords (records : List String) : Log :=
  let (last, lines) := Transducer.run RecordScan.step .start records
  ⟨lines, last.failure⟩

def ofText (text : String) : Format → Log
  | .plain => ⟨Text.lines text, none⟩
  | .records => ofRecords (Text.lines text)

end Log

end CompileCommands
