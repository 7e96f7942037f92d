import CompileCommands.Command.Invocation
import CompileCommands.Entry
import CompileCommands.Failure
import CompileCommands.HeaderTable
import CompileCommands.Shell.Escape

/-!
# What a scan does

A scan is a row of events: it takes lines from the log, asks about directories, files and paths,
tells what it leaves out, records mappings, and gives entries. The last event says that the log is
at its end, or why the scan failed. All that a caller sees of a scan is read off this row.
-/

namespace CompileCommands

inductive Message where
  | excludedSection (kind : SectionKind) (directory : String)
  | excludedFile (file : String)
  | builtHeader (mapping : HeaderMapping)
  | openSection (kind : SectionKind) (directory : String)
  deriving DecidableEq, Repr

/-- The text of a message, its paths escaped for the shell. -/
def Message.text : Message → String
  | excludedSection kind directory =>
      "Skipping " ++ kind.name ++ " section in excluded " ++ Shell.escape directory ++ "\n"
  | excludedFile file => "Skipping excluded file " ++ Shell.escape file ++ "\n"
  | builtHeader mapping =>
      "Precompiled header " ++ Shell.escape mapping.artifact ++ " is built from " ++
        Shell.escape mapping.source ++ "\n"
  | openSection kind directory =>
      "Log ended before the compiler invocation of the " ++ kind.name ++ " section in " ++
        Shell.escape directory ++ "\n"

inductive Event where
  | pulled (line : String)
  | askedDirectory (directory : String)
  | askedFile (file : String)
  | askedExists (path : String)
  | logged (message : Message)
  | mapped (mapping : HeaderMapping)
  | entry (entry : Entry)
  | ended
  | failed (failure : Failure)
  deriving DecidableEq, Repr

namespace Event

def pulled? : Event → Option String
  | pulled line => some line
  | _ => none

def askedDirectory? : Event → Option String
  | askedDirectory directory => some directory
  | _ => none

def askedFile? : Event → Option String
  | askedFile file => some file
  | _ => none

def askedExists? : Event → Option String
  | askedExists path => some path
  | _ => none

def logged? : Event → Option Message
  | logged message => some message
  | _ => none

def mapped? : Event → Option HeaderMapping
  | mapped mapping => some mapping
  | _ => none

def entry? : Event → Option Entry
  | entry e => some e
  | _ => none

def failed? : Event → Option Failure
  | failed failure => some failure
  | _ => none

end Event

/-! ## Views of a row of events -/

namespace Trace

def pulled (events : List Event) : List String := events.filterMap Event.pulled?

def entries (events : List Event) : List Entry := events.filterMap Event.entry?

def messages (events : List Event) : List Message := events.filterMap Event.logged?

def mappings (events : List Event) : List HeaderMapping := events.filterMap Event.mapped?

def failure? (events : List Event) : Option Failure := events.findSome? Event.failed?

def tableAfter (table : HeaderTable) (events : List Event) : HeaderTable :=
  table.insertAll (mappings events)

/-- The events cut behind each entry: what each demand for the next entry does. -/
def demands : List Event → List (List Event)
  | [] => []
  | .entry e :: rest => [.entry e] :: demands rest
  | event :: rest =>
      match demands rest with
      | [] => [[event]]
      | demand :: later => (event :: demand) :: later

end Trace

end CompileCommands
