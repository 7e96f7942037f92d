import CompileCommands.Document
import CompileCommands.Scan

/-!
# Conversion

A conversion opens the database, adds each entry as the scan finds it, and closes the database at
the end of the log. The first failure, of the scan or of a write, ends it: nothing is scanned or
written after that, and what is written by then stays without its end.
-/

namespace CompileCommands

/-- What a conversion does: it scans, and it stores chunks of the database. -/
inductive Action where
  | scanned (event : Event)
  | stored (chunk : String)
  deriving DecidableEq, Repr

namespace Action

def scanned? : Action → Option Event
  | scanned event => some event
  | stored _ => none

def stored? : Action → Option String
  | scanned _ => none
  | stored chunk => some chunk

end Action

/-- The number of entries written, and of artifacts with a known header. -/
structure Summary where
  entries : Nat
  headers : Nat
  deriving DecidableEq, Repr

/-- The writer of the database, and the failure once there is one. -/
structure Converter where
  writer : Document.Writer
  failure : Option Failure

namespace Converter

def request (refuses : Nat → Bool) (writer : Document.Writer) (request : Document.Request) :
    Converter × List Action :=
  match writer.serve refuses request with
  | (writer, .ok chunk) => (⟨writer, none⟩, [.stored chunk])
  | (writer, .error failure) => (⟨writer, some failure⟩, [])

def answer (refuses : Nat → Bool) (writer : Document.Writer) : Event → Converter × List Action
  | .entry entry => request refuses writer (.add entry)
  | .ended => request refuses writer .closeDocument
  | .failed failure => (⟨writer, some failure⟩, [])
  | _ => (⟨writer, none⟩, [])

/-- Takes the next event of the scan, unless the conversion has failed. -/
def step (refuses : Nat → Bool) : Transducer Converter Event Action := fun c event =>
  if c.failure.isSome then (c, [])
  else
    let (next, actions) := answer refuses c.writer event
    (next, .scanned event :: actions)

end Converter

structure Conversion where
  actions : List Action
  result : Except Failure Summary

namespace Conversion

def events (c : Conversion) : List Event := c.actions.filterMap Action.scanned?

def chunks (c : Conversion) : List String := c.actions.filterMap Action.stored?

def messages (c : Conversion) : List Message := Trace.messages c.events

end Conversion

/-- Converts a log; the sink refuses the writes with these numbers. -/
def convert (refuses : Nat → Bool) (q : Questions) (log : Log) : Conversion :=
  let (opened, first) := Converter.request refuses .start .openDocument
  let (last, later) :=
    Transducer.run (Converter.step refuses) opened (Scan.trace q .empty log)
  let actions := first ++ later
  let table := Trace.tableAfter .empty (actions.filterMap Action.scanned?)
  { actions
    result :=
      match last.failure with
      | some failure => .error failure
      | none => .ok ⟨last.writer.entries, table.size⟩ }

end CompileCommands
