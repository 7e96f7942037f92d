import CompileCommands.Entry
import CompileCommands.Failure
import CompileCommands.Json.Quoted
import CompileCommands.Transducer

/-!
# Writing the compilation database

The database is a JSON array of entries, written piece by piece into a sink that may refuse single
writes: an opening bracket, then each entry behind its separator, then the closing bracket on a
line of its own.

A writer is opened once, takes entries while it is open, and is closed once. Opening and closing
change the phase even where their write is refused; an entry counts only once it is written.
-/

namespace CompileCommands

def Entry.field (name value : String) : String :=
  "  " ++ Json.quote name ++ ": " ++ Json.quote value

/-- An entry as an indented JSON object. -/
def Entry.render (e : Entry) : String :=
  "\x7b\n" ++ Entry.field "directory" e.directory ++ ",\n" ++ Entry.field "command" e.command ++
    ",\n" ++ Entry.field "file" e.file ++ "\n\x7d"

namespace Document

inductive Phase where
  | fresh
  | opened
  | closed
  deriving DecidableEq, Repr

/-- The phase, the number of entries written, and the number of writes tried. -/
structure Writer where
  phase : Phase
  entries : Nat
  writes : Nat
  deriving DecidableEq, Repr

inductive Request where
  | openDocument
  | add (entry : Entry)
  | closeDocument
  deriving DecidableEq, Repr

def separator (entries : Nat) : String := if entries = 0 then "\n" else ",\n"

namespace Writer

def start : Writer := ⟨.fresh, 0, 0⟩

def put (refuses : Nat → Bool) (w : Writer) (chunk : String) : Writer × Except Failure String :=
  (⟨w.phase, w.entries, w.writes + 1⟩,
    if refuses w.writes then .error .sinkFailed else .ok chunk)

/-- Serves one request: the chunk that is stored, or why none is. -/
def serve (refuses : Nat → Bool) (w : Writer) : Request → Writer × Except Failure String
  | .openDocument =>
      if w.phase = .fresh then put refuses ⟨.opened, w.entries, w.writes⟩ "["
      else (w, .error .alreadyOpened)
  | .add entry =>
      if w.phase = .opened then
        match put refuses w (separator w.entries ++ entry.render) with
        | (w, .ok chunk) => (⟨w.phase, w.entries + 1, w.writes⟩, .ok chunk)
        | refused => refused
      else (w, .error .notOpen)
  | .closeDocument =>
      if w.phase = .opened then put refuses ⟨.closed, w.entries, w.writes⟩ "\n]\n"
      else (w, .error .notOpen)

def step (refuses : Nat → Bool) : Transducer Writer Request (Except Failure String) :=
  fun w request => ((w.serve refuses request).1, [(w.serve refuses request).2])

end Writer

end Document

end CompileCommands
