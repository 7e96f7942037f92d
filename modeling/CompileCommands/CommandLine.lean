import CompileCommands.CommandLine.Arguments
import CompileCommands.CommandLine.Help
import CompileCommands.Run

/-!
# The command

The command reads its arguments, and prints its help or runs a conversion. What it says on the
standard error is what the run shows, and then how the run ended.
-/

namespace CompileCommands.CommandLine

inductive Notice where
  | message (message : Message)
  | done (summary : Summary) (output : String)
  | failure (failure : Failure)
  | usage (fault : UsageFault)

def Notice.text : Notice → String
  | message m => m.text
  | done summary output =>
      "Wrote " ++ toString summary.entries ++ " entries to " ++ output ++ " (" ++
        toString summary.headers ++ " precompiled headers)\n"
  | failure f => f.message ++ "\n"
  | usage fault => fault.text

/-- What a command leaves: its status, what it has printed and said, and the file system. -/
structure Outcome where
  status : Nat
  printed : List String
  notices : List Notice
  files : FileSystem

namespace Outcome

def refused (files : FileSystem) (notice : Notice) : Outcome := ⟨1, [], [notice], files⟩

/-- The end of a run that writes to an output of this name. -/
def ofRun (output : String) (r : Run) : Outcome :=
  match r.result with
  | .ok summary =>
      ⟨0, r.printed, r.messages.map .message ++ [.done summary output], r.files⟩
  | .error failure => ⟨1, r.printed, r.messages.map .message ++ [.failure failure], r.files⟩

end Outcome

def execute (words : List String) (files : FileSystem) (standardInput : List UInt8) : Outcome :=
  match request words with
  | .error fault => .refused files (.usage fault)
  | .ok .help => ⟨0, [helpText], [], files⟩
  | .ok (.convert input options) =>
      .ofRun options.outputName (.ofOptions input options files standardInput)

end CompileCommands.CommandLine
