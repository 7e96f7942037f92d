import CompileCommands.Command.Argument
import CompileCommands.Command.Tokens
import CompileCommands.HeaderTable

/-!
# From a precompile command to a mapping

A command that compiles a header ahead names the header behind `-c` and the artifact behind `-o`.
Of several headers the last counts, and of several outputs the last whose name has the ending of
an artifact. A command that lacks one of the two maps nothing.
-/

namespace CompileCommands.Command

def precompileFlags : List String := ["-c", "-o"]

def artifactEndings : List String := [".pch.pth", ".pch.pch", ".h.pch"]

def isArtifact (output : String) : Bool :=
  artifactEndings.any fun ending => ending.toList.isSuffixOf output.toList

def mappingOfTokens? (args : List String) : Option HeaderMapping :=
  let args := Argument.read precompileFlags args
  match ((operands "-o" args).filter isArtifact).getLast?, (operands "-c" args).getLast? with
  | some artifact, some source => some ⟨artifact, source⟩
  | _, _ => none

def mapping? (line : String) : Except Shell.Malformed (Option HeaderMapping) :=
  (tokens line).map mappingOfTokens?

/-- The table with a command's mapping recorded in it, if it makes one. -/
def register (table : HeaderTable) (mapping : Option HeaderMapping) : HeaderTable :=
  mapping.elim table table.insert

end CompileCommands.Command
