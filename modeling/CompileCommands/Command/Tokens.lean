import CompileCommands.Shell.Words
import CompileCommands.Text.Space

/-!
# Tokens of a logged command

A build log writes most commands without quotes and backslashes. Such a line is trimmed, cut at
every single space, and each piece is trimmed again, so that runs of spaces give empty tokens.
All other lines are read by the rules of the shell.
-/

namespace CompileCommands.Command

/-- The characters that call for the rules of the shell. -/
def isShellMark (c : Char) : Bool :=
  c = Shell.singleQuote || c = Shell.doubleQuote || c = Shell.backslash

def pieces (line : String) : List String :=
  ((Text.trim line.toList).splitOn ' ').map fun piece => String.ofList (Text.trim piece)

def tokens (line : String) : Except Shell.Malformed (List String) :=
  if line.toList.any isShellMark then Shell.words line else .ok (pieces line)

end CompileCommands.Command
