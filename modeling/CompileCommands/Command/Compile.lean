import CompileCommands.Command.Argument
import CompileCommands.Command.Quote
import CompileCommands.Command.Tokens
import CompileCommands.Entry
import CompileCommands.Failure
import CompileCommands.HeaderTable
import CompileCommands.Path

/-!
# From a compile command to an entry

The entry's command is the logged one, token by token, except that the operand of `-include` is
replaced by its header where the path does not exist and the table knows the header. The entry's
file is the last operand of `-c`. The directory is passed on.

A command whose include path leads nowhere fails at the first such path; after that a command
without an operand of `-c` fails.
-/

namespace CompileCommands.Command

def compileFlags : List String := ["-include", "-c"]

/-- What an include path stands for: itself where it exists, else its known header. -/
def header? (fileExists : String → Bool) (table : HeaderTable) (path : String) : Option String :=
  if fileExists path then some path else table.resolve? path

/-- An argument with its include path replaced; fails with the path that leads nowhere. -/
def resolveArgument (header : String → Option String) : Argument → Except String Argument
  | .plain token => .ok (.plain token)
  | .flagged flag operand =>
      if flag = "-include" then
        match header operand with
        | some source => .ok (.flagged flag source)
        | none => .error operand
      else .ok (.flagged flag operand)

/-- The paths looked at: all up to the first that leads nowhere. -/
def lookedAt (header : String → Option String) : List String → List String
  | [] => []
  | path :: rest => path :: if (header path).isSome then lookedAt header rest else []

/-- What reading a compile command comes to, and the paths it asks the file system about. -/
structure Compilation where
  asked : List String
  result : Except Failure Entry

def compileTokens (fileExists : String → Bool) (table : HeaderTable) (line directory : String)
    (args : List String) : Compilation :=
  let args := Argument.read compileFlags args
  let header := header? fileExists table
  { asked := lookedAt header (operands "-include" args)
    result :=
      match args.mapM (resolveArgument header), (operands "-c" args).getLast? with
      | .error path, _ => .error (.unresolvedHeader path line)
      | .ok _, none => .error (.missingSource line)
      | .ok resolved, some source => .ok
          { directory
            command := join (resolved.flatMap Argument.tokens)
            file := Path.normalize source } }

def compile (fileExists : String → Bool) (table : HeaderTable) (line directory : String) :
    Compilation :=
  match tokens line with
  | .ok args => compileTokens fileExists table line directory args
  | .error cause => ⟨[], .error (.malformedCommand cause)⟩

/-- All include paths of a line. A compile command asks about no others. -/
def includePaths (line : String) : List String :=
  match tokens line with
  | .ok args => operands "-include" (Argument.read compileFlags args)
  | .error _ => []

end CompileCommands.Command
