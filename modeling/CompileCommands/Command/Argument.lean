/-!
# Arguments and flags

A command line is read from left to right with a set of flags that take an operand. Such a flag
takes the token behind it, whatever that is, so an operand may look like a flag and is none. A
flag at the very end has nothing to take and is an ordinary argument.
-/

namespace CompileCommands.Command

/-- An argument of its own, or a flag with its operand. -/
inductive Argument where
  | plain (token : String)
  | flagged (flag operand : String)
  deriving DecidableEq, Repr

namespace Argument

def read (flags : List String) : List String → List Argument
  | [] => []
  | [token] => [plain token]
  | token :: next :: rest =>
      if token ∈ flags then flagged token next :: read flags rest
      else plain token :: read flags (next :: rest)

def tokens : Argument → List String
  | plain token => [token]
  | flagged flag operand => [flag, operand]

def operand? (flag : String) : Argument → Option String
  | plain _ => none
  | flagged f operand => if f = flag then some operand else none

end Argument

def operands (flag : String) (args : List Argument) : List String :=
  args.filterMap (Argument.operand? flag)

end CompileCommands.Command
