import CompileCommands.Shell.Words

/-!
# Escaping an argument for the shell

An argument of safe characters stands for itself, unless it is empty or begins with an equals
sign. Any other is put between single quotes, and each single quote in it is written as the
closing quote, the single quote between double quotes, and the opening quote.
-/

namespace CompileCommands.Shell

/-- Characters that mean themselves anywhere in a shell word. -/
def isSafe (c : Char) : Bool :=
  c.isAlphanum || c = '-' || c = '_' || c = '@' || c = '%' || c = '+' || c = ':' || c = ',' ||
    c = '.' || c = '/'

/-- Arguments written as they are; an equals sign is safe behind another character. -/
def isPlain : List Char → Bool
  | [] => false
  | c :: cs => isSafe c && cs.all fun d => isSafe d || d = '='

def escapeChar (c : Char) : List Char :=
  if c = singleQuote then [singleQuote, doubleQuote, singleQuote, doubleQuote, singleQuote] else [c]

def escape (arg : String) : String :=
  if isPlain arg.toList then arg
  else String.ofList (singleQuote :: arg.toList.flatMap escapeChar ++ [singleQuote])

end CompileCommands.Shell
