import CompileCommands.Shell.Words

/-!
# The command field

The arguments of a command are written into one string, separated by single spaces. An argument
with a space, a double quote or a backslash in it, and the empty one, goes between double quotes,
where a backslash stands before each double quote and each backslash. Readers of the field need no
more than these three characters.
-/

namespace CompileCommands.Command

open CompileCommands.Shell (doubleQuote backslash)

/-- The characters for which an argument is put between double quotes. -/
def needsQuotes (c : Char) : Bool := c = ' ' || c = doubleQuote || c = backslash

def quoteChar (c : Char) : List Char :=
  if c = doubleQuote || c = backslash then [backslash, c] else [c]

/-- One argument as it stands in the field. -/
def quote (arg : String) : String :=
  if arg = "" || arg.toList.any needsQuotes then
    String.ofList (doubleQuote :: arg.toList.flatMap quoteChar ++ [doubleQuote])
  else arg

def join (args : List String) : String := " ".intercalate (args.map quote)

end CompileCommands.Command
