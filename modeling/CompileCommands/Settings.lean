import CompileCommands.Exclusion

/-!
# Settings

What a run is asked to do: the log to read, the database to write, what to leave out, and whether
to tell of it. The patterns for directories are read before those for files.
-/

namespace CompileCommands

structure Options where
  output : Option String
  excludeDirectory : List String
  excludeFile : List String
  verbose : Bool
  deriving DecidableEq, Repr

namespace Options

def none : Options := ⟨Option.none, [], [], false⟩

def usualOutput : String := "compile_commands.json"

def outputName (options : Options) : String := options.output.getD usualOutput

end Options

structure Settings where
  input : String
  output : String
  excludedDirectories : Exclusion
  excludedFiles : Exclusion
  verbose : Bool

namespace Settings

def standardOutput : String := "-"

def ofOptions (input : String) (options : Options) : Except Failure Settings := do
  let directories ← Exclusion.ofPatterns options.excludeDirectory
  let files ← Exclusion.ofPatterns options.excludeFile
  return {
    input
    output := options.outputName
    excludedDirectories := directories
    excludedFiles := files
    verbose := options.verbose }

end Settings

def shown {α : Type} (verbose : Bool) (messages : List α) : List α :=
  if verbose then messages else []

end CompileCommands
