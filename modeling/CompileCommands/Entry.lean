/-!
# Entries of the compilation database

An entry says how one file is compiled: the directory, the command, and the file, which is always
the source itself and never an artifact in its place.
-/

namespace CompileCommands

structure Entry where
  directory : String
  command : String
  file : String
  deriving DecidableEq, Repr

end CompileCommands
