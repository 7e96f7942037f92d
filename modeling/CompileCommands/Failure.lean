import CompileCommands.Shell.Words

/-!
# Failures

Everything that can stop a conversion, and its wording. A failure carries its cause as data: the
path, the line number, the whole command. The reason why a record or a pattern is invalid is text
from its parser.
-/

namespace CompileCommands

inductive FileFault where
  | notFound
  | isDirectory
  | notDirectory
  | denied
  | tooManyLinks
  | noSpace
  | tooLarge
  deriving DecidableEq, Repr

def FileFault.message : FileFault → String
  | notFound => "ENOENT: no such file or directory"
  | isDirectory => "EISDIR: illegal operation on a directory"
  | notDirectory => "ENOTDIR: not a directory"
  | denied => "EACCES: permission denied"
  | tooManyLinks => "ELOOP: too many symbolic links encountered"
  | noSpace => "ENOSPC: no space left on device"
  | tooLarge => "EFBIG: file too large"

inductive Failure where
  /-- An include path of a command neither exists nor leads to a known header. -/
  | unresolvedHeader (path command : String)
  /-- A compiler command names no file to compile. -/
  | missingSource (command : String)
  /-- A line of a JSON-lines log is no JSON. -/
  | invalidRecord (line : Nat) (reason : String)
  | inputNotFound (input : String)
  | malformedCommand (cause : Shell.Malformed)
  | invalidPattern (pattern reason : String)
  | unreadable (fault : FileFault)
  | unopenable (fault : FileFault) (path : String)
  | unwritable (fault : FileFault)
  | unremovable (fault : FileFault) (path : String)
  | alreadyOpened
  | notOpen
  | sinkFailed
  deriving DecidableEq, Repr

namespace Failure

def message : Failure → String
  | unresolvedHeader path command =>
      "original header of precompiled header not found: -include " ++ path ++ " in: " ++ command
  | missingSource command => "compiler invocation has no -c source file: " ++ command
  | invalidRecord line reason =>
      "invalid JSON-lines record: line " ++ toString line ++ ": " ++ reason
  | inputNotFound input => "input file not found: " ++ input
  | malformedCommand cause => cause.message
  | invalidPattern pattern reason => "invalid exclusion pattern " ++ pattern ++ ": " ++ reason
  | unreadable fault => fault.message ++ ", read"
  | unopenable fault path => fault.message ++ ", open \x27" ++ path ++ "\x27"
  | unwritable fault => fault.message ++ ", write"
  | unremovable fault path => fault.message ++ ", unlink \x27" ++ path ++ "\x27"
  | alreadyOpened => "compilation database already opened"
  | notOpen => "compilation database is not open"
  | sinkFailed => "sink failed"

end Failure

end CompileCommands
