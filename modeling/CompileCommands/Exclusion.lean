import CompileCommands.Failure
import CompileCommands.Pattern.Matcher

/-!
# Exclusions

A list of patterns excludes every value in which one of them occurs. Patterns are all read before
any value is looked at, and the first that is none fails.
-/

namespace CompileCommands

structure Exclusion where
  patterns : List Pattern

namespace Exclusion

def readPattern (text : String) : Except Failure Pattern :=
  match Pattern.parse text with
  | .ok pattern => .ok pattern
  | .error reason => .error (.invalidPattern text reason)

def ofPatterns (texts : List String) : Except Failure Exclusion :=
  (texts.mapM readPattern).map Exclusion.mk

def excludes (e : Exclusion) (value : String) : Bool := e.patterns.any (·.occursIn value)

end Exclusion

end CompileCommands
