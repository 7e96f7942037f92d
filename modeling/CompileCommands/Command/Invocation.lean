import CompileCommands.Command.Tokens
import CompileCommands.Path

/-!
# The lines of a build section

A section of a build log opens with a marker line, goes on with a line that changes the directory,
and later has the compiler invocation. Each of the three is told from the line alone. A line that
the tokenizer refuses is neither a directory line nor an invocation.
-/

namespace CompileCommands

/-- Sections that compile a file, and sections that compile a header ahead. -/
inductive SectionKind where
  | compile
  | precompile
  deriving DecidableEq, Repr

namespace SectionKind

def name : SectionKind → String
  | compile => "compile"
  | precompile => "precompile"

def markers : SectionKind → List String
  | compile => ["CompileC"]
  | precompile => ["ProcessPCH", "ProcessPCH++"]

/-- The line begins with this word and white space behind it. -/
def isMarkedBy (line word : String) : Bool :=
  match word.toList.isPrefixOf? line.toList with
  | some (c :: _) => Text.isSpace c
  | _ => false

def ofLine? (line : String) : Option SectionKind :=
  [compile, precompile].find? fun kind => kind.markers.any (isMarkedBy line)

end SectionKind

namespace Command

/-- The directory that a line changes to; empty if it is no such line. -/
def directory (line : String) : String :=
  match tokens line with
  | .ok ("cd" :: directory :: _) => directory
  | _ => ""

def compilers : List String :=
  ["clang", "clang++", "llvm-gcc", "llvm-g++", "llvm-gcc-4.2", "llvm-g++-4.2",
    "gcc", "g++", "gcc-4.2", "g++-4.2", "c++", "cc"]

def isCompiler (token : String) : Bool := Path.baseName token ∈ compilers

/-- A compiler, behind it `-c`, and behind that `-o`. -/
def invokesCompiler (args : List String) : Bool :=
  let behindCompiler := (args.dropWhile (!isCompiler ·)).drop 1
  let behindCompile := (behindCompiler.dropWhile (· ≠ "-c")).drop 1
  "-o" ∈ behindCompile

def isInvocation (line : String) : Bool :=
  match tokens line with
  | .ok args => invokesCompiler args
  | .error _ => false

end Command

end CompileCommands
