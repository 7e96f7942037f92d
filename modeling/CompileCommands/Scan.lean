import CompileCommands.Command.Compile
import CompileCommands.Command.Precompile
import CompileCommands.Log
import CompileCommands.Scan.Event

/-!
# Scanning a build log

A section is its marker line, the directory line behind it, and the first compiler invocation
after that; the lines in between, markers among them, are passed over. The section of an excluded
directory ends at its directory line. A compile section gives the entry of its command, unless the
entry's file is excluded. A precompile section gives none, and its mapping goes into the table, for
the sections behind it.

The scan stops at the first command that fails. At the end of the log it tells of a section whose
invocation has not come.
-/

namespace CompileCommands

/-- What a scan asks, always getting an answer: is this directory excluded, is this file, does this
path exist. -/
structure Questions where
  excludesDirectory : String → Bool
  excludesFile : String → Bool
  fileExists : String → Bool

/-- Where a scan stands between two lines. -/
inductive Phase where
  | between
  | marked (kind : SectionKind)
  | seeking (kind : SectionKind) (directory : String)
  | stopped
  deriving DecidableEq, Repr

structure Scan where
  table : HeaderTable
  phase : Phase

namespace Scan

def start (table : HeaderTable) : Scan := ⟨table, .between⟩

def takeCompile (q : Questions) (table : HeaderTable) (line directory : String) :
    Scan × List Event :=
  let compilation := Command.compile q.fileExists table line directory
  let asked := compilation.asked.map Event.askedExists
  match compilation.result with
  | .error failure => (⟨table, .stopped⟩, asked ++ [.failed failure])
  | .ok entry =>
      (⟨table, .between⟩, asked ++ [.askedFile entry.file,
        if q.excludesFile entry.file then .logged (.excludedFile entry.file) else .entry entry])

def takePrecompile (table : HeaderTable) (line : String) : Scan × List Event :=
  match Command.mapping? line with
  | .error cause => (⟨table, .stopped⟩, [.failed (.malformedCommand cause)])
  | .ok mapping =>
      (⟨Command.register table mapping, .between⟩,
        mapping.toList.flatMap fun m => [.mapped m, .logged (.builtHeader m)])

def take (q : Questions) (s : Scan) (line : String) : Scan × List Event :=
  match s.phase with
  | .stopped => (s, [])
  | .between => (⟨s.table, (SectionKind.ofLine? line).elim .between .marked⟩, [])
  | .marked kind =>
      let directory := Command.directory line
      if q.excludesDirectory directory then
        (⟨s.table, .between⟩,
          [.askedDirectory directory, .logged (.excludedSection kind directory)])
      else (⟨s.table, .seeking kind directory⟩, [.askedDirectory directory])
  | .seeking kind directory =>
      if Command.isInvocation line then
        match kind with
        | .compile => takeCompile q s.table line directory
        | .precompile => takePrecompile s.table line
      else (s, [])

/-- Pulls one line, unless the scan has stopped. -/
def step (q : Questions) : Transducer Scan String Event := fun s line =>
  if s.phase = .stopped then (s, [])
  else
    let (next, events) := s.take q line
    (next, .pulled line :: events)

/-- What a scan does where its log ends, or fails. -/
def finish (s : Scan) (failure : Option Failure) : List Event :=
  match s.phase, failure with
  | .stopped, _ => []
  | _, some failure => [.failed failure]
  | .seeking kind directory, none => [.logged (.openSection kind directory), .ended]
  | _, none => [.ended]

/-- All that scanning a log does, from a table of headers known before. -/
def trace (q : Questions) (table : HeaderTable) (log : Log) : List Event :=
  let (last, events) := Transducer.run (step q) (start table) log.lines
  events ++ last.finish log.failure

end Scan

end CompileCommands
