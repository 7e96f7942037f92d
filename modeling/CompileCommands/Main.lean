import CompileCommands.CommandLine

/-!
# The program

The program takes a picture of the part of the file system that its command line can ask about,
executes the command line on the picture, and carries over what has changed. The part is the input,
the output, and the include paths of the log, with the directories and the links on the way to them.
In the picture everything is allowed and every write is taken whole: what the system refuses fails
when it is carried over.
-/

namespace CompileCommands.Main

def absolute (place : Place) : String := "/" ++ "/".intercalate place

/-- What stands at a place: a directory, a link to a path without links, or a file. -/
inductive Sight where
  | directory
  | link (target : String)
  | file (bytes : List UInt8)

/-- What stands at a place now; the contents of a file only if they are wanted. -/
def look (contents : Bool) (place : Place) : IO (Option Sight) := do
  let path := (← IO.currentDir) / absolute place
  try
    let target ← IO.FS.realPath path
    if (← path.symlinkMetadata).type == .symlink && target != path && (← target.pathExists) then
      return some (.link target.toString)
    if (← path.metadata).type == .dir then return some .directory
    if contents then return some (.file (← IO.FS.readBinFile path).toList)
    return some (.file [])
  catch _ => return none

def add (files : FileSystem) (contents : Bool) (place : Place) : IO FileSystem := do
  if (files.node? place).isSome then return files
  match ← look contents place with
  | none => return files
  | some .directory => return files.put place (.directory .full)
  | some (.link target) => return files.put place (.link target)
  | some (.file bytes) => return files.create place ⟨bytes, .full, true⟩

/-- Adds to a picture what is passed on the way along a path. -/
def photograph (files : FileSystem) (contents : Bool) (path : String) : IO FileSystem := do
  let mut files := files
  let mut place := FileSystem.start files.here path
  for name in FileSystem.names path do
    place := FileSystem.enter place name
    files ← add files contents place
    if let some (.link target) := files.node? place then
      -- no other link is on the way to the target
      place := FileSystem.names target
      for n in List.range (place.length + 1) do
        files ← add files contents (place.take n)
  return files

def carryOver (before after : FileSystem) : IO Unit := do
  for (place, node) in after.nodes do
    if let .file number := node then
      unless before.node? place = some node && before.contents number = after.contents number do
        IO.FS.writeBinFile (absolute place) ⟨(after.contents number).bytes.toArray⟩
  for (place, _) in before.nodes do
    if (after.node? place).isNone then
      IO.FS.removeFile (absolute place)

def empty (here : Place) : FileSystem :=
  ⟨[], fun _ => ⟨[], .full, true⟩, .full, here, fun _ => .whole⟩

/-- The picture for a conversion, and the standard input if it is the log. -/
def picture (input : String) (options : Options) : IO (FileSystem × List UInt8) := do
  let here := (Path.segments (← IO.currentDir).toString).filter (· ≠ "")
  let files ← photograph (empty here) true "."
  let fromStandardInput := input = Log.standardInput
  let bytes ←
    if fromStandardInput then (·.toList) <$> IO.FS.readBinFile "/dev/stdin" else pure []
  let mut files ← if fromStandardInput then pure files else photograph files true input
  if let .ok log := Run.readLog files bytes input then
    for path in (log.lines.filter Command.isInvocation).flatMap Command.includePaths do
      files ← photograph files false path
  files ← photograph files false options.outputName
  return (files, bytes)

end CompileCommands.Main

def main (words : List String) : IO UInt32 := do
  let (files, bytes) ←
    match CompileCommands.CommandLine.request words with
    | .ok (.convert input options) => CompileCommands.Main.picture input options
    | _ => pure (CompileCommands.Main.empty [], [])
  let outcome := CompileCommands.CommandLine.execute words files bytes
  CompileCommands.Main.carryOver files outcome.files
  for chunk in outcome.printed do
    IO.print chunk
  for notice in outcome.notices do
    IO.eprint notice.text
  return outcome.status.toUInt32
