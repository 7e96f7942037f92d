import CompileCommands.Conversion
import CompileCommands.FileSystem
import CompileCommands.Settings
import CompileCommands.Text.Utf8

/-!
# Running a conversion on files

A run reads the whole log, then opens the output, then converts into it, chunk by chunk. Paths of
the log are looked up while the output file is already there. If the conversion fails, the name of
the output is removed. How much of a chunk the file has taken is not looked at. Chunks written to
the standard output stay written.
-/

namespace CompileCommands

/-- What a run leaves: the file system, the chunks printed, the messages shown, and what it has
come to. -/
structure Run where
  files : FileSystem
  printed : List String
  messages : List Message
  result : Except Failure Summary

namespace Taking

def refuses : Taking → Bool
  | refused _ => true
  | _ => false

def taken (bytes : List UInt8) : Taking → List UInt8
  | whole => bytes
  | cut count => bytes.take count
  | refused _ => []

def failure : Taking → Failure
  | refused fault => .unwritable fault
  | _ => .sinkFailed

end Taking

namespace Run

/-- Reads the log that a name stands for. A directory can be opened, but not read. -/
def readLog (files : FileSystem) (standardInput : List UInt8) (name : String) :
    Except Failure Log :=
  if name = Log.standardInput then
    .ok (Log.ofText (Text.Utf8.decode standardInput) (Log.formatOf name))
  else if files.exists? name then
    match files.read name with
    | .ok bytes => .ok (Log.ofText (Text.Utf8.decode bytes) (Log.formatOf name))
    | .error .isDirectory => .error (.unreadable .isDirectory)
    | .error fault => .error (.unopenable fault name)
  else .error (.inputNotFound name)

def questions (settings : Settings) (files : FileSystem) : Questions where
  excludesDirectory := settings.excludedDirectories.excludes
  excludesFile := settings.excludedFiles.excludes
  fileExists := files.exists?

def refused (files : FileSystem) (failure : Failure) : Run := ⟨files, [], [], .error failure⟩

def print (settings : Settings) (files : FileSystem) (log : Log) : Run :=
  let c := convert (fun _ => false) (questions settings files) log
  ⟨files, c.chunks, shown settings.verbose c.messages, c.result⟩

/-- What an open file takes of chunks. -/
def stored (takes : Nat → Taking) (chunks : List String) : List UInt8 :=
  chunks.zipIdx.flatMap fun (chunk, n) => (takes n).taken (Text.Utf8.encode chunk)

def write (settings : Settings) (opened : FileSystem) (number : Nat) (log : Log) : Run :=
  let c := convert (fun n => (opened.takes n).refuses) (questions settings opened) log
  let written := opened.store number (stored opened.takes c.chunks)
  let messages := shown settings.verbose c.messages
  match c.result with
  | .ok summary => ⟨written, [], messages, .ok summary⟩
  | .error failure =>
      match written.remove settings.output with
      | .error fault => ⟨written, [], messages, .error (.unremovable fault settings.output)⟩
      | .ok files =>
          let failure :=
            if failure = .sinkFailed then (opened.takes c.chunks.length).failure else failure
          ⟨files, [], messages, .error failure⟩

end Run

def run (settings : Settings) (files : FileSystem) (standardInput : List UInt8) : Run :=
  match Run.readLog files standardInput settings.input with
  | .error failure => .refused files failure
  | .ok log =>
      if settings.output = Settings.standardOutput then .print settings files log
      else
        match files.openToWrite settings.output with
        | .error fault => .refused files (.unopenable fault settings.output)
        | .ok (opened, number) => .write settings opened number log

def Run.ofOptions (input : String) (options : Options) (files : FileSystem)
    (standardInput : List UInt8) : Run :=
  match Settings.ofOptions input options with
  | .error failure => .refused files failure
  | .ok settings => run settings files standardInput

end CompileCommands
