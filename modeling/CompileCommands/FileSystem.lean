import CompileCommands.Failure
import CompileCommands.Path

/-!
# File systems

A file system gives each place, a list of names from the root down, a directory, a link, a name of
a file, or nothing. A file has a number, and may have several names. Paths are walked name by name,
each in a directory; `.` stays and `..` goes up, the root being above itself. A link on the way is
replaced by the names of its target, and only so many are followed.

What the length of names and paths is limited to, who owns what, and what other programs do
meanwhile is left out.
-/

namespace CompileCommands

/-- The names from the root down. -/
abbrev Place := List String

/-- What the program may do with a file or a directory. Files are not searched. -/
structure Access where
  read : Bool
  write : Bool
  search : Bool
  deriving DecidableEq, Repr

def Access.full : Access := ⟨true, true, true⟩

inductive Node where
  | directory (access : Access)
  | file (number : Nat)
  | link (target : String)
  deriving DecidableEq, Repr

def Node.number? : Node → Option Nat
  | file number => some number
  | _ => none

/-- A file. A device keeps nothing of what is written into it. -/
structure File where
  bytes : List UInt8
  access : Access
  keeps : Bool
  deriving DecidableEq, Repr

/-- How a write is taken: whole, only its first bytes, or not at all. -/
inductive Taking where
  | whole
  | cut (bytes : Nat)
  | refused (fault : FileFault)
  deriving DecidableEq, Repr

/-- What stands at each place, a place being listed once; what each file holds; the current
directory; and how the writes into the file that is open are taken, by their number. -/
structure FileSystem where
  nodes : List (Place × Node)
  contents : Nat → File
  root : Access
  here : Place
  takes : Nat → Taking

namespace FileSystem

/-- What stands at a place; the root is always there. -/
def node? (fs : FileSystem) (place : Place) : Option Node :=
  if place = [] then some (.directory fs.root) else fs.nodes.lookup place

def erase (fs : FileSystem) (place : Place) : FileSystem :=
  { fs with nodes := fs.nodes.filter (·.1 ≠ place) }

def put (fs : FileSystem) (place : Place) (node : Node) : FileSystem :=
  { fs with nodes := (place, node) :: (fs.erase place).nodes }

def setFile (fs : FileSystem) (number : Nat) (file : File) : FileSystem :=
  { fs with contents := fun n => if n = number then file else fs.contents n }

/-- A file holds these bytes now, if it keeps any. -/
def store (fs : FileSystem) (number : Nat) (bytes : List UInt8) : FileSystem :=
  if (fs.contents number).keeps then
    fs.setFile number { fs.contents number with bytes := bytes }
  else fs

def fresh (fs : FileSystem) : Nat := (fs.nodes.filterMap (·.2.number?)).foldr max 0 + 1

def create (fs : FileSystem) (place : Place) (file : File) : FileSystem :=
  (fs.put place (.file fs.fresh)).setFile fs.fresh file

/-! ## Names -/

/-- The names on a path. A slash at its end gives one more, the empty name. -/
def names (path : String) : List String :=
  (Path.segments path).filter (· ≠ "") ++ if Path.endsInSlash path then [""] else []

/-- Where the walk along a path begins that is met at a place. -/
def start (place : Place) (path : String) : Place := if Path.isAbsolute path then [] else place

/-- The name of a node, and not a way to say this directory or the one above. -/
def IsProper (name : String) : Prop := name ≠ "" ∧ name ≠ "." ∧ name ≠ ".."

instance (name : String) : Decidable (IsProper name) := by unfold IsProper; infer_instance

/-- One name further down, or up. -/
def enter (place : Place) (name : String) : Place :=
  if IsProper name then place ++ [name] else if name = ".." then place.dropLast else place

/-- A name can be looked up at a place. The empty name only asks for a directory. -/
def pass (fs : FileSystem) (place : Place) (name : String) : Except FileFault Unit :=
  match fs.node? place with
  | none => .error .notFound
  | some (.directory access) => if name = "" || access.search then .ok () else .error .denied
  | some _ => .error .notDirectory

def target? (fs : FileSystem) (place : Place) (name : String) : Option String :=
  if IsProper name then
    match fs.node? (place ++ [name]) with
    | some (.link target) => some target
    | _ => none
  else none

/-! ## Walks -/

/-- What a path is walked for: what it leads to; the file to write, which may be missing; or what
has its last name, be it a link. -/
inductive Purpose where
  | reach
  | write
  | name
  deriving DecidableEq, Repr

namespace Purpose

/-- A walk for writing stops before a name that only asks for a directory. -/
def blocks (purpose : Purpose) (rest : List String) : Bool := purpose = .write && rest = [""]

/-- The link with the last name is not followed for the name itself. -/
def stays (purpose : Purpose) (rest : List String) : Bool := purpose = .name && rest = []

end Purpose

/-- How far names lead without a link: all the way, or up to a link with names behind it. -/
inductive Stop where
  | arrived (place : Place)
  | link (place : Place) (target : String) (rest : List String)

def advance (fs : FileSystem) (purpose : Purpose) : Place → List String → Except FileFault Stop
  | place, [] => .ok (.arrived place)
  | place, name :: rest =>
      match fs.pass place name with
      | .error fault => .error fault
      | .ok () =>
          if purpose.blocks rest then .error .isDirectory
          else
            match fs.target? place name with
            | none => advance fs purpose (enter place name) rest
            | some target =>
                if purpose.stays rest then .ok (.arrived (enter place name))
                else .ok (.link place target rest)

def walk (fs : FileSystem) (purpose : Purpose) : Nat → Place → List String → Except FileFault Place
  | links, place, path =>
      match fs.advance purpose place path with
      | .error fault => .error fault
      | .ok (.arrived place) => .ok place
      | .ok (.link place target rest) =>
          match links with
          | 0 => .error .tooManyLinks
          | links + 1 => walk fs purpose links (start place target) (names target ++ rest)

def mostLinks : Nat := 40

/-- The place that a path leads to, whether or not something stands there. -/
def locate (fs : FileSystem) (purpose : Purpose) (path : String) : Except FileFault Place :=
  if path = "" then .error .notFound
  else fs.walk purpose mostLinks (start fs.here path) (names path)

def find (fs : FileSystem) (path : String) : Except FileFault Node := do
  match fs.node? (← fs.locate .reach path) with
  | none => .error .notFound
  | some (.link _) => .error .tooManyLinks
  | some node => .ok node

def exists? (fs : FileSystem) (path : String) : Bool :=
  match fs.find path with
  | .ok _ => true
  | .error _ => false

def read (fs : FileSystem) (path : String) : Except FileFault (List UInt8) := do
  match ← fs.find path with
  | .file number =>
      if (fs.contents number).access.read then .ok (fs.contents number).bytes else .error .denied
  | .directory access => .error (if access.read then .isDirectory else .denied)
  | .link _ => .error .tooManyLinks

/-! ## Changes -/

/-- The directory that a place lies in can be written. -/
def changeable (fs : FileSystem) (place : Place) : Bool :=
  match fs.node? place.dropLast with
  | some (.directory access) => access.write
  | _ => false

/-- Opens the file that a path leads to for writing, and gives its number: it is emptied, or made
where there is none. -/
def openToWrite (fs : FileSystem) (path : String) : Except FileFault (FileSystem × Nat) := do
  let place ← fs.locate .write path
  match fs.node? place with
  | some (.file number) =>
      if (fs.contents number).access.write then .ok (fs.store number [], number)
      else .error .denied
  | some (.directory _) => .error .isDirectory
  | some (.link _) => .error .tooManyLinks
  | none =>
      if fs.changeable place then .ok (fs.create place ⟨[], .full, true⟩, fs.fresh)
      else .error .denied

/-- Takes a name away, if it is there. What a link leads to stays. -/
def remove (fs : FileSystem) (path : String) : Except FileFault FileSystem :=
  match fs.locate .name path with
  | .error .notFound => .ok fs
  | .error fault => .error fault
  | .ok place =>
      match fs.node? place with
      | none => .ok fs
      | some (.directory _) => .error .isDirectory
      | some _ => if fs.changeable place then .ok (fs.erase place) else .error .denied

end FileSystem

end CompileCommands
