/-!
# Paths

Paths are texts with slashes between their segments. Reduction works on the text alone and asks no
file system: empty segments and `.` go away, and `..` takes away the segment before it. Above the
beginning of a relative path `..` stays; above the root it goes away.
-/

namespace CompileCommands.Path

def isAbsolute (path : String) : Bool := path.toList.head? = some '/'

/-- A path that ends in a slash can only mean a directory. -/
def endsInSlash (path : String) : Bool := path.toList.getLast? = some '/'

def segments (path : String) : List String := (path.toList.splitOn '/').map String.ofList

/-- Goes on from reduced segments, the innermost first, by one more segment. -/
def descend (absolute : Bool) (above : List String) (segment : String) : List String :=
  if segment = "" || segment = "." then above
  else if segment = ".." then
    match above with
    | [] => if absolute then [] else [".."]
    | last :: rest => if last = ".." then ".." :: above else rest
  else segment :: above

/-- The reduced segments of a path, outermost first. -/
def reduced (path : String) : List String :=
  ((segments path).foldl (descend (isAbsolute path)) []).reverse

/-- The reduced path. A slash at the end is kept, and a path that reduces to nothing is the root
or the current directory. -/
def normalize (path : String) : String :=
  let closing := if endsInSlash path then "/" else ""
  match isAbsolute path, reduced path with
  | true, [] => "/"
  | false, [] => "." ++ closing
  | true, names => "/" ++ "/".intercalate names ++ closing
  | false, names => "/".intercalate names ++ closing

/-- The last segment, slashes at the end aside. -/
def baseName (path : String) : String :=
  String.ofList ((path.toList.reverse.dropWhile (· = '/')).takeWhile (· ≠ '/')).reverse

/-- The last segment from its last dot on. A dot at its beginning makes no extension, nor does
the parent directory's name. -/
def extension (path : String) : String :=
  let base := (baseName path).toList
  match base.reverse.dropWhile (· ≠ '.') with
  | [] | [_] => ""
  | _ => if base = ['.', '.'] then ""
      else String.ofList ('.' :: (base.reverse.takeWhile (· ≠ '.')).reverse)

end CompileCommands.Path
