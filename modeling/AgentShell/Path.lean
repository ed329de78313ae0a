/-!
# Paths

A path is a text whose segments are the non-empty pieces between slashes. Resolving a path against
a working directory gives its normal form: the segment `.` stands for nothing, `..` takes back the
segment before it, and at the root it stays there.

## Main definitions

* `Path.segments`: the segments of a path, as they are written
* `Path.normalize`: the segments after `.` and `..` are carried out
* `Path.render`: the absolute path with given segments
* `Path.resolve`: the normal form of a path seen from a directory
* `Path.join`: a directory and the name of an entry
* `Path.splitParent`: a path as a directory and the name of an entry, none for the root
-/

namespace AgentShell.Path

/-- The non-empty pieces of a path between slashes. -/
def segments (path : String) : List String :=
  ((path.toList.splitOn '/').filter fun s => !s.isEmpty).map String.ofList

/-- One segment carried out on the segments before it. -/
def enter (stack : List String) (segment : String) : List String :=
  if segment = "." then stack
  else if segment = ".." then stack.dropLast
  else stack ++ [segment]

/-- The segments that remain when `.` and `..` are carried out from the left. -/
def normalize (segments : List String) : List String :=
  segments.foldl enter []

/-- The absolute path with the given segments: a slash in front of each, and one for the root. -/
def render : List String → String
  | [] => "/"
  | segments => "/" ++ "/".intercalate segments

/-- The path starts at the root. -/
def isAbsolute (path : String) : Bool :=
  path.toList.head? == some '/'

/-- **The normal form of a path** seen from the directory `cwd`. -/
def resolve (cwd path : String) : String :=
  render (normalize (segments (if isAbsolute path then path else cwd ++ "/" ++ path)))

/-- The text without the slashes at its end. -/
def trimSlashes (path : String) : String :=
  String.ofList (path.toList.reverse.dropWhile (· == '/')).reverse

/-- The path of the entry `name` of a directory. -/
def join (dir name : String) : String :=
  if dir = "/" then "/" ++ name else trimSlashes dir ++ "/" ++ name

/-- The directory and the last name of the normal form of a path; the root has none. -/
def splitParent (path : String) : Option (String × String) :=
  let stack := normalize (segments path)
  stack.getLast?.map fun name => (render stack.dropLast, name)

end AgentShell.Path
