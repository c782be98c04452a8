/-!
Names of files: components separated by slashes.
-/

namespace RayTracer.FileName

def segments (path : String) : List String := path.splitOn "/"

def isAbsolute (path : String) : Bool := path.startsWith "/"

/-- The segments that name something: neither empty nor the directory at hand. -/
def components (path : String) : List String :=
  (segments path).filter fun segment => segment ≠ "" ∧ segment ≠ "."

def segmentLimit : Nat := 255

def pathLimit : Nat := 4095

/-- Whether a path can name anything at all: it is not too long and does not hold the mark that ends
names. -/
def isUsable (path : String) : Bool :=
  path.utf8ByteSize ≤ pathLimit && (segments path).all (·.utf8ByteSize ≤ segmentLimit)
    && !path.contains '\x00'

/-- What follows the last dot of the last component. A name that starts with its only dot has no
extension. -/
def extension? (path : String) : Option String :=
  match (components path).getLast? with
  | none => none
  | some ".." => none
  | some name =>
    match (name.splitOn ".").reverse with
    | last :: before :: others => if before = "" ∧ others = [] then none else some last
    | _ => none

/-- A path inside a directory; an absolute path stays as it is. -/
def join (directory path : String) : String :=
  if isAbsolute path || directory = "" then path
  else if directory.endsWith "/" then directory ++ path
  else directory ++ "/" ++ path

/-- The segments of a path, last first, without those at its end that name nothing. -/
def trimmedEnd : List String → List String
  | [] => []
  | segment :: rest => if segment = "" ∨ segment = "." then trimmedEnd rest else segment :: rest

/-- The directory that a path names something in; the directory at hand is written as nothing. -/
def parent (path : String) : String :=
  let before := trimmedEnd ((trimmedEnd (segments path).reverse).drop 1)
  let directory := "/".intercalate before.reverse
  if isAbsolute path && directory = "" then "/" else directory

end RayTracer.FileName
