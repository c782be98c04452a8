import RayTracer.Image.Picture
import RayTracer.Storage.FileName

/-!
Files, as far as images and scenes need them: contents by place, seen from a folder at hand. A directory
is there when something lies in it or when it has been stated. Reading and writing are functions on the
folder.
-/

namespace RayTracer

/-- What a file holds. An encoded picture is kept as the picture that was encoded. A file that was begun and
could not be finished is incomplete. -/
inductive FileContent where
  | bytes (content : List UInt8)
  | picture (format : PictureFormat) (content : Picture)
  | incomplete
  deriving DecidableEq, Repr

/-- The place of a file or a directory: the steps that lead there from the folder at hand, or from the
root where the first step is a slash. -/
abbrev Place := List String

structure Folder where
  files : List (Place × FileContent)
  directories : List Place

namespace Folder

def empty : Folder := ⟨[], []⟩

/-- The place of the directory around a place. Around the folder at hand lie directories without a name
of their own. -/
def around (place : Place) : Place :=
  if place = ["/"] then place
  else if place = [] ∨ place.getLast? = some ".." then place ++ [".."]
  else place.dropLast

/-- Whether a place is the folder at hand or a directory. -/
def isDirectory (folder : Folder) (place : Place) : Bool :=
  place = [] || folder.directories.contains place
    || folder.files.any fun file => place.length < file.1.length && place.isPrefixOf file.1

/-- One step from a place. -/
def step (place : Place) (name : String) : Place :=
  if name = "" ∨ name = "." then place
  else if name = ".." then around place
  else place ++ [name]

def start (path : String) : Place := if FileName.isAbsolute path then ["/"] else []

/-- The place that the steps of a path lead to, whether or not there is anything on the way. -/
def placeOf (path : String) : Place := (FileName.segments path).foldl step (start path)

/-- The place that steps lead to. Every step has to start from a directory. -/
def walk (folder : Folder) : Place → List String → Option Place
  | place, [] => some place
  | place, name :: rest =>
    if folder.isDirectory place then walk folder (step place name) rest else none

/-- The place that a path names, if it could be one of a file. -/
def resolve? (folder : Folder) (path : String) : Option Place := do
  guard (FileName.isUsable path)
  let place ← folder.walk (start path) (FileName.segments path)
  let last := (FileName.segments path).getLast?.getD ""
  if last = "" ∨ last = "." ∨ last = ".." ∨ folder.isDirectory place then none else some place

def read? (folder : Folder) (path : String) : Option FileContent := do
  let place ← folder.resolve? path
  folder.files.lookup place

def write? (folder : Folder) (path : String) (content : FileContent) : Option Folder := do
  let place ← folder.resolve? path
  return { folder with
    files := (place, content) :: folder.files.filter fun file => file.1 ≠ place }

/-- The folder with a file put in place, directories included. -/
def put (folder : Folder) (path : String) (content : FileContent) : Folder :=
  { folder with files := (placeOf path, content) :: folder.files }

def addDirectory (folder : Folder) (path : String) : Folder :=
  { folder with directories := placeOf path :: folder.directories }

end Folder

end RayTracer
