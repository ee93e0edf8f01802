import DotMatrix.Storage.Basic

/-!
# Paths in a tree

A path leads through a tree segment by segment, from the root if it starts with a slash and else
from the working folder. Whatever is passed on the way has to be a folder, and no name may be too
long. A slash at the end asks for a folder.

A new file or folder needs a name of its own in a folder that exists. The folders that a path is
in are made from the inside out: one that cannot be made because it is in a folder that does not
exist is made after that one.
-/

namespace DotMatrix.Storage

def maxNameSize : Nat := 255

def maxPathSize : Nat := 4095

def segments (path : String) : List String :=
  ((Path.split path.toList).filter (· ≠ [])).map String.ofList

/-- Where a path would lead from a folder if everything on the way were one. -/
def follow (here : Location) (path : String) : Location := (segments path).foldl Location.enter here

/-- The path asks for a folder. -/
def endsInSlash (path : String) : Bool := path.toList.getLast? = some '/'

/-- Where a path starts: at the root, or in the working folder. -/
def start (home : Location) (path : String) : Location :=
  if path.toList.head? = some '/' then [] else home

/-- Refuses text that cannot be a path, before anything is looked up. -/
def checkPath (path : String) : Except StorageError Unit :=
  if path.toList.contains '\x00' then .error .zeroInPath
  else if maxPathSize < path.utf8ByteSize then .error (.system .nameTooLong)
  else if path.isEmpty then .error (.system .notFound)
  else .ok ()

/-! ## Finding -/

def checkFolder (s : Storage) (loc : Location) : Except StorageError Unit :=
  if (s.fileAt? loc).isSome then .error (.system .notDirectory)
  else if s.isFolder loc then .ok ()
  else .error (.system .notFound)

def step (s : Storage) (here : Location) (segment : String) : Except StorageError Location := do
  s.checkFolder here
  if maxNameSize < segment.utf8ByteSize then throw (.system .nameTooLong)
  return here.enter segment

def find (s : Storage) (home : Location) (path : String) : Except StorageError Location := do
  checkPath path
  let loc ← (segments path).foldlM s.step (start home path)
  if endsInSlash path then s.checkFolder loc
  return loc

/-! ## Making -/

/-- The folder that a path ends in, and the name there if the last segment is one. -/
def findFolder (s : Storage) (home : Location) (path : String) :
    Except StorageError (Location × Option String) := do
  checkPath path
  let segments := segments path
  let folder ← segments.dropLast.foldlM s.step (start home path)
  s.checkFolder folder
  return (folder, segments.getLast?.filter fun name => name ≠ "." && name ≠ "..")

def findPlace (s : Storage) (home : Location) (path : String) : Except StorageError Location := do
  let (folder, name) ← s.findFolder home path
  match name with
  | none => throw (.system .isDirectory)
  | some name =>
    if endsInSlash path then throw (.system .isDirectory)
    let loc ← s.step folder name
    if s.isFolder loc then throw (.system .isDirectory)
    return loc

def makeFolder (s : Storage) (home : Location) (path : String) : Except StorageError Storage := do
  let (folder, name) ← s.findFolder home path
  match name with
  | none => return s
  | some name =>
    let loc ← s.step folder name
    if (s.fileAt? loc).isSome then throw (.system .alreadyExists)
    return if s.isFolder loc then s else { s with folders := loc :: s.folders }

/-- Makes folders, each of which is in the next. What was made before a failure stays. -/
def makeNested (s : Storage) (home : Location) : List String → Except StorageError Unit × Storage
  | [] => (.ok (), s)
  | path :: outer =>
    match s.makeFolder home path with
    | .error (.system .notFound) =>
      match s.makeNested home outer with
      | (.ok (), s) => s.attempt (s.makeFolder home path)
      | failed => failed
    | result => s.attempt result

end DotMatrix.Storage
