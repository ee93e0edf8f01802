import DotMatrix.Storage.Tree

/-!
# Storage

Where images and save files live. A table may refuse to read or write some of its files; in a tree
a path may lead nowhere, and a save makes the folders that it needs. What was made before a
failure stays.
-/

namespace DotMatrix.Storage

/-- Reads at most `limit` bytes of a file; a file that does not exist is no error. -/
def load (s : Storage) (path : String) (limit : Nat) : Except StorageError (Option ByteArray) :=
  match s.medium with
  | .table unreadable _ =>
    if unreadable.contains path then .error .loadRefused
    else .ok ((s.fileAt? [path]).map (·.extract 0 limit))
  | .tree home =>
    match s.find home path with
    | .error (.system .notFound) => .ok none
    | .error cause => .error cause
    | .ok loc =>
      match s.fileAt? loc with
      | some bytes => .ok (some (bytes.extract 0 limit))
      | none =>
        if !s.isFolder loc then .ok none
        -- a folder can be opened; only reading from it fails
        else if limit = 0 then .ok (some ByteArray.empty)
        else .error (.system .isDirectory)

/-- Reads all of a file that has to exist. -/
def read (s : Storage) (path : String) : Except StorageError ByteArray :=
  match s.medium with
  | .table unreadable _ =>
    if unreadable.contains path then .error .loadRefused
    else ((s.fileAt? [path]).map .ok).getD (.error (.system .notFound))
  | .tree home => do
    let loc ← s.find home path
    match s.fileAt? loc with
    | some bytes => return bytes
    | none => throw (.system (if s.isFolder loc then .isDirectory else .notFound))

/-- The location that a file can be written to, in a folder that exists. -/
def place (s : Storage) (path : String) : Except StorageError Location :=
  match s.medium with
  | .table _ unwritable => if unwritable.contains path then .error .saveRefused else .ok [path]
  | .tree home => s.findPlace home path

def write (s : Storage) (path : String) (bytes : ByteArray) : Except StorageError Unit × Storage :=
  s.attempt ((s.place path).map (s.put · bytes))

def makeFolders (s : Storage) (path : String) : Except StorageError Unit × Storage :=
  match s.medium with
  | .table _ _ => (.ok (), s)
  | .tree home => s.makeNested home (Path.folders path)

def writeDeep (s : Storage) (path : String) (bytes : ByteArray) :
    Except StorageError Unit × Storage :=
  match s.makeFolders path with
  | (.ok (), s) => s.write path bytes
  | failed => failed

def save (s : Storage) (path : String) (bytes : ByteArray) : Except StorageError Unit × Storage :=
  match s.writeDeep path bytes with
  | (.ok (), s) => (.ok (), { s with journal := (path, bytes) :: s.journal })
  | failed => failed

end DotMatrix.Storage
