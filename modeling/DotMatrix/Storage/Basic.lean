import DotMatrix.Storage.Error
import DotMatrix.Storage.Path

/-!
# Media and what they hold

Files are kept in a table under their paths, or in a tree of folders. Either way a file has a
location, and the storage is the list of what is at each. Every accepted save is noted in a
journal.
-/

namespace DotMatrix

/-- Where a file is kept: the path itself in a table, its folders and name in a tree. -/
abbrev Location := List String

def Location.enter (here : Location) (segment : String) : Location :=
  if segment = "." then here else if segment = ".." then here.dropLast else here ++ [segment]

inductive Medium where
  /-- A table of paths, some of which cannot be read or written. -/
  | table (unreadable unwritable : List String)
  /-- A tree of folders, in which paths start at a working folder. -/
  | tree (home : Location)
deriving DecidableEq, Repr, Inhabited

structure Storage where
  medium : Medium
  files : List (Location × ByteArray)
  /-- Folders of a tree, beyond those that the files are in. -/
  folders : List Location
  /-- Accepted saves, the latest first. -/
  journal : List (String × ByteArray)

instance : Inhabited Storage := ⟨⟨.table [] [], [], [], []⟩⟩

inductive SaveKind where
  | ram | clock
deriving DecidableEq, Repr, Inhabited

def SaveKind.extension : SaveKind → String
  | ram => "sav"
  | clock => "rtc"

/-- Where a save file of an image lives: beside the image, or in the save folder if there is
one. -/
def saveLocation (folder : Option String) (image : String) (kind : SaveKind) : String :=
  match folder, Path.fileName? image with
  | some folder, some name => Path.withExtension (Path.join folder name) kind.extension
  | _, _ => Path.withExtension image kind.extension

namespace Storage

def emptyTree (home : Location) : Storage := ⟨.tree home, [], [home], []⟩

def fileAt? (s : Storage) (loc : Location) : Option ByteArray := s.files.lookup loc

/-- The location is a folder: the root, one that was made, or one that something is in. -/
def isFolder (s : Storage) (loc : Location) : Bool :=
  loc.isEmpty || s.folders.any (loc.isPrefixOf ·)
    || s.files.any fun (file, _) => loc.isPrefixOf file && file ≠ loc

def put (s : Storage) (loc : Location) (bytes : ByteArray) : Storage :=
  { s with files := (loc, bytes) :: s.files.filter (·.1 ≠ loc) }

/-- What an attempt to change a storage leaves: the changed one, or the old one and the cause. -/
def attempt (s : Storage) : Except StorageError Storage → Except StorageError Unit × Storage
  | .ok changed => (.ok (), changed)
  | .error cause => (.error cause, s)

end Storage

end DotMatrix
