/-!
# File paths

A path is text, and slashes separate its segments. Empty segments and single dots say nothing,
except that a leading dot stands for the current folder. The last segment that says something is
the file's name, unless it is one of the two dot segments. A name that has a dot after its first
character ends in an extension.

`withExtension` replaces the extension: it first removes the old extension's characters from the
end of the whole path, and then puts the new one behind the stem of what is left.
-/

namespace DotMatrix.Path

def split : List Char → List (List Char)
  | [] => [[]]
  | c :: rest =>
    if c = '/' then [] :: split rest
    else
      match split rest with
      | segment :: more => (c :: segment) :: more
      | [] => [[c]]

def unsplit (segments : List (List Char)) : List Char := List.intercalate ['/'] segments

/-- Drops the segments at the end that say nothing. The first segment is kept when it is a dot. -/
def trim (segments : List (List Char)) : List (List Char) :=
  match segments with
  | [] => []
  | first :: rest =>
    let rest := (rest.reverse.dropWhile fun s => s = [] || s = ['.']).reverse
    if first = [] && rest = [] then [] else first :: rest

/-- The folder part and the file name of a path that names a file. -/
def splitName? (path : List Char) : Option (List (List Char) × List Char) :=
  let segments := trim (split path)
  match segments.getLast? with
  | none => none
  | some name =>
    if name = ['.'] || name = ['.', '.'] || name = [] then none
    else some (segments.dropLast, name)

/-- Cuts a name at its last dot into stem and extension. A dot at the very start does not
count. -/
def splitExtension (name : List Char) : List Char × Option (List Char) :=
  let after := name.reverse.takeWhile (· ≠ '.')
  match name.reverse.drop after.length with
  | [] => (name, none)
  | [_] => (name, none)
  | _ :: stem => (stem.reverse, some after.reverse)

def fileName? (path : String) : Option String :=
  (splitName? path.toList).map fun (_, name) => String.ofList name

/-- Puts an extension behind the stem of the file name and drops what follows the stem. -/
def setExtension (path : List Char) (extension : List Char) : List Char :=
  match splitName? path with
  | none => path
  | some (folder, name) => unsplit (folder ++ [(splitExtension name).1 ++ '.' :: extension])

/-- The path with its extension replaced; a path that names no file stays as it is. -/
def withExtension (path extension : String) : String :=
  let chars := path.toList
  -- cut at the end of the path, where slashes may follow the name
  let cut :=
    match splitName? chars with
    | none => chars
    | some (_, name) =>
      match (splitExtension name).2 with
      | none => chars
      | some old => chars.take (chars.length - old.length)
  String.ofList (setExtension cut extension.toList)

/-- `path` as seen from `folder`; a path that starts with a slash stands for itself. -/
def join (folder path : String) : String :=
  if path.toList.head? = some '/' then path
  else
    match folder.toList.getLast? with
    | none => path
    | some '/' => folder ++ path
    | some _ => folder ++ "/" ++ path

/-- The path without its last segment; none for the empty path and the root. -/
def parent? (path : String) : Option String :=
  let segments := trim (split path.toList)
  match segments with
  | [] => none
  | _ =>
    match trim segments.dropLast with
    | [] => some (if segments.head? = some [] then "/" else "")
    | folder => some (String.ofList (unsplit folder))

/-- The folders that a path is in, from the inside out and at most as many as the first argument
says. The current folder and the root are left out. -/
def foldersUpTo : Nat → String → List String
  | 0, _ => []
  | n + 1, path =>
    match parent? path with
    | none => []
    | some folder => if (parent? folder).isNone then [] else folder :: foldersUpTo n folder

/-- All folders that a path is in, from the inside out, but not the current folder and the
root. -/
def folders (path : String) : List String := foldersUpTo path.length path

end DotMatrix.Path
