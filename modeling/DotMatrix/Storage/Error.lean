/-!
# Storage errors

Why a file could not be read or written.
-/

namespace DotMatrix

inductive SystemCause where
  | notFound | alreadyExists | notDirectory | isDirectory | nameTooLong
deriving DecidableEq, Repr, Inhabited

namespace SystemCause

def code : SystemCause → Nat
  | notFound => 2
  | alreadyExists => 17
  | notDirectory => 20
  | isDirectory => 21
  | nameTooLong => 36

def kind : SystemCause → String
  | notFound => "NotFound"
  | alreadyExists => "AlreadyExists"
  | notDirectory => "NotADirectory"
  | isDirectory => "IsADirectory"
  | nameTooLong => "InvalidFilename"

def text : SystemCause → String
  | notFound => "No such file or directory"
  | alreadyExists => "File exists"
  | notDirectory => "Not a directory"
  | isDirectory => "Is a directory"
  | nameTooLong => "File name too long"

end SystemCause

inductive StorageError where
  /-- The storage does not let the file be read. -/
  | loadRefused
  /-- The storage does not let the file be written. -/
  | saveRefused
  /-- A file that must exist does not. -/
  | missing (path : String)
  /-- The path holds a zero character, which no name can have. -/
  | zeroInPath
  /-- The file system said no. -/
  | system (cause : SystemCause)
deriving DecidableEq, Repr, Inhabited

def StorageError.message : StorageError → String
  | loadRefused => "load refused"
  | saveRefused => "save refused"
  | missing path => path
  | zeroInPath => "file name contained an unexpected NUL byte"
  | system cause => s!"{cause.text} (os error {cause.code})"

end DotMatrix
