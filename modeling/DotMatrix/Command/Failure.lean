import DotMatrix.BootImage
import DotMatrix.Cartridge
import DotMatrix.Fault

/-!
# Failures

What a command may fail with, and how it is described: by the name of the case, and behind it what
belongs to it.
-/

namespace DotMatrix

namespace Text

def describeCase (name contents : String) : String := s!"{name}({contents})"

def describeRecord (name : String) (fields : List (String × String)) : String :=
  let contents := ", ".intercalate (fields.map fun (key, value) => s!"{key}: {value}")
  s!"{name} \x7b {contents} \x7d"

end Text

open Text (describeCase describeRecord)

def SystemCause.describe (cause : SystemCause) : String :=
  describeRecord "Os" [("code", s!"{cause.code}"), ("kind", cause.kind),
    ("message", Text.Quoted.quote cause.text)]

/-- An error that is not the system's, of a kind. -/
def describeCustom (kind message : String) : String :=
  describeRecord "Custom" [("kind", kind), ("error", Text.Quoted.quote message)]

def StorageError.describe : StorageError → String
  | system cause => cause.describe
  | missing path => describeCustom "NotFound" path
  | zeroInPath =>
    describeRecord "Error" [("kind", "InvalidInput"),
      ("message", Text.Quoted.quote zeroInPath.message)]
  | loadRefused => describeCustom "Other" loadRefused.message
  | saveRefused => describeCustom "Other" saveRefused.message

def CartridgeError.describe : CartridgeError → String
  | truncated length => describeRecord "Truncated" [("len", s!"{length}")]
  | shortImage expected actual =>
    describeRecord "ShortImage" [("expected", s!"{expected}"), ("actual", s!"{actual}")]
  | unknownType code => describeCase "UnknownType" s!"{code.toNat}"
  | unsupported code family =>
    describeRecord "Unsupported" [("code", s!"{code.toNat}"), ("family", family.name)]
  | invalidRomSize code => describeCase "InvalidRomSize" s!"{code.toNat}"
  | invalidRamSize code => describeCase "InvalidRamSize" s!"{code.toNat}"
  | unreadable cause => describeCase "Io" cause.describe

def BootImageError.describe (e : BootImageError) : String :=
  describeRecord "InvalidBootRom" [("len", s!"{e.length}")]

def Fault.describe : Fault → String
  | illegalOpcode opcode pc =>
    describeRecord "IllegalOpcode" [("opcode", s!"{opcode.toNat}"), ("pc", s!"{pc.toNat}")]
  | dmaOverlap addr => describeRecord "DmaOverlap" [("addr", s!"{addr.toNat}")]

namespace Command

inductive DurationError where
  | negative
  /-- Too long, or no number. -/
  | notFinite
deriving DecidableEq, Repr, Inhabited

def DurationError.message : DurationError → String
  | negative => "cannot convert float seconds to Duration: value is negative"
  | notFinite => "cannot convert float seconds to Duration: value is either too big or NaN"

inductive Failure where
  | file (cause : StorageError)
  | wave (cause : StorageError)
  | cartridge (cause : CartridgeError)
  | bootFile (path : String) (cause : StorageError)
  | bootImage (cause : BootImageError)
  | duration (cause : DurationError)
  | fault (cause : Fault)
deriving DecidableEq, Repr, Inhabited

def Failure.describe : Failure → String
  | file cause => cause.describe
  | wave cause => describeCase "IoError" cause.describe
  | cartridge cause => cause.describe
  | bootFile path cause =>
    Text.Quoted.quote s!"failed to read boot ROM {path}: {cause.message}"
  | bootImage cause => cause.describe
  | duration cause => Text.Quoted.quote s!"invalid --seconds: {cause.message}"
  | fault cause => cause.describe

end Command

end DotMatrix
