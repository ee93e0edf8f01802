/-!
# Log

What the library has to tell its user, line by line.
-/

namespace DotMatrix

inductive LogLevel where
  | info | warn | error
deriving DecidableEq, Repr, Inhabited

def LogLevel.label : LogLevel → String
  | info => "INFO"
  | warn => "WARN"
  | error => "ERROR"

structure LogLine where
  level : LogLevel
  text : String
deriving DecidableEq, Repr, Inhabited

def LogLine.render (line : LogLine) : String := line.level.label ++ ": " ++ line.text

end DotMatrix
