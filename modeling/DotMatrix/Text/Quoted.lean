import DotMatrix.Text.Invisible

/-!
# Quoted text

Text between double quotes, in which quotes, backslashes and characters that do not show are
written as escapes. A character without an escape letter is written by its number in lower-case
hexadecimal digits.
-/

namespace DotMatrix.Text.Quoted

def hexDigits (n : Nat) : List Char := Nat.toDigits 16 n

def escape (c : Char) : List Char :=
  if c = '\x00' then ['\\', '0']
  else if c = '\t' then ['\\', 't']
  else if c = '\r' then ['\\', 'r']
  else if c = '\n' then ['\\', 'n']
  else if c = '"' || c = '\\' then ['\\', c]
  else if isInvisible c then ['\\', 'u', '\x7b'] ++ hexDigits c.toNat ++ ['\x7d']
  else [c]

def quote (text : String) : String :=
  String.ofList ('"' :: text.toList.flatMap escape ++ ['"'])

end DotMatrix.Text.Quoted
