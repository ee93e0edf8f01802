import DotMatrix.Decimal.Shortest

/-!
# Reading decimals

A decimal is written as an optional sign, digits with an optional point among or at either end of
them, and an optional exponent. It stands for the floating-point number nearest to it. Infinity
and the number that is none may be written by name.
-/

namespace DotMatrix.Decimal

structure Literal where
  negative : Bool
  value : Scientific
deriving DecidableEq, Repr, Inhabited

/-- Beyond this power of ten in either direction every number is infinite or zero. -/
def maxMagnitude : Int := 400

def Scientific.toFloat (s : Scientific) : Float :=
  let magnitude := s.exponent + digitCount s.digits
  if s.digits = 0 || magnitude < -maxMagnitude then 0.0
  else if maxMagnitude < magnitude then Float.ofBits infinityBits.toUInt64
  else
    let (num, den) := s.ratio
    nearest num den

def Literal.toFloat (l : Literal) : Float :=
  if l.negative then -l.value.toFloat else l.value.toFloat

def ofDigits (digits : List Char) : Nat :=
  digits.foldl (fun n c => n * 10 + (c.toNat - '0'.toNat)) 0

def takeSign : List Char → Bool × List Char
  | '-' :: rest => (true, rest)
  | '+' :: rest => (false, rest)
  | rest => (false, rest)

def readExponent? : List Char → Option Int
  | [] => some 0
  | c :: rest =>
    let (negative, digits) := takeSign rest
    if c.toLower ≠ 'e' || digits = [] || !digits.all Char.isDigit then none
    else some (if negative then -(ofDigits digits : Int) else ofDigits digits)

def readScientific? (text : List Char) : Option Scientific :=
  let whole := text.takeWhile Char.isDigit
  let rest := text.dropWhile Char.isDigit
  let (fraction, rest) :=
    match rest with
    | '.' :: rest => (rest.takeWhile Char.isDigit, rest.dropWhile Char.isDigit)
    | rest => ([], rest)
  if whole = [] && fraction = [] then none
  else
    (readExponent? rest).map fun exponent =>
      ⟨ofDigits (whole ++ fraction), exponent - fraction.length⟩

/-- The numbers that are written by name, whatever the case of the letters. -/
def named? (text : List Char) : Option Float :=
  let name := String.ofList (text.map Char.toLower)
  if name = "inf" || name = "infinity" then some (Float.ofBits infinityBits.toUInt64)
  else if name = "nan" then some (Float.ofBits (infinityBits + 1 <<< 51).toUInt64)
  else none

def read? (text : String) : Option Float :=
  let (negative, rest) := takeSign text.toList
  match named? rest with
  | some x => some (if negative then -x else x)
  | none => (readScientific? rest).map fun value => (⟨negative, value⟩ : Literal).toFloat

end DotMatrix.Decimal
