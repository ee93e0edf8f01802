import DotMatrix.Decimal.Rounding

/-!
# Shortest decimals

A floating-point number is written with the fewest digits that read back as the same number, and
of those with the digits nearest to it; of two equally near the larger is taken. The digits are
written out in positional form, without an exponent.

A number stands for the interval of the reals that round to it. For one digit, two digits and so
on, the two multiples of that power of ten next to the number are tried, in exact arithmetic; the
first count of digits with a hit is the least.
-/

namespace DotMatrix.Decimal

/-- A positive number `value / unit` and the ends of the interval of reals that round to it. -/
structure Interval where
  low : Nat
  value : Nat
  high : Nat
  unit : Nat
  /-- The ends themselves round to the number. -/
  closed : Bool
deriving DecidableEq, Repr, Inhabited

/-- The interval of `significand * 2 ^ exponent`. Below a power of two numbers lie twice as
dense. -/
def Interval.ofBinary (significand : Nat) (exponent : Int) (atPower : Bool) : Interval :=
  let up := 1 <<< (exponent - 2).toNat
  let down := 1 <<< (2 - exponent).toNat
  let quarters := 4 * significand
  ⟨(quarters - if atPower then 1 else 2) * up, quarters * up, (quarters + 2) * up, down,
    significand % 2 = 0⟩

def Interval.ofBits (bits : Nat) : Interval :=
  let field : Nat := (bits >>> 52) % (1 <<< 11)
  let fraction : Nat := bits % (1 <<< 52)
  if field = 0 then ofBinary fraction minExponent false
  else
    ofBinary (1 <<< 52 + fraction) (minExponent + field - 1) (fraction = 0 && 1 < field)

/-- A decimal `digits * 10 ^ exponent`. -/
structure Scientific where
  digits : Nat
  exponent : Int
deriving DecidableEq, Repr, Inhabited

namespace Scientific

def ratio (s : Scientific) : Nat × Nat :=
  (s.digits * Nat.pow 10 s.exponent.toNat, Nat.pow 10 (-s.exponent).toNat)

end Scientific

def digitCount (n : Nat) : Nat := if n = 0 then 0 else (Nat.toDigits 10 n).length

namespace Interval

/-- The place of the number's first digit: the number is below `10 ^ magnitude`, and at least a
tenth of that. -/
def magnitude (v : Interval) : Int :=
  if v.unit ≤ v.value then digitCount (v.value / v.unit)
  else 1 - (digitCount ((v.unit - 1) / v.value) : Int)

/-- The decimal rounds to the number. -/
def contains (v : Interval) (s : Scientific) : Bool :=
  let (num, den) := s.ratio
  let x := num * v.unit
  if v.closed then v.low * den ≤ x && x ≤ v.high * den
  else v.low * den < x && x < v.high * den

/-- The multiple of a power of ten that is next below the number. -/
def below (v : Interval) (exponent : Int) : Scientific :=
  let (num, den) := (⟨1, exponent⟩ : Scientific).ratio
  ⟨v.value * den / (v.unit * num), exponent⟩

def above (v : Interval) (exponent : Int) : Scientific :=
  let s := v.below exponent
  { s with digits := s.digits + 1 }

/-- The number is at least as near to the multiple above as to the one below. -/
def nearerAbove (v : Interval) (exponent : Int) : Bool :=
  let (num, den) := (⟨1, exponent⟩ : Scientific).ratio
  let rest := v.value * den % (v.unit * num)
  v.unit * num ≤ 2 * rest

/-- The multiple of a power of ten that rounds to the number, the nearer one if there are two. -/
def grid? (v : Interval) (exponent : Int) : Option Scientific :=
  match v.contains (v.below exponent), v.contains (v.above exponent) with
  | true, true => some (if v.nearerAbove exponent then v.above exponent else v.below exponent)
  | true, false => some (v.below exponent)
  | false, true => some (v.above exponent)
  | false, false => none

/-- Digits that are enough for every number. -/
def maxDigits : Nat := 17

/-- The decimal with the fewest digits that rounds to the number. -/
def shortest (v : Interval) : Scientific :=
  ((List.range maxDigits).findSome? fun (n : Nat) => v.grid? (v.magnitude - (n + 1))).getD
    (v.below (v.magnitude - maxDigits))

end Interval

/-- The digits of a decimal in positional form, with at least `places` digits after the point and
without a point if there are none. -/
def Scientific.positional (s : Scientific) (places : Nat) : String :=
  let digits := Nat.toDigits 10 (s.digits * Nat.pow 10 s.exponent.toNat)
  let point := (-s.exponent).toNat
  let padded := List.replicate (point + 1 - digits.length) '0' ++ digits
  let whole := padded.take (padded.length - point)
  let fraction := ((padded.drop (padded.length - point)).reverse.dropWhile (· = '0')).reverse
  let fraction := fraction ++ List.replicate (places - fraction.length) '0'
  String.ofList (if fraction = [] then whole else whole ++ '.' :: fraction)

def write (x : Float) (places : Nat) : String :=
  let bits := x.toBits.toNat
  let magnitude := bits % (1 <<< 63)
  if infinityBits < magnitude then "NaN"
  else
    let sign := if 1 <<< 63 ≤ bits then "-" else ""
    if magnitude = infinityBits then sign ++ "inf"
    else if magnitude = 0 then sign ++ Scientific.positional ⟨0, 0⟩ places
    else sign ++ (Interval.ofBits magnitude).shortest.positional places

end DotMatrix.Decimal
