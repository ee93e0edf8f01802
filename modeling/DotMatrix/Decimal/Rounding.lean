/-!
# The nearest floating-point number

A ratio of natural numbers is rounded to the nearest binary floating-point number of 64 bits; of
two that are equally near, the one with the even significand is taken. A ratio beyond the largest
number becomes infinite.
-/

namespace DotMatrix.Decimal

/-- Rounds a ratio to the nearest natural number, a half to the even one. -/
def roundHalfEven (num den : Nat) : Nat :=
  let q := num / den
  let r := 2 * (num % den)
  if r < den || (r = den && q % 2 = 0) then q else q + 1

/-- The number `num / den` divided by a power of two, as a ratio. -/
def scaleDown (num den : Nat) : Int → Nat × Nat
  | .ofNat n => (num, den <<< n)
  | .negSucc n => (num <<< (n + 1), den)

def floorLog2 (num den : Nat) : Int :=
  let guess := (num.log2 : Int) - den.log2
  let (n, d) := scaleDown num den guess
  if d ≤ n then guess else guess - 1

/-- The exponent of the lowest bit of the smallest numbers. -/
def minExponent : Int := -1074

def infinityBits : Nat := 0x7FF0000000000000

/-- The bits of the number nearest to `num / den`. The exponent field counts the steps from the
smallest exponent, and the highest bit of a full significand adds one more to it. -/
def nearestBits (num den : Nat) : Nat :=
  if num = 0 then 0
  else
    let exponent := max minExponent (floorLog2 num den - 52)
    let (n, d) := scaleDown num den exponent
    let bits := (exponent - minExponent).toNat <<< 52 + roundHalfEven n d
    min bits infinityBits

def nearest (num den : Nat) : Float := Float.ofBits (nearestBits num den).toUInt64

end DotMatrix.Decimal
