/-!
# Checksums

Two sums over bytes. The cyclic one is the remainder of a division of polynomials with
coefficients 0 and 1; the other adds up the bytes, and the sums on the way, modulo a prime.
-/

namespace DotMatrix.Recording

/-- The divisor of the cyclic sum, with its lowest power in the highest bit. -/
def cyclicDivisor : UInt32 := 0xEDB88320

def cyclicShift : Nat → UInt32 → UInt32
  | 0, r => r
  | n + 1, r =>
    cyclicShift n (if r &&& 1 = 1 then (r >>> 1) ^^^ cyclicDivisor else r >>> 1)

def cyclicStep (r : UInt32) (b : UInt8) : UInt32 := cyclicShift 8 (r ^^^ b.toUInt32)

def cyclicSum (bytes : List UInt8) : UInt32 := ~~~(bytes.foldl cyclicStep 0xFFFFFFFF)

def addingPrime : Nat := 65521

def addingStep (sums : Nat × Nat) (b : UInt8) : Nat × Nat :=
  let low := (sums.1 + b.toNat) % addingPrime
  (low, (sums.2 + low) % addingPrime)

/-- The adding sum of bytes: the sum of the sums above, the sum of the bytes below. -/
def addingSum (bytes : List UInt8) : Nat :=
  let (low, high) := bytes.foldl addingStep (1, 0)
  high <<< 16 + low

end DotMatrix.Recording
