/-!
# Numbers in files

A number is written as a fixed count of bytes, the highest or the lowest first. Larger numbers
lose their upper part.
-/

namespace DotMatrix.Recording

/-- The lowest `count` bytes of a number, the lowest first. -/
def littleEndian : Nat → Nat → List UInt8
  | 0, _ => []
  | count + 1, n => n.toUInt8 :: littleEndian count (n / 256)

/-- The lowest `count` bytes of a number, the highest first. -/
def bigEndian (count n : Nat) : List UInt8 := (littleEndian count n).reverse

def ofBigEndian (bytes : List UInt8) : Nat := bytes.foldl (fun n b => n * 256 + b.toNat) 0

def ofLittleEndian (bytes : List UInt8) : Nat := bytes.foldr (fun b n => n * 256 + b.toNat) 0

def nameBytes (name : String) : List UInt8 := name.toUTF8.toList

end DotMatrix.Recording
