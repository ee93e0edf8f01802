/-!
# Hexadecimal text

Bytes and words are written in messages with the mark `0x` and a fixed number of upper-case
digits.
-/

namespace DotMatrix.Text.Hex

def digit (n : Nat) : Char := Char.ofNat (if n < 10 then 0x30 + n else 0x37 + n)

def value? (c : Char) : Option Nat :=
  let n := c.toNat
  if c.isDigit then some (n - 0x30)
  else if 0x41 ≤ n && n ≤ 0x46 then some (n - 0x37)
  else if 0x61 ≤ n && n ≤ 0x66 then some (n - 0x57)
  else none

def number? (text : List Char) : Option Nat :=
  text.foldlM (fun n c => (value? c).map (16 * n + ·)) 0

def digits (count n : Nat) : List Char :=
  match count with
  | 0 => []
  | k + 1 => digits k (n / 16) ++ [digit (n % 16)]

/-- A byte, as in `0x0A`. -/
def byte (b : UInt8) : String := "0x" ++ String.ofList (digits 2 b.toNat)

/-- A word, as in `0x0101`. -/
def word (w : UInt16) : String := "0x" ++ String.ofList (digits 4 w.toNat)

end DotMatrix.Text.Hex
