/-!
# Memory

A memory is a fixed number of bytes. Reading beyond its end gives `0xFF`, and writing there does
nothing. `read_write` says that a write changes its own cell and no other.
-/

namespace DotMatrix

structure Memory (n : Nat) where
  cells : Vector UInt8 n
deriving DecidableEq, Repr

namespace Memory

variable {n : Nat}

def zeros (n : Nat) : Memory n := ⟨Vector.replicate n 0⟩

instance : Inhabited (Memory n) := ⟨zeros n⟩

def read (m : Memory n) (i : Nat) : UInt8 := if h : i < n then m.cells[i] else 0xFF

def write (m : Memory n) (i : Nat) (val : UInt8) : Memory n :=
  if h : i < n then ⟨m.cells.set i val⟩ else m

def writeAll (m : Memory n) (i : Nat) : List UInt8 → Memory n
  | [] => m
  | b :: rest => writeAll (m.write i b) (i + 1) rest

def toBytes (m : Memory n) : ByteArray := ⟨m.cells.toArray⟩

theorem read_write (m : Memory n) (i j : Nat) (val : UInt8) :
    (m.write i val).read j = if i = j ∧ i < n then val else m.read j := by
  by_cases hi : i < n
  · by_cases hj : j < n <;> by_cases hij : i = j <;>
      simp_all [write, read]
  · simp [write, hi]

end Memory

end DotMatrix
