import DotMatrix.Cartridge.RealTimeClock

/-!
# Bank controllers

A controller decides which bank of program memory is seen in the upper window, and what is seen
in the external window. Writes to program memory set its registers. A bank number beyond the
memory wraps around, and bank zero never appears in the upper window.
-/

namespace DotMatrix

def romBankSize : Nat := 0x4000

def ramBankSize : Nat := 0x2000

def wrapBank (bank count : Nat) : Nat := if bank % count = 0 then 1 else bank % count

structure Mbc1 where
  romBank : UInt8
  /-- Two more bits, of the program bank in mode 0 and of the external bank in mode 1. -/
  high : UInt8
  mode : UInt8
  ramEnabled : Bool
deriving DecidableEq, Repr, Inhabited

namespace Mbc1

def initial : Mbc1 := ⟨1, 0, 0, false⟩

def bank (m : Mbc1) (count : Nat) : Nat :=
  wrapBank ((if m.mode = 0 then m.high.toNat * 32 else 0) + m.romBank.toNat) count

/-- The external memory cell at an offset into the window. Two kilobytes of memory repeat. -/
def ramOffset (m : Mbc1) (ramSize offset : Nat) : Nat :=
  let cell := (if m.mode = 1 then m.high.toNat else 0) * ramBankSize + offset
  if ramSize = 0x800 then cell % 0x800 else cell

end Mbc1

inductive Selection where
  | ram (bank : UInt8)
  | clock (register : UInt8)
deriving DecidableEq, Repr, Inhabited

structure Mbc3 (τ : Type) where
  romBank : UInt8
  select : Selection
  ramEnabled : Bool
  clock : Option (RealTimeClock τ)
deriving Repr, Inhabited

namespace Mbc3

variable {τ : Type}

def initial (clock : Option (RealTimeClock τ)) : Mbc3 τ := ⟨1, .ram 0, false, clock⟩

def bank (m : Mbc3 τ) (count : Nat) : Nat := wrapBank m.romBank.toNat count

/-- What a write to the selection register selects; most values select nothing new. -/
def selection (m : Mbc3 τ) (val : UInt8) : Selection :=
  if val ≤ 0x03 then .ram val
  else if 0x08 ≤ val && val ≤ 0x0C then .clock val
  else m.select

end Mbc3

inductive Controller (τ : Type) where
  /-- No controller: two fixed banks. -/
  | fixed
  | mbc1 (registers : Mbc1)
  | mbc3 (registers : Mbc3 τ)
deriving Repr, Inhabited

def enablesRam (val : UInt8) : Bool := val &&& 0x0F = 0x0A

end DotMatrix
