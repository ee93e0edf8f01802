import DotMatrix.Word

/-!
# Register file

Eight byte registers, of which six pair up into words, a stack pointer and a program counter.
The low nibble of the flags register reads zero after every write to it as a whole.
-/

namespace DotMatrix

inductive Pair where
  | af | bc | de | hl | sp
deriving DecidableEq, Repr, Inhabited

inductive ByteRegister where
  | b | c | d | e | h | l | a
deriving DecidableEq, Repr, Inhabited

namespace Pair

/-- The pair selected by two bits in loads, increments and additions. -/
def ofIndexSp (index : UInt8) : Pair :=
  match (index &&& 0x03).toNat with
  | 0 => bc
  | 1 => de
  | 2 => hl
  | _ => sp

/-- The pair selected by two bits in pushes and pops. -/
def ofIndexAf (index : UInt8) : Pair :=
  match (index &&& 0x03).toNat with
  | 0 => bc
  | 1 => de
  | 2 => hl
  | _ => af

end Pair

/-- The register selected by an operand index; index 6 names memory and the rest nothing. -/
def ByteRegister.ofIndex? (index : UInt8) : Option ByteRegister :=
  match index.toNat with
  | 0 => some b
  | 1 => some c
  | 2 => some d
  | 3 => some e
  | 4 => some h
  | 5 => some l
  | 7 => some a
  | _ => none

/-! Flag bits of the flags register. -/

def Flag.zero : UInt8 := 0x80
def Flag.subtract : UInt8 := 0x40
def Flag.halfCarry : UInt8 := 0x20
def Flag.carry : UInt8 := 0x10

structure Registers where
  a : UInt8
  f : UInt8
  b : UInt8
  c : UInt8
  d : UInt8
  e : UInt8
  h : UInt8
  l : UInt8
  sp : UInt16
  pc : UInt16
deriving DecidableEq, Repr, Inhabited

namespace Registers

/-- All registers zero, at the entry of the boot image. -/
def powerOn : Registers := ⟨0, 0, 0, 0, 0, 0, 0, 0, 0, 0⟩

/-- The registers that the boot program leaves when it hands over at `0x0100`. -/
def postBoot : Registers := ⟨0x01, 0xB0, 0x00, 0x13, 0x00, 0xD8, 0x01, 0x4D, 0xFFFE, 0x0100⟩

/-- Replaces the flags register; its low nibble does not exist. -/
def setF (r : Registers) (val : UInt8) : Registers := { r with f := val &&& 0xF0 }

def get (r : Registers) : Pair → UInt16
  | .af => Word.ofBytes r.a r.f
  | .bc => Word.ofBytes r.b r.c
  | .de => Word.ofBytes r.d r.e
  | .hl => Word.ofBytes r.h r.l
  | .sp => r.sp

def set (r : Registers) (pair : Pair) (val : UInt16) : Registers :=
  match pair with
  | .af => setF { r with a := Word.high val } (Word.low val)
  | .bc => { r with b := Word.high val, c := Word.low val }
  | .de => { r with d := Word.high val, e := Word.low val }
  | .hl => { r with h := Word.high val, l := Word.low val }
  | .sp => { r with sp := val }

def hl (r : Registers) : UInt16 := r.get .hl

def setHl (r : Registers) (val : UInt16) : Registers := r.set .hl val

def getByte (r : Registers) : ByteRegister → UInt8
  | .b => r.b
  | .c => r.c
  | .d => r.d
  | .e => r.e
  | .h => r.h
  | .l => r.l
  | .a => r.a

def setByte (r : Registers) (reg : ByteRegister) (val : UInt8) : Registers :=
  match reg with
  | .b => { r with b := val }
  | .c => { r with c := val }
  | .d => { r with d := val }
  | .e => { r with e := val }
  | .h => { r with h := val }
  | .l => { r with l := val }
  | .a => { r with a := val }

def getIndex (r : Registers) (index : UInt8) : UInt8 :=
  match ByteRegister.ofIndex? index with
  | some reg => r.getByte reg
  | none => 0xFF

def setIndex (r : Registers) (index val : UInt8) : Registers :=
  match ByteRegister.ofIndex? index with
  | some reg => r.setByte reg val
  | none => r

def flag (r : Registers) (mask : UInt8) : Bool := anySet r.f mask

def setFlag (r : Registers) (mask : UInt8) (on : Bool) : Registers :=
  { r with f := if on then r.f ||| mask else r.f &&& ~~~mask }

def setFlags (r : Registers) (zero subtract halfCarry carry : Bool) : Registers :=
  { r with f := bitsIf zero Flag.zero ||| bitsIf subtract Flag.subtract
                ||| bitsIf halfCarry Flag.halfCarry ||| bitsIf carry Flag.carry }

end Registers

end DotMatrix
