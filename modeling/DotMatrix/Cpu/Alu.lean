import DotMatrix.Cpu.Registers

/-!
# Arithmetic on bytes and words

What the processor computes, apart from where it is kept: a result, and which carries left the
low half and the whole of it.
-/

namespace DotMatrix.Alu

/-- A byte that was computed, with its half carry and its carry. -/
structure Outcome where
  value : UInt8
  halfCarry : Bool
  carry : Bool
deriving DecidableEq, Repr, Inhabited

def add (a b : UInt8) (carry : Bool) : Outcome :=
  let c := carry.toNat
  ⟨(a.toNat + b.toNat + c).toUInt8, 15 < a.toNat % 16 + b.toNat % 16 + c,
    255 < a.toNat + b.toNat + c⟩

def sub (a b : UInt8) (borrow : Bool) : Outcome :=
  let c := borrow.toNat
  ⟨a - b - c.toUInt8, a.toNat % 16 < b.toNat % 16 + c, a.toNat < b.toNat + c⟩

inductive Op where
  | add | adc | sub | sbc | and | xor | or | cp
deriving DecidableEq, Repr, Inhabited

def Op.ofIndex (index : UInt8) : Op :=
  match (index &&& 0x07).toNat with
  | 0 => add
  | 1 => adc
  | 2 => sub
  | 3 => sbc
  | 4 => and
  | 5 => xor
  | 6 => or
  | _ => cp

def addFlags (r : Registers) (o : Outcome) : Registers :=
  r.setFlags (o.value = 0) false o.halfCarry o.carry

def subFlags (r : Registers) (o : Outcome) : Registers :=
  r.setFlags (o.value = 0) true o.halfCarry o.carry

/-- Applies an operation to the accumulator; a comparison only sets the flags. -/
def apply (r : Registers) (op : Op) (val : UInt8) : Registers :=
  let carry := r.flag Flag.carry
  match op with
  | .add => let o := add r.a val false; { addFlags r o with a := o.value }
  | .adc => let o := add r.a val carry; { addFlags r o with a := o.value }
  | .sub => let o := sub r.a val false; { subFlags r o with a := o.value }
  | .sbc => let o := sub r.a val carry; { subFlags r o with a := o.value }
  | .cp => subFlags r (sub r.a val false)
  | .and =>
    let res := r.a &&& val
    { r.setFlags (res = 0) false true false with a := res }
  | .xor =>
    let res := r.a ^^^ val
    { r.setFlags (res = 0) false false false with a := res }
  | .or =>
    let res := r.a ||| val
    { r.setFlags (res = 0) false false false with a := res }

inductive Shift where
  | rlc | rrc | rl | rr | sla | sra | swap | srl
deriving DecidableEq, Repr, Inhabited

def Shift.ofIndex (index : UInt8) : Shift :=
  match (index &&& 0x07).toNat with
  | 0 => rlc
  | 1 => rrc
  | 2 => rl
  | 3 => rr
  | 4 => sla
  | 5 => sra
  | 6 => swap
  | _ => srl

/-- The byte that a shift yields, and the bit that it shifts out. -/
def shift (op : Shift) (val : UInt8) (carry : Bool) : UInt8 × Bool :=
  let top := anySet val 0x80
  let bottom := anySet val 0x01
  match op with
  | .rlc => ((val <<< 1) ||| bitsIf top 0x01, top)
  | .rrc => ((val >>> 1) ||| bitsIf bottom 0x80, bottom)
  | .rl => ((val <<< 1) ||| bitsIf carry 0x01, top)
  | .rr => ((val >>> 1) ||| bitsIf carry 0x80, bottom)
  | .sla => (val <<< 1, top)
  | .sra => ((val >>> 1) ||| bitsIf top 0x80, bottom)
  | .swap => ((val <<< 4) ||| (val >>> 4), false)
  | .srl => (val >>> 1, bottom)

def applyShift (r : Registers) (op : Shift) (val : UInt8) : UInt8 × Registers :=
  let (res, carry) := shift op val (r.flag Flag.carry)
  (res, r.setFlags (res = 0) false false carry)

/-- Adds one to a byte; the carry stays. -/
def increment (r : Registers) (val : UInt8) : UInt8 × Registers :=
  let res := val + 1
  (res, ((r.setFlag Flag.zero (res = 0)).setFlag Flag.subtract false).setFlag Flag.halfCarry
    (val &&& 0x0F = 0x0F))

/-- Takes one from a byte; the carry stays. -/
def decrement (r : Registers) (val : UInt8) : UInt8 × Registers :=
  let res := val - 1
  (res, ((r.setFlag Flag.zero (res = 0)).setFlag Flag.subtract true).setFlag Flag.halfCarry
    (val &&& 0x0F = 0))

def addHl (r : Registers) (val : UInt16) : Registers :=
  let hl := r.hl
  let r := r.setFlag Flag.subtract false
  let r := r.setFlag Flag.halfCarry (0x0FFF < hl.toNat % 0x1000 + val.toNat % 0x1000)
  let r := r.setFlag Flag.carry (0xFFFF < hl.toNat + val.toNat)
  r.setHl (hl + val)

/-- The stack pointer plus a signed offset. For the flags the offset has no sign, and is added to
the low byte of the stack pointer. -/
def spPlus (r : Registers) (offset : UInt8) : UInt16 × Registers :=
  let halfCarry := 0x0F < (r.sp &&& 0x0F) + (offset.toUInt16 &&& 0x0F)
  let carry := 0xFF < (r.sp &&& 0xFF) + offset.toUInt16
  (r.sp + Word.signExtend offset, r.setFlags false false halfCarry carry)

/-- Corrects the accumulator after an addition or subtraction of packed decimals. -/
def decimalAdjust (r : Registers) : Registers :=
  let subtract := r.flag Flag.subtract
  -- after a subtraction the flags alone say which digits were borrowed from
  let low := r.flag Flag.halfCarry || (!subtract && 9 < r.a &&& 0x0F)
  let high := r.flag Flag.carry || (!subtract && 0x99 < r.a)
  let correction := bitsIf low 0x06 ||| bitsIf high 0x60
  let res := if subtract then r.a - correction else r.a + correction
  { r.setFlags (res = 0) subtract false high with a := res }

def complement (r : Registers) : Registers :=
  ({ r with a := ~~~r.a }.setFlag Flag.subtract true).setFlag Flag.halfCarry true

def putCarry (r : Registers) (carry : Bool) : Registers :=
  ((r.setFlag Flag.subtract false).setFlag Flag.halfCarry false).setFlag Flag.carry carry

def testBit (r : Registers) (bit : Nat) (val : UInt8) : Registers :=
  ((r.setFlag Flag.zero (!val.toNat.testBit bit)).setFlag Flag.subtract false).setFlag
    Flag.halfCarry true

end DotMatrix.Alu
