import DotMatrix.Cpu.Alu

/-!
# Instructions

The instructions of the processor and their encoding. Eleven bytes encode nothing.
-/

namespace DotMatrix

inductive Operand where
  | register (r : ByteRegister)
  /-- The byte that HL points to. -/
  | atHl
deriving DecidableEq, Repr, Inhabited

def Operand.ofIndex (index : UInt8) : Operand :=
  match ByteRegister.ofIndex? (index &&& 0x07) with
  | some r => register r
  | none => atHl

inductive Condition where
  | notZero | zero | notCarry | carry
deriving DecidableEq, Repr, Inhabited

namespace Condition

def ofIndex (index : UInt8) : Condition :=
  match (index &&& 0x03).toNat with
  | 0 => notZero
  | 1 => zero
  | 2 => notCarry
  | _ => carry

def holds (r : Registers) : Condition → Bool
  | notZero => !r.flag Flag.zero
  | zero => r.flag Flag.zero
  | notCarry => !r.flag Flag.carry
  | carry => r.flag Flag.carry

end Condition

/-- Where the accumulator is loaded from or stored to; HL may move on or back afterwards. -/
inductive Pointer where
  | bc | de | hlUp | hlDown
deriving DecidableEq, Repr, Inhabited

def Pointer.ofIndex (index : UInt8) : Pointer :=
  match (index &&& 0x03).toNat with
  | 0 => bc
  | 1 => de
  | 2 => hlUp
  | _ => hlDown

inductive Instruction where
  | nop
  | stop
  | halt
  | disableInterrupts
  | enableInterrupts
  /-- Another byte says what to do. -/
  | prefixed
  | load (target source : Operand)
  | loadImmediate (target : Operand)
  | loadPair (pair : Pair)
  | loadIndirect (pointer : Pointer)
  | storeIndirect (pointer : Pointer)
  | loadAbsolute
  | storeAbsolute
  /-- The address is in the last page, at an offset that follows. -/
  | loadHigh
  | storeHigh
  /-- The address is in the last page, at the offset in C. -/
  | loadHighC
  | storeHighC
  | storeSp
  | loadSpHl
  | loadHlSp
  | addSp
  | push (pair : Pair)
  | pop (pair : Pair)
  | alu (op : Alu.Op) (source : Operand)
  | aluImmediate (op : Alu.Op)
  | increment (operand : Operand)
  | decrement (operand : Operand)
  | incrementPair (pair : Pair)
  | decrementPair (pair : Pair)
  | addHl (pair : Pair)
  | rotateA (op : Alu.Shift)
  | decimalAdjust
  | complement
  | setCarry
  | complementCarry
  | jump (condition : Option Condition)
  | jumpHl
  | jumpRelative (condition : Option Condition)
  | call (condition : Option Condition)
  | restart (vector : UInt8)
  | ret
  | retIf (condition : Condition)
  | retInterrupt
deriving DecidableEq, Repr, Inhabited

inductive PrefixedInstruction where
  | shift (op : Alu.Shift) (operand : Operand)
  | testBit (bit : Nat) (operand : Operand)
  | resetBit (bit : Nat) (operand : Operand)
  | setBit (bit : Nat) (operand : Operand)
deriving DecidableEq, Repr, Inhabited

namespace Instruction

/-- The instructions below `0x40`, by the middle and the lower three bits. -/
def decodeLow (op middle : UInt8) (lower : Nat) : Instruction :=
  let odd := anySet op 0x08
  let pair := Pair.ofIndexSp (op >>> 4)
  match lower with
  | 0 =>
    match middle.toNat with
    | 0 => nop
    | 1 => storeSp
    | 2 => stop
    | 3 => jumpRelative none
    | _ => jumpRelative (some (.ofIndex middle))
  | 1 => if odd then addHl pair else loadPair pair
  | 2 =>
    let pointer := Pointer.ofIndex (op >>> 4)
    if odd then loadIndirect pointer else storeIndirect pointer
  | 3 => if odd then decrementPair pair else incrementPair pair
  | 4 => increment (.ofIndex middle)
  | 5 => decrement (.ofIndex middle)
  | 6 => loadImmediate (.ofIndex middle)
  | _ =>
    match middle.toNat with
    | 4 => decimalAdjust
    | 5 => complement
    | 6 => setCarry
    | 7 => complementCarry
    | _ => rotateA (.ofIndex middle)

/-- The instructions from `0xC0` on, by the middle and the lower three bits. -/
def decodeHigh? (op middle : UInt8) (lower : Nat) : Option Instruction :=
  let pair := Pair.ofIndexAf (op >>> 4)
  let condition := Condition.ofIndex middle
  match lower, middle.toNat with
  | 0, 4 => some storeHigh
  | 0, 5 => some addSp
  | 0, 6 => some loadHigh
  | 0, 7 => some loadHlSp
  | 0, _ => some (retIf condition)
  | 1, 1 => some ret
  | 1, 3 => some retInterrupt
  | 1, 5 => some jumpHl
  | 1, 7 => some loadSpHl
  | 1, _ => some (pop pair)
  | 2, 4 => some storeHighC
  | 2, 5 => some storeAbsolute
  | 2, 6 => some loadHighC
  | 2, 7 => some loadAbsolute
  | 2, _ => some (jump (some condition))
  | 3, 0 => some (jump none)
  | 3, 1 => some prefixed
  | 3, 6 => some disableInterrupts
  | 3, 7 => some enableInterrupts
  | 3, _ => none
  | 4, n => if n < 4 then some (call (some condition)) else none
  | 5, 1 => some (call none)
  | 5, n => if n % 2 = 0 then some (push pair) else none
  | 6, _ => some (aluImmediate (.ofIndex middle))
  | _, _ => some (restart (op &&& 0x38))

def decode? (op : UInt8) : Option Instruction :=
  let middle := (op >>> 3) &&& 0x07
  let lower := op &&& 0x07
  match (op >>> 6).toNat with
  | 0 => some (decodeLow op middle lower.toNat)
  | 1 => if op = 0x76 then some halt else some (load (.ofIndex middle) (.ofIndex lower))
  | 2 => some (alu (.ofIndex middle) (.ofIndex lower))
  | _ => decodeHigh? op middle lower.toNat

end Instruction

def PrefixedInstruction.decode (op : UInt8) : PrefixedInstruction :=
  let middle := (op >>> 3) &&& 0x07
  let operand := Operand.ofIndex op
  match (op >>> 6).toNat with
  | 0 => shift (.ofIndex middle) operand
  | 1 => testBit middle.toNat operand
  | 2 => resetBit middle.toNat operand
  | _ => setBit middle.toNat operand

end DotMatrix
