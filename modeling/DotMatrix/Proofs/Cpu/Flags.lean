import DotMatrix.Proofs.Cpu.Writes

/-!
# The flags register

Half of the flags register does not exist. An instruction that computes sets flags one by one or
all of them anew, and the only way to write the register as a whole is to load the pair that it
belongs to, which masks it. So the low nibble is zero before and after every step
(`onlyFlags_step`).
-/

namespace DotMatrix

namespace Registers

/-- There is nothing in the flags register but flags. -/
def OnlyFlags (r : Registers) : Prop := r.f &&& 0x0F = 0

theorem onlyFlags_powerOn : powerOn.OnlyFlags := by
  unfold OnlyFlags
  decide

theorem onlyFlags_postBoot : postBoot.OnlyFlags := by
  unfold OnlyFlags
  decide

theorem onlyFlags_setFlags (r : Registers) (zero subtract halfCarry carry : Bool) :
    (r.setFlags zero subtract halfCarry carry).OnlyFlags := by
  have hall : ∀ zero subtract halfCarry carry : Bool,
      (bitsIf zero Flag.zero ||| bitsIf subtract Flag.subtract ||| bitsIf halfCarry Flag.halfCarry
        ||| bitsIf carry Flag.carry) &&& 0x0F = 0 := by
    decide
  exact hall zero subtract halfCarry carry

theorem onlyFlags_setF (r : Registers) (val : UInt8) : (r.setF val).OnlyFlags := by
  show val &&& 0xF0 &&& 0x0F = 0
  rw [UInt8.and_assoc]
  exact UInt8.and_zero

namespace OnlyFlags

variable {r : Registers} (h : r.OnlyFlags)
include h

theorem setFlag {mask : UInt8} (hmask : mask &&& 0x0F = 0) (on : Bool) :
    (r.setFlag mask on).OnlyFlags := by
  unfold OnlyFlags at *
  unfold Registers.setFlag
  cases on with
  | true =>
    show (r.f ||| mask) &&& 0x0F = 0
    rw [or_and, h, hmask]
    exact UInt8.or_self
  | false =>
    show r.f &&& ~~~mask &&& 0x0F = 0
    rw [UInt8.and_assoc, UInt8.and_comm (~~~mask), ← UInt8.and_assoc, h]
    exact UInt8.zero_and

theorem set (pair : Pair) (val : UInt16) : (r.set pair val).OnlyFlags := by
  cases pair with
  | af => exact onlyFlags_setF _ _
  | _ => exact h

theorem setByte (reg : ByteRegister) (val : UInt8) : (r.setByte reg val).OnlyFlags := by
  cases reg <;> exact h

end OnlyFlags

end Registers

/-! ## What is computed -/

namespace Alu

/-- The operations of the accumulator set all flags. -/
theorem onlyFlags_apply (r : Registers) (op : Op) (val : UInt8) :
    (apply r op val).OnlyFlags := by
  cases op <;> exact r.onlyFlags_setFlags _ _ _ _

theorem onlyFlags_applyShift (r : Registers) (op : Shift) (val : UInt8) :
    (applyShift r op val).2.OnlyFlags := r.onlyFlags_setFlags _ _ _ _

theorem onlyFlags_spPlus (r : Registers) (offset : UInt8) : (spPlus r offset).2.OnlyFlags :=
  r.onlyFlags_setFlags _ _ _ _

theorem onlyFlags_decimalAdjust (r : Registers) : (decimalAdjust r).OnlyFlags :=
  r.onlyFlags_setFlags _ _ _ _

section

variable {r : Registers} (h : r.OnlyFlags)
include h

theorem onlyFlags_increment (val : UInt8) : (increment r val).2.OnlyFlags :=
  ((h.setFlag rfl _).setFlag rfl _).setFlag rfl _

theorem onlyFlags_decrement (val : UInt8) : (decrement r val).2.OnlyFlags :=
  ((h.setFlag rfl _).setFlag rfl _).setFlag rfl _

theorem onlyFlags_addHl (val : UInt16) : (addHl r val).OnlyFlags :=
  (((h.setFlag rfl _).setFlag rfl _).setFlag rfl _).set .hl _

theorem onlyFlags_complement : (complement r).OnlyFlags :=
  have hnot : Registers.OnlyFlags { r with a := ~~~r.a } := h
  (hnot.setFlag rfl _).setFlag rfl _

theorem onlyFlags_putCarry (carry : Bool) : (putCarry r carry).OnlyFlags :=
  ((h.setFlag rfl _).setFlag rfl _).setFlag rfl _

theorem onlyFlags_testBit (bit : Nat) (val : UInt8) : (testBit r bit val).OnlyFlags :=
  ((h.setFlag rfl _).setFlag rfl _).setFlag rfl _

end

end Alu

namespace Core

variable {τ : Type}

/-! ## Parts of an instruction -/

section Parts

theorem onlyFlags_readOperand {s : Core τ} (h : s.registers.OnlyFlags) (operand : Operand) :
    (s.readOperand operand).2.registers.OnlyFlags := by
  rw [registers_readOperand]
  exact h

theorem onlyFlags_halt {s : Core τ} (h : s.registers.OnlyFlags) (enabling : Bool) :
    (s.halt enabling).registers.OnlyFlags := by
  unfold halt
  dsimp only
  split
  · exact h
  · split <;> exact h

theorem onlyFlags_follow {r : Registers} (h : r.OnlyFlags) (pointer : Pointer) :
    (follow r pointer).2.OnlyFlags := by
  cases pointer <;> exact h

variable [Timeline τ]

theorem onlyFlags_writeOperand {s : Core τ} (h : s.registers.OnlyFlags) (operand : Operand)
    (val : UInt8) : (s.writeOperand operand val).registers.OnlyFlags := by
  cases operand with
  | register r => exact h.setByte r val
  | atHl => exact h

theorem registers_call (s : Core τ) (addr : UInt16) :
    (s.call addr).registers = { s.registers with sp := s.registers.sp - 2, pc := addr } := rfl

theorem onlyFlags_call {s : Core τ} (h : s.registers.OnlyFlags) (addr : UInt16) :
    (s.call addr).registers.OnlyFlags := by
  rw [registers_call]
  exact h

/-- The result goes back to the operand that was read, after the flags were set. -/
theorem onlyFlags_writeBack (s : Core τ) {registers : Registers} (h : registers.OnlyFlags)
    (operand : Operand) (val : UInt8) :
    ((s.setRegisters registers).writeOperand operand val).registers.OnlyFlags :=
  onlyFlags_writeOperand (s := s.setRegisters registers) h operand val

end Parts

/-! ## Instructions -/

section Instructions

variable [Timeline τ]

theorem onlyFlags_executePrefixed {s : Core τ} (h : s.registers.OnlyFlags)
    (instruction : PrefixedInstruction) :
    (s.executePrefixed instruction).registers.OnlyFlags := by
  cases instruction with
  | shift op operand => exact onlyFlags_writeBack _ (Alu.onlyFlags_applyShift _ op _) operand _
  | testBit bit operand => exact Alu.onlyFlags_testBit (onlyFlags_readOperand h operand) bit _
  | resetBit bit operand => exact onlyFlags_writeOperand (onlyFlags_readOperand h operand) _ _
  | setBit bit operand => exact onlyFlags_writeOperand (onlyFlags_readOperand h operand) _ _

theorem onlyFlags_execute {s : Core τ} (h : s.registers.OnlyFlags) (enabling : Bool)
    (instruction : Instruction) : (s.execute enabling instruction).registers.OnlyFlags := by
  cases instruction with
  | halt => exact onlyFlags_halt h enabling
  | prefixed => exact onlyFlags_executePrefixed (s := s.fetchByte.2) h _
  -- a result goes to any register but the flags
  | load target source => exact onlyFlags_writeOperand (onlyFlags_readOperand h source) target _
  | loadImmediate target => exact onlyFlags_writeOperand (s := s.fetchByte.2) h target _
  | increment operand =>
    exact onlyFlags_writeBack _ (Alu.onlyFlags_increment (onlyFlags_readOperand h operand) _)
      operand _
  | decrement operand =>
    exact onlyFlags_writeBack _ (Alu.onlyFlags_decrement (onlyFlags_readOperand h operand) _)
      operand _
  -- the flags are loaded with the accumulator as a pair
  | loadPair pair => exact Registers.OnlyFlags.set (r := s.fetchWord.2.registers) h pair _
  | pop pair => exact Registers.OnlyFlags.set (r := s.pop.2.registers) h pair _
  | incrementPair pair => exact h.set pair _
  | decrementPair pair => exact h.set pair _
  | loadIndirect pointer => exact onlyFlags_follow h pointer
  | storeIndirect pointer => exact onlyFlags_follow h pointer
  -- arithmetic sets flags
  | alu op source => exact Alu.onlyFlags_apply _ op _
  | aluImmediate op => exact Alu.onlyFlags_apply _ op _
  | addHl pair => exact Alu.onlyFlags_addHl h _
  | addSp => exact Alu.onlyFlags_spPlus _ _
  | loadHlSp => exact Alu.onlyFlags_spPlus _ _
  | rotateA op =>
    have hshift := Alu.onlyFlags_applyShift s.registers op s.registers.a
    exact Registers.OnlyFlags.setFlag
      (r := { (Alu.applyShift s.registers op s.registers.a).2 with a := _ }) hshift rfl false
  | decimalAdjust => exact Alu.onlyFlags_decimalAdjust _
  | complement => exact Alu.onlyFlags_complement h
  | setCarry => exact Alu.onlyFlags_putCarry h true
  | complementCarry => exact Alu.onlyFlags_putCarry h _
  -- whether the condition holds or not
  | jump condition =>
    simp only [execute]
    split <;> exact h
  | jumpRelative condition =>
    simp only [execute]
    split <;> exact h
  | call condition =>
    simp only [execute]
    split
    · exact onlyFlags_call (s := s.fetchWord.2) h _
    · exact h
  | restart vector => exact onlyFlags_call h _
  | retIf condition =>
    simp only [execute]
    split <;> exact h
  | _ => exact h

end Instructions

/-! ## Steps -/

theorem onlyFlags_fetched {s : Core τ} (h : s.registers.OnlyFlags) :
    s.fetched.2.registers.OnlyFlags := by
  unfold fetched fetchOpcode
  split <;> exact h

variable [Timeline τ]

theorem onlyFlags_executed {s : Core τ} (h : s.registers.OnlyFlags) (instruction : Instruction) :
    (s.executed instruction).registers.OnlyFlags := by
  have hdone := onlyFlags_execute (onlyFlags_fetched h) s.cpu.enabling instruction
  unfold executed
  dsimp only
  split <;> exact hdone

theorem onlyFlags_step {cpu : Cpu} (h : cpu.registers.OnlyFlags) (bus : Bus τ) :
    (step cpu bus).1.cpu.registers.OnlyFlags := by
  cases haction : stepAction cpu bus with
  | refuses =>
    rw [step_of_refuses haction]
    exact h
  | waits =>
    obtain ⟨mode, hstep⟩ := step_of_waits haction
    rw [hstep]
    exact h
  | takes number =>
    rw [step_of_takes haction]
    exact h
  | executes instruction =>
    rw [step_of_executes haction]
    exact onlyFlags_executed (s := (prepared cpu bus).roused) h instruction
  | stumbles =>
    rw [step_of_stumbles haction]
    exact onlyFlags_fetched (s := (prepared cpu bus).roused) h

end Core

end DotMatrix
