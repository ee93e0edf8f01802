import DotMatrix.Proofs.Cpu.Action

/-!
# How long a step takes

Every access to the bus takes a machine cycle, and some instructions idle for more. `duration`
tells from the state before an instruction how many machine cycles it takes after its opcode was
fetched (`cycles_execute`). So a step takes at least one machine cycle and at most six
(`step_lasts`).
-/

namespace DotMatrix

/-- Accesses to the bus that reading or writing an operand takes. -/
def Operand.accesses : Operand → Nat
  | register _ => 0
  | atHl => 1

theorem Operand.accesses_le (operand : Operand) : operand.accesses ≤ 1 := by
  cases operand with
  | register r => exact Nat.zero_le 1
  | atHl => exact Nat.le_refl 1

namespace PrefixedInstruction

/-- Machine cycles after both bytes of the instruction were fetched. -/
def duration : PrefixedInstruction → Nat
  | testBit _ operand => operand.accesses
  | shift _ operand | resetBit _ operand | setBit _ operand => 2 * operand.accesses

theorem duration_le (instruction : PrefixedInstruction) : instruction.duration ≤ 2 := by
  cases instruction with
  | testBit bit operand => exact Nat.le_succ_of_le operand.accesses_le
  | shift op operand => exact Nat.mul_le_mul_left 2 operand.accesses_le
  | resetBit bit operand => exact Nat.mul_le_mul_left 2 operand.accesses_le
  | setBit bit operand => exact Nat.mul_le_mul_left 2 operand.accesses_le

end PrefixedInstruction

namespace Core

variable {τ : Type}

/-- Whether an instruction that has this condition takes effect. -/
def meets (s : Core τ) (condition : Option Condition) : Bool :=
  condition.all (·.holds s.registers)

/-- The machine cycles that an instruction takes after its opcode was fetched. -/
def duration (s : Core τ) : Instruction → Nat
  | .nop | .halt | .disableInterrupts | .enableInterrupts | .rotateA _ | .decimalAdjust
  | .complement | .setCarry | .complementCarry | .jumpHl => 0
  | .stop | .aluImmediate _ | .loadIndirect _ | .storeIndirect _ | .loadHighC | .storeHighC
  | .loadSpHl | .incrementPair _ | .decrementPair _ | .addHl _ => 1
  | .loadPair _ | .loadHigh | .storeHigh | .loadHlSp | .pop _ => 2
  | .loadAbsolute | .storeAbsolute | .addSp | .push _ | .restart _ | .ret | .retInterrupt => 3
  | .storeSp => 4
  | .prefixed => 1 + (PrefixedInstruction.decode s.fetchByte.1).duration
  | .load target source => source.accesses + target.accesses
  | .loadImmediate target => 1 + target.accesses
  | .alu _ source => source.accesses
  | .increment operand | .decrement operand => 2 * operand.accesses
  | .jump condition => if s.meets condition then 3 else 2
  | .jumpRelative condition => if s.meets condition then 2 else 1
  | .call condition => if s.meets condition then 5 else 2
  | .retIf condition => if s.meets (some condition) then 4 else 1

theorem duration_le (s : Core τ) (instruction : Instruction) : s.duration instruction ≤ 5 := by
  cases instruction with
  | prefixed =>
    have := (PrefixedInstruction.decode s.fetchByte.1).duration_le
    simp only [duration]
    omega
  | load target source =>
    have := source.accesses_le
    have := target.accesses_le
    simp only [duration]
    omega
  | loadImmediate operand | alu _ operand | increment operand | decrement operand =>
    have := operand.accesses_le
    simp only [duration]
    omega
  -- a condition chooses between two lengths
  | jump condition | jumpRelative condition | call condition | retIf condition =>
    simp only [duration]
    split <;> decide
  | _ => simp [duration]

/-! ## Parts of an instruction -/

section Parts

@[simp] theorem cycles_setRegisters (s : Core τ) (registers : Registers) :
    (s.setRegisters registers).cycles = s.cycles := rfl

@[simp] theorem cycles_idle (s : Core τ) : s.idle.cycles = s.cycles + machineCycle := rfl

@[simp] theorem cycles_fetchByte (s : Core τ) :
    s.fetchByte.2.cycles = s.cycles + machineCycle := rfl

@[simp] theorem cycles_fetchWord (s : Core τ) :
    s.fetchWord.2.cycles = s.cycles + 2 * machineCycle := rfl

@[simp] theorem cycles_pop (s : Core τ) : s.pop.2.cycles = s.cycles + 2 * machineCycle := rfl

@[simp] theorem cycles_jumpTo (s : Core τ) (addr : UInt16) :
    (s.jumpTo addr).cycles = s.cycles + machineCycle := rfl

@[simp] theorem cycles_jumpBy (s : Core τ) (offset : UInt8) :
    (s.jumpBy offset).cycles = s.cycles + machineCycle := rfl

@[simp] theorem cycles_ret (s : Core τ) : s.ret.cycles = s.cycles + 3 * machineCycle := rfl

@[simp] theorem cycles_readOperand (s : Core τ) (operand : Operand) :
    (s.readOperand operand).2.cycles = s.cycles + operand.accesses * machineCycle := by
  cases operand <;> rfl

@[simp] theorem cycles_halt (s : Core τ) (enabling : Bool) :
    (s.halt enabling).cycles = s.cycles := by
  unfold halt
  dsimp only
  split
  · rfl
  · split <;> rfl

variable [Timeline τ]

@[simp] theorem cycles_writeByte (s : Core τ) (addr : UInt16) (val : UInt8) :
    (s.writeByte addr val).cycles = s.cycles + machineCycle := rfl

@[simp] theorem cycles_push (s : Core τ) (val : UInt16) :
    (s.push val).cycles = s.cycles + 2 * machineCycle := rfl

@[simp] theorem cycles_call (s : Core τ) (addr : UInt16) :
    (s.call addr).cycles = s.cycles + 3 * machineCycle := rfl

@[simp] theorem cycles_writeOperand (s : Core τ) (operand : Operand) (val : UInt8) :
    (s.writeOperand operand val).cycles = s.cycles + operand.accesses * machineCycle := by
  cases operand <;> rfl

end Parts

/-! ## Instructions -/

section Instructions

variable [Timeline τ]

theorem cycles_executePrefixed (s : Core τ) (instruction : PrefixedInstruction) :
    (s.executePrefixed instruction).cycles = s.cycles + instruction.duration * machineCycle := by
  cases instruction with
  | testBit bit operand => simp [executePrefixed, PrefixedInstruction.duration]
  -- the others write back what they have read
  | _ => simp [executePrefixed, PrefixedInstruction.duration, Nat.add_mul, Nat.two_mul,
      Nat.add_assoc]

omit [Timeline τ] in
/-- Reading what an instruction is followed by does not change its condition. -/
theorem meets_fetch (s : Core τ) (condition : Option Condition) :
    s.fetchWord.2.meets condition = s.meets condition ∧
      s.fetchByte.2.meets condition = s.meets condition := by
  cases condition with
  | none => exact ⟨rfl, rfl⟩
  | some c => cases c <;> exact ⟨rfl, rfl⟩

theorem cycles_execute (s : Core τ) (enabling : Bool) (instruction : Instruction) :
    (s.execute enabling instruction).cycles =
      s.cycles + s.duration instruction * machineCycle := by
  cases instruction with
  | halt => simp [execute, duration]
  | prefixed =>
    have hprefixed := cycles_executePrefixed s.fetchByte.2 (.decode s.fetchByte.1)
    rw [cycles_fetchByte] at hprefixed
    refine hprefixed.trans ?_
    simp only [duration, Nat.add_mul]
    omega
  | load target source => simp [execute, duration, Nat.add_mul, Nat.add_assoc]
  | loadImmediate target => simp [execute, duration, Nat.add_mul, Nat.add_assoc]
  | alu op source => simp [execute, duration]
  | increment operand => simp [execute, duration, Nat.add_mul, Nat.two_mul, Nat.add_assoc]
  | decrement operand => simp [execute, duration, Nat.add_mul, Nat.two_mul, Nat.add_assoc]
  -- the condition is looked at after the address was fetched
  | jump condition =>
    show (if s.fetchWord.2.meets condition then _ else _ : Core τ).cycles = _
    simp only [(meets_fetch s condition).1, duration]
    split <;> rfl
  | jumpRelative condition =>
    show (if s.fetchByte.2.meets condition then _ else _ : Core τ).cycles = _
    simp only [(meets_fetch s condition).2, duration]
    split <;> rfl
  | call condition =>
    show (if s.fetchWord.2.meets condition then _ else _ : Core τ).cycles = _
    simp only [(meets_fetch s condition).1, duration]
    split <;> rfl
  | retIf condition =>
    show (if s.meets (some condition) then _ else _ : Core τ).cycles = _
    simp only [duration]
    split <;> rfl
  | _ => rfl

end Instructions

/-! ## Steps -/

theorem cycles_fetched (s : Core τ) : s.fetched.2.cycles = s.cycles + machineCycle := by
  unfold fetched fetchOpcode
  split <;> rfl

variable [Timeline τ]

theorem cycles_executed (s : Core τ) (instruction : Instruction) :
    (s.executed instruction).cycles =
      s.cycles + (1 + s.fetched.2.duration instruction) * machineCycle := by
  have hdone := cycles_execute s.fetched.2 s.cpu.enabling instruction
  rw [cycles_fetched] at hdone
  have hsum : (s.fetched.2.execute s.cpu.enabling instruction).cycles =
      s.cycles + (1 + s.fetched.2.duration instruction) * machineCycle := by
    rw [hdone, Nat.add_mul]
    omega
  unfold executed
  dsimp only
  split
  · exact hsum
  · exact hsum

/-- A step without a fault takes one machine cycle to six. -/
theorem step_lasts {cpu : Cpu} {bus : Bus τ} (h : (step cpu bus).2 = none) :
    ∃ n, 1 ≤ n ∧ n ≤ 6 ∧ (step cpu bus).1.cycles = n * machineCycle := by
  cases haction : stepAction cpu bus with
  | waits =>
    obtain ⟨mode, hstep⟩ := step_of_waits haction
    rw [hstep]
    exact ⟨1, by decide, by decide, rfl⟩
  | takes number =>
    rw [step_of_takes haction]
    exact ⟨5, by decide, by decide, rfl⟩
  | executes instruction =>
    have hle := duration_le (prepared cpu bus).roused.fetched.2 instruction
    rw [step_of_executes haction, cycles_executed]
    refine ⟨_, Nat.le_add_right 1 _, by omega, Nat.zero_add _⟩
  -- a refusal and an opcode that is no instruction are faults
  | refuses =>
    rw [step_of_refuses haction] at h
    cases h
  | stumbles =>
    rw [step_of_stumbles haction] at h
    cases h

end Core

end DotMatrix
