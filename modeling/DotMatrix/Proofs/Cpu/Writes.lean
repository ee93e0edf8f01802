import DotMatrix.Proofs.Cpu.Duration
import DotMatrix.Proofs.Cpu.Traffic

/-!
# What a step writes

`writes` tells from the state before an instruction which bytes it writes to which addresses, in
the order in which it writes them (`bus_execute`). So a step changes the bus by a list of writes
that is known beforehand. All else that it does comes before them: it clears the flag of the
interrupt that it takes, and stopping clears the divider (`bus_step`).
-/

namespace DotMatrix

variable {τ : Type}

/-- The bytes that are written and their addresses, the first write first. -/
abbrev Writes := List (UInt16 × UInt8)

def Bus.perform [Timeline τ] (b : Bus τ) (writes : Writes) : Bus τ :=
  writes.foldl (fun b write => b.write write.1 write.2) b

/-- What an action makes of the bus before it writes. -/
def Action.opening (b : Bus τ) : Action → Bus τ
  | takes number => b.acknowledgeInterrupt ((1 : UInt8) <<< number.toUInt8)
  | executes .stop => b.resetDivider
  | _ => b

namespace Core

/-! ## The writes of an instruction -/

def pushWrites (s : Core τ) (val : UInt16) : Writes :=
  [(s.registers.sp - 1, Word.high val), (s.registers.sp - 2, Word.low val)]

def operandWrites (s : Core τ) (val : UInt8) : Operand → Writes
  | .register _ => []
  | .atHl => [(s.registers.hl, val)]

/-- The writes of an instruction both bytes of which have been fetched. -/
def prefixedWrites (s : Core τ) : PrefixedInstruction → Writes
  | .testBit _ _ => []
  | .shift op operand =>
    s.operandWrites (Alu.applyShift s.registers op (s.readOperand operand).1).1 operand
  | .resetBit bit operand =>
    s.operandWrites ((s.readOperand operand).1 &&& ~~~((1 : UInt8) <<< bit.toUInt8)) operand
  | .setBit bit operand =>
    s.operandWrites ((s.readOperand operand).1 ||| ((1 : UInt8) <<< bit.toUInt8)) operand

/-- The writes of an instruction whose opcode has been fetched. -/
def writes (s : Core τ) : Instruction → Writes
  | .prefixed => s.fetchByte.2.prefixedWrites (.decode s.fetchByte.1)
  | .load target source => s.operandWrites (s.readOperand source).1 target
  | .loadImmediate target => s.operandWrites s.fetchByte.1 target
  | .storeIndirect pointer => [((follow s.registers pointer).1, s.registers.a)]
  | .storeAbsolute => [(s.fetchWord.1, s.registers.a)]
  | .storeHigh => [(highPage s.fetchByte.1, s.registers.a)]
  | .storeHighC => [(highPage s.registers.c, s.registers.a)]
  | .storeSp =>
    [(s.fetchWord.1, Word.low s.registers.sp), (s.fetchWord.1 + 1, Word.high s.registers.sp)]
  | .push pair => s.pushWrites (s.registers.get pair)
  | .increment operand =>
    s.operandWrites (Alu.increment s.registers (s.readOperand operand).1).1 operand
  | .decrement operand =>
    s.operandWrites (Alu.decrement s.registers (s.readOperand operand).1).1 operand
  | .call condition => if s.meets condition then s.pushWrites s.fetchWord.2.registers.pc else []
  | .restart _ => s.pushWrites s.registers.pc
  | _ => []

theorem operandWrites_congr {s s' : Core τ} (h : s'.registers.hl = s.registers.hl) (val : UInt8)
    (operand : Operand) : s'.operandWrites val operand = s.operandWrites val operand := by
  cases operand with
  | register r => rfl
  | atHl => exact congrArg (fun addr => [(addr, val)]) h

/-! ## Instructions -/

section Instructions

variable [Timeline τ]

theorem bus_writeByte (s : Core τ) (addr : UInt16) (val : UInt8) :
    (s.writeByte addr val).bus = s.bus.write addr val := rfl

theorem bus_push (s : Core τ) (val : UInt16) :
    (s.push val).bus = s.bus.perform (s.pushWrites val) := rfl

theorem bus_call (s : Core τ) (addr : UInt16) :
    (s.call addr).bus = s.bus.perform (s.pushWrites s.registers.pc) := bus_push s.idle _

theorem bus_writeOperand (s : Core τ) (operand : Operand) (val : UInt8) :
    (s.writeOperand operand val).bus = s.bus.perform (s.operandWrites val operand) := by
  cases operand <;> rfl

/-- The result goes back to the operand that was read, also if flags were set in between. -/
theorem bus_writeBack (s : Core τ) (operand : Operand) (val : UInt8) {registers : Registers}
    (h : registers.hl = s.registers.hl) :
    (((s.readOperand operand).2.setRegisters registers).writeOperand operand val).bus =
      s.bus.perform (s.operandWrites val operand) := by
  rw [bus_writeOperand, bus_setRegisters, bus_readOperand, operandWrites_congr]
  exact h

omit [Timeline τ] in
theorem registers_readOperand (s : Core τ) (operand : Operand) :
    (s.readOperand operand).2.registers = s.registers := by
  cases operand <;> rfl

theorem bus_executePrefixed (s : Core τ) (instruction : PrefixedInstruction) :
    (s.executePrefixed instruction).bus = s.bus.perform (s.prefixedWrites instruction) := by
  cases instruction with
  | testBit bit operand => exact bus_readOperand s operand
  | shift op operand =>
    simp only [executePrefixed, prefixedWrites, registers_readOperand]
    exact bus_writeBack s operand _ rfl
  | resetBit bit operand =>
    simp only [executePrefixed, prefixedWrites]
    rw [bus_writeOperand, bus_readOperand]
    exact congrArg _ (operandWrites_congr (by rw [registers_readOperand]) _ operand)
  | setBit bit operand =>
    simp only [executePrefixed, prefixedWrites]
    rw [bus_writeOperand, bus_readOperand]
    exact congrArg _ (operandWrites_congr (by rw [registers_readOperand]) _ operand)

/-- An instruction performs its writes. Stopping, which writes nothing, clears the divider. -/
theorem bus_execute (s : Core τ) (enabling : Bool) (instruction : Instruction) :
    (s.execute enabling instruction).bus =
      ((Action.executes instruction).opening s.bus).perform (s.writes instruction) := by
  cases instruction with
  | stop => rfl
  | halt => exact bus_halt s enabling
  | prefixed => exact bus_executePrefixed s.fetchByte.2 _
  | load target source =>
    simp only [execute]
    rw [bus_writeOperand, bus_readOperand]
    exact congrArg _ (operandWrites_congr (by rw [registers_readOperand]) _ target)
  | loadImmediate target =>
    simp only [execute]
    rw [bus_writeOperand, bus_fetchByte]
    exact congrArg _ (operandWrites_congr rfl _ target)
  | alu op source => exact bus_readOperand s source
  | increment operand =>
    simp only [execute, registers_readOperand]
    exact bus_writeBack s operand _ rfl
  | decrement operand =>
    simp only [execute, registers_readOperand]
    exact bus_writeBack s operand _ rfl
  -- a jump that is not made is as quiet as one that is
  | jump condition =>
    simp only [execute]
    split <;> rfl
  | jumpRelative condition =>
    simp only [execute]
    split <;> rfl
  | retIf condition =>
    simp only [execute]
    split <;> rfl
  | call condition =>
    show (if s.fetchWord.2.meets condition then _ else _ : Core τ).bus = _
    simp only [(meets_fetch s condition).1, writes]
    split
    · exact bus_call s.fetchWord.2 _
    · rfl
  | restart vector => exact bus_call s _
  | storeSp =>
    have hbus : s.fetchWord.2.bus = s.bus := rfl
    have hsp : s.fetchWord.2.registers.sp = s.registers.sp := rfl
    simp only [execute, writes, bus_writeByte, Action.opening, Bus.perform, List.foldl, hbus, hsp]
  | _ => rfl

end Instructions

/-! ## Steps -/

/-- The writes of a step. -/
def stepWrites (cpu : Cpu) (bus : Bus τ) : Writes :=
  match stepAction cpu bus with
  | .takes _ => (prepared cpu bus).pushWrites cpu.registers.pc
  | .executes instruction => (prepared cpu bus).roused.fetched.2.writes instruction
  | _ => []

variable [Timeline τ]

theorem bus_executed (s : Core τ) (instruction : Instruction) :
    (s.executed instruction).bus =
      ((Action.executes instruction).opening s.bus).perform (s.fetched.2.writes instruction) := by
  rw [← bus_fetched s, ← bus_execute s.fetched.2 s.cpu.enabling]
  unfold executed
  dsimp only
  split <;> rfl

theorem bus_step (cpu : Cpu) (bus : Bus τ) :
    (step cpu bus).1.bus =
      ((stepAction cpu bus).opening bus.runDma.2).perform (stepWrites cpu bus) := by
  unfold stepWrites
  cases haction : stepAction cpu bus with
  | refuses =>
    rw [step_of_refuses haction]
    rfl
  | waits =>
    obtain ⟨mode, hstep⟩ := step_of_waits haction
    rw [hstep]
    rfl
  | takes number =>
    rw [step_of_takes haction]
    rfl
  | executes instruction =>
    rw [step_of_executes haction]
    exact bus_executed _ instruction
  | stumbles =>
    rw [step_of_stumbles haction, bus_fetched]
    rfl

end Core

end DotMatrix
