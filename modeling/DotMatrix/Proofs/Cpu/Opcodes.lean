import DotMatrix.Proofs.Cpu.Halt
import DotMatrix.Proofs.Cpu.Writes
import DotMatrix.Proofs.Machine.Run

/-!
# The opcode tables

Two tables say of each opcode how many machine cycles it takes and how many bytes it is long. An
instruction whose condition holds takes longer, and so does an instruction behind the prefix that
works on memory. Nothing else matters: the tables hold of every step, in every state of the
processor and whatever is on its bus (`step_follows_tables`).
-/

namespace DotMatrix

namespace Opcode

/-! ## The tables -/

/-- Machine cycles, for conditions that do not hold and, behind the prefix, for instructions on
registers. Bytes that encode nothing have none. -/
def cycleTable : List Nat :=
  [1, 3, 2, 2, 1, 1, 2, 1, 5, 2, 2, 2, 1, 1, 2, 1,
   2, 3, 2, 2, 1, 1, 2, 1, 3, 2, 2, 2, 1, 1, 2, 1,
   2, 3, 2, 2, 1, 1, 2, 1, 2, 2, 2, 2, 1, 1, 2, 1,
   2, 3, 2, 2, 3, 3, 3, 1, 2, 2, 2, 2, 1, 1, 2, 1,
   1, 1, 1, 1, 1, 1, 2, 1, 1, 1, 1, 1, 1, 1, 2, 1,
   1, 1, 1, 1, 1, 1, 2, 1, 1, 1, 1, 1, 1, 1, 2, 1,
   1, 1, 1, 1, 1, 1, 2, 1, 1, 1, 1, 1, 1, 1, 2, 1,
   2, 2, 2, 2, 2, 2, 1, 2, 1, 1, 1, 1, 1, 1, 2, 1,
   1, 1, 1, 1, 1, 1, 2, 1, 1, 1, 1, 1, 1, 1, 2, 1,
   1, 1, 1, 1, 1, 1, 2, 1, 1, 1, 1, 1, 1, 1, 2, 1,
   1, 1, 1, 1, 1, 1, 2, 1, 1, 1, 1, 1, 1, 1, 2, 1,
   1, 1, 1, 1, 1, 1, 2, 1, 1, 1, 1, 1, 1, 1, 2, 1,
   2, 3, 3, 4, 3, 4, 2, 4, 2, 4, 3, 2, 3, 6, 2, 4,
   2, 3, 3, 0, 3, 4, 2, 4, 2, 4, 3, 0, 3, 0, 2, 4,
   3, 3, 2, 0, 0, 4, 2, 4, 4, 1, 4, 0, 0, 0, 2, 4,
   3, 3, 2, 1, 0, 4, 2, 4, 3, 2, 4, 1, 0, 0, 2, 4]

/-- Bytes of the instruction, its opcode among them. -/
def lengthTable : List Nat :=
  [1, 3, 1, 1, 1, 1, 2, 1, 3, 1, 1, 1, 1, 1, 2, 1,
   2, 3, 1, 1, 1, 1, 2, 1, 2, 1, 1, 1, 1, 1, 2, 1,
   2, 3, 1, 1, 1, 1, 2, 1, 2, 1, 1, 1, 1, 1, 2, 1,
   2, 3, 1, 1, 1, 1, 2, 1, 2, 1, 1, 1, 1, 1, 2, 1,
   1, 1, 1, 1, 1, 1, 1, 1, 1, 1, 1, 1, 1, 1, 1, 1,
   1, 1, 1, 1, 1, 1, 1, 1, 1, 1, 1, 1, 1, 1, 1, 1,
   1, 1, 1, 1, 1, 1, 1, 1, 1, 1, 1, 1, 1, 1, 1, 1,
   1, 1, 1, 1, 1, 1, 1, 1, 1, 1, 1, 1, 1, 1, 1, 1,
   1, 1, 1, 1, 1, 1, 1, 1, 1, 1, 1, 1, 1, 1, 1, 1,
   1, 1, 1, 1, 1, 1, 1, 1, 1, 1, 1, 1, 1, 1, 1, 1,
   1, 1, 1, 1, 1, 1, 1, 1, 1, 1, 1, 1, 1, 1, 1, 1,
   1, 1, 1, 1, 1, 1, 1, 1, 1, 1, 1, 1, 1, 1, 1, 1,
   1, 1, 3, 3, 3, 1, 2, 1, 1, 1, 3, 2, 3, 3, 2, 1,
   1, 1, 3, 0, 3, 1, 2, 1, 1, 1, 3, 0, 3, 0, 2, 1,
   2, 1, 1, 0, 0, 1, 2, 1, 2, 1, 3, 0, 0, 0, 2, 1,
   2, 1, 1, 1, 0, 1, 2, 1, 2, 1, 3, 1, 0, 0, 2, 1]

/-- The bytes that encode nothing. -/
def undefined : List UInt8 :=
  [0xD3, 0xDB, 0xDD, 0xE3, 0xE4, 0xEB, 0xEC, 0xED, 0xF4, 0xFC, 0xFD]

/-- Machine cycles of an instruction that has a condition, when the condition holds. Bits 3 and 4
of its opcode say which condition it is. -/
def takenCycles? (op : UInt8) : Option Nat :=
  match (op &&& 0xE7).toNat with
  -- relative jump, return, jump and call
  | 0x20 => some 3
  | 0xC0 => some 5
  | 0xC2 => some 4
  | 0xC4 => some 6
  | _ => none

/-- Machine cycles for memory that an instruction behind the prefix works on: a bit is only looked
at, all else is written back. -/
def prefixedCycles (second : UInt8) : Nat :=
  if second &&& 0x07 ≠ 0x06 then 0 else if second &&& 0xC0 = 0x40 then 1 else 2

/-- Machine cycles of an opcode that is followed by a byte, if the condition that it may have holds
or not. -/
def cycles (op second : UInt8) (met : Bool) : Nat :=
  (if met then (takenCycles? op).getD (cycleTable.getD op.toNat 0)
    else cycleTable.getD op.toNat 0) +
    if op = 0xCB then prefixedCycles second else 0

def length (op : UInt8) : Nat := lengthTable.getD op.toNat 0

/-- The opcodes of jumps, calls and returns without a condition. -/
def branches : List UInt8 :=
  [0x18, 0xC3, 0xC7, 0xC9, 0xCD, 0xCF, 0xD7, 0xD9, 0xDF, 0xE7, 0xE9, 0xEF, 0xF7, 0xFF]

/-- The program goes on elsewhere after this opcode. -/
def leaves (op : UInt8) (met : Bool) : Bool :=
  branches.contains op || ((takenCycles? op).isSome && met)

/-- Whether the condition holds that bits 3 and 4 of an opcode stand for. -/
def meets (op : UInt8) (r : Registers) : Bool := (Condition.ofIndex (op >>> 3)).holds r

end Opcode

/-! ## Instructions -/

namespace Instruction

def condition? : Instruction → Option Condition
  | jump condition | jumpRelative condition | call condition => condition
  | retIf condition => some condition
  | _ => none

/-- Machine cycles after the opcode was fetched. What a second opcode takes is not counted. -/
def duration (met : Bool) : Instruction → Nat
  | nop | halt | disableInterrupts | enableInterrupts | rotateA _ | decimalAdjust | complement
  | setCarry | complementCarry | jumpHl => 0
  | stop | aluImmediate _ | loadIndirect _ | storeIndirect _ | loadHighC | storeHighC | loadSpHl
  | incrementPair _ | decrementPair _ | addHl _ | prefixed => 1
  | loadPair _ | loadHigh | storeHigh | loadHlSp | pop _ => 2
  | loadAbsolute | storeAbsolute | addSp | push _ | restart _ | ret | retInterrupt => 3
  | storeSp => 4
  | load target source => source.accesses + target.accesses
  | loadImmediate target => 1 + target.accesses
  | alu _ source => source.accesses
  | increment operand | decrement operand => 2 * operand.accesses
  | jump _ => if met then 3 else 2
  | jumpRelative _ => if met then 2 else 1
  | call _ => if met then 5 else 2
  | retIf _ => if met then 4 else 1

/-- Bytes that follow the opcode. -/
def operandBytes : Instruction → Nat
  | prefixed | stop | loadImmediate _ | aluImmediate _ | loadHigh | storeHigh | loadHlSp | addSp
  | jumpRelative _ => 1
  | loadPair _ | loadAbsolute | storeAbsolute | storeSp | jump _ | call _ => 2
  | _ => 0

/-- The program goes on elsewhere. -/
def leaves (met : Bool) : Instruction → Bool
  | jump _ | jumpRelative _ | call _ | retIf _ => met
  | jumpHl | restart _ | ret | retInterrupt => true
  | _ => false

end Instruction

/-! ## Opcodes and instructions -/

namespace Opcode

/-- What the tables say of an opcode holds of an instruction. -/
structure Describes (op : UInt8) (instruction : Instruction) : Prop where
  condition : ∀ c, instruction.condition? = some c → c = .ofIndex (op >>> 3)
  cycles : ∀ second met, Opcode.cycles op second met =
    1 + instruction.duration (met || instruction.condition?.isNone) +
      if instruction = .prefixed then prefixedCycles second else 0
  length : Opcode.length op = 1 + instruction.operandBytes
  leaves : ∀ met, Opcode.leaves op met = instruction.leaves (met || instruction.condition?.isNone)
  halt : instruction = .halt ↔ op = 0x76

theorem decode?_eq_none_iff : ∀ op, Instruction.decode? op = none ↔ op ∈ undefined :=
  forall_byte (by decide +kernel)

/-- The same as `Describes`, in a form that can be decided. -/
theorem decode?_all : ∀ op, ∀ instruction ∈ Instruction.decode? op,
    (∀ c ∈ instruction.condition?, c = .ofIndex (op >>> 3)) ∧
      (∀ met, (if met then (takenCycles? op).getD (cycleTable.getD op.toNat 0)
        else cycleTable.getD op.toNat 0) =
          1 + instruction.duration (met || instruction.condition?.isNone)) ∧
      Opcode.length op = 1 + instruction.operandBytes ∧
      (∀ met, Opcode.leaves op met =
        instruction.leaves (met || instruction.condition?.isNone)) ∧
      (instruction = .halt ↔ op = 0x76) ∧ (instruction = .prefixed ↔ op = 0xCB) :=
  forall_byte (by decide +kernel)

theorem describes_of_decode {op : UInt8} {instruction : Instruction}
    (h : Instruction.decode? op = some instruction) : Describes op instruction := by
  obtain ⟨hcondition, hcycles, hlength, hleaves, hhalt, hprefixed⟩ :=
    decode?_all op instruction h
  refine ⟨hcondition, fun second met => ?_, hlength, hleaves, hhalt⟩
  unfold Opcode.cycles
  rw [hcycles]
  simp only [hprefixed]

end Opcode

/-- What an instruction behind the prefix takes, the table says of its opcode. -/
theorem PrefixedInstruction.duration_decode :
    ∀ second, (decode second).duration = Opcode.prefixedCycles second :=
  forall_byte (by decide +kernel)

/-! ## The program counter -/

section ProgramCounter

@[simp] theorem Registers.pc_set (r : Registers) (pair : Pair) (val : UInt16) :
    (r.set pair val).pc = r.pc := by
  cases pair <;> rfl

@[simp] theorem Registers.pc_setByte (r : Registers) (reg : ByteRegister) (val : UInt8) :
    (r.setByte reg val).pc = r.pc := by
  cases reg <;> rfl

@[simp] theorem Alu.pc_apply (r : Registers) (op : Alu.Op) (val : UInt8) :
    (Alu.apply r op val).pc = r.pc := by
  cases op <;> rfl

@[simp] theorem Core.pc_follow (r : Registers) (pointer : Pointer) :
    (Core.follow r pointer).2.pc = r.pc := by
  cases pointer <;> rfl

end ProgramCounter

namespace Core

variable {τ : Type}

@[simp] theorem registers_setRegisters (s : Core τ) (registers : Registers) :
    (s.setRegisters registers).registers = registers := rfl

theorem pc_fetchByte (s : Core τ) : s.fetchByte.2.registers.pc = s.registers.pc + 1 := rfl

theorem pc_fetchWord (s : Core τ) : s.fetchWord.2.registers.pc = s.registers.pc + 2 := by
  show s.registers.pc + 1 + 1 = _
  rw [UInt16.add_assoc]
  rfl

theorem pc_halt (s : Core τ) (enabling : Bool) :
    (s.halt enabling).registers.pc =
      if enabling = true ∧ s.bus.pendingInterrupts ≠ 0 then s.registers.pc - 1
      else s.registers.pc := by
  unfold halt
  by_cases hagain : enabling = true ∧ s.bus.pendingInterrupts ≠ 0
  · rw [if_pos hagain]
    simp [hagain.1, hagain.2, setPc]
  · rw [if_neg hagain]
    dsimp only
    rw [if_neg (by simpa using hagain)]
    split <;> rfl

variable [Timeline τ]

@[simp] theorem pc_writeOperand (s : Core τ) (operand : Operand) (val : UInt8) :
    (s.writeOperand operand val).registers.pc = s.registers.pc := by
  cases operand with
  | register r => exact s.registers.pc_setByte r val
  | atHl => rfl

omit [Timeline τ] in
theorem pc_readOperand (s : Core τ) (operand : Operand) :
    (s.readOperand operand).2.registers.pc = s.registers.pc := by
  rw [registers_readOperand]

/-- Writing back what was computed of an operand does not move on, whatever the flags are. -/
theorem pc_writeBack (s : Core τ) (operand : Operand) (val : UInt8) {registers : Registers}
    (h : registers.pc = s.registers.pc) :
    (((s.readOperand operand).2.setRegisters registers).writeOperand operand val).registers.pc =
      s.registers.pc :=
  (pc_writeOperand _ operand val).trans h

theorem pc_executePrefixed (s : Core τ) (instruction : PrefixedInstruction) :
    (s.executePrefixed instruction).registers.pc = s.registers.pc := by
  cases instruction with
  | testBit bit operand => exact pc_readOperand s operand
  | shift op operand => exact pc_writeBack s operand _ (pc_readOperand s operand)
  | resetBit bit operand => exact (pc_writeOperand _ operand _).trans (pc_readOperand s operand)
  | setBit bit operand => exact (pc_writeOperand _ operand _).trans (pc_readOperand s operand)

/-- An instruction that does not leave moves on behind the bytes that belong to it. -/
theorem pc_execute (s : Core τ) (enabling : Bool) {instruction : Instruction}
    (hhalt : instruction ≠ .halt)
    (hstays : instruction.leaves (s.meets instruction.condition?) = false) :
    (s.execute enabling instruction).registers.pc =
      s.registers.pc + instruction.operandBytes.toUInt16 := by
  have hnone : s.registers.pc = s.registers.pc + (0 : Nat).toUInt16 := (UInt16.add_zero _).symm
  cases instruction with
  | halt => exact absurd rfl hhalt
  | prefixed => exact pc_executePrefixed s.fetchByte.2 _
  | load target source =>
    exact ((pc_writeOperand _ target _).trans (pc_readOperand s source)).trans hnone
  | loadImmediate target => exact (pc_writeOperand s.fetchByte.2 target _)
  | loadPair pair => exact (Registers.pc_set _ pair _).trans (pc_fetchWord s)
  | loadAbsolute | storeAbsolute | storeSp => exact pc_fetchWord s
  | loadIndirect pointer => exact (pc_follow _ pointer).trans hnone
  | storeIndirect pointer => exact (pc_follow _ pointer).trans hnone
  | pop pair => exact (Registers.pc_set _ pair _).trans hnone
  | alu op source => exact ((Alu.pc_apply _ op _).trans (pc_readOperand s source)).trans hnone
  | aluImmediate op => exact Alu.pc_apply _ op _
  | increment operand =>
    simp only [execute, registers_readOperand]
    refine (pc_writeBack s operand _ ?_).trans hnone
    rfl
  | decrement operand =>
    simp only [execute, registers_readOperand]
    refine (pc_writeBack s operand _ ?_).trans hnone
    rfl
  | incrementPair pair => exact (Registers.pc_set _ pair _).trans hnone
  | decrementPair pair => exact (Registers.pc_set _ pair _).trans hnone
  -- the condition that it has does not hold
  | jump condition =>
    have hunmet : s.fetchWord.2.meets condition = false := (meets_fetch s condition).1.trans hstays
    show (if s.fetchWord.2.meets condition then _ else _ : Core τ).registers.pc = _
    rw [hunmet]
    exact pc_fetchWord s
  | call condition =>
    have hunmet : s.fetchWord.2.meets condition = false := (meets_fetch s condition).1.trans hstays
    show (if s.fetchWord.2.meets condition then _ else _ : Core τ).registers.pc = _
    rw [hunmet]
    exact pc_fetchWord s
  | jumpRelative condition =>
    have hunmet : s.fetchByte.2.meets condition = false := (meets_fetch s condition).2.trans hstays
    show (if s.fetchByte.2.meets condition then _ else _ : Core τ).registers.pc = _
    rw [hunmet]
    exact pc_fetchByte s
  | retIf condition =>
    show (if s.meets (some condition) then _ else _ : Core τ).registers.pc = _
    rw [show s.meets (some condition) = false from hstays]
    exact hnone
  -- these leave whatever holds
  | jumpHl | restart vector | ret | retInterrupt => cases hstays
  | stop | loadHigh | storeHigh | loadHlSp | addSp => rfl
  | _ => exact hnone

/-! ## Steps -/

omit [Timeline τ] in
/-- How long an instruction takes depends on its condition, and behind the prefix on the second
opcode. -/
theorem duration_eq (s : Core τ) (instruction : Instruction) :
    s.duration instruction =
      instruction.duration (s.meets instruction.condition?) +
        if instruction = .prefixed then Opcode.prefixedCycles s.fetchByte.1 else 0 := by
  cases instruction with
  | prefixed =>
    show 1 + _ = 1 + Opcode.prefixedCycles s.fetchByte.1
    rw [PrefixedInstruction.duration_decode]
  | _ => rfl

omit [Timeline τ] in
theorem meets_of_describes {op : UInt8} {instruction : Instruction}
    (h : Opcode.Describes op instruction) (s : Core τ) :
    s.meets instruction.condition? =
      (Opcode.meets op s.registers || instruction.condition?.isNone) := by
  cases hcondition : instruction.condition? with
  | none => exact (Bool.or_true _).symm
  | some c =>
    rw [h.condition c hcondition]
    exact (Bool.or_false _).symm

omit [Timeline τ] in
theorem stepAction_of_waiting {cpu : Cpu} {bus : Bus τ} (hcopy : bus.dmaPage ≠ some 0xFE)
    (hwaits : cpu.mode = .stopped ∨ cpu.mode = .halted ∧ bus.pendingInterrupts = 0) :
    stepAction cpu bus = .waits := by
  have hpending := bus.pendingInterrupts_runDma
  unfold stepAction
  rw [if_neg hcopy]
  unfold action
  rcases hwaits with hmode | ⟨hmode, hzero⟩
  · simp only [prepared, hmode]
  · simp only [prepared, hmode, hpending, if_pos hzero]

omit [Timeline τ] in
/-- The next opcode is an instruction, and the processor goes on with it. -/
theorem stepAction_of_decode {cpu : Cpu} {bus : Bus τ} {instruction : Instruction}
    (hcopy : bus.dmaPage ≠ some 0xFE)
    (hgoes : cpu.mode = .running ∨ cpu.mode = .halted ∧ bus.pendingInterrupts ≠ 0)
    (hnone : cpu.ime = false ∨ bus.pendingInterrupts = 0)
    (hdecode : Instruction.decode? (bus.runDma.2.read cpu.registers.pc) = some instruction) :
    stepAction cpu bus = .executes instruction := by
  have hready : (prepared cpu bus).roused.nextAction = .executes instruction := by
    have hoff : ¬ ((cpu.ime && decide (bus.runDma.2.pendingInterrupts ≠ 0)) = true) := by
      rw [bus.pendingInterrupts_runDma]
      rcases hnone with hime | hpending
      · simp [hime]
      · simp [hpending]
    have hfetched : (prepared cpu bus).roused.fetched.1 = bus.runDma.2.read cpu.registers.pc :=
      fetched_fst _
    unfold nextAction
    rw [hfetched, hdecode]
    exact if_neg hoff
  have hpending := bus.pendingInterrupts_runDma
  unfold stepAction
  rw [if_neg hcopy, ← hready]
  unfold action
  rcases hgoes with hmode | ⟨hmode, hinterrupt⟩
  · simp only [prepared, hmode]
    rw [roused_eq_self hmode]
  · simp only [prepared, hmode, hpending, if_neg hinterrupt]

omit [Timeline τ] in
theorem pc_fetched (s : Core τ) :
    s.fetched.2.registers.pc = if s.cpu.haltBug then s.registers.pc else s.registers.pc + 1 := by
  rw [fetched_snd]
  rfl

omit [Timeline τ] in
theorem meets_fetched (s : Core τ) (op : UInt8) :
    Opcode.meets op s.fetched.2.registers = Opcode.meets op s.registers := by
  rw [fetched_snd]
  unfold Opcode.meets
  cases Condition.ofIndex (op >>> 3) <;> rfl

/-- A fetched opcode takes what the table says. -/
theorem cycles_executed_of_describes {op : UInt8} {s : Core τ} {instruction : Instruction}
    (h : Opcode.Describes op instruction) :
    (s.executed instruction).cycles =
      s.cycles + Opcode.cycles op
        (s.bus.read (if s.cpu.haltBug then s.registers.pc else s.registers.pc + 1))
        (Opcode.meets op s.registers) * machineCycle := by
  have hsecond : s.fetched.2.fetchByte.1 = s.bus.read s.fetched.2.registers.pc :=
    congrArg (·.read s.fetched.2.registers.pc) (bus_fetched s)
  rw [cycles_executed, duration_eq, meets_of_describes h, hsecond, pc_fetched, meets_fetched,
    h.cycles, Nat.add_assoc]

/-- Where the program goes on after a fetched opcode that does not leave. -/
theorem pc_executed_of_describes {op : UInt8} {s : Core τ} {instruction : Instruction}
    (h : Opcode.Describes op instruction)
    (hstays : Opcode.leaves op (Opcode.meets op s.registers) = false) :
    (s.executed instruction).registers.pc =
      s.registers.pc + (Opcode.length op).toUInt16 - (if s.cpu.haltBug then 1 else 0) -
        (if op = 0x76 ∧ s.cpu.enabling = true ∧ s.bus.pendingInterrupts ≠ 0 then 1 else 0) := by
  have hexecuted : (s.executed instruction).registers =
      (s.fetched.2.execute s.cpu.enabling instruction).registers := by
    unfold Core.registers
    rw [cpu_executed]
  have hlength : (Opcode.length op).toUInt16 = 1 + instruction.operandBytes.toUInt16 := by
    rw [h.length]
    exact UInt16.ofNat_add 1 _
  rw [hexecuted, hlength]
  by_cases hhalt : instruction = .halt
  · subst hhalt
    show (s.fetched.2.halt s.cpu.enabling).registers.pc = _
    rw [pc_halt, pc_fetched, bus_fetched]
    simp only [h.halt.1 rfl, true_and]
    show _ = s.registers.pc + (1 + 0) - _ - _
    split <;> split <;> grind
  · have hop : ¬ (op = 0x76 ∧ s.cpu.enabling = true ∧ s.bus.pendingInterrupts ≠ 0) :=
      fun hop => hhalt (h.halt.2 hop.1)
    have hunmet : instruction.leaves (s.fetched.2.meets instruction.condition?) = false := by
      rw [meets_of_describes h, meets_fetched, ← h.leaves]
      exact hstays
    rw [pc_execute _ _ hhalt hunmet, pc_fetched, if_neg hop]
    split <;> grind

/-- What a step takes, and where the program goes on, the tables say in every state of the processor
and of the bus. The opcode and the byte behind it are those that are seen once a copy that is due is
made. A processor that waits takes a machine cycle, and an interrupt takes five. After a faulty halt
the program counter is one behind, and a halt that is to be executed again moves back. -/
theorem step_follows_tables (cpu : Cpu) (bus : Bus τ) (hcopy : bus.dmaPage ≠ some 0xFE) :
    let pc := cpu.registers.pc
    let pending := bus.pendingInterrupts
    let op := bus.runDma.2.read pc
    let second := bus.runDma.2.read (if cpu.haltBug then pc else pc + 1)
    let met := Opcode.meets op cpu.registers
    (cpu.mode = .stopped ∨ cpu.mode = .halted ∧ pending = 0 →
      (step cpu bus).2 = none ∧ (step cpu bus).1.cycles = 4) ∧
    (cpu.mode ≠ .stopped ∧ cpu.ime = true ∧ pending ≠ 0 →
      (step cpu bus).2 = none ∧ (step cpu bus).1.cycles = 20) ∧
    ((cpu.mode = .running ∨ cpu.mode = .halted ∧ pending ≠ 0) ∧
        (cpu.ime = false ∨ pending = 0) ∧ op ∉ Opcode.undefined →
      (step cpu bus).2 = none ∧
      (step cpu bus).1.cycles = 4 * Opcode.cycles op second met ∧
      (Opcode.leaves op met = false →
        (step cpu bus).1.registers.pc =
          pc + (Opcode.length op).toUInt16 - (if cpu.haltBug then 1 else 0) -
            (if op = 0x76 ∧ cpu.enabling = true ∧ pending ≠ 0 then 1 else 0))) := by
  intro pc pending op second met
  have hprepared : (prepared cpu bus).bus.pendingInterrupts = pending :=
    bus.pendingInterrupts_runDma
  refine ⟨fun hwaits => ?_, fun ⟨hmode, hime, hpending⟩ => ?_, fun ⟨hgoes, hnone, hop⟩ => ?_⟩
  · obtain ⟨mode, hstep⟩ := step_of_waits (stepAction_of_waiting hcopy hwaits)
    rw [hstep]
    exact ⟨rfl, rfl⟩
  · have haction : (prepared cpu bus).action = .takes (firstInterrupt pending) := by
      rw [action_eq_takes_iff, hprepared]
      exact ⟨hmode, hime, hpending, rfl⟩
    rw [step_of_takes ((if_neg hcopy).trans haction)]
    exact ⟨rfl, rfl⟩
  · obtain ⟨instruction, hdecode⟩ := Option.ne_none_iff_exists'.1
      (mt (Opcode.decode?_eq_none_iff op).1 hop)
    have hdescribes := Opcode.describes_of_decode hdecode
    rw [step_of_executes (stepAction_of_decode hcopy hgoes hnone hdecode)]
    refine ⟨rfl, ?_, fun hstays => ?_⟩
    · rw [cycles_executed_of_describes hdescribes, Nat.mul_comm 4]
      exact Nat.zero_add _
    · have hpc : ((prepared cpu bus).roused.executed instruction).registers.pc = _ :=
        pc_executed_of_describes hdescribes hstays
      rw [show (prepared cpu bus).roused.bus.pendingInterrupts = pending from hprepared] at hpc
      exact hpc

/-- A bit of a byte in memory is tested, a stop goes on, and an interrupt is taken. -/
theorem step_follows_tables_testBit :
    let m := Machine.ofProgram [0xCB, 0x46]
    (step m.cpu m.bus).1.cycles = 12 ∧ (step m.cpu m.bus).1.registers.pc = 0x0102 ∧
      (step { m.cpu with mode := .stopped } m.bus).1.cycles = 4 ∧
      (step { m.cpu with ime := true }
        { m.bus with interruptEnable := 0x01, interruptFlags := 0xE1 }).1.cycles = 20 := by
  intro m
  obtain ⟨-, hcycles, hpc⟩ := (step_follows_tables m.cpu m.bus (by decide +kernel)).2.2
    ⟨.inl rfl, .inl rfl, by decide +kernel⟩
  refine ⟨hcycles.trans (by decide +kernel), (hpc (by decide +kernel)).trans (by decide +kernel),
    ((step_follows_tables { m.cpu with mode := .stopped } m.bus (by decide +kernel)).1
      (.inl rfl)).2,
    ((step_follows_tables { m.cpu with ime := true }
      { m.bus with interruptEnable := 0x01, interruptFlags := 0xE1 } (by decide +kernel)).2.1
      ⟨by decide, rfl, by decide⟩).2⟩

end Core

end DotMatrix
