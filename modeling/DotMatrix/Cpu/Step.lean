import DotMatrix.Bus
import DotMatrix.Cpu.Instruction

/-!
# The processor

One step executes one instruction, or takes one interrupt, or waits for one machine cycle. Every
access to the bus costs a machine cycle, and some instructions idle for more. A copy to object
memory that is due comes first.
-/

namespace DotMatrix

inductive CpuMode where
  | running
  | halted
  /-- Waiting for a button. -/
  | stopped
deriving DecidableEq, Repr, Inhabited

structure Cpu where
  registers : Registers
  ime : Bool
  mode : CpuMode
  /-- Interrupts were enabled by the last instruction, and will be taken after this one. -/
  enabling : Bool
  /-- The next opcode is fetched without moving on. -/
  haltBug : Bool
deriving DecidableEq, Repr, Inhabited

namespace Cpu

def ofRegisters (registers : Registers) : Cpu := ⟨registers, false, .running, false, false⟩

def powerOn : Cpu := ofRegisters .powerOn

def postBoot : Cpu := ofRegisters .postBoot

end Cpu

/-- A processor on its bus, in the middle of a step. -/
structure Core (τ : Type) where
  cpu : Cpu
  bus : Bus τ
  /-- Cycles of the step so far. -/
  cycles : Nat

namespace Core

variable {τ : Type}

/-! ## Parts of an instruction -/

def registers (s : Core τ) : Registers := s.cpu.registers

def setRegisters (s : Core τ) (registers : Registers) : Core τ :=
  { s with cpu := { s.cpu with registers } }

def idle (s : Core τ) : Core τ := { s with cycles := s.cycles + machineCycle }

def readByte (s : Core τ) (addr : UInt16) : UInt8 × Core τ := (s.bus.read addr, s.idle)

def fetchByte (s : Core τ) : UInt8 × Core τ :=
  let pc := s.registers.pc
  (s.bus.read pc, s.idle.setRegisters { s.registers with pc := pc + 1 })

/-- Fetches a word, its low byte first. -/
def fetchWord (s : Core τ) : UInt16 × Core τ :=
  let (lo, s) := s.fetchByte
  let (hi, s) := s.fetchByte
  (Word.ofBytes hi lo, s)

def pop (s : Core τ) : UInt16 × Core τ :=
  let sp := s.registers.sp
  let (lo, s) := s.readByte sp
  let (hi, s) := s.readByte (sp + 1)
  (Word.ofBytes hi lo, s.setRegisters { s.registers with sp := sp + 2 })

def readOperand (s : Core τ) : Operand → UInt8 × Core τ
  | .register r => (s.registers.getByte r, s)
  | .atHl => s.readByte s.registers.hl

def setPc (s : Core τ) (pc : UInt16) : Core τ := s.setRegisters { s.registers with pc }

def jumpTo (s : Core τ) (addr : UInt16) : Core τ := (s.setPc addr).idle

/-- Goes on at an address relative to the present one. -/
def jumpBy (s : Core τ) (offset : UInt8) : Core τ :=
  s.jumpTo (s.registers.pc + Word.signExtend offset)

def ret (s : Core τ) : Core τ :=
  let (addr, s) := s.pop
  s.jumpTo addr

/-- Halts. When an enabled interrupt is pending, the halt does not last: right after interrupts
were enabled it is executed again on return, and with interrupts off the next opcode is fetched
without moving on. -/
def halt (s : Core τ) (enabling : Bool) : Core τ :=
  let pending := s.bus.pendingInterrupts ≠ 0
  if enabling && pending then s.setPc (s.registers.pc - 1)
  else if !s.cpu.ime && pending then { s with cpu := { s.cpu with haltBug := true } }
  else { s with cpu := { s.cpu with mode := .halted } }

variable [Timeline τ]

def writeByte (s : Core τ) (addr : UInt16) (val : UInt8) : Core τ :=
  { s with bus := s.bus.write addr val, cycles := s.cycles + machineCycle }

/-- Puts a word on the stack, its high byte first. -/
def push (s : Core τ) (val : UInt16) : Core τ :=
  let sp := s.registers.sp
  let s := s.writeByte (sp - 1) (Word.high val)
  let s := s.writeByte (sp - 2) (Word.low val)
  s.setRegisters { s.registers with sp := sp - 2 }

def writeOperand (s : Core τ) (operand : Operand) (val : UInt8) : Core τ :=
  match operand with
  | .register r => s.setRegisters (s.registers.setByte r val)
  | .atHl => s.writeByte s.registers.hl val

def call (s : Core τ) (addr : UInt16) : Core τ := (s.idle.push s.registers.pc).setPc addr

/-- Where a pointer points, and the registers after it was used. -/
def follow (r : Registers) : Pointer → UInt16 × Registers
  | .bc => (r.get .bc, r)
  | .de => (r.get .de, r)
  | .hlUp => (r.hl, r.setHl (r.hl + 1))
  | .hlDown => (r.hl, r.setHl (r.hl - 1))

def highPage (offset : UInt8) : UInt16 := Word.ofBytes 0xFF offset

/-! ## Instructions -/

def executePrefixed (s : Core τ) : PrefixedInstruction → Core τ
  | .shift op operand =>
    let (val, s) := s.readOperand operand
    let (res, registers) := Alu.applyShift s.registers op val
    (s.setRegisters registers).writeOperand operand res
  | .testBit bit operand =>
    let (val, s) := s.readOperand operand
    s.setRegisters (Alu.testBit s.registers bit val)
  | .resetBit bit operand =>
    let (val, s) := s.readOperand operand
    s.writeOperand operand (val &&& ~~~((1 : UInt8) <<< bit.toUInt8))
  | .setBit bit operand =>
    let (val, s) := s.readOperand operand
    s.writeOperand operand (val ||| ((1 : UInt8) <<< bit.toUInt8))

/-- Executes an instruction whose opcode has been fetched; `enabling` tells whether interrupts
were enabled by the instruction before. -/
def execute (s : Core τ) (enabling : Bool) : Instruction → Core τ
  | .nop => s
  | .stop =>
    let (_, s) := s.fetchByte
    { s with bus := s.bus.resetDivider, cpu := { s.cpu with mode := .stopped } }
  | .halt => s.halt enabling
  | .disableInterrupts => { s with cpu := { s.cpu with ime := false } }
  | .enableInterrupts => { s with cpu := { s.cpu with enabling := true } }
  | .prefixed =>
    let (op, s) := s.fetchByte
    s.executePrefixed (.decode op)
  | .load target source =>
    let (val, s) := s.readOperand source
    s.writeOperand target val
  | .loadImmediate target =>
    let (val, s) := s.fetchByte
    s.writeOperand target val
  | .loadPair pair =>
    let (val, s) := s.fetchWord
    s.setRegisters (s.registers.set pair val)
  | .loadIndirect pointer =>
    let (addr, registers) := follow s.registers pointer
    let (val, s) := s.readByte addr
    s.setRegisters { registers with a := val }
  | .storeIndirect pointer =>
    let (addr, registers) := follow s.registers pointer
    (s.writeByte addr s.registers.a).setRegisters registers
  | .loadAbsolute =>
    let (addr, s) := s.fetchWord
    let (val, s) := s.readByte addr
    s.setRegisters { s.registers with a := val }
  | .storeAbsolute =>
    let (addr, s) := s.fetchWord
    s.writeByte addr s.registers.a
  | .loadHigh =>
    let (offset, s) := s.fetchByte
    let (val, s) := s.readByte (highPage offset)
    s.setRegisters { s.registers with a := val }
  | .storeHigh =>
    let (offset, s) := s.fetchByte
    s.writeByte (highPage offset) s.registers.a
  | .loadHighC =>
    let (val, s) := s.readByte (highPage s.registers.c)
    s.setRegisters { s.registers with a := val }
  | .storeHighC => s.writeByte (highPage s.registers.c) s.registers.a
  | .storeSp =>
    let (addr, s) := s.fetchWord
    let sp := s.registers.sp
    (s.writeByte addr (Word.low sp)).writeByte (addr + 1) (Word.high sp)
  | .loadSpHl => (s.setRegisters { s.registers with sp := s.registers.hl }).idle
  | .loadHlSp =>
    let (offset, s) := s.fetchByte
    let (sum, registers) := Alu.spPlus s.registers offset
    (s.setRegisters (registers.setHl sum)).idle
  | .addSp =>
    let (offset, s) := s.fetchByte
    let (sum, registers) := Alu.spPlus s.registers offset
    (s.setRegisters { registers with sp := sum }).idle.idle
  | .push pair => s.idle.push (s.registers.get pair)
  | .pop pair =>
    let (val, s) := s.pop
    s.setRegisters (s.registers.set pair val)
  | .alu op source =>
    let (val, s) := s.readOperand source
    s.setRegisters (Alu.apply s.registers op val)
  | .aluImmediate op =>
    let (val, s) := s.fetchByte
    s.setRegisters (Alu.apply s.registers op val)
  | .increment operand =>
    let (val, s) := s.readOperand operand
    let (res, registers) := Alu.increment s.registers val
    (s.setRegisters registers).writeOperand operand res
  | .decrement operand =>
    let (val, s) := s.readOperand operand
    let (res, registers) := Alu.decrement s.registers val
    (s.setRegisters registers).writeOperand operand res
  | .incrementPair pair =>
    (s.setRegisters (s.registers.set pair (s.registers.get pair + 1))).idle
  | .decrementPair pair =>
    (s.setRegisters (s.registers.set pair (s.registers.get pair - 1))).idle
  | .addHl pair => (s.setRegisters (Alu.addHl s.registers (s.registers.get pair))).idle
  | .rotateA op =>
    let (res, registers) := Alu.applyShift s.registers op s.registers.a
    s.setRegisters ({ registers with a := res }.setFlag Flag.zero false)
  | .decimalAdjust => s.setRegisters (Alu.decimalAdjust s.registers)
  | .complement => s.setRegisters (Alu.complement s.registers)
  | .setCarry => s.setRegisters (Alu.putCarry s.registers true)
  | .complementCarry =>
    s.setRegisters (Alu.putCarry s.registers (!s.registers.flag Flag.carry))
  | .jump condition =>
    let (addr, s) := s.fetchWord
    if condition.all (·.holds s.registers) then s.jumpTo addr else s
  | .jumpHl => s.setPc s.registers.hl
  | .jumpRelative condition =>
    let (offset, s) := s.fetchByte
    if condition.all (·.holds s.registers) then s.jumpBy offset else s
  | .call condition =>
    let (addr, s) := s.fetchWord
    if condition.all (·.holds s.registers) then s.call addr else s
  | .restart vector => s.call vector.toUInt16
  | .ret => s.ret
  | .retIf condition => if condition.holds s.registers then s.idle.ret else s.idle
  | .retInterrupt =>
    let s := s.ret
    { s with cpu := { s.cpu with ime := true } }

/-! ## Steps -/

/-- The interrupt to take of those pending: the lowest. -/
def firstInterrupt (pending : UInt8) : Nat :=
  ((List.range 5).find? fun n => pending.toNat.testBit n).getD 0

/-- Takes an interrupt: goes on at its vector, with the present address on the stack and
interrupts off. -/
def takeInterrupt (s : Core τ) (number : Nat) : Core τ :=
  -- the flag is cleared before the pushes, which may write the flags anew
  let s := { s with
    cpu := { s.cpu with ime := false }
    bus := s.bus.acknowledgeInterrupt ((1 : UInt8) <<< number.toUInt8) }
  let s := s.idle.idle.push s.registers.pc
  s.jumpTo (0x40 + 8 * number.toUInt16)

/-- Fetches an opcode; after a faulty halt the program counter stays. -/
def fetchOpcode (s : Core τ) : UInt8 × Core τ :=
  if s.cpu.haltBug then readByte { s with cpu := { s.cpu with haltBug := false } } s.registers.pc
  else s.fetchByte

def executeNext (s : Core τ) : Core τ × Option Fault :=
  let pc := s.registers.pc
  let enabling := s.cpu.enabling
  let (op, s) := fetchOpcode { s with cpu := { s.cpu with enabling := false } }
  match Instruction.decode? op with
  | none => (s, some (.illegalOpcode op pc))
  | some instruction =>
    let s := s.execute enabling instruction
    -- what was enabled one instruction ago takes effect now, unless this one disables it
    if enabling && instruction ≠ .disableInterrupts then
      ({ s with cpu := { s.cpu with ime := true } }, none)
    else (s, none)

/-- What a running processor does: it takes a pending interrupt, or goes on. -/
def proceed (s : Core τ) : Core τ × Option Fault :=
  let pending := s.bus.pendingInterrupts
  if s.cpu.ime && pending ≠ 0 then (s.takeInterrupt (firstInterrupt pending), none)
  else s.executeNext

def stepMode (s : Core τ) : Core τ × Option Fault :=
  match s.cpu.mode with
  | .stopped =>
    let woken := s.bus.joypad.panel.held.any
    (idle { s with cpu := { s.cpu with mode := if woken then .running else .stopped } }, none)
  | .halted =>
    if s.bus.pendingInterrupts = 0 then (s.idle, none)
    else proceed { s with cpu := { s.cpu with mode := .running } }
  | .running => s.proceed

def step (cpu : Cpu) (bus : Bus τ) : Core τ × Option Fault :=
  match bus.runDma with
  | (.error fault, bus) => (⟨cpu, bus, 0⟩, some fault)
  | (.ok (), bus) => stepMode ⟨cpu, bus, 0⟩

end Core

end DotMatrix
