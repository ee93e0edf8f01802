import DotMatrix.Proofs.Cpu.Action

/-!
# Traffic on the bus

The processor changes its bus only by the few operations that `Bus.Becomes` lists, so what these
keep is kept by every instruction and every step (`Bus.Becomes.invariant`, `becomes_step`). One of
them is a write, and `Bus.Written` lists what that can change.
-/

namespace DotMatrix

variable {τ : Type} [Timeline τ]

/-! ## One write -/

/-- What a write makes of a bus: it reaches a device, a memory or a register, or goes nowhere. -/
inductive Bus.Written (b : Bus τ) (addr : UInt16) (val : UInt8) : Bus τ → Prop where
  | cartridge : b.Written addr val (b.writeCartridge addr val)
  | video (i : Nat) : b.Written addr val { b with display := b.display.writeVideo i val }
  | objects (i : Nat) : b.Written addr val { b with display := b.display.writeObjects i val }
  | work (i : Nat) : b.Written addr val { b with work := b.work.write i val }
  | high (i : Nat) : b.Written addr val { b with high := b.high.write i val }
  | sound : b.Written addr val { b with sound := b.sound.write addr val }
  | display : b.Written addr val { b with display := b.display.write addr val }
  | copy : b.Written addr val { b with display := b.display.write addr val, dmaPage := some val }
  | timer : b.Written addr val (b.setTimer (b.timer.write addr val))
  | joypad : b.Written addr val { b with joypad := b.joypad.write val }
  | serialData : b.Written addr val { b with serialData := val }
  | serialControl : b.Written addr val { b with serialControl := val &&& 0x81 }
  | boot : b.Written addr val { b with boot := none }
  | interruptEnable : b.Written addr val { b with interruptEnable := val }
  | interruptFlags (h : addr = 0xFF0F) :
      b.Written addr val { b with interruptFlags := (val &&& interruptMask) ||| unusedFlags }
  | nowhere : b.Written addr val b

theorem Bus.written_writeDevice (b : Bus τ) (addr : UInt16) (val : UInt8) :
    b.Written addr val (b.writeDevice addr val) := by
  unfold writeDevice
  split
  · exact .sound
  · split
    · exact .copy
    · split
      · exact .display
      · split
        · exact .timer
        · split
          · exact .joypad
          · exact .serialData
          · exact .serialControl
          · exact .interruptFlags rfl
          · split
            · exact .boot
            · exact .nowhere
          · exact .nowhere

theorem Bus.written_write (b : Bus τ) (addr : UInt16) (val : UInt8) :
    b.Written addr val (b.write addr val) := by
  -- the areas of the address space in order
  unfold write
  repeat' split
  · exact .cartridge
  · exact .video _
  · exact .cartridge
  · exact .work _
  · exact .work _
  · exact .objects _
  · exact .nowhere
  · exact b.written_writeDevice addr val
  · exact .high _
  · exact .interruptEnable

/-! ## Any number of operations -/

/-- What the processor can make of a bus: it writes, clears the divider, and clears the flags of
the interrupts that it takes. -/
inductive Bus.Becomes (b : Bus τ) : Bus τ → Prop where
  | refl : b.Becomes b
  | write {b' : Bus τ} (before : b.Becomes b') (addr : UInt16) (val : UInt8) :
      b.Becomes (b'.write addr val)
  | resetDivider {b' : Bus τ} (before : b.Becomes b') : b.Becomes b'.resetDivider
  | acknowledge {b' : Bus τ} (before : b.Becomes b') (flags : UInt8) :
      b.Becomes (b'.acknowledgeInterrupt flags)

namespace Bus.Becomes

theorem trans {a b c : Bus τ} (hab : a.Becomes b) (hbc : b.Becomes c) : a.Becomes c := by
  -- the operations of the second stretch are added one by one to those of the first
  induction hbc with
  | refl => exact hab
  | write _ addr val ih => exact ih.write addr val
  | resetDivider _ ih => exact ih.resetDivider
  | acknowledge _ flags ih => exact ih.acknowledge flags

/-- What each operation keeps, the processor keeps. -/
theorem invariant {P : Bus τ → Prop}
    (hwrite : ∀ b addr val, P b → P (b.write addr val))
    (hdivider : ∀ b, P b → P b.resetDivider)
    (hflags : ∀ b flags, P b → P (b.acknowledgeInterrupt flags))
    {b b' : Bus τ} (h : b.Becomes b') (hb : P b) : P b' := by
  induction h with
  | refl => exact hb
  | write _ addr val ih => exact hwrite _ addr val ih
  | resetDivider _ ih => exact hdivider _ ih
  | acknowledge _ flags ih => exact hflags _ flags ih

end Bus.Becomes

namespace Core

/-! ## Parts of an instruction -/

section Quiet

omit [Timeline τ]

@[simp] theorem bus_setRegisters (s : Core τ) (registers : Registers) :
    (s.setRegisters registers).bus = s.bus := rfl

@[simp] theorem bus_fetchByte (s : Core τ) : s.fetchByte.2.bus = s.bus := rfl

@[simp] theorem bus_readOperand (s : Core τ) (operand : Operand) :
    (s.readOperand operand).2.bus = s.bus := by
  cases operand <;> rfl

@[simp] theorem bus_halt (s : Core τ) (enabling : Bool) : (s.halt enabling).bus = s.bus := by
  unfold halt
  dsimp only
  split
  · rfl
  · split <;> rfl

end Quiet

theorem becomes_writeOperand {s s' : Core τ} (h : s'.bus = s.bus) (operand : Operand)
    (val : UInt8) : s.bus.Becomes (s'.writeOperand operand val).bus := by
  -- `s'` has read or computed on the way, and its bus is still that of `s`
  rw [← h]
  cases operand with
  | register r => exact .refl
  | atHl => exact .write .refl _ _

theorem becomes_push (s : Core τ) (val : UInt16) : s.bus.Becomes (s.push val).bus :=
  .write (.write .refl _ _) _ _

theorem becomes_call (s : Core τ) (addr : UInt16) : s.bus.Becomes (s.call addr).bus :=
  becomes_push s.idle _

/-! ## Instructions -/

theorem becomes_executePrefixed (s : Core τ) (instruction : PrefixedInstruction) :
    s.bus.Becomes (s.executePrefixed instruction).bus := by
  cases instruction with
  | testBit bit operand =>
    simp only [executePrefixed, bus_setRegisters, bus_readOperand]
    exact .refl
  | shift op operand =>
    simp only [executePrefixed]
    exact becomes_writeOperand (by simp) operand _
  | resetBit bit operand => exact becomes_writeOperand (bus_readOperand s operand) operand _
  | setBit bit operand => exact becomes_writeOperand (bus_readOperand s operand) operand _

theorem becomes_execute (s : Core τ) (enabling : Bool) (instruction : Instruction) :
    s.bus.Becomes (s.execute enabling instruction).bus := by
  cases instruction with
  -- stopping clears the divider; the rest of these instructions write
  | stop => exact .resetDivider .refl
  | prefixed => exact becomes_executePrefixed s.fetchByte.2 _
  | load target source => exact becomes_writeOperand (bus_readOperand s source) target _
  | loadImmediate target => exact becomes_writeOperand (bus_fetchByte s) target _
  | storeIndirect pointer => exact .write .refl _ _
  | storeAbsolute => exact .write .refl _ _
  | storeHigh => exact .write .refl _ _
  | storeHighC => exact .write .refl _ _
  | storeSp => exact .write (.write .refl _ _) _ _
  | push pair => exact becomes_push s.idle _
  | increment operand =>
    simp only [execute]
    exact becomes_writeOperand (by simp) operand _
  | decrement operand =>
    simp only [execute]
    exact becomes_writeOperand (by simp) operand _
  | call condition =>
    simp only [execute]
    split
    · exact becomes_call s.fetchWord.2 _
    · exact .refl
  | restart vector => exact becomes_call s _
  -- the others read the bus at most
  | jump condition =>
    simp only [execute]
    split <;> exact .refl
  | jumpRelative condition =>
    simp only [execute]
    split <;> exact .refl
  | retIf condition =>
    simp only [execute]
    split <;> exact .refl
  | halt =>
    simp only [execute, bus_halt]
    exact .refl
  | alu op source =>
    simp only [execute, bus_setRegisters, bus_readOperand]
    exact .refl
  | _ => exact .refl

/-! ## Steps -/

theorem becomes_takeInterrupt (s : Core τ) (number : Nat) :
    s.bus.Becomes (s.takeInterrupt number).bus :=
  .write (.write (.acknowledge .refl _) _ _) _ _

omit [Timeline τ] in
@[simp] theorem bus_fetchOpcode (s : Core τ) : s.fetchOpcode.2.bus = s.bus := by
  unfold fetchOpcode
  split <;> rfl

omit [Timeline τ] in
@[simp] theorem bus_fetched (s : Core τ) : s.fetched.2.bus = s.bus := bus_fetchOpcode _

theorem becomes_executed (s : Core τ) (instruction : Instruction) :
    s.bus.Becomes (s.executed instruction).bus := by
  have hdone := becomes_execute s.fetched.2 s.cpu.enabling instruction
  rw [bus_fetched] at hdone
  unfold executed
  dsimp only
  split
  · exact hdone
  · exact hdone

theorem becomes_proceed (s : Core τ) : s.bus.Becomes s.proceed.1.bus := by
  cases h : s.nextAction with
  | takes number =>
    rw [proceed_of_takes h]
    exact becomes_takeInterrupt s number
  | executes instruction =>
    rw [proceed_of_executes h]
    exact becomes_executed s instruction
  | stumbles =>
    rw [proceed_of_stumbles h, bus_fetched]
    exact .refl
  | waits => exact absurd h (nextAction_ne_waits s)
  | refuses => exact absurd h (nextAction_ne_refuses s)

theorem becomes_stepMode (s : Core τ) : s.bus.Becomes s.stepMode.1.bus := by
  by_cases h : s.action = .waits
  · obtain ⟨mode, hstep⟩ := stepMode_of_waits h
    rw [hstep]
    exact .refl
  · rw [stepMode_of_not_waits h]
    exact becomes_proceed s.roused

/-- After the copy that is due, a step changes the bus by the processor's operations only. -/
theorem becomes_step (cpu : Cpu) (bus : Bus τ) :
    bus.runDma.2.Becomes (step cpu bus).1.bus := by
  rw [step_eq]
  split
  · exact .refl
  · exact becomes_stepMode (prepared cpu bus)

end Core

end DotMatrix
