import DotMatrix.Proofs.Cpu.Action

/-!
# The switches of the processor

Few instructions touch anything of the processor but its registers (`control_execute`). What a
step makes of the interrupt switch and of its delayed enabling depends on nothing but these two
and on what the step does (`switch_step`).
-/

namespace DotMatrix

/-- The part of the processor beside its registers. -/
structure Control where
  ime : Bool
  mode : CpuMode
  enabling : Bool
  haltBug : Bool
deriving DecidableEq, Repr, Inhabited

def Cpu.control (c : Cpu) : Control := ⟨c.ime, c.mode, c.enabling, c.haltBug⟩

namespace Core

variable {τ : Type}

/-! ## Parts of an instruction -/

section Parts

@[simp] theorem control_setRegisters (s : Core τ) (registers : Registers) :
    (s.setRegisters registers).cpu.control = s.cpu.control := rfl

@[simp] theorem control_idle (s : Core τ) : s.idle.cpu.control = s.cpu.control := rfl

@[simp] theorem control_fetchByte (s : Core τ) : s.fetchByte.2.cpu.control = s.cpu.control := rfl

@[simp] theorem control_fetchWord (s : Core τ) : s.fetchWord.2.cpu.control = s.cpu.control := rfl

@[simp] theorem control_readOperand (s : Core τ) (operand : Operand) :
    (s.readOperand operand).2.cpu.control = s.cpu.control := by
  cases operand <;> rfl

@[simp] theorem control_jumpTo (s : Core τ) (addr : UInt16) :
    (s.jumpTo addr).cpu.control = s.cpu.control := rfl

@[simp] theorem control_jumpBy (s : Core τ) (offset : UInt8) :
    (s.jumpBy offset).cpu.control = s.cpu.control := rfl

@[simp] theorem control_ret (s : Core τ) : s.ret.cpu.control = s.cpu.control := rfl

variable [Timeline τ]

@[simp] theorem control_writeOperand (s : Core τ) (operand : Operand) (val : UInt8) :
    (s.writeOperand operand val).cpu.control = s.cpu.control := by
  cases operand <;> rfl

@[simp] theorem control_call (s : Core τ) (addr : UInt16) :
    (s.call addr).cpu.control = s.cpu.control := rfl

end Parts

/-! ## Instructions -/

section Instructions

variable [Timeline τ]

@[simp] theorem control_executePrefixed (s : Core τ) (instruction : PrefixedInstruction) :
    (s.executePrefixed instruction).cpu.control = s.cpu.control := by
  cases instruction <;> simp [executePrefixed]

theorem control_execute (s : Core τ) (enabling : Bool) (instruction : Instruction) :
    (s.execute enabling instruction).cpu.control =
      match instruction with
      | .stop => { s.cpu.control with mode := .stopped }
      | .halt => (s.halt enabling).cpu.control
      | .disableInterrupts => { s.cpu.control with ime := false }
      | .enableInterrupts => { s.cpu.control with enabling := true }
      | .retInterrupt => { s.cpu.control with ime := true }
      | _ => s.cpu.control := by
  cases instruction with
  -- the work of these is done by parts that leave the control alone
  | prefixed => exact control_executePrefixed s.fetchByte.2 _
  | load target source => simp [execute]
  | loadImmediate target => simp [execute]
  | alu op source => simp [execute]
  | increment operand => simp [execute]
  | decrement operand => simp [execute]
  -- whether the condition holds or not
  | jump condition =>
    simp only [execute]
    split <;> simp
  | jumpRelative condition =>
    simp only [execute]
    split <;> simp
  | call condition =>
    simp only [execute]
    split <;> simp
  | retIf condition =>
    simp only [execute]
    split <;> simp
  | _ => rfl

omit [Timeline τ] in
theorem switch_halt (s : Core τ) (enabling : Bool) :
    (s.halt enabling).cpu.ime = s.cpu.ime ∧ (s.halt enabling).cpu.enabling = s.cpu.enabling := by
  unfold halt
  dsimp only
  split
  · exact ⟨rfl, rfl⟩
  · split <;> exact ⟨rfl, rfl⟩

theorem ime_execute (s : Core τ) (enabling : Bool) (instruction : Instruction) :
    (s.execute enabling instruction).cpu.ime =
      (instruction ≠ .disableInterrupts && (instruction = .retInterrupt || s.cpu.ime)) := by
  refine (congrArg Control.ime (control_execute s enabling instruction)).trans ?_
  cases instruction with
  -- halting may set another mode or meet the bug of the processor, nothing else
  | halt => exact (switch_halt s enabling).1
  | _ => rfl

/-- Only one instruction asks for interrupts to be enabled after the next. -/
theorem enabling_execute (s : Core τ) (enabling : Bool) (instruction : Instruction) :
    (s.execute enabling instruction).cpu.enabling =
      (instruction = .enableInterrupts || s.cpu.enabling) := by
  refine (congrArg Control.enabling (control_execute s enabling instruction)).trans ?_
  cases instruction with
  | halt => exact (switch_halt s enabling).2
  | _ => rfl

end Instructions

/-! ## Steps -/

theorem control_fetched (s : Core τ) :
    s.fetched.2.cpu.ime = s.cpu.ime ∧ s.fetched.2.cpu.enabling = false := by
  unfold fetched fetchOpcode
  split <;> exact ⟨rfl, rfl⟩

end Core

namespace Action

/-- The interrupt switch after an action. What was asked for one instruction ago takes effect,
unless the instruction switches interrupts off. -/
def imeAfter (ime enabling : Bool) : Action → Bool
  | refuses => ime
  | waits => ime
  | takes _ => false
  | executes instruction =>
    instruction ≠ .disableInterrupts && (instruction = .retInterrupt || ime || enabling)
  | stumbles => ime

/-- Whether interrupts are to be enabled after the next instruction. Taking an interrupt leaves
this as it is. -/
def enablingAfter (enabling : Bool) : Action → Bool
  | refuses => enabling
  | waits => enabling
  | takes _ => enabling
  | executes instruction => instruction = .enableInterrupts
  | stumbles => false

end Action

namespace Core

variable {τ : Type} [Timeline τ]

theorem switch_executed (s : Core τ) (instruction : Instruction) :
    (s.executed instruction).cpu.ime =
        (Action.executes instruction).imeAfter s.cpu.ime s.cpu.enabling ∧
      (s.executed instruction).cpu.enabling =
        (Action.executes instruction).enablingAfter s.cpu.enabling := by
  obtain ⟨hime, henabling⟩ := control_fetched s
  have hime' := ime_execute s.fetched.2 s.cpu.enabling instruction
  have henabling' := enabling_execute s.fetched.2 s.cpu.enabling instruction
  rw [hime] at hime'
  rw [henabling, Bool.or_false] at henabling'
  unfold executed
  dsimp only
  split
  · rename_i hdelayed
    simp only [Bool.and_eq_true] at hdelayed
    refine ⟨?_, henabling'⟩
    simp [Action.imeAfter, hdelayed]
  · rename_i hdelayed
    refine ⟨hime'.trans ?_, henabling'⟩
    -- either nothing was asked for, or the instruction cancels it
    cases henabled : s.cpu.enabling with
    | false => simp [Action.imeAfter]
    | true =>
      have hoff : instruction = .disableInterrupts := by simpa [henabled] using hdelayed
      simp [Action.imeAfter, hoff]

theorem switch_proceed (s : Core τ) :
    s.proceed.1.cpu.ime = s.nextAction.imeAfter s.cpu.ime s.cpu.enabling ∧
      s.proceed.1.cpu.enabling = s.nextAction.enablingAfter s.cpu.enabling := by
  cases h : s.nextAction with
  | takes number =>
    rw [proceed_of_takes h]
    exact ⟨rfl, rfl⟩
  | executes instruction =>
    rw [proceed_of_executes h]
    exact switch_executed s instruction
  | stumbles =>
    rw [proceed_of_stumbles h]
    exact control_fetched s
  | waits => exact absurd h (nextAction_ne_waits s)
  | refuses => exact absurd h (nextAction_ne_refuses s)

theorem switch_stepMode (s : Core τ) :
    s.stepMode.1.cpu.ime = s.action.imeAfter s.cpu.ime s.cpu.enabling ∧
      s.stepMode.1.cpu.enabling = s.action.enablingAfter s.cpu.enabling := by
  by_cases h : s.action = .waits
  · obtain ⟨mode, hstep⟩ := stepMode_of_waits h
    rw [hstep, h]
    exact ⟨rfl, rfl⟩
  · rw [stepMode_of_not_waits h, ← nextAction_roused h]
    exact switch_proceed s.roused

theorem switch_step (cpu : Cpu) (bus : Bus τ) :
    (step cpu bus).1.cpu.ime = (stepAction cpu bus).imeAfter cpu.ime cpu.enabling ∧
      (step cpu bus).1.cpu.enabling = (stepAction cpu bus).enablingAfter cpu.enabling := by
  rw [step_eq]
  unfold stepAction
  split
  · exact ⟨rfl, rfl⟩
  · exact switch_stepMode (prepared cpu bus)

end Core

end DotMatrix
