import DotMatrix.Proofs.Cpu.Control
import DotMatrix.Proofs.Cpu.Traffic

/-!
# Halting

A halt that an enabled interrupt is pending for does not last. After a delayed enabling it is
executed again on return from the interrupt (`executed_halt_again`), and with interrupts off the
next opcode is fetched without moving on, for which the processor has a mark
(`executed_halt_faulty`). Any other halt lasts (`executed_halt_lasting`). Nothing but a faulty halt
sets the mark, and fetching an opcode takes it away (`haltBug_executed`).
-/

namespace DotMatrix

namespace Core

variable {τ : Type}

/-! ## Opcodes -/

/-- Fetching an opcode moves on, except after a faulty halt. -/
theorem fetched_snd (s : Core τ) :
    s.fetched.2 =
      { s.idle with
        cpu :=
          { s.cpu with
            enabling := false
            haltBug := false
            registers :=
              { s.cpu.registers with
                pc :=
                  if s.cpu.haltBug then s.cpu.registers.pc else s.cpu.registers.pc + 1 } } } := by
  obtain ⟨⟨registers, ime, mode, enabling, haltBug⟩, bus, cycles⟩ := s
  cases haltBug <;> rfl

/-- An interrupt that is pending would have been taken, if interrupts were on. -/
theorem pending_of_executes {s : Core τ} {instruction : Instruction}
    (h : s.nextAction = .executes instruction) :
    s.cpu.ime = false ∨ s.bus.pendingInterrupts = 0 := by
  refine Classical.byContradiction fun hnone => ?_
  rw [not_or, Bool.not_eq_false] at hnone
  have htakes := nextAction_eq_takes_iff.2 ⟨hnone.1, hnone.2, rfl⟩
  rw [h] at htakes
  cases htakes

/-! ## Executing a halt -/

theorem halt_again {s : Core τ} (hpending : s.bus.pendingInterrupts ≠ 0) :
    s.halt true = s.setPc (s.registers.pc - 1) := by
  simp [halt, hpending]

theorem halt_faulty {s : Core τ} (hime : s.cpu.ime = false)
    (hpending : s.bus.pendingInterrupts ≠ 0) :
    s.halt false = { s with cpu := { s.cpu with haltBug := true } } := by
  simp [halt, hime, hpending]

theorem halt_lasting {s : Core τ} (hpending : s.bus.pendingInterrupts = 0) (enabling : Bool) :
    s.halt enabling = { s with cpu := { s.cpu with mode := .halted } } := by
  simp [halt, hpending]

section Executed

variable [Timeline τ] {s : Core τ}

/-- After a delayed enabling, a halt that does not last is executed again on return. -/
theorem executed_halt_again (henabling : s.cpu.enabling = true) (hmark : s.cpu.haltBug = false)
    (hpending : s.bus.pendingInterrupts ≠ 0) :
    s.executed .halt = { s.idle with cpu := { s.cpu with ime := true, enabling := false } } := by
  have hhalt := halt_again (s := s.fetched.2) (by rw [bus_fetched]; exact hpending)
  have hback : s.cpu.registers.pc + 1 - 1 = s.cpu.registers.pc := by grind
  have hon : s.executed .halt =
      { s.fetched.2.halt true with cpu := { (s.fetched.2.halt true).cpu with ime := true } } := by
    simp [executed, execute, henabling]
  rw [hon, hhalt, fetched_snd]
  simp [setPc, setRegisters, Core.registers, idle, hmark, hback]

/-- With interrupts off, a halt that does not last leaves the mark. -/
theorem executed_halt_faulty (henabling : s.cpu.enabling = false) (hime : s.cpu.ime = false)
    (hpending : s.bus.pendingInterrupts ≠ 0) :
    s.executed .halt =
      { s.fetched.2 with cpu := { s.fetched.2.cpu with haltBug := true } } := by
  have hhalt := halt_faulty (s := s.fetched.2) ((control_fetched s).1.trans hime)
    (by rw [bus_fetched]; exact hpending)
  simp only [executed, execute, henabling, hhalt, Bool.false_and, Bool.false_eq_true, if_false]

theorem executed_halt_lasting (hpending : s.bus.pendingInterrupts = 0) :
    s.executed .halt =
      { s.fetched.2 with
        cpu := { s.fetched.2.cpu with ime := s.cpu.ime || s.cpu.enabling, mode := .halted } } := by
  have hhalt := halt_lasting (s := s.fetched.2) (by rw [bus_fetched]; exact hpending)
    s.cpu.enabling
  have hime := (control_fetched s).1
  simp only [executed, execute, hhalt]
  cases s.cpu.enabling with
  | true => simp
  | false => simp [← hime]

/-! ## The mark and the mode -/

/-- What takes effect after an instruction is only that interrupts are on. -/
theorem cpu_executed (s : Core τ) (instruction : Instruction) :
    (s.executed instruction).cpu =
      { (s.fetched.2.execute s.cpu.enabling instruction).cpu with
        ime := (s.executed instruction).cpu.ime } := by
  unfold executed
  dsimp only
  split <;> rfl

theorem haltBug_execute (s : Core τ) (enabling : Bool) {instruction : Instruction}
    (h : instruction ≠ .halt) :
    (s.execute enabling instruction).cpu.haltBug = s.cpu.haltBug := by
  have hcontrol := congrArg Control.haltBug (control_execute s enabling instruction)
  cases instruction with
  | halt => exact absurd rfl h
  | _ => exact hcontrol

theorem mode_execute (s : Core τ) (enabling : Bool) {instruction : Instruction}
    (hhalt : instruction ≠ .halt) (hstop : instruction ≠ .stop) :
    (s.execute enabling instruction).cpu.mode = s.cpu.mode := by
  have hcontrol := congrArg Control.mode (control_execute s enabling instruction)
  cases instruction with
  | halt => exact absurd rfl hhalt
  | stop => exact absurd rfl hstop
  | _ => exact hcontrol

/-- Only a halt with interrupts off, one of them pending, leaves the mark. -/
theorem haltBug_executed (s : Core τ) (instruction : Instruction) :
    (s.executed instruction).cpu.haltBug = true ↔
      instruction = .halt ∧ s.cpu.enabling = false ∧ s.cpu.ime = false ∧
        s.bus.pendingInterrupts ≠ 0 := by
  have hnone : s.fetched.2.cpu.haltBug = false := by rw [fetched_snd]
  rw [cpu_executed]
  by_cases hhalt : instruction = .halt
  · subst hhalt
    show (s.fetched.2.halt s.cpu.enabling).cpu.haltBug = true ↔ _
    unfold halt
    rw [bus_fetched, (control_fetched s).1]
    cases s.cpu.enabling <;> cases s.cpu.ime <;> by_cases hpending : s.bus.pendingInterrupts = 0 <;>
      simp [hpending, hnone, setPc, setRegisters]
  · dsimp only
    rw [haltBug_execute _ _ hhalt, hnone]
    simp [hhalt]

theorem mode_executed (s : Core τ) {instruction : Instruction} (hhalt : instruction ≠ .halt)
    (hstop : instruction ≠ .stop) : (s.executed instruction).cpu.mode = s.cpu.mode := by
  have hfetched : s.fetched.2.cpu.mode = s.cpu.mode := by rw [fetched_snd]
  rw [cpu_executed, ← hfetched]
  exact mode_execute _ _ hhalt hstop

/-- Neither of the instructions that make the processor wait has a copy made. -/
theorem dmaPage_executed (s : Core τ) {instruction : Instruction}
    (h : instruction = .halt ∨ instruction = .stop) :
    (s.executed instruction).bus.dmaPage = s.bus.dmaPage := by
  have hexecuted : (s.executed instruction).bus =
      (s.fetched.2.execute s.cpu.enabling instruction).bus := by
    unfold executed
    dsimp only
    split <;> rfl
  rw [hexecuted, ← bus_fetched s]
  rcases h with rfl | rfl
  · show (s.fetched.2.halt s.cpu.enabling).bus.dmaPage = _
    unfold halt
    dsimp only
    split
    · rfl
    · split <;> rfl
  · rfl

end Executed

/-! ## Waiting -/

section Waiting

variable [Timeline τ] {cpu : Cpu} {bus : Bus τ}

theorem step_of_halted (hmode : cpu.mode = .halted) (hpage : bus.dmaPage = none)
    (hpending : bus.pendingInterrupts = 0) : step cpu bus = (⟨cpu, bus, machineCycle⟩, none) := by
  simp [step, Bus.runDma, stepMode, idle, hmode, hpage, hpending]

/-- Only a button ends a stop. -/
theorem step_of_stopped (hmode : cpu.mode = .stopped) (hpage : bus.dmaPage = none) :
    step cpu bus =
      (⟨{ cpu with mode := if bus.joypad.panel.held.any then .running else .stopped }, bus,
        machineCycle⟩, none) := by
  simp [step, Bus.runDma, stepMode, idle, hmode, hpage]

end Waiting

end Core

end DotMatrix
