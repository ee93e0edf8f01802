import DotMatrix.Proofs.Cpu.Flags
import DotMatrix.Proofs.Machine.DisplayAccess
import DotMatrix.Proofs.Machine.Requests
import DotMatrix.Proofs.Sound.Operations
import DotMatrix.Proofs.Timer.Steps

/-!
# What the parts of a machine agree on

Registers have bits that do not exist, clocks count in machine cycles, the timer has looked at its
tap, and the devices know the time. None of this is checked anywhere: it is so in a new machine,
and instructions, interrupts, writes, copies and the passing of time keep it
(`coherent_of_reachable`).
-/

namespace DotMatrix

variable {τ : Type}

/-! ## The timer -/

namespace Timer

/-- The clock and the divider are at the beginning of a machine cycle, and the control has three
bits. -/
structure Aligned (t : Timer) : Prop where
  clock : t.now % machineCycle = 0
  divider : t.divider.toNat % machineCycle = 0
  control : t.control ≤ 7

theorem reload_fst_eq (t : Timer) :
    t.reload.1 =
      { t with counter := t.reload.1.counter, reloadPending := t.reload.1.reloadPending } := by
  unfold reload
  split <;> rfl

theorem sense_eq (t : Timer) :
    t.sense =
      { t with
        counter := t.sense.counter
        reloadPending := t.sense.reloadPending
        lastSignal := t.sense.lastSignal } := by
  unfold sense increment
  dsimp only
  split
  · split <;> rfl
  · rfl

namespace Aligned

variable {t : Timer} (h : t.Aligned)
include h

theorem reload : t.reload.1.Aligned := by
  rw [reload_fst_eq]
  exact ⟨h.clock, h.divider, h.control⟩

theorem sense : t.sense.Aligned := by
  rw [sense_eq]
  exact ⟨h.clock, h.divider, h.control⟩

theorem turn {now : Nat} {divider : UInt32} (hnow : now % machineCycle = 0)
    (hdivider : divider.toNat % machineCycle = 0) : (t.turn now divider).1.Aligned :=
  have hmoved : Aligned { t.reload.1 with now, divider } := ⟨hnow, hdivider, h.reload.control⟩
  hmoved.sense

theorem apply (step : Step) : (step.apply t).1.Aligned := by
  cases step with
  | cycle =>
    have hnow : (t.now + machineCycle) % machineCycle = 0 := by
      rw [Nat.add_mod_right]
      exact h.clock
    -- the divider wraps at a multiple of a machine cycle
    have hdivider : (t.divider + 4).toNat % machineCycle = 0 := by
      have hbefore : t.divider.toNat % 4 = 0 := h.divider
      rw [UInt32.toNat_add]
      show (t.divider.toNat + 4) % 2 ^ 32 % 4 = 0
      omega
    show t.tick.1.Aligned
    rw [tick_eq_turn]
    exact h.turn hnow hdivider
  | clearDivider =>
    show t.resetDivider.1.Aligned
    rw [resetDivider_eq_turn]
    exact h.turn h.clock rfl
  | setCounter val => exact ⟨h.clock, h.divider, h.control⟩
  | setModulo val => exact ⟨h.clock, h.divider, h.control⟩
  | setControl val =>
    have hcontrol : val &&& 0x07 ≤ 7 := by
      rw [UInt8.le_iff_toNat_le, UInt8.toNat_and]
      exact Nat.and_le_right
    have hset : Aligned { t with control := val &&& 0x07 } := ⟨h.clock, h.divider, hcontrol⟩
    exact hset.sense.reload

theorem run (steps : List Step) : (t.run steps).1.Aligned := by
  induction steps generalizing t with
  | nil => exact h
  | cons step rest ih => exact ih (h.apply step)

end Aligned

theorem aligned_initial : initial.Aligned := ⟨rfl, rfl, by decide⟩

end Timer

/-! ## The bus -/

namespace Bus

/-- The flags that do not exist are set, the timer is in order, and all devices have been told the
time. -/
structure Coherent (b : Bus τ) : Prop where
  unused : ∀ k, 5 ≤ k → k < 8 → b.requested k = true
  aligned : b.timer.Aligned
  settled : b.timer.Settled
  inStep : b.InStep
  sound : b.sound.now = b.timer.now

theorem testBit_unusedFlags {k : Nat} (hlo : 5 ≤ k) (hhi : k < 8) :
    unusedFlags.toNat.testBit k = true := by
  have hall : ∀ k : Fin 8, 5 ≤ k.val → unusedFlags.toNat.testBit k = true := by decide
  exact hall ⟨k, hhi⟩ hlo

/-- Whoever sets the flags sets those that do not exist. -/
theorem requested_of_unused {b : Bus τ} (flags : UInt8)
    (h : b.interruptFlags = flags ||| unusedFlags) {k : Nat} (hlo : 5 ≤ k) (hhi : k < 8) :
    b.requested k = true := by
  unfold requested
  rw [h, UInt8.toNat_or, Nat.testBit_or, testBit_unusedFlags hlo hhi, Bool.or_true]

namespace Coherent

variable {b : Bus τ} (h : b.Coherent)
include h

/-- Nothing but the timer changes its clock. -/
theorem setTimer {result : Timer × Bool} (haligned : result.1.Aligned)
    (hsettled : result.1.Settled) (hnow : result.1.now = b.timer.now) :
    (b.setTimer result).Coherent where
  unused k hlo hhi := requested_of_or rfl (h.unused k hlo hhi)
  aligned := haligned
  settled := hsettled
  inStep := h.inStep.setTimer hnow
  sound := h.sound.trans hnow.symm

theorem resetDivider : b.resetDivider.Coherent :=
  h.setTimer (h.aligned.apply .clearDivider) (Timer.settled_apply h.settled .clearDivider)
    b.timer.now_resetDivider

theorem opening {action : Action} (hnumber : ∀ number, action = .takes number → number < 5) :
    (action.opening b).Coherent := by
  have hunused : ∀ k, 5 ≤ k → k < 8 → (action.opening b).requested k = true := by
    intro k hlo hhi
    refine requested_opening (fun number haction => ?_) (h.unused k hlo hhi)
    have := hnumber number haction
    omega
  unfold Action.opening at *
  split
  · exact ⟨hunused, h.aligned, h.settled, h.inStep.of_eq h.inStep.gated rfl rfl, h.sound⟩
  · exact h.resetDivider
  · exact h

theorem runDma : b.runDma.2.Coherent := by
  have hinStep := h.inStep.runDma
  rw [runDma_snd] at hinStep ⊢
  exact ⟨h.unused, h.aligned, h.settled, hinStep, h.sound⟩

theorem advance (cycles : Nat) : (b.advance cycles).2.Coherent where
  unused k hlo hhi := requested_of_or (b.interruptFlags_advance cycles) (h.unused k hlo hhi)
  aligned := by
    show (b.timer.advance cycles).1.Aligned
    unfold Timer.advance
    rw [Timer.ticks_eq_run]
    exact h.aligned.run _
  settled := by
    show (b.timer.advance cycles).1.Settled
    unfold Timer.advance
    rw [Timer.ticks_eq_run]
    exact Timer.settled_run h.settled _
  inStep := h.inStep.advance cycles
  sound := b.sound.now_update _

theorem meanwhile {b' : Bus τ} (hb : b.Meanwhile b') : b'.Coherent where
  unused k hlo hhi := by
    unfold requested
    rw [hb.interruptFlags]
    exact h.unused k hlo hhi
  aligned := hb.timer ▸ h.aligned
  settled := hb.timer ▸ h.settled
  inStep := h.inStep.meanwhile hb
  sound := by
    rw [hb.sound, hb.timer]
    exact h.sound

variable [Timeline τ]

theorem write (addr : UInt16) (val : UInt8) : (b.write addr val).Coherent := by
  have hunused : ∀ k, 5 ≤ k → k < 8 → (b.write addr val).requested k = true := by
    intro k hlo hhi
    by_cases hflags : addr = 0xFF0F
    · rw [hflags]
      exact requested_of_unused (val &&& interruptMask) rfl hlo hhi
    · exact requested_write hflags val (h.unused k hlo hhi)
  have hinStep := h.inStep.write addr val
  have hwritten := b.written_write addr val
  generalize b.write addr val = b' at *
  cases hwritten with
  | timer =>
    rw [Timer.write_eq_run]
    refine h.setTimer (h.aligned.run _) (Timer.settled_run h.settled _) ?_
    rw [← Timer.write_eq_run]
    exact b.timer.now_write addr val
  | sound =>
    have hsound := (b.sound.now_write addr val).trans h.sound
    exact ⟨hunused, h.aligned, h.settled, hinStep, hsound⟩
  | _ => exact ⟨hunused, h.aligned, h.settled, hinStep, h.sound⟩

theorem perform (writes : Writes) : (b.perform writes).Coherent := by
  induction writes generalizing b with
  | nil => exact h
  | cons write rest ih => exact ih (h.write write.1 write.2)

end Coherent

theorem coherent_create (cartridge : Cartridge τ) (host : Host τ) :
    (create cartridge host).Coherent where
  unused _ hlo hhi := requested_of_unused 0 rfl hlo hhi
  aligned := Timer.aligned_initial
  settled := Timer.settled_initial
  inStep := inStep_create cartridge host
  sound := rfl

theorem Coherent.applyPostBoot {b : Bus τ} (h : b.Coherent) : b.applyPostBoot.Coherent where
  unused _ hlo hhi := requested_of_unused 0x01 rfl hlo hhi
  aligned := h.aligned
  settled := h.settled
  inStep := h.inStep.applyPostBoot
  sound := by
    show b.sound.applyPostBoot.now = _
    unfold Sound.applyPostBoot
    dsimp only
    rw [Sound.now_write, Sound.now_write, Sound.now_write, Sound.now_write, Sound.now_write]
    exact h.sound

variable [Timeline τ]

/-- A boot image is mapped when a machine is made, and never again. -/
theorem boot_write {b : Bus τ} (h : b.boot = none) (addr : UInt16) (val : UInt8) :
    (b.write addr val).boot = none := by
  have hwritten := b.written_write addr val
  generalize b.write addr val = b' at *
  cases hwritten with
  | boot => rfl
  | _ => exact h

end Bus

/-! ## The machine -/

namespace Machine

variable [Timeline τ]

theorem boot_run {m m' : Machine τ} {actions : List Action} (hrun : m.Run actions m')
    (h : m.bus.boot = none) : m'.bus.boot = none := by
  refine hrun.invariant (P := fun m => m.bus.boot = none) (fun m hm => ?_)
    (fun m m' hbetween hm => hbetween.bus.boot.trans hm) h
  refine step_invariant (P := fun b => b.boot = none) (fun b hb => ?_) (fun b b' hbecomes hb => ?_)
    (fun _ _ hb => hb) hm
  · rw [Bus.runDma_snd]
    exact hb
  · exact hbecomes.invariant (P := fun b => b.boot = none)
      (fun b addr val hb => Bus.boot_write hb addr val) (fun _ hb => hb) (fun _ _ hb => hb) hb

theorem coherent_step {m : Machine τ} (h : m.bus.Coherent) : m.step.2.bus.Coherent := by
  have hcore : (Core.step m.cpu m.bus).1.bus.Coherent := by
    rw [Core.bus_step]
    refine Bus.Coherent.perform (h.runDma.opening fun number haction => ?_) _
    exact (takes_spec haction).2
  rw [bus_step]
  split
  · exact hcore
  · exact hcore.advance _

omit [Timeline τ] in
theorem coherent_create (cartridge : Cartridge τ) (host : Host τ) (boot : Option BootImage) :
    (create cartridge host boot).bus.Coherent := by
  have hnew := Bus.coherent_create cartridge host
  cases boot with
  | none => exact hnew.applyPostBoot
  | some image =>
    exact ⟨hnew.unused, hnew.aligned, hnew.settled, hnew.inStep.of_eq hnew.inStep.gated rfl rfl,
      hnew.sound⟩

/-- What all parts of a machine agree on between two steps. -/
structure Coherent (m : Machine τ) : Prop where
  /-- The low nibble of the flags register does not exist. -/
  flags : m.cpu.registers.f &&& 0x0F = 0
  /-- Nor do the upper three of the interrupt flags. -/
  unusedFlags : ∀ k, 5 ≤ k → k < 8 → m.bus.interruptFlags.toNat.testBit k = true
  clock : m.now % 4 = 0
  divider : m.bus.timer.divider.toNat % 4 = 0
  control : m.bus.timer.control ≤ 7
  signal : m.bus.timer.lastSignal = Timer.signal m.bus.timer.divider m.bus.timer.control
  pending : m.bus.timer.reloadPending = true →
    m.bus.timer.counter = 0 ∧ m.bus.timer.lastSignal = false
  display : m.bus.display.now = m.now
  sound : m.bus.sound.now = m.now
  /-- The display's own clock runs from the time that it was started at. -/
  nextEvent : m.bus.display.running = true →
    ∃ start, m.bus.display.startAt = some start ∧ start ≤ m.now ∧
      m.now - start < m.bus.display.nextEvent
  unmapped : m.bus.boot = none → ∀ actions m', m.Run actions m' → m'.bus.boot = none

/-- In every state between two steps of every machine, the parts of the machine agree. -/
theorem coherent_of_reachable {m : Machine τ} (h : m.Reachable) : m.Coherent := by
  obtain ⟨hflags, hbus⟩ : m.cpu.registers.OnlyFlags ∧ m.bus.Coherent := by
    refine h.invariant (P := fun m => m.cpu.registers.OnlyFlags ∧ m.bus.Coherent)
      (fun cartridge host boot => ?_) (fun m hm => ?_) (fun m m' hbetween hm => ?_)
    · refine ⟨?_, coherent_create cartridge host boot⟩
      cases boot with
      | none => exact Registers.onlyFlags_postBoot
      | some image => exact Registers.onlyFlags_powerOn
    · refine ⟨?_, coherent_step hm.2⟩
      rw [cpu_step]
      exact Core.onlyFlags_step hm.1 m.bus
    · refine ⟨?_, hm.2.meanwhile hbetween.bus⟩
      rw [hbetween.cpu]
      exact hm.1
  exact {
    flags := hflags
    unusedFlags := hbus.unused
    clock := hbus.aligned.clock
    divider := hbus.aligned.divider
    control := hbus.aligned.control
    signal := hbus.settled.sensed
    pending := fun hpending => by
      rw [hbus.settled.sensed]
      exact hbus.settled.pending hpending
    display := hbus.inStep.now
    sound := hbus.sound
    nextEvent := fun hrunning => by
      obtain ⟨start, -, hstart, hle, -, hlt, -⟩ := hbus.inStep.gated.awake hrunning
      rw [hbus.inStep.now] at hle hlt
      exact ⟨start, hstart, hle, hlt⟩
    unmapped := fun hboot _ _ hrun => boot_run hrun hboot }

/-- The program starts the timer with the counter at its end. -/
def countOver : List UInt8 := [0x3E, 0xFF, 0xE0, 0x05, 0x3E, 0x05, 0x00, 0xE0, 0x07, 0x00]

/-- The counter wraps, and a program that reads it now, before the modulo is loaded, finds zero. -/
theorem coherent_countOver :
    ((ofProgram countOver).afterSteps 6).bus.timer.reloadPending = true ∧
      ((ofProgram countOver).afterSteps 6).bus.read 0xFF05 = 0 := by
  have hpending : ((ofProgram countOver).afterSteps 6).bus.timer.reloadPending = true := by
    decide +kernel
  have hcoherent := coherent_of_reachable
    (reachable_afterSteps (reachable_ofProgram countOver) 6)
  exact ⟨hpending, (hcoherent.pending hpending).1⟩

end Machine

end DotMatrix
