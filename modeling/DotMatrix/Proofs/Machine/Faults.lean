import DotMatrix.Proofs.Cpu.Opcodes
import DotMatrix.Proofs.Machine.ObjectCopy

/-!
# Steps that fail

Two things can go wrong in a step: a copy to object memory is due whose source is object memory
itself, or the processor comes to fetch an opcode and the byte it finds encodes nothing (`Fails`).
The machine can be looked at after either. A copy that is due is made before, and of what there was
nothing else is changed but the program counter and the marks of the processor for what comes next
(`Kept`).
-/

namespace DotMatrix

namespace Core

variable {τ : Type}

/-! ## Which steps fail -/

/-- The step comes to fetch an opcode: no copy fails, the processor is not stopped and does not stay
halted, and no interrupt is taken. -/
structure Fetches (cpu : Cpu) (bus : Bus τ) : Prop where
  copy : bus.dmaPage ≠ some 0xFE
  awake : cpu.mode ≠ .stopped
  roused : cpu.mode = .halted → bus.pendingInterrupts ≠ 0
  undisturbed : ¬(cpu.ime = true ∧ bus.pendingInterrupts ≠ 0)

/-- What goes wrong in a step, told from the state before it. An opcode is read once the copy that
is due is made. -/
inductive Fails (cpu : Cpu) (bus : Bus τ) : Fault → Prop where
  | overlap : bus.dmaPage = some 0xFE → Fails cpu bus (.dmaOverlap 0xFE00)
  | illegal : Fetches cpu bus → bus.runDma.2.read cpu.registers.pc ∈ Opcode.undefined →
      Fails cpu bus (.illegalOpcode (bus.runDma.2.read cpu.registers.pc) cpu.registers.pc)

theorem nextAction_eq_stumbles_iff {s : Core τ} :
    s.nextAction = .stumbles ↔
      ¬(s.cpu.ime = true ∧ s.bus.pendingInterrupts ≠ 0) ∧
        s.bus.read s.registers.pc ∈ Opcode.undefined := by
  rw [← Opcode.decode?_eq_none_iff, ← fetched_fst]
  unfold nextAction
  by_cases htakes : s.cpu.ime = true ∧ s.bus.pendingInterrupts ≠ 0
  · simp [htakes]
  · rw [if_neg (by simpa using htakes)]
    cases Instruction.decode? s.fetched.1 <;> simp [htakes]

theorem action_eq_stumbles_iff {s : Core τ} :
    s.action = .stumbles ↔
      s.cpu.mode ≠ .stopped ∧ (s.cpu.mode = .halted → s.bus.pendingInterrupts ≠ 0) ∧
        s.nextAction = .stumbles := by
  unfold action
  cases hmode : s.cpu.mode with
  | stopped => simp
  | running => simp
  | halted =>
    -- what a processor does next does not depend on whether it was halted
    have hsame : s.roused.nextAction = .stumbles ↔ s.nextAction = .stumbles := by
      rw [nextAction_eq_stumbles_iff, nextAction_eq_stumbles_iff]
      rfl
    by_cases hpending : s.bus.pendingInterrupts = 0
    · simp [hpending]
    · simp [hpending, hsame]

theorem stepAction_eq_stumbles_iff {cpu : Cpu} {bus : Bus τ} :
    stepAction cpu bus = .stumbles ↔
      Fetches cpu bus ∧ bus.runDma.2.read cpu.registers.pc ∈ Opcode.undefined := by
  unfold stepAction
  by_cases hself : bus.dmaPage = some 0xFE
  · rw [if_pos hself]
    exact ⟨nofun, fun h => absurd hself h.1.copy⟩
  · rw [if_neg hself, action_eq_stumbles_iff, nextAction_eq_stumbles_iff]
    -- a copy that is made first makes no interrupt pending
    show cpu.mode ≠ .stopped ∧ (cpu.mode = .halted → bus.runDma.2.pendingInterrupts ≠ 0) ∧
      ¬(cpu.ime = true ∧ bus.runDma.2.pendingInterrupts ≠ 0) ∧ _ ↔ _
    rw [bus.pendingInterrupts_runDma]
    constructor
    · rintro ⟨hawake, hroused, hundisturbed, hopcode⟩
      exact ⟨⟨hself, hawake, hroused, hundisturbed⟩, hopcode⟩
    · rintro ⟨hfetches, hopcode⟩
      exact ⟨hfetches.awake, hfetches.roused, hfetches.undisturbed, hopcode⟩

variable [Timeline τ]

/-- A step fails exactly if one of the two things goes wrong, and reports that one. -/
theorem snd_step_eq_some_iff (cpu : Cpu) (bus : Bus τ) (fault : Fault) :
    (step cpu bus).2 = some fault ↔ Fails cpu bus fault := by
  constructor
  · intro h
    cases haction : stepAction cpu bus with
    | refuses =>
      rw [step_of_refuses haction] at h
      cases h
      exact .overlap (stepAction_eq_refuses_iff.1 haction)
    | waits =>
      obtain ⟨mode, hstep⟩ := step_of_waits haction
      rw [hstep] at h
      cases h
    | takes number =>
      rw [step_of_takes haction] at h
      cases h
    | executes instruction =>
      rw [step_of_executes haction] at h
      cases h
    | stumbles =>
      rw [step_of_stumbles haction] at h
      cases h
      obtain ⟨hfetches, hopcode⟩ := stepAction_eq_stumbles_iff.1 haction
      exact .illegal hfetches hopcode
  · intro h
    cases h with
    | overlap hself => rw [step_of_refuses (stepAction_eq_refuses_iff.2 hself)]
    | illegal hfetches hopcode =>
      rw [step_of_stumbles (stepAction_eq_stumbles_iff.2 ⟨hfetches, hopcode⟩)]

/-- Where the program counter is after a step that failed. -/
def pcAfter (cpu : Cpu) : Fault → UInt16
  | .dmaOverlap _ => cpu.registers.pc
  | .illegalOpcode _ _ => if cpu.haltBug then cpu.registers.pc else cpu.registers.pc + 1

theorem step_of_fails {cpu : Cpu} {bus : Bus τ} {fault : Fault} (h : Fails cpu bus fault) :
    (step cpu bus).1.cpu.registers = { cpu.registers with pc := pcAfter cpu fault } ∧
      (step cpu bus).1.cpu.ime = cpu.ime ∧ (step cpu bus).1.bus = bus.runDma.2 := by
  cases h with
  | overlap hself =>
    rw [step_of_refuses (stepAction_eq_refuses_iff.2 hself)]
    exact ⟨rfl, rfl, rfl⟩
  | illegal hfetches hopcode =>
    rw [step_of_stumbles (stepAction_eq_stumbles_iff.2 ⟨hfetches, hopcode⟩), fetched_snd]
    exact ⟨rfl, rfl, rfl⟩

end Core

namespace Machine

variable {τ : Type}

/-! ## What is left after a fault -/

/-- What a step that failed has left as it was: all registers but the program counter, and all
of the bus but the copy that was due. -/
structure Kept (m : Machine τ) (fault : Fault) (m' : Machine τ) : Prop where
  registers : m'.cpu.registers = { m.cpu.registers with pc := Core.pcAfter m.cpu fault }
  ime : m'.cpu.ime = m.cpu.ime
  interruptFlags : m'.bus.interruptFlags = m.bus.interruptFlags
  interruptEnable : m'.bus.interruptEnable = m.bus.interruptEnable
  bus : m'.bus = { m.bus with
    display := { m.bus.display with oam := m'.bus.display.oam }
    dmaPage := none }
  copied : ∀ page, m.bus.dmaPage = some page → page ≠ 0xFE → m'.bus = m.bus.copyInPlace page
  oam : m.bus.dmaPage = none ∨ m.bus.dmaPage = some 0xFE →
    m'.bus.display.oam = m.bus.display.oam
  now : m'.now = m.now

end Machine

theorem Bus.runDma_of_not_due {τ : Type} {b : Bus τ}
    (h : b.dmaPage = none ∨ b.dmaPage = some 0xFE) : b.runDma.2 = { b with dmaPage := none } := by
  unfold runDma
  rcases h with hnone | hself
  · simp only [hnone]
    rw [← hnone]
  · simp only [hself]
    rfl

namespace Machine

variable {τ : Type} [Timeline τ]

theorem fst_step_eq_error_iff (m : Machine τ) (fault : Fault) :
    m.step.1 = .error fault ↔ Core.Fails m.cpu m.bus fault := by
  rw [← Core.snd_step_eq_some_iff]
  unfold step
  split <;> rename_i hstep <;> simp [hstep]

theorem kept_of_fails {m : Machine τ} {fault : Fault} (h : Core.Fails m.cpu m.bus fault) :
    m.Kept fault m.step.2 := by
  obtain ⟨hregisters, hime, hcore⟩ := Core.step_of_fails h
  have hbus : m.step.2.bus = m.bus.runDma.2 := by
    rw [bus_step, (Core.snd_step_eq_some_iff m.cpu m.bus fault).2 h]
    exact hcore
  have hframe := m.bus.runDma_snd
  rw [← hbus] at hframe
  exact {
    registers := m.cpu_step ▸ hregisters
    ime := m.cpu_step ▸ hime
    interruptFlags := by rw [hframe]
    interruptEnable := by rw [hframe]
    bus := hframe
    copied := fun page hdue hpage => by rw [hbus, Bus.copyInPlace_eq_runDma hdue hpage]
    oam := fun hnone => by rw [hbus, Bus.runDma_of_not_due hnone]
    now := by
      unfold now
      rw [hframe] }

/-- After a fault the devices make up for nothing. -/
theorem snd_step_of_error {m : Machine τ} {fault : Fault} (h : m.step.1 = .error fault) :
    m.step.2 = { m with
      cpu := (Core.step m.cpu m.bus).1.cpu
      bus := (Core.step m.cpu m.bus).1.bus } := by
  unfold step at h ⊢
  split <;> rename_i hstep
  · rw [hstep]
  · simp [hstep] at h

/-- A step fails exactly when it must: a copy is due from object memory, or the step comes to fetch
one of the eleven bytes that encode nothing, and no other byte fails to be decoded. It reports which
of these it was, the byte and where it was fetched from. The machine is left as it was but for the
program counter, the marks of the processor, and a copy that was due and was made first. -/
theorem fails_exactly (m : Machine τ) :
    (∀ fault, (Core.step m.cpu m.bus).2 = some fault ↔ Core.Fails m.cpu m.bus fault) ∧
    (∀ fault, m.step.1 = .error fault ↔ Core.Fails m.cpu m.bus fault) ∧
    (∀ fault, m.step.1 = .error fault →
      m.step.2 = { m with
        cpu := (Core.step m.cpu m.bus).1.cpu
        bus := (Core.step m.cpu m.bus).1.bus } ∧
      m.Kept fault m.step.2) ∧
    Opcode.undefined.length = 11 ∧
    ∀ op, Instruction.decode? op = none ↔ op ∈ Opcode.undefined := by
  refine ⟨Core.snd_step_eq_some_iff m.cpu m.bus, m.fst_step_eq_error_iff, fun fault herror => ?_,
    rfl, Opcode.decode?_eq_none_iff⟩
  exact ⟨snd_step_of_error herror, kept_of_fails ((m.fst_step_eq_error_iff fault).1 herror)⟩

/-- The byte is reported with the address that it is read from, also when the counter does not move
on because of a faulty halt. -/
theorem fails_exactly_ofProgram :
    let m := ofProgram [0xDD]
    let marked := { m with cpu := { m.cpu with haltBug := true } }
    m.step.1 = .error (.illegalOpcode 0xDD 0x0100) ∧ m.step.2.cpu.registers.pc = 0x0101 ∧
      marked.step.1 = .error (.illegalOpcode 0xDD 0x0100) ∧
      marked.step.2.cpu.registers.pc = 0x0100 ∧ m.step.2.now = m.now := by
  intro m marked
  have hopcode : m.bus.runDma.2.read 0x0100 = 0xDD := by decide +kernel
  have hfails : ∀ cpu : Cpu, cpu.registers.pc = 0x0100 → cpu.mode = .running → cpu.ime = false →
      Core.Fails cpu m.bus (.illegalOpcode 0xDD 0x0100) := by
    intro cpu hpc hmode hime
    have hillegal : Core.Fails cpu m.bus _ :=
      .illegal ⟨by decide +kernel, by simp [hmode], by simp [hmode], by simp [hime]⟩
        (by rw [hpc, hopcode]; decide)
    rwa [hpc, hopcode] at hillegal
  obtain ⟨-, hstep, hleft, -⟩ := fails_exactly m
  obtain ⟨-, hstep', hleft', -⟩ := fails_exactly marked
  have herror := (hstep _).2 (hfails m.cpu rfl rfl rfl)
  have herror' := (hstep' _).2 (hfails marked.cpu rfl rfl rfl)
  have hkept := (hleft _ herror).2
  have hkept' := (hleft' _ herror').2
  refine ⟨herror, ?_, herror', ?_, hkept.now⟩
  · rw [hkept.registers]
    rfl
  · rw [hkept'.registers]
    rfl

end Machine

end DotMatrix
