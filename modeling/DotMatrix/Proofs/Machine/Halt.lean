import DotMatrix.Proofs.Cpu.Halt
import DotMatrix.Proofs.Display.CatchUp
import DotMatrix.Proofs.Machine.Service

/-!
# Halts and stops

Four switches of the processor and the pending interrupts decide what a halt does. That the
program counter can go back to a halt, and that the mark of a faulty halt is gone before anything
else could ask for it, rests on what holds in every run: with the mark interrupts are off and are
not about to be enabled (`Reachable.settled`). A processor that waits stores nothing, so all that a
run of waiting steps changes is the time (`Run.rests`). `halts_and_stops` puts the cases together.
-/

namespace DotMatrix

variable {τ : Type}

/-! ## What is pending -/

namespace Bus

theorem testBit_pendingInterrupts (b : Bus τ) {k : Nat} (hk : k < 5) :
    b.pendingInterrupts.toNat.testBit k =
      (b.interruptEnable.toNat.testBit k && b.requested k) := by
  have hmask : ∀ k : Fin 5, interruptMask.toNat.testBit k = true := by decide
  unfold pendingInterrupts requested
  rw [UInt8.toNat_and, UInt8.toNat_and, Nat.testBit_and, Nat.testBit_and, hmask ⟨k, hk⟩,
    Bool.and_true]

/-- What is enabled stays so, and requests are only added. -/
structure Accrues (b b' : Bus τ) : Prop where
  enable : b'.interruptEnable = b.interruptEnable
  requested : ∀ k, b.requested k = true → b'.requested k = true

theorem Accrues.testBit {b b' : Bus τ} (h : b.Accrues b') {k : Nat}
    (hk : b.pendingInterrupts.toNat.testBit k = true) :
    b'.pendingInterrupts.toNat.testBit k = true := by
  have hlt : k < 5 := by
    refine Nat.lt_of_not_le fun hle => ?_
    rw [b.testBit_pendingInterrupts_of_le hle] at hk
    cases hk
  rw [testBit_pendingInterrupts _ hlt, Bool.and_eq_true] at hk ⊢
  exact ⟨h.enable ▸ hk.1, h.requested k hk.2⟩

theorem Accrues.pending {b b' : Bus τ} (h : b.Accrues b') (hpending : b.pendingInterrupts ≠ 0) :
    b'.pendingInterrupts ≠ 0 := by
  have hfirst := h.testBit (firstInterrupt_spec hpending).1
  intro hnone
  rw [hnone] at hfirst
  exact absurd hfirst (by simp)

theorem accrues_advance (b : Bus τ) (cycles : Nat) : b.Accrues (b.advance cycles).2 :=
  ⟨rfl, fun _ hk => requested_of_or (b.interruptFlags_advance cycles) hk⟩

theorem accrues_runDma (b : Bus τ) : b.Accrues b.runDma.2 := by
  rw [runDma_snd]
  exact ⟨rfl, fun _ hk => hk⟩

theorem Meanwhile.accrues {b b' : Bus τ} (h : b.Meanwhile b') : b.Accrues b' := by
  refine ⟨h.interruptEnable, fun k hk => ?_⟩
  unfold requested
  rw [h.interruptFlags]
  exact hk

theorem Accrues.trans {a b c : Bus τ} (hab : a.Accrues b) (hbc : b.Accrues c) : a.Accrues c :=
  ⟨hbc.enable.trans hab.enable, fun k hk => hbc.requested k (hab.requested k hk)⟩

end Bus

namespace Machine

/-! ## The mark -/

/-- After a faulty halt the processor runs, with interrupts off and one of them pending. No copy is
due while the processor waits. -/
structure Settled (m : Machine τ) : Prop where
  marked : m.cpu.haltBug = true → m.cpu.ime = false ∧ m.cpu.enabling = false ∧
    m.cpu.mode = .running ∧ m.bus.pendingInterrupts ≠ 0
  waiting : m.cpu.mode ≠ .running → m.bus.dmaPage = none

theorem Settled.meanwhile {m m' : Machine τ} (h : m.Settled) (hm : m.Meanwhile m') :
    m'.Settled := by
  refine ⟨fun hmark => ?_, fun hmode => ?_⟩
  · rw [hm.cpu] at hmark ⊢
    obtain ⟨hime, henabling, hmode, hpending⟩ := h.marked hmark
    exact ⟨hime, henabling, hmode, hm.bus.accrues.pending hpending⟩
  · rw [hm.cpu] at hmode
    rw [hm.bus.dmaPage]
    exact h.waiting hmode

/-- The processor in the course of the next step, once an opcode is due. -/
def ready (m : Machine τ) : Core τ := (Core.prepared m.cpu m.bus).roused

theorem pending_ready (m : Machine τ) :
    m.ready.bus.pendingInterrupts = m.bus.pendingInterrupts := m.bus.pendingInterrupts_runDma

section Action

variable {m : Machine τ}

theorem mode_of_waits (h : m.action = .waits) : m.cpu.mode ≠ .running := by
  intro hmode
  unfold action Core.stepAction at h
  split at h
  · cases h
  · simp only [Core.action, Core.prepared, hmode] at h
    exact Core.nextAction_ne_waits _ h

theorem action_of_halted (hmode : m.cpu.mode = .halted) (hpage : m.bus.dmaPage = none) :
    m.action = if m.bus.pendingInterrupts = 0 then .waits else m.ready.nextAction := by
  unfold action Core.stepAction
  rw [if_neg (by simp [hpage]), ← m.pending_ready]
  simp only [Core.action, Core.prepared, hmode]
  rfl

theorem action_of_stopped (hmode : m.cpu.mode = .stopped) (hpage : m.bus.dmaPage = none) :
    m.action = .waits := by
  unfold action Core.stepAction
  rw [if_neg (by simp [hpage])]
  simp only [Core.action, Core.prepared, hmode]

theorem nextAction_of_executes {instruction : Instruction} (h : m.action = .executes instruction) :
    m.ready.nextAction = .executes instruction := by
  have hself : m.bus.dmaPage ≠ some 0xFE := fun hself => by
    rw [action, Core.stepAction, if_pos hself] at h
    cases h
  unfold action Core.stepAction at h
  rw [if_neg hself] at h
  rw [← h]
  exact Core.nextAction_roused (by simp [h])

/-- Once an interrupt is pending, a processor that was halted goes on with the opcode that follows,
if interrupts are off. -/
theorem Settled.action_of_roused (h : m.Settled) (hmode : m.cpu.mode = .halted)
    (hime : m.cpu.ime = false) (hpending : m.bus.pendingInterrupts ≠ 0) :
    m.action =
      match Instruction.decode? (m.bus.read m.cpu.registers.pc) with
      | none => .stumbles
      | some instruction => .executes instruction := by
  have hpage := h.waiting (by simp [hmode])
  have hsame : m.bus.runDma.2 = m.bus := by simp [Bus.runDma, hpage]
  have hfetched : m.ready.fetched.1 = m.bus.read m.cpu.registers.pc := by
    rw [Core.fetched_fst]
    show m.bus.runDma.2.read m.cpu.registers.pc = _
    rw [hsame]
  rw [action_of_halted hmode hpage, if_neg hpending, ← hfetched]
  exact Core.nextAction_of_ime_off hime

end Action

variable [Timeline τ] {m : Machine τ}

theorem step_of_executes {instruction : Instruction} (h : m.action = .executes instruction) :
    m.step.2.cpu = (m.ready.executed instruction).cpu ∧
      m.step.2.bus =
        ((m.ready.executed instruction).bus.advance (m.ready.executed instruction).cycles).2 := by
  rw [cpu_step, bus_step, Core.step_of_executes h]
  exact ⟨rfl, rfl⟩

theorem cpu_step_of_stumbles (h : m.action = .stumbles) :
    m.step.2.cpu = m.ready.fetched.2.cpu := by
  rw [cpu_step, Core.step_of_stumbles h]
  rfl

theorem settled_of_executes {instruction : Instruction}
    (haction : m.action = .executes instruction) : m.step.2.Settled := by
  obtain ⟨hcpu, hbus⟩ := Machine.step_of_executes haction
  refine ⟨fun hmark => ?_, fun hmode => ?_⟩
  · rw [hcpu] at hmark
    obtain ⟨rfl, henabling, hime, hpending⟩ := (Core.haltBug_executed _ _).1 hmark
    rw [hcpu, hbus, Core.executed_halt_faulty henabling hime hpending, Core.fetched_snd]
    exact ⟨hime, rfl, rfl, (Bus.accrues_advance _ _).pending hpending⟩
  · rw [hcpu] at hmode
    have hwaits : instruction = .halt ∨ instruction = .stop := by
      refine Classical.byContradiction fun hother => hmode ?_
      rw [not_or] at hother
      exact Core.mode_executed m.ready hother.1 hother.2
    rw [hbus]
    exact (Core.dmaPage_executed m.ready hwaits).trans (Bus.dmaPage_runDma _)

theorem Settled.step (h : m.Settled) : m.step.2.Settled := by
  -- one case for each thing that a step does
  cases haction : m.action with
  | refuses =>
    obtain ⟨hcpu, hbus⟩ := step_of_refuses haction
    refine ⟨fun hmark => ?_, fun _ => ?_⟩
    · rw [hcpu] at hmark ⊢
      obtain ⟨hime, henabling, hmode, hpending⟩ := h.marked hmark
      rw [hbus]
      exact ⟨hime, henabling, hmode, m.bus.accrues_runDma.pending hpending⟩
    · rw [hbus]
      exact m.bus.dmaPage_runDma
  | waits =>
    obtain ⟨mode, hstep⟩ := Core.step_of_waits haction
    refine ⟨fun hmark => ?_, fun _ => ?_⟩
    · rw [cpu_step, hstep] at hmark
      exact absurd (h.marked hmark).2.2.1 (mode_of_waits haction)
    · rw [bus_step, hstep]
      exact m.bus.dmaPage_runDma
  | takes number =>
    have hstep := Core.step_of_takes haction
    refine ⟨fun hmark => ?_, fun hmode => absurd ?_ hmode⟩
    · rw [cpu_step, hstep] at hmark
      have hon := (takes_spec haction).1
      rw [(h.marked hmark).1] at hon
      cases hon
    · rw [cpu_step, hstep]
      rfl
  | executes instruction => exact settled_of_executes haction
  | stumbles =>
    have hcpu := cpu_step_of_stumbles haction
    rw [Core.fetched_snd] at hcpu
    refine ⟨fun hmark => ?_, fun hmode => absurd ?_ hmode⟩
    · rw [hcpu] at hmark
      cases hmark
    · rw [hcpu]
      rfl

omit [Timeline τ] in
theorem settled_create (cartridge : Cartridge τ) (host : Host τ) (boot : Option BootImage) :
    (create cartridge host boot).Settled := by
  cases boot with
  | none => exact ⟨nofun, fun hmode => absurd rfl hmode⟩
  | some image => exact ⟨nofun, fun hmode => absurd rfl hmode⟩

theorem Reachable.settled (h : m.Reachable) : m.Settled :=
  h.invariant settled_create (fun _ hm => hm.step) fun _ _ hbetween hm => hm.meanwhile hbetween

/-! ## Waiting -/

/-- Nothing that a program can store has changed, and this many cycles have passed. -/
structure Rests (m m' : Machine τ) (cycles : Nat) : Prop where
  cartridge : m.bus.cartridge.Meanwhile m'.bus.cartridge
  boot : m'.bus.boot = m.bus.boot
  work : m'.bus.work = m.bus.work
  high : m'.bus.high = m.bus.high
  interruptEnable : m'.bus.interruptEnable = m.bus.interruptEnable
  serialData : m'.bus.serialData = m.bus.serialData
  serialControl : m'.bus.serialControl = m.bus.serialControl
  vram : m'.bus.display.vram = m.bus.display.vram
  oam : m'.bus.display.oam = m.bus.display.oam
  registers : m'.bus.display.registers = m.bus.display.registers
  now : m'.now = m.now + cycles

omit [Timeline τ] in
theorem Rests.trans {m₁ m₂ m₃ : Machine τ} {a b : Nat} (h : m₁.Rests m₂ a) (h' : m₂.Rests m₃ b) :
    m₁.Rests m₃ (a + b) where
  cartridge := h.cartridge.trans h'.cartridge
  boot := h'.boot.trans h.boot
  work := h'.work.trans h.work
  high := h'.high.trans h.high
  interruptEnable := h'.interruptEnable.trans h.interruptEnable
  serialData := h'.serialData.trans h.serialData
  serialControl := h'.serialControl.trans h.serialControl
  vram := h'.vram.trans h.vram
  oam := h'.oam.trans h.oam
  registers := h'.registers.trans h.registers
  now := by rw [h'.now, h.now, Nat.add_assoc]

omit [Timeline τ] in
theorem Meanwhile.rests {m m' : Machine τ} (h : m.Meanwhile m') : m.Rests m' 0 where
  cartridge := h.bus.cartridge
  boot := h.bus.boot
  work := h.bus.work
  high := h.bus.high
  interruptEnable := h.bus.interruptEnable
  serialData := h.bus.serialData
  serialControl := h.bus.serialControl
  vram := by rw [h.bus.display]
  oam := by rw [h.bus.display]
  registers := by rw [h.bus.display]
  now := congrArg Timer.now h.bus.timer

omit [Timeline τ] in
/-- A machine cycle passes. -/
theorem rests_of_advance {m m' : Machine τ} (h : m'.bus = (m.bus.advance machineCycle).2) :
    m.Rests m' machineCycle := by
  obtain ⟨hvram, hoam, hregisters⟩ := Display.contents_update m.bus.display
    (m.bus.timer.advance machineCycle).1.now
  exact
    { cartridge := by rw [h]; exact .refl _
      boot := by rw [h]; rfl
      work := by rw [h]; rfl
      high := by rw [h]; rfl
      interruptEnable := by rw [h]; rfl
      serialData := by rw [h]; rfl
      serialControl := by rw [h]; rfl
      vram := by rw [h]; exact hvram
      oam := by rw [h]; exact hoam
      registers := by rw [h]; exact hregisters
      now := (congrArg (fun b : Bus τ => b.timer.now) h).trans (Timer.now_advance m.bus.timer 1) }

/-- A step that waits leaves everything as it is. Only a button ends a stop. -/
theorem Settled.step_of_waits (h : m.Settled) (haction : m.action = .waits) :
    m.Rests m.step.2 machineCycle ∧
      m.step.2.cpu =
        { m.cpu with
          mode :=
            if m.cpu.mode = .stopped ∧ m.bus.joypad.panel.held.any = true then .running
            else m.cpu.mode } := by
  have hpage := h.waiting (mode_of_waits haction)
  cases hmode : m.cpu.mode with
  | running => exact absurd hmode (mode_of_waits haction)
  | halted =>
    have hpending : m.bus.pendingInterrupts = 0 := by
      refine Classical.byContradiction fun hpending => ?_
      rw [action_of_halted hmode hpage, if_neg hpending] at haction
      exact Core.nextAction_ne_waits _ haction
    have hstep := Core.step_of_halted hmode hpage hpending
    refine ⟨rests_of_advance (by rw [bus_step, hstep]; rfl), ?_⟩
    rw [cpu_step, hstep, if_neg (by simp), ← hmode]
  | stopped =>
    have hstep := Core.step_of_stopped hmode hpage
    refine ⟨rests_of_advance (by rw [bus_step, hstep]; rfl), ?_⟩
    rw [cpu_step, hstep]
    simp

/-- As long as a machine waits, only time passes. -/
theorem Run.rests {m m' : Machine τ} {actions : List Action} (h : Run m actions m')
    (hm : m.Settled) (hwaits : ∀ a ∈ actions, a = .waits) :
    m'.Settled ∧ m.Rests m' (machineCycle * actions.length) ∧
      (m'.cpu = m.cpu ∨ m.cpu.mode = .stopped ∧ m'.cpu = { m.cpu with mode := .running }) := by
  induction h with
  | start => exact ⟨hm, (Meanwhile.refl m).rests, .inl rfl⟩
  | @step actions m' before ih =>
    obtain ⟨hsettled, hrests, hcpu⟩ := ih fun a ha => hwaits a (List.mem_append_left _ ha)
    have haction : m'.action = .waits := hwaits _ (by simp)
    obtain ⟨hstep, hcpu'⟩ := hsettled.step_of_waits haction
    -- a processor that was woken does not wait
    have hsame : m'.cpu = m.cpu := by
      refine hcpu.resolve_right fun hwoken => mode_of_waits haction ?_
      rw [hwoken.2]
    refine ⟨hsettled.step, ?_, ?_⟩
    · rw [List.length_append]
      exact hrests.trans hstep
    · rw [hcpu', hsame]
      by_cases hwoken : m.cpu.mode = .stopped ∧ m'.bus.joypad.panel.held.any = true
      · rw [if_pos hwoken]
        exact .inr ⟨hwoken.1, rfl⟩
      · rw [if_neg hwoken]
        exact .inl rfl
  | meanwhile before between ih =>
    obtain ⟨hsettled, hrests, hcpu⟩ := ih hwaits
    exact ⟨hsettled.meanwhile between, hrests.trans between.rests, by rw [between.cpu]; exact hcpu⟩

/-- What ends the waiting of a processor that was halted. -/
theorem Settled.next_of_halted (h : m.Settled) (hmode : m.cpu.mode = .halted) :
    if m.bus.pendingInterrupts = 0 then m.action = .waits
    else if m.cpu.ime = true then m.Serves (Core.firstInterrupt m.bus.pendingInterrupts)
    else m.action =
      match Instruction.decode? (m.bus.read m.cpu.registers.pc) with
      | none => .stumbles
      | some instruction => .executes instruction := by
  have hpage := h.waiting (by simp [hmode])
  split_ifs with hnone hime
  · rw [action_of_halted hmode hpage, if_pos hnone]
  · exact serves_of_takes
      (action_eq_takes_iff.2 ⟨by simp [hpage], by simp [hmode], hime, hnone, rfl⟩)
  · exact h.action_of_roused hmode (by simpa using hime) hnone

/-! ## Executing a halt -/

theorem Settled.step_of_halt_again (h : m.Settled) (haction : m.action = .executes .halt)
    (henabling : m.cpu.enabling = true) (hpending : m.bus.pendingInterrupts ≠ 0) :
    m.step.2.cpu = { m.cpu with ime := true, mode := .running, enabling := false } ∧
      m.bus.Accrues m.step.2.bus ∧ m.step.2.bus.dmaPage = none := by
  have hmark : m.cpu.haltBug = false := by
    refine Bool.eq_false_iff.2 fun hmark => ?_
    rw [(h.marked hmark).2.1] at henabling
    cases henabling
  obtain ⟨hcpu, hbus⟩ := step_of_executes haction
  rw [hcpu, hbus, Core.executed_halt_again (s := m.ready) henabling hmark
    (by rw [pending_ready]; exact hpending)]
  exact ⟨rfl, m.bus.accrues_runDma.trans (Bus.accrues_advance _ _), m.bus.dmaPage_runDma⟩

omit [Timeline τ] in
/-- A processor with interrupts on serves the lowest number that is pending. It is the one that was
pending before, or a lower one that has been requested since. -/
theorem exists_takes_of_accrues {m' : Machine τ} (hpage : m'.bus.dmaPage = none)
    (hmode : m'.cpu.mode = .running) (hime : m'.cpu.ime = true)
    (hpending : m.bus.pendingInterrupts ≠ 0) (haccrues : m.bus.Accrues m'.bus) :
    ∃ number, m'.action = .takes number ∧
      (number = Core.firstInterrupt m.bus.pendingInterrupts ∨
        number < Core.firstInterrupt m.bus.pendingInterrupts ∧
          m.bus.requested number = false) := by
  have hpending' := haccrues.pending hpending
  obtain ⟨hset, hlower⟩ := Bus.firstInterrupt_spec hpending
  obtain ⟨hset', hlower'⟩ := Bus.firstInterrupt_spec hpending'
  refine ⟨_, action_eq_takes_iff.2
    ⟨by simp [hpage], by simp [hmode], hime, hpending', rfl⟩, ?_⟩
  have hlt := Core.firstInterrupt_lt m'.bus.pendingInterrupts
  rcases Nat.lt_trichotomy (Core.firstInterrupt m'.bus.pendingInterrupts)
    (Core.firstInterrupt m.bus.pendingInterrupts) with hless | heq | hmore
  · refine .inr ⟨hless, ?_⟩
    -- it is enabled, and was not pending before
    have hbefore := hlower _ hless
    rw [Bus.testBit_pendingInterrupts _ hlt] at hbefore hset'
    rw [haccrues.enable, Bool.and_eq_true] at hset'
    rw [hset'.1, Bool.true_and] at hbefore
    exact hbefore
  · exact .inl heq
  · exact absurd (haccrues.testBit hset) (by simp [hlower' _ hmore])

/-- Whatever the host does in between, a halt that is executed again is back at its address and the
next step serves an interrupt. -/
theorem Settled.serves_of_halt_again {next : Machine τ} (h : m.Settled)
    (haction : m.action = .executes .halt) (henabling : m.cpu.enabling = true)
    (hpending : m.bus.pendingInterrupts ≠ 0) (hbetween : m.step.2.Meanwhile next) :
    next.cpu.registers.pc = m.cpu.registers.pc ∧
      ∃ number, next.Serves number ∧
        (number = Core.firstInterrupt m.bus.pendingInterrupts ∨
          number < Core.firstInterrupt m.bus.pendingInterrupts ∧
            m.bus.requested number = false) := by
  obtain ⟨hcpu, haccrues, hpage⟩ := h.step_of_halt_again haction henabling hpending
  have hnext := hbetween.cpu.trans hcpu
  obtain ⟨number, htakes, hnumber⟩ := exists_takes_of_accrues
    (hbetween.bus.dmaPage.trans hpage) (by rw [hnext]) (by rw [hnext]) hpending
    (haccrues.trans hbetween.bus.accrues)
  exact ⟨by rw [hnext], number, serves_of_takes htakes, hnumber⟩

theorem cpu_step_of_halt_faulty (haction : m.action = .executes .halt)
    (henabling : m.cpu.enabling = false) (hime : m.cpu.ime = false)
    (hpending : m.bus.pendingInterrupts ≠ 0) :
    m.step.2.cpu =
      { m.cpu with
        mode := .running
        haltBug := true
        registers :=
          { m.cpu.registers with
            pc := if m.cpu.haltBug then m.cpu.registers.pc else m.cpu.registers.pc + 1 } } := by
  rw [(step_of_executes haction).1, Core.executed_halt_faulty (s := m.ready) henabling hime
    (by rw [pending_ready]; exact hpending), Core.fetched_snd, ← henabling]
  rfl

omit [Timeline τ] in
/-- An interrupt that is pending would have been taken, if interrupts were on. -/
theorem pending_of_halt_lasting (haction : m.action = .executes .halt)
    (h : ¬(m.cpu.ime = false ∧ m.bus.pendingInterrupts ≠ 0)) : m.bus.pendingInterrupts = 0 := by
  rcases Core.pending_of_executes (nextAction_of_executes haction) with hoff | hnone
  · exact Classical.byContradiction fun hpending => h ⟨hoff, hpending⟩
  · exact m.pending_ready ▸ hnone

theorem Settled.cpu_step_of_halt_lasting (h : m.Settled) (haction : m.action = .executes .halt)
    (hpending : m.bus.pendingInterrupts = 0) :
    m.step.2.cpu =
      { m.cpu with
        ime := m.cpu.ime || m.cpu.enabling
        mode := .halted
        enabling := false
        registers := { m.cpu.registers with pc := m.cpu.registers.pc + 1 } } := by
  -- with the mark an interrupt would be pending
  have hmark : m.cpu.haltBug = false :=
    Bool.eq_false_iff.2 fun hmark => (h.marked hmark).2.2.2 hpending
  rw [(step_of_executes haction).1, Core.executed_halt_lasting (s := m.ready)
    (by rw [pending_ready]; exact hpending), Core.fetched_snd]
  simp [ready, Core.prepared, Core.roused, hmark]

/-- What becomes of the mark in a step. -/
theorem Settled.haltBug_step (h : m.Settled) :
    m.step.2.cpu.haltBug = true ↔
      (m.action = .executes .halt ∧ m.cpu.enabling = false ∧ m.cpu.ime = false ∧
        m.bus.pendingInterrupts ≠ 0) ∨ m.action = .refuses ∧ m.cpu.haltBug = true := by
  cases haction : m.action with
  | refuses =>
    rw [(step_of_refuses haction).1]
    simp
  | waits =>
    have hmark : m.cpu.haltBug = false :=
      Bool.eq_false_iff.2 fun hmark => mode_of_waits haction (h.marked hmark).2.2.1
    rw [(h.step_of_waits haction).2]
    simp [hmark]
  | takes number =>
    have hmark : m.cpu.haltBug = false := by
      refine Bool.eq_false_iff.2 fun hmark => ?_
      have hon := (takes_spec haction).1
      rw [(h.marked hmark).1] at hon
      cases hon
    rw [(serves_of_takes haction).cpu]
    simp [hmark]
  | executes instruction =>
    rw [(step_of_executes haction).1, Core.haltBug_executed, pending_ready]
    simp [ready, Core.prepared, Core.roused]
  | stumbles =>
    rw [cpu_step_of_stumbles haction, Core.fetched_snd]
    simp

/-- Halts and stops in any run:

* Executing a halt has one of three outcomes. If interrupts were about to be enabled and one is
  pending, the program counter is back at the halt and the next step serves that interrupt, or one
  of a lower number that was requested while the halt was executed. If interrupts are off and one is
  pending, the processor runs on with a mark. Otherwise it halts.
* With the mark interrupts are off and none are about to be enabled, and the processor runs.
  Nothing else leaves the mark, and it lasts until an opcode is fetched, for which the program
  counter stays where it is.
* While a halted processor waits, only time passes. It waits as long as no interrupt is pending.
  Then it serves the lowest, if interrupts are on, and otherwise goes on with the next opcode.
* A stopped processor waits for a button. -/
theorem halts_and_stops {m : Machine τ} (hm : m.Reachable) :
    let pc := m.cpu.registers.pc
    let pending := m.bus.pendingInterrupts
    let after := m.step.2
    (m.action = .executes .halt →
      if m.cpu.enabling = true ∧ pending ≠ 0 then
        after.cpu = { m.cpu with ime := true, mode := .running, enabling := false } ∧
        ∀ next, after.Meanwhile next → next.cpu.registers.pc = pc ∧
          ∃ number, next.Serves number ∧
            (number = Core.firstInterrupt pending ∨
              number < Core.firstInterrupt pending ∧ m.bus.requested number = false)
      else if m.cpu.ime = false ∧ pending ≠ 0 then
        after.cpu =
          { m.cpu with
            mode := .running
            haltBug := true
            registers := { m.cpu.registers with pc := if m.cpu.haltBug then pc else pc + 1 } }
      else
        after.cpu =
          { m.cpu with
            ime := m.cpu.ime || m.cpu.enabling
            mode := .halted
            enabling := false
            registers := { m.cpu.registers with pc := pc + 1 } }) ∧
    ((m.cpu.haltBug = true →
        m.cpu.ime = false ∧ m.cpu.enabling = false ∧ m.cpu.mode = .running) ∧
      (after.cpu.haltBug = true ↔
        (m.action = .executes .halt ∧ m.cpu.enabling = false ∧ m.cpu.ime = false ∧ pending ≠ 0) ∨
          m.action = .refuses ∧ m.cpu.haltBug = true) ∧
      m.ready.fetched.2.registers.pc = (if m.cpu.haltBug then pc else pc + 1) ∧
      ∀ instruction, m.action = .executes instruction → after.cpu.registers =
        (m.ready.fetched.2.execute m.cpu.enabling instruction).registers) ∧
    (m.cpu.mode = .halted → ∀ actions m', Run m actions m' → (∀ a ∈ actions, a = .waits) →
      m.Rests m' (4 * actions.length) ∧ m'.cpu = m.cpu ∧
        if m'.bus.pendingInterrupts = 0 then m'.action = .waits
        else if m.cpu.ime = true then m'.Serves (Core.firstInterrupt m'.bus.pendingInterrupts)
        else m'.action =
          match Instruction.decode? (m'.bus.read pc) with
          | none => .stumbles
          | some instruction => .executes instruction) ∧
    (m.cpu.mode = .stopped → ∀ actions m', Run m actions m' → (∀ a ∈ actions, a = .waits) →
      m.Rests m' (4 * actions.length) ∧
        (m'.cpu = { m.cpu with mode := .running } ∨
          m'.cpu = m.cpu ∧ m'.action = .waits ∧
            m'.step.2.cpu.mode =
              if m'.bus.joypad.panel.held.any = true then .running else .stopped)) := by
  intro pc pending after
  have hsettled := hm.settled
  refine ⟨fun haction => ?_, ⟨fun hmark => ?_, hsettled.haltBug_step, ?_, fun i haction => ?_⟩,
    fun hmode actions m' hrun hwaits => ?_, fun hmode actions m' hrun hwaits => ?_⟩
  · by_cases hagain : m.cpu.enabling = true ∧ pending ≠ 0
    · rw [if_pos hagain]
      exact ⟨(hsettled.step_of_halt_again haction hagain.1 hagain.2).1,
        fun _ => hsettled.serves_of_halt_again haction hagain.1 hagain.2⟩
    rw [if_neg hagain]
    by_cases hfaulty : m.cpu.ime = false ∧ pending ≠ 0
    · rw [if_pos hfaulty]
      have henabling : m.cpu.enabling = false :=
        Bool.eq_false_iff.2 fun henabling => hagain ⟨henabling, hfaulty.2⟩
      exact cpu_step_of_halt_faulty haction henabling hfaulty.1 hfaulty.2
    · rw [if_neg hfaulty]
      exact hsettled.cpu_step_of_halt_lasting haction (pending_of_halt_lasting haction hfaulty)
  · obtain ⟨hime, henabling, hmode, -⟩ := hsettled.marked hmark
    exact ⟨hime, henabling, hmode⟩
  · rw [Core.fetched_snd]
    rfl
  · show m.step.2.cpu.registers = _
    rw [(step_of_executes haction).1, Core.cpu_executed]
    rfl
  · obtain ⟨hsettled', hrests, hcpu⟩ := hrun.rests hsettled hwaits
    have hsame : m'.cpu = m.cpu := hcpu.resolve_right fun hstopped => by
      rw [hmode] at hstopped
      cases hstopped.1
    have hnext := hsettled'.next_of_halted (hsame ▸ hmode)
    rw [hsame] at hnext
    exact ⟨hrests, hsame, hnext⟩
  · obtain ⟨hsettled', hrests, hcpu⟩ := hrun.rests hsettled hwaits
    refine ⟨hrests, hcpu.symm.imp (·.2) fun hsame => ?_⟩
    rw [← hsame] at hmode
    have haction := action_of_stopped hmode (hsettled'.waiting (by simp [hmode]))
    refine ⟨hsame, haction, ?_⟩
    rw [(hsettled'.step_of_waits haction).2, hmode]
    simp

/-- The display's interrupt is pending when this program halts right after it enabled interrupts.
It is served at once, and will return to the halt. -/
theorem halts_and_stops_ofProgram :
    let m := (ofProgram [0x3E, 0x01, 0xE0, 0xFF, 0xFB, 0x76]).afterSteps 3
    m.Reachable ∧ m.action = .executes .halt ∧ m.cpu.enabling = true ∧
      m.step.2.cpu.registers.pc = 0x0105 ∧ m.step.2.Serves 0 := by
  intro m
  -- of any machine, since this one would be run to see that both sides are the same
  have hserves : ∀ m : Machine Float, m.Reachable → m.action = .executes .halt →
      m.cpu.enabling = true → m.bus.pendingInterrupts = 0x01 →
      m.step.2.cpu.registers.pc = m.cpu.registers.pc ∧ m.step.2.Serves 0 := by
    intro m hreachable haction henabling hpending
    have houtcome := (halts_and_stops hreachable).1 haction
    rw [if_pos ⟨henabling, by rw [hpending]; decide⟩, hpending] at houtcome
    obtain ⟨hback, number, hserves, hnumber⟩ := houtcome.2 _ (.refl _)
    -- there is no lower number
    have hfirst : Core.firstInterrupt 0x01 = 0 := by decide
    obtain rfl : number = 0 := by omega
    exact ⟨hback, hserves⟩
  have hreachable : m.Reachable := reachable_afterSteps (reachable_ofProgram _) 3
  have haction : m.action = .executes .halt := by decide +kernel
  have henabling : m.cpu.enabling = true := by decide +kernel
  have hpc : m.cpu.registers.pc = 0x0105 := by decide +kernel
  obtain ⟨hback, hserved⟩ := hserves m hreachable haction henabling (by decide +kernel)
  exact ⟨hreachable, haction, henabling, hback.trans hpc, hserved⟩

/-- The program requests the interrupt of the serial port and halts right after it enabled
interrupts, in the cycles in which the timer requests its own. -/
def haltAtOverflow : List UInt8 :=
  [0x3E, 0x0D, 0xE0, 0x07, 0xE0, 0xFF, 0x3E, 0x08, 0xE0, 0x0F, 0x3E, 0xFE, 0xE0, 0x05, 0x00, 0xFB,
    0x76]

/-- The interrupt that was pending at the halt is not the one served next. -/
theorem not_serves_haltAtOverflow :
    ∃ m : Machine Float, m.Reachable ∧ m.action = .executes .halt ∧ m.cpu.enabling = true ∧
      m.bus.pendingInterrupts = 0x08 ∧ ¬ m.step.2.Serves 3 := by
  refine ⟨(ofProgram haltAtOverflow).afterSteps 9, reachable_afterSteps (reachable_ofProgram _) 9,
    by decide +kernel, by decide +kernel, by decide +kernel, fun hserves => ?_⟩
  have htimer : ((ofProgram haltAtOverflow).afterSteps 10).action = .takes 2 := by decide +kernel
  exact absurd (Action.takes.inj (htimer.symm.trans (serves_iff.1 hserves))) (by decide)

end Machine

end DotMatrix
