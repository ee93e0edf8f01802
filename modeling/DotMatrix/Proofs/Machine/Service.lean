import DotMatrix.Proofs.Machine.Budget
import DotMatrix.Proofs.Machine.Requests

/-!
# The right interrupt is taken

Whether a step takes an interrupt is decided by the state at its start, and the lowest pending
number is the one (`action_eq_takes_iff`). `Serves` lists what such a step does, and no other step
does all of it (`serves_iff`). Together with what becomes of requests and of presses this is what a
program may rely on (`requests_honoured`).
-/

namespace DotMatrix

variable {τ : Type}

/-! ## Which interrupt -/

namespace Bus

/-- Only the numbers below five are ever pending. -/
theorem testBit_pendingInterrupts_of_le (b : Bus τ) {k : Nat} (hk : 5 ≤ k) :
    b.pendingInterrupts.toNat.testBit k = false := by
  have hmask : interruptMask.toNat < 2 ^ k :=
    Nat.lt_of_lt_of_le (show interruptMask.toNat < 2 ^ 5 by decide)
      (Nat.pow_le_pow_right (by decide) hk)
  unfold pendingInterrupts
  rw [UInt8.toNat_and, Nat.testBit_and, Nat.testBit_lt_two_pow hmask, Bool.and_false]

/-- The interrupt that is chosen is pending, and none of a lower number is. -/
theorem firstInterrupt_spec {b : Bus τ} (h : b.pendingInterrupts ≠ 0) :
    b.pendingInterrupts.toNat.testBit (Core.firstInterrupt b.pendingInterrupts) = true ∧
      ∀ lower < Core.firstInterrupt b.pendingInterrupts,
        b.pendingInterrupts.toNat.testBit lower = false := by
  unfold Core.firstInterrupt
  cases hfind : (List.range 5).find? fun n => b.pendingInterrupts.toNat.testBit n with
  | none =>
    -- then no number at all is pending
    have hnone : ∀ k, b.pendingInterrupts.toNat.testBit k = false := by
      intro k
      by_cases hk : k < 5
      · simpa using List.find?_eq_none.1 hfind k (List.mem_range.2 hk)
      · exact b.testBit_pendingInterrupts_of_le (Nat.le_of_not_lt hk)
    have hzero : b.pendingInterrupts.toNat = 0 :=
      Nat.eq_of_testBit_eq fun k => (hnone k).trans (Nat.zero_testBit k).symm
    exact absurd (UInt8.toNat_inj.1 hzero) h
  | some number =>
    obtain ⟨hset, -, hlower⟩ := List.find?_range_eq_some.1 hfind
    exact ⟨hset, fun lower hlt => by simpa using hlower lower hlt⟩

/-- Of a word that is pushed, only the high byte can request an interrupt: before the low byte
clears the divider, the high byte has gone to the counter, and no reload is pending. -/
theorem interruptFlags_push [Timeline τ] {b : Bus τ} {sp : UInt16} (hhigh : sp - 1 ≠ 0xFF0F)
    (hlow : sp - 2 ≠ 0xFF0F) (high low : UInt8) :
    ((b.write (sp - 1) high).write (sp - 2) low).interruptFlags =
      b.interruptFlags ||| bitsIf (sp - 1 = 0xFF04 && b.timer.reloadPending) Timer.interrupt := by
  by_cases hdivider : sp - 1 = 0xFF04
  · have hnext : sp - 2 ≠ 0xFF04 := by grind
    rw [interruptFlags_write hnext hlow, hdivider, interruptFlags_write_divider]
    rfl
  · have hnone : bitsIf (decide (sp - 1 = 0xFF04) && b.timer.reloadPending)
        Timer.interrupt = 0 := by simp [hdivider, bitsIf]
    have hfirst := interruptFlags_write (b := b) hdivider hhigh high
    rw [hnone, UInt8.or_zero, ← hfirst]
    by_cases hcounter : sp - 2 = 0xFF04
    · have haddr : sp - 1 = 0xFF05 := by grind
      rw [hcounter, interruptFlags_write_divider, haddr]
      exact UInt8.or_zero
    · exact interruptFlags_write hcounter hlow low

end Bus

namespace Core

/-- Few instructions last as long as taking an interrupt. -/
theorem duration_eq_four {s : Core τ} {instruction : Instruction} (h : s.duration instruction = 4) :
    instruction = .storeSp ∨
      ∃ condition, instruction = .retIf condition ∧ s.meets (some condition) = true := by
  cases instruction with
  | storeSp => exact .inl rfl
  | retIf condition =>
    refine .inr ⟨condition, rfl, ?_⟩
    simp only [duration] at h
    split at h
    · assumption
    · cases h
  | prefixed =>
    have hle := (PrefixedInstruction.decode s.fetchByte.1).duration_le
    simp only [duration] at h
    omega
  | load target source =>
    have hsource := source.accesses_le
    have htarget := target.accesses_le
    simp only [duration] at h
    omega
  | loadImmediate operand | alu _ operand | increment operand | decrement operand =>
    have hle := operand.accesses_le
    simp only [duration] at h
    omega
  | jump condition | jumpRelative condition | call condition =>
    simp only [duration] at h
    split at h <;> cases h
  | _ => simp [duration] at h

theorem sp_fetched (s : Core τ) : s.fetched.2.registers.sp = s.registers.sp := by
  unfold fetched fetchOpcode
  split <;> rfl

/-- None of them pushes. -/
theorem sp_executed [Timeline τ] {s : Core τ} {instruction : Instruction}
    (h : s.fetched.2.duration instruction = 4) :
    (s.executed instruction).registers.sp ≠ s.registers.sp - 2 := by
  have hexecuted : (s.executed instruction).registers =
      (s.fetched.2.execute s.cpu.enabling instruction).registers := by
    unfold executed
    dsimp only
    split <;> rfl
  rw [hexecuted, ← sp_fetched s]
  rcases duration_eq_four h with rfl | ⟨condition, rfl, hmeets⟩
  · show s.fetched.2.registers.sp ≠ s.fetched.2.registers.sp - 2
    grind
  · have hmet : condition.holds s.fetched.2.registers = true := hmeets
    have hsp : (s.fetched.2.execute s.cpu.enabling (.retIf condition)).registers.sp =
        s.fetched.2.registers.sp + 2 := by
      simp only [execute, if_pos hmet]
      rfl
    rw [hsp]
    grind
end Core

namespace Machine

theorem action_eq_takes_iff {m : Machine τ} {number : Nat} :
    m.action = .takes number ↔
      m.bus.dmaPage ≠ some 0xFE ∧ m.cpu.mode ≠ .stopped ∧ m.cpu.ime = true ∧
        m.bus.pendingInterrupts ≠ 0 ∧ number = Core.firstInterrupt m.bus.pendingInterrupts := by
  rw [← m.bus.pendingInterrupts_runDma]
  unfold action Core.stepAction
  by_cases hself : m.bus.dmaPage = some 0xFE
  · simp [hself]
  · rw [if_neg hself, Core.action_eq_takes_iff]
    simp [hself, Core.prepared]

/-! ## What taking it does -/

variable [Timeline τ]

/-- The bus once the flag is cleared and the present address is on the stack. -/
def stacked (m : Machine τ) (number : Nat) : Bus τ :=
  let cleared := m.bus.runDma.2.acknowledgeInterrupt ((1 : UInt8) <<< number.toUInt8)
  (cleared.write (m.cpu.registers.sp - 1) (Word.high m.cpu.registers.pc)).write
    (m.cpu.registers.sp - 2) (Word.low m.cpu.registers.pc)

/-- The next step serves the request of this number. It is the lowest that is pending. Its flag is
cleared, and the program goes on at its vector, with interrupts off and the present address on the
stack. -/
structure Serves (m : Machine τ) (number : Nat) : Prop where
  pending : m.bus.pendingInterrupts.toNat.testBit number = true
  lowest : ∀ lower < number, m.bus.pendingInterrupts.toNat.testBit lower = false
  completes : ∃ boundary, m.step.1 = .ok boundary
  cpu : m.step.2.cpu =
    { m.cpu with
      ime := false
      mode := .running
      registers :=
        { m.cpu.registers with
          sp := m.cpu.registers.sp - 2
          pc := 0x40 + 8 * number.toUInt16 } }
  bus : m.step.2.bus = ((m.stacked number).advance 20).2
  now : m.step.2.now = m.now + 20
  /-- No other flag is cleared. If the stack reaches the divider, the timer may request anew. -/
  flags : m.cpu.registers.sp - 1 ≠ 0xFF0F → m.cpu.registers.sp - 2 ≠ 0xFF0F →
    (m.stacked number).interruptFlags =
      (m.bus.interruptFlags &&& ~~~((1 : UInt8) <<< number.toUInt8)) |||
        bitsIf (m.cpu.registers.sp - 1 = 0xFF04 && m.bus.timer.reloadPending) Timer.interrupt

theorem interruptFlags_stacked {m : Machine τ} (number : Nat)
    (hhigh : m.cpu.registers.sp - 1 ≠ 0xFF0F) (hlow : m.cpu.registers.sp - 2 ≠ 0xFF0F) :
    (m.stacked number).interruptFlags =
      (m.bus.interruptFlags &&& ~~~((1 : UInt8) <<< number.toUInt8)) |||
        bitsIf (m.cpu.registers.sp - 1 = 0xFF04 && m.bus.timer.reloadPending) Timer.interrupt := by
  have htimer : m.bus.runDma.2.timer = m.bus.timer := by rw [Bus.runDma_snd]
  unfold stacked
  dsimp only
  rw [Bus.interruptFlags_push hhigh hlow, ← m.bus.interruptFlags_runDma, ← htimer]
  rfl

theorem fst_step_of_refuses {m : Machine τ} (h : m.action = .refuses) :
    m.step.1 = .error (.dmaOverlap 0xFE00) := by
  unfold step
  rw [Core.step_of_refuses h]

theorem fst_step_of_executes {m : Machine τ} {instruction : Instruction}
    (h : m.action = .executes instruction) : ∃ boundary, m.step.1 = .ok boundary := by
  unfold step
  rw [Core.step_of_executes h]
  exact ⟨_, rfl⟩

theorem fst_step_of_takes {m : Machine τ} {number : Nat} (h : m.action = .takes number) :
    ∃ boundary, m.step.1 = .ok boundary := by
  unfold step
  rw [Core.step_of_takes h]
  exact ⟨_, rfl⟩

theorem fst_step_of_stumbles {m : Machine τ} (h : m.action = .stumbles) :
    ∃ fault, m.step.1 = .error fault := by
  unfold step
  rw [Core.step_of_stumbles h]
  exact ⟨_, rfl⟩

theorem now_of_ok {m : Machine τ} {boundary : Bool} (h : m.step.1 = .ok boundary) :
    m.step.2.now = m.now + (Core.step m.cpu m.bus).1.cycles := by
  have hfault : (Core.step m.cpu m.bus).2 = none := by
    unfold step at h
    split at h
    · cases h
    · rename_i hcore
      rw [hcore]
  obtain ⟨n, -, -, hcycles⟩ := Core.step_lasts hfault
  unfold now
  rw [bus_step_of_ok h, ← m.continues_step.now, hcycles]
  exact Timer.now_advance _ n

theorem serves_of_takes {m : Machine τ} {number : Nat} (h : m.action = .takes number) :
    m.Serves number := by
  obtain ⟨-, -, -, hpending, rfl⟩ := action_eq_takes_iff.1 h
  obtain ⟨hset, hlower⟩ := Bus.firstInterrupt_spec hpending
  have hstep := Core.step_of_takes h
  have hfault : (Core.step m.cpu m.bus).2 = none := by rw [hstep]
  have hcycles : (Core.step m.cpu m.bus).1.cycles = 20 := by
    rw [hstep]
    rfl
  have hcore : (Core.step m.cpu m.bus).1.bus =
      m.stacked (Core.firstInterrupt m.bus.pendingInterrupts) := by
    rw [hstep]
    rfl
  have hbus : m.step.2.bus =
      ((m.stacked (Core.firstInterrupt m.bus.pendingInterrupts)).advance 20).2 := by
    rw [bus_step, hfault, hcycles, hcore]
    rfl
  refine ⟨hset, hlower, fst_step_of_takes h, ?_, hbus, ?_, interruptFlags_stacked _⟩
  · rw [cpu_step, hstep]
    rfl
  · obtain ⟨boundary, hok⟩ := fst_step_of_takes h
    rw [now_of_ok hok, hcycles]

/-- Nothing else that a step does could be taken for it. -/
theorem serves_iff {m : Machine τ} {number : Nat} : m.Serves number ↔ m.action = .takes number := by
  refine ⟨fun h => ?_, serves_of_takes⟩
  obtain ⟨boundary, hok⟩ := h.completes
  have hcycles : (Core.step m.cpu m.bus).1.cycles = 20 := by
    have hnow := now_of_ok hok
    rw [h.now] at hnow
    omega
  have hsp : (Core.step m.cpu m.bus).1.registers.sp = m.cpu.registers.sp - 2 := by
    show (Core.step m.cpu m.bus).1.cpu.registers.sp = _
    rw [← cpu_step, h.cpu]
  cases haction : m.action with
  | takes other =>
    -- of two numbers the lower one would be chosen
    have hother := serves_of_takes haction
    rcases Nat.lt_trichotomy number other with hlt | rfl | hlt
    · exact absurd h.pending (by simp [hother.lowest number hlt])
    · rfl
    · exact absurd hother.pending (by simp [h.lowest other hlt])
  | waits =>
    obtain ⟨mode, hstep⟩ := Core.step_of_waits haction
    rw [hstep] at hcycles
    cases hcycles
  | executes instruction =>
    rw [Core.step_of_executes haction] at hcycles hsp
    rw [Core.cycles_executed] at hcycles
    refine absurd hsp (Core.sp_executed ?_)
    change 0 + (1 + _) * 4 = 20 at hcycles
    omega
  | refuses =>
    rw [fst_step_of_refuses haction] at hok
    cases hok
  | stumbles =>
    obtain ⟨fault, hfault⟩ := fst_step_of_stumbles haction
    rw [hfault] at hok
    cases hok

/-! ## What a program may rely on -/

theorem serves_some_iff {m : Machine τ} (h : m.step.1 ≠ .error (.dmaOverlap 0xFE00)) :
    (∃ number, m.Serves number) ↔
      m.cpu.mode ≠ .stopped ∧ m.cpu.ime = true ∧
        m.bus.interruptEnable &&& m.bus.interruptFlags &&& 0x1F ≠ 0 := by
  have hself : m.bus.dmaPage ≠ some 0xFE := fun hself =>
    h (fst_step_of_refuses (Core.stepAction_eq_refuses_iff.2 hself))
  constructor
  · rintro ⟨number, hserves⟩
    obtain ⟨-, hmode, hime, hpending, -⟩ := action_eq_takes_iff.1 (serves_iff.1 hserves)
    exact ⟨hmode, hime, hpending⟩
  · rintro ⟨hmode, hime, hpending⟩
    exact ⟨_, serves_of_takes (action_eq_takes_iff.2 ⟨hself, hmode, hime, hpending, rfl⟩)⟩

/-- Requests of interrupts from their making to their end:

* In a run in which the host does anything between steps, a request that is there stays, unless a
  step serves it or writes to the flags (`Core.bus_step` says what `writes` is).
* A step that does not fail for the copy to object memory serves a request exactly if at its start
  the processor is not stopped, interrupts are on, and one is requested and enabled. `Serves` says
  which one and how.
* If a button goes down, and no time passes before the end of a run, then whatever else the host
  does, the interrupt of the buttons is requested when time passes next. -/
theorem requests_honoured (m : Machine τ) :
    (∀ gaps k, m.bus.requested k = true →
      (m.attended gaps).bus.requested k = true ∨
        ∃ before gap after, gaps = before ++ gap :: after ∧
          let now := (m.attended before).attend gap
          now.Serves k ∨ ∃ val, (0xFF0F, val) ∈ now.writes) ∧
    (m.step.1 ≠ .error (.dmaOverlap 0xFE00) →
      ((∃ number, m.Serves number) ↔
        m.cpu.mode ≠ .stopped ∧ m.cpu.ime = true ∧
          m.bus.interruptEnable &&& m.bus.interruptFlags &&& 0x1F ≠ 0)) ∧
    ∀ buttons button, buttons.held button = true →
      m.bus.joypad.panel.held.held button = false →
      ∀ gaps gap,
        (∀ outcome ∈ (m.press buttons).outcomes gaps, ∃ fault, outcome.result = .error fault) →
        let last := ((m.press buttons).attended gaps).attend gap
        (∀ cycles, (last.bus.advance cycles).2.requested 4 = true) ∧
          ∀ boundary, last.step.1 = .ok boundary → last.step.2.bus.requested 4 = true := by
  refine ⟨fun gaps k hk => ?_, serves_some_iff,
    fun _ _ hnow hbefore _ gap hfaults => requested_of_press hnow hbefore hfaults gap⟩
  rcases requested_attended hk gaps with hkept | ⟨before, gap, after, hgaps, hlost⟩
  · exact .inl hkept
  · exact .inr ⟨before, gap, after, hgaps, hlost.imp_left serves_of_takes⟩

/-- The program has object memory copied to itself, which fails. -/
def copyToItself : List UInt8 := [0x3E, 0xFE, 0xE0, 0x46, 0x00]

/-- A request outlasts a step that does something else, and the step after it serves the request.
A button that is released again leaves its request, although a step fails in between. -/
theorem requests_honoured_ofProgram :
    let m := (ofProgram enableOnce).afterSteps 3
    let now := m.attended [[.press ⟨0x01⟩]]
    let failing := (ofProgram copyToItself).afterSteps 2
    m.bus.requested 0 = true ∧ now.bus.requested 0 = true ∧ now.Serves 0 ∧
      (failing.press ⟨0x02⟩).step.1 = .error (.dmaOverlap 0xFE00) ∧
      (((failing.press ⟨0x02⟩).attended [[]]).attend [.press ⟨0x00⟩]).step.2.bus.requested 4 =
        true := by
  intro m now failing
  obtain ⟨hrun, -⟩ := requests_honoured m
  obtain ⟨-, hserves, -⟩ := requests_honoured now
  have hrequested : m.bus.requested 0 = true := by decide +kernel
  have hkept : now.bus.requested 0 = true := by
    rcases hrun [[.press ⟨0x01⟩]] 0 hrequested with hkept | ⟨before, gap, after, hgaps, hlost⟩
    · exact hkept
    · obtain ⟨rfl, rfl⟩ : before = [] ∧ gap = [.press ⟨0x01⟩] := by cases before <;> simp_all
      have hnop : (m.attend [.press ⟨0x01⟩]).action = .executes .nop := by decide +kernel
      have hnone : (m.attend [.press ⟨0x01⟩]).writes = [] := by decide +kernel
      rcases hlost with hserved | ⟨val, hmem⟩
      · exact absurd (hnop.symm.trans (serves_iff.1 hserved)) (by simp)
      · exact absurd (hnone ▸ hmem) (by simp)
  have hserved : now.Serves 0 := by
    have htakes : now.action = .takes 0 := by decide +kernel
    obtain ⟨_, hfine⟩ := fst_step_of_takes htakes
    obtain ⟨number, hserved⟩ := (hserves (by simp [hfine])).2
      ⟨by decide +kernel, by decide +kernel, by decide +kernel⟩
    obtain rfl : 0 = number := Action.takes.inj (htakes.symm.trans (serves_iff.1 hserved))
    exact hserved
  have hfails : (failing.press ⟨0x02⟩).step.1 = .error (.dmaOverlap 0xFE00) :=
    fst_step_of_refuses (by decide +kernel)
  have hnext : (((failing.press ⟨0x02⟩).attended [[]]).attend [.press ⟨0x00⟩]).action =
      .executes .nop := by decide +kernel
  obtain ⟨boundary, hok⟩ := fst_step_of_executes hnext
  -- of any machine, since this one would be run to see that both sides are the same
  have hpressed : ∀ m' : Machine Float, m'.bus.joypad.panel.held.held .b = false →
      (m'.press ⟨0x02⟩).step.1 = .error (.dmaOverlap 0xFE00) →
      let last := ((m'.press ⟨0x02⟩).attended [[]]).attend [.press ⟨0x00⟩]
      ∀ boundary, last.step.1 = .ok boundary → last.step.2.bus.requested 4 = true := by
    intro m' hheld hfault
    obtain ⟨-, -, hpress⟩ := requests_honoured m'
    refine (hpress ⟨0x02⟩ .b (by decide) hheld [[]] [.press ⟨0x00⟩] fun outcome hmem => ?_).2
    rw [List.mem_singleton.1 hmem]
    exact ⟨_, hfault⟩
  exact ⟨hrequested, hkept, hserved, hfails,
    hpressed failing (by decide +kernel) hfails boundary hok⟩

end Machine

end DotMatrix
