import DotMatrix.Machine

/-!
# What a step does

A step of the processor does one of five things, and `action` tells from the state before the step
which one. Each has an equation that says what becomes of the processor and its bus.
-/

namespace DotMatrix

inductive Action where
  /-- A copy to object memory is due that cannot be made. -/
  | refuses
  /-- The processor is halted or stopped, and a machine cycle passes. -/
  | waits
  /-- The interrupt of this number is taken. -/
  | takes (number : Nat)
  | executes (instruction : Instruction)
  /-- The opcode fetched is no instruction. -/
  | stumbles
deriving DecidableEq, Repr, Inhabited

namespace Bus

variable {τ : Type}

theorem runDma_fst (b : Bus τ) :
    b.runDma.1 = if b.dmaPage = some 0xFE then .error (.dmaOverlap 0xFE00) else .ok () := by
  unfold runDma
  cases hpage : b.dmaPage with
  | none => rfl
  | some page =>
    -- object memory cannot be its own source
    by_cases hself : page = 0xFE
    · subst hself
      rfl
    · dsimp only
      rw [if_neg hself, if_neg (by simpa using hself)]

theorem runDma_snd (b : Bus τ) :
    b.runDma.2 =
      { b with
        display := { b.display with oam := b.runDma.2.display.oam }
        dmaPage := none } := by
  unfold runDma
  cases hpage : b.dmaPage with
  | none =>
    dsimp only
    rw [← hpage]
  | some page =>
    by_cases hself : page = 0xFE
    · simp only [if_pos hself]
    · simp only [if_neg hself]

theorem dmaPage_runDma (b : Bus τ) : b.runDma.2.dmaPage = none := by
  rw [runDma_snd]

theorem pendingInterrupts_runDma (b : Bus τ) :
    b.runDma.2.pendingInterrupts = b.pendingInterrupts := by
  rw [runDma_snd]
  rfl

end Bus

namespace Core

variable {τ : Type}

/-! ## Telling the action -/

/-- The processor goes on, whether or not it was halted. -/
def roused (s : Core τ) : Core τ := { s with cpu := { s.cpu with mode := .running } }

/-- The next opcode, and what is left once it is fetched. -/
def fetched (s : Core τ) : UInt8 × Core τ :=
  fetchOpcode { s with cpu := { s.cpu with enabling := false } }

theorem fetched_fst (s : Core τ) : s.fetched.1 = s.bus.read s.registers.pc := by
  unfold fetched fetchOpcode
  split <;> rfl

/-- What a processor that goes on does next. -/
def nextAction (s : Core τ) : Action :=
  if s.cpu.ime && s.bus.pendingInterrupts ≠ 0 then .takes (firstInterrupt s.bus.pendingInterrupts)
  else
    match Instruction.decode? s.fetched.1 with
    | none => .stumbles
    | some instruction => .executes instruction

/-- What the processor does once no copy is due. -/
def action (s : Core τ) : Action :=
  match s.cpu.mode with
  | .stopped => .waits
  | .halted => if s.bus.pendingInterrupts = 0 then .waits else s.roused.nextAction
  | .running => s.nextAction

theorem nextAction_eq_takes_iff {s : Core τ} {number : Nat} :
    s.nextAction = .takes number ↔
      s.cpu.ime = true ∧ s.bus.pendingInterrupts ≠ 0 ∧
        number = firstInterrupt s.bus.pendingInterrupts := by
  unfold nextAction
  by_cases h : (s.cpu.ime && decide (s.bus.pendingInterrupts ≠ 0)) = true
  · rw [if_pos h]
    simp only [Bool.and_eq_true, decide_eq_true_eq] at h
    simp [h.1, h.2, eq_comm]
  · rw [if_neg h]
    simp only [Bool.and_eq_true, decide_eq_true_eq] at h
    constructor
    · intro hnext
      split at hnext <;> cases hnext
    · rintro ⟨hime, hpending, -⟩
      exact absurd ⟨hime, hpending⟩ h

theorem nextAction_of_ime_off {s : Core τ} (h : s.cpu.ime = false) :
    s.nextAction =
      match Instruction.decode? s.fetched.1 with
      | none => .stumbles
      | some instruction => .executes instruction :=
  if_neg (by simp [h])

theorem nextAction_ne_waits (s : Core τ) : s.nextAction ≠ .waits := by
  unfold nextAction
  split
  · simp
  · split <;> simp

theorem nextAction_ne_refuses (s : Core τ) : s.nextAction ≠ .refuses := by
  unfold nextAction
  split
  · simp
  · split <;> simp

theorem roused_eq_self {s : Core τ} (h : s.cpu.mode = .running) : s.roused = s := by
  unfold roused
  rw [← h]

theorem action_eq_takes_iff {s : Core τ} {number : Nat} :
    s.action = .takes number ↔
      s.cpu.mode ≠ .stopped ∧ s.cpu.ime = true ∧ s.bus.pendingInterrupts ≠ 0 ∧
        number = firstInterrupt s.bus.pendingInterrupts := by
  unfold action
  cases hmode : s.cpu.mode with
  | stopped => simp
  | running =>
    rw [nextAction_eq_takes_iff]
    simp
  -- a halt ends when an interrupt is pending, whether or not interrupts are on
  | halted =>
    by_cases hpending : s.bus.pendingInterrupts = 0
    · simp [hpending]
    · rw [if_neg hpending, nextAction_eq_takes_iff]
      simp [roused]

/-- A processor that does more than wait does what it does next when it goes on. -/
theorem nextAction_roused {s : Core τ} (h : s.action ≠ .waits) :
    s.roused.nextAction = s.action := by
  unfold action at *
  cases hmode : s.cpu.mode with
  | stopped => simp [hmode] at h
  | halted =>
    rw [hmode] at h
    by_cases hpending : s.bus.pendingInterrupts = 0
    · simp [hpending] at h
    · exact (if_neg hpending).symm
  | running => rw [roused_eq_self hmode]

/-- The processor once the copy that is due is made. -/
def prepared (cpu : Cpu) (bus : Bus τ) : Core τ := ⟨cpu, bus.runDma.2, 0⟩

/-- What a step does. -/
def stepAction (cpu : Cpu) (bus : Bus τ) : Action :=
  if bus.dmaPage = some 0xFE then .refuses else (prepared cpu bus).action

theorem stepAction_eq_refuses_iff {cpu : Cpu} {bus : Bus τ} :
    stepAction cpu bus = .refuses ↔ bus.dmaPage = some 0xFE := by
  unfold stepAction
  by_cases hself : bus.dmaPage = some 0xFE
  · simp [hself]
  · rw [if_neg hself]
    -- once no copy is due, nothing that the processor does is a refusal
    refine ⟨fun h => ?_, fun h => absurd h hself⟩
    rw [← nextAction_roused (by simp [h])] at h
    exact absurd h (nextAction_ne_refuses _)

/-! ## What becomes of the processor -/

variable [Timeline τ]

/-- The instruction is executed, and what the one before enabled takes effect. -/
def executed (s : Core τ) (instruction : Instruction) : Core τ :=
  let done := s.fetched.2.execute s.cpu.enabling instruction
  if s.cpu.enabling && instruction ≠ .disableInterrupts then
    { done with cpu := { done.cpu with ime := true } }
  else done

theorem executeNext_eq (s : Core τ) :
    s.executeNext =
      match Instruction.decode? s.fetched.1 with
      | none => (s.fetched.2, some (.illegalOpcode s.fetched.1 s.registers.pc))
      | some instruction => (s.executed instruction, none) := by
  unfold executeNext executed fetched
  dsimp only
  cases Instruction.decode? (fetchOpcode { s with cpu := { s.cpu with enabling := false } }).1 with
  | none => rfl
  | some instruction => exact (apply_ite (·, none) _ _ _).symm

theorem proceed_of_takes {s : Core τ} {number : Nat} (h : s.nextAction = .takes number) :
    s.proceed = (s.takeInterrupt number, none) := by
  obtain ⟨hime, hpending, rfl⟩ := nextAction_eq_takes_iff.1 h
  exact if_pos (by simp [hime, hpending])

theorem proceed_of_not_takes {s : Core τ} (h : ∀ number, s.nextAction ≠ .takes number) :
    s.proceed = s.executeNext := by
  refine if_neg fun htakes => ?_
  simp only [Bool.and_eq_true, decide_eq_true_eq] at htakes
  exact h (firstInterrupt s.bus.pendingInterrupts)
    (nextAction_eq_takes_iff.2 ⟨htakes.1, htakes.2, rfl⟩)

theorem proceed_of_executes {s : Core τ} {instruction : Instruction}
    (h : s.nextAction = .executes instruction) : s.proceed = (s.executed instruction, none) := by
  rw [proceed_of_not_takes (by simp [h]), executeNext_eq]
  -- the action was told from the opcode that is fetched now
  unfold nextAction at h
  split at h
  · cases h
  · cases hdecode : Instruction.decode? s.fetched.1 with
    | none => simp [hdecode] at h
    | some decoded =>
      simp only [hdecode, Action.executes.injEq] at h
      rw [h]

theorem proceed_of_stumbles {s : Core τ} (h : s.nextAction = .stumbles) :
    s.proceed = (s.fetched.2, some (.illegalOpcode s.fetched.1 s.registers.pc)) := by
  rw [proceed_of_not_takes (by simp [h]), executeNext_eq]
  unfold nextAction at h
  split at h
  · cases h
  · cases hdecode : Instruction.decode? s.fetched.1 with
    | none => rfl
    | some decoded => simp [hdecode] at h

theorem stepMode_of_waits {s : Core τ} (h : s.action = .waits) :
    ∃ mode, s.stepMode = ({ s with cpu := { s.cpu with mode } }.idle, none) := by
  unfold action at h
  unfold stepMode
  cases hmode : s.cpu.mode with
  -- a button ends the stop, but the machine cycle still passes
  | stopped => exact ⟨_, rfl⟩
  | halted =>
    refine ⟨.halted, ?_⟩
    by_cases hpending : s.bus.pendingInterrupts = 0
    · have hsame : ({ s with cpu := { s.cpu with mode := .halted } } : Core τ) = s := by
        rw [← hmode]
      rw [hsame]
      exact if_pos hpending
    · simp only [hmode, if_neg hpending] at h
      exact absurd h (nextAction_ne_waits _)
  | running =>
    simp only [hmode] at h
    exact absurd h (nextAction_ne_waits _)

theorem stepMode_of_not_waits {s : Core τ} (h : s.action ≠ .waits) :
    s.stepMode = s.roused.proceed := by
  unfold action at h
  unfold stepMode
  cases hmode : s.cpu.mode with
  | stopped => simp [hmode] at h
  | halted =>
    by_cases hpending : s.bus.pendingInterrupts = 0
    · simp [hmode, hpending] at h
    · exact if_neg hpending
  | running => rw [roused_eq_self hmode]

theorem step_eq (cpu : Cpu) (bus : Bus τ) :
    step cpu bus =
      if bus.dmaPage = some 0xFE then (prepared cpu bus, some (.dmaOverlap 0xFE00))
      else (prepared cpu bus).stepMode := by
  have hfst := bus.runDma_fst
  -- whether the copy fails is known from the page, and the failure is the one `runDma` reports
  unfold step prepared
  rcases hcopy : bus.runDma with ⟨fault | _, bus'⟩
  · rw [hcopy] at hfst
    split at hfst
    · rename_i hself
      rw [if_pos hself, ← Except.error.inj hfst]
    · cases hfst
  · rw [hcopy] at hfst
    split at hfst
    · cases hfst
    · rename_i hself
      rw [if_neg hself]

theorem step_of_refuses {cpu : Cpu} {bus : Bus τ} (h : stepAction cpu bus = .refuses) :
    step cpu bus = (prepared cpu bus, some (.dmaOverlap 0xFE00)) := by
  rw [step_eq, if_pos (stepAction_eq_refuses_iff.1 h)]

theorem step_of_waits {cpu : Cpu} {bus : Bus τ} (h : stepAction cpu bus = .waits) :
    ∃ mode, step cpu bus = (idle { prepared cpu bus with cpu := { cpu with mode } }, none) := by
  unfold stepAction at h
  split at h
  · cases h
  · rename_i hself
    rw [step_eq, if_neg hself]
    exact stepMode_of_waits h

theorem step_of_goesOn (cpu : Cpu) (bus : Bus τ) (hrefuses : stepAction cpu bus ≠ .refuses)
    (hwaits : stepAction cpu bus ≠ .waits) :
    (prepared cpu bus).roused.nextAction = stepAction cpu bus ∧
      step cpu bus = (prepared cpu bus).roused.proceed := by
  have hself : bus.dmaPage ≠ some 0xFE := fun h => hrefuses (stepAction_eq_refuses_iff.2 h)
  unfold stepAction at *
  rw [if_neg hself] at *
  exact ⟨nextAction_roused hwaits, by rw [step_eq, if_neg hself, stepMode_of_not_waits hwaits]⟩

theorem step_of_takes {cpu : Cpu} {bus : Bus τ} {number : Nat}
    (h : stepAction cpu bus = .takes number) :
    step cpu bus = ((prepared cpu bus).roused.takeInterrupt number, none) := by
  obtain ⟨hnext, hstep⟩ := step_of_goesOn cpu bus (by simp [h]) (by simp [h])
  rw [hstep, proceed_of_takes (hnext.trans h)]

theorem step_of_executes {cpu : Cpu} {bus : Bus τ} {instruction : Instruction}
    (h : stepAction cpu bus = .executes instruction) :
    step cpu bus = ((prepared cpu bus).roused.executed instruction, none) := by
  obtain ⟨hnext, hstep⟩ := step_of_goesOn cpu bus (by simp [h]) (by simp [h])
  rw [hstep, proceed_of_executes (hnext.trans h)]

theorem step_of_stumbles {cpu : Cpu} {bus : Bus τ} (h : stepAction cpu bus = .stumbles) :
    step cpu bus =
      ((prepared cpu bus).roused.fetched.2,
        some (.illegalOpcode (bus.runDma.2.read cpu.registers.pc) cpu.registers.pc)) := by
  obtain ⟨hnext, hstep⟩ := step_of_goesOn cpu bus (by simp [h]) (by simp [h])
  rw [hstep, proceed_of_stumbles (hnext.trans h), fetched_fst]
  rfl

end Core

end DotMatrix
