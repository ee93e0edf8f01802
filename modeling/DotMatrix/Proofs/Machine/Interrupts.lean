import DotMatrix.Proofs.Machine.Run

/-!
# Interrupts stay off in a handler

Taking an interrupt switches interrupts off. They should stay off until the handler has executed
code that enables them. But a delayed enabling from before the interrupt is still outstanding, and
takes effect after the first instruction of the handler unless that one switches interrupts off.
`masked_step_iff` says that nothing else goes wrong.
-/

namespace DotMatrix

variable {τ : Type}

/-! ## Program memory in the course of a step -/

namespace Bus

theorem read_runDma {b : Bus τ} {addr : UInt16} (haddr : addr < 0x8000) :
    b.runDma.2.read addr = b.read addr := by
  rw [runDma_snd]
  unfold read
  rw [if_pos haddr, if_pos haddr]

end Bus

namespace Core

/-- Where the handler of an interrupt begins. -/
def vector (number : Nat) : UInt16 := 0x40 + 8 * number.toUInt16

theorem firstInterrupt_lt (pending : UInt8) : firstInterrupt pending < 5 := by
  unfold firstInterrupt
  cases h : (List.range 5).find? fun n => pending.toNat.testBit n with
  | none => simp
  | some n => simpa using List.mem_of_find?_eq_some h

theorem vector_lt {number : Nat} (h : number < 5) : vector number < 0x8000 := by
  -- there are five of them
  have hall : ∀ n : Fin 5, vector n < 0x8000 := by decide
  exact hall ⟨number, h⟩

end Core

namespace Machine

/-! ## The first instruction of a handler -/

/-- The machine is about to execute what a byte of program memory encodes. -/
structure Awaits (m : Machine τ) (opcode : UInt8) : Prop where
  ime : m.cpu.ime = false
  mode : m.cpu.mode = .running
  pc : m.cpu.registers.pc < 0x8000
  opcode : m.bus.read m.cpu.registers.pc = opcode

theorem Awaits.meanwhile {m m' : Machine τ} {opcode : UInt8} (h : m.Awaits opcode)
    (hm : m.Meanwhile m') : m'.Awaits opcode := by
  refine ⟨?_, ?_, ?_, ?_⟩ <;> rw [hm.cpu]
  · exact h.ime
  · exact h.mode
  · exact h.pc
  · rw [hm.bus.read_program h.pc, h.opcode]

theorem Awaits.action_eq {m : Machine τ} {opcode : UInt8} (h : m.Awaits opcode) :
    m.action =
      if m.bus.dmaPage = some 0xFE then .refuses
      else
        match Instruction.decode? opcode with
        | none => .stumbles
        | some instruction => .executes instruction := by
  -- interrupts are off and the processor runs, so it fetches what is at the program counter
  have hnext : (Core.prepared m.cpu m.bus).action = (Core.prepared m.cpu m.bus).nextAction := by
    unfold Core.action Core.prepared
    simp only [h.mode]
  have hfetched : (Core.prepared m.cpu m.bus).fetched.1 = opcode :=
    (Core.fetched_fst _).trans ((Bus.read_runDma h.pc).trans h.opcode)
  have hdecodes := Core.nextAction_of_ime_off
    (show (Core.prepared m.cpu m.bus).cpu.ime = false from h.ime)
  rw [hfetched] at hdecodes
  exact congrArg (fun next => if m.bus.dmaPage = some 0xFE then Action.refuses else next)
    (hnext.trans hdecodes)

theorem Awaits.decode_of_executes {m : Machine τ} {opcode : UInt8} {instruction : Instruction}
    (h : m.Awaits opcode) (haction : m.action = .executes instruction) :
    Instruction.decode? opcode = some instruction := by
  have heq := h.action_eq
  rw [haction] at heq
  split at heq
  · cases heq
  · split at heq
    · cases heq
    · rename_i hdecode
      rw [hdecode, Action.executes.inj heq]

theorem Awaits.action_ne_waits {m : Machine τ} {opcode : UInt8} (h : m.Awaits opcode) :
    m.action ≠ .waits := by
  rw [h.action_eq]
  split
  · simp
  · split <;> simp

theorem takes_spec {m : Machine τ} {number : Nat} (h : m.action = .takes number) :
    m.cpu.ime = true ∧ number < 5 := by
  unfold action Core.stepAction at h
  split at h
  · cases h
  · rw [← Core.nextAction_roused (by simp [h])] at h
    obtain ⟨hime, -, rfl⟩ := Core.nextAction_eq_takes_iff.1 h
    exact ⟨hime, Core.firstInterrupt_lt _⟩

variable [Timeline τ]

theorem step_of_refuses {m : Machine τ} (h : m.action = .refuses) :
    m.step.2.cpu = m.cpu ∧ m.step.2.bus = m.bus.runDma.2 := by
  rw [cpu_step, bus_step, Core.step_of_refuses h]
  exact ⟨rfl, rfl⟩

theorem Awaits.step_of_refuses {m : Machine τ} {opcode : UInt8} (h : m.Awaits opcode)
    (haction : m.action = .refuses) : m.step.2.Awaits opcode := by
  obtain ⟨hcpu, hbus⟩ := Machine.step_of_refuses haction
  refine ⟨?_, ?_, ?_, ?_⟩ <;> rw [hcpu]
  · exact h.ime
  · exact h.mode
  · exact h.pc
  · rw [hbus, Bus.read_runDma h.pc, h.opcode]

/-- A machine that has just taken an interrupt is about to execute the handler. -/
theorem awaits_of_takes {m : Machine τ} {number : Nat} (h : m.action = .takes number) :
    m.step.2.Awaits (m.step.2.bus.read (Core.vector number)) := by
  have hime : m.step.2.cpu.ime = false := by
    rw [(switch_step m).1, h]
    rfl
  have hstep := Core.step_of_takes h
  have hmode : m.step.2.cpu.mode = .running := by
    rw [cpu_step, hstep]
    rfl
  have hpc : m.step.2.cpu.registers.pc = Core.vector number := by
    rw [cpu_step, hstep]
    rfl
  refine ⟨hime, hmode, ?_, ?_⟩ <;> rw [hpc]
  exact Core.vector_lt (takes_spec h).2

/-- The instruction that a machine is about to execute is executed in the end. -/
theorem Awaits.exists_run {m : Machine τ} {opcode : UInt8} {first : Instruction}
    (h : m.Awaits opcode) (hfirst : Instruction.decode? opcode = some first) :
    ∃ before m', Run m (before ++ [.executes first]) m' ∧ (∀ a ∈ before, a = .refuses) ∧
      m'.cpu.ime = (Action.executes first).imeAfter m.cpu.ime m.cpu.enabling := by
  -- a copy that cannot be made comes first, but it is not due again
  by_cases hself : m.bus.dmaPage = some 0xFE
  · have hrefuses : m.action = .refuses := Core.stepAction_eq_refuses_iff.2 hself
    obtain ⟨hcpu, hbus⟩ := Machine.step_of_refuses hrefuses
    have hexecutes := (h.step_of_refuses hrefuses).action_eq
    rw [hbus, Bus.dmaPage_runDma, if_neg (by simp), hfirst] at hexecutes
    have hrun := (run_step m).step
    rw [hrefuses, hexecutes] at hrun
    refine ⟨_, _, hrun, by simp, ?_⟩
    rw [(switch_step _).1, hexecutes, hcpu]
  · have hexecutes := h.action_eq
    rw [if_neg hself, hfirst] at hexecutes
    have hrun := run_step m
    rw [hexecutes] at hrun
    refine ⟨[], _, hrun, by simp, ?_⟩
    rw [(switch_step m).1, hexecutes]

/-! ## Code that enables interrupts -/

/-- The instructions that a run executed. -/
def executed (actions : List Action) : List Instruction :=
  actions.filterMap fun
    | .executes instruction => some instruction
    | _ => none

/-- The code returns from an interrupt, or enables interrupts with an instruction to follow that
does not disable them again. -/
def Enables (code : List Instruction) : Prop :=
  .retInterrupt ∈ code ∨
    ∃ before next after, code = before ++ .enableInterrupts :: next :: after ∧
      next ≠ .disableInterrupts

/-- From here on interrupts are off, and none is taken, until code that is executed from here
enables them. -/
def Masked (m : Machine τ) : Prop :=
  ∀ actions m', Run m actions m' → ¬ Enables (executed actions) →
    m'.cpu.ime = false ∧ ∀ number, .takes number ∉ actions

theorem executed_append (first second : List Action) :
    executed (first ++ second) = executed first ++ executed second :=
  List.filterMap_append

theorem Enables.append {code : List Instruction} (h : Enables code) (more : List Instruction) :
    Enables (code ++ more) := by
  rcases h with hreturn | ⟨before, next, after, rfl, hnext⟩
  · exact .inl (List.mem_append_left _ hreturn)
  · exact .inr ⟨before, next, after ++ more, by simp, hnext⟩

theorem enables_of_pair (before : List Instruction) {next : Instruction}
    (h : next ≠ .disableInterrupts) : Enables (before ++ [.enableInterrupts] ++ [next]) :=
  .inr ⟨before, next, [], by simp, h⟩

theorem not_enables_singleton {instruction : Instruction} (h : instruction ≠ .retInterrupt) :
    ¬ Enables [instruction] := by
  rintro (hreturn | ⟨before, next, after, hcode, -⟩)
  · exact h (List.mem_singleton.1 hreturn).symm
  · have hlength := congrArg List.length hcode
    simp at hlength
    omega

/-! ## The handler -/

/-- A handler may begin with the opcode although a delayed enabling is outstanding. -/
def Harmless (opcode : UInt8) : Prop :=
  ∀ first, Instruction.decode? opcode = some first →
    first = .disableInterrupts ∨ first = .retInterrupt

/-- What can be said of a run of a handler that has not enabled interrupts: an outstanding delayed
enabling is one that the code has just asked for, or one from before the interrupt whose handler
has not begun. -/
structure Quiet (opcode : UInt8) (actions : List Action) (m : Machine τ) : Prop where
  ime : m.cpu.ime = false
  untaken : ∀ number, .takes number ∉ actions
  enabling : m.cpu.enabling = true →
    (∃ before, executed actions = before ++ [.enableInterrupts]) ∨
      executed actions = [] ∧ m.Awaits opcode ∧ Harmless opcode

omit [Timeline τ] in
theorem Quiet.meanwhile {opcode : UInt8} {actions : List Action} {m m' : Machine τ}
    (h : Quiet opcode actions m) (hm : m.Meanwhile m') : Quiet opcode actions m' := by
  refine ⟨?_, h.untaken, ?_⟩ <;> rw [hm.cpu]
  · exact h.ime
  · intro henabling
    rcases h.enabling henabling with hasked | ⟨hnothing, hawaits, hharmless⟩
    · exact .inl hasked
    · exact .inr ⟨hnothing, hawaits.meanwhile hm, hharmless⟩

omit [Timeline τ] in
/-- An instruction that enables nothing leaves interrupts off, unless it is the first of the
handler and a delayed enabling is outstanding. -/
theorem Quiet.ime_of_executes {opcode : UInt8} {actions : List Action} {m : Machine τ}
    {instruction : Instruction} (h : Quiet opcode actions m)
    (haction : m.action = .executes instruction)
    (hcode : ¬ Enables (executed actions ++ [instruction])) :
    (Action.executes instruction).imeAfter m.cpu.ime m.cpu.enabling = false := by
  have hreturn : instruction ≠ .retInterrupt := by
    rintro rfl
    exact hcode (.inl (by simp))
  cases henabling : m.cpu.enabling with
  | false => simp [Action.imeAfter, h.ime, hreturn]
  | true =>
    -- the code asked for it just now, or it is the first instruction of the handler
    have hoff : instruction = .disableInterrupts := by
      rcases h.enabling henabling with ⟨before, hasked⟩ | ⟨hnothing, hawaits, hharmless⟩
      · refine Classical.byContradiction fun hnext => ?_
        rw [hasked] at hcode
        exact hcode (enables_of_pair before hnext)
      · rcases hharmless instruction (hawaits.decode_of_executes haction) with hdisable | hreturn'
        · exact hdisable
        · exact absurd hreturn' hreturn
    simp [Action.imeAfter, hoff]

theorem Quiet.step {opcode : UInt8} {actions : List Action} {m : Machine τ}
    (h : Quiet opcode actions m)
    (hcode : ¬ Enables (executed (actions ++ [m.action]))) :
    Quiet opcode (actions ++ [m.action]) m.step.2 := by
  obtain ⟨hime, henabling⟩ := switch_step m
  have huntaken : ∀ number, .takes number ∉ actions ++ [m.action] := by
    intro number hmem
    rcases List.mem_append.1 hmem with hbefore | hnow
    · exact h.untaken number hbefore
    · have htakes := (takes_spec (List.mem_singleton.1 hnow).symm).1
      rw [h.ime] at htakes
      cases htakes
  rw [executed_append] at hcode
  -- one case for each thing that a step does
  cases haction : m.action with
  | takes number =>
    rw [haction] at huntaken
    exact absurd (by simp) (huntaken number)
  | executes instruction =>
    rw [haction] at hime henabling huntaken hcode
    refine ⟨hime.trans (h.ime_of_executes haction hcode), huntaken, ?_⟩
    intro henabled
    rw [henabling] at henabled
    -- nothing else leaves a delayed enabling behind
    have hasked : instruction = .enableInterrupts := by
      simpa [Action.enablingAfter] using henabled
    rw [executed_append, hasked]
    exact .inl ⟨_, rfl⟩
  | refuses =>
    rw [haction] at hime huntaken
    refine ⟨hime.trans h.ime, huntaken, ?_⟩
    rw [executed_append, (Machine.step_of_refuses haction).1]
    intro henabled
    simp only [executed, List.filterMap_cons, List.filterMap_nil, List.append_nil]
    rcases h.enabling henabled with hasked | ⟨hnothing, hawaits, hharmless⟩
    · exact .inl hasked
    · exact .inr ⟨hnothing, hawaits.step_of_refuses haction, hharmless⟩
  | waits =>
    rw [haction] at hime henabling huntaken
    refine ⟨hime.trans h.ime, huntaken, ?_⟩
    rw [executed_append, henabling]
    intro henabled
    simp only [executed, List.filterMap_cons, List.filterMap_nil, List.append_nil]
    rcases h.enabling henabled with hasked | ⟨-, hawaits, -⟩
    · exact .inl hasked
    · exact absurd haction hawaits.action_ne_waits
  | stumbles =>
    rw [haction] at hime henabling huntaken
    refine ⟨hime.trans h.ime, huntaken, ?_⟩
    rw [henabling]
    intro henabled
    cases henabled

theorem Quiet.run {opcode : UInt8} {m m' : Machine τ} {actions : List Action}
    (h : Quiet opcode [] m) (hrun : Run m actions m') (hcode : ¬ Enables (executed actions)) :
    Quiet opcode actions m' := by
  induction hrun with
  | start => exact h
  | step _ ih =>
    -- what the shorter run had enabled, the longer one has
    refine (ih fun henables => hcode ?_).step hcode
    rw [executed_append]
    exact henables.append _
  | meanwhile _ between ih => exact (ih hcode).meanwhile between

/-- Interrupts stay off in the handler exactly if no delayed enabling is outstanding when the
interrupt is taken, or the handler begins with an instruction that cancels it or returns. -/
theorem masked_step_iff {m : Machine τ} {number : Nat} (h : m.action = .takes number) :
    m.step.2.Masked ↔
      (m.cpu.enabling = true → Harmless (m.step.2.bus.read (Core.vector number))) := by
  have hawaits := awaits_of_takes h
  have henabling : m.step.2.cpu.enabling = m.cpu.enabling := by
    rw [(switch_step m).2, h]
    rfl
  constructor
  · -- a first instruction that neither disables nor returns makes the delayed enabling effective
    intro hmasked henabled first hfirst
    refine Classical.byContradiction fun hharmful => ?_
    obtain ⟨before, m', hrun, hbefore, hime⟩ := hawaits.exists_run hfirst
    have hexecuted : executed (before ++ [.executes first]) = [first] := by
      have hnone : executed before = [] := by
        refine List.filterMap_eq_nil_iff.2 fun a ha => ?_
        rw [hbefore a ha]
      rw [executed_append, hnone]
      rfl
    have hoff := (hmasked _ _ hrun (by
      rw [hexecuted]
      exact not_enables_singleton fun hreturn => hharmful (.inr hreturn))).1
    rw [hime, henabling, henabled] at hoff
    have hdisables : first = .disableInterrupts := by
      simpa [Action.imeAfter] using hoff
    exact hharmful (.inl hdisables)
  · -- the invariant holds when the handler is entered
    intro hharmless actions m' hrun hcode
    have hquiet : Quiet (m.step.2.bus.read (Core.vector number)) [] m.step.2 := by
      refine ⟨hawaits.ime, by simp, fun henabled => .inr ⟨rfl, hawaits, hharmless ?_⟩⟩
      rw [← henabling, henabled]
    have hend := hquiet.run hrun hcode
    exact ⟨hend.ime, hend.untaken⟩

/-! ## Two programs -/

/-- The program asks for the interrupt of the display, which waits, and enables interrupts. -/
def enableOnce : List UInt8 := [0x3E, 0x01, 0xE0, 0xFF, 0xFB, 0x00]

/-- The program enables interrupts twice in a row. -/
def enableTwice : List UInt8 := [0x3E, 0x01, 0xE0, 0xFF, 0xFB, 0xFB, 0x00]

/-- After a single enabling, interrupts stay off in the handler. -/
theorem masked_enableOnce : ((ofProgram enableOnce).afterSteps 4).step.2.Masked :=
  (masked_step_iff (show _ = Action.takes 0 by decide +kernel)).2 (by
    intro henabled
    have hnone : ((ofProgram enableOnce).afterSteps 4).cpu.enabling = false := by decide +kernel
    rw [hnone] at henabled
    cases henabled)

/-- After two, the first instruction of the handler leaves interrupts on, and it enables nothing. -/
theorem not_masked_enableTwice :
    ∃ m : Machine Float, m.Reachable ∧ m.action = .takes 0 ∧ ¬ m.step.2.Masked := by
  refine ⟨(ofProgram enableTwice).afterSteps 4, reachable_afterSteps (reachable_ofProgram _) 4,
    by decide +kernel, fun hmasked => ?_⟩
  have hnop : ((ofProgram enableTwice).afterSteps 5).action = .executes .nop := by decide +kernel
  have hrun : Run ((ofProgram enableTwice).afterSteps 5) [.executes .nop]
      ((ofProgram enableTwice).afterSteps 6) := by
    rw [← hnop]
    exact run_step _
  have hon : ((ofProgram enableTwice).afterSteps 6).cpu.ime = true := by decide +kernel
  have hoff := (hmasked _ _ hrun (not_enables_singleton (by decide))).1
  rw [hon] at hoff
  cases hoff

end Machine

end DotMatrix
