import DotMatrix.Proofs.Cpu.Stack
import DotMatrix.Proofs.Machine.Halt

/-!
# Calls and returns

A call, a restart and the taking of an interrupt put an address on the stack and go elsewhere; a
return goes on at the address on top. `Nested` follows a machine through these, with whatever it
does in between, and remembers the addresses that were put on the stack and not yet returned to.
As long as there is room, they are what is on the stack, so every return goes to the last of them
(`calls_and_returns`).
-/

namespace DotMatrix

variable {τ : Type}

theorem Bus.memories_runDma (b : Bus τ) :
    b.runDma.2.work = b.work ∧ b.runDma.2.high = b.high := by
  rw [runDma_snd]
  exact ⟨rfl, rfl⟩

theorem Bus.memories_advance [Timeline τ] (b : Bus τ) (cycles : Nat) :
    (b.advance cycles).2.work = b.work ∧ (b.advance cycles).2.high = b.high :=
  ⟨rfl, rfl⟩

namespace Core

/-- Conditions look at the flags. -/
theorem meets_congr {s s' : Core τ} (h : s'.registers.f = s.registers.f)
    (condition : Option Condition) : s'.meets condition = s.meets condition := by
  cases condition with
  | none => rfl
  | some c => cases c <;> simp [meets, Condition.holds, Registers.flag, h]

theorem meets_fetched_snd (s : Core τ) (condition : Option Condition) :
    s.fetched.2.meets condition = s.meets condition :=
  meets_congr (by rw [fetched_snd]; rfl) condition

theorem registers_ret (s : Core τ) :
    s.ret.registers =
      { s.registers with
        sp := s.registers.sp + 2
        pc := Word.ofBytes (s.bus.read (s.registers.sp + 1)) (s.bus.read s.registers.sp) } := rfl

theorem bus_ret (s : Core τ) : s.ret.bus = s.bus := rfl

variable [Timeline τ]

/-- Once an instruction is executed, interrupts may be switched on, and nothing else is changed. -/
theorem exists_executed (s : Core τ) (instruction : Instruction) :
    ∃ ime,
      let done := s.fetched.2.execute s.cpu.enabling instruction
      s.executed instruction = { done with cpu := { done.cpu with ime } } := by
  unfold executed
  dsimp only
  split
  · exact ⟨true, rfl⟩
  · exact ⟨_, rfl⟩

end Core

namespace Machine

/-! ## Calls -/

/-- The address that the next step puts on the stack to return to, if it is a call that is made, a
restart or the taking of an interrupt. It is where the machine would have gone on. -/
def returnAddress? (m : Machine τ) : Option UInt16 :=
  let r := m.cpu.registers
  let next := if m.cpu.haltBug then r.pc else r.pc + 1
  match m.action with
  | .takes _ => some r.pc
  | .executes (.restart _) => some next
  | .executes (.call condition) => if condition.all (·.holds r) then some (next + 2) else none
  | _ => none

/-- The next step is a return that is made. -/
def Returns (m : Machine τ) : Prop :=
  m.action = .executes .ret ∨ m.action = .executes .retInterrupt ∨
    ∃ condition, m.action = .executes (.retIf condition) ∧ condition.holds m.cpu.registers = true

variable [Timeline τ]

/-- The next step goes elsewhere and leaves an address on the stack to return to. -/
structure Enters (m : Machine τ) (back : UInt16) : Prop where
  completes : ∃ boundary, m.step.1 = .ok boundary
  registers : ∃ pc, m.step.2.cpu.registers =
    { m.cpu.registers with sp := m.cpu.registers.sp - 2, pc }
  bus : ∃ (b : Bus τ) (cycles : Nat), b.work = m.bus.work ∧ b.high = m.bus.high ∧
    m.step.2.bus = ((b.store m.cpu.registers.sp back).advance cycles).2

/-- The next step goes on at the address on top of the stack. -/
structure Leaves (m : Machine τ) : Prop where
  completes : ∃ boundary, m.step.1 = .ok boundary
  registers : m.step.2.cpu.registers =
    { m.cpu.registers with
      sp := m.cpu.registers.sp + 2
      pc := Word.ofBytes (m.bus.runDma.2.read (m.cpu.registers.sp + 1))
        (m.bus.runDma.2.read m.cpu.registers.sp) }
  work : m.step.2.bus.work = m.bus.work
  high : m.step.2.bus.high = m.bus.high

/-- What a step makes of the registers and of the bus is what executing the instruction makes of
them, and time passes. -/
theorem step_of_execute {m : Machine τ} {instruction : Instruction} {done : Core τ}
    (h : m.action = .executes instruction)
    (hdone : m.ready.fetched.2.execute m.cpu.enabling instruction = done) :
    (∃ boundary, m.step.1 = .ok boundary) ∧ m.step.2.cpu.registers = done.registers ∧
      ∃ cycles, m.step.2.bus = (done.bus.advance cycles).2 := by
  obtain ⟨hcpu, hbus⟩ := step_of_executes h
  have hexecuted := m.ready.exists_executed instruction
  rw [show m.ready.fetched.2.execute m.ready.cpu.enabling instruction = done from hdone]
    at hexecuted
  obtain ⟨ime, hexecuted⟩ := hexecuted
  rw [hexecuted] at hcpu hbus
  refine ⟨fst_step_of_executes h, ?_, done.cycles, hbus⟩
  rw [hcpu]
  rfl

/-- An instruction that calls, once its bytes are fetched. -/
theorem enters_of_executes {m : Machine τ} {instruction : Instruction} {fetched : Core τ}
    {target : UInt16} (h : m.action = .executes instruction)
    (hcall : m.ready.fetched.2.execute m.cpu.enabling instruction = fetched.call target)
    (hbus : fetched.bus = m.bus.runDma.2)
    (hregisters : ∃ pc, fetched.registers = { m.cpu.registers with pc }) :
    m.Enters fetched.registers.pc := by
  obtain ⟨pc, hregisters⟩ := hregisters
  obtain ⟨hcompletes, hafter, cycles, hlater⟩ := step_of_execute h hcall
  obtain ⟨hwork, hhigh⟩ := m.bus.memories_runDma
  refine ⟨hcompletes, ⟨target, ?_⟩, m.bus.runDma.2, cycles, hwork, hhigh, ?_⟩
  · rw [hafter]
    show { fetched.registers with sp := fetched.registers.sp - 2, pc := target } = _
    rw [hregisters]
  · have hsp : fetched.registers.sp = m.cpu.registers.sp := by rw [hregisters]
    rw [hlater, ← hbus, ← hsp]
    rfl

theorem enters_of_returnAddress? {m : Machine τ} {back : UInt16}
    (h : m.returnAddress? = some back) : m.Enters back := by
  have hfetched := m.ready.fetched_snd
  have hbus : m.ready.fetched.2.bus = m.bus.runDma.2 := Core.bus_fetched _
  unfold returnAddress? at h
  dsimp only at h
  split at h
  · rename_i number haction
    have hserves := serves_of_takes haction
    obtain ⟨hwork, hhigh⟩ := m.bus.memories_runDma
    rw [← Option.some.inj h]
    refine ⟨hserves.completes, ⟨0x40 + 8 * number.toUInt16, ?_⟩, _, 20, ?_, ?_, hserves.bus⟩
    · rw [hserves.cpu]
    · exact hwork
    · exact hhigh
  · rename_i vector haction
    have henters : m.Enters m.ready.fetched.2.registers.pc := enters_of_executes haction rfl hbus
      ⟨_, by rw [hfetched]; rfl⟩
    rw [hfetched] at henters
    exact Option.some.inj h ▸ henters
  · rename_i condition haction
    split at h
    · rename_i hmet
      have hmeets : m.ready.fetched.2.fetchWord.2.meets condition = true := by
        rw [(Core.meets_fetch _ condition).1, Core.meets_fetched_snd]
        exact hmet
      have henters : m.Enters m.ready.fetched.2.fetchWord.2.registers.pc :=
        enters_of_executes haction (if_pos hmeets) hbus ⟨_, by rw [hfetched]; rfl⟩
      have hback : m.ready.fetched.2.fetchWord.2.registers.pc = back := by
        rw [← Option.some.inj h, hfetched]
        exact UInt16.add_assoc _ 1 1
      exact hback ▸ henters
    · cases h
  · cases h

/-! ## Returns -/

/-- An instruction that returns, whatever else it does to the processor. -/
theorem leaves_of_executes {m : Machine τ} {instruction : Instruction} {done : Core τ}
    (h : m.action = .executes instruction)
    (hreturn : m.ready.fetched.2.execute m.cpu.enabling instruction = done)
    (hregisters : done.registers = m.ready.fetched.2.ret.registers)
    (hbus : done.bus = m.ready.fetched.2.bus) : m.Leaves := by
  obtain ⟨hcompletes, hafter, cycles, hlater⟩ := step_of_execute h hreturn
  obtain ⟨hwork, hhigh⟩ := m.bus.memories_runDma
  rw [hbus, Core.bus_fetched] at hlater
  refine ⟨hcompletes, ?_, ?_, ?_⟩
  · rw [hafter, hregisters, Core.registers_ret, Core.fetched_snd]
    rfl
  · rw [hlater]
    exact hwork
  · rw [hlater]
    exact hhigh

theorem leaves_of_returns {m : Machine τ} (h : m.Returns) : m.Leaves := by
  rcases h with haction | haction | ⟨condition, haction, hholds⟩
  · exact leaves_of_executes haction rfl rfl (Core.bus_ret m.ready.fetched.2)
  · exact leaves_of_executes haction rfl rfl (Core.bus_ret m.ready.fetched.2)
  · have hmeets : m.ready.fetched.2.meets (some condition) = true := by
      rw [Core.meets_fetched_snd]
      exact hholds
    refine leaves_of_executes haction (if_pos hmeets) ?_ (Core.bus_ret _)
    rw [Core.registers_ret, Core.registers_ret]
    rfl

/-! ## Nesting -/

/-- What a machine may go through: calls and interrupts while there is room, returns from them, and
in between anything that leaves the stack as it was and keeps what is to be kept of the registers.
The addresses that are still to be returned to come with it, the last one first. -/
inductive Nested {α : Type} (keep : Registers → α) (depth : Nat) (m : Machine τ) :
    List UInt16 → Machine τ → Prop where
  | start : Nested keep depth m [] m
  | enter {backs : List UInt16} {back : UInt16} {m' : Machine τ}
      (before : Nested keep depth m backs m') (room : backs.length < depth)
      (call : m'.returnAddress? = some back) : Nested keep depth m (back :: backs) m'.step.2
  | leave {backs : List UInt16} {back : UInt16} {m' : Machine τ}
      (before : Nested keep depth m (back :: backs) m') (ret : m'.Returns) :
      Nested keep depth m backs m'.step.2
  | between {backs : List UInt16} {m' m'' : Machine τ} (before : Nested keep depth m backs m')
      (sp : m''.cpu.registers.sp = m'.cpu.registers.sp)
      (words : m''.bus.words m''.cpu.registers.sp backs.length =
        m'.bus.words m'.cpu.registers.sp backs.length)
      (kept : keep m''.cpu.registers = keep m'.cpu.registers) : Nested keep depth m backs m''

/-- The addresses that are still to be returned to are the words on the stack. -/
structure Stacked {α : Type} (keep : Registers → α) (depth : Nat) (m : Machine τ)
    (backs : List UInt16) (m' : Machine τ) : Prop where
  fits : backs.length ≤ depth
  sp : m'.cpu.registers.sp.toNat + 2 * backs.length = m.cpu.registers.sp.toNat
  words : m'.bus.words m'.cpu.registers.sp backs.length = backs
  kept : keep m'.cpu.registers = keep m.cpu.registers

section Invariant

variable {α : Type} {keep : Registers → α} {depth : Nat} {m m' : Machine τ}
variable (hkeep : ∀ r sp pc, keep { r with sp, pc } = keep r)
variable (hroom : Room m.cpu.registers.sp depth)
include hkeep hroom

theorem Stacked.enter {backs : List UInt16} {back : UInt16} (h : Stacked keep depth m backs m')
    (hfree : backs.length < depth) (henters : m'.Enters back) :
    Stacked keep depth m (back :: backs) m'.step.2 := by
  obtain ⟨pc, hregisters⟩ := henters.registers
  obtain ⟨b, cycles, hwork, hhigh, hbus⟩ := henters.bus
  have hnext := (hroom.below_next h.sp hfree).1
  have htop : (m'.cpu.registers.sp - 2).toNat + 2 * (back :: backs).length =
      m.cpu.registers.sp.toNat := by
    have hsp := h.sp
    rw [List.length_cons]
    omega
  refine ⟨hfree, ?_, ?_, ?_⟩
  · rw [hregisters]
    exact htop
  · -- the passing of time after the push, and what comes before it, leave both memories alone
    have hlater : m'.step.2.bus.words (m'.cpu.registers.sp - 2) (backs.length + 1) =
        (b.store m'.cpu.registers.sp back).words (m'.cpu.registers.sp - 2) (backs.length + 1) := by
      obtain ⟨hwork', hhigh'⟩ := (b.store m'.cpu.registers.sp back).memories_advance cycles
      rw [hbus]
      exact Bus.words_congr htop fun addr haddr => hroom.read_congr (haddr.mono hfree) hwork' hhigh'
    have hearlier : b.words m'.cpu.registers.sp backs.length =
        m'.bus.words m'.cpu.registers.sp backs.length :=
      Bus.words_congr h.sp fun addr haddr =>
        hroom.read_congr (haddr.mono (Nat.le_of_lt hfree)) hwork hhigh
    rw [hregisters, List.length_cons]
    refine hlater.trans ?_
    rw [hroom.words_store h.sp hfree, hearlier, h.words]
  · rw [hregisters, hkeep]
    exact h.kept

theorem Stacked.leave {backs : List UInt16} {back : UInt16}
    (h : Stacked keep depth m (back :: backs) m') (hleaves : m'.Leaves) :
    m'.step.2.cpu.registers =
        { m'.cpu.registers with sp := m'.cpu.registers.sp + 2, pc := back } ∧
      Stacked keep depth m backs m'.step.2 := by
  have hbase := m.cpu.registers.sp.toNat_lt
  have hfits := h.fits
  have hsp := h.sp
  rw [List.length_cons] at hfits hsp
  obtain ⟨hwork, hhigh⟩ := m'.bus.memories_runDma
  have hcopied : m'.bus.runDma.2.words m'.cpu.registers.sp (backs.length + 1) = back :: backs := by
    rw [← h.words]
    exact Bus.words_congr hsp fun addr haddr => hroom.read_congr (haddr.mono hfits) hwork hhigh
  rw [Bus.words_succ, List.cons.injEq] at hcopied
  have hregisters := hleaves.registers
  rw [hcopied.1] at hregisters
  have hrest : (m'.cpu.registers.sp + 2).toNat + 2 * backs.length = m.cpu.registers.sp.toNat := by
    simp only [UInt16.toNat_add, UInt16.reduceToNat]
    omega
  refine ⟨hregisters, by omega, ?_, ?_, ?_⟩
  · rw [hregisters]
    exact hrest
  · rw [hregisters]
    refine Eq.trans ?_ hcopied.2
    exact Bus.words_congr hrest fun addr haddr => hroom.read_congr (haddr.mono (by omega))
      (hleaves.work.trans hwork.symm) (hleaves.high.trans hhigh.symm)
  · rw [hregisters, hkeep]
    exact h.kept

theorem Nested.stacked {backs : List UInt16} (h : Nested keep depth m backs m') :
    Stacked keep depth m backs m' := by
  induction h with
  | start => exact ⟨Nat.zero_le depth, rfl, rfl, rfl⟩
  | enter _ hfree hcall ih =>
    exact ih.enter hkeep hroom hfree (enters_of_returnAddress? hcall)
  | leave _ hret ih => exact (ih.leave hkeep hroom (leaves_of_returns hret)).2
  | between _ hsp hwords hkept ih =>
    exact ⟨ih.fits, hsp ▸ ih.sp, hwords.trans ih.words, hkept.trans ih.kept⟩

end Invariant

/-! ## The stack is a stack -/

/-- Words that are pushed come back last one first, the processor is then as it was, and no memory
but that of the words is changed. Calls, restarts and interrupts that are nested to any depth that
there is room for therefore return in order: each return goes on where the last of them that was
not yet returned from had interrupted the program. Neither changes a register but the program
counter and the stack pointer, which is back once all have returned. The return from an interrupt
also switches interrupts on. -/
theorem calls_and_returns :
    (∀ (s : Core τ) (vals : List UInt16), Room s.registers.sp vals.length →
      ((s.pushAll vals).popAll vals.length).1 = vals.reverse ∧
        ((s.pushAll vals).popAll vals.length).2.cpu = s.cpu ∧
        (∃ work high, ((s.pushAll vals).popAll vals.length).2.bus = { s.bus with work, high }) ∧
        ∀ other,
          (∀ i < 2 * vals.length, ¬ SameCell (s.registers.sp - 1 - i.toUInt16) other) →
          ((s.pushAll vals).popAll vals.length).2.bus.read other = s.bus.read other) ∧
    ∀ (α : Type) (keep : Registers → α) (depth : Nat) (m m' : Machine τ) (backs : List UInt16),
      (∀ r sp pc, keep { r with sp, pc } = keep r) → Room m.cpu.registers.sp depth →
      Nested keep depth m backs m' →
      keep m'.cpu.registers = keep m.cpu.registers ∧
        m'.cpu.registers.sp.toNat + 2 * backs.length = m.cpu.registers.sp.toNat ∧
        (∀ back, m'.returnAddress? = some back →
          (∃ boundary, m'.step.1 = .ok boundary) ∧
            ∃ pc, m'.step.2.cpu.registers =
              { m'.cpu.registers with sp := m'.cpu.registers.sp - 2, pc }) ∧
        ∀ back rest, backs = back :: rest → m'.Returns →
          (∃ boundary, m'.step.1 = .ok boundary) ∧
            m'.step.2.cpu.registers =
              { m'.cpu.registers with sp := m'.cpu.registers.sp + 2, pc := back } ∧
            (m'.action = .executes .retInterrupt → m'.step.2.cpu.ime = true) := by
  refine ⟨fun s vals hroom => Core.popAll_pushAll hroom, ?_⟩
  intro α keep depth m m' backs hkeep hroom hnested
  have hstacked := hnested.stacked hkeep hroom
  refine ⟨hstacked.kept, hstacked.sp, fun back hcall => ?_, fun back rest hbacks hret => ?_⟩
  · have henters := enters_of_returnAddress? hcall
    exact ⟨henters.completes, henters.registers⟩
  · subst hbacks
    have hleaves := leaves_of_returns hret
    refine ⟨hleaves.completes, (hstacked.leave hkeep hroom hleaves).1, fun haction => ?_⟩
    rw [(switch_step m').1, haction]
    rfl

/-- The program enables the interrupt of the display, which is requested already. The handler calls
a routine that does nothing but return. -/
def handling : Machine Float :=
  let handler := [0xCD, 0x50, 0x00, 0xD9] ++ List.replicate 12 0 ++ [0xC9]
  let start := List.replicate 0x40 0 ++ handler
  let rom := start ++ List.replicate (0x100 - start.length) 0 ++ enableOnce
  create { programCartridge [] with rom := ⟨rom.toArray⟩ } ⟨default, none, 0, 0, []⟩ none

/-- All registers but the two that calls and returns are about. -/
def others (r : Registers) : Registers := { r with sp := 0, pc := 0 }

theorem registers_eq {r r' : Registers} (h : others r = others r') (hsp : r.sp = r'.sp)
    (hpc : r.pc = r'.pc) : r = r' := by
  cases r
  cases r'
  simp_all [others]

/-- Two words fill the space that is left of work memory. The interrupt and the call of its handler
return in order, with all registers as they were and interrupts on. -/
theorem calls_and_returns_handling :
    let m := handling.afterSteps 4
    let s : Core Float := ⟨Core.withSp m.cpu 0xC004, m.bus, 0⟩
    ((s.pushAll [0x1234, 0xABCD]).popAll 2).1 = [0xABCD, 0x1234] ∧
      m.returnAddress? = some 0x0106 ∧ (m.afterSteps 1).returnAddress? = some 0x0043 ∧
      (m.afterSteps 3).cpu.registers.pc = 0x0043 ∧
      (m.afterSteps 4).cpu.registers = m.cpu.registers ∧ (m.afterSteps 4).cpu.ime = true := by
  intro m s
  obtain ⟨hwords, hcalls⟩ := @calls_and_returns Float _
  have hpushed := (hwords s [0x1234, 0xABCD] (.inl (by decide))).1
  have hfirst : m.returnAddress? = some 0x0106 := by decide +kernel
  have hsecond : (m.afterSteps 1).returnAddress? = some 0x0043 := by decide +kernel
  have hret : (m.afterSteps 2).Returns := .inl (by decide +kernel)
  have hreti : (m.afterSteps 3).action = .executes .retInterrupt := by decide +kernel
  have hpc : m.cpu.registers.pc = 0x0106 := by decide +kernel
  have hroom : Room m.cpu.registers.sp 2 := .inr (by decide +kernel)
  -- what is left holds of any such machine, and this one need not be run any more
  clear_value m
  have hinterrupted : Nested others 2 m [0x0106] (m.afterSteps 1) :=
    .enter .start (by decide) hfirst
  have hcalled : Nested others 2 m [0x0043, 0x0106] (m.afterSteps 2) :=
    .enter hinterrupted (by decide) hsecond
  have hreturned : Nested others 2 m [0x0106] (m.afterSteps 3) := .leave hcalled hret
  have hdone : Nested others 2 m [] (m.afterSteps 4) := .leave hreturned (.inr (.inl hreti))
  obtain ⟨-, -, -, hinner⟩ := hcalls _ others 2 m _ _ (fun _ _ _ => rfl) hroom hcalled
  obtain ⟨-, -, -, houter⟩ := hcalls _ others 2 m _ _ (fun _ _ _ => rfl) hroom hreturned
  obtain ⟨hkept, hsp, -, -⟩ := hcalls _ others 2 m _ _ (fun _ _ _ => rfl) hroom hdone
  obtain ⟨-, hregisters, hon⟩ := houter 0x0106 [] rfl (.inr (.inl hreti))
  have hgoes : (m.afterSteps 4).cpu.registers.pc = m.cpu.registers.pc :=
    (congrArg Registers.pc hregisters).trans hpc.symm
  have hback := registers_eq hkept (UInt16.toNat_inj.1 hsp) hgoes
  exact ⟨hpushed, hfirst, hsecond, congrArg Registers.pc (hinner 0x0043 [0x0106] rfl hret).2.1,
    hback, hon hreti⟩

end Machine

end DotMatrix
