import DotMatrix.Proofs.Cpu.Binary
import DotMatrix.Proofs.Cpu.Flags
import DotMatrix.Proofs.Cpu.Stack
import Mathlib.Data.List.Nodup

/-!
# Routines

What is known of chains of bytes and of words on the stack, said of the instructions that a program
has for them. A routine that adds or subtracts numbers of several bytes executes a few instructions
for each byte. As long as it keeps the flags in between, it leaves what the chain leaves
(`chain_of_rounds`). Pairs that a routine pushes first, and pops in the opposite order last, are
what they were, whatever it does to them in between (`pairs_restored`).
-/

namespace DotMatrix

namespace Alu

/-- Of the registers, an operation on bytes uses the flags alone. -/
theorem binaryStep_congr {r r' : Registers} (hf : r'.f = r.f) (op : Op) (x y : UInt8) :
    (binaryStep op r' x y).a = (binaryStep op r x y).a ∧
      (binaryStep op r' x y).f = (binaryStep op r x y).f := by
  cases r
  cases r'
  obtain rfl := hf
  cases op <;> exact ⟨rfl, rfl⟩

/-- A correction uses the accumulator and the flags alone. -/
theorem decimalAdjust_congr {r r' : Registers} (h : r'.a = r.a ∧ r'.f = r.f) :
    (decimalAdjust r').a = (decimalAdjust r).a ∧ (decimalAdjust r').f = (decimalAdjust r).f := by
  cases r
  cases r'
  obtain ⟨rfl, rfl⟩ := h
  exact ⟨rfl, rfl⟩

theorem carryBit_congr {r r' : Registers} (hf : r'.f = r.f) : carryBit r' = carryBit r :=
  congrArg (fun f => (anySet f Flag.carry).toNat) hf

end Alu

namespace Core

variable {τ : Type} [Timeline τ]

/-- Executes instructions one after another, none of them right after interrupts were enabled. -/
def executeAll (s : Core τ) (instructions : List Instruction) : Core τ :=
  instructions.foldl (fun s instruction => s.execute false instruction) s

/-! ## Numbers of several bytes -/

/-- A routine goes through two numbers. For each byte it gets the one into the accumulator and the
other into an operand, executes the instructions of a round, and takes the result from the
accumulator. What else it does keeps the flags. -/
inductive Rounds (body : Operand → List Instruction) :
    Core τ → List (UInt8 × UInt8) → List UInt8 → Core τ → Prop where
  | done {s last : Core τ} (hflags : last.registers.f = s.registers.f) : Rounds body s [] [] last
  | round {s loaded last : Core τ} {pairs : List (UInt8 × UInt8)} {bytes : List UInt8}
      (source : Operand) (hflags : loaded.registers.f = s.registers.f)
      (hrest : Rounds body (loaded.executeAll (body source)) pairs bytes last) :
      Rounds body s ((loaded.registers.a, (loaded.readOperand source).1) :: pairs)
        ((loaded.executeAll (body source)).registers.a :: bytes) last

/-- A routine leaves what a chain leaves, if a round does what a step of the chain does and the
step uses the flags alone. -/
theorem chain_of_rounds {body : Operand → List Instruction}
    {step : Registers → UInt8 → UInt8 → Registers}
    (hbody : ∀ (s : Core τ) source, (s.executeAll (body source)).registers =
      step s.registers s.registers.a (s.readOperand source).1)
    (hstep : ∀ {r r' : Registers}, r'.f = r.f → ∀ x y,
      (step r' x y).a = (step r x y).a ∧ (step r' x y).f = (step r x y).f)
    {s last : Core τ} {pairs : List (UInt8 × UInt8)} {bytes : List UInt8}
    (h : Rounds body s pairs bytes last) {r : Registers} (hr : r.f = s.registers.f) :
    (Alu.chain step r pairs).1 = bytes ∧ (Alu.chain step r pairs).2.f = last.registers.f := by
  -- round by round, with the flags of the chain those of the routine
  induction h generalizing r with
  | done hflags => exact ⟨rfl, hr.trans hflags.symm⟩
  | @round s loaded last pairs bytes source hflags hrest ih =>
    obtain ⟨hvalue, hafter⟩ := hstep (hr.trans hflags.symm) loaded.registers.a
      (loaded.readOperand source).1
    rw [← hbody] at hvalue hafter
    obtain ⟨hbytes, hlast⟩ := ih hafter
    exact ⟨List.cons_eq_cons.2 ⟨hvalue, hbytes⟩, hlast⟩

/-- The accumulator and an operand are added or subtracted. -/
def binaryRound (op : Alu.Op) (source : Operand) : List Instruction := [.alu op source]

/-- The accumulator and an operand are added or subtracted, and the result is corrected. -/
def decimalRound (op : Alu.Op) (source : Operand) : List Instruction :=
  [.alu op source, .decimalAdjust]

theorem registers_binaryRound (s : Core τ) (op : Alu.Op) (source : Operand) :
    (s.executeAll (binaryRound op source)).registers =
      Alu.binaryStep op s.registers s.registers.a (s.readOperand source).1 :=
  registers_execute_alu s false op source

theorem registers_decimalRound (s : Core τ) (op : Alu.Op) (source : Operand) :
    (s.executeAll (decimalRound op source)).registers =
      Alu.decimalStep op s.registers s.registers.a (s.readOperand source).1 :=
  congrArg Alu.decimalAdjust (registers_execute_alu s false op source)

section Chain

variable {op : Alu.Op} {s last : Core τ} {pairs : List (UInt8 × UInt8)} {bytes : List UInt8}

/-- The instructions compute the chain of bytes, and leave its carry. -/
theorem chain_binaryRounds (h : Rounds (binaryRound op) s pairs bytes last) :
    (Alu.chain (Alu.binaryStep op) s.registers pairs).1 = bytes ∧
      Alu.carryBit (Alu.chain (Alu.binaryStep op) s.registers pairs).2 =
        Alu.carryBit last.registers := by
  obtain ⟨hbytes, hflags⟩ := chain_of_rounds (fun s => s.registers_binaryRound op)
    (fun hf => Alu.binaryStep_congr hf op) h rfl
  exact ⟨hbytes, Alu.carryBit_congr hflags⟩

/-- The instructions compute the chain of packed decimals, and leave its carry. -/
theorem chain_decimalRounds (h : Rounds (decimalRound op) s pairs bytes last) :
    (Alu.chain (Alu.decimalStep op) s.registers pairs).1 = bytes ∧
      Alu.carryBit (Alu.chain (Alu.decimalStep op) s.registers pairs).2 =
        Alu.carryBit last.registers := by
  obtain ⟨hbytes, hflags⟩ := chain_of_rounds (fun s => s.registers_decimalRound op)
    (fun hf x y => Alu.decimalAdjust_congr (Alu.binaryStep_congr hf op x y)) h rfl
  exact ⟨hbytes, Alu.carryBit_congr hflags⟩

end Chain

/-! ## Pushing and popping pairs -/

/-- A pair that was loaded has what it was loaded with. Of the flags only the high nibble counts. -/
theorem get_set_self (r : Registers) (pair : Pair) {val : UInt16}
    (hflags : pair = .af → Word.low val &&& 0x0F = 0) : (r.set pair val).get pair = val := by
  cases pair with
  | af =>
    have hlow : Word.low val &&& 0xF0 = Word.low val := by
      have hall : ∀ b : UInt8, b &&& 0x0F = 0 → b &&& 0xF0 = b := forall_byte (by decide +kernel)
      exact hall _ (hflags rfl)
    show Word.ofBytes (Word.high val) (Word.low val &&& 0xF0) = val
    rw [hlow, Word.ofBytes_high_low]
  | bc | de | hl => exact Word.ofBytes_high_low val
  | sp => rfl

theorem get_set_of_ne (r : Registers) {pair other : Pair} (hne : other ≠ pair) (val : UInt16) :
    (r.set pair val).get other = r.get other := by
  cases pair <;> cases other <;> first | rfl | exact absurd rfl hne

/-- Instructions that push pairs do what pushing their words does. -/
theorem executeAll_pushes {pairs : List Pair} (hpairs : ∀ pair ∈ pairs, pair ≠ .sp) {s t : Core τ}
    (hcpu : t.cpu = s.cpu) (hbus : t.bus = s.bus) :
    (t.executeAll (pairs.map .push)).cpu = (s.pushAll (pairs.map s.registers.get)).cpu ∧
      (t.executeAll (pairs.map .push)).bus = (s.pushAll (pairs.map s.registers.get)).bus := by
  induction pairs generalizing s t with
  | nil => exact ⟨hcpu, hbus⟩
  | cons pair rest ih =>
    obtain ⟨-, hrest⟩ := List.forall_mem_cons.1 hpairs
    have hval : t.registers.get pair = s.registers.get pair := by
      unfold registers
      rw [hcpu]
    -- an instruction that pushes takes a cycle longer
    have hpush : (t.idle.push (t.registers.get pair)).cpu = (s.push (s.registers.get pair)).cpu ∧
        (t.idle.push (t.registers.get pair)).bus = (s.push (s.registers.get pair)).bus := by
      rw [hval]
      obtain ⟨cpu, bus, cycles⟩ := s
      obtain ⟨cpu', bus', cycles'⟩ := t
      obtain rfl : cpu' = cpu := hcpu
      obtain rfl : bus' = bus := hbus
      exact ⟨rfl, rfl⟩
    have hsame : rest.map (s.push (s.registers.get pair)).registers.get =
        rest.map s.registers.get := by
      refine List.map_congr_left fun other hother => ?_
      cases other with
      | sp => exact absurd rfl (hrest .sp hother)
      | _ => rfl
    have hlater := ih hrest hpush.1 hpush.2
    rw [hsame] at hlater
    exact hlater

/-- Instructions that push pairs leave their words on top of the stack, the last one first. -/
theorem stack_executeAll_pushes {pairs : List Pair} (hpairs : ∀ pair ∈ pairs, pair ≠ .sp)
    {s : Core τ} (hroom : Room s.registers.sp pairs.length) :
    let pushed := s.executeAll (pairs.map .push)
    pushed.registers.sp = s.registers.sp - (2 * pairs.length).toUInt16 ∧
      pushed.bus.words pushed.registers.sp pairs.length = pairs.reverse.map s.registers.get := by
  intro pushed
  obtain ⟨hcpu, hbus⟩ := executeAll_pushes hpairs (rfl : s.cpu = s.cpu) rfl
  have hsp : pushed.registers.sp = (s.pushAll (pairs.map s.registers.get)).registers.sp :=
    congrArg (fun cpu => cpu.registers.sp) hcpu
  constructor
  · rw [hsp, registers, cpu_pushAll, List.length_map]
    rfl
  · have hfit : 0 + (pairs.map s.registers.get).length ≤ pairs.length := by simp
    have hwords := words_pushAll hroom rfl hfit
    rw [Nat.zero_add, List.length_map] at hwords
    rw [hsp, hbus, hwords, List.map_reverse]
    exact List.append_nil _

omit [Timeline τ] in
/-- Popping looks at the stack pointer and the memory. -/
theorem pop_congr {s t : Core τ} (hsp : t.registers.sp = s.registers.sp) (hbus : t.bus = s.bus) :
    t.pop.1 = s.pop.1 ∧ t.pop.2.registers.sp = s.pop.2.registers.sp ∧
      t.pop.2.bus = s.pop.2.bus := by
  refine ⟨?_, congrArg (· + 2) hsp, hbus⟩
  show Word.ofBytes (t.bus.read (t.registers.sp + 1)) (t.bus.read t.registers.sp) = _
  rw [hsp, hbus]
  rfl

/-- Instructions that pop pairs load them with the words that are popped, and change nothing else
but the stack pointer. -/
theorem executeAll_pops {pairs : List Pair} (hnodup : pairs.Nodup)
    (hpairs : ∀ pair ∈ pairs, pair ≠ .sp) {value : Pair → UInt16}
    (hflags : Word.low (value .af) &&& 0x0F = 0) {s t : Core τ}
    (hsp : t.registers.sp = s.registers.sp) (hbus : t.bus = s.bus)
    (hvalues : (s.popAll pairs.length).1 = pairs.map value) :
    let after := t.executeAll (pairs.map .pop)
    after.registers.sp = (s.popAll pairs.length).2.registers.sp ∧
      after.bus = (s.popAll pairs.length).2.bus ∧
      (∀ pair ∈ pairs, after.registers.get pair = value pair) ∧
      ∀ other ∉ pairs, other ≠ .sp → after.registers.get other = t.registers.get other := by
  induction pairs generalizing s t with
  | nil => exact ⟨hsp, hbus, by simp, fun _ _ _ => rfl⟩
  | cons pair rest ih =>
    obtain ⟨hpair, hrest⟩ := List.forall_mem_cons.1 hpairs
    obtain ⟨hfirst, hnodup⟩ := List.nodup_cons.1 hnodup
    have hvalue : s.pop.1 = value pair := (List.cons.inj hvalues).1
    obtain ⟨hword, hnext⟩ := pop_congr hsp hbus
    have hloaded : t.execute false (.pop pair) =
        t.pop.2.setRegisters (t.pop.2.registers.set pair (value pair)) := by
      rw [← hvalue, ← hword]
      rfl
    have hkept : (t.execute false (.pop pair)).registers.sp = s.pop.2.registers.sp := by
      rw [hloaded, ← hnext.1]
      exact get_set_of_ne t.pop.2.registers hpair.symm (value pair)
    obtain ⟨hsp', hbus', hloads, hothers⟩ :=
      ih hnodup hrest hkept (by rw [hloaded]; exact hnext.2) (List.cons.inj hvalues).2
    refine ⟨hsp', hbus', List.forall_mem_cons.2 ⟨?_, hloads⟩, fun other hother hne => ?_⟩
    · refine (hothers pair hfirst hpair).trans ?_
      rw [hloaded]
      exact get_set_self _ pair fun haf => haf ▸ hflags
    · obtain ⟨hapart, hother⟩ := List.ne_and_not_mem_of_not_mem_cons hother
      refine (hothers other hother hne).trans ?_
      rw [hloaded]
      refine (get_set_of_ne _ hapart _).trans ?_
      cases other with
      | sp => exact absurd rfl hne
      | _ => rfl

/-- Pairs that are pushed first, and popped in the opposite order once the stack is as it was after
that, are what they were. -/
theorem pairs_restored {pairs : List Pair} (hnodup : pairs.Nodup)
    (hpairs : ∀ pair ∈ pairs, pair ≠ .sp) {s t : Core τ} (hflags : s.registers.OnlyFlags)
    (hroom : Room s.registers.sp pairs.length)
    (hsp : t.registers.sp = (s.executeAll (pairs.map .push)).registers.sp)
    (hwords : t.bus.words t.registers.sp pairs.length =
      (s.executeAll (pairs.map .push)).bus.words t.registers.sp pairs.length) :
    let after := t.executeAll (pairs.reverse.map .pop)
    after.registers.sp = s.registers.sp ∧ after.bus = t.bus ∧
      ∀ pair ∈ pairs, after.registers.get pair = s.registers.get pair := by
  intro after
  obtain ⟨hdown, hpushed⟩ := stack_executeAll_pushes hpairs hroom
  obtain ⟨hpopped, hback, hquiet⟩ := popAll_eq t pairs.reverse.length
  have hvalues : (t.popAll pairs.reverse.length).1 = pairs.reverse.map s.registers.get := by
    rw [hpopped, List.length_reverse, hwords, hsp, hpushed]
  have hproper : ∀ pair ∈ pairs.reverse, pair ≠ .sp := fun pair hmem =>
    hpairs pair (List.mem_reverse.1 hmem)
  have hnibble : Word.low (s.registers.get .af) &&& 0x0F = 0 := by
    rw [Registers.get, Word.low_ofBytes]
    exact hflags
  obtain ⟨hsp', hbus', hloads, -⟩ :=
    executeAll_pops (List.nodup_reverse.2 hnodup) hproper hnibble rfl rfl hvalues
  refine ⟨hsp'.trans ?_, hbus'.trans hquiet, fun pair hmem => hloads pair (List.mem_reverse.2 hmem)⟩
  have hup : (t.popAll pairs.reverse.length).2.registers.sp =
      t.registers.sp + (2 * pairs.reverse.length).toUInt16 :=
    congrArg (fun cpu => cpu.registers.sp) hback
  rw [hup, hsp, hdown, List.length_reverse, UInt16.sub_add_cancel]

end Core

end DotMatrix
