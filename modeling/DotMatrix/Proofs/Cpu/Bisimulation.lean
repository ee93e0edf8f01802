import DotMatrix.Proofs.Cpu.Action
import Mathlib.Logic.Basic

/-!
# Buses that the processor cannot tell apart

The processor looks at its bus by reading, at the interrupts that are pending and at the buttons
that are held, and it does only a few things to it. A relation between buses that respects all of
this (`Bus.Bisimulation`) is respected by every instruction and every step: from related buses the
same processor does the same and leaves related buses (`Core.step_related`).
-/

namespace DotMatrix

variable {τ : Type} [Timeline τ]

/-- What the processor looks at is the same on related buses, and what it does to both leaves them
related. -/
structure Bus.Bisimulation (R : Bus τ → Bus τ → Prop) : Prop where
  read {b b' : Bus τ} : R b b' → ∀ addr, b'.read addr = b.read addr
  pending {b b' : Bus τ} : R b b' → b'.pendingInterrupts = b.pendingInterrupts
  held {b b' : Bus τ} : R b b' → b'.joypad.panel.held = b.joypad.panel.held
  write {b b' : Bus τ} : R b b' → ∀ addr val, R (b.write addr val) (b'.write addr val)
  resetDivider {b b' : Bus τ} : R b b' → R b.resetDivider b'.resetDivider
  acknowledge {b b' : Bus τ} :
    R b b' → ∀ flags, R (b.acknowledgeInterrupt flags) (b'.acknowledgeInterrupt flags)
  runDma {b b' : Bus τ} : R b b' → b'.runDma.1 = b.runDma.1 ∧ R b.runDma.2 b'.runDma.2

namespace Core

/-- The same processor at the same point of a step, on related buses. -/
structure Related (R : Bus τ → Bus τ → Prop) (s s' : Core τ) : Prop where
  cpu : s'.cpu = s.cpu
  cycles : s'.cycles = s.cycles
  bus : R s.bus s'.bus

namespace Related

variable {R : Bus τ → Bus τ → Prop} {s s' : Core τ}

/-! ## Without the bus -/

section Quiet

omit [Timeline τ]

theorem registers (h : Related R s s') : s'.registers = s.registers :=
  congrArg Cpu.registers h.cpu

theorem changeCpu (h : Related R s s') (f : Cpu → Cpu) :
    Related R { s with cpu := f s.cpu } { s' with cpu := f s'.cpu } :=
  ⟨congrArg f h.cpu, h.cycles, h.bus⟩

theorem setRegisters (h : Related R s s') {r r' : Registers} (hr : r' = r) :
    Related R (s.setRegisters r) (s'.setRegisters r') := by
  subst hr
  exact h.changeCpu fun cpu => { cpu with registers := r' }

/-- The registers become a function of what they are. -/
theorem mapRegisters (h : Related R s s') (f : Registers → Registers) :
    Related R (s.setRegisters (f s.registers)) (s'.setRegisters (f s'.registers)) :=
  h.setRegisters (congrArg f h.registers)

theorem idle (h : Related R s s') : Related R s.idle s'.idle :=
  ⟨h.cpu, congrArg (· + machineCycle) h.cycles, h.bus⟩

theorem setPc (h : Related R s s') {pc pc' : UInt16} (hpc : pc' = pc) :
    Related R (s.setPc pc) (s'.setPc pc') := by
  subst hpc
  exact h.mapRegisters fun r => { r with pc := pc' }

theorem jumpTo (h : Related R s s') {addr addr' : UInt16} (haddr : addr' = addr) :
    Related R (s.jumpTo addr) (s'.jumpTo addr') :=
  (h.setPc haddr).idle

theorem jumpBy (h : Related R s s') {offset offset' : UInt8} (hoffset : offset' = offset) :
    Related R (s.jumpBy offset) (s'.jumpBy offset') :=
  h.jumpTo (congrArg₂ (fun (r : Registers) o => r.pc + Word.signExtend o) h.registers hoffset)

/-- Both take the same branch. -/
theorem branch (h : Related R s s') {a a' : Core τ} {c c' : Bool} (hc : c' = c)
    (ha : Related R a a') : Related R (if c then a else s) (if c' then a' else s') := by
  subst hc
  cases c' with
  | true => exact ha
  | false => exact h

end Quiet

/-! ## Reading and writing -/

section Access

variable (hR : Bus.Bisimulation R)
include hR

theorem readByte (h : Related R s s') {addr addr' : UInt16} (haddr : addr' = addr) :
    (s'.readByte addr').1 = (s.readByte addr).1 ∧
      Related R (s.readByte addr).2 (s'.readByte addr').2 := by
  subst haddr
  exact ⟨hR.read h.bus addr', h.idle⟩

theorem fetchByte (h : Related R s s') :
    s'.fetchByte.1 = s.fetchByte.1 ∧ Related R s.fetchByte.2 s'.fetchByte.2 := by
  have hpc : s'.registers.pc = s.registers.pc := congrArg Registers.pc h.registers
  refine ⟨?_, h.idle.mapRegisters fun r => { r with pc := r.pc + 1 }⟩
  show s'.bus.read s'.registers.pc = s.bus.read s.registers.pc
  rw [hpc, hR.read h.bus]

theorem fetchWord (h : Related R s s') :
    s'.fetchWord.1 = s.fetchWord.1 ∧ Related R s.fetchWord.2 s'.fetchWord.2 := by
  obtain ⟨hlow, hnext⟩ := h.fetchByte hR
  obtain ⟨hhigh, hdone⟩ := hnext.fetchByte hR
  exact ⟨congrArg₂ Word.ofBytes hhigh hlow, hdone⟩

theorem pop (h : Related R s s') : s'.pop.1 = s.pop.1 ∧ Related R s.pop.2 s'.pop.2 := by
  have hsp : s'.registers.sp = s.registers.sp := congrArg Registers.sp h.registers
  obtain ⟨hlow, hnext⟩ := h.readByte hR hsp
  obtain ⟨hhigh, hdone⟩ := hnext.readByte hR (congrArg (· + 1) hsp)
  refine ⟨congrArg₂ Word.ofBytes hhigh hlow, ?_⟩
  exact hdone.setRegisters
    (congrArg₂ (fun (r : Registers) sp => { r with sp := sp + 2 }) hdone.registers hsp)

theorem readOperand (h : Related R s s') (operand : Operand) :
    (s'.readOperand operand).1 = (s.readOperand operand).1 ∧
      Related R (s.readOperand operand).2 (s'.readOperand operand).2 := by
  cases operand with
  | register r => exact ⟨congrArg (Registers.getByte · r) h.registers, h⟩
  | atHl => exact h.readByte hR (congrArg Registers.hl h.registers)

theorem ret (h : Related R s s') : Related R s.ret s'.ret := by
  obtain ⟨haddr, hnext⟩ := h.pop hR
  exact hnext.jumpTo haddr

theorem halt (h : Related R s s') (enabling : Bool) :
    Related R (s.halt enabling) (s'.halt enabling) := by
  unfold Core.halt
  dsimp only
  rw [hR.pending h.bus, h.cpu]
  split
  · exact h.setPc (congrArg (fun r : Registers => r.pc - 1) h.registers)
  · split
    · exact ⟨rfl, h.cycles, h.bus⟩
    · exact ⟨rfl, h.cycles, h.bus⟩

theorem writeByte (h : Related R s s') {addr addr' : UInt16} {val val' : UInt8}
    (haddr : addr' = addr) (hval : val' = val) :
    Related R (s.writeByte addr val) (s'.writeByte addr' val') := by
  subst haddr hval
  exact ⟨h.cpu, congrArg (· + machineCycle) h.cycles, hR.write h.bus addr' val'⟩

theorem push (h : Related R s s') {val val' : UInt16} (hval : val' = val) :
    Related R (s.push val) (s'.push val') := by
  have hsp : s'.registers.sp = s.registers.sp := congrArg Registers.sp h.registers
  have hhigh := h.writeByte hR (congrArg (· - 1) hsp) (congrArg Word.high hval)
  have hlow := hhigh.writeByte hR (congrArg (· - 2) hsp) (congrArg Word.low hval)
  exact hlow.setRegisters
    (congrArg₂ (fun (r : Registers) sp => { r with sp := sp - 2 }) hlow.registers hsp)

theorem writeOperand (h : Related R s s') (operand : Operand) {val val' : UInt8}
    (hval : val' = val) :
    Related R (s.writeOperand operand val) (s'.writeOperand operand val') := by
  cases operand with
  | register r =>
    exact h.setRegisters (congrArg₂ (fun r' v => Registers.setByte r' r v) h.registers hval)
  | atHl => exact h.writeByte hR (congrArg Registers.hl h.registers) hval

theorem call (h : Related R s s') {addr addr' : UInt16} (haddr : addr' = addr) :
    Related R (s.call addr) (s'.call addr') :=
  (h.idle.push hR (congrArg Registers.pc h.registers)).setPc haddr

/-! ## Instructions -/

/-- An operand is read, changed along with the registers, and written back. -/
theorem modify (h : Related R s s') (operand : Operand)
    (f : Registers → UInt8 → UInt8 × Registers) :
    let read := s.readOperand operand
    let read' := s'.readOperand operand
    let result := f read.2.registers read.1
    let result' := f read'.2.registers read'.1
    Related R ((read.2.setRegisters result.2).writeOperand operand result.1)
      ((read'.2.setRegisters result'.2).writeOperand operand result'.1) := by
  obtain ⟨hval, hnext⟩ := h.readOperand hR operand
  have hresult := congrArg₂ f hnext.registers hval
  exact (hnext.setRegisters (congrArg Prod.snd hresult)).writeOperand hR operand
    (congrArg Prod.fst hresult)

theorem executePrefixed (h : Related R s s') (instruction : PrefixedInstruction) :
    Related R (s.executePrefixed instruction) (s'.executePrefixed instruction) := by
  cases instruction with
  | shift op operand => exact h.modify hR operand fun r val => Alu.applyShift r op val
  | testBit bit operand =>
    obtain ⟨hval, hnext⟩ := h.readOperand hR operand
    exact hnext.setRegisters (congrArg₂ (fun r val => Alu.testBit r bit val) hnext.registers hval)
  | resetBit bit operand =>
    obtain ⟨hval, hnext⟩ := h.readOperand hR operand
    exact hnext.writeOperand hR operand (congrArg (· &&& ~~~((1 : UInt8) <<< bit.toUInt8)) hval)
  | setBit bit operand =>
    obtain ⟨hval, hnext⟩ := h.readOperand hR operand
    exact hnext.writeOperand hR operand (congrArg (· ||| ((1 : UInt8) <<< bit.toUInt8)) hval)

/-- What a loading instruction does with the byte that it has read. -/
theorem loadA (h : Related R s s') {addr addr' : UInt16} (haddr : addr' = addr) :
    let read := s.readByte addr
    let read' := s'.readByte addr'
    Related R (read.2.setRegisters { read.2.registers with a := read.1 })
      (read'.2.setRegisters { read'.2.registers with a := read'.1 }) := by
  obtain ⟨hval, hnext⟩ := h.readByte hR haddr
  exact hnext.setRegisters
    (congrArg₂ (fun (r : Registers) val => { r with a := val }) hnext.registers hval)

theorem execute (h : Related R s s') (enabling : Bool) (instruction : Instruction) :
    Related R (s.execute enabling instruction) (s'.execute enabling instruction) := by
  have hregisters := h.registers
  cases instruction with
  | nop => exact h
  | stop =>
    obtain ⟨-, hnext⟩ := h.fetchByte hR
    exact ⟨congrArg (fun cpu : Cpu => { cpu with mode := .stopped }) hnext.cpu, hnext.cycles,
      hR.resetDivider hnext.bus⟩
  | halt => exact h.halt hR enabling
  | disableInterrupts => exact h.changeCpu fun cpu => { cpu with ime := false }
  | enableInterrupts => exact h.changeCpu fun cpu => { cpu with enabling := true }
  | prefixed =>
    obtain ⟨hop, hnext⟩ := h.fetchByte hR
    show Related R (s.fetchByte.2.executePrefixed (.decode s.fetchByte.1))
      (s'.fetchByte.2.executePrefixed (.decode s'.fetchByte.1))
    rw [hop]
    exact hnext.executePrefixed hR _
  | load target source =>
    obtain ⟨hval, hnext⟩ := h.readOperand hR source
    exact hnext.writeOperand hR target hval
  | loadImmediate target =>
    obtain ⟨hval, hnext⟩ := h.fetchByte hR
    exact hnext.writeOperand hR target hval
  | loadPair pair =>
    obtain ⟨hval, hnext⟩ := h.fetchWord hR
    exact hnext.setRegisters
      (congrArg₂ (fun r val => Registers.set r pair val) hnext.registers hval)
  | loadIndirect pointer =>
    have hfollow := congrArg (follow · pointer) hregisters
    obtain ⟨hval, hnext⟩ := h.readByte hR (congrArg Prod.fst hfollow)
    exact hnext.setRegisters (congrArg₂ (fun (r : Registers) val => { r with a := val })
      (congrArg Prod.snd hfollow) hval)
  | storeIndirect pointer =>
    have hfollow := congrArg (follow · pointer) hregisters
    have hstored := h.writeByte hR (congrArg Prod.fst hfollow) (congrArg Registers.a hregisters)
    exact hstored.setRegisters (congrArg Prod.snd hfollow)
  | loadAbsolute =>
    obtain ⟨haddr, hnext⟩ := h.fetchWord hR
    exact hnext.loadA hR haddr
  | storeAbsolute =>
    obtain ⟨haddr, hnext⟩ := h.fetchWord hR
    exact hnext.writeByte hR haddr (congrArg Registers.a hnext.registers)
  | loadHigh =>
    obtain ⟨hoffset, hnext⟩ := h.fetchByte hR
    exact hnext.loadA hR (congrArg highPage hoffset)
  | storeHigh =>
    obtain ⟨hoffset, hnext⟩ := h.fetchByte hR
    exact hnext.writeByte hR (congrArg highPage hoffset) (congrArg Registers.a hnext.registers)
  | loadHighC => exact h.loadA hR (congrArg (fun r : Registers => highPage r.c) hregisters)
  | storeHighC =>
    exact h.writeByte hR (congrArg (fun r : Registers => highPage r.c) hregisters)
      (congrArg Registers.a hregisters)
  | storeSp =>
    obtain ⟨haddr, hnext⟩ := h.fetchWord hR
    have hsp := congrArg Registers.sp hnext.registers
    have hlow := hnext.writeByte hR haddr (congrArg Word.low hsp)
    exact hlow.writeByte hR (congrArg (· + 1) haddr) (congrArg Word.high hsp)
  | loadSpHl => exact (h.mapRegisters fun r => { r with sp := r.hl }).idle
  | loadHlSp =>
    obtain ⟨hoffset, hnext⟩ := h.fetchByte hR
    have hsum := congrArg₂ Alu.spPlus hnext.registers hoffset
    exact (hnext.setRegisters
      (congrArg (fun sum : UInt16 × Registers => sum.2.setHl sum.1) hsum)).idle
  | addSp =>
    obtain ⟨hoffset, hnext⟩ := h.fetchByte hR
    have hsum := congrArg₂ Alu.spPlus hnext.registers hoffset
    exact (hnext.setRegisters
      (congrArg (fun sum : UInt16 × Registers => { sum.2 with sp := sum.1 }) hsum)).idle.idle
  | push pair => exact h.idle.push hR (congrArg (Registers.get · pair) hregisters)
  | pop pair =>
    obtain ⟨hval, hnext⟩ := h.pop hR
    exact hnext.setRegisters
      (congrArg₂ (fun r val => Registers.set r pair val) hnext.registers hval)
  | alu op source =>
    obtain ⟨hval, hnext⟩ := h.readOperand hR source
    exact hnext.setRegisters (congrArg₂ (fun r val => Alu.apply r op val) hnext.registers hval)
  | aluImmediate op =>
    obtain ⟨hval, hnext⟩ := h.fetchByte hR
    exact hnext.setRegisters (congrArg₂ (fun r val => Alu.apply r op val) hnext.registers hval)
  | increment operand => exact h.modify hR operand Alu.increment
  | decrement operand => exact h.modify hR operand Alu.decrement
  | incrementPair pair => exact (h.mapRegisters fun r => r.set pair (r.get pair + 1)).idle
  | decrementPair pair => exact (h.mapRegisters fun r => r.set pair (r.get pair - 1)).idle
  | addHl pair => exact (h.mapRegisters fun r => Alu.addHl r (r.get pair)).idle
  | rotateA op =>
    exact h.mapRegisters fun r =>
      let shifted := Alu.applyShift r op r.a
      { shifted.2 with a := shifted.1 }.setFlag Flag.zero false
  | decimalAdjust => exact h.mapRegisters Alu.decimalAdjust
  | complement => exact h.mapRegisters Alu.complement
  | setCarry => exact h.mapRegisters (Alu.putCarry · true)
  | complementCarry => exact h.mapRegisters fun r => Alu.putCarry r (!r.flag Flag.carry)
  | jump condition =>
    obtain ⟨haddr, hnext⟩ := h.fetchWord hR
    exact hnext.branch (congrArg (fun r => condition.all (·.holds r)) hnext.registers)
      (hnext.jumpTo haddr)
  | jumpHl => exact h.setPc (congrArg Registers.hl hregisters)
  | jumpRelative condition =>
    obtain ⟨hoffset, hnext⟩ := h.fetchByte hR
    exact hnext.branch (congrArg (fun r => condition.all (·.holds r)) hnext.registers)
      (hnext.jumpBy hoffset)
  | call condition =>
    obtain ⟨haddr, hnext⟩ := h.fetchWord hR
    exact hnext.branch (congrArg (fun r => condition.all (·.holds r)) hnext.registers)
      (hnext.call hR haddr)
  | restart vector => exact h.call hR rfl
  | ret => exact h.ret hR
  | retIf condition =>
    exact h.idle.branch (congrArg condition.holds hregisters) (h.idle.ret hR)
  | retInterrupt => exact (h.ret hR).changeCpu fun cpu => { cpu with ime := true }

/-! ## Steps -/

theorem takeInterrupt (h : Related R s s') (number : Nat) :
    Related R (s.takeInterrupt number) (s'.takeInterrupt number) := by
  have hcleared : Related R
      { s with
        cpu := { s.cpu with ime := false }
        bus := s.bus.acknowledgeInterrupt ((1 : UInt8) <<< number.toUInt8) }
      { s' with
        cpu := { s'.cpu with ime := false }
        bus := s'.bus.acknowledgeInterrupt ((1 : UInt8) <<< number.toUInt8) } :=
    ⟨congrArg (fun cpu : Cpu => { cpu with ime := false }) h.cpu, h.cycles,
      hR.acknowledge h.bus _⟩
  have hidle := hcleared.idle.idle
  exact (hidle.push hR (congrArg Registers.pc hidle.registers)).jumpTo rfl

theorem fetchOpcode (h : Related R s s') :
    s'.fetchOpcode.1 = s.fetchOpcode.1 ∧ Related R s.fetchOpcode.2 s'.fetchOpcode.2 := by
  have hbug : s'.cpu.haltBug = s.cpu.haltBug := congrArg Cpu.haltBug h.cpu
  unfold Core.fetchOpcode
  rw [hbug]
  split
  · exact (h.changeCpu fun cpu => { cpu with haltBug := false }).readByte hR
      (congrArg Registers.pc h.registers)
  · exact h.fetchByte hR

/-- The instruction that was fetched is executed, and what the one before enabled takes effect. -/
theorem executed (h : Related R s s') (instruction : Instruction) :
    Related R (s.executed instruction) (s'.executed instruction) := by
  have henabling : s'.cpu.enabling = s.cpu.enabling := congrArg Cpu.enabling h.cpu
  obtain ⟨-, hfetched⟩ := (h.changeCpu fun cpu => { cpu with enabling := false }).fetchOpcode hR
  have hdone := hfetched.execute hR s.cpu.enabling instruction
  unfold Core.executed
  rw [henabling]
  exact hdone.branch rfl (hdone.changeCpu fun cpu => { cpu with ime := true })

theorem executeNext (h : Related R s s') :
    s'.executeNext.2 = s.executeNext.2 ∧ Related R s.executeNext.1 s'.executeNext.1 := by
  obtain ⟨hop, hfetched⟩ := (h.changeCpu fun cpu => { cpu with enabling := false }).fetchOpcode hR
  have hop : s'.fetched.1 = s.fetched.1 := hop
  rw [executeNext_eq, executeNext_eq, hop, h.registers]
  split
  · exact ⟨rfl, hfetched⟩
  · exact ⟨rfl, h.executed hR _⟩

theorem proceed (h : Related R s s') :
    s'.proceed.2 = s.proceed.2 ∧ Related R s.proceed.1 s'.proceed.1 := by
  unfold Core.proceed
  dsimp only
  rw [hR.pending h.bus, h.cpu]
  split
  · exact ⟨rfl, h.takeInterrupt hR _⟩
  · exact h.executeNext hR

theorem stepMode (h : Related R s s') :
    s'.stepMode.2 = s.stepMode.2 ∧ Related R s.stepMode.1 s'.stepMode.1 := by
  unfold Core.stepMode
  rw [hR.pending h.bus, hR.held h.bus, h.cpu]
  split
  · exact ⟨rfl, idle ⟨rfl, h.cycles, h.bus⟩⟩
  · split
    · exact ⟨rfl, h.idle⟩
    · exact proceed hR ⟨rfl, h.cycles, h.bus⟩
  · exact h.proceed hR

end Access

end Related

/-- From related buses a step of the same processor does the same and leaves related buses. -/
theorem step_related {R : Bus τ → Bus τ → Prop} (hR : Bus.Bisimulation R) (cpu : Cpu)
    {b b' : Bus τ} (h : R b b') :
    (step cpu b').2 = (step cpu b).2 ∧ Related R (step cpu b).1 (step cpu b').1 := by
  obtain ⟨hcopy, hcopied⟩ := hR.runDma h
  unfold step
  rcases hb : b.runDma with ⟨result, copied⟩
  rcases hb' : b'.runDma with ⟨result', copied'⟩
  rw [hb, hb'] at hcopy hcopied
  have hsame : result' = result := hcopy
  subst hsame
  have hprepared : Related R ⟨cpu, copied, 0⟩ ⟨cpu, copied', 0⟩ := ⟨rfl, rfl, hcopied⟩
  cases result' with
  | error fault => exact ⟨rfl, hprepared⟩
  | ok _ => exact hprepared.stepMode hR

end Core

end DotMatrix
