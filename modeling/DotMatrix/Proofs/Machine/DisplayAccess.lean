import DotMatrix.Proofs.Display.Gating
import DotMatrix.Proofs.Machine.Run

/-!
# What the display lets a program touch

In every state between two steps of a machine, the display has been told the present time and its
gates agree with the phase that the status register shows (`inStep_of_reachable`). So a program
that reads the status and line registers knows which memories it can read and write
(`displayAccess_of_reachable`).
-/

namespace DotMatrix

variable {τ : Type}

/-! ## The master clock -/

namespace Timer

theorem now_reload (t : Timer) : t.reload.1.now = t.now := by
  unfold reload
  split <;> rfl

theorem now_sense (t : Timer) : t.sense.now = t.now := by
  unfold sense increment
  dsimp only
  split
  · split <;> rfl
  · rfl

theorem now_resetDivider (t : Timer) : t.resetDivider.1.now = t.now := by
  unfold resetDivider
  exact (now_sense _).trans t.now_reload

theorem now_write (t : Timer) (addr : UInt16) (val : UInt8) : (t.write addr val).1.now = t.now := by
  unfold write
  split
  · exact t.now_resetDivider
  · rfl
  · rfl
  · exact (now_reload _).trans (now_sense _)
  · rfl

theorem now_tick (t : Timer) : t.tick.1.now = t.now + machineCycle := by
  unfold tick
  exact (now_sense _).trans (congrArg (· + machineCycle) t.now_reload)

theorem now_ticks (n : Nat) (t : Timer) : (ticks n t).1.now = t.now + n * machineCycle := by
  induction n generalizing t with
  | zero => simp [ticks]
  | succ n ih =>
    show (ticks n t.tick.1).1.now = _
    rw [ih, now_tick, Nat.add_mul]
    omega

theorem now_le_advance (t : Timer) (cycles : Nat) : t.now ≤ (t.advance cycles).1.now := by
  unfold advance
  rw [now_ticks]
  omega

end Timer

namespace Display

theorem now_toggle (d : Display) : d.toggle.now = d.now := by
  unfold toggle
  dsimp only
  split
  · rfl
  · split <;> rfl

theorem now_write (d : Display) (addr : UInt16) (val : UInt8) : (d.write addr val).now = d.now := by
  unfold write
  dsimp only
  split
  · exact now_toggle _
  all_goals rfl

theorem now_writeVideo (d : Display) (i : Nat) (val : UInt8) :
    (d.writeVideo i val).now = d.now := by
  unfold writeVideo
  split <;> rfl

theorem now_writeObjects (d : Display) (i : Nat) (val : UInt8) :
    (d.writeObjects i val).now = d.now := by
  unfold writeObjects
  split <;> rfl

end Display

/-! ## The display of a machine -/

namespace Bus

/-- The display knows the time, and its gates agree with its phase. -/
structure InStep (b : Bus τ) : Prop where
  gated : b.display.Gated
  now : b.display.now = b.timer.now

theorem InStep.of_eq {b b' : Bus τ} (h : b.InStep) (hgated : b'.display.Gated)
    (hnow : b'.display.now = b.display.now) (htime : b'.timer.now = b.timer.now) : b'.InStep :=
  ⟨hgated, hnow.trans (h.now.trans htime.symm)⟩

theorem InStep.setTimer {b : Bus τ} (h : b.InStep) {result : Timer × Bool}
    (htime : result.1.now = b.timer.now) : (b.setTimer result).InStep :=
  h.of_eq h.gated rfl htime

variable [Timeline τ]

theorem InStep.write {b : Bus τ} (h : b.InStep) (addr : UInt16) (val : UInt8) :
    (b.write addr val).InStep := by
  have hwritten := b.written_write addr val
  generalize b.write addr val = b' at *
  cases hwritten with
  | video i => exact h.of_eq (h.gated.writeVideo i val) (b.display.now_writeVideo i val) rfl
  | objects i => exact h.of_eq (h.gated.writeObjects i val) (b.display.now_writeObjects i val) rfl
  | display => exact h.of_eq (h.gated.write addr val) (b.display.now_write addr val) rfl
  | copy => exact h.of_eq (h.gated.write addr val) (b.display.now_write addr val) rfl
  | timer => exact h.setTimer (b.timer.now_write addr val)
  | _ => exact h.of_eq h.gated rfl rfl

theorem InStep.becomes {b b' : Bus τ} (hb : b.Becomes b') (h : b.InStep) : b'.InStep :=
  hb.invariant (fun _ addr val hb => hb.write addr val)
    (fun b hb => hb.setTimer b.timer.now_resetDivider) (fun _ _ hb => hb.of_eq hb.gated rfl rfl) h

omit [Timeline τ] in
theorem InStep.runDma {b : Bus τ} (h : b.InStep) : b.runDma.2.InStep := by
  -- a copy writes to object memory whatever the gate says, and leaves the gate as it is
  rw [runDma_snd]
  exact h.of_eq (h.gated.of_eq rfl rfl rfl rfl rfl rfl rfl) rfl rfl

omit [Timeline τ] in
theorem InStep.advance {b : Bus τ} (h : b.InStep) (cycles : Nat) : (b.advance cycles).2.InStep := by
  -- the timer runs first, and the display is told the time that it ends at
  have hle : b.display.now ≤ (b.timer.advance cycles).1.now := by
    rw [h.now]
    exact b.timer.now_le_advance cycles
  exact ⟨h.gated.update hle, b.display.now_update _⟩

omit [Timeline τ] in
theorem InStep.meanwhile {b b' : Bus τ} (hb : b.Meanwhile b') (h : b.InStep) : b'.InStep := by
  have hgated : b'.display.Gated := by
    rw [hb.display]
    exact h.gated.of_eq rfl rfl rfl rfl rfl rfl rfl
  have hnow : b'.display.now = b.display.now := by
    rw [hb.display]
  exact h.of_eq hgated hnow (congrArg Timer.now hb.timer)

omit [Timeline τ] in
theorem inStep_create (cartridge : Cartridge τ) (host : Host τ) :
    (create cartridge host).InStep :=
  ⟨Display.gated_initial, rfl⟩

omit [Timeline τ] in
theorem InStep.applyPostBoot {b : Bus τ} (h : b.InStep) : b.applyPostBoot.InStep := by
  -- the boot program leaves the display switched on
  have hgated := (h.gated.write 0xFF40 0x91).write 0xFF47 0xFC
  have hnow : ((b.display.write 0xFF40 0x91).write 0xFF47 0xFC).now = b.display.now := by
    rw [Display.now_write, Display.now_write]
  exact h.of_eq hgated hnow rfl

end Bus

namespace Machine

variable [Timeline τ]

omit [Timeline τ] in
theorem inStep_create (cartridge : Cartridge τ) (host : Host τ) (boot : Option BootImage) :
    (create cartridge host boot).bus.InStep := by
  have hbus := Bus.inStep_create cartridge host
  cases boot with
  | none => exact hbus.applyPostBoot
  | some image => exact hbus.of_eq hbus.gated rfl rfl

theorem inStep_of_reachable {m : Machine τ} (h : m.Reachable) : m.bus.InStep :=
  h.invariant (P := fun m => m.bus.InStep) inStep_create
    (fun _ hm => step_invariant (fun _ hb => hb.runDma) (fun _ _ hb h => h.becomes hb)
      (fun _ cycles hb => hb.advance cycles) hm)
    (fun _ _ hbetween hm => hm.meanwhile hbetween.bus)

end Machine

/-! ## What a program sees -/

namespace Bus

/-- Video memory can be read and written if the gate is open. If it is shut, reading gives
`0xFF` and writing changes nothing. -/
structure VideoGate (b : Bus τ) [Timeline τ] (isOpen : Prop) : Prop where
  read_open : isOpen → ∀ addr, 0x8000 ≤ addr → addr < 0xA000 →
    b.read addr = b.display.vram.read (addr.toNat - 0x8000)
  write_open : isOpen → ∀ addr val, 0x8000 ≤ addr → addr < 0xA000 →
    b.write addr val =
      { b with display :=
        { b.display with vram := b.display.vram.write (addr.toNat - 0x8000) val } }
  read_shut : ¬ isOpen → ∀ addr, 0x8000 ≤ addr → addr < 0xA000 → b.read addr = 0xFF
  write_shut : ¬ isOpen → ∀ addr val, 0x8000 ≤ addr → addr < 0xA000 → b.write addr val = b

/-- The same of object memory. -/
structure ObjectGate (b : Bus τ) [Timeline τ] (isOpen : Prop) : Prop where
  read_open : isOpen → ∀ addr, 0xFE00 ≤ addr → addr < 0xFEA0 →
    b.read addr = b.display.oam.read (addr.toNat - 0xFE00)
  write_open : isOpen → ∀ addr val, 0xFE00 ≤ addr → addr < 0xFEA0 →
    b.write addr val =
      { b with display :=
        { b.display with oam := b.display.oam.write (addr.toNat - 0xFE00) val } }
  read_shut : ¬ isOpen → ∀ addr, 0xFE00 ≤ addr → addr < 0xFEA0 → b.read addr = 0xFF
  write_shut : ¬ isOpen → ∀ addr val, 0xFE00 ≤ addr → addr < 0xFEA0 → b.write addr val = b

section Areas

variable [Timeline τ] (b : Bus τ) {addr : UInt16}

theorem video_area (hlo : 0x8000 ≤ addr) (hhi : addr < 0xA000) (val : UInt8) :
    b.read addr = b.display.readVideo (addr.toNat - 0x8000) ∧
      b.write addr val =
        { b with display := b.display.writeVideo (addr.toNat - 0x8000) val } := by
  have h₁ : ¬ addr < 0x8000 := by
    rw [UInt16.not_lt]
    exact hlo
  unfold read write
  rw [if_neg h₁, if_pos hhi, if_neg h₁, if_pos hhi]
  exact ⟨rfl, rfl⟩

theorem object_area (hlo : 0xFE00 ≤ addr) (hhi : addr < 0xFEA0) (val : UInt8) :
    b.read addr = b.display.readObjects (addr.toNat - 0xFE00) ∧
      b.write addr val =
        { b with display := b.display.writeObjects (addr.toNat - 0xFE00) val } := by
  -- the address is above all areas that are told apart before this one
  have hnot : ∀ bound : UInt16, bound ≤ 0xFE00 → ¬ addr < bound := by
    intro bound hbound
    rw [UInt16.not_lt]
    exact UInt16.le_trans hbound hlo
  unfold read write
  rw [if_neg (hnot 0x8000 (by decide)), if_neg (hnot 0xA000 (by decide)),
    if_neg (hnot 0xC000 (by decide)), if_neg (hnot 0xE000 (by decide)),
    if_neg (hnot 0xFE00 (by decide)), if_pos hhi, if_neg (hnot 0x8000 (by decide)),
    if_neg (hnot 0xA000 (by decide)), if_neg (hnot 0xC000 (by decide)),
    if_neg (hnot 0xE000 (by decide)), if_neg (hnot 0xFE00 (by decide)), if_pos hhi]
  exact ⟨rfl, rfl⟩

theorem videoGate_of_iff {b : Bus τ} {isOpen : Prop} (h : b.display.videoOpen = true ↔ isOpen) :
    b.VideoGate isOpen where
  read_open ho addr hlo hhi := (b.video_area hlo hhi 0).1.trans (if_pos (h.2 ho))
  write_open ho addr val hlo hhi := by
    rw [(b.video_area hlo hhi val).2, Display.writeVideo, if_pos (h.2 ho)]
  read_shut hs addr hlo hhi := (b.video_area hlo hhi 0).1.trans (if_neg fun ho => hs (h.1 ho))
  write_shut hs addr val hlo hhi := by
    rw [(b.video_area hlo hhi val).2, Display.writeVideo, if_neg fun ho => hs (h.1 ho)]

theorem objectGate_of_iff {b : Bus τ} {isOpen : Prop}
    (h : b.display.objectsOpen = true ↔ isOpen) : b.ObjectGate isOpen where
  read_open ho addr hlo hhi := (b.object_area hlo hhi 0).1.trans (if_pos (h.2 ho))
  write_open ho addr val hlo hhi := by
    rw [(b.object_area hlo hhi val).2, Display.writeObjects, if_pos (h.2 ho)]
  read_shut hs addr hlo hhi := (b.object_area hlo hhi 0).1.trans (if_neg fun ho => hs (h.1 ho))
  write_shut hs addr val hlo hhi := by
    rw [(b.object_area hlo hhi val).2, Display.writeObjects, if_neg fun ho => hs (h.1 ho)]

end Areas

/-! ### The registers of the display -/

theorem read_control (b : Bus τ) : b.read 0xFF40 = b.display.registers.control := rfl

theorem read_status (b : Bus τ) : b.read 0xFF41 = b.display.status := rfl

theorem read_line (b : Bus τ) : b.read 0xFF44 = b.display.line.toUInt8 := rfl

end Bus

namespace Display

theorem status_and_three (d : Display) : d.status &&& 3 = d.mode := by
  have hmode : d.mode &&& 3 = d.mode := by
    unfold mode
    cases d.currentPhase? with
    | none => decide
    | some phase => cases phase <;> simp [Phase.mode] <;> decide
  -- the bits that a program can write and the comparison with the line are above the mode
  have hwritable : (d.registers.status &&& 0x78) &&& 3 = 0 := by
    rw [UInt8.and_assoc]
    exact UInt8.and_zero
  have hcompare : ∀ on, bitsIf on 0x04 &&& 3 = 0 := by decide
  unfold status
  rw [or_and, or_and, or_and, hwritable, hcompare, hmode]
  exact UInt8.zero_or

end Display

namespace Machine

variable [Timeline τ]

/-- The program has switched the display off, or on for less than the delay of its start. -/
def DisplayWaits (m : Machine τ) : Prop :=
  m.bus.read 0xFF40 &&& 0x80 = 0 ∨
    ∃ start, m.bus.display.startAt = some start ∧ m.now < start ∧ start ≤ m.now + 244

/-- In every state between two steps the mode bits of the status register and the line register
tell what the program can do. While the display runs, the mode is 1 on the lines of the vertical
blank, video memory is open unless the mode is 3, and object memory while it is 0 or 1. While the
display is off or its start is delayed, both registers show nothing and both memories are open. -/
theorem displayAccess_of_reachable {m : Machine τ} (h : m.Reachable) :
    (m.bus.display.running = true →
      (m.bus.read 0xFF41 &&& 3 = 1 ↔ 144 ≤ m.bus.read 0xFF44) ∧
        m.bus.VideoGate (m.bus.read 0xFF41 &&& 3 ≠ 3) ∧
        m.bus.ObjectGate (m.bus.read 0xFF41 &&& 3 ≤ 1)) ∧
      (m.bus.display.running = false ↔ m.DisplayWaits) ∧
      (m.DisplayWaits →
        m.bus.read 0xFF41 &&& 3 = 0 ∧ m.bus.read 0xFF44 = 0 ∧ m.bus.VideoGate True ∧
          m.bus.ObjectGate True) := by
  have hstep := inStep_of_reachable h
  have hmode : m.bus.read 0xFF41 &&& 3 = m.bus.display.mode := by
    rw [Bus.read_status, Display.status_and_three]
  have hwaits : m.bus.display.running = false ↔ m.DisplayWaits := by
    rw [hstep.gated.asleep_iff, hstep.now]
    unfold DisplayWaits Display.Registers.lcdOn anySet
    rw [Bus.read_control, bne_eq_false_iff_eq]
    exact Iff.rfl
  refine ⟨fun hrunning => ?_, hwaits, fun hasleep => ?_⟩
  · obtain ⟨hline, hblank, hvideo, hobjects⟩ := hstep.gated.of_running hrunning
    rw [hmode]
    refine ⟨hblank.trans ?_, Bus.videoGate_of_iff hvideo, Bus.objectGate_of_iff hobjects⟩
    -- lines are few, so the register holds the line itself
    have hsmall : m.bus.display.line.toUInt8.toNat = m.bus.display.line :=
      Nat.mod_eq_of_lt (Nat.lt_trans hline (by decide))
    rw [Bus.read_line, UInt8.le_iff_toNat_le, hsmall]
    exact Iff.rfl
  · have hrunning := hwaits.2 hasleep
    obtain ⟨hmode', hline⟩ := Display.mode_line_of_asleep hrunning
    obtain ⟨hvideo, hobjects, -⟩ := hstep.gated.asleep hrunning
    rw [hmode, Bus.read_line, hline]
    exact ⟨hmode', rfl, Bus.videoGate_of_iff (iff_true_intro hvideo),
      Bus.objectGate_of_iff (iff_true_intro hobjects)⟩

/-- The program calls itself. -/
def callSelf : List UInt8 := [0xCD, 0x00, 0x01]

/-- After some calls the object scan of the first line has begun: the program can touch video
memory, and object memory is shut. -/
theorem displayAccess_firstLine :
    ((ofProgram callSelf).afterSteps 11).bus.VideoGate True ∧
      ((ofProgram callSelf).afterSteps 11).bus.read 0xFE00 = 0xFF := by
  obtain ⟨hruns, hwaits, hasleep⟩ := displayAccess_of_reachable
    (reachable_afterSteps (reachable_ofProgram callSelf) 11)
  have hmode : ((ofProgram callSelf).afterSteps 11).bus.read 0xFF41 &&& 3 = 2 := by
    decide +kernel
  rw [hmode] at hruns hasleep
  have hrunning : ((ofProgram callSelf).afterSteps 11).bus.display.running = true := by
    refine Bool.of_not_eq_false fun hoff => ?_
    exact absurd (hasleep (hwaits.1 hoff)).1 (by decide)
  obtain ⟨-, hvideo, hobjects⟩ := hruns hrunning
  have hopen : ((2 : UInt8) ≠ 3) = True := by decide
  rw [hopen] at hvideo
  exact ⟨hvideo, hobjects.read_shut (by decide) 0xFE00 (by decide) (by decide)⟩

end Machine

end DotMatrix
