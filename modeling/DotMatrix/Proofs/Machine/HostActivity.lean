import DotMatrix.Proofs.Cpu.Bisimulation
import DotMatrix.Proofs.Display.Buffers
import DotMatrix.Proofs.Machine.Run
import DotMatrix.Proofs.Sound.Buffers

/-!
# The host cannot interfere

Between two steps the host takes frames and samples, gives back buffers that may hold anything, and
sets the speed. Two machines that differ at most in what this changes are `Alike`. They stay so
whatever the host does to either, and a step of both does the same, publishes the same frames and
computes the same samples. So of all that the host does only the buttons that it presses make a
difference (`noninterference`).
-/

namespace DotMatrix

variable {τ : Type}

/-! ## Buses -/

namespace Bus

/-- The buses differ at most in the buffers of the display and in what becomes of the samples. -/
def Alike (b b' : Bus τ) : Prop :=
  ∃ display sound, b' = { b with display, sound } ∧ b.display.Alike display ∧ b.sound.Alike sound

namespace Alike

theorem refl (b : Bus τ) : b.Alike b := ⟨b.display, b.sound, rfl, .refl _, .refl _⟩

theorem symm {b b' : Bus τ} (h : b.Alike b') : b'.Alike b := by
  obtain ⟨display, sound, rfl, hdisplay, hsound⟩ := h
  exact ⟨b.display, b.sound, rfl, hdisplay.symm, hsound.symm⟩

theorem trans {b b' b'' : Bus τ} (h : b.Alike b') (h' : b'.Alike b'') : b.Alike b'' := by
  obtain ⟨display, sound, rfl, hdisplay, hsound⟩ := h
  obtain ⟨display', sound', rfl, hdisplay', hsound'⟩ := h'
  exact ⟨display', sound', rfl, hdisplay.trans hdisplay', hsound.trans hsound'⟩

variable {b b' : Bus τ}

theorem display (h : b.Alike b') : b.display.Alike b'.display := by
  obtain ⟨display, sound, rfl, hdisplay, -⟩ := h
  exact hdisplay

theorem sound (h : b.Alike b') : b.sound.Alike b'.sound := by
  obtain ⟨display, sound, rfl, -, hsound⟩ := h
  exact hsound

theorem timer (h : b.Alike b') : b'.timer = b.timer := by
  obtain ⟨display, sound, rfl, -, -⟩ := h
  rfl

theorem read (h : b.Alike b') (addr : UInt16) : b'.read addr = b.read addr := by
  obtain ⟨display, sound, rfl, hdisplay, hsound⟩ := h
  unfold Bus.read readDevice
  simp only [hdisplay.readVideo, hdisplay.readObjects, hdisplay.read, hsound.read]

theorem setTimer (h : b.Alike b') (result : Timer × Bool) :
    (b.setTimer result).Alike (b'.setTimer result) := by
  obtain ⟨display, sound, rfl, hdisplay, hsound⟩ := h
  exact ⟨display, sound, rfl, hdisplay, hsound⟩

theorem resetDivider (h : b.Alike b') : b.resetDivider.Alike b'.resetDivider := by
  obtain ⟨display, sound, rfl, hdisplay, hsound⟩ := h
  exact ⟨display, sound, rfl, hdisplay, hsound⟩

theorem acknowledge (h : b.Alike b') (flags : UInt8) :
    (b.acknowledgeInterrupt flags).Alike (b'.acknowledgeInterrupt flags) := by
  obtain ⟨display, sound, rfl, hdisplay, hsound⟩ := h
  exact ⟨display, sound, rfl, hdisplay, hsound⟩

/-- The copy to object memory reads the same bytes. -/
theorem pageBytes (h : b.Alike b') (page : UInt8) : b'.pageBytes page = b.pageBytes page := by
  have hopened : ({ b with display := b.display.openMemories } : Bus τ).Alike
      { b' with display := b'.display.openMemories } := by
    obtain ⟨display, sound, rfl, hdisplay, hsound⟩ := h
    exact ⟨display.openMemories, sound, rfl, hdisplay.openMemories, hsound⟩
  unfold Bus.pageBytes
  simp only [hopened.read]

theorem runDma (h : b.Alike b') :
    b'.runDma.1 = b.runDma.1 ∧ b.runDma.2.Alike b'.runDma.2 := by
  have hpage : b'.dmaPage = b.dmaPage := by
    obtain ⟨display, sound, rfl, -, -⟩ := h
    rfl
  have hdone : ({ b with dmaPage := none } : Bus τ).Alike { b' with dmaPage := none } := by
    obtain ⟨display, sound, rfl, hdisplay, hsound⟩ := h
    exact ⟨display, sound, rfl, hdisplay, hsound⟩
  unfold Bus.runDma
  rw [hpage]
  cases b.dmaPage with
  | none => exact ⟨rfl, h⟩
  | some page =>
    dsimp only
    split
    · exact ⟨rfl, hdone⟩
    · rw [hdone.pageBytes]
      refine ⟨rfl, ?_⟩
      obtain ⟨display, sound, rfl, hdisplay, hsound⟩ := h
      have hoam : display.oam = b.display.oam := by
        obtain ⟨frame, slot, rfl, -, -⟩ := hdisplay
        rfl
      exact ⟨_, sound, rfl, by rw [hoam]; exact hdisplay.setObjects _, hsound⟩

/-! ### Writes -/

/-- Both take the same branch. -/
theorem ite {c c' : Bus τ} {p : Prop} [Decidable p] (hb : b.Alike b') (hc : c.Alike c') :
    (if p then b else c).Alike (if p then b' else c') := by
  split
  · exact hb
  · exact hc

theorem writeWork (h : b.Alike b') (i : Nat) (val : UInt8) :
    ({ b with work := b.work.write i val } : Bus τ).Alike
      { b' with work := b'.work.write i val } := by
  obtain ⟨display, sound, rfl, hdisplay, hsound⟩ := h
  exact ⟨display, sound, rfl, hdisplay, hsound⟩

theorem writeHigh (h : b.Alike b') (i : Nat) (val : UInt8) :
    ({ b with high := b.high.write i val } : Bus τ).Alike
      { b' with high := b'.high.write i val } := by
  obtain ⟨display, sound, rfl, hdisplay, hsound⟩ := h
  exact ⟨display, sound, rfl, hdisplay, hsound⟩

theorem writeVideo (h : b.Alike b') (i : Nat) (val : UInt8) :
    ({ b with display := b.display.writeVideo i val } : Bus τ).Alike
      { b' with display := b'.display.writeVideo i val } := by
  obtain ⟨display, sound, rfl, hdisplay, hsound⟩ := h
  exact ⟨display.writeVideo i val, sound, rfl, hdisplay.writeVideo i val, hsound⟩

theorem writeObjects (h : b.Alike b') (i : Nat) (val : UInt8) :
    ({ b with display := b.display.writeObjects i val } : Bus τ).Alike
      { b' with display := b'.display.writeObjects i val } := by
  obtain ⟨display, sound, rfl, hdisplay, hsound⟩ := h
  exact ⟨display.writeObjects i val, sound, rfl, hdisplay.writeObjects i val, hsound⟩

theorem setEnable (h : b.Alike b') (val : UInt8) :
    ({ b with interruptEnable := val } : Bus τ).Alike { b' with interruptEnable := val } := by
  obtain ⟨display, sound, rfl, hdisplay, hsound⟩ := h
  exact ⟨display, sound, rfl, hdisplay, hsound⟩

theorem writeDevice (h : b.Alike b') (addr : UInt16) (val : UInt8) :
    (b.writeDevice addr val).Alike (b'.writeDevice addr val) := by
  obtain ⟨display, sound, rfl, hdisplay, hsound⟩ := h
  have hwritten := hdisplay.write addr val
  unfold Bus.writeDevice
  split
  · exact ⟨display, sound.write addr val, rfl, hdisplay, hsound.write addr val⟩
  · split
    · exact ⟨display.write addr val, sound, rfl, hwritten, hsound⟩
    · split
      · exact ⟨display.write addr val, sound, rfl, hwritten, hsound⟩
      · split
        · exact ⟨display, sound, rfl, hdisplay, hsound⟩
        · split
          all_goals first
            | exact ⟨display, sound, rfl, hdisplay, hsound⟩
            | split <;> exact ⟨display, sound, rfl, hdisplay, hsound⟩

variable [Timeline τ]

theorem writeCartridge (h : b.Alike b') (addr : UInt16) (val : UInt8) :
    (b.writeCartridge addr val).Alike (b'.writeCartridge addr val) := by
  obtain ⟨display, sound, rfl, hdisplay, hsound⟩ := h
  exact ⟨display, sound, rfl, hdisplay, hsound⟩

theorem write (h : b.Alike b') (addr : UInt16) (val : UInt8) :
    (b.write addr val).Alike (b'.write addr val) := by
  -- the areas of the address space in order
  unfold Bus.write
  refine (h.writeCartridge addr val).ite ?_
  refine (h.writeVideo _ val).ite ?_
  refine (h.writeCartridge addr val).ite ?_
  refine (h.writeWork _ val).ite ?_
  refine (h.writeWork _ val).ite ?_
  refine (h.writeObjects _ val).ite ?_
  refine h.ite ?_
  refine (h.writeDevice addr val).ite ?_
  exact (h.writeHigh _ val).ite (h.setEnable val)

/-- The processor cannot tell alike buses apart. -/
theorem bisimulation : Bus.Bisimulation (@Alike τ) where
  read h addr := h.read addr
  pending h := by
    obtain ⟨display, sound, rfl, -, -⟩ := h
    rfl
  held h := by
    obtain ⟨display, sound, rfl, -, -⟩ := h
    rfl
  write h addr val := h.write addr val
  resetDivider h := h.resetDivider
  acknowledge h flags := h.acknowledge flags
  runDma h := h.runDma

omit [Timeline τ] in
theorem advance (h : b.Alike b') (cycles : Nat) :
    (b'.advance cycles).1 = (b.advance cycles).1 ∧
      (b.advance cycles).2.Alike (b'.advance cycles).2 := by
  obtain ⟨display, sound, rfl, hdisplay, hsound⟩ := h
  obtain ⟨hupdated, hevents, -⟩ := hdisplay.update (b.timer.advance cycles).1.now
  obtain ⟨hplayed, -⟩ := hsound.update (b.timer.advance cycles).1.now
  refine ⟨congrArg Display.Events.boundary hevents, _, _, ?_, hupdated, hplayed⟩
  unfold Bus.advance
  simp only [Bus.setTimer, Bus.raise, hevents]

end Alike

/-! ## White frames -/

/-- The exchange got at most a white frame. -/
def GotWhite (b b' : Bus τ) : Prop :=
  b'.display.slot = b.display.slot ∨
    b'.display.slot = Display.showAll b.display.slot [Display.Frame.blank]

section Slot

variable [Timeline τ]

theorem gotWhite_write (b : Bus τ) (addr : UInt16) (val : UInt8) :
    b.GotWhite (b.write addr val) := by
  have hwritten := b.written_write addr val
  generalize b.write addr val = b' at *
  cases hwritten with
  | video i =>
    refine .inl ?_
    unfold Display.writeVideo
    split <;> rfl
  | objects i =>
    refine .inl ?_
    unfold Display.writeObjects
    split <;> rfl
  | display => exact b.display.slot_write addr val
  | copy => exact b.display.slot_write addr val
  | _ => exact .inl rfl

/-- So the processor shows nothing but white frames. -/
theorem Becomes.slot {b b' : Bus τ} (h : b.Becomes b') :
    b'.display.slot = Display.showAll b.display.slot
      (List.replicate (b'.display.slot.published - b.display.slot.published)
        Display.Frame.blank) := by
  -- how many they are can be read off the exchange afterwards
  obtain ⟨count, hslot⟩ : ∃ count, b'.display.slot =
      Display.showAll b.display.slot (List.replicate count Display.Frame.blank) := by
    induction h with
    | refl => exact ⟨0, rfl⟩
    | @write b' _ addr val ih =>
      obtain ⟨count, hcount⟩ := ih
      rcases b'.gotWhite_write addr val with hsame | hshown
      · exact ⟨count, hsame.trans hcount⟩
      · refine ⟨count + 1, ?_⟩
        rw [hshown, hcount, ← Display.showAll_append, ← List.replicate_succ']
    | resetDivider _ ih => exact ih
    | acknowledge _ flags ih => exact ih
  have hpublished : b'.display.slot.published = b.display.slot.published + count := by
    rw [hslot, Display.published_showAll, List.length_replicate]
  rw [hpublished, Nat.add_sub_cancel_left]
  exact hslot

end Slot

end Bus

/-! ## Machines -/

namespace Machine

/-- The machines differ at most in the buffers of the display and in what becomes of the
samples. -/
structure Alike (m m' : Machine τ) : Prop where
  cpu : m'.cpu = m.cpu
  saving : m'.saving = m.saving
  bus : m.bus.Alike m'.bus

theorem Alike.refl (m : Machine τ) : m.Alike m := ⟨rfl, rfl, .refl _⟩

theorem Alike.symm {m m' : Machine τ} (h : m.Alike m') : m'.Alike m :=
  ⟨h.cpu.symm, h.saving.symm, h.bus.symm⟩

theorem Alike.trans {m m' m'' : Machine τ} (h : m.Alike m') (h' : m'.Alike m'') : m.Alike m'' :=
  ⟨h'.cpu.trans h.cpu, h'.saving.trans h.saving, h.bus.trans h'.bus⟩

/-- Alike machines are the same but for the buffers, the exchange and the pace of the samples. -/
theorem Alike.eq {m m' : Machine τ} (h : m.Alike m') :
    m' = { m with
      bus.display.frame := m'.bus.display.frame
      bus.display.slot := m'.bus.display.slot
      bus.sound.frame := m'.bus.sound.frame
      bus.sound.position := m'.bus.sound.position
      bus.sound.frameNumber := m'.bus.sound.frameNumber
      bus.sound.queue := m'.bus.sound.queue
      bus.sound.pace := m'.bus.sound.pace } := by
  obtain ⟨cpu', bus', saving'⟩ := m'
  obtain ⟨hcpu, hsaving, display, sound, hbus, hdisplay, hsound⟩ := h
  have hcpu : cpu' = m.cpu := hcpu
  have hsaving : saving' = m.saving := hsaving
  have hbus : bus' = { m.bus with display, sound } := hbus
  subst hcpu hsaving hbus
  have hdisplay := hdisplay.eq
  have hsound := hsound.eq
  dsimp only
  rw [← hdisplay, ← hsound]

/-! ### Steps -/

section Steps

variable [Timeline τ]

/-- The frames that the next step publishes, in order: white ones where the program switches the
display off, and then those that the display shows as it makes up for the cycles of the step. -/
def published (m : Machine τ) : List Display.Frame :=
  let (core, fault) := Core.step m.cpu m.bus
  let white := List.replicate
    (core.bus.display.slot.published - m.bus.display.slot.published) Display.Frame.blank
  if fault.isSome then white
  else white ++ core.bus.display.shown (core.bus.timer.advance core.cycles).1.now

/-- The samples that the next step computes, in order. -/
def computed (m : Machine τ) : List Sound.StereoSample :=
  let (core, fault) := Core.step m.cpu m.bus
  if fault.isSome then []
  else core.bus.sound.computed (core.bus.timer.advance core.cycles).1.now

/-- The exchange gets the frames of a step and no others. -/
theorem slot_step (m : Machine τ) :
    m.step.2.bus.display.slot = Display.showAll m.bus.display.slot m.published := by
  have hcopied : m.bus.runDma.2.display.slot = m.bus.display.slot := by rw [Bus.runDma_snd]
  have hcore := (Core.becomes_step m.cpu m.bus).slot
  rw [hcopied] at hcore
  rw [bus_step]
  unfold published
  dsimp only
  -- after a fault the display is not told the time
  split
  · exact hcore
  · rw [Display.showAll_append, ← hcore]
    exact (Display.slot_update _ _).1

/-- What a step brings. -/
structure Outcome where
  /-- Whether the display began a new period, or which fault there was. -/
  result : Except Fault Bool
  frames : List Display.Frame
  samples : List Sound.StereoSample

def outcome (m : Machine τ) : Outcome := ⟨m.step.1, m.published, m.computed⟩

/-- A step of alike machines does the same, and leaves them alike. -/
theorem Alike.step {m m' : Machine τ} (h : m.Alike m') :
    m.step.2.Alike m'.step.2 ∧ m'.outcome = m.outcome := by
  obtain ⟨cpu, bus, saving⟩ := m
  obtain ⟨cpu', bus', saving'⟩ := m'
  obtain ⟨hcpu, hsaving, hbus⟩ := h
  have hcpu : cpu' = cpu := hcpu
  have hsaving : saving' = saving := hsaving
  have hbus : bus.Alike bus' := hbus
  subst hcpu hsaving
  obtain ⟨hfault, hcore⟩ := Core.step_related Bus.Alike.bisimulation cpu' hbus
  unfold outcome published computed Machine.step
  dsimp only
  rcases hstep : Core.step cpu' bus with ⟨core, fault⟩
  rcases hstep' : Core.step cpu' bus' with ⟨core', fault'⟩
  rw [hstep, hstep'] at hfault hcore
  have hfault : fault' = fault := hfault
  have hcore : Core.Related Bus.Alike core core' := hcore
  have hslot := hbus.display.published
  have hslot' := hcore.bus.display.published
  subst hfault
  cases fault' with
  | some fault =>
    -- no time passes, and only the program has shown anything
    dsimp only [Option.isSome]
    rw [hslot, hslot']
    exact ⟨⟨hcore.cpu, rfl, hcore.bus⟩, rfl⟩
  | none =>
    obtain ⟨hboundary, hadvanced⟩ := hcore.bus.advance core.cycles
    obtain ⟨-, -, hshown⟩ := hcore.bus.display.update (core.bus.timer.advance core.cycles).1.now
    obtain ⟨-, hcomputed⟩ := hcore.bus.sound.update (core.bus.timer.advance core.cycles).1.now
    dsimp only [Option.isSome]
    rw [hslot, hslot', hcore.bus.timer, hcore.cycles, hshown, hcomputed, hboundary]
    exact ⟨⟨hcore.cpu, rfl, hadvanced⟩, rfl⟩

end Steps

/-! ### What the host does -/

/-- What the host does between steps: it presses buttons, it takes frames, gives back buffers and
clears the exchange of either kind, and it sets the speed. -/
inductive Activity where
  | press (buttons : Buttons)
  | takeFrame
  | giveFrame (frame : Display.Frame)
  | clearFrames
  | takeSamples
  | giveSamples (frame : Sound.AudioFrame)
  | clearSamples
  /-- The multiplier is what `Sound.setSpeed` makes of a speed. -/
  | setSpeed (multiplier : Nat)

def press (m : Machine τ) (buttons : Buttons) : Machine τ :=
  { m with bus.joypad.panel := m.bus.joypad.panel.publish buttons }

def Activity.apply (m : Machine τ) : Activity → Machine τ
  | press buttons => m.press buttons
  | takeFrame => { m with bus.display.slot := m.bus.display.slot.take.2 }
  | giveFrame frame => { m with bus.display.slot := m.bus.display.slot.giveBack frame }
  | clearFrames => { m with bus.display.slot := m.bus.display.slot.clear }
  | takeSamples => { m with bus.sound.queue := m.bus.sound.queue.take.2 }
  | giveSamples frame => { m with bus.sound.queue := m.bus.sound.queue.giveBack frame }
  | clearSamples => { m with bus.sound.queue := m.bus.sound.queue.clear }
  | setSpeed multiplier => { m with bus.sound := m.bus.sound.setMultiplier multiplier }

def Activity.pressed? : Activity → Option Buttons
  | press buttons => some buttons
  | _ => none

/-- What the host does between two steps. -/
def attend (m : Machine τ) (activities : List Activity) : Machine τ :=
  activities.foldl Activity.apply m

/-- The buttons that the host presses between two steps. -/
def presses (activities : List Activity) : List Buttons := activities.filterMap Activity.pressed?

theorem Alike.press {m m' : Machine τ} (h : m.Alike m') (buttons : Buttons) :
    (m.press buttons).Alike (m'.press buttons) := by
  obtain ⟨hcpu, hsaving, display, sound, hbus, hdisplay, hsound⟩ := h
  refine ⟨hcpu, hsaving, display, sound, ?_, hdisplay, hsound⟩
  unfold Machine.press
  dsimp only
  rw [hbus]

/-- All else that the host does makes no difference. -/
theorem alike_apply (m : Machine τ) {activity : Activity} (h : activity.pressed? = none) :
    m.Alike (activity.apply m) := by
  have hslot : ∀ slot : FrameSlot Display.Frame, slot.published = m.bus.display.slot.published →
      m.Alike { m with bus.display.slot := slot } :=
    fun slot hpublished => ⟨rfl, rfl, _, m.bus.sound, rfl, .ofSlot _ hpublished, .refl _⟩
  have hqueue : ∀ queue : FrameQueue Sound.AudioFrame,
      m.Alike { m with bus.sound.queue := queue } :=
    fun queue => ⟨rfl, rfl, m.bus.display, _, rfl, .refl _, .setQueue _ queue⟩
  cases activity with
  | press buttons => cases h
  | takeFrame => exact hslot _ rfl
  | giveFrame frame => exact hslot _ rfl
  | clearFrames =>
    refine hslot _ ?_
    unfold FrameSlot.clear
    split <;> rfl
  | takeSamples => exact hqueue _
  | giveSamples frame => exact hqueue _
  | clearSamples => exact hqueue _
  | setSpeed multiplier =>
    exact ⟨rfl, rfl, m.bus.display, _, rfl, .refl _, .setMultiplier _ multiplier⟩

/-- What the host does is as good as the buttons that it presses. -/
theorem Alike.attend {m m' : Machine τ} (h : m.Alike m') (activities : List Activity) :
    (m.attend activities).Alike ((presses activities).foldl Machine.press m') := by
  -- what is no press is dropped on the left and does not occur on the right
  induction activities generalizing m m' with
  | nil => exact h
  | cons activity rest ih =>
    cases hpressed : activity.pressed? with
    | none =>
      have hpresses : presses (activity :: rest) = presses rest :=
        List.filterMap_cons_none hpressed
      rw [hpresses]
      exact ih ((alike_apply m hpressed).symm.trans h)
    | some buttons =>
      have hpresses : presses (activity :: rest) = buttons :: presses rest :=
        List.filterMap_cons_some hpressed
      have happly : activity.apply m = m.press buttons := by
        cases activity <;> cases hpressed
        rfl
      rw [hpresses]
      show ((activity.apply m).attend rest).Alike _
      rw [happly]
      exact ih (h.press buttons)

/-- Hosts that press the same buttons leave alike machines. -/
theorem Alike.attend_of_presses {m m' : Machine τ} (h : m.Alike m') {first second : List Activity}
    (hpresses : presses first = presses second) : (m.attend first).Alike (m'.attend second) := by
  have hfirst := (Alike.refl m).attend first
  have hsecond := h.symm.attend second
  rw [hpresses] at hfirst
  exact hfirst.trans hsecond.symm

/-! ### Runs -/

section Runs

variable [Timeline τ]

/-- The machine after some steps, each with what the host does before it. -/
def attended (m : Machine τ) : List (List Activity) → Machine τ
  | [] => m
  | gap :: gaps => attended (m.attend gap).step.2 gaps

/-- What these steps bring. -/
def outcomes (m : Machine τ) : List (List Activity) → List Outcome
  | [] => []
  | gap :: gaps => (m.attend gap).outcome :: outcomes (m.attend gap).step.2 gaps

theorem Alike.attended {m m' : Machine τ} (h : m.Alike m') {first second : List (List Activity)}
    (hpresses : first.map presses = second.map presses) :
    (m.attended first).Alike (m'.attended second) ∧ m'.outcomes second = m.outcomes first := by
  induction first generalizing m m' second with
  | nil =>
    obtain rfl := List.map_eq_nil_iff.1 hpresses.symm
    exact ⟨h, rfl⟩
  | cons gap gaps ih =>
    obtain ⟨gap', gaps', rfl, hgap, hgaps⟩ := List.map_eq_cons_iff.1 hpresses.symm
    obtain ⟨hstep, houtcome⟩ := (h.attend_of_presses hgap.symm).step
    obtain ⟨hend, houtcomes⟩ := ih hstep hgaps.symm
    exact ⟨hend, congrArg₂ List.cons houtcome houtcomes⟩

/-- Two runs from the same machine in which the host presses the same buttons before the same
steps, and does anything else in between:

* After every step the machines are the same, but for the buffers, the exchange with the consumer
  and the pace of the samples, and every address reads the same.
* The steps end the same way, publish the same frames and compute the same samples in the same
  order.
* Of any run, a step puts the frames of its outcome into the exchange and no others. -/
theorem noninterference (m : Machine τ) (first second : List (List Activity))
    (h : first.map presses = second.map presses) (n : Nat) :
    let a := m.attended (first.take n)
    let b := m.attended (second.take n)
    b = { a with
      bus.display.frame := b.bus.display.frame
      bus.display.slot := b.bus.display.slot
      bus.sound.frame := b.bus.sound.frame
      bus.sound.position := b.bus.sound.position
      bus.sound.frameNumber := b.bus.sound.frameNumber
      bus.sound.queue := b.bus.sound.queue
      bus.sound.pace := b.bus.sound.pace } ∧
    (∀ addr, b.bus.read addr = a.bus.read addr) ∧
    m.outcomes (second.take n) = m.outcomes (first.take n) ∧
    ∀ gaps gap,
      let before := (m.attended gaps).attend gap
      before.step.2.bus.display.slot =
        Display.showAll before.bus.display.slot before.outcome.frames := by
  have hpresses : (first.take n).map presses = (second.take n).map presses := by
    rw [List.map_take, List.map_take, h]
  obtain ⟨halike, houtcomes⟩ := (Alike.refl m).attended hpresses
  exact ⟨halike.eq, halike.bus.read, houtcomes, fun gaps gap => slot_step _⟩

/-- A run in which the host leaves the outputs alone, and one in which it makes the console faster
and gives back a buffer that was never drawn. -/
theorem noninterference_ofProgram :
    let m := ofProgram [0x3E, 0x91, 0xE0, 0x40]
    let quiet : List (List Activity) := [[.press ⟨0x01⟩], []]
    let busy : List (List Activity) :=
      [[.giveFrame .blank, .press ⟨0x01⟩, .clearSamples], [.setSpeed 0x20000, .takeFrame]]
    quiet.map presses = busy.map presses ∧
      ∀ addr, (m.attended busy).bus.read addr = (m.attended quiet).bus.read addr := by
  intro m quiet busy
  have hpresses : quiet.map presses = busy.map presses := rfl
  obtain ⟨-, hread, -⟩ := noninterference m quiet busy hpresses 2
  exact ⟨hpresses, hread⟩

end Runs

end Machine

end DotMatrix
