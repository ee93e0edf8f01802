import DotMatrix.Machine

/-!
# Between steps

Between two steps of a machine its surroundings press buttons, take frames and samples, set the
speed and the clock of the host, and what a battery keeps is saved. `Machine.Meanwhile` says what
that can change: nothing that a program could tell except which buttons are held.
-/

namespace DotMatrix

variable {τ : Type}

/-- The controller with another clock, if it has one. -/
def Controller.withClock (c : Controller τ) (clock : Option (RealTimeClock τ)) : Controller τ :=
  match c with
  | .mbc3 m => .mbc3 { m with clock }
  | c => c

/-- Saving takes marks away and leaves the contents as they are. -/
structure Cartridge.Meanwhile (c c' : Cartridge τ) : Prop where
  rom : c'.rom = c.rom
  contents : c'.ram.bytes = c.ram.bytes
  capability : c'.capability = c.capability
  controller : ∃ clock, c'.controller = c.controller.withClock clock
  paths : c'.paths = c.paths

structure Bus.Meanwhile (b b' : Bus τ) : Prop where
  cartridge : b.cartridge.Meanwhile b'.cartridge
  boot : b'.boot = b.boot
  work : b'.work = b.work
  high : b'.high = b.high
  interruptEnable : b'.interruptEnable = b.interruptEnable
  interruptFlags : b'.interruptFlags = b.interruptFlags
  serialData : b'.serialData = b.serialData
  serialControl : b'.serialControl = b.serialControl
  timer : b'.timer = b.timer
  display : b'.display = { b.display with slot := b'.display.slot }
  sound : b'.sound = { b.sound with queue := b'.sound.queue, pace := b'.sound.pace }
  select : b'.joypad.select = b.joypad.select
  dmaPage : b'.dmaPage = b.dmaPage

structure Machine.Meanwhile (m m' : Machine τ) : Prop where
  cpu : m'.cpu = m.cpu
  bus : m.bus.Meanwhile m'.bus

/-! ## Reflexivity and transitivity -/

theorem Controller.exists_withClock (c : Controller τ) : ∃ clock, c = c.withClock clock := by
  cases c with
  | fixed => exact ⟨none, rfl⟩
  | mbc1 m => exact ⟨none, rfl⟩
  | mbc3 m => exact ⟨m.clock, rfl⟩

theorem Controller.withClock_withClock (c : Controller τ) (k k' : Option (RealTimeClock τ)) :
    (c.withClock k).withClock k' = c.withClock k' := by
  cases c <;> rfl

theorem Cartridge.Meanwhile.refl (c : Cartridge τ) : c.Meanwhile c :=
  ⟨rfl, rfl, rfl, c.controller.exists_withClock, rfl⟩

theorem Cartridge.Meanwhile.trans {a b c : Cartridge τ} (hab : a.Meanwhile b)
    (hbc : b.Meanwhile c) : a.Meanwhile c := by
  -- of two clocks that were put in, the last one stays
  obtain ⟨k, hk⟩ := hab.controller
  obtain ⟨k', hk'⟩ := hbc.controller
  rw [hk, Controller.withClock_withClock] at hk'
  exact ⟨hbc.rom.trans hab.rom, hbc.contents.trans hab.contents,
    hbc.capability.trans hab.capability, ⟨k', hk'⟩, hbc.paths.trans hab.paths⟩

theorem Bus.Meanwhile.ofCartridge {b : Bus τ} {cartridge : Cartridge τ}
    (h : b.cartridge.Meanwhile cartridge) (host : Host τ) :
    b.Meanwhile { b with cartridge, host } :=
  ⟨h, rfl, rfl, rfl, rfl, rfl, rfl, rfl, rfl, rfl, rfl, rfl, rfl⟩

theorem Bus.Meanwhile.refl (b : Bus τ) : b.Meanwhile b := .ofCartridge (.refl _) b.host

theorem Bus.Meanwhile.trans {a b c : Bus τ} (hab : a.Meanwhile b) (hbc : b.Meanwhile c) :
    a.Meanwhile c where
  cartridge := hab.cartridge.trans hbc.cartridge
  boot := hbc.boot.trans hab.boot
  work := hbc.work.trans hab.work
  high := hbc.high.trans hab.high
  interruptEnable := hbc.interruptEnable.trans hab.interruptEnable
  interruptFlags := hbc.interruptFlags.trans hab.interruptFlags
  serialData := hbc.serialData.trans hab.serialData
  serialControl := hbc.serialControl.trans hab.serialControl
  timer := hbc.timer.trans hab.timer
  display := by rw [hbc.display, hab.display]
  sound := by rw [hbc.sound, hab.sound]
  select := hbc.select.trans hab.select
  dmaPage := hbc.dmaPage.trans hab.dmaPage

/-! ## Saving from a cartridge -/

theorem Cartridge.meanwhile_takeCommit (c : Cartridge τ) : c.Meanwhile c.takeCommit.2 :=
  ⟨rfl, rfl, rfl, c.controller.exists_withClock, rfl⟩

theorem Cartridge.meanwhile_uncommitted (c : Cartridge τ) : c.Meanwhile c.uncommitted.2 := by
  unfold Cartridge.uncommitted
  split
  · exact ⟨rfl, rfl, rfl, c.controller.exists_withClock, rfl⟩
  · exact .refl c

theorem Cartridge.meanwhile_saveClock [Timeline τ] (c : Cartridge τ) (host : Host τ)
    (always : Bool) : c.Meanwhile (c.saveClock host always).1 := by
  unfold Cartridge.saveClock
  split
  -- only an MBC3 can have a clock
  · rename_i m paths hcontroller hpaths
    split
    · exact .refl c
    · dsimp only
      split
      · refine ⟨rfl, rfl, rfl, ?_, rfl⟩
        rw [hcontroller]
        exact ⟨some _, rfl⟩
      · exact .refl c
  · exact .refl c

namespace Machine

theorem Meanwhile.refl (m : Machine τ) : m.Meanwhile m := ⟨rfl, .refl _⟩

theorem Meanwhile.trans {a b c : Machine τ} (hab : a.Meanwhile b) (hbc : b.Meanwhile c) :
    a.Meanwhile c :=
  ⟨hbc.cpu.trans hab.cpu, hab.bus.trans hbc.bus⟩

/-! ## Buttons, frames and samples -/

theorem meanwhile_press (m : Machine τ) (panel : ButtonPanel) :
    m.Meanwhile { m with bus := { m.bus with joypad := { m.bus.joypad with panel } } } :=
  ⟨rfl, .refl _, rfl, rfl, rfl, rfl, rfl, rfl, rfl, rfl, rfl, rfl, rfl, rfl⟩

theorem meanwhile_slot (m : Machine τ) (slot : FrameSlot Display.Frame) :
    m.Meanwhile { m with bus := { m.bus with display := { m.bus.display with slot } } } :=
  ⟨rfl, .refl _, rfl, rfl, rfl, rfl, rfl, rfl, rfl, rfl, rfl, rfl, rfl, rfl⟩

theorem meanwhile_queue (m : Machine τ) (queue : FrameQueue Sound.AudioFrame)
    (pace : Sound.Pace) :
    m.Meanwhile { m with bus := { m.bus with sound := { m.bus.sound with queue, pace } } } :=
  ⟨rfl, .refl _, rfl, rfl, rfl, rfl, rfl, rfl, rfl, rfl, rfl, rfl, rfl, rfl⟩

/-! ## Saving from a machine -/

theorem Meanwhile.setSaving {m m' : Machine τ} (h : m.Meanwhile m')
    (saving : Option ExternalRam) : m.Meanwhile { m' with saving } :=
  ⟨h.cpu, h.bus⟩

theorem meanwhile_withCartridge {m : Machine τ} {cartridge : Cartridge τ}
    (h : m.bus.cartridge.Meanwhile cartridge) (host : Host τ) :
    m.Meanwhile (m.withCartridge cartridge host) :=
  ⟨rfl, .ofCartridge h host⟩

theorem meanwhile_collectCommit (m : Machine τ) : m.Meanwhile m.collectCommit := by
  have htaken := m.bus.cartridge.meanwhile_takeCommit
  unfold collectCommit
  split
  · rename_i h
    rw [h] at htaken
    exact (meanwhile_withCartridge htaken _).setSaving _
  · exact .refl m

theorem meanwhile_collectAll (m : Machine τ) : m.Meanwhile m.collectAll := by
  have hcollected := m.collectCommit.bus.cartridge.meanwhile_uncommitted
  unfold collectAll
  dsimp only
  split
  · rename_i h
    rw [h] at hcollected
    exact (meanwhile_collectCommit m).trans ((meanwhile_withCartridge hcollected _).setSaving _)
  · exact meanwhile_collectCommit m

theorem meanwhile_trySaveRam (m : Machine τ) (force : Bool) :
    m.Meanwhile (m.trySaveRam force).2 := by
  -- picking up what is to be saved comes before the attempt, and only if it is forced
  have hforced : m.Meanwhile (if force then m.collectAll else m) := by
    split
    · exact meanwhile_collectAll m
    · exact .refl m
  unfold trySaveRam
  dsimp only
  split
  · exact hforced.setSaving none
  · exact hforced
  · exact hforced.trans ⟨rfl, .ofCartridge (.refl _) _⟩

theorem meanwhile_flush [Timeline τ] (m : Machine τ) : m.Meanwhile m.flush :=
  (meanwhile_trySaveRam m true).trans
    (meanwhile_withCartridge (Cartridge.meanwhile_saveClock _ _ _) _)

end Machine

/-! ## What a program can tell -/

theorem Cartridge.Meanwhile.read_program {c c' : Cartridge τ} (h : c.Meanwhile c')
    {addr : UInt16} (haddr : addr < 0x8000) : c'.read addr = c.read addr := by
  obtain ⟨clock, hcontroller⟩ := h.controller
  -- the bank does not depend on the clock
  have hbank : c'.currentBank? = c.currentBank? := by
    unfold Cartridge.currentBank?
    rw [hcontroller, h.capability]
    cases c.controller <;> rfl
  unfold Cartridge.read Cartridge.romByte
  rw [hbank, h.rom, if_pos haddr, if_pos haddr]

theorem Bus.Meanwhile.read_program {b b' : Bus τ} (h : b.Meanwhile b') {addr : UInt16}
    (haddr : addr < 0x8000) : b'.read addr = b.read addr := by
  unfold Bus.read
  rw [if_pos haddr, if_pos haddr, h.boot, h.cartridge.read_program haddr]

end DotMatrix
