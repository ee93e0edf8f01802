import DotMatrix.BootImage
import DotMatrix.Cartridge
import DotMatrix.Display
import DotMatrix.Fault
import DotMatrix.Joypad
import DotMatrix.Sound
import DotMatrix.Timer

/-!
# Bus

The address space as the processor sees it. An address alone decides which device a read or write
goes to. Work memory appears twice; some addresses belong to no device.
-/

namespace DotMatrix

structure Bus (τ : Type) where
  cartridge : Cartridge τ
  host : Host τ
  /-- Mapped over the first addresses while it is there. -/
  boot : Option BootImage
  work : Memory 0x2000
  high : Memory 0x7F
  interruptEnable : UInt8
  interruptFlags : UInt8
  serialData : UInt8
  serialControl : UInt8
  timer : Timer
  display : Display
  sound : Sound
  joypad : Joypad
  /-- The page that object memory is to be copied from. -/
  dmaPage : Option UInt8

namespace Bus

variable {τ : Type}

def interruptMask : UInt8 := 0x1F

def unusedFlags : UInt8 := 0xE0

def create (cartridge : Cartridge τ) (host : Host τ) : Bus τ where
  cartridge := cartridge
  host := host
  boot := none
  work := .zeros _
  high := .zeros _
  interruptEnable := 0
  interruptFlags := unusedFlags
  serialData := 0
  serialControl := 0
  timer := .initial
  display := .initial
  sound := .initial FrameQueue.defaultDepth
  joypad := .initial
  dmaPage := none

def applyPostBoot (b : Bus τ) : Bus τ :=
  { b with
    interruptFlags := unusedFlags ||| 0x01
    display := b.display.applyPostBoot
    sound := b.sound.applyPostBoot }

/-! ## Interrupts -/

def pendingInterrupts (b : Bus τ) : UInt8 :=
  b.interruptEnable &&& b.interruptFlags &&& interruptMask

def raise (b : Bus τ) (flags : UInt8) : Bus τ :=
  { b with interruptFlags := b.interruptFlags ||| flags }

def requestInterrupt (b : Bus τ) (flags : UInt8) : Bus τ := b.raise (flags &&& interruptMask)

def acknowledgeInterrupt (b : Bus τ) (flags : UInt8) : Bus τ :=
  { b with interruptFlags := b.interruptFlags &&& ~~~flags }

def setTimer (b : Bus τ) (result : Timer × Bool) : Bus τ :=
  { b with timer := result.1 }.raise (bitsIf result.2 Timer.interrupt)

def resetDivider (b : Bus τ) : Bus τ := b.setTimer b.timer.resetDivider

/-! ## Access -/

def readDevice (b : Bus τ) (addr : UInt16) : UInt8 :=
  if 0xFF10 ≤ addr && addr ≤ 0xFF3F then b.sound.read addr
  else if 0xFF40 ≤ addr && addr ≤ 0xFF4B then b.display.read addr
  else if 0xFF04 ≤ addr && addr ≤ 0xFF07 then b.timer.read addr
  else
    match addr with
    | 0xFF00 => b.joypad.read
    | 0xFF01 => b.serialData
    | 0xFF02 => b.serialControl ||| 0x7E
    | 0xFF0F => b.interruptFlags
    | _ => 0xFF

def read (b : Bus τ) (addr : UInt16) : UInt8 :=
  if addr < 0x8000 then
    match b.boot with
    | some image => if addr < 0x0100 then image.read addr else b.cartridge.read addr
    | none => b.cartridge.read addr
  else if addr < 0xA000 then b.display.readVideo (addr.toNat - 0x8000)
  else if addr < 0xC000 then b.cartridge.read addr
  else if addr < 0xE000 then b.work.read (addr.toNat - 0xC000)
  else if addr < 0xFE00 then b.work.read (addr.toNat - 0xE000)
  else if addr < 0xFEA0 then b.display.readObjects (addr.toNat - 0xFE00)
  else if addr < 0xFF00 then 0x00
  else if addr < 0xFF80 then b.readDevice addr
  else if addr < 0xFFFF then b.high.read (addr.toNat - 0xFF80)
  else b.interruptEnable

variable [Timeline τ]

def writeDevice (b : Bus τ) (addr : UInt16) (val : UInt8) : Bus τ :=
  if 0xFF10 ≤ addr && addr ≤ 0xFF3F then { b with sound := b.sound.write addr val }
  else if addr = 0xFF46 then { b with display := b.display.write addr val, dmaPage := some val }
  else if 0xFF40 ≤ addr && addr ≤ 0xFF4B then { b with display := b.display.write addr val }
  else if 0xFF04 ≤ addr && addr ≤ 0xFF07 then b.setTimer (b.timer.write addr val)
  else
    match addr with
    | 0xFF00 => { b with joypad := b.joypad.write val }
    | 0xFF01 => { b with serialData := val }
    | 0xFF02 => { b with serialControl := val &&& 0x81 }
    | 0xFF0F => { b with interruptFlags := (val &&& interruptMask) ||| unusedFlags }
    | 0xFF50 => if val ≠ 0 then { b with boot := none } else b
    | _ => b

def writeCartridge (b : Bus τ) (addr : UInt16) (val : UInt8) : Bus τ :=
  let (cartridge, host) := b.cartridge.write b.host addr val
  { b with cartridge, host }

def write (b : Bus τ) (addr : UInt16) (val : UInt8) : Bus τ :=
  if addr < 0x8000 then b.writeCartridge addr val
  else if addr < 0xA000 then
    { b with display := b.display.writeVideo (addr.toNat - 0x8000) val }
  else if addr < 0xC000 then b.writeCartridge addr val
  else if addr < 0xE000 then { b with work := b.work.write (addr.toNat - 0xC000) val }
  else if addr < 0xFE00 then { b with work := b.work.write (addr.toNat - 0xE000) val }
  else if addr < 0xFEA0 then
    { b with display := b.display.writeObjects (addr.toNat - 0xFE00) val }
  else if addr < 0xFF00 then b
  else if addr < 0xFF80 then b.writeDevice addr val
  else if addr < 0xFFFF then { b with high := b.high.write (addr.toNat - 0xFF80) val }
  else { b with interruptEnable := val }

def writeAll (b : Bus τ) (addr : UInt16) : List UInt8 → Bus τ
  | [] => b
  | v :: rest => writeAll (b.write addr v) (addr + 1) rest

/-! ## Copying to object memory -/

omit [Timeline τ] in
/-- The bytes of a page that object memory is copied from, seen without gating. -/
def pageBytes (b : Bus τ) (page : UInt8) : List UInt8 :=
  let source := Word.ofBytes page 0
  let opened := { b with display := b.display.openMemories }
  (List.range Display.objectSize).map fun i => opened.read (source + i.toUInt16)

omit [Timeline τ] in
/-- Performs the copy that is due, if one is. Object memory cannot be its own source. -/
def runDma (b : Bus τ) : Except Fault Unit × Bus τ :=
  match b.dmaPage with
  | none => (.ok (), b)
  | some page =>
    -- a copy that fails is not due again
    let b := { b with dmaPage := none }
    if page = 0xFE then (.error (.dmaOverlap (Word.ofBytes page 0)), b)
    else
      let oam := b.display.oam.writeAll 0 (b.pageBytes page)
      (.ok (), { b with display := { b.display with oam } })

/-! ## Time -/

omit [Timeline τ] in
def advance (b : Bus τ) (cycles : Nat) : Bool × Bus τ :=
  let b := b.setTimer (b.timer.advance cycles)
  -- the other devices read the time off the timer
  let (display, events) := b.display.update b.timer.now
  let sound := b.sound.update b.timer.now
  let (pressed, panel) := b.joypad.panel.takePress
  let flags := b.interruptFlags ||| events.requests ||| bitsIf pressed Joypad.interrupt
  (events.boundary,
    { b with display, sound, interruptFlags := flags, joypad := { b.joypad with panel } })

end Bus

end DotMatrix
