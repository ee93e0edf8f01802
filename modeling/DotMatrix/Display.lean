import DotMatrix.Display.Scanline
import DotMatrix.Exchange.FrameSlot

/-!
# Display controller

Nothing happens cycle by cycle: the controller is told the time and enters every phase that has
begun since it was last told. Entering a transfer draws the line, and entering the vertical blank
publishes the frame. The first frame after the display is switched on is not shown. Switching it
off publishes a white frame.
-/

namespace DotMatrix

open Display

structure Display where
  vram : Memory videoSize
  oam : Memory objectSize
  registers : Display.Registers
  /-- The window line drawn next; only lines that show the window move it on. -/
  windowLine : UInt8
  /-- The master clock when the display was last told the time. -/
  now : Nat
  /-- The master clock at which the display clock reads zero. -/
  startAt : Option Nat
  /-- The display is on and its start delay is over. -/
  running : Bool
  /-- The display clock at which the next phase begins. -/
  nextEvent : Nat
  /-- The phase that was entered last. -/
  phase : Option Phase
  /-- Frames that will not be shown. -/
  swallow : Nat
  videoOpen : Bool
  objectsOpen : Bool
  frame : Frame
  slot : FrameSlot Frame
  /-- Frames shown so far. -/
  frames : Nat
deriving Inhabited

namespace Display

def vBlankInterrupt : UInt8 := 0x01

def statusInterrupt : UInt8 := 0x02

def initial : Display where
  vram := .zeros _
  oam := .zeros _
  registers := .initial
  windowLine := 0
  now := 0
  startAt := none
  running := false
  nextEvent := 0
  phase := none
  swallow := 0
  videoOpen := true
  objectsOpen := true
  frame := .blank
  slot := .empty
  frames := 0

/-! ## Access to the memories -/

def openMemories (d : Display) : Display := { d with videoOpen := true, objectsOpen := true }

def readVideo (d : Display) (i : Nat) : UInt8 := if d.videoOpen then d.vram.read i else 0xFF

def readObjects (d : Display) (i : Nat) : UInt8 := if d.objectsOpen then d.oam.read i else 0xFF

def writeVideo (d : Display) (i : Nat) (val : UInt8) : Display :=
  if d.videoOpen then { d with vram := d.vram.write i val } else d

def writeObjects (d : Display) (i : Nat) (val : UInt8) : Display :=
  if d.objectsOpen then { d with oam := d.oam.write i val } else d

/-! ## Registers -/

def currentPhase? (d : Display) : Option Phase :=
  if d.running then d.startAt.map fun start => Phase.ofClock (d.now - start) else none

/-- The line that the display is on; zero while it does not run. -/
def line (d : Display) : Nat := (d.currentPhase?.map Phase.line).getD 0

/-- The number of the current phase; zero while the display does not run. -/
def mode (d : Display) : UInt8 := (d.currentPhase?.map Phase.mode).getD 0

def coincidence (d : Display) (line : Nat) : Bool := line = d.registers.lineCompare.toNat

/-- The status register: its writable bits, the comparison and the phase. -/
def status (d : Display) : UInt8 :=
  0x80 ||| (d.registers.status &&& 0x78)
    ||| bitsIf (d.running && d.coincidence d.line) 0x04 ||| d.mode

def read (d : Display) (addr : UInt16) : UInt8 :=
  match addr with
  | 0xFF40 => d.registers.control
  | 0xFF41 => d.status
  | 0xFF42 => d.registers.scrollY
  | 0xFF43 => d.registers.scrollX
  | 0xFF44 => d.line.toUInt8
  | 0xFF45 => d.registers.lineCompare
  | 0xFF46 => d.registers.dma
  | 0xFF47 => d.registers.background
  | 0xFF48 => d.registers.objects0
  | 0xFF49 => d.registers.objects1
  | 0xFF4A => d.registers.windowY
  | 0xFF4B => d.registers.windowX
  | _ => 0xFF

/-- Publishes the frame being drawn and goes on in another buffer. -/
def publish (d : Display) : Display :=
  let (frame, slot) := d.slot.publish Frame.blank d.frame
  { d with frame, slot }

def switchOn (d : Display) : Display :=
  { d with startAt := some (d.now + startDelay), swallow := 1 }

/-- Stops the display and shows a white frame. -/
def switchOff (d : Display) : Display :=
  let stopped := openMemories { d with running := false, startAt := none, phase := none }
  -- the buffer that comes back may hold an older frame
  { publish { stopped with frame := Frame.blank } with frame := Frame.blank }

/-- Switches the display if its control bit says something new. -/
def toggle (d : Display) : Display :=
  let scheduled := d.running || d.startAt.isSome
  if d.registers.lcdOn = scheduled then d
  else if d.registers.lcdOn then d.switchOn
  else d.switchOff

def write (d : Display) (addr : UInt16) (val : UInt8) : Display :=
  let r := d.registers
  match addr with
  | 0xFF40 => toggle { d with registers := { r with control := val } }
  | 0xFF41 => { d with registers := { r with status := val &&& 0x78 } }
  | 0xFF42 => { d with registers := { r with scrollY := val } }
  | 0xFF43 => { d with registers := { r with scrollX := val } }
  | 0xFF45 => { d with registers := { r with lineCompare := val } }
  | 0xFF46 => { d with registers := { r with dma := val } }
  | 0xFF47 => { d with registers := { r with background := val } }
  | 0xFF48 => { d with registers := { r with objects0 := val } }
  | 0xFF49 => { d with registers := { r with objects1 := val } }
  | 0xFF4A => { d with registers := { r with windowY := val } }
  | 0xFF4B => { d with registers := { r with windowX := val } }
  | _ => d

def applyPostBoot (d : Display) : Display := (d.write 0xFF40 0x91).write 0xFF47 0xFC

/-! ## Time -/

def drawLine (d : Display) (line : Nat) : Display :=
  if line < screenHeight then
    let objects := lineObjects d.oam d.registers line
    let colour := pixelColour d.vram d.registers objects d.windowLine.toNat line
    { d with
      frame := d.frame.setLine line colour
      windowLine := if windowShown d.registers line then d.windowLine + 1 else d.windowLine }
  else d

def statusRequest (d : Display) (source : UInt8) : UInt8 :=
  bitsIf (anySet d.registers.status source) statusInterrupt

def compareRequest (d : Display) (line : Nat) : UInt8 :=
  if d.coincidence line then d.statusRequest 0x40 else 0

def phaseRequests (d : Display) : Phase → UInt8
  | .objectScan line => d.statusRequest 0x20 ||| d.compareRequest line
  | .transfer _ => 0
  | .hBlank _ => d.statusRequest 0x08
  | .vBlank line =>
    (if line = screenHeight then d.statusRequest 0x10 ||| vBlankInterrupt else 0)
      ||| d.compareRequest line

/-- Ends the visible part of a frame: it is shown, or swallowed. -/
def finishFrame (d : Display) : Display :=
  let d := { d with windowLine := 0 }
  if d.swallow = 0 then { d.publish with frames := d.frames + 1 }
  else { d with swallow := d.swallow - 1 }

def enter (d : Display) : Phase → Display
  | .objectScan _ => { d with objectsOpen := false }
  | .transfer line =>
    let d := { d with videoOpen := false, objectsOpen := false }
    if d.swallow = 0 then d.drawLine line else d
  | .hBlank _ => d.openMemories
  | .vBlank line => if line = screenHeight then d.finishFrame else d

/-- A phase begins a new period after a vertical blank. -/
def isBoundary (before : Option Phase) (phase : Phase) : Bool :=
  match before, phase with
  | some (.vBlank _), .objectScan 0 => true
  | _, _ => false

/-- What an update brought: interrupt requests, and whether a new period began. -/
structure Events where
  requests : UInt8
  boundary : Bool
deriving DecidableEq, Repr, Inhabited

def enterNext (d : Display) : Display × Events :=
  let phase := Phase.ofClock d.nextEvent
  let events : Events := ⟨d.phaseRequests phase, isBoundary d.phase phase⟩
  ({ d.enter phase with phase := some phase, nextEvent := nextChange d.nextEvent }, events)

theorem lt_nextEvent_enterNext (d : Display) : d.nextEvent < d.enterNext.1.nextEvent :=
  lt_nextChange d.nextEvent

/-- Enters every phase that has begun by a display clock. -/
def catchUp (d : Display) (clock : Nat) (events : Events) : Display × Events :=
  if _h : d.nextEvent ≤ clock then
    have : d.nextEvent < d.enterNext.1.nextEvent := d.lt_nextEvent_enterNext
    let next := d.enterNext
    catchUp next.1 clock
      ⟨events.requests ||| next.2.requests, events.boundary || next.2.boundary⟩
  else (d, events)
termination_by clock + 1 - d.nextEvent
decreasing_by omega

def update (d : Display) (now : Nat) : Display × Events :=
  let d := { d with now := now }
  match d.startAt with
  | none => (d, ⟨0, false⟩)
  | some start =>
    if d.running then d.catchUp (now - start) ⟨0, false⟩
    else if now < start then (d, ⟨0, false⟩)
    else
      catchUp { d with running := true, nextEvent := 0, phase := none, windowLine := 0 }
        (now - start) ⟨0, false⟩

end Display

end DotMatrix
