import DotMatrix.Decimal.Shortest
import DotMatrix.Machine
import DotMatrix.Settings

/-!
# Console

A machine with a power switch, a pause switch and a speed control. It runs a frame at a time. A
fault ends the run, and stays until it is taken. While a run lasts, and after a fault until the
console is stopped, the machine is out of sight. Stopping saves everything that a battery keeps.
-/

namespace DotMatrix

inductive Phase where
  /-- Nothing; the machine may be looked at. -/
  | idle
  | running
  /-- Waiting to be stopped after a fault. -/
  | faulted
deriving DecidableEq, Repr, Inhabited

structure Console (τ : Type) where
  machine : Machine τ
  phase : Phase
  paused : Bool
  /-- The speed; 1 is real time. -/
  speed : Float
  /-- The machine has not been told of the speed yet. -/
  speedChanged : Bool
  /-- The fault that ended a run, until it is taken. -/
  fault : Option Fault

namespace Console

variable {τ : Type}

def create (machine : Machine τ) (speed : Float) : Console τ :=
  ⟨machine, .idle, false, speed, false, none⟩

def machine? (c : Console τ) : Option (Machine τ) :=
  if c.phase = .idle then some c.machine else none

def isRunning (c : Console τ) : Bool := c.phase = .running

/-- The milliseconds that the machine's cycles so far last at the present speed. -/
def playingTime (c : Console τ) : Nat :=
  (Float.ofNat (c.machine.now * 1000 / cyclesPerSecond) / c.speed).toUInt64.toNat

/-! ## Outputs and inputs -/

def updateBus (c : Console τ) (change : Bus τ → Bus τ) : Console τ :=
  { c with machine := { c.machine with bus := change c.machine.bus } }

def updateHost (c : Console τ) (change : Host τ → Host τ) : Console τ :=
  c.updateBus fun bus => { bus with host := change bus.host }

def press (c : Console τ) (buttons : Buttons) : Console τ :=
  c.updateBus fun bus => { bus with joypad.panel := bus.joypad.panel.publish buttons }

def takeFrame (c : Console τ) : Option Display.Frame × Console τ :=
  match c.machine.bus.display.slot.take with
  | (some frame, slot) =>
    (some frame, c.updateBus fun bus => { bus with display.slot := slot.giveBack frame })
  | (none, _) => (none, c)

def takeAudio (c : Console τ) : Option Sound.AudioFrame × Console τ :=
  match c.machine.bus.sound.queue.take with
  | (some frame, queue) =>
    (some frame, c.updateBus fun bus => { bus with sound.queue := queue.giveBack frame })
  | (none, _) => (none, c)

/-- Takes all runs of samples that wait, at most as many as the first argument says. -/
def takeAllAudio : Nat → Console τ → List Sound.AudioFrame × Console τ
  | 0, c => ([], c)
  | n + 1, c =>
    match c.takeAudio with
    | (some frame, c) =>
      let (rest, c) := takeAllAudio n c
      (frame :: rest, c)
    | (none, c) => ([], c)

def takeFault (c : Console τ) : Option Fault × Console τ := (c.fault, { c with fault := none })

/-! ## Controls -/

def applySpeed (c : Console τ) : Console τ :=
  { c.updateBus (fun bus => { bus with sound := bus.sound.setSpeed c.speed }) with
    speedChanged := false }

/-- Starts a run, unless there is one. -/
def start (c : Console τ) : Console τ :=
  if c.phase = .idle then { c.applySpeed with phase := .running } else c

/-- Pauses, resumes, or with no wish given does the other. -/
def setPause (c : Console τ) (wish : Option Bool) : Console τ :=
  { c with paused := wish.getD (!c.paused) }

/-- Sets the speed, which takes effect at the next frame. Speeds that make no sense are refused. -/
def setSpeed (c : Console τ) (speed : Float) : Console τ :=
  if isSpeed speed then { c with speed, speedChanged := c.phase ≠ .idle }
  else c.updateHost (·.warn s!"Ignoring invalid speed multiplier {Decimal.write speed 0}")

variable [Timeline τ]

def frame (c : Console τ) : Console τ :=
  if c.isRunning && !c.paused then
    let c := if c.speedChanged then c.applySpeed else c
    match c.machine.runFrame with
    | (some fault, machine) =>
      updateHost { c with machine, phase := .faulted, fault := some fault }
        (·.report .error s!"Emulation stopped: {fault.message}")
    | (none, machine) => { c with machine := (machine.trySaveRam false).2 }
  else c

/-- Runs until the run ends, at most as many frames as the first argument says. -/
def frames : Nat → Console τ → Console τ
  | 0, c => c
  | n + 1, c => if c.isRunning then frames n c.frame else c

def stop (c : Console τ) : Console τ :=
  if c.phase = .idle then c else { c with machine := c.machine.flush, phase := .idle }

end Console

end DotMatrix
