import DotMatrix.Word

/-!
# Master clock and timer

The master clock counts cycles in machine cycles of four. A free-running divider follows it, and
the timer counter advances on every falling edge of one divider bit, the tap selected by the
control register. When the counter wraps it stays at zero for one machine cycle; the next one
loads the modulo and requests the interrupt.
-/

namespace DotMatrix

def machineCycle : Nat := 4

def cyclesPerSecond : Nat := 1 <<< 22

structure Timer where
  /-- Cycles since power-on. -/
  now : Nat
  /-- The divider; its bits 8 to 15 are readable. -/
  divider : UInt32
  counter : UInt8
  modulo : UInt8
  control : UInt8
  /-- The tap signal when it was last looked at. -/
  lastSignal : Bool
  /-- The counter has wrapped and the modulo is not loaded yet. -/
  reloadPending : Bool
deriving DecidableEq, Repr, Inhabited

namespace Timer

def interrupt : UInt8 := 0x04

def initial : Timer := ⟨0, 0, 0, 0, 0, false, false⟩

/-- The divider bit watched under a control value. -/
def tapBit (control : UInt8) : UInt32 :=
  match (control &&& 0x03).toNat with
  | 0 => 9
  | 1 => 3
  | 2 => 5
  | _ => 7

/-- The watched bit, low while the timer is disabled. -/
def signal (divider : UInt32) (control : UInt8) : Bool :=
  anySet control 0x04 && (divider >>> tapBit control) &&& 1 != 0

def increment (t : Timer) : Timer :=
  if t.counter = 0xFF then { t with counter := 0, reloadPending := true }
  else { t with counter := t.counter + 1 }

def sense (t : Timer) : Timer :=
  let level := signal t.divider t.control
  let counted := if t.lastSignal && !level then t.increment else t
  { counted with lastSignal := level }

/-- Completes a pending reload; the flag tells whether there was one, and so an interrupt. -/
def reload (t : Timer) : Timer × Bool :=
  if t.reloadPending then ({ t with counter := t.modulo, reloadPending := false }, true)
  else (t, false)

/-- One machine cycle; the flag tells whether the interrupt is requested. -/
def tick (t : Timer) : Timer × Bool :=
  let (t, requested) := t.reload
  (sense { t with now := t.now + machineCycle, divider := t.divider + 4 }, requested)

/-- Runs `n` machine cycles; the flag tells whether any of them requested the interrupt. -/
def ticks : Nat → Timer → Timer × Bool
  | 0, t => (t, false)
  | n + 1, t =>
    let (t, first) := t.tick
    let (t, later) := ticks n t
    (t, first || later)

/-- Runs `cycles` clock cycles, a whole number of machine cycles. -/
def advance (t : Timer) (cycles : Nat) : Timer × Bool := ticks (cycles / machineCycle) t

/-- Clears the divider, which is an edge when the tap was high. A pending reload completes. -/
def resetDivider (t : Timer) : Timer × Bool :=
  let (t, requested) := t.reload
  (sense { t with divider := 0 }, requested)

def read (t : Timer) (addr : UInt16) : UInt8 :=
  match addr with
  | 0xFF04 => (t.divider >>> 8).toUInt8
  | 0xFF05 => t.counter
  | 0xFF06 => t.modulo
  | 0xFF07 => t.control ||| 0xF8
  | _ => 0xFF

/-- Writes a timer register; the flag tells whether the interrupt is requested.

Writing the counter cancels a pending reload. Writing the control completes it without a
request, because the edge it may cause is counted first. -/
def write (t : Timer) (addr : UInt16) (val : UInt8) : Timer × Bool :=
  match addr with
  | 0xFF04 => t.resetDivider
  | 0xFF05 => ({ t with counter := val, reloadPending := false }, false)
  | 0xFF06 => ({ t with modulo := val }, false)
  | 0xFF07 => ((sense { t with control := val &&& 0x07 }).reload.1, false)
  | _ => (t, false)

end Timer

end DotMatrix
