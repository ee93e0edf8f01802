import DotMatrix.Timer

/-!
# Channel units

The parts that channels are made of: a counter that ends a sound, an envelope that changes its
volume, a position in a waveform, and a sweep that changes a frequency.
-/

namespace DotMatrix.Sound

def sampleRate : Nat := 44100

def peak : Int := 32767

/-! ## Length -/

structure LengthCounter where
  value : Nat
  enabled : Bool
deriving DecidableEq, Repr, Inhabited

namespace LengthCounter

def initial : LengthCounter := ⟨0, false⟩

def clock (l : LengthCounter) : LengthCounter := { l with value := l.value - 1 }

/-- The counter does not end the sound. -/
def active (l : LengthCounter) : Bool := !l.enabled || l.value ≠ 0

/-- A counter that has run out starts again at its maximum. -/
def trigger (l : LengthCounter) (max : Nat) : LengthCounter :=
  { l with value := if l.value = 0 then max else l.value }

end LengthCounter

/-! ## Envelope -/

structure Envelope where
  /-- The volume that a trigger restores. -/
  start : Nat
  /-- Clocks between changes of the volume; none if it does not change. -/
  period : Nat
  /-- The volume rises. -/
  rising : Bool
  volume : Nat
  timer : Nat
deriving DecidableEq, Repr, Inhabited

namespace Envelope

def initial : Envelope := ⟨0, 0, false, 0, 0⟩

def write (e : Envelope) (val : UInt8) : Envelope :=
  { e with
    start := val.toNat / 16
    volume := val.toNat / 16
    period := val.toNat % 8
    rising := anySet val 0x08 }

def trigger (e : Envelope) : Envelope := { e with timer := e.period, volume := e.start }

/-- Moves the volume one step, as far as it goes. -/
def step (e : Envelope) : Envelope :=
  { e with volume := if e.rising then (if e.volume < 15 then e.volume + 1 else e.volume)
                     else e.volume - 1 }

def clock (e : Envelope) : Envelope :=
  if e.period = 0 || e.timer = 0 then e
  else if e.timer = 1 then step { e with timer := e.period }
  else { e with timer := e.timer - 1 }

def sample (e : Envelope) (high : Bool) : Int :=
  let level := Int.tdiv (e.volume * peak) 15
  if high then level else -level

end Envelope

/-! ## Waveform position -/

/-- The position in a waveform is computed from the number of samples since a reference sample,
and not stepped. -/
structure Waveform where
  frequency : Nat
  /-- The position, in units of which a waveform has 65536. -/
  position : Nat
  /-- A sample number, and the position at that sample. -/
  reference : Option (Nat × Nat)
deriving DecidableEq, Repr, Inhabited

namespace Waveform

def initial : Waveform := ⟨0, 0, none⟩

def setFrequency (w : Waveform) (frequency : Nat) : Waveform :=
  if frequency = w.frequency then w else { w with frequency := frequency, reference := none }

def setLow (w : Waveform) (val : UInt8) : Waveform :=
  w.setFrequency (w.frequency / 256 * 256 + val.toNat)

def setHigh (w : Waveform) (val : UInt8) : Waveform :=
  w.setFrequency (val.toNat % 8 * 256 + w.frequency % 256)

def restart (w : Waveform) : Waveform := { w with position := 0, reference := none }

/-- Cycles of one waveform step, when a step at the highest frequency takes `unit`. -/
def stepCycles (w : Waveform) (unit : Nat) : Nat := (2048 - w.frequency) * unit

/-- Moves to a sample. A waveform step takes `cycles` and is `width` units long. -/
def advance (w : Waveform) (sample cycles width : Nat) : Waveform :=
  match w.reference with
  | none => { w with reference := some (sample, w.position) }
  | some (start, position) =>
    let units := (sample - start) * (cyclesPerSecond * width) / (sampleRate * cycles)
    { w with position := (position + units) % 65536 }

end Waveform

/-! ## Sweep -/

structure Sweep where
  period : Nat
  /-- The frequency falls. -/
  falling : Bool
  shift : Nat
  timer : Nat
  /-- The frequency that the sweep works on, or the silencing value. -/
  shadow : Nat
deriving DecidableEq, Repr, Inhabited

namespace Sweep

/-- The shadow value of a channel that the sweep has silenced. -/
def silenced : Nat := 2048

def initial : Sweep := ⟨0, false, 0, 0, 0⟩

def write (s : Sweep) (val : UInt8) : Sweep :=
  { s with period := val.toNat / 16 % 8, falling := anySet val 0x08, shift := val.toNat % 8 }

def next (s : Sweep) : Nat :=
  let delta := s.shadow >>> s.shift
  if s.falling then s.shadow - delta else s.shadow + delta

/-- Computes the next shadow; one that is out of range silences the channel. -/
def step (s : Sweep) : Sweep :=
  if silenced ≤ s.next then { s with timer := 0, shadow := silenced }
  else { s with timer := s.period, shadow := s.next }

end Sweep

end DotMatrix.Sound
