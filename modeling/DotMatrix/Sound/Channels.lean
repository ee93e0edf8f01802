import DotMatrix.Sound.Divider
import DotMatrix.Sound.Units

/-!
# Sound channels

Two square channels, the first of which can sweep its frequency, a channel that plays a table of
samples, and a noise channel. A channel that is not enabled is silent.
-/

namespace DotMatrix.Sound

/-! ## Square waves -/

structure Square where
  /-- Which of four waveforms is played. -/
  duty : Nat
  length : LengthCounter
  envelope : Envelope
  waveform : Waveform
  sweep : Option Sweep
deriving DecidableEq, Repr, Inhabited

namespace Square

def maxAudible : Nat := 2041

def initial (sweep : Option Sweep) : Square := ⟨0, .initial, .initial, .initial, sweep⟩

/-- The waveform of a duty, step `n` in bit `n`. -/
def dutyBits (duty : Nat) : UInt8 :=
  match duty with
  | 0 => 0x80
  | 1 => 0x81
  | 2 => 0xE1
  | _ => 0x7E

/-- The sweep has silenced the channel. -/
def sweptOut (c : Square) : Bool :=
  match c.sweep with
  | some s => s.shadow = Sweep.silenced
  | none => false

def enabled (c : Square) : Bool :=
  c.length.active && c.envelope.volume ≠ 0 && 1 ≤ c.waveform.frequency
    && c.waveform.frequency ≤ maxAudible && !c.sweptOut

def writeLength (c : Square) (val : UInt8) : Square :=
  { c with
    duty := val.toNat / 64
    length := { c.length with value := 64 - val.toNat % 64 } }

/-- Takes over the shadow frequency and computes the next one. -/
def applySweep (c : Square) (s : Sweep) : Square :=
  { c with waveform := c.waveform.setFrequency s.shadow, sweep := some s.step }

def startSweep (c : Square) : Square :=
  match c.sweep with
  | none => c
  | some s =>
    let s := { s with shadow := c.waveform.frequency, timer := s.period }
    if s.period ≠ 0 && s.shift ≠ 0 then c.applySweep s else { c with sweep := some s }

/-- Counts a sweep clock; the sweep takes effect when its timer runs out. -/
def clockSweep (c : Square) : Square :=
  match c.sweep with
  | none => c
  | some s =>
    if s.period = 0 || s.shift = 0 || s.timer = 0 then c
    else if s.timer = 1 then c.applySweep s
    else { c with sweep := some { s with timer := s.timer - 1 } }

def trigger (c : Square) : Square :=
  startSweep { c with
    envelope := c.envelope.trigger
    length := c.length.trigger 64
    waveform := c.waveform.restart }

def writeControl (c : Square) (val : UInt8) : Square :=
  let c := { c with
    waveform := c.waveform.setHigh val
    length := { c.length with enabled := anySet val 0x40 } }
  if anySet val 0x80 then c.trigger else c

def sample (c : Square) : Int :=
  if c.enabled then
    c.envelope.sample ((dutyBits c.duty).toNat.testBit (c.waveform.position / 8192))
  else 0

def advance (c : Square) (sample : Nat) : Square :=
  { c with waveform := c.waveform.advance sample (c.waveform.stepCycles 4) 8192 }

end Square

/-! ## Sample table -/

structure Wave where
  /-- The converter is switched on. -/
  power : Bool
  length : LengthCounter
  /-- Bits that samples are shifted by; four make them silent. -/
  shift : Nat
  waveform : Waveform
  table : Vector UInt8 32
deriving DecidableEq, Repr, Inhabited

namespace Wave

def initial (table : Vector UInt8 32) : Wave := ⟨false, .initial, 4, .initial, table⟩

def enabled (c : Wave) : Bool :=
  c.length.active && c.shift ≠ 4 && c.waveform.frequency ≠ 0 && c.power

def writeLength (c : Wave) (val : UInt8) : Wave :=
  { c with length := { c.length with value := 256 - val.toNat } }

def writeVolume (c : Wave) (val : UInt8) : Wave := { c with shift := (val.toNat / 32 % 4 + 4) % 5 }

def writeControl (c : Wave) (val : UInt8) : Wave :=
  let c := { c with
    waveform := c.waveform.setHigh val
    length := { c.length with enabled := anySet val 0x40 } }
  if anySet val 0x80 then
    { c with waveform := c.waveform.restart, length := c.length.trigger 256, power := true }
  else c

def writeTable (c : Wave) (pos : Nat) (val : UInt8) : Wave :=
  let i := pos % 16 * 2
  { c with table := (c.table.setIfInBounds i (val >>> 4)).setIfInBounds (i + 1) (val &&& 0x0F) }

def sample (c : Wave) : Int :=
  if c.enabled then
    let level := (c.table[c.waveform.position / 2048]?.getD 0).toNat >>> c.shift
    Int.tdiv (level * 2 * peak) 15 - peak
  else 0

def advance (c : Wave) (sample : Nat) : Wave :=
  { c with waveform := c.waveform.advance sample (c.waveform.stepCycles 2) 2048 }

end Wave

/-! ## Noise -/

structure Noise where
  length : LengthCounter
  envelope : Envelope
  /-- The bit that feedback goes into: 14, or 6 for a shorter sequence. -/
  width : Nat
  register : UInt16
  /-- The waveform is high. -/
  high : Bool
  /-- Steps of the shift register; none before the first frequency is set. -/
  steps : Option Divider
deriving DecidableEq, Repr, Inhabited

namespace Noise

def initial : Noise := ⟨.initial, .initial, 14, 1, true, none⟩

def enabled (c : Noise) : Bool := c.length.active && c.envelope.volume ≠ 0

def writeLength (c : Noise) (val : UInt8) : Noise :=
  { c with length := { c.length with value := 64 - val.toNat % 64 } }

/-- The steps per second that a frequency setting stands for. -/
def stepRate (val : UInt8) : Nat :=
  let divisor := val.toNat % 8
  (if divisor = 0 then 1 <<< 20 else (1 <<< 19) / divisor) >>> (val.toNat / 16 + 1)

def writeFrequency (c : Noise) (val : UInt8) : Noise :=
  { c with width := if anySet val 0x08 then 6 else 14, steps := some (.ofRate (stepRate val)) }

def writeControl (c : Noise) (val : UInt8) : Noise :=
  let c := { c with length := { c.length with enabled := anySet val 0x40 } }
  if anySet val 0x80 then
    { c with envelope := c.envelope.trigger, length := c.length.trigger 64, register := 0x7FFF }
  else c

/-- Shifts the register once; the waveform turns over when the two lowest bits differ. -/
def step (c : Noise) : Noise :=
  let out := (c.register ^^^ (c.register >>> 1)) &&& 1
  let bit := (1 : UInt16) <<< c.width.toUInt16
  let shifted := (c.register >>> 1) &&& ~~~bit
  { c with
    register := (shifted ||| (out <<< c.width.toUInt16)) &&& 0x7FFF
    high := c.high ^^ (out ≠ 0) }

def stepMany (c : Noise) : Nat → Noise
  | 0 => c
  | n + 1 => stepMany c.step n

def update (c : Noise) (clock : Nat) : Noise :=
  match c.steps with
  | none => c
  | some steps =>
    let (run, steps) := steps.update clock
    stepMany { c with steps := some steps } run.count

def sample (c : Noise) : Int := if c.enabled then c.envelope.sample c.high else 0

end Noise

end DotMatrix.Sound
