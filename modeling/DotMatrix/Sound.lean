import DotMatrix.Exchange.FrameQueue
import DotMatrix.Memory
import DotMatrix.Sound.Channels
import DotMatrix.Sound.Mixer

/-!
# Sound controller

Registers, four channels, a frame sequencer that clocks their units, and a sampler that plays
them. Nothing happens cycle by cycle: the controller is told the time and makes up for the ticks
and samples since. Samples fill a frame, and a full frame is published. A speed setting repeats
or leaves out samples, so that a console that runs slower or faster is heard in real time.
-/

namespace DotMatrix

open Sound

namespace Sound

def frameLength : Nat := 1024

/-- A run of samples, numbered from zero. -/
structure AudioFrame where
  number : Nat
  samples : Vector StereoSample frameLength
deriving DecidableEq

def AudioFrame.silent (number : Nat) : AudioFrame := ⟨number, Vector.replicate _ .silence⟩

instance : Inhabited AudioFrame := ⟨.silent 0⟩

/-- How samples computed become samples written. Both counters are in units of which a sample
computed counts `unit`, and a sample written counts the multiplier. -/
structure Pace where
  /-- The speed in units; real time is one whole. -/
  multiplier : Nat
  computed : Nat
  written : Nat
deriving DecidableEq, Repr, Inhabited

namespace Pace

/-- The units of real time. -/
def unit : Nat := 1 <<< 16

def ofMultiplier (multiplier : Nat) : Pace := ⟨multiplier, 0, 0⟩

def restart (p : Pace) : Pace := ofMultiplier p.multiplier

/-- The multiplier of a speed, at least one unit. -/
def multiplierOf (speed : Float) : Nat := max (speed * Float.ofNat unit).toUInt64.toNat 1

end Pace

end Sound

structure Sound where
  registers : Memory 0x30
  powered : Bool
  leftVolume : Nat
  rightVolume : Nat
  /-- The channels heard on the left in the upper four bits, on the right in the lower. -/
  panning : UInt8
  square1 : Square
  square2 : Square
  wave : Wave
  noise : Noise
  /-- The master clock when the controller was last told the time. -/
  now : Nat
  poweredAt : Nat
  sequencer : Divider
  sampler : Divider
  leftFilter : HighPass
  rightFilter : HighPass
  pace : Pace
  /-- Samples computed since power-on. -/
  rendered : Nat
  last : StereoSample
  frame : AudioFrame
  position : Nat
  frameNumber : Nat
  queue : FrameQueue AudioFrame
deriving Inhabited

namespace Sound

def initial (depth : Nat) : Sound where
  registers := .zeros _
  powered := false
  leftVolume := 0
  rightVolume := 0
  panning := 0
  square1 := .initial (some .initial)
  square2 := .initial none
  wave := .initial (Vector.replicate _ 0)
  noise := .initial
  now := 0
  poweredAt := 0
  sequencer := .ofRate 512
  sampler := .ofRate sampleRate
  leftFilter := .initial
  rightFilter := .initial
  pace := .ofMultiplier Pace.unit
  rendered := 0
  last := .silence
  frame := .silent 0
  position := 0
  frameNumber := 0
  queue := .empty depth

/-! ## Registers -/

/-- The bits of a register that always read as ones. -/
def readMask (addr : UInt16) : UInt8 :=
  if 0xFF30 ≤ addr && addr ≤ 0xFF3F then 0x00
  else
    match addr with
    | 0xFF10 => 0x80
    | 0xFF11 | 0xFF16 => 0x3F
    | 0xFF12 | 0xFF17 | 0xFF21 | 0xFF22 | 0xFF24 | 0xFF25 => 0x00
    | 0xFF14 | 0xFF19 | 0xFF1E | 0xFF23 => 0xBF
    | 0xFF1A => 0x7F
    | 0xFF1C => 0x9F
    | 0xFF26 => 0x70
    | _ => 0xFF

def channelStatus (s : Sound) : UInt8 :=
  bitsIf s.square1.enabled 0x01 ||| bitsIf s.square2.enabled 0x02
    ||| bitsIf s.wave.enabled 0x04 ||| bitsIf s.noise.enabled 0x08

def status (s : Sound) : UInt8 := bitsIf s.powered 0x80 ||| 0x70 ||| s.channelStatus

def read (s : Sound) (addr : UInt16) : UInt8 :=
  if addr = 0xFF26 then s.status
  else if 0xFF10 ≤ addr && addr ≤ 0xFF3F then
    s.registers.read (addr.toNat - 0xFF10) ||| readMask addr
  else 0xFF

def powerOn (s : Sound) : Sound :=
  { s with
    powered := true
    poweredAt := s.now
    sequencer := s.sequencer.reset
    sampler := s.sampler.reset
    rendered := 0
    pace := s.pace.restart
    last := .silence }

/-- Clears the channels and their registers; the sample table stays. -/
def powerOff (s : Sound) : Sound :=
  { s with
    powered := false
    registers := s.registers.writeAll 0 (List.replicate 0x16 0)
    square1 := .initial (some .initial)
    square2 := .initial none
    wave := .initial s.wave.table
    noise := .initial
    leftVolume := 0
    rightVolume := 0
    panning := 0 }

def writePower (s : Sound) (val : UInt8) : Sound :=
  let on := anySet val 0x80
  if on && !s.powered then s.powerOn else if !on && s.powered then s.powerOff else s

def apply (s : Sound) (addr : UInt16) (val : UInt8) : Sound :=
  match addr with
  | 0xFF10 => { s with square1 := { s.square1 with sweep := s.square1.sweep.map (·.write val) } }
  | 0xFF11 => { s with square1 := s.square1.writeLength val }
  | 0xFF12 => { s with square1 := { s.square1 with envelope := s.square1.envelope.write val } }
  | 0xFF13 => { s with square1 := { s.square1 with waveform := s.square1.waveform.setLow val } }
  | 0xFF14 => { s with square1 := s.square1.writeControl val }
  | 0xFF16 => { s with square2 := s.square2.writeLength val }
  | 0xFF17 => { s with square2 := { s.square2 with envelope := s.square2.envelope.write val } }
  | 0xFF18 => { s with square2 := { s.square2 with waveform := s.square2.waveform.setLow val } }
  | 0xFF19 => { s with square2 := s.square2.writeControl val }
  | 0xFF1A => { s with wave := { s.wave with power := anySet val 0x80 } }
  | 0xFF1B => { s with wave := s.wave.writeLength val }
  | 0xFF1C => { s with wave := s.wave.writeVolume val }
  | 0xFF1D => { s with wave := { s.wave with waveform := s.wave.waveform.setLow val } }
  | 0xFF1E => { s with wave := s.wave.writeControl val }
  | 0xFF20 => { s with noise := s.noise.writeLength val }
  | 0xFF21 => { s with noise := { s.noise with envelope := s.noise.envelope.write val } }
  | 0xFF22 => { s with noise := s.noise.writeFrequency val }
  | 0xFF23 => { s with noise := s.noise.writeControl val }
  | 0xFF24 => { s with leftVolume := val.toNat / 16 % 8, rightVolume := val.toNat % 8 }
  | 0xFF25 => { s with panning := val }
  | _ => if 0xFF30 ≤ addr then { s with wave := s.wave.writeTable (addr.toNat - 0xFF30) val } else s

/-- Writes a register. Without power only the sample table and the power switch can be written. -/
def write (s : Sound) (addr : UInt16) (val : UInt8) : Sound :=
  if addr < 0xFF10 || 0xFF3F < addr then s
  else if addr = 0xFF26 then s.writePower val
  else if !s.powered && addr < 0xFF30 then s
  else apply { s with registers := s.registers.write (addr.toNat - 0xFF10) val } addr val

def applyPostBoot (s : Sound) : Sound :=
  let s := (s.write 0xFF26 0x80).write 0xFF11 0x80
  ((s.write 0xFF12 0xF3).write 0xFF24 0x77).write 0xFF25 0xF3

/-- Sets the speed; frames that wait are discarded. -/
def setMultiplier (s : Sound) (multiplier : Nat) : Sound :=
  { s with pace := .ofMultiplier multiplier, queue := s.queue.clear }

def setSpeed (s : Sound) (speed : Float) : Sound := s.setMultiplier (Pace.multiplierOf speed)

/-! ## Frame sequencer -/

def clockLengths (s : Sound) : Sound :=
  { s with
    square1 := { s.square1 with length := s.square1.length.clock }
    square2 := { s.square2 with length := s.square2.length.clock }
    wave := { s.wave with length := s.wave.length.clock }
    noise := { s.noise with length := s.noise.length.clock } }

def clockEnvelopes (s : Sound) : Sound :=
  { s with
    square1 := { s.square1 with envelope := s.square1.envelope.clock }
    square2 := { s.square2 with envelope := s.square2.envelope.clock }
    noise := { s.noise with envelope := s.noise.envelope.clock } }

def clockSweep (s : Sound) : Sound := { s with square1 := s.square1.clockSweep }

/-- One tick of the frame sequencer, which rests without power. -/
def sequencerTick (s : Sound) (tick : Nat) : Sound :=
  if !s.powered then s
  else
    let events := sequencerEvents tick
    let s := if events.length then s.clockLengths else s
    let s := if events.envelope then s.clockEnvelopes else s
    if events.sweep then s.clockSweep else s

def sequencerTicks (s : Sound) (first : Nat) : Nat → Sound
  | 0 => s
  | n + 1 => sequencerTicks (s.sequencerTick first) (first + 1) n

/-! ## Samples -/

def advanceChannels (s : Sound) : Sound :=
  { s with
    square1 := s.square1.advance s.rendered
    square2 := s.square2.advance s.rendered
    wave := s.wave.advance s.rendered }

def channelSamples (s : Sound) : ChannelSamples :=
  ⟨s.square1.sample, s.square2.sample, s.wave.sample, s.noise.sample⟩

def mix (s : Sound) (samples : ChannelSamples) : StereoSample × Sound :=
  let (left, leftFilter) := s.leftFilter.update (Int.tdiv (samples.sum (s.panning >>> 4)) 4)
  let (right, rightFilter) := s.rightFilter.update (Int.tdiv (samples.sum (s.panning &&& 0x0F)) 4)
  (⟨scale left s.leftVolume, scale right s.rightVolume⟩, { s with leftFilter, rightFilter })

/-- Computes the next sample; without power it is silence. -/
def computeSample (s : Sound) : Sound :=
  if s.powered then
    let s := s.advanceChannels
    let (last, s) := s.mix s.channelSamples
    { s with last, rendered := s.rendered + 1 }
  else { s with last := .silence, rendered := s.rendered + 1 }

def publish (s : Sound) : Sound :=
  let (buffer, queue) := s.queue.publish (.silent 0) s.frame
  let number := s.frameNumber + 1
  -- the buffer that comes back may hold older samples
  { s with
    frame := { buffer with number, samples := Vector.replicate _ .silence }
    queue
    position := 0
    frameNumber := number }

def writeSample (s : Sound) : Sound :=
  let samples := s.frame.samples.setIfInBounds s.position s.last
  let s := { s with frame := { s.frame with samples }, position := s.position + 1 }
  if frameLength ≤ s.position then s.publish else s

theorem pace_writeSample (s : Sound) : s.writeSample.pace = s.pace := by
  unfold writeSample
  dsimp only
  split <;> rfl

/-- Writes the last sample as often as the samples written lag behind those computed. -/
def repeatSample (s : Sound) : Sound :=
  if _h : s.pace.written ≤ s.pace.computed ∧ 0 < s.pace.multiplier then
    let t := s.writeSample
    repeatSample { t with pace := { t.pace with written := s.pace.written + s.pace.multiplier } }
  else s
termination_by s.pace.computed + 1 - s.pace.written
decreasing_by
  simp only [pace_writeSample]
  omega

/-- Computes a sample and writes it, unless enough are written already. -/
def skipSample (s : Sound) : Sound :=
  let skip := s.pace.computed ≤ s.pace.written
  let s := s.computeSample
  let s := { s with pace := { s.pace with computed := s.pace.computed + Pace.unit } }
  if skip then s
  else
    let s := s.writeSample
    { s with pace := { s.pace with written := s.pace.written + s.pace.multiplier } }

def sampleTick (s : Sound) : Sound :=
  if s.pace.multiplier = Pace.unit then s.computeSample.writeSample
  else if s.pace.multiplier < Pace.unit then
    let s := s.repeatSample.computeSample
    { s with pace := { s.pace with computed := s.pace.computed + Pace.unit } }
  else s.skipSample

def sampleTicks (s : Sound) : Nat → Sound
  | 0 => s
  | n + 1 => sampleTicks s.sampleTick n

/-! ## Time -/

def update (s : Sound) (now : Nat) : Sound :=
  let clock := now - s.poweredAt
  let (ticks, sequencer) := s.sequencer.update clock
  let (samples, sampler) := s.sampler.update clock
  let s := { s with now, sequencer, sampler, noise := s.noise.update clock }
  (s.sequencerTicks ticks.first ticks.count).sampleTicks samples.count

end Sound

end DotMatrix
