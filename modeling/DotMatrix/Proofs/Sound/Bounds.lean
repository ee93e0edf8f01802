import DotMatrix.Proofs.Sound.Operations
import Mathlib.Algebra.Group.Nat.Defs

/-!
# The ranges of a sound controller

Every part of the controller has a range that keeps what is computed from it in order: a frequency
of at most eleven bits leaves a waveform step of at least one unit, and a position of sixteen bits
lies inside the waveform and the sample table. The one value that is out of range on purpose is
the shadow of a sweep that has silenced its channel. It never becomes a frequency, because it
comes with a timer that has stopped (`Sweep.Bounded`). All that can be done with a controller
keeps the ranges (`bounded_of_reachable`), at each tick and sample on the way.
-/

namespace DotMatrix.Sound

/-! ## Units -/

structure Envelope.Bounded (e : Envelope) : Prop where
  start : e.start ≤ 15
  volume : e.volume ≤ 15

namespace Envelope

theorem bounded_initial : initial.Bounded := ⟨by decide, by decide⟩

theorem bounded_write (e : Envelope) (val : UInt8) : (e.write val).Bounded := by
  have hlevel : val.toNat / 16 ≤ 15 := by
    have := val.toNat_lt
    omega
  exact ⟨hlevel, hlevel⟩

namespace Bounded

variable {e : Envelope} (h : e.Bounded)
include h

theorem trigger : e.trigger.Bounded := ⟨h.start, h.start⟩

theorem step : e.step.Bounded := by
  refine ⟨h.start, ?_⟩
  have := h.volume
  show (if e.rising then (if e.volume < 15 then e.volume + 1 else e.volume)
    else e.volume - 1) ≤ 15
  split
  · split <;> omega
  · omega

theorem clock : e.clock.Bounded := by
  unfold Envelope.clock
  split
  · exact h
  · split
    · exact step (e := { e with timer := e.period }) ⟨h.start, h.volume⟩
    · exact ⟨h.start, h.volume⟩

end Bounded

end Envelope

/-- The frequency leaves at least one unit for a waveform step, and the position lies inside the
waveform. -/
structure Waveform.Bounded (w : Waveform) : Prop where
  frequency : w.frequency ≤ 2047
  position : w.position ≤ 0xFFFF
  reference : ∀ sample position, w.reference = some (sample, position) → position ≤ 0xFFFF

namespace Waveform

theorem bounded_initial : initial.Bounded := ⟨by decide, by decide, nofun⟩

namespace Bounded

variable {w : Waveform} (h : w.Bounded)
include h

theorem setFrequency {frequency : Nat} (hfrequency : frequency ≤ 2047) :
    (w.setFrequency frequency).Bounded := by
  unfold Waveform.setFrequency
  split
  · exact h
  · exact ⟨hfrequency, h.position, nofun⟩

theorem setLow (val : UInt8) : (w.setLow val).Bounded := by
  refine h.setFrequency ?_
  have := h.frequency
  have := val.toNat_lt
  omega

theorem setHigh (val : UInt8) : (w.setHigh val).Bounded := by
  refine h.setFrequency ?_
  omega

theorem restart : w.restart.Bounded := ⟨h.frequency, Nat.zero_le _, nofun⟩

theorem advance (sample cycles width : Nat) : (w.advance sample cycles width).Bounded := by
  unfold Waveform.advance
  split
  -- the first sample after a change becomes the reference
  · refine ⟨h.frequency, h.position, ?_⟩
    rintro _ position ⟨⟩
    exact h.position
  · exact ⟨h.frequency, Nat.le_of_lt_succ (Nat.mod_lt _ (by decide)), h.reference⟩

/-- A waveform step takes at least as long as one at the highest frequency. -/
theorem le_stepCycles (unit : Nat) : unit ≤ w.stepCycles unit :=
  Nat.le_mul_of_pos_left unit (by have := h.frequency; omega)

end Bounded

end Waveform

/-- The shadow is a frequency or the silencing value, and the timer has stopped at that value. -/
structure Sweep.Bounded (s : Sweep) : Prop where
  shadow : s.shadow ≤ silenced
  stopped : s.shadow = silenced → s.timer = 0

theorem Sweep.Bounded.shadow_lt {s : Sweep} (h : s.Bounded) (hrunning : s.timer ≠ 0) :
    s.shadow < silenced :=
  Nat.lt_of_le_of_ne h.shadow (fun hsilenced => hrunning (h.stopped hsilenced))

theorem Sweep.bounded_of_shadow_lt {s : Sweep} (h : s.shadow < silenced) : s.Bounded :=
  ⟨Nat.le_of_lt h, fun hsilenced => absurd hsilenced (Nat.ne_of_lt h)⟩

theorem Sweep.bounded_step (s : Sweep) : s.step.Bounded := by
  unfold step
  split
  · exact ⟨Nat.le_refl _, fun _ => rfl⟩
  · rename_i hnext
    exact bounded_of_shadow_lt (Nat.lt_of_not_le hnext)

theorem LengthCounter.clock_le (l : LengthCounter) : l.clock.value ≤ l.value := Nat.sub_le _ _

theorem LengthCounter.trigger_le {l : LengthCounter} {max : Nat} (h : l.value ≤ max) :
    (l.trigger max).value ≤ max := by
  unfold trigger
  dsimp only
  split
  · exact Nat.le_refl max
  · exact h

/-! ## Channels -/

structure Square.Bounded (c : Square) : Prop where
  duty : c.duty < 4
  length : c.length.value ≤ 64
  envelope : c.envelope.Bounded
  waveform : c.waveform.Bounded
  sweep : ∀ s, c.sweep = some s → s.Bounded

namespace Square

theorem bounded_initial {sweep : Option Sweep} (h : ∀ s, sweep = some s → s.Bounded) :
    (initial sweep).Bounded :=
  ⟨Nat.zero_lt_succ 3, Nat.zero_le 64, Envelope.bounded_initial, Waveform.bounded_initial, h⟩

namespace Bounded

variable {c : Square} (h : c.Bounded)
include h

theorem setSweep {s : Sweep} (hs : s.Bounded) : Square.Bounded { c with sweep := some s } :=
  ⟨h.duty, h.length, h.envelope, h.waveform, fun _ hsome => Option.some.inj hsome ▸ hs⟩

theorem writeSweep (val : UInt8) :
    Square.Bounded { c with sweep := c.sweep.map (·.write val) } := by
  refine ⟨h.duty, h.length, h.envelope, h.waveform, fun s hs => ?_⟩
  -- a write changes neither the shadow nor the timer
  obtain ⟨before, hbefore, rfl⟩ := Option.map_eq_some_iff.1 hs
  exact ⟨(h.sweep before hbefore).shadow, (h.sweep before hbefore).stopped⟩

theorem setEnvelope {envelope : Envelope} (he : envelope.Bounded) :
    Square.Bounded { c with envelope } :=
  ⟨h.duty, h.length, he, h.waveform, h.sweep⟩

theorem setWaveform {waveform : Waveform} (hw : waveform.Bounded) :
    Square.Bounded { c with waveform } :=
  ⟨h.duty, h.length, h.envelope, hw, h.sweep⟩

theorem setLength {length : LengthCounter} (hl : length.value ≤ 64) :
    Square.Bounded { c with length } :=
  ⟨h.duty, hl, h.envelope, h.waveform, h.sweep⟩

theorem writeLength (val : UInt8) : (c.writeLength val).Bounded := by
  refine ⟨?_, Nat.sub_le _ _, h.envelope, h.waveform, h.sweep⟩
  show val.toNat / 64 < 4
  have := val.toNat_lt
  omega

/-- A shadow that is a frequency may be taken over. -/
theorem applySweep {s : Sweep} (hs : s.shadow < Sweep.silenced) : (c.applySweep s).Bounded :=
  (h.setWaveform (h.waveform.setFrequency (Nat.le_of_lt_succ hs))).setSweep s.bounded_step

theorem startSweep : c.startSweep.Bounded := by
  unfold Square.startSweep
  split
  · exact h
  · -- the shadow starts as the frequency of the channel
    have hshadow : c.waveform.frequency < Sweep.silenced := Nat.lt_succ_of_le h.waveform.frequency
    dsimp only
    split
    · exact h.applySweep hshadow
    · exact h.setSweep (Sweep.bounded_of_shadow_lt hshadow)

theorem clockSweep : c.clockSweep.Bounded := by
  unfold Square.clockSweep
  split
  · exact h
  · rename_i s hs
    split
    · exact h
    · rename_i hruns
      have hrunning : s.timer ≠ 0 := by
        intro hstopped
        simp [hstopped] at hruns
      have hshadow := (h.sweep s hs).shadow_lt hrunning
      split
      · exact h.applySweep hshadow
      · exact h.setSweep (Sweep.bounded_of_shadow_lt hshadow)

theorem trigger : c.trigger.Bounded :=
  startSweep (c := { c with
    envelope := c.envelope.trigger
    length := c.length.trigger 64
    waveform := c.waveform.restart })
    ⟨h.duty, LengthCounter.trigger_le h.length, h.envelope.trigger, h.waveform.restart, h.sweep⟩

theorem writeControl (val : UInt8) : (c.writeControl val).Bounded := by
  have hset : Square.Bounded { c with
      waveform := c.waveform.setHigh val
      length := { c.length with enabled := anySet val 0x40 } } :=
    (h.setWaveform (h.waveform.setHigh val)).setLength h.length
  unfold Square.writeControl
  dsimp only
  split
  · exact hset.trigger
  · exact hset

theorem advance (sample : Nat) : (c.advance sample).Bounded :=
  h.setWaveform (h.waveform.advance sample _ _)

end Bounded

end Square

structure Wave.Bounded (c : Wave) : Prop where
  length : c.length.value ≤ 256
  shift : c.shift ≤ 4
  waveform : c.waveform.Bounded

namespace Wave

theorem bounded_initial (table : Vector UInt8 32) : (initial table).Bounded :=
  ⟨Nat.zero_le 256, Nat.le_refl 4, Waveform.bounded_initial⟩

namespace Bounded

variable {c : Wave} (h : c.Bounded)
include h

theorem writeLength (val : UInt8) : (c.writeLength val).Bounded :=
  ⟨Nat.sub_le _ _, h.shift, h.waveform⟩

theorem writeVolume (val : UInt8) : (c.writeVolume val).Bounded :=
  ⟨h.length, Nat.le_of_lt_succ (Nat.mod_lt _ (by decide)), h.waveform⟩

theorem writeControl (val : UInt8) : (c.writeControl val).Bounded := by
  unfold Wave.writeControl
  dsimp only
  split
  · exact ⟨LengthCounter.trigger_le h.length, h.shift, (h.waveform.setHigh val).restart⟩
  · exact ⟨h.length, h.shift, h.waveform.setHigh val⟩

theorem writeTable (pos : Nat) (val : UInt8) : (c.writeTable pos val).Bounded :=
  ⟨h.length, h.shift, h.waveform⟩

theorem advance (sample : Nat) : (c.advance sample).Bounded :=
  ⟨h.length, h.shift, h.waveform.advance sample _ _⟩

end Bounded

end Wave

structure Noise.Bounded (c : Noise) : Prop where
  length : c.length.value ≤ 64
  envelope : c.envelope.Bounded
  register : c.register.toNat < 2 ^ 15
  rate : ∀ steps, c.steps = some steps → 1 ≤ steps.rate

namespace Noise

theorem bounded_initial : initial.Bounded :=
  ⟨by decide, Envelope.bounded_initial, by decide, nofun⟩

/-- The slowest setting still makes a step now and then. -/
theorem stepRate_pos (val : UInt8) : 1 ≤ stepRate val := by
  have hbase : 2 ^ 16 ≤ if val.toNat % 8 = 0 then 1 <<< 20 else (1 <<< 19) / (val.toNat % 8) := by
    split
    · decide
    · rename_i hdivisor
      rw [Nat.le_div_iff_mul_le (Nat.pos_of_ne_zero hdivisor)]
      omega
  have hshift : val.toNat / 16 + 1 ≤ 16 := by
    have := val.toNat_lt
    omega
  unfold stepRate
  dsimp only
  rw [Nat.shiftRight_eq_div_pow, Nat.le_div_iff_mul_le (Nat.two_pow_pos _), Nat.one_mul]
  exact Nat.le_trans (Nat.pow_le_pow_right (by decide) hshift) hbase

theorem register_step (c : Noise) : c.step.register.toNat < 2 ^ 15 :=
  Nat.lt_of_le_of_lt Nat.and_le_right (by decide)

namespace Bounded

variable {c : Noise} (h : c.Bounded)
include h

theorem setLength {length : LengthCounter} (hl : length.value ≤ 64) :
    Noise.Bounded { c with length } :=
  ⟨hl, h.envelope, h.register, h.rate⟩

theorem setEnvelope {envelope : Envelope} (he : envelope.Bounded) :
    Noise.Bounded { c with envelope } :=
  ⟨h.length, he, h.register, h.rate⟩

theorem writeFrequency (val : UInt8) : (c.writeFrequency val).Bounded :=
  ⟨h.length, h.envelope, h.register, fun _ hsteps => Option.some.inj hsteps ▸ stepRate_pos val⟩

theorem writeControl (val : UInt8) : (c.writeControl val).Bounded := by
  unfold Noise.writeControl
  dsimp only
  split
  · exact ⟨LengthCounter.trigger_le h.length, h.envelope.trigger, Nat.lt_succ_self 0x7FFF, h.rate⟩
  · exact h.setLength h.length

theorem stepMany (n : Nat) : (c.stepMany n).Bounded := by
  induction n generalizing c with
  | zero => exact h
  | succ n ih => exact ih ⟨h.length, h.envelope, c.register_step, h.rate⟩

theorem update (clock : Nat) : (c.update clock).Bounded := by
  unfold Noise.update
  split
  · exact h
  · rename_i steps hsteps
    refine stepMany (c := { c with steps := some (steps.update clock).2 }) ?_ _
    refine ⟨h.length, h.envelope, h.register, fun _ hafter => ?_⟩
    rw [← Option.some.inj hafter]
    exact h.rate steps hsteps

end Bounded

end Noise

/-! ## The controller -/

/-- All parts are in their ranges, the next sample lies inside the frame, and the power was not
switched on in the future. -/
structure Bounded (s : Sound) : Prop where
  square1 : s.square1.Bounded
  square2 : s.square2.Bounded
  wave : s.wave.Bounded
  noise : s.noise.Bounded
  leftVolume : s.leftVolume ≤ 7
  rightVolume : s.rightVolume ≤ 7
  position : s.position < frameLength
  poweredAt : s.poweredAt ≤ s.now

theorem bounded_initialSweep : ∀ s, some Sweep.initial = some s → s.Bounded := by
  rintro s ⟨⟩
  exact Sweep.bounded_of_shadow_lt (by decide)

theorem frameLength_pos : 0 < frameLength := by decide

theorem bounded_initial (depth : Nat) : (initial depth).Bounded := by
  unfold initial
  exact {
    square1 := Square.bounded_initial bounded_initialSweep
    square2 := Square.bounded_initial nofun
    wave := Wave.bounded_initial _
    noise := Noise.bounded_initial
    leftVolume := Nat.zero_le 7
    rightVolume := Nat.zero_le 7
    position := frameLength_pos
    poweredAt := Nat.le_refl 0 }

namespace Bounded

variable {s : Sound} (h : s.Bounded)
include h

/-! ### Registers -/

theorem setSquare1 {square1 : Square} (hc : square1.Bounded) :
    Bounded { s with square1 } :=
  { h with square1 := hc }

theorem setSquare2 {square2 : Square} (hc : square2.Bounded) :
    Bounded { s with square2 } :=
  { h with square2 := hc }

theorem setWave {wave : Wave} (hc : wave.Bounded) : Bounded { s with wave } :=
  { h with wave := hc }

theorem setNoise {noise : Noise} (hc : noise.Bounded) : Bounded { s with noise } :=
  { h with noise := hc }

theorem setRegisters (registers : Memory 0x30) : Bounded { s with registers } := { h with }

theorem setMultiplier (multiplier : Nat) : (s.setMultiplier multiplier).Bounded := { h with }

theorem apply (addr : UInt16) (val : UInt8) : (s.apply addr val).Bounded := by
  unfold Sound.apply
  split
  · exact h.setSquare1 (h.square1.writeSweep val)
  · exact h.setSquare1 (h.square1.writeLength val)
  · exact h.setSquare1 (h.square1.setEnvelope (Envelope.bounded_write _ val))
  · exact h.setSquare1 (h.square1.setWaveform (h.square1.waveform.setLow val))
  · exact h.setSquare1 (h.square1.writeControl val)
  · exact h.setSquare2 (h.square2.writeLength val)
  · exact h.setSquare2 (h.square2.setEnvelope (Envelope.bounded_write _ val))
  · exact h.setSquare2 (h.square2.setWaveform (h.square2.waveform.setLow val))
  · exact h.setSquare2 (h.square2.writeControl val)
  · exact h.setWave { h.wave with }
  · exact h.setWave (h.wave.writeLength val)
  · exact h.setWave (h.wave.writeVolume val)
  · exact h.setWave { h.wave with waveform := h.wave.waveform.setLow val }
  · exact h.setWave (h.wave.writeControl val)
  · exact h.setNoise (h.noise.setLength (Nat.sub_le _ _))
  · exact h.setNoise (h.noise.setEnvelope (Envelope.bounded_write _ val))
  · exact h.setNoise (h.noise.writeFrequency val)
  · exact h.setNoise (h.noise.writeControl val)
  · exact { h with
      leftVolume := Nat.le_of_lt_succ (Nat.mod_lt _ (by decide))
      rightVolume := Nat.le_of_lt_succ (Nat.mod_lt _ (by decide)) }
  · exact { h with }
  · split
    · exact h.setWave (h.wave.writeTable _ val)
    · exact h

theorem powerOff : s.powerOff.Bounded := by
  unfold Sound.powerOff
  exact { h with
    square1 := Square.bounded_initial bounded_initialSweep
    square2 := Square.bounded_initial nofun
    wave := Wave.bounded_initial _
    noise := Noise.bounded_initial
    leftVolume := Nat.zero_le 7
    rightVolume := Nat.zero_le 7 }

theorem write (addr : UInt16) (val : UInt8) : (s.write addr val).Bounded := by
  unfold Sound.write
  split
  · exact h
  · split
    · unfold writePower powerOn
      dsimp only
      split
      · exact { h with poweredAt := Nat.le_refl s.now }
      · split
        · exact h.powerOff
        · exact h
    · split
      · exact h
      · exact (h.setRegisters _).apply addr val

/-! ### Ticks and samples -/

theorem told {now : Nat} (hnow : s.now ≤ now) : (s.told now).Bounded :=
  { h with
    noise := h.noise.update (now - s.poweredAt)
    poweredAt := Nat.le_trans h.poweredAt hnow }

theorem clockLengths : s.clockLengths.Bounded :=
  { h with
    square1 := h.square1.setLength (Nat.le_trans (LengthCounter.clock_le _) h.square1.length)
    square2 := h.square2.setLength (Nat.le_trans (LengthCounter.clock_le _) h.square2.length)
    wave := { h.wave with length := Nat.le_trans (LengthCounter.clock_le _) h.wave.length }
    noise := h.noise.setLength (Nat.le_trans (LengthCounter.clock_le _) h.noise.length) }

theorem clockEnvelopes : s.clockEnvelopes.Bounded :=
  { h with
    square1 := h.square1.setEnvelope h.square1.envelope.clock
    square2 := h.square2.setEnvelope h.square2.envelope.clock
    noise := h.noise.setEnvelope h.noise.envelope.clock }

theorem sequencerTick (tick : Nat) : (s.sequencerTick tick).Bounded := by
  unfold Sound.sequencerTick
  split
  · exact h
  · have hlengths : Bounded
        (if (sequencerEvents tick).length then s.clockLengths else s) := by
      split
      · exact h.clockLengths
      · exact h
    dsimp only
    generalize (if (sequencerEvents tick).length then s.clockLengths else s) = t at hlengths ⊢
    have henvelopes : Bounded
        (if (sequencerEvents tick).envelope then t.clockEnvelopes else t) := by
      split
      · exact hlengths.clockEnvelopes
      · exact hlengths
    split
    · exact henvelopes.setSquare1 henvelopes.square1.clockSweep
    · exact henvelopes

theorem computeSample : s.computeSample.Bounded := by
  unfold Sound.computeSample
  split
  · exact { h with
      square1 := h.square1.advance s.rendered
      square2 := h.square2.advance s.rendered
      wave := h.wave.advance s.rendered }
  · exact { h with }

theorem writeSample : s.writeSample.Bounded := by
  unfold Sound.writeSample
  dsimp only
  split
  · exact { h with position := frameLength_pos }
  · rename_i hspace
    exact { h with position := Nat.lt_of_not_le hspace }

/-- Everything in the course of an update is in range: after any of its ticks, and after any of
its samples. -/
theorem duringUpdate {now : Nat} (hnow : s.now ≤ now) (first ticks samples : Nat) :
    (((s.told now).sequencerTicks first ticks).sampleTicks samples).Bounded := by
  refine sampleTicks_invariant (fun _ ht => ht.computeSample) (fun _ ht => ht.writeSample)
    (fun _ _ ht => { ht with }) ?_ samples
  exact sequencerTicks_invariant (fun _ tick ht => ht.sequencerTick tick) (h.told hnow) first ticks

end Bounded

theorem bounded_of_reachable {s : Sound} (h : s.Reachable) : s.Bounded :=
  h.invariant bounded_initial (fun _ addr val hs => hs.write addr val)
    (fun _ multiplier hs => hs.setMultiplier multiplier)
    (fun _ _ hnow hs => hs.duringUpdate hnow _ _ _)

/-! ## What the ranges are for -/

def waveforms (s : Sound) : List Waveform :=
  [s.square1.waveform, s.square2.waveform, s.wave.waveform]

/-- A controller that can be played: waveform steps take time, and positions lie inside the eight
steps of a duty and the 32 samples of the table. -/
structure InRange (s : Sound) : Prop extends Bounded s where
  cycles : ∀ w ∈ s.waveforms, 0 < w.stepCycles 4 ∧ 0 < w.stepCycles 2
  dutyStep : ∀ w ∈ s.waveforms, w.position / 8192 < 8
  tableIndex : ∀ w ∈ s.waveforms, w.position / 2048 < 32

theorem Bounded.inRange {s : Sound} (h : s.Bounded) : s.InRange := by
  have hwaveforms : ∀ w ∈ s.waveforms, w.Bounded := by
    intro w hw
    simp only [waveforms, List.mem_cons, List.not_mem_nil, or_false] at hw
    rcases hw with rfl | rfl | rfl
    · exact h.square1.waveform
    · exact h.square2.waveform
    · exact h.wave.waveform
  refine { h with cycles := ?_, dutyStep := ?_, tableIndex := ?_ } <;> intro w hw
  · exact ⟨Nat.lt_of_lt_of_le (by decide) ((hwaveforms w hw).le_stepCycles 4),
      Nat.lt_of_lt_of_le (by decide) ((hwaveforms w hw).le_stepCycles 2)⟩
  · have := (hwaveforms w hw).position
    omega
  · have := (hwaveforms w hw).position
    omega

/-- Whatever is written to a controller, at whatever speed, and whenever it is told the time, all
its parts stay in their ranges, also in the course of an update. -/
theorem inRange_of_reachable {s : Sound} (h : s.Reachable) :
    s.InRange ∧ ∀ now ≥ s.now, ∀ first ticks samples,
      (((s.told now).sequencerTicks first ticks).sampleTicks samples).InRange := by
  have hbounded := bounded_of_reachable h
  exact ⟨hbounded.inRange, fun _ hnow first ticks samples =>
    (hbounded.duringUpdate hnow first ticks samples).inRange⟩

/-- A trigger whose sweep silences the channel at once, and then a new period. -/
def sweepOut : List Operation :=
  [.write 0xFF26 0x80, .update 0, .write 0xFF10 0x11, .write 0xFF12 0xF0, .write 0xFF13 0xFF,
    .write 0xFF14 0x87, .write 0xFF10 0x11]

/-- The silencing value is in the shadow, and the frequency stays the one that was written. -/
theorem inRange_sweepOut :
    ((initial 0).operate sweepOut).square1.sweep = some ⟨1, false, 1, 0, 2048⟩ ∧
      ((initial 0).operate sweepOut).square1.waveform.frequency = 2047 ∧
      ((initial 0).operate sweepOut).InRange :=
  ⟨by decide, by decide, (inRange_of_reachable ⟨0, sweepOut, by decide, rfl⟩).1⟩

end DotMatrix.Sound
