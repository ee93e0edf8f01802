import DotMatrix.Proofs.Sound.CatchUp

/-!
# Registers and the parts of a channel

What a register decodes to in an envelope, a sweep or a channel. Writing the register decodes the
new byte; clocks, triggers and samples leave what was decoded, but for the converter of the wave
channel, which a trigger switches on.
-/

namespace DotMatrix

namespace Sound

/-! ## Units -/

/-- What the envelope uses is what the byte says. -/
structure Envelope.Decoded (e : Envelope) (byte : UInt8) : Prop where
  start : e.start = byte.toNat / 16
  period : e.period = byte.toNat % 8
  rising : e.rising = anySet byte 0x08

namespace Envelope

theorem decoded_initial : initial.Decoded 0 := ⟨rfl, rfl, rfl⟩

theorem decoded_write (e : Envelope) (val : UInt8) : (e.write val).Decoded val := ⟨rfl, rfl, rfl⟩

namespace Decoded

variable {e : Envelope} {byte : UInt8} (h : e.Decoded byte)
include h

theorem trigger : e.trigger.Decoded byte := ⟨h.start, h.period, h.rising⟩

theorem clock : e.clock.Decoded byte := by
  -- the volume and the timer change at most
  unfold Envelope.clock
  split
  · exact h
  · split
    · exact ⟨h.start, h.period, h.rising⟩
    · exact ⟨h.start, h.period, h.rising⟩

end Decoded

end Envelope

structure Sweep.Decoded (s : Sweep) (byte : UInt8) : Prop where
  period : s.period = byte.toNat / 16 % 8
  falling : s.falling = anySet byte 0x08
  shift : s.shift = byte.toNat % 8

namespace Sweep

theorem decoded_initial : initial.Decoded 0 := ⟨rfl, rfl, rfl⟩

theorem decoded_write (s : Sweep) (val : UInt8) : (s.write val).Decoded val := ⟨rfl, rfl, rfl⟩

theorem Decoded.step {s : Sweep} {byte : UInt8} (h : s.Decoded byte) : s.step.Decoded byte := by
  unfold Sweep.step
  split
  · exact ⟨h.period, h.falling, h.shift⟩
  · exact ⟨h.period, h.falling, h.shift⟩

end Sweep

/-- The frequency that is written in two registers. -/
def frequencyOf (low high : UInt8) : Nat := high.toNat % 8 * 256 + low.toNat

namespace Waveform

theorem frequency_setFrequency (w : Waveform) (frequency : Nat) :
    (w.setFrequency frequency).frequency = frequency := by
  unfold setFrequency
  split
  · rename_i h
    exact h.symm
  · rfl

variable {w : Waveform} {low high : UInt8} (h : w.frequency = frequencyOf low high)
include h

theorem frequency_setLow (val : UInt8) : (w.setLow val).frequency = frequencyOf val high := by
  have := low.toNat_lt
  refine (w.frequency_setFrequency _).trans ?_
  rw [h]
  unfold frequencyOf
  omega

theorem frequency_setHigh (val : UInt8) : (w.setHigh val).frequency = frequencyOf low val := by
  have := low.toNat_lt
  refine (w.frequency_setFrequency _).trans ?_
  rw [h]
  unfold frequencyOf
  omega

end Waveform

/-! ## Square channels -/

/-- The frequency is left out: a sweep changes it, and its registers stay as they are. -/
structure Square.Decoded (c : Square) (length envelope control : UInt8) : Prop where
  duty : c.duty = length.toNat / 64
  lengthEnabled : c.length.enabled = anySet control 0x40
  envelope : c.envelope.Decoded envelope

/-- The channel has a sweep, and the sweep is as the byte says. -/
def Square.Sweeps (c : Square) (byte : UInt8) : Prop := ∃ s, c.sweep = some s ∧ s.Decoded byte

namespace Square

theorem decoded_initial (sweep : Option Sweep) : (initial sweep).Decoded 0 0 0 :=
  ⟨rfl, rfl, Envelope.decoded_initial⟩

namespace Decoded

variable {c : Square} {length envelope control : UInt8} (h : c.Decoded length envelope control)
include h

theorem writeLength (val : UInt8) : (c.writeLength val).Decoded val envelope control :=
  { h with duty := rfl }

theorem writeEnvelope (val : UInt8) :
    Decoded { c with envelope := c.envelope.write val } length val control :=
  { h with envelope := c.envelope.decoded_write val }

theorem clockEnvelope :
    Decoded { c with envelope := c.envelope.clock } length envelope control :=
  { h with envelope := h.envelope.clock }

theorem startSweep : c.startSweep.Decoded length envelope control := by
  unfold Square.startSweep
  split
  · exact h
  · dsimp only
    split
    · exact { h with }
    · exact { h with }

theorem clockSweep : c.clockSweep.Decoded length envelope control := by
  unfold Square.clockSweep
  split
  · exact h
  · split
    · exact h
    · split
      · exact { h with }
      · exact { h with }

/-- A trigger goes back to what the registers say and leaves that as it is. -/
theorem writeControl (val : UInt8) : (c.writeControl val).Decoded length envelope val := by
  unfold Square.writeControl
  dsimp only
  split
  · refine startSweep ?_
    exact ⟨h.duty, rfl, h.envelope.trigger⟩
  · exact { h with lengthEnabled := rfl }

end Decoded

namespace Sweeps

theorem writeSweep {c : Square} {byte : UInt8} (h : c.Sweeps byte) (val : UInt8) :
    Sweeps { c with sweep := c.sweep.map (·.write val) } val := by
  obtain ⟨s, hsweep, -⟩ := h
  exact ⟨s.write val, congrArg (Option.map (·.write val)) hsweep, s.decoded_write val⟩

variable {c : Square} {byte : UInt8} (h : c.Sweeps byte)
include h

theorem startSweep : c.startSweep.Sweeps byte := by
  obtain ⟨s, hsweep, hs⟩ := h
  unfold Square.startSweep
  rw [hsweep]
  have hstarted : Sweep.Decoded
      { s with shadow := c.waveform.frequency, timer := s.period } byte := { hs with }
  dsimp only
  split
  · exact ⟨_, rfl, hstarted.step⟩
  · exact ⟨_, rfl, hstarted⟩

theorem writeControl (val : UInt8) : (c.writeControl val).Sweeps byte := by
  unfold Square.writeControl
  dsimp only
  split
  · exact startSweep h
  · exact h

theorem clockSweep : c.clockSweep.Sweeps byte := by
  have hunclocked := h
  obtain ⟨s, hsweep, hs⟩ := h
  unfold Square.clockSweep
  rw [hsweep]
  dsimp only
  split
  · exact hunclocked
  · split
    · exact ⟨_, rfl, hs.step⟩
    · exact ⟨_, rfl, { hs with }⟩

end Sweeps

/-- Without a sweep, a trigger leaves the frequency that was written. -/
theorem frequency_writeControl {c : Square} (h : c.sweep = none) (val : UInt8) :
    (c.writeControl val).sweep = none ∧
      (c.writeControl val).waveform.frequency = (c.waveform.setHigh val).frequency := by
  unfold writeControl trigger startSweep
  dsimp only
  rw [h]
  split <;> exact ⟨rfl, rfl⟩

end Square

/-! ## Wave channel -/

/-- The converter is on if its register says so, or if the channel was triggered since. -/
structure Wave.Decoded (c : Wave) (triggered : Bool) (power volume low control : UInt8) :
    Prop where
  power : c.power = (anySet power 0x80 || triggered)
  shift : c.shift = (volume.toNat / 32 % 4 + 4) % 5
  frequency : c.waveform.frequency = frequencyOf low control
  lengthEnabled : c.length.enabled = anySet control 0x40

namespace Wave

theorem decoded_initial (table : Vector UInt8 32) : (initial table).Decoded false 0 0 0 0 :=
  ⟨rfl, rfl, rfl, rfl⟩

namespace Decoded

variable {c : Wave} {triggered : Bool} {power volume low control : UInt8}
  (h : c.Decoded triggered power volume low control)
include h

theorem writePower (val : UInt8) :
    Decoded { c with power := anySet val 0x80 } false val volume low control :=
  { h with power := (Bool.or_false _).symm }

theorem writeVolume (val : UInt8) :
    (c.writeVolume val).Decoded triggered power val low control :=
  { h with shift := rfl }

theorem writeLow (val : UInt8) :
    Decoded { c with waveform := c.waveform.setLow val } triggered power volume val control :=
  { h with frequency := Waveform.frequency_setLow h.frequency val }

theorem writeControl (val : UInt8) :
    (c.writeControl val).Decoded (triggered || anySet val 0x80) power volume low val := by
  have hfrequency := Waveform.frequency_setHigh h.frequency val
  unfold Wave.writeControl
  dsimp only
  split
  · rename_i htrigger
    refine ⟨?_, h.shift, hfrequency, rfl⟩
    rw [htrigger, Bool.or_true, Bool.or_true]
  · rename_i htrigger
    have hnone : anySet val 0x80 = false := by simpa using htrigger
    refine ⟨?_, h.shift, hfrequency, rfl⟩
    rw [hnone, Bool.or_false]
    exact h.power

theorem writeTable (pos : Nat) (val : UInt8) :
    (c.writeTable pos val).Decoded triggered power volume low control :=
  { h with }

theorem advance (sample : Nat) : (c.advance sample).Decoded triggered power volume low control :=
  { h with frequency := (c.waveform.frequency_advance _ _ _).trans h.frequency }

end Decoded

end Wave

/-- A byte of the table is two samples, and the others stay. -/
theorem Wave.table_writeTable {c : Wave} {pos i : Nat} (hpos : pos < 16) (hi : i < 16)
    {byte : UInt8} (hfirst : c.table[2 * i]? = some (byte >>> 4))
    (hsecond : c.table[2 * i + 1]? = some (byte &&& 0x0F)) (val : UInt8) :
    (c.writeTable pos val).table[2 * i]? = some ((if pos = i then val else byte) >>> 4) ∧
      (c.writeTable pos val).table[2 * i + 1]? =
        some ((if pos = i then val else byte) &&& 0x0F) := by
  have hmod : pos % 16 * 2 = 2 * pos := by
    rw [Nat.mod_eq_of_lt hpos, Nat.mul_comm]
  unfold writeTable
  dsimp only
  rw [hmod]
  simp only [Vector.getElem?_setIfInBounds]
  by_cases heq : pos = i
  · subst heq
    rw [if_pos rfl, if_neg (by omega), if_pos rfl, if_pos (by omega), if_pos rfl, if_pos (by omega)]
    exact ⟨rfl, rfl⟩
  · rw [if_neg (by omega), if_neg (by omega), if_neg (by omega), if_neg (by omega),
      if_neg (by omega)]
    exact ⟨hfirst, hsecond⟩

/-! ## Noise channel -/

structure Noise.Decoded (c : Noise) (envelope frequency control : UInt8) : Prop where
  envelope : c.envelope.Decoded envelope
  width : c.width = if anySet frequency 0x08 then 6 else 14
  lengthEnabled : c.length.enabled = anySet control 0x40

namespace Noise

theorem decoded_initial : initial.Decoded 0 0 0 := ⟨Envelope.decoded_initial, rfl, rfl⟩

namespace Decoded

variable {c : Noise} {envelope frequency control : UInt8}
  (h : c.Decoded envelope frequency control)
include h

theorem writeEnvelope (val : UInt8) :
    Decoded { c with envelope := c.envelope.write val } val frequency control :=
  { h with envelope := c.envelope.decoded_write val }

theorem writeFrequency (val : UInt8) : (c.writeFrequency val).Decoded envelope val control :=
  { h with width := rfl }

theorem writeControl (val : UInt8) : (c.writeControl val).Decoded envelope frequency val := by
  unfold Noise.writeControl
  dsimp only
  split
  · exact ⟨h.envelope.trigger, h.width, rfl⟩
  · exact { h with lengthEnabled := rfl }

theorem stepMany (n : Nat) : (c.stepMany n).Decoded envelope frequency control := by
  induction n generalizing c with
  | zero => exact h
  | succ n ih => exact ih (c := c.step) { h with }

theorem update (clock : Nat) : (c.update clock).Decoded envelope frequency control := by
  unfold Noise.update
  split
  · exact h
  · rename_i steps _
    exact stepMany (c := { c with steps := some (steps.update clock).2 }) { h with } _

end Decoded

end Noise

end Sound

end DotMatrix
