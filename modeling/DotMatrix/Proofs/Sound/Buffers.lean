import DotMatrix.Sound
import Mathlib.Logic.Basic

/-!
# Controllers that differ in what becomes of their samples

The host sets the speed at which samples are written, and it takes the frames that they fill.
`generator` leaves this part of a sound controller out. Every operation does to the generator what
it would do without that part, so two controllers with the same generator (`Alike`) read the same
and compute the same samples.
-/

namespace DotMatrix.Sound

/-- The controller without the way of its samples to the consumer: the frame that they fill, the
queue that it goes to, and the pace at which they are written. -/
def generator (s : Sound) : Sound :=
  { s with
    pace := .ofMultiplier 0
    frame := .silent 0
    position := 0
    frameNumber := 0
    queue := .empty 0 }

def Alike (s t : Sound) : Prop := t.generator = s.generator

/-! ## Registers -/

theorem generator_apply (s : Sound) (addr : UInt16) (val : UInt8) :
    (s.apply addr val).generator = s.generator.apply addr val := by
  unfold Sound.apply
  split
  all_goals first
    | rfl
    | split <;> rfl

theorem generator_writePower (s : Sound) (val : UInt8) :
    (s.writePower val).generator = (s.generator.writePower val).generator := by
  unfold writePower
  rw [show s.generator.powered = s.powered from rfl]
  dsimp only
  split
  · rfl
  · split <;> rfl

theorem generator_write (s : Sound) (addr : UInt16) (val : UInt8) :
    (s.write addr val).generator = (s.generator.write addr val).generator := by
  unfold Sound.write
  rw [show s.generator.powered = s.powered from rfl]
  split
  · rfl
  · split
    · exact generator_writePower s val
    · split
      · rfl
      · rw [generator_apply, generator_apply]
        rfl

/-! ## Samples -/

theorem generator_computeSample (s : Sound) :
    s.computeSample.generator = s.generator.computeSample := by
  unfold computeSample
  rw [show s.generator.powered = s.powered from rfl]
  split <;> rfl

theorem generator_writeSample (s : Sound) : s.writeSample.generator = s.generator := by
  unfold writeSample
  dsimp only
  split <;> rfl

theorem generator_repeatSample (s : Sound) : s.repeatSample.generator = s.generator := by
  induction s using repeatSample.induct with
  | case1 s hlag t ih =>
    rw [repeatSample, dif_pos hlag]
    exact ih.trans (generator_writeSample s)
  | case2 s hdone => rw [repeatSample, dif_neg hdone]

theorem generator_skipSample (s : Sound) :
    s.skipSample.generator = s.generator.computeSample := by
  rw [← generator_computeSample]
  unfold skipSample
  dsimp only
  split
  · rfl
  · exact generator_writeSample _

/-- Whatever the pace, a tick of the sampler computes one sample. -/
theorem generator_sampleTick (s : Sound) :
    s.sampleTick.generator = s.generator.computeSample := by
  unfold sampleTick
  -- normal, slower and faster; what is written how often differs
  split
  · rw [generator_writeSample, generator_computeSample]
  · split
    · show s.repeatSample.computeSample.generator = _
      rw [generator_computeSample, generator_repeatSample]
    · exact generator_skipSample s

/-- The samples that the next ticks compute, in order. -/
def samples (s : Sound) : Nat → List StereoSample
  | 0 => []
  | n + 1 => s.sampleTick.last :: samples s.sampleTick n

theorem rendered_sampleTick (s : Sound) : s.sampleTick.rendered = s.rendered + 1 := by
  have hrendered := congrArg Sound.rendered (generator_sampleTick s)
  refine hrendered.trans ?_
  unfold computeSample
  split <;> rfl

theorem Alike.sampleTick {s t : Sound} (h : s.Alike t) : s.sampleTick.Alike t.sampleTick := by
  unfold Alike at *
  rw [generator_sampleTick, generator_sampleTick, h]

theorem Alike.sampleTicks {s t : Sound} (h : s.Alike t) (n : Nat) :
    (s.sampleTicks n).Alike (t.sampleTicks n) ∧ t.samples n = s.samples n := by
  induction n generalizing s t with
  | zero => exact ⟨h, rfl⟩
  | succ n ih =>
    obtain ⟨halike, hsamples⟩ := ih h.sampleTick
    have hgenerator : t.sampleTick.generator = s.sampleTick.generator := h.sampleTick
    have hlast : t.sampleTick.generator.last = s.sampleTick.generator.last := by rw [hgenerator]
    exact ⟨halike, congrArg₂ List.cons hlast hsamples⟩

/-! ## Time -/

theorem generator_sequencerTick (s : Sound) (tick : Nat) :
    (s.sequencerTick tick).generator = s.generator.sequencerTick tick := by
  unfold sequencerTick
  rw [show s.generator.powered = s.powered from rfl]
  split
  · rfl
  · dsimp only
    split <;> split <;> split <;> rfl

theorem rendered_sequencerTick (s : Sound) (tick : Nat) :
    (s.sequencerTick tick).rendered = s.rendered := by
  unfold sequencerTick
  split
  · rfl
  · dsimp only
    split <;> split <;> split <;> rfl

theorem generator_sequencerTicks (s : Sound) (first n : Nat) :
    (s.sequencerTicks first n).generator = s.generator.sequencerTicks first n := by
  induction n generalizing s first with
  | zero => rfl
  | succ n ih =>
    unfold sequencerTicks
    rw [ih, generator_sequencerTick]

/-- The controller that has been told the time and has yet to compute the samples due. -/
def sequenced (s : Sound) (now : Nat) : Sound :=
  let clock := now - s.poweredAt
  let ticks := s.sequencer.update clock
  sequencerTicks
    { s with
      now
      sequencer := ticks.2
      sampler := (s.sampler.update clock).2
      noise := s.noise.update clock }
    ticks.1.first ticks.1.count

/-- The number of samples that are due when the controller is told the time. -/
def due (s : Sound) (now : Nat) : Nat := (s.sampler.update (now - s.poweredAt)).1.count

/-- The samples that the controller computes when it is told the time, in order. -/
def computed (s : Sound) (now : Nat) : List StereoSample := (s.sequenced now).samples (s.due now)

theorem update_eq (s : Sound) (now : Nat) :
    s.update now = (s.sequenced now).sampleTicks (s.due now) := rfl

/-- The samples computed are all that are counted. -/
theorem rendered_update (s : Sound) (now : Nat) :
    (s.update now).rendered = s.rendered + (s.computed now).length := by
  have hsequencer : ∀ (s : Sound) first n, (s.sequencerTicks first n).rendered = s.rendered := by
    intro s first n
    induction n generalizing s first with
    | zero => rfl
    | succ n ih => exact (ih _ _).trans (rendered_sequencerTick s first)
  have hsampler : ∀ (s : Sound) n,
      (s.sampleTicks n).rendered = s.rendered + (s.samples n).length := by
    intro s n
    induction n generalizing s with
    | zero => rfl
    | succ n ih =>
      refine (ih s.sampleTick).trans ?_
      rw [rendered_sampleTick, samples, List.length_cons]
      omega
  rw [update_eq]
  refine (hsampler _ _).trans ?_
  exact congrArg (· + (s.computed now).length) (hsequencer _ _ _)

theorem generator_sequenced (s : Sound) (now : Nat) :
    (s.sequenced now).generator = s.generator.sequenced now :=
  generator_sequencerTicks _ _ _

namespace Alike

variable {s t : Sound}

theorem refl (s : Sound) : s.Alike s := rfl

theorem symm (h : s.Alike t) : t.Alike s := Eq.symm h

theorem trans {u : Sound} (h : s.Alike t) (h' : t.Alike u) : s.Alike u := Eq.trans h' h

/-- Alike controllers are the same but for what becomes of their samples. -/
theorem eq (h : s.Alike t) :
    t = { s with
      pace := t.pace
      frame := t.frame
      position := t.position
      frameNumber := t.frameNumber
      queue := t.queue } := by
  have hgenerator : t.generator = s.generator := h
  calc
    t = { t.generator with
          pace := t.pace
          frame := t.frame
          position := t.position
          frameNumber := t.frameNumber
          queue := t.queue } := rfl
    _ = { s.generator with
          pace := t.pace
          frame := t.frame
          position := t.position
          frameNumber := t.frameNumber
          queue := t.queue } := by rw [hgenerator]
    _ = _ := rfl

/-- The host sets the speed. -/
theorem setMultiplier (s : Sound) (multiplier : Nat) : s.Alike (s.setMultiplier multiplier) := rfl

/-- The host takes frames and gives back buffers. -/
theorem setQueue (s : Sound) (queue : FrameQueue AudioFrame) : s.Alike { s with queue } := rfl

theorem read (h : s.Alike t) (addr : UInt16) : t.read addr = s.read addr := by
  have hgenerator : t.generator = s.generator := h
  show t.generator.read addr = s.generator.read addr
  rw [hgenerator]

theorem write (h : s.Alike t) (addr : UInt16) (val : UInt8) :
    (s.write addr val).Alike (t.write addr val) := by
  unfold Alike at *
  rw [generator_write, h, ← generator_write]

theorem update (h : s.Alike t) (now : Nat) :
    (s.update now).Alike (t.update now) ∧ t.computed now = s.computed now := by
  have hsequenced : (s.sequenced now).Alike (t.sequenced now) := by
    unfold Alike at *
    rw [generator_sequenced, generator_sequenced, h]
  have hgenerator : t.generator = s.generator := h
  have hdue : t.due now = s.due now := by
    show t.generator.due now = s.generator.due now
    rw [hgenerator]
  rw [update_eq, update_eq]
  unfold computed
  rw [hdue]
  exact hsequenced.sampleTicks (s.due now)

end Alike

end DotMatrix.Sound
