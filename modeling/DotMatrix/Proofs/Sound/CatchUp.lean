import DotMatrix.Proofs.Sound.Operations

/-!
# Catching up

The controller is told the time at moments that nobody chose for it, and makes up for the ticks
and samples since. An update does the noise first, then the ticks of the frame sequencer, then the
samples, so several short updates do them in another order than one long update. Sampling does not
touch what the sequencer works on (`score`), and the sequencer does not touch what is counted
(`SameTally`), so the order does not matter to either. The dividers see to it that no tick is lost
or done twice (`Divider.update_between`).
-/

namespace DotMatrix.Sound

/-! ## Dividers -/

def TickRun.numbers (r : TickRun) : List Nat := List.range' r.first r.count

namespace Divider

/-- The divider has named all ticks up to a clock. -/
def NamedUpTo (d : Divider) (clock : Nat) : Prop := d.last = some (d.tick clock)

variable {d : Divider} {now t later : Nat}

theorem tick_le (d : Divider) (h : now ≤ later) : d.tick now ≤ d.tick later :=
  Nat.div_le_div_right (Nat.mul_le_mul_right _ h)

theorem namedUpTo_update (d : Divider) (clock : Nat) : (d.update clock).2.NamedUpTo clock := rfl

theorem NamedUpTo.update (h : d.NamedUpTo now) (later : Nat) :
    (d.update later).1 = ⟨d.tick now + 1, d.tick later - d.tick now⟩ := by
  unfold Divider.update
  rw [show d.last = some (d.tick now) from h]
  simp only [Option.map_some, Option.getD_some, Nat.add_sub_add_right]

/-- A divider that is asked on the way names the same ticks in two runs. -/
theorem update_between (h : d.NamedUpTo now) (hnow : now ≤ t) (ht : t ≤ later) :
    ((d.update t).2.update later).2 = (d.update later).2 ∧
      (d.update later).1.first = (d.update t).1.first ∧
      ((d.update t).2.update later).1.first = (d.update t).1.first + (d.update t).1.count ∧
      (d.update later).1.count =
        (d.update t).1.count + ((d.update t).2.update later).1.count := by
  have hfirst := d.tick_le hnow
  have hsecond := d.tick_le ht
  have htick : ∀ clock, (d.update t).2.tick clock = d.tick clock := fun _ => rfl
  rw [h.update, h.update, (d.namedUpTo_update t).update]
  simp only [htick]
  exact ⟨rfl, trivial, by omega, by omega⟩

/-- The ticks named so far are all up to the present one, and stay so. -/
theorem NamedUpTo.range_append (h : d.NamedUpTo now) (hnow : now ≤ later) :
    List.range (d.tick now + 1) ++ (d.update later).1.numbers = List.range (d.tick later + 1) := by
  have hle := d.tick_le hnow
  have hcount : d.tick later + 1 = d.tick now + 1 + (d.tick later - d.tick now) := by omega
  have hrange := @List.range'_append_1 0 (d.tick now + 1) (d.tick later - d.tick now)
  rw [Nat.zero_add] at hrange
  rw [h.update, TickRun.numbers, hcount, List.range_eq_range', List.range_eq_range', hrange]

end Divider

/-! ## Noise -/

namespace Noise

theorem stepMany_add (c : Noise) (m n : Nat) :
    c.stepMany (m + n) = (c.stepMany m).stepMany n := by
  induction m generalizing c with
  | zero => rw [Nat.zero_add, stepMany]
  | succ m ih =>
    rw [Nat.succ_add, stepMany, stepMany]
    exact ih c.step

theorem stepMany_setSteps (c : Noise) (steps : Option Divider) (n : Nat) :
    stepMany { c with steps } n = { c.stepMany n with steps } := by
  induction n generalizing c with
  | zero => rfl
  | succ n ih => exact ih c.step

theorem stepMany_setUnits (c : Noise) (length : LengthCounter) (envelope : Envelope) (n : Nat) :
    stepMany { c with length, envelope } n = { c.stepMany n with length, envelope } := by
  induction n generalizing c with
  | zero => rfl
  | succ n ih => exact ih c.step

theorem update_of_none {c : Noise} (h : c.steps = none) (clock : Nat) : c.update clock = c := by
  unfold update
  rw [h]

theorem update_of_some {c : Noise} {steps : Divider} (h : c.steps = some steps) (clock : Nat) :
    c.update clock =
      { c.stepMany (steps.update clock).1.count with steps := some (steps.update clock).2 } := by
  unfold update
  rw [h]
  exact c.stepMany_setSteps _ _

/-- The register and the waveform do not depend on the length and the envelope. -/
theorem update_setUnits (c : Noise) (length : LengthCounter) (envelope : Envelope) (clock : Nat) :
    update { c with length, envelope } clock = { c.update clock with length, envelope } := by
  rcases c.steps.eq_none_or_eq_some with hsteps | ⟨steps, hsteps⟩
  · rw [update_of_none hsteps, update_of_none (c := { c with length, envelope }) hsteps]
  · rw [update_of_some hsteps, update_of_some (c := { c with length, envelope }) hsteps,
      stepMany_setUnits]

theorem units_update (c : Noise) (clock : Nat) :
    (c.update clock).length = c.length ∧ (c.update clock).envelope = c.envelope := by
  have hunits := c.update_setUnits c.length c.envelope clock
  have hlength := congrArg Noise.length hunits
  have henvelope := congrArg Noise.envelope hunits
  exact ⟨hlength, henvelope⟩

theorem update_clockLength (c : Noise) (clock : Nat) :
    update { c with length := c.length.clock } clock =
      { c.update clock with length := (c.update clock).length.clock } := by
  obtain ⟨hlength, henvelope⟩ := c.units_update clock
  have hunits := c.update_setUnits c.length.clock c.envelope clock
  rw [hlength]
  refine hunits.trans ?_
  rw [← henvelope]

theorem update_clockEnvelope (c : Noise) (clock : Nat) :
    update { c with envelope := c.envelope.clock } clock =
      { c.update clock with envelope := (c.update clock).envelope.clock } := by
  obtain ⟨hlength, henvelope⟩ := c.units_update clock
  have hunits := c.update_setUnits c.length c.envelope.clock clock
  rw [henvelope]
  refine hunits.trans ?_
  rw [← hlength]

/-- The noise is brought up to date in one go or in two. -/
theorem update_between (c : Noise) {now t later : Nat}
    (h : ∀ steps, c.steps = some steps → steps.NamedUpTo now) (hnow : now ≤ t) (ht : t ≤ later) :
    (c.update t).update later = c.update later := by
  cases hsteps : c.steps with
  | none => rw [update_of_none hsteps]
  | some steps =>
    obtain ⟨hdivider, -, -, hcount⟩ := Divider.update_between (h steps hsteps) hnow ht
    have hafter : (c.update t).steps = some (steps.update t).2 := by
      rw [update_of_some hsteps]
    rw [update_of_some hafter, update_of_some hsteps, update_of_some hsteps, hdivider, hcount,
      stepMany_setSteps, stepMany_add]

end Noise

/-! ## The clocks of a controller -/

/-- The dividers have named all ticks and samples up to the present time. -/
structure Settled (s : Sound) : Prop where
  sequencer : s.sequencer.NamedUpTo (s.now - s.poweredAt)
  sampler : s.sampler.NamedUpTo (s.now - s.poweredAt)
  noise : ∀ steps, s.noise.steps = some steps → steps.NamedUpTo (s.now - s.poweredAt)

/-- Two controllers with the same times and the same dividers of their own. -/
structure SameTimes (s t : Sound) : Prop where
  now : t.now = s.now
  poweredAt : t.poweredAt = s.poweredAt
  sequencer : t.sequencer = s.sequencer
  sampler : t.sampler = s.sampler

theorem SameTimes.refl (s : Sound) : s.SameTimes s := ⟨rfl, rfl, rfl, rfl⟩

theorem SameTimes.trans {s t u : Sound} (h : s.SameTimes t) (h' : t.SameTimes u) : s.SameTimes u :=
  ⟨h'.now.trans h.now, h'.poweredAt.trans h.poweredAt, h'.sequencer.trans h.sequencer,
    h'.sampler.trans h.sampler⟩

theorem SameTimes.settled {s t : Sound} (h : s.SameTimes t) (hs : s.Settled)
    (hnoise : t.noise.steps = s.noise.steps ∨ t.noise.steps = none) : t.Settled := by
  refine ⟨?_, ?_, ?_⟩
  · rw [h.sequencer, h.now, h.poweredAt]
    exact hs.sequencer
  · rw [h.sampler, h.now, h.poweredAt]
    exact hs.sampler
  · rw [h.now, h.poweredAt]
    rcases hnoise with hsame | hnone
    · rw [hsame]
      exact hs.noise
    · rw [hnone]
      exact nofun

/-- The steps of the noise are the same, too. -/
structure SameClocks (s t : Sound) : Prop where
  times : s.SameTimes t
  steps : t.noise.steps = s.noise.steps

theorem SameClocks.refl (s : Sound) : s.SameClocks s := ⟨.refl s, rfl⟩

theorem SameClocks.trans {s t u : Sound} (h : s.SameClocks t) (h' : t.SameClocks u) :
    s.SameClocks u :=
  ⟨h.times.trans h'.times, h'.steps.trans h.steps⟩

theorem sameClocks_sequencerTick (s : Sound) (tick : Nat) :
    s.SameClocks (s.sequencerTick tick) := by
  unfold sequencerTick
  split
  · exact .refl s
  · dsimp only
    split <;> split <;> split <;> exact ⟨⟨rfl, rfl, rfl, rfl⟩, rfl⟩

theorem sameClocks_computeSample (s : Sound) : s.SameClocks s.computeSample := by
  unfold computeSample
  split <;> exact ⟨⟨rfl, rfl, rfl, rfl⟩, rfl⟩

theorem sameClocks_writeSample (s : Sound) : s.SameClocks s.writeSample := by
  unfold writeSample
  dsimp only
  split <;> exact ⟨⟨rfl, rfl, rfl, rfl⟩, rfl⟩

theorem sameClocks_sequenced (s : Sound) (now : Nat) : (s.told now).SameClocks (s.sequenced now) :=
  sequencerTicks_invariant (fun t tick h => h.trans (t.sameClocks_sequencerTick tick)) (.refl _) _ _

theorem sameClocks_sampleTicks (s : Sound) (n : Nat) : s.SameClocks (s.sampleTicks n) :=
  sampleTicks_invariant (fun t h => h.trans t.sameClocks_computeSample)
    (fun t h => h.trans t.sameClocks_writeSample)
    (fun _ _ h => h.trans ⟨⟨rfl, rfl, rfl, rfl⟩, rfl⟩) (.refl s) n

theorem sameClocks_update (s : Sound) (now : Nat) : (s.told now).SameClocks (s.update now) :=
  (s.sameClocks_sequenced now).trans (sameClocks_sampleTicks _ _)

theorem settled_told (s : Sound) (now : Nat) : (s.told now).Settled := by
  refine ⟨rfl, rfl, fun steps hsteps => ?_⟩
  rcases s.noise.steps.eq_none_or_eq_some with hnone | ⟨before, hsome⟩
  · have hidle : (s.told now).noise = s.noise := Noise.update_of_none hnone _
    rw [hidle, hnone] at hsteps
    cases hsteps
  · have hafter : (s.told now).noise.steps = some (before.update (now - s.poweredAt)).2 := by
      show (s.noise.update _).steps = _
      rw [Noise.update_of_some hsome]
    obtain rfl := Option.some.inj (hafter.symm.trans hsteps)
    rfl

theorem settled_update (s : Sound) (now : Nat) : (s.update now).Settled :=
  have hclocks := s.sameClocks_update now
  hclocks.times.settled (s.settled_told now) (.inl hclocks.steps)

/-! ## The frame sequencer -/

theorem sequencerTicks_add (s : Sound) (first m n : Nat) :
    s.sequencerTicks first (m + n) =
      (s.sequencerTicks first m).sequencerTicks (first + m) n := by
  induction m generalizing s first with
  | zero =>
    rw [Nat.zero_add]
    rfl
  | succ m ih =>
    rw [Nat.succ_add, sequencerTicks, sequencerTicks, ih, Nat.add_right_comm]
    rfl

theorem told_clockLengths (s : Sound) (now : Nat) :
    s.clockLengths.told now = (s.told now).clockLengths := by
  unfold told clockLengths
  dsimp only
  rw [Noise.update_clockLength]

theorem told_clockEnvelopes (s : Sound) (now : Nat) :
    s.clockEnvelopes.told now = (s.told now).clockEnvelopes := by
  unfold told clockEnvelopes
  dsimp only
  rw [Noise.update_clockEnvelope]

theorem told_clockSweep (s : Sound) (now : Nat) :
    s.clockSweep.told now = (s.told now).clockSweep := rfl

/-- Ticks do not read the clocks, and setting the clocks does not touch what ticks work on. -/
theorem told_sequencerTick (s : Sound) (tick now : Nat) :
    (s.sequencerTick tick).told now = (s.told now).sequencerTick tick := by
  unfold sequencerTick
  rw [show (s.told now).powered = s.powered from rfl]
  split
  · rfl
  · dsimp only
    split <;> split <;> split <;>
      simp only [told_clockLengths, told_clockEnvelopes, told_clockSweep]

theorem told_sequencerTicks (s : Sound) (first n now : Nat) :
    (s.sequencerTicks first n).told now = (s.told now).sequencerTicks first n := by
  induction n generalizing s first with
  | zero => rfl
  | succ n ih =>
    rw [sequencerTicks, sequencerTicks, ih, told_sequencerTick]

theorem told_told {s : Sound} (h : s.Settled) {t later : Nat} (hnow : s.now ≤ t)
    (ht : t ≤ later) : (s.told t).told later = s.told later := by
  have hstart := Nat.sub_le_sub_right hnow s.poweredAt
  have hend := Nat.sub_le_sub_right ht s.poweredAt
  have hsequencer := (Divider.update_between h.sequencer hstart hend).1
  have hsampler := (Divider.update_between h.sampler hstart hend).1
  have hnoise := s.noise.update_between h.noise hstart hend
  unfold told
  dsimp only
  rw [hsequencer, hsampler, hnoise]

/-- The ticks of two updates are the ticks of one, so the order in which the clocks are set and
the ticks are done does not matter. -/
theorem sequenced_sequenced {s : Sound} (h : s.Settled) {t later : Nat} (hnow : s.now ≤ t)
    (ht : t ≤ later) : (s.sequenced t).sequenced later = s.sequenced later := by
  have hstart := Nat.sub_le_sub_right hnow s.poweredAt
  have hend := Nat.sub_le_sub_right ht s.poweredAt
  obtain ⟨-, hfirst, hnext, hcount⟩ := Divider.update_between h.sequencer hstart hend
  have hticks : (s.sequenced t).ticksDue later = (s.told t).ticksDue later := by
    have htimes := (s.sameClocks_sequenced t).times
    unfold ticksDue
    rw [htimes.sequencer, htimes.poweredAt]
  have htold : (s.sequenced t).told later =
      (s.told later).sequencerTicks (s.ticksDue t).first (s.ticksDue t).count := by
    rw [sequenced_eq, told_sequencerTicks, told_told h hnow ht]
  have hfirst' : (s.ticksDue later).first = (s.ticksDue t).first := hfirst
  have hnext' : ((s.told t).ticksDue later).first =
      (s.ticksDue t).first + (s.ticksDue t).count := hnext
  have hcount' : (s.ticksDue later).count =
      (s.ticksDue t).count + ((s.told t).ticksDue later).count := hcount
  rw [sequenced_eq (s.sequenced t), sequenced_eq s later, htold, hticks, hfirst', hnext', hcount',
    sequencerTicks_add]

/-! ## What the sequencer works on -/

/-- A square channel as it is when it has not been played. -/
def Square.still (c : Square) : Square := { c with waveform := ⟨c.waveform.frequency, 0, none⟩ }

def Wave.still (c : Wave) : Wave := { c with waveform := ⟨c.waveform.frequency, 0, none⟩ }

/-- The controller without what sampling changes. -/
def score (s : Sound) : Sound :=
  { s.generator with
    square1 := s.square1.still
    square2 := s.square2.still
    wave := s.wave.still
    leftFilter := .initial
    rightFilter := .initial
    rendered := 0
    last := .silence }

theorem Square.still_applySweep (c : Square) (sweep : Sweep) :
    (c.applySweep sweep).still = c.still.applySweep sweep := by
  unfold Square.still Square.applySweep Waveform.setFrequency
  dsimp only
  split <;> rfl

theorem Square.still_clockSweep (c : Square) : c.clockSweep.still = c.still.clockSweep := by
  unfold Square.clockSweep
  rw [show c.still.sweep = c.sweep from rfl]
  split
  · rfl
  · split
    · rfl
    · split
      · exact c.still_applySweep _
      · rfl

theorem score_clockSweep (s : Sound) : s.clockSweep.score = s.score.clockSweep := by
  unfold clockSweep score
  dsimp only
  rw [Square.still_clockSweep]
  rfl

theorem score_sequencerTick (s : Sound) (tick : Nat) :
    (s.sequencerTick tick).score = s.score.sequencerTick tick := by
  have hlengths : ∀ t : Sound, t.clockLengths.score = t.score.clockLengths := fun _ => rfl
  have henvelopes : ∀ t : Sound, t.clockEnvelopes.score = t.score.clockEnvelopes := fun _ => rfl
  unfold sequencerTick
  rw [show s.score.powered = s.powered from rfl]
  split
  · rfl
  · dsimp only
    split <;> split <;> split <;> simp only [score_clockSweep, hlengths, henvelopes]

theorem score_sequencerTicks (s : Sound) (first n : Nat) :
    (s.sequencerTicks first n).score = s.score.sequencerTicks first n := by
  induction n generalizing s first with
  | zero => rfl
  | succ n ih =>
    rw [sequencerTicks, sequencerTicks, ih, score_sequencerTick]

theorem score_sequenced (s : Sound) (now : Nat) :
    (s.sequenced now).score = s.score.sequenced now :=
  score_sequencerTicks _ _ _

theorem Waveform.frequency_advance (w : Waveform) (sample cycles width : Nat) :
    (w.advance sample cycles width).frequency = w.frequency := by
  unfold Waveform.advance
  split <;> rfl

theorem score_advanceChannels (s : Sound) : s.advanceChannels.score = s.score := by
  unfold advanceChannels score Square.advance Wave.advance Square.still Wave.still
  simp only [Waveform.frequency_advance]
  rfl

theorem score_computeSample (s : Sound) : s.computeSample.score = s.score := by
  unfold computeSample
  split
  -- the mixer changes its filters, and only the sample is taken from it
  · exact s.score_advanceChannels
  · rfl

theorem score_writeSample (s : Sound) : s.writeSample.score = s.score := by
  unfold writeSample
  dsimp only
  split <;> rfl

/-- Samples leave what the sequencer works on as it is. -/
theorem score_sampleTicks (s : Sound) (n : Nat) : (s.sampleTicks n).score = s.score :=
  sampleTicks_invariant (P := fun t => t.score = s.score)
    (fun t h => (score_computeSample t).trans h) (fun t h => (score_writeSample t).trans h)
    (fun _ _ h => h) rfl n

theorem score_update (s : Sound) (now : Nat) : (s.update now).score = s.score.sequenced now := by
  rw [update_eq, score_sampleTicks, score_sequenced]

/-! ## What is counted -/

theorem repeatSample_of_lag {s : Sound}
    (h : s.pace.written ≤ s.pace.computed ∧ 0 < s.pace.multiplier) :
    s.repeatSample = repeatSample { s.writeSample with
      pace := { s.writeSample.pace with written := s.pace.written + s.pace.multiplier } } := by
  rw [repeatSample, dif_pos h]

theorem repeatSample_of_done {s : Sound}
    (h : ¬(s.pace.written ≤ s.pace.computed ∧ 0 < s.pace.multiplier)) : s.repeatSample = s := by
  rw [repeatSample, dif_neg h]

/-- The two controllers have computed and written as many samples. -/
structure SameTally (s t : Sound) : Prop where
  pace : t.pace = s.pace
  rendered : t.rendered = s.rendered
  position : t.position = s.position
  frameNumber : t.frameNumber = s.frameNumber

namespace SameTally

variable {s t : Sound}

theorem refl (s : Sound) : s.SameTally s := ⟨rfl, rfl, rfl, rfl⟩

theorem symm (h : s.SameTally t) : t.SameTally s :=
  ⟨h.pace.symm, h.rendered.symm, h.position.symm, h.frameNumber.symm⟩

theorem trans {u : Sound} (h : s.SameTally t) (h' : t.SameTally u) : s.SameTally u :=
  ⟨h'.pace.trans h.pace, h'.rendered.trans h.rendered, h'.position.trans h.position,
    h'.frameNumber.trans h.frameNumber⟩

theorem computeSample (h : s.SameTally t) : s.computeSample.SameTally t.computeSample := by
  have hcount : ∀ u : Sound, SameTally { u with rendered := u.rendered + 1 } u.computeSample := by
    intro u
    unfold Sound.computeSample
    split <;> exact ⟨rfl, rfl, rfl, rfl⟩
  refine (hcount s).symm.trans (SameTally.trans ?_ (hcount t))
  exact ⟨h.pace, congrArg (· + 1) h.rendered, h.position, h.frameNumber⟩

theorem setPace (h : s.SameTally t) (pace : Pace) :
    SameTally { s with pace } { t with pace } :=
  ⟨rfl, h.rendered, h.position, h.frameNumber⟩

theorem writeSample (h : s.SameTally t) : s.writeSample.SameTally t.writeSample := by
  unfold Sound.writeSample
  dsimp only
  rw [h.position]
  split
  · exact ⟨h.pace, h.rendered, rfl, congrArg (· + 1) h.frameNumber⟩
  · exact ⟨h.pace, h.rendered, rfl, h.frameNumber⟩

/-- How often a sample is repeated depends on the pace alone. -/
theorem repeatSample (h : s.SameTally t) : s.repeatSample.SameTally t.repeatSample := by
  induction s using Sound.repeatSample.induct generalizing t with
  | case1 s hlag =>
    rename_i ih
    have hlag' : t.pace.written ≤ t.pace.computed ∧ 0 < t.pace.multiplier := by
      rw [h.pace]
      exact hlag
    rw [repeatSample_of_lag hlag, repeatSample_of_lag hlag', h.writeSample.pace, h.pace]
    exact ih (h.writeSample.setPace _)
  | case2 s hdone =>
    have hdone' : ¬(t.pace.written ≤ t.pace.computed ∧ 0 < t.pace.multiplier) := by
      rw [h.pace]
      exact hdone
    rw [repeatSample_of_done hdone, repeatSample_of_done hdone']
    exact h

theorem sampleTick (h : s.SameTally t) : s.sampleTick.SameTally t.sampleTick := by
  unfold Sound.sampleTick
  rw [h.pace]
  split
  · exact h.computeSample.writeSample
  · split
    · have hrepeated := h.repeatSample.computeSample
      dsimp only
      rw [hrepeated.pace]
      exact hrepeated.setPace _
    · have hcomputed := h.computeSample
      unfold Sound.skipSample
      dsimp only
      rw [hcomputed.pace, h.pace]
      split
      · exact hcomputed.setPace _
      · have hwritten := (hcomputed.setPace { s.computeSample.pace with
          computed := s.computeSample.pace.computed + Pace.unit }).writeSample
        rw [hwritten.pace]
        exact hwritten.setPace _

theorem sampleTicks (h : s.SameTally t) (n : Nat) :
    (s.sampleTicks n).SameTally (t.sampleTicks n) := by
  induction n generalizing s t with
  | zero => exact h
  | succ n ih => exact ih h.sampleTick

end SameTally

theorem sameTally_sequencerTick (s : Sound) (tick : Nat) : s.SameTally (s.sequencerTick tick) := by
  unfold sequencerTick
  split
  · exact .refl s
  · dsimp only
    split <;> split <;> split <;> exact ⟨rfl, rfl, rfl, rfl⟩

theorem sameTally_sequenced (s : Sound) (now : Nat) : s.SameTally (s.sequenced now) :=
  sequencerTicks_invariant (fun t tick h => h.trans (t.sameTally_sequencerTick tick))
    ⟨rfl, rfl, rfl, rfl⟩ _ _

/-- An update counts what is due, whatever the sequencer does before. -/
theorem sameTally_update (s : Sound) (now : Nat) :
    (s.sampleTicks (s.due now)).SameTally (s.update now) :=
  (s.sameTally_sequenced now).sampleTicks _

theorem sampleTicks_add (s : Sound) (m n : Nat) :
    s.sampleTicks (m + n) = (s.sampleTicks m).sampleTicks n := by
  induction m generalizing s with
  | zero =>
    rw [Nat.zero_add]
    rfl
  | succ m ih =>
    rw [Nat.succ_add, sampleTicks, sampleTicks, ih]

theorem due_update {s : Sound} (h : s.Settled) {t later : Nat} (hnow : s.now ≤ t)
    (ht : t ≤ later) : s.due later = s.due t + (s.update t).due later := by
  have htimes := (s.sameClocks_update t).times
  obtain ⟨-, -, -, hcount⟩ := Divider.update_between h.sampler
    (Nat.sub_le_sub_right hnow s.poweredAt) (Nat.sub_le_sub_right ht s.poweredAt)
  unfold due
  rw [htimes.sampler, htimes.poweredAt]
  exact hcount

/-! ## Updates on the way -/

/-- Two controllers that differ at most in what their samples sound like. -/
structure Concurs (s t : Sound) : Prop where
  score : t.score = s.score
  tally : s.SameTally t

theorem Concurs.trans {s t u : Sound} (h : s.Concurs t) (h' : t.Concurs u) : s.Concurs u :=
  ⟨h'.score.trans h.score, h.tally.trans h'.tally⟩

/-- An update on the way changes nothing but what the samples sound like. -/
theorem concurs_update_update {s : Sound} (h : s.Settled) {t later : Nat} (hnow : s.now ≤ t)
    (ht : t ≤ later) : (s.update later).Concurs ((s.update t).update later) := by
  have hscore : s.score.Settled := ⟨h.sequencer, h.sampler, h.noise⟩
  refine ⟨?_, ?_⟩
  · rw [score_update, score_update, score_update]
    exact sequenced_sequenced hscore hnow ht
  · have hfirst := (s.sameTally_update t).sampleTicks ((s.update t).due later)
    rw [← sampleTicks_add, ← due_update h hnow ht] at hfirst
    exact (s.sameTally_update later).symm.trans
      (hfirst.trans ((s.update t).sameTally_update later))

theorem le_of_inOrder {now last : Nat} {times : List Nat}
    (h : InOrder now ((times ++ [last]).map .update)) : now ≤ last := by
  induction times generalizing now with
  | nil => exact h.1
  | cons t times ih => exact Nat.le_trans h.1 (ih h.2)

/-- Any number of updates on the way. -/
theorem concurs_operate {s : Sound} (h : s.Settled) {times : List Nat} {last : Nat}
    (horder : InOrder s.now ((times ++ [last]).map .update)) :
    (s.update last).Concurs (s.operate ((times ++ [last]).map .update)) := by
  induction times generalizing s with
  | nil => exact ⟨rfl, .refl _⟩
  | cons t times ih =>
    have hrest : InOrder (s.update t).now ((times ++ [last]).map .update) :=
      (now_update s t).symm ▸ horder.2
    exact (concurs_update_update h horder.1 (le_of_inOrder horder.2)).trans
      (ih (s.settled_update t) hrest)

end DotMatrix.Sound
