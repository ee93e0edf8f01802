import DotMatrix.Proofs.Sound.Bounds
import DotMatrix.Proofs.Sound.HighPass
import DotMatrix.Proofs.Sound.Registers
import Mathlib.Algebra.Order.Group.Abs
import Mathlib.Algebra.Order.Group.Unbundled.Int

/-!
# The numbers of the mixer

Four channels of sixteen bits are added up, filtered and scaled in numbers of 32 bits. That no
number on the way is too large rests on what the controller keeps in range: volumes and the levels
of the sample table have four bits (`Wave.Nibbles`), a side's volume has three, and the state of a
filter stays in its interval, since the inputs are a quarter of a sum of four channels
(`Mixed.computeSample`). So the limits of a sample are the only place where a number is cut.
-/

namespace DotMatrix.Sound

/-! ## Channels -/

theorem Envelope.abs_sample_le {e : Envelope} (h : e.volume ≤ 15) (high : Bool) :
    |e.sample high| ≤ peak := by
  have hlevel : Int.tdiv (e.volume * peak) 15 = e.volume * peak / 15 :=
    Int.tdiv_eq_ediv_of_nonneg (by unfold peak; omega)
  have hlo : 0 ≤ e.volume * peak / 15 := by
    unfold peak
    omega
  have hhi : e.volume * peak / 15 ≤ peak := by
    unfold peak
    omega
  unfold Envelope.sample
  rw [hlevel]
  -- the wave is as high above zero as it is low below
  split
  · rwa [abs_of_nonneg hlo]
  · rwa [abs_neg, abs_of_nonneg hlo]

theorem Square.abs_sample_le {c : Square} (h : c.envelope.volume ≤ 15) : |c.sample| ≤ peak := by
  unfold Square.sample
  split
  · exact Envelope.abs_sample_le h _
  · decide

theorem Noise.abs_sample_le {c : Noise} (h : c.envelope.volume ≤ 15) : |c.sample| ≤ peak := by
  unfold Noise.sample
  split
  · exact Envelope.abs_sample_le h _
  · decide

/-- The levels in the sample table have four bits. -/
def Wave.Nibbles (c : Wave) : Prop := ∀ i : Nat, (c.table[i]?.getD 0).toNat ≤ 15

theorem Wave.nibbles_initial : (initial (Vector.replicate _ 0)).Nibbles := by
  intro i
  by_cases hi : i < 32
  · simp [initial, hi]
  · simp [initial, Nat.not_lt.1 hi]

theorem Wave.Nibbles.writeTable {c : Wave} (h : c.Nibbles) (pos : Nat) (val : UInt8) :
    (c.writeTable pos val).Nibbles := by
  have hupper : (val >>> 4).toNat ≤ 15 := by
    have hval := val.toNat_lt
    rw [UInt8.toNat_shiftRight]
    show val.toNat >>> 4 ≤ 15
    omega
  have hlower : (val &&& 0x0F).toNat ≤ 15 := by
    rw [UInt8.toNat_and]
    exact Nat.and_le_right
  intro i
  unfold Wave.writeTable
  dsimp only
  simp only [Vector.getElem?_setIfInBounds]
  split
  · split
    · exact hlower
    · exact Nat.zero_le 15
  · split
    · split
      · exact hupper
      · exact Nat.zero_le 15
    · exact h i

theorem Wave.Nibbles.abs_sample_le {c : Wave} (h : c.Nibbles) : |c.sample| ≤ peak := by
  unfold Wave.sample
  split
  · have hlevel := Nat.le_trans (Nat.shiftRight_le _ c.shift) (h (c.waveform.position / 2048))
    dsimp only
    generalize (c.table[c.waveform.position / 2048]?.getD 0).toNat >>> c.shift = level at hlevel
    rw [Int.tdiv_eq_ediv_of_nonneg (by unfold peak; omega), abs_le]
    unfold peak
    omega
  · decide

/-- Whichever channels a side lets through, its sum is that of four channels at most. -/
theorem ChannelSamples.abs_sum_le {samples : ChannelSamples} (hsquare1 : |samples.square1| ≤ peak)
    (hsquare2 : |samples.square2| ≤ peak) (hwave : |samples.wave| ≤ peak)
    (hnoise : |samples.noise| ≤ peak) (panning : UInt8) : |samples.sum panning| ≤ 4 * peak := by
  -- what a channel adds is its sample or nothing
  have hlet : ∀ {x : Int}, |x| ≤ peak → ∀ bit : UInt8,
      -peak ≤ (if anySet panning bit then x else 0) ∧
        (if anySet panning bit then x else 0) ≤ peak := by
    intro x hx bit
    split
    · exact abs_le.1 hx
    · decide
  have h1 := hlet hsquare1 0x01
  have h2 := hlet hsquare2 0x02
  have h3 := hlet hwave 0x04
  have h4 := hlet hnoise 0x08
  unfold ChannelSamples.sum
  rw [abs_le]
  omega

theorem abs_quarter_le {x : Int} (h : |x| ≤ 4 * peak) : |Int.tdiv x 4| ≤ peak := by
  -- the quotient is rounded toward zero, so its size is that of the quotient of the sizes
  rw [Int.abs_eq_natAbs] at h ⊢
  rw [Int.natAbs_tdiv]
  unfold peak at h ⊢
  show ((x.natAbs / 4 : Nat) : Int) ≤ 32767
  omega

/-! ## Sides -/

/-- The numbers that 32 bits hold. -/
def FitsInt32 (x : Int) : Prop := -0x80000000 ≤ x ∧ x ≤ 0x7FFFFFFF

instance (x : Int) : Decidable (FitsInt32 x) := inferInstanceAs (Decidable (_ ∧ _))

theorem fitsInt32_of_abs_le {x : Int} (h : |x| ≤ 0x7FFFFFFF) : FitsInt32 x := by
  have hbounds := abs_le.1 h
  unfold FitsInt32
  omega

/-- A number that is cut to the limits of a sample is none other than the sample. -/
theorem toInt_clampSample (x : Int) : (clampSample x).toInt = max (-32768) (min peak x) := by
  unfold clampSample
  apply Int16.toInt_ofInt_of_le
  · omega
  · unfold peak
    omega

/-- One side of the mix in range. An input goes through the filter of the side, what comes out is
scaled by the volume, and the scaled number is cut to the limits of a sample. -/
structure SideInRange (f : HighPass) (volume : Nat) (input : Int) : Prop where
  within : |input| ≤ peak
  state : |f.state| ≤ 40000
  output : FitsInt32 (f.update input).1
  product : FitsInt32 ((f.update input).1 * (volume + 1))
  sample : (scale (f.update input).1 volume).toInt =
    max (-32768) (min peak (Int.tdiv ((f.update input).1 * (volume + 1)) 8))

theorem HighPass.InRange.side {f : HighPass} (h : f.InRange) {volume : Nat} (hvolume : volume ≤ 7)
    {input : Int} (hinput : |input| ≤ peak) : SideInRange f volume input := by
  have hlower := h.lower
  have hupper := h.upper
  have hout : |(f.update input).1| ≤ 0x10FFF := by
    obtain ⟨hlo, hhi⟩ := abs_le.1 hinput
    unfold peak at hlo hhi
    rw [update_eq, abs_le]
    dsimp only
    omega
  have hproduct : |(f.update input).1 * (volume + 1)| ≤ 0x10FFF * 8 := by
    rw [Int.abs_eq_natAbs] at hout ⊢
    rw [Int.natAbs_mul]
    have hfactor : ((volume : Int) + 1).natAbs ≤ 8 := by omega
    exact Int.ofNat_le.2 (Nat.mul_le_mul (Int.ofNat_le.1 hout) hfactor)
  exact {
    within := hinput
    state := abs_le.2 ⟨by omega, by omega⟩
    output := fitsInt32_of_abs_le (by omega)
    product := fitsInt32_of_abs_le (by omega)
    sample := toInt_clampSample _ }

/-! ## The mix -/

/-- What goes into the filter of the left side for the next sample. -/
def leftInput (s : Sound) : Int :=
  Int.tdiv (s.advanceChannels.channelSamples.sum (s.panning >>> 4)) 4

def rightInput (s : Sound) : Int :=
  Int.tdiv (s.advanceChannels.channelSamples.sum (s.panning &&& 0x0F)) 4

theorem computeSample_of_powered {s : Sound} (h : s.powered = true) :
    s.computeSample = { s.advanceChannels with
      leftFilter := (s.leftFilter.update s.leftInput).2
      rightFilter := (s.rightFilter.update s.rightInput).2
      last := ⟨scale (s.leftFilter.update s.leftInput).1 s.leftVolume,
        scale (s.rightFilter.update s.rightInput).1 s.rightVolume⟩
      rendered := s.rendered + 1 } := by
  unfold computeSample
  rw [if_pos h]
  rfl

/-- The next sample of a controller in range: the channels, whatever sum is made of them, so also
each sum on the way, and both sides, whose scaled outputs are the sample. -/
structure MixInRange (s : Sound) : Prop where
  square1 : |s.advanceChannels.square1.sample| ≤ peak
  square2 : |s.advanceChannels.square2.sample| ≤ peak
  wave : |s.advanceChannels.wave.sample| ≤ peak
  noise : |s.advanceChannels.noise.sample| ≤ peak
  sums : ∀ panning, FitsInt32 (s.advanceChannels.channelSamples.sum panning)
  left : SideInRange s.leftFilter s.leftVolume s.leftInput
  right : SideInRange s.rightFilter s.rightVolume s.rightInput
  last : s.powered = true → s.computeSample.last =
    ⟨scale (s.leftFilter.update s.leftInput).1 s.leftVolume,
      scale (s.rightFilter.update s.rightInput).1 s.rightVolume⟩

/-- What a controller keeps for its mixer, beside the ranges of its parts. -/
structure Mixed (s : Sound) : Prop where
  bounded : s.Bounded
  table : s.wave.Nibbles
  left : s.leftFilter.InRange
  right : s.rightFilter.InRange

theorem mixed_initial (depth : Nat) : (initial depth).Mixed :=
  ⟨bounded_initial depth, Wave.nibbles_initial, HighPass.inRange_initial, HighPass.inRange_initial⟩

/-- The sample table and the filters. -/
def mixer (s : Sound) : Vector UInt8 32 × HighPass × HighPass :=
  (s.wave.table, s.leftFilter, s.rightFilter)

theorem mixer_apply_of_lt {addr : UInt16} (hlt : addr < 0xFF30) (s : Sound) (val : UInt8) :
    (s.apply addr val).mixer = s.mixer := by
  have hfilters : (s.apply addr val).leftFilter = s.leftFilter ∧
      (s.apply addr val).rightFilter = s.rightFilter := by
    unfold Sound.apply
    split
    case h_21 =>
      rw [if_neg (UInt16.not_le.2 hlt)]
      exact ⟨rfl, rfl⟩
    all_goals exact ⟨rfl, rfl⟩
  unfold mixer
  rw [table_apply_of_lt hlt, hfilters.1, hfilters.2]

/-- The switch turns neither the table nor the filters off. -/
theorem mixer_writePower (s : Sound) (val : UInt8) : (s.writePower val).mixer = s.mixer := by
  unfold writePower powerOn powerOff mixer
  dsimp only
  split
  · rfl
  · split <;> rfl

theorem mixer_sequencerTick (s : Sound) (tick : Nat) : (s.sequencerTick tick).mixer = s.mixer := by
  unfold sequencerTick
  split
  · rfl
  · dsimp only
    split <;> split <;> split <;> rfl

theorem mixer_writeSample (s : Sound) : s.writeSample.mixer = s.mixer := by
  unfold writeSample
  dsimp only
  split <;> rfl

namespace Mixed

variable {s : Sound} (h : s.Mixed)
include h

theorem of_mixer_eq {t : Sound} (hmixer : t.mixer = s.mixer) (hbounded : t.Bounded) : t.Mixed := by
  simp only [mixer, Prod.mk.injEq] at hmixer
  obtain ⟨htable, hleft, hright⟩ := hmixer
  refine ⟨hbounded, fun i => ?_, hleft ▸ h.left, hright ▸ h.right⟩
  rw [htable]
  exact h.table i

theorem mixInRange : s.MixInRange := by
  have hsquare1 : |s.advanceChannels.square1.sample| ≤ peak :=
    Square.abs_sample_le h.bounded.square1.envelope.volume
  have hsquare2 : |s.advanceChannels.square2.sample| ≤ peak :=
    Square.abs_sample_le h.bounded.square2.envelope.volume
  have hwave : |s.advanceChannels.wave.sample| ≤ peak :=
    Wave.Nibbles.abs_sample_le (c := s.wave.advance s.rendered) h.table
  have hnoise : |s.advanceChannels.noise.sample| ≤ peak :=
    Noise.abs_sample_le h.bounded.noise.envelope.volume
  have hsums : ∀ panning, |s.advanceChannels.channelSamples.sum panning| ≤ 4 * peak :=
    ChannelSamples.abs_sum_le hsquare1 hsquare2 hwave hnoise
  exact {
    square1 := hsquare1
    square2 := hsquare2
    wave := hwave
    noise := hnoise
    sums := fun panning => fitsInt32_of_abs_le (Int.le_trans (hsums panning) (by decide))
    left := h.left.side h.bounded.leftVolume (abs_quarter_le (hsums _))
    right := h.right.side h.bounded.rightVolume (abs_quarter_le (hsums _))
    last := fun hpower => by rw [computeSample_of_powered hpower] }

theorem setRegisters (registers : Memory 0x30) : Mixed { s with registers } :=
  ⟨h.bounded.setRegisters registers, h.table, h.left, h.right⟩

theorem apply (addr : UInt16) (val : UInt8) : (s.apply addr val).Mixed := by
  by_cases htable : 0xFF30 ≤ addr
  · have hbounded := h.bounded.apply addr val
    rw [apply_of_table htable] at hbounded ⊢
    exact ⟨hbounded, h.table.writeTable _ val, h.left, h.right⟩
  · exact h.of_mixer_eq (mixer_apply_of_lt (UInt16.not_le.1 htable) s val) (h.bounded.apply addr val)

theorem write (addr : UInt16) (val : UInt8) : (s.write addr val).Mixed := by
  have hbounded := h.bounded.write addr val
  unfold Sound.write at hbounded ⊢
  split
  · exact h
  · rename_i hregister
    rw [if_neg hregister] at hbounded
    -- the power switch apart, a write that has an effect at all is stored and applied
    split
    · rename_i hswitch
      rw [if_pos hswitch] at hbounded
      exact h.of_mixer_eq (s.mixer_writePower val) hbounded
    · split
      · exact h
      · exact (h.setRegisters _).apply addr val

theorem computeSample : s.computeSample.Mixed := by
  have hbounded := h.bounded.computeSample
  by_cases hpower : s.powered = true
  · -- a filter keeps its range as long as its input is in range, and that is known of the mix
    obtain ⟨hleftlo, hlefthi⟩ := abs_le.1 h.mixInRange.left.within
    obtain ⟨hrightlo, hrighthi⟩ := abs_le.1 h.mixInRange.right.within
    rw [computeSample_of_powered hpower] at hbounded ⊢
    exact ⟨hbounded, h.table, h.left.update hleftlo hlefthi, h.right.update hrightlo hrighthi⟩
  · apply h.of_mixer_eq _ hbounded
    unfold Sound.computeSample
    rw [if_neg hpower]
    rfl

theorem duringUpdate {now : Nat} (hnow : s.now ≤ now) (first ticks samples : Nat) :
    (((s.told now).sequencerTicks first ticks).sampleTicks samples).Mixed := by
  have htold : (s.told now).Mixed := ⟨h.bounded.told hnow, h.table, h.left, h.right⟩
  refine sampleTicks_invariant (fun _ ht => ht.computeSample)
    (fun t ht => ht.of_mixer_eq t.mixer_writeSample ht.bounded.writeSample)
    (fun _ _ ht => ⟨{ ht.bounded with }, ht.table, ht.left, ht.right⟩) ?_ samples
  exact sequencerTicks_invariant (fun t tick ht =>
    ht.of_mixer_eq (t.mixer_sequencerTick tick) (ht.bounded.sequencerTick tick)) htold first ticks

end Mixed

theorem mixed_of_reachable {s : Sound} (h : s.Reachable) : s.Mixed :=
  h.invariant mixed_initial (fun _ addr val hs => hs.write addr val)
    (fun _ multiplier hs => ⟨hs.bounded.setMultiplier multiplier, hs.table, hs.left, hs.right⟩)
    (fun _ _ hnow hs => hs.duringUpdate hnow _ _ _)

/-- Whatever is written to a controller, at whatever speed, and whenever it is told the time, no
number on the way to its next sample is too large, also in the course of an update. -/
theorem mixInRange_of_reachable {s : Sound} (h : s.Reachable) :
    s.MixInRange ∧ ∀ now ≥ s.now, ∀ first ticks samples,
      (((s.told now).sequencerTicks first ticks).sampleTicks samples).MixInRange := by
  have hmixed := mixed_of_reachable h
  exact ⟨hmixed.mixInRange, fun _ hnow first ticks samples =>
    (hmixed.duringUpdate hnow first ticks samples).mixInRange⟩

/-- The sample table is played at the lowest level, on both sides and as loud as can be. -/
def lowestLevel : List Operation :=
  [.write 0xFF26 0x80, .write 0xFF24 0x77, .write 0xFF25 0xFF, .write 0xFF1A 0x80,
    .write 0xFF1C 0x20, .write 0xFF1D 0xFF, .write 0xFF1E 0x87]

theorem mixInRange_lowestLevel :
    ((initial 0).operate lowestLevel).advanceChannels.wave.sample = -peak ∧
      ((initial 0).operate lowestLevel).leftInput = -8191 ∧
      ((initial 0).operate lowestLevel).computeSample.last = ⟨-8191, -8191⟩ ∧
      ((initial 0).operate lowestLevel).MixInRange :=
  ⟨by decide, by decide, by decide, (mixInRange_of_reachable ⟨0, lowestLevel, by decide, rfl⟩).1⟩

end DotMatrix.Sound
