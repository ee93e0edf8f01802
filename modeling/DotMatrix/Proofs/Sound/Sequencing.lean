import DotMatrix.Proofs.Sound.Registers
import DotMatrix.Proofs.Sound.Steps
import Mathlib.Logic.Function.Iterate

/-!
# What the frame sequencer makes of a sound

Three units of a square channel count ticks of the frame sequencer, each in its own way. The length
runs down to zero, the envelope moves the volume as far as it goes, and the sweep works one frequency
ahead and silences the channel when the next one is out of range. Counting is all they do, so the
channel is known from how many ticks of each kind there were since it was triggered
(`sequencing_closed_form`).
-/

namespace DotMatrix.Sound

/-! ## Length -/

theorem LengthCounter.clock_iterate (l : LengthCounter) (n : Nat) :
    clock^[n] l = { l with value := l.value - n } := by
  induction n with
  | zero => rfl
  | succ n ih =>
    rw [Function.iterate_succ_apply', ih]
    rfl

/-! ## Envelope -/

namespace Envelope

variable {e : Envelope}

/-- A clock that does not end the period. -/
theorem clock_waiting (hperiod : e.period ≠ 0) (htimer : 1 < e.timer) :
    e.clock = { e with timer := e.timer - 1 } := by
  unfold clock
  rw [if_neg (by simp; omega), if_neg (by omega)]

theorem clock_due (hperiod : e.period ≠ 0) (htimer : e.timer = 1) :
    e.clock = step { e with timer := e.period } := by
  unfold clock
  rw [if_neg (by simp; omega), if_pos htimer]

theorem clock_iterate_waiting (hperiod : e.period ≠ 0) {n : Nat} (hn : n < e.timer) :
    clock^[n] e = { e with timer := e.timer - n } := by
  induction n with
  | zero => rfl
  | succ n ih =>
    have hwaits : 1 < e.timer - n := by omega
    rw [Function.iterate_succ_apply', ih (Nat.lt_of_succ_lt hn)]
    exact clock_waiting (e := { e with timer := e.timer - n }) hperiod hwaits

/-- In a whole period the volume moves one step. -/
theorem clock_iterate_period (hperiod : e.period ≠ 0) (htimer : e.timer = e.period) :
    clock^[e.period] e = e.step := by
  obtain ⟨n, hn⟩ := Nat.exists_eq_succ_of_ne_zero hperiod
  have hdue : e.timer - n = 1 := by omega
  rw [hn, Function.iterate_succ_apply', clock_iterate_waiting hperiod (by omega)]
  refine (clock_due (e := { e with timer := e.timer - n }) hperiod hdue).trans (congrArg step ?_)
  show { e with timer := e.period } = e
  obtain ⟨start, period, rising, volume, timer⟩ := e
  obtain rfl : timer = period := htimer
  rfl

theorem clock_iterate_periods (hperiod : e.period ≠ 0) (htimer : e.timer = e.period) (n : Nat) :
    clock^[e.period * n] e = step^[n] e := by
  induction n generalizing e with
  | zero => rfl
  | succ n ih =>
    rw [Nat.mul_succ, Function.iterate_add_apply, clock_iterate_period hperiod htimer]
    exact ih (e := e.step) hperiod htimer

/-- What a number of steps make of the volume. -/
theorem step_iterate (hvolume : e.volume ≤ 15) (n : Nat) :
    step^[n] e =
      { e with volume := if e.rising then min 15 (e.volume + n) else e.volume - n } := by
  induction n with
  | zero =>
    have hstart : (if e.rising then min 15 (e.volume + 0) else e.volume - 0) = e.volume := by
      split
      · exact Nat.min_eq_right hvolume
      · rfl
    rw [hstart]
    rfl
  | succ n ih =>
    rw [Function.iterate_succ_apply', ih]
    unfold step
    dsimp only
    cases e.rising with
    | true =>
      congr 1
      simp only [if_true]
      split <;> omega
    | false => rfl

/-- The volume that is left of a start on a whole period. -/
theorem volume_clock_iterate (hvolume : e.volume ≤ 15) (htimer : e.timer = e.period) (n : Nat) :
    (clock^[n] e).volume =
      if e.period = 0 then e.volume
      else if e.rising then min 15 (e.volume + n / e.period) else e.volume - n / e.period := by
  by_cases hperiod : e.period = 0
  · have hstill : e.clock = e := if_pos (by simp [hperiod])
    rw [if_pos hperiod, Function.iterate_fixed hstill]
  · have hrest : n % e.period < (step^[n / e.period] e).timer := by
      rw [step_iterate hvolume]
      show n % e.period < e.timer
      rw [htimer]
      exact Nat.mod_lt n (Nat.pos_of_ne_zero hperiod)
    have hsplit : clock^[n] e = clock^[n % e.period] (step^[n / e.period] e) := by
      rw [← clock_iterate_periods hperiod htimer, ← Function.iterate_add_apply, Nat.mod_add_div]
    rw [if_neg hperiod, hsplit, clock_iterate_waiting _ hrest, step_iterate hvolume]
    rw [step_iterate hvolume]
    exact hperiod

end Envelope

/-! ## Sweep -/

/-- The frequencies that a sweep goes through from a first one on. -/
def Sweep.course (falling : Bool) (shift first : Nat) : Nat → Nat
  | 0 => first
  | i + 1 =>
    let frequency := course falling shift first i
    if falling then frequency - (frequency >>> shift) else frequency + (frequency >>> shift)

namespace Square

/-- The sweep at the moment that it has taken over a frequency: it works on the one that follows,
or it has silenced the channel because that one is out of range. -/
def stage (s : Sweep) (following : Nat) : Sweep :=
  if Sweep.silenced ≤ following then { s with timer := 0, shadow := Sweep.silenced }
  else { s with timer := s.period, shadow := following }

/-- The channel has just come to a frequency of its sweep. -/
structure AtStage (c : Square) (s : Sweep) (course : Nat → Nat) (i : Nat) : Prop where
  sweep : c.sweep = some (stage s (course (i + 1)))
  frequency : c.waveform.frequency = course i

variable {c : Square} {s : Sweep}

/-- Taking over a frequency is to come to it. -/
theorem atStage_applySweep {first i : Nat}
    (hshadow : s.shadow = Sweep.course s.falling s.shift first i) :
    (c.applySweep s).AtStage s (Sweep.course s.falling s.shift first) i := by
  have hnext : s.next = Sweep.course s.falling s.shift first (i + 1) := by
    unfold Sweep.next
    rw [hshadow]
    rfl
  refine ⟨congrArg some ?_, (Waveform.frequency_setFrequency _ _).trans hshadow⟩
  unfold Sweep.step stage
  rw [hnext]

section Clocks

variable (hperiod : s.period ≠ 0) (hshift : s.shift ≠ 0)
include hperiod hshift

theorem clockSweep_waiting (hsweep : c.sweep = some s) (htimer : 1 < s.timer) :
    c.clockSweep = { c with sweep := some { s with timer := s.timer - 1 } } := by
  unfold clockSweep
  rw [hsweep]
  dsimp only
  rw [if_neg (by simp; omega), if_neg (by omega)]

theorem clockSweep_due (hsweep : c.sweep = some s) (htimer : s.timer = 1) :
    c.clockSweep = c.applySweep s := by
  unfold clockSweep
  rw [hsweep]
  dsimp only
  rw [if_neg (by simp; omega), if_pos htimer]

theorem clockSweep_iterate_waiting (hsweep : c.sweep = some s) {n : Nat} (hn : n < s.timer) :
    clockSweep^[n] c = { c with sweep := some { s with timer := s.timer - n } } := by
  induction n with
  | zero =>
    show c = { c with sweep := some s }
    rw [← hsweep]
  | succ n ih =>
    have hwaits : 1 < s.timer - n := by omega
    rw [Function.iterate_succ_apply', ih (Nat.lt_of_succ_lt hn)]
    exact clockSweep_waiting (s := { s with timer := s.timer - n }) hperiod hshift rfl hwaits

end Clocks

theorem stage_of_lt {following : Nat} (h : following < Sweep.silenced) :
    stage s following = { s with timer := s.period, shadow := following } :=
  if_neg (Nat.not_le.2 h)

namespace AtStage

variable {first i : Nat} (hperiod : s.period ≠ 0) (hshift : s.shift ≠ 0)

/-- A channel that is silenced stays as it is. -/
theorem clockSweep_silenced {course : Nat → Nat} (h : c.AtStage s course i)
    (hout : Sweep.silenced ≤ course (i + 1)) (n : Nat) : clockSweep^[n] c = c := by
  refine Function.iterate_fixed ?_ n
  have hsweep : c.sweep = some { s with timer := 0, shadow := Sweep.silenced } :=
    h.sweep.trans (congrArg some (if_pos hout))
  unfold clockSweep
  rw [hsweep]
  exact if_pos (by simp)

include hperiod hshift

/-- In a whole period the channel comes to the next frequency. -/
theorem next (h : c.AtStage s (Sweep.course s.falling s.shift first) i)
    (hin : Sweep.course s.falling s.shift first (i + 1) < Sweep.silenced) :
    (clockSweep^[s.period] c).AtStage s (Sweep.course s.falling s.shift first) (i + 1) := by
  obtain ⟨n, hn⟩ := Nat.exists_eq_succ_of_ne_zero hperiod
  generalize hfollowing : Sweep.course s.falling s.shift first (i + 1) = following at hin
  have hsweep : c.sweep = some { s with timer := s.period, shadow := following } := by
    rw [h.sweep, hfollowing, stage_of_lt hin]
  have hwaits : clockSweep^[n] c =
      { c with sweep := some { s with timer := s.period - n, shadow := following } } :=
    clockSweep_iterate_waiting (s := { s with timer := s.period, shadow := following })
      hperiod hshift hsweep (show n < s.period by omega)
  have hdue : s.period - n = 1 := by omega
  have hstage := atStage_applySweep
    (c := { c with sweep := some { s with timer := s.period - n, shadow := following } })
    (s := { s with timer := s.period - n, shadow := following }) hfollowing.symm
  rw [hn, Function.iterate_succ_apply', hwaits, clockSweep_due
    (s := { s with timer := s.period - n, shadow := following }) hperiod hshift rfl hdue]
  exact ⟨hstage.sweep, hstage.frequency⟩

theorem clockSweep_periods (h : c.AtStage s (Sweep.course s.falling s.shift first) 0) {n : Nat}
    (hin : ∀ i < n, Sweep.course s.falling s.shift first (i + 1) < Sweep.silenced) :
    (clockSweep^[s.period * n] c).AtStage s (Sweep.course s.falling s.shift first) n := by
  induction n with
  | zero => exact h
  | succ n ih =>
    rw [Nat.mul_succ, Nat.add_comm, Function.iterate_add_apply]
    exact (ih fun i hi => hin i (Nat.lt_succ_of_lt hi)).next hperiod hshift
      (hin n (Nat.lt_succ_self n))

end AtStage

/-- However many clocks there were since: the channel plays the frequency that it has come to, and
is silenced as soon as that one has no successor in range. -/
theorem AtStage.clockSweep_iterate {first : Nat} (hperiod : s.period ≠ 0) (hshift : s.shift ≠ 0)
    (h : c.AtStage s (Sweep.course s.falling s.shift first) 0) (n : Nat) :
    let course := Sweep.course s.falling s.shift first
    let d := clockSweep^[n] c
    ((∀ i ≤ n / s.period, course (i + 1) < Sweep.silenced) →
      d.waveform.frequency = course (n / s.period) ∧ d.sweptOut = false) ∧
    ∀ last ≤ n / s.period, (∀ i < last, course (i + 1) < Sweep.silenced) →
      Sweep.silenced ≤ course (last + 1) →
        d.waveform.frequency = course last ∧ d.sweptOut = true := by
  intro course d
  constructor
  · intro hin
    have hstage := h.clockSweep_periods hperiod hshift fun i hi => hin i (Nat.le_of_lt hi)
    have hnext := hin (n / s.period) (Nat.le_refl _)
    have hsweep := hstage.sweep.trans (congrArg some (stage_of_lt hnext))
    have hd : d = clockSweep^[n % s.period] (clockSweep^[s.period * (n / s.period)] c) := by
      rw [← Function.iterate_add_apply, Nat.mod_add_div]
    rw [hd, clockSweep_iterate_waiting (s := { s with timer := s.period, shadow := _ })
      hperiod hshift hsweep (Nat.mod_lt n (Nat.pos_of_ne_zero hperiod))]
    refine ⟨hstage.frequency, ?_⟩
    exact decide_eq_false (Nat.ne_of_lt hnext)
  · intro last hlast hin hout
    have hstage := h.clockSweep_periods hperiod hshift hin
    have hle : s.period * last ≤ n := by
      rw [Nat.mul_comm]
      exact (Nat.le_div_iff_mul_le (Nat.pos_of_ne_zero hperiod)).1 hlast
    have hd : d = clockSweep^[s.period * last] c := by
      rw [← hstage.clockSweep_silenced hout (n - s.period * last), ← Function.iterate_add_apply,
        Nat.sub_add_cancel hle]
    have hsweep := hstage.sweep.trans (congrArg some (if_pos hout))
    rw [hd]
    refine ⟨hstage.frequency, ?_⟩
    unfold sweptOut
    rw [hsweep]
    rfl

/-! ## The units together -/

/-- What a tick of the frame sequencer makes of the channel. -/
def tick (c : Square) (tick : Nat) : Square :=
  let events := sequencerEvents tick
  let c := if events.length then { c with length := c.length.clock } else c
  let c := if events.envelope then { c with envelope := c.envelope.clock } else c
  if events.sweep then c.clockSweep else c

/-- The sweep does not look at the other units. -/
theorem clockSweep_setUnits (c : Square) (length : LengthCounter) (envelope : Envelope) :
    clockSweep { c with length, envelope } = { c.clockSweep with length, envelope } := by
  unfold clockSweep
  dsimp only
  split
  · rfl
  · split
    · rfl
    · split <;> rfl

theorem clockSweep_iterate_setUnits (c : Square) (length : LengthCounter) (envelope : Envelope)
    (n : Nat) :
    clockSweep^[n] { c with length, envelope } =
      { clockSweep^[n] c with length, envelope } := by
  induction n with
  | zero => rfl
  | succ n ih =>
    rw [Function.iterate_succ_apply', Function.iterate_succ_apply', ih, clockSweep_setUnits]

/-- A tick clocks each unit once or not at all. -/
theorem tick_eq (c : Square) (t : Nat) :
    c.tick t =
      { clockSweep^[if t % 4 = 2 then 1 else 0] c with
        length := LengthCounter.clock^[if t % 2 = 0 then 1 else 0] c.length
        envelope := Envelope.clock^[if t % 8 = 7 then 1 else 0] c.envelope } := by
  have hsweep (d : Square) : (if t % 4 = 2 then d.clockSweep else d) =
      clockSweep^[if t % 4 = 2 then 1 else 0] d := by
    split <;> rfl
  unfold tick sequencerEvents
  simp only [decide_eq_true_eq]
  rw [hsweep, ← clockSweep_iterate_setUnits]
  congr 1
  split <;> split <;> rfl

theorem foldl_tick (c : Square) (ticks : List Nat) :
    ticks.foldl tick c =
      { clockSweep^[ticks.countP (· % 4 = 2)] c with
        length := LengthCounter.clock^[ticks.countP (· % 2 = 0)] c.length
        envelope := Envelope.clock^[ticks.countP (· % 8 = 7)] c.envelope } := by
  induction ticks generalizing c with
  | nil => rfl
  | cons t ticks ih =>
    rw [List.foldl_cons, ih, tick_eq, clockSweep_iterate_setUnits]
    simp only [List.countP_cons, decide_eq_true_eq, Function.iterate_add_apply]

/-! ## Triggering -/

/-- A channel that has just been triggered, with nothing clocked yet. -/
structure Triggered (c : Square) (s : Sweep) : Prop where
  volume : c.envelope.volume = c.envelope.start
  timer : c.envelope.timer = c.envelope.period
  sweep : c.sweep = some s
  frequency : c.waveform.frequency < Sweep.silenced
  sweeps : s.period ≠ 0 → s.shift ≠ 0 →
    c.AtStage s (Sweep.course s.falling s.shift c.waveform.frequency) 0
  rests : s.period = 0 ∨ s.shift = 0 → s.shadow = c.waveform.frequency

theorem stage_settings (s : Sweep) (following : Nat) :
    (stage s following).period = s.period ∧ (stage s following).falling = s.falling ∧
      (stage s following).shift = s.shift ∧
      ∀ next, stage (stage s following) next = stage s next := by
  unfold stage
  split <;> exact ⟨rfl, rfl, rfl, fun _ => rfl⟩

theorem triggered_startSweep (hvolume : c.envelope.volume = c.envelope.start)
    (htimer : c.envelope.timer = c.envelope.period) (hsweep : c.sweep = some s)
    (hfrequency : c.waveform.frequency < Sweep.silenced) :
    ∃ t, c.startSweep.Triggered t ∧ c.startSweep.envelope.start = c.envelope.start := by
  let begun : Sweep := { s with shadow := c.waveform.frequency, timer := s.period }
  have hstart : c.startSweep =
      if s.period ≠ 0 && s.shift ≠ 0 then c.applySweep begun
      else { c with sweep := some begun } := by
    unfold startSweep
    rw [hsweep]
  by_cases hruns : s.period ≠ 0 ∧ s.shift ≠ 0
  · rw [if_pos (by simpa using hruns)] at hstart
    let course := Sweep.course s.falling s.shift c.waveform.frequency
    have hstage : (c.applySweep begun).AtStage begun course 0 := atStage_applySweep rfl
    obtain ⟨hperiod, hfalling, hshift, hstage_stage⟩ := stage_settings begun (course 1)
    have hfrequency' : (c.applySweep begun).waveform.frequency = c.waveform.frequency :=
      hstage.frequency
    rw [hstart]
    refine ⟨stage begun (course 1), ⟨hvolume, htimer, hstage.sweep, hfrequency' ▸ hfrequency,
      fun _ _ => ?_, fun hrests => ?_⟩, rfl⟩
    · rw [hfalling, hshift, hfrequency']
      exact ⟨hstage.sweep.trans (congrArg some (hstage_stage _).symm), hstage.frequency⟩
    · rw [hperiod, hshift] at hrests
      exact absurd hrests (not_or.2 hruns)
  · rw [if_neg (by simpa using hruns)] at hstart
    rw [hstart]
    refine ⟨begun, ⟨hvolume, htimer, rfl, hfrequency, fun hperiod hshift => ?_, fun _ => rfl⟩, rfl⟩
    exact absurd ⟨hperiod, hshift⟩ hruns

theorem enabled_iff (c : Square) :
    c.enabled = true ↔
      (c.length.enabled = true → 0 < c.length.value) ∧ 0 < c.envelope.volume ∧
        (1 ≤ c.waveform.frequency ∧ c.waveform.frequency ≤ 2041) ∧ c.sweptOut = false := by
  unfold enabled LengthCounter.active maxAudible
  simp only [Bool.and_eq_true, Bool.or_eq_true, Bool.not_eq_true', decide_eq_true_eq,
    Nat.pos_iff_ne_zero, and_assoc]
  cases c.length.enabled <;> simp

theorem Triggered.still (h : c.Triggered s) : c.still.Triggered s where
  volume := h.volume
  timer := h.timer
  sweep := h.sweep
  frequency := h.frequency
  sweeps hperiod hshift := ⟨(h.sweeps hperiod hshift).sweep, (h.sweeps hperiod hshift).frequency⟩
  rests := h.rests

theorem frequency_setHigh_lt (w : Waveform) (val : UInt8) :
    (w.setHigh val).frequency < Sweep.silenced := by
  unfold Waveform.setHigh Sweep.silenced
  rw [Waveform.frequency_setFrequency]
  omega

/-- Writing the upper bit of the last register triggers the channel. -/
theorem triggered_writeControl (hsweep : c.sweep = some s) {val : UInt8}
    (htrigger : anySet val 0x80 = true) :
    ∃ t, (c.writeControl val).Triggered t ∧
      (c.writeControl val).envelope.start = c.envelope.start := by
  have hcontrol : c.writeControl val =
      startSweep { c with
        envelope := c.envelope.trigger
        length := { c.length with enabled := anySet val 0x40 }.trigger 64
        waveform := (c.waveform.setHigh val).restart } := if_pos htrigger
  rw [hcontrol]
  exact triggered_startSweep rfl rfl hsweep (frequency_setHigh_lt c.waveform val)

/-- What ticks of the frame sequencer make of a channel that was triggered. Its length runs down and
its volume moves as far as they go. Its sweep goes to the last frequency that is in range and has
time to get there, and when the time has come for the next one the channel is silenced. -/
structure Sequenced (c : Square) (s : Sweep) (d : Square) (ticks : List Nat) : Prop where
  length : d.length = { c.length with value := c.length.value - ticks.countP (· % 2 = 0) }
  volume : d.envelope.volume =
    if c.envelope.period = 0 then c.envelope.start
    else if c.envelope.rising then
      min 15 (c.envelope.start + ticks.countP (· % 8 = 7) / c.envelope.period)
    else c.envelope.start - ticks.countP (· % 8 = 7) / c.envelope.period
  swept : s.period ≠ 0 → s.shift ≠ 0 →
    let course := Sweep.course s.falling s.shift c.waveform.frequency
    let k := ticks.countP (· % 4 = 2) / s.period
    (∀ last, (∀ i < last, course (i + 1) < 2048) → 2048 ≤ course (last + 1) →
      d.waveform.frequency = course (min k last) ∧ (d.sweptOut = true ↔ last ≤ k)) ∧
    ((∀ i, course (i + 1) < 2048) → d.waveform.frequency = course k ∧ d.sweptOut = false)
  unswept : s.period = 0 ∨ s.shift = 0 →
    d.waveform.frequency = c.waveform.frequency ∧ d.sweptOut = false

theorem Triggered.sequenced (h : c.Triggered s) (hstart : c.envelope.start ≤ 15)
    (ticks : List Nat) : c.Sequenced s (ticks.foldl tick c) ticks := by
  rw [foldl_tick]
  refine ⟨LengthCounter.clock_iterate _ _, ?_, fun hperiod hshift => ?_, fun hrests => ?_⟩
  · rw [← h.volume] at hstart ⊢
    exact Envelope.volume_clock_iterate hstart h.timer _
  · obtain ⟨hin, hout⟩ := (h.sweeps hperiod hshift).clockSweep_iterate hperiod hshift
      (ticks.countP (· % 4 = 2))
    refine ⟨fun last hbefore hlast => ?_, fun hall => hin fun i _ => hall i⟩
    by_cases hreached : last ≤ ticks.countP (· % 4 = 2) / s.period
    · obtain ⟨hfrequency, hsilent⟩ := hout last hreached hbefore hlast
      rw [Nat.min_eq_right hreached]
      exact ⟨hfrequency, iff_of_true hsilent hreached⟩
    · have hearlier := Nat.lt_of_not_le hreached
      obtain ⟨hfrequency, hheard⟩ := hin fun i hi => hbefore i (Nat.lt_of_le_of_lt hi hearlier)
      rw [Nat.min_eq_left (Nat.le_of_lt hearlier)]
      exact ⟨hfrequency, iff_of_false (ne_true_of_eq_false hheard) hreached⟩
  · have hstill : c.clockSweep = c := by
      unfold clockSweep
      rw [h.sweep]
      exact if_pos (by rcases hrests with hnone | hnone <;> simp [hnone])
    rw [Function.iterate_fixed hstill]
    refine ⟨rfl, ?_⟩
    show sweptOut c = false
    unfold sweptOut
    rw [h.sweep]
    exact decide_eq_false (Nat.ne_of_lt (h.rests hrests ▸ h.frequency))

end Square

/-! ## The channel in its controller -/

def Step.isWrite : Step → Bool
  | .write _ _ => true
  | _ => false

def Step.tick? : Step → Option Nat
  | .sequence tick => some tick
  | _ => none

theorem powered_sequencerTick (s : Sound) (tick : Nat) :
    (s.sequencerTick tick).powered = s.powered := by
  unfold sequencerTick
  split
  · rfl
  · dsimp only
    split <;> split <;> split <;> rfl

theorem square1_sequencerTick {s : Sound} (h : s.powered = true) (tick : Nat) :
    (s.sequencerTick tick).square1 = s.square1.tick tick := by
  unfold sequencerTick Square.tick
  rw [if_neg (by simp [h])]
  dsimp only
  split <;> split <;> split <;> rfl

theorem Square.still_tick (c : Square) (t : Nat) : (c.tick t).still = c.still.tick t := by
  unfold Square.tick
  dsimp only
  split <;> split <;> split <;> first | rfl | exact Square.still_clockSweep _

theorem still_sampleTick (s : Sound) :
    s.sampleTick.square1.still = s.square1.still ∧ s.sampleTick.powered = s.powered := by
  have hscore := s.score_sampleTicks 1
  have hsquare1 := congrArg Sound.square1 hscore
  have hpowered := congrArg Sound.powered hscore
  exact ⟨hsquare1, hpowered⟩

/-- Steps that write no register do to the channel what their ticks do to it. -/
theorem still_performAll {steps : List Step} (hquiet : ∀ step ∈ steps, step.isWrite = false)
    {s : Sound} (hpower : s.powered = true) :
    (s.performAll steps).square1.still =
      (steps.filterMap Step.tick?).foldl Square.tick s.square1.still := by
  induction steps generalizing s with
  | nil => rfl
  | cons step steps ih =>
    have hrest : ∀ step ∈ steps, step.isWrite = false := fun later hlater =>
      hquiet later (List.mem_cons_of_mem step hlater)
    cases step with
    | write addr val => cases hquiet (.write addr val) List.mem_cons_self
    | setMultiplier multiplier => exact ih hrest hpower
    | request request => exact ih hrest hpower
    | tell now => exact ih hrest hpower
    | sequence tick =>
      have hstill : (s.sequencerTick tick).square1.still = s.square1.still.tick tick := by
        rw [square1_sequencerTick hpower, Square.still_tick]
      refine (ih hrest ((powered_sequencerTick s tick).trans hpower)).trans ?_
      rw [hstill]
      rfl
    | sample =>
      obtain ⟨hstill, hpowered⟩ := s.still_sampleTick
      refine (ih hrest (hpowered.trans hpower)).trans ?_
      rw [hstill]
      rfl

/-- What the registers say holds however the frames are consumed. -/
theorem agrees_useAll (depth : Nat) (uses : List Use) :
    ∃ triggered, ((initial depth).useAll uses).Agrees triggered := by
  refine List.foldlRecOn (motive := fun s : Sound => ∃ triggered, s.Agrees triggered) uses use
    ⟨false, agrees_initial depth⟩ fun s hs u _ => ?_
  obtain ⟨triggered, hagrees⟩ := hs
  cases u with
  | operate op => exact ⟨_, hagrees.operate [op]⟩
  | request request =>
    exact ⟨triggered, { hagrees.decoded with }, hagrees.table, hagrees.cleared⟩

theorem write_control1 {s : Sound} (hpower : s.powered = true) (val : UInt8) :
    (s.write 0xFF14 val).powered = true ∧
      (s.write 0xFF14 val).square1 = s.square1.writeControl val := by
  have hwrite : s.write 0xFF14 val =
      Sound.apply { s with registers := s.registers.write 4 val } 0xFF14 val := by
    unfold Sound.write
    rw [if_neg (by decide), if_neg (by decide), if_neg (by simp [hpower])]
    rfl
  rw [hwrite]
  exact ⟨hpower, rfl⟩

/-- However a controller came to be powered: once the first channel is triggered, and as long as no
register is written, any number of steps make of it what can be told from the ticks of the frame
sequencer among them. The status register tells whether it is heard: the length has not run out, the
volume is not zero, the frequency is audible, and the sweep has not silenced it. -/
theorem sequencing_closed_form (depth : Nat) (before : List Use) (val : UInt8) (steps : List Step)
    (hpower : ((initial depth).useAll before).powered = true)
    (htrigger : anySet val 0x80 = true) (hquiet : ∀ step ∈ steps, step.isWrite = false) :
    let start := ((initial depth).useAll before).write 0xFF14 val
    let s := start.performAll steps
    let ticks := steps.filterMap Step.tick?
    ∃ sweep, start.square1.sweep = some sweep ∧ start.square1.Sequenced sweep s.square1 ticks ∧
      (anySet (s.read 0xFF26) 0x01 = true ↔
        (start.square1.length.enabled = true →
          ticks.countP (· % 2 = 0) < start.square1.length.value) ∧
        0 < s.square1.envelope.volume ∧
        (1 ≤ s.square1.waveform.frequency ∧ s.square1.waveform.frequency ≤ 2041) ∧
        s.square1.sweptOut = false) := by
  intro start s ticks
  obtain ⟨_, hagrees⟩ := agrees_useAll depth before
  obtain ⟨_, hsweep, -⟩ := hagrees.decoded.sweep1
  have hstart : ((initial depth).useAll before).square1.envelope.start ≤ 15 := by
    have hbyte := (((initial depth).useAll before).stored 0xFF12).toNat_lt
    rw [hagrees.decoded.square1.envelope.start]
    omega
  obtain ⟨hpowered, hcontrol⟩ := write_control1 hpower val
  obtain ⟨sweep, htriggered, hkept⟩ := Square.triggered_writeControl hsweep htrigger
  rw [← hcontrol] at htriggered hkept
  have hsequenced := htriggered.still.sequenced (hkept.symm ▸ hstart) ticks
  rw [← still_performAll hquiet hpowered] at hsequenced
  have hdone : start.square1.Sequenced sweep s.square1 ticks :=
    ⟨hsequenced.length, hsequenced.volume, hsequenced.swept, hsequenced.unswept⟩
  refine ⟨sweep, htriggered.sweep, hdone, ?_⟩
  have hread : anySet (s.read 0xFF26) 0x01 = s.square1.enabled := s.anySet_status.1
  rw [hread, Square.enabled_iff, hdone.length]
  simp only [Nat.sub_pos_iff_lt]

/-- The sweep goes up by a half at each of its clocks, the envelope begins at five and rises at every
third of its clocks, and the length is four. -/
def sweepUp : List Use :=
  [.operate (.write 0xFF26 0x80), .operate (.write 0xFF10 0x11), .operate (.write 0xFF11 0x3C),
    .operate (.write 0xFF12 0x5B)]

/-- With the first frequency at 512 the fourth is the last in range. The sweep comes to it at the
third of its clocks, and silences the channel. -/
theorem sequencing_closed_form_sweepUp :
    let steps := (List.range 12).flatMap fun tick => [.sequence tick, .sample]
    let s := (((initial 2).useAll sweepUp).write 0xFF14 0xC2).performAll steps
    s.square1.length.value = 0 ∧ s.square1.envelope.volume = 5 ∧
      s.square1.waveform.frequency = 1728 ∧ s.square1.sweptOut = true := by
  intro steps s
  obtain ⟨sweep, hsweep, hsequenced, -⟩ := sequencing_closed_form 2 sweepUp 0xC2 steps
    (by decide +kernel) (by decide) (by decide)
  have hsettings : sweep = ⟨1, false, 1, 1, 768⟩ :=
    Option.some.inj (hsweep.symm.trans (by decide +kernel))
  subst hsettings
  obtain ⟨hfrequency, hsilent⟩ := (hsequenced.swept (by decide) (by decide)).1 3
    (by decide +kernel) (by decide +kernel)
  refine ⟨?_, hsequenced.volume.trans (by decide +kernel), hfrequency.trans (by decide +kernel),
    hsilent.2 (by decide +kernel)⟩
  rw [hsequenced.length]
  decide +kernel

end DotMatrix.Sound
