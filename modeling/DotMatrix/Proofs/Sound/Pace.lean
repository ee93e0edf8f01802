import DotMatrix.Proofs.Sound.Steps
import Mathlib.Algebra.Order.Floor.Div

/-!
# Keeping pace

A console that runs slower or faster is heard in real time: samples are repeated or left out. Two
counters see to that, each of which only grows, and yet they do not drift apart. However many ticks
the sampler has done since the counters were reset, a sample was computed in each of them, and the
samples written are those that the multiplier asks for, to the last one (`speed_never_drifts`).
-/

namespace DotMatrix.Sound

/-! ## Counting -/

namespace Pace

/-- Every speed is made into a multiplier that is not zero. -/
theorem one_le_multiplierOf (speed : Float) : 1 ≤ multiplierOf speed := Nat.le_max_right _ 1

/-- The samples that a number of ticks write, counted from a reset. -/
def quota (multiplier : Nat) : Nat → Nat
  | 0 => 0
  | n + 1 =>
    if multiplier = unit then n + 1
    else if multiplier < unit then n * unit / multiplier + 1
    else n * unit ⌈/⌉ multiplier

/-- The counters after a number of ticks. They stand still in real time. -/
def afterTicks (multiplier n : Nat) : Pace :=
  if multiplier = unit then ofMultiplier unit
  else ⟨multiplier, n * unit, quota multiplier n * multiplier⟩

def countComputed (p : Pace) : Pace :=
  if p.multiplier = unit then p else { p with computed := p.computed + unit }

def countWritten (p : Pace) : Pace :=
  if p.multiplier = unit then p else { p with written := p.written + p.multiplier }

theorem afterTicks_zero (multiplier : Nat) : afterTicks multiplier 0 = ofMultiplier multiplier := by
  unfold afterTicks quota
  split
  · rename_i hunit
    rw [hunit]
  · rw [Nat.zero_mul, Nat.zero_mul]
    rfl

theorem multiplier_afterTicks (multiplier n : Nat) :
    (afterTicks multiplier n).multiplier = multiplier := by
  unfold afterTicks
  split
  · rename_i hreal
    exact hreal.symm
  · rfl

theorem counters_of_eq {p : Pace} {n : Nat} (h : p = afterTicks p.multiplier n)
    (hne : p.multiplier ≠ unit) :
    p.computed = n * unit ∧ p.written = quota p.multiplier n * p.multiplier := by
  have hpace : p = ⟨p.multiplier, n * unit, quota p.multiplier n * p.multiplier⟩ :=
    h.trans (if_neg hne)
  exact ⟨congrArg computed hpace, congrArg written hpace⟩

section Quota

variable {m n : Nat}

theorem ceilDiv_eq {a q : Nat} (hle : a ≤ q * m) (hlt : q * m < a + m) :
    a ⌈/⌉ m = q := by
  rw [Nat.ceilDiv_eq_add_pred_div]
  refine Nat.div_eq_of_lt_le ?_ ?_
  · omega
  · rw [Nat.succ_mul]
    omega

/-- In slow motion the samples written lag behind at the start of every tick, and it makes up for
the lag. -/
theorem quota_slow (hm : 0 < m) (hslow : m < unit) :
    quota m n * m ≤ n * unit ∧
      quota m (n + 1) = quota m n + ((n * unit - quota m n * m) / m + 1) := by
  have hne : m ≠ unit := Nat.ne_of_lt hslow
  have hlag : quota m n * m ≤ n * unit := by
    cases n with
    | zero => rw [quota, Nat.zero_mul, Nat.zero_mul]
    | succ n =>
      have hdiv : n * unit / m * m ≤ n * unit := Nat.div_mul_le_self _ m
      rw [quota, if_neg hne, if_pos hslow, Nat.succ_mul, Nat.succ_mul]
      omega
  have hle : quota m n ≤ n * unit / m := (Nat.le_div_iff_mul_le hm).2 hlag
  refine ⟨hlag, ?_⟩
  rw [Nat.mul_comm _ m, Nat.sub_mul_div, quota, if_neg hne, if_pos hslow]
  omega

/-- In fast motion the samples written are never more than one ahead of real time. -/
theorem quota_fast (hfast : unit < m) :
    quota m (n + 1) = n * unit ⌈/⌉ m ∧ n * unit ≤ quota m (n + 1) * m ∧
      quota m (n + 1) * m < n * unit + m := by
  have hm : 0 < m := Nat.zero_lt_of_lt hfast
  have hquota : quota m (n + 1) = n * unit ⌈/⌉ m := by
    rw [quota, if_neg (Nat.ne_of_gt hfast), if_neg (Nat.not_lt_of_gt hfast)]
  have hdiv := Nat.div_mul_le_self (n * unit + m - 1) m
  have hmod := Nat.lt_div_mul_add (a := n * unit + m - 1) hm
  rw [hquota, Nat.ceilDiv_eq_add_pred_div]
  exact ⟨rfl, by omega, by omega⟩

/-- In fast motion a tick writes unless enough is written already. -/
theorem quota_succ_fast (hfast : unit < m) :
    quota m (n + 1) = quota m n + if n * unit ≤ quota m n * m then 0 else 1 := by
  cases n with
  | zero =>
    rw [(quota_fast hfast).1, quota, Nat.zero_mul, if_pos (Nat.zero_le _)]
    exact zero_ceilDiv m
  | succ n =>
    obtain ⟨-, hle, hlt⟩ := quota_fast (n := n) hfast
    rw [(quota_fast hfast).1]
    have hsucc : (n + 1) * unit = n * unit + unit := Nat.succ_mul n unit
    by_cases hahead : (n + 1) * unit ≤ quota m (n + 1) * m
    · rw [if_pos hahead]
      show (n + 1) * unit ⌈/⌉ m = quota m (n + 1)
      exact ceilDiv_eq hahead (by omega)
    · have hmore : (quota m (n + 1) + 1) * m = quota m (n + 1) * m + m := Nat.succ_mul _ m
      rw [if_neg hahead]
      exact ceilDiv_eq (by omega) (by omega)

end Quota

end Pace

/-! ## One tick -/

/-- The sample that would be computed now. -/
def nextSample (s : Sound) : StereoSample :=
  if s.powered then (s.advanceChannels.mix s.advanceChannels.channelSamples).1 else .silence

/-- One round of the loop that repeats a sample. -/
def round (s : Sound) : Sound :=
  { s.writeSample with pace := { s.pace with written := s.pace.written + s.pace.multiplier } }

/-- What a tick of the sampler is made of. -/
inductive Part where
  | compute
  | write
deriving DecidableEq

def Part.perform (s : Sound) : Part → Sound
  | compute => { s.computeSample with pace := s.pace.countComputed }
  | write => { s.writeSample with pace := s.pace.countWritten }

/-- The parts of the next tick. At a normal speed a sample is written as it is computed. In slow
motion the last sample is repeated first, and in fast motion a sample may be left out. -/
def tickParts (s : Sound) : List Part :=
  if s.pace.multiplier = Pace.unit then [.compute, .write]
  else if s.pace.multiplier < Pace.unit then List.replicate s.repeated.length .write ++ [.compute]
  else if s.pace.computed ≤ s.pace.written then [.compute]
  else [.compute, .write]

theorem pace_computeSample (s : Sound) : s.computeSample.pace = s.pace := by
  unfold computeSample
  split <;> rfl

theorem last_computeSample (s : Sound) : s.computeSample.last = s.nextSample := by
  unfold computeSample nextSample
  split <;> rfl

theorem last_writeSample (s : Sound) : s.writeSample.last = s.last := by
  show s.writeSample.generator.last = s.generator.last
  rw [generator_writeSample]

section Rounds

variable {s : Sound}

theorem round_eq (s : Sound) : s.round = { s.writeSample with
    pace := { s.writeSample.pace with written := s.pace.written + s.pace.multiplier } } := by
  rw [pace_writeSample]
  rfl

theorem length_repeated_of_lag (h : s.pace.written ≤ s.pace.computed ∧ 0 < s.pace.multiplier) :
    s.repeated.length = s.round.repeated.length + 1 := by
  rw [repeated, dif_pos h, round_eq]
  rfl

theorem length_repeated_of_done (h : ¬(s.pace.written ≤ s.pace.computed ∧ 0 < s.pace.multiplier)) :
    s.repeated.length = 0 := by
  rw [repeated, dif_neg h]
  rfl

/-- The loop has done its rounds when it ends. -/
theorem repeatSample_eq_rounds (s : Sound) : s.repeatSample = round^[s.repeated.length] s := by
  induction s using repeatSample.induct with
  | case1 s hlag t ih =>
    rw [repeatSample_of_lag hlag, length_repeated_of_lag hlag, Function.iterate_succ_apply, round_eq]
    exact ih
  | case2 s hdone =>
    rw [repeatSample_of_done hdone, length_repeated_of_done hdone]
    rfl

theorem pace_rounds (s : Sound) (n : Nat) :
    (round^[n] s).pace = { s.pace with written := s.pace.written + n * s.pace.multiplier } := by
  induction n with
  | zero => rw [Nat.zero_mul]; rfl
  | succ n ih =>
    rw [Function.iterate_succ_apply']
    show { (round^[n] s).pace with
      written := (round^[n] s).pace.written + (round^[n] s).pace.multiplier } = _
    rw [ih, Nat.succ_mul, ← Nat.add_assoc]

/-- In each round of the loop the samples written lag behind, and after the last they do not. -/
theorem lag_rounds (hm : 0 < s.pace.multiplier) :
    (∀ i < s.repeated.length, (round^[i] s).pace.written ≤ (round^[i] s).pace.computed) ∧
      (round^[s.repeated.length] s).pace.computed < (round^[s.repeated.length] s).pace.written := by
  induction hlength : s.repeated.length generalizing s with
  | zero =>
    refine ⟨fun i hi => absurd hi (Nat.not_lt_zero i), Nat.lt_of_not_le fun hlag => ?_⟩
    rw [length_repeated_of_lag (s := s) ⟨hlag, hm⟩] at hlength
    cases hlength
  | succ n ih =>
    have hlag : s.pace.written ≤ s.pace.computed ∧ 0 < s.pace.multiplier := by
      refine Classical.byContradiction fun hdone => ?_
      rw [length_repeated_of_done hdone] at hlength
      cases hlength
    rw [length_repeated_of_lag hlag] at hlength
    have hm' : 0 < s.round.pace.multiplier := hm
    obtain ⟨hrounds, hend⟩ := ih hm' (Nat.succ.inj hlength)
    refine ⟨fun i hi => ?_, hend⟩
    cases i with
    | zero => exact hlag.1
    | succ i => exact hrounds i (Nat.lt_of_succ_lt_succ hi)

/-- The loop that repeats a sample ends. -/
def RepeatEnds (s : Sound) : Prop :=
  ∃ n, (∀ i < n, (round^[i] s).pace.written ≤ (round^[i] s).pace.computed) ∧
    (round^[n] s).pace.computed < (round^[n] s).pace.written ∧ s.repeatSample = round^[n] s

theorem repeatEnds (hm : 0 < s.pace.multiplier) : s.RepeatEnds :=
  ⟨s.repeated.length, (lag_rounds hm).1, (lag_rounds hm).2, s.repeatSample_eq_rounds⟩

/-- Each round makes up for one multiplier of the lag. -/
theorem length_repeated (hm : 0 < s.pace.multiplier) (hlag : s.pace.written ≤ s.pace.computed) :
    s.repeated.length = (s.pace.computed - s.pace.written) / s.pace.multiplier + 1 := by
  obtain ⟨hrounds, hend⟩ := lag_rounds hm
  rw [length_repeated_of_lag ⟨hlag, hm⟩] at hrounds hend ⊢
  have hlast := hrounds s.round.repeated.length (Nat.lt_succ_self _)
  rw [pace_rounds] at hlast hend
  simp only [Nat.succ_mul] at hlast hend
  have hdiv : (s.pace.computed - s.pace.written) / s.pace.multiplier = s.round.repeated.length :=
    Nat.div_eq_of_lt_le (by omega) (by rw [Nat.succ_mul]; omega)
  rw [hdiv]

end Rounds

/-! ## The parts of a tick -/

section Parts

variable {s : Sound}

theorem perform_of_real (h : s.pace.multiplier = Pace.unit) :
    Part.perform s .compute = s.computeSample ∧ Part.perform s .write = s.writeSample := by
  have hcomputed : s.pace.countComputed = s.computeSample.pace := by
    rw [pace_computeSample]
    exact if_pos h
  have hwritten : s.pace.countWritten = s.writeSample.pace := by
    rw [pace_writeSample]
    exact if_pos h
  unfold Part.perform
  dsimp only
  rw [hcomputed, hwritten]
  exact ⟨rfl, rfl⟩

theorem perform_compute_of_ne (h : s.pace.multiplier ≠ Pace.unit) :
    Part.perform s .compute = { s.computeSample with
      pace := { s.computeSample.pace with computed := s.computeSample.pace.computed + Pace.unit } } := by
  unfold Part.perform Pace.countComputed
  dsimp only
  rw [if_neg h, pace_computeSample]

theorem perform_write_of_ne (h : s.pace.multiplier ≠ Pace.unit) :
    Part.perform s .write = s.round := by
  unfold Part.perform Pace.countWritten
  dsimp only
  rw [if_neg h]
  rfl

theorem performParts_writes (h : s.pace.multiplier ≠ Pace.unit) (n : Nat) :
    (List.replicate n Part.write).foldl Part.perform s = round^[n] s := by
  induction n generalizing s with
  | zero => rfl
  | succ n ih =>
    rw [List.replicate_succ, List.foldl_cons, perform_write_of_ne h]
    exact ih (s := s.round) h

/-- A tick of the sampler is its parts. -/
theorem performParts_tickParts (s : Sound) : s.tickParts.foldl Part.perform s = s.sampleTick := by
  unfold tickParts sampleTick
  by_cases hreal : s.pace.multiplier = Pace.unit
  · have hreal' : s.computeSample.pace.multiplier = Pace.unit := by rwa [pace_computeSample]
    rw [if_pos hreal, if_pos hreal]
    show Part.perform (Part.perform s .compute) .write = _
    rw [(perform_of_real hreal).1, (perform_of_real hreal').2]
  · rw [if_neg hreal, if_neg hreal]
    by_cases hslow : s.pace.multiplier < Pace.unit
    · have hrepeated : s.repeatSample.pace.multiplier ≠ Pace.unit := by
        rw [repeatSample_eq_rounds, pace_rounds]
        exact hreal
      rw [if_pos hslow, if_pos hslow, List.foldl_append, performParts_writes hreal,
        ← repeatSample_eq_rounds]
      exact perform_compute_of_ne hrepeated
    · have hcomputed : (Part.perform s .compute).pace.multiplier ≠ Pace.unit := by
        rw [perform_compute_of_ne hreal, pace_computeSample]
        exact hreal
      rw [if_neg hslow, if_neg hslow]
      unfold skipSample
      dsimp only
      rw [← perform_compute_of_ne hreal]
      split
      · rfl
      · show Part.perform (Part.perform s .compute) .write = _
        rw [perform_write_of_ne hcomputed, round_eq]
        rw [pace_writeSample]

/-- A tick computes one sample. -/
theorem count_compute_tickParts (s : Sound) : s.tickParts.count .compute = 1 := by
  unfold tickParts
  split
  · rfl
  · split
    · rw [List.count_append, List.count_replicate]
      rfl
    · split <;> rfl

theorem pace_performParts (s : Sound) (parts : List Part) :
    (parts.foldl Part.perform s).pace =
      if s.pace.multiplier = Pace.unit then s.pace
      else
        { s.pace with
          computed := s.pace.computed + parts.count .compute * Pace.unit
          written := s.pace.written + parts.count .write * s.pace.multiplier } := by
  induction parts generalizing s with
  | nil =>
    simp only [List.foldl_nil, List.count_nil, Nat.zero_mul, Nat.add_zero, ite_self]
  | cons part parts ih =>
    rw [List.foldl_cons, ih]
    by_cases hreal : s.pace.multiplier = Pace.unit
    · have hstill : (Part.perform s part).pace = s.pace := by
        cases part <;> exact if_pos hreal
      rw [hstill, if_pos hreal, if_pos hreal]
    · cases part with
      | compute =>
        have hpace : (Part.perform s .compute).pace =
            { s.pace with computed := s.pace.computed + Pace.unit } := if_neg hreal
        rw [hpace, if_neg hreal, if_neg hreal, List.count_cons_self, Nat.succ_mul,
          List.count_cons_of_ne (by decide)]
        simp only [Nat.add_assoc, Nat.add_comm Pace.unit]
      | write =>
        have hpace : (Part.perform s .write).pace =
            { s.pace with written := s.pace.written + s.pace.multiplier } := if_neg hreal
        rw [hpace, if_neg hreal, if_neg hreal, List.count_cons_self, Nat.succ_mul,
          List.count_cons_of_ne (by decide)]
        simp only [Nat.add_assoc, Nat.add_comm s.pace.multiplier]

/-- The samples that a tick writes are those that are still missing from what is asked for. -/
theorem count_write_tickParts {n : Nat} (hm : 0 < s.pace.multiplier)
    (h : s.pace = .afterTicks s.pace.multiplier n) :
    Pace.quota s.pace.multiplier n + s.tickParts.count .write =
      Pace.quota s.pace.multiplier (n + 1) := by
  unfold tickParts
  by_cases hreal : s.pace.multiplier = Pace.unit
  · have hquota : ∀ n, Pace.quota s.pace.multiplier n = n := by
      intro n
      cases n with
      | zero => rfl
      | succ n => exact if_pos hreal
    rw [if_pos hreal, hquota, hquota]
    rfl
  · obtain ⟨hcomputed, hwritten⟩ := Pace.counters_of_eq h hreal
    rw [if_neg hreal]
    by_cases hslow : s.pace.multiplier < Pace.unit
    · obtain ⟨hlag, hquota⟩ := Pace.quota_slow (n := n) hm hslow
      rw [if_pos hslow, List.count_append, List.count_replicate_self,
        length_repeated hm (by omega), hcomputed, hwritten, hquota]
      rfl
    · rw [if_neg hslow, hcomputed, hwritten, Pace.quota_succ_fast (by omega)]
      split <;> rfl

theorem pace_sampleTick {n : Nat} (hm : 0 < s.pace.multiplier)
    (h : s.pace = .afterTicks s.pace.multiplier n) :
    s.sampleTick.pace = .afterTicks s.pace.multiplier (n + 1) := by
  rw [← performParts_tickParts, pace_performParts, count_compute_tickParts]
  by_cases hreal : s.pace.multiplier = Pace.unit
  · rw [if_pos hreal]
    exact h.trans ((if_pos hreal).trans (if_pos hreal).symm)
  · obtain ⟨hcomputed, hwritten⟩ := Pace.counters_of_eq h hreal
    rw [if_neg hreal, hcomputed, hwritten, ← Nat.add_mul, ← Nat.add_mul, count_write_tickParts hm h]
    exact (if_neg hreal).symm

end Parts

/-! ## What is not counted -/

/-- Neither the counters differ nor the sample that is written next. -/
structure KeepsPace (s t : Sound) : Prop where
  pace : t.pace = s.pace
  last : t.last = s.last

theorem KeepsPace.refl (s : Sound) : s.KeepsPace s := ⟨rfl, rfl⟩

theorem keepsPace_apply (s : Sound) (addr : UInt16) (val : UInt8) :
    s.KeepsPace (s.apply addr val) := by
  unfold Sound.apply
  split
  all_goals first
    | exact ⟨rfl, rfl⟩
    | split <;> exact ⟨rfl, rfl⟩

theorem keepsPace_powerOff (s : Sound) : s.KeepsPace s.powerOff := by
  unfold powerOff
  exact ⟨rfl, rfl⟩

theorem keepsPace_write {s : Sound} {addr : UInt16} {val : UInt8}
    (h : s.powersOn (.write addr val) = false) : s.KeepsPace (s.write addr val) := by
  unfold Sound.write
  split
  · exact .refl s
  · split
    · rename_i haddr
      subst haddr
      rcases writePower_of_not_powersOn h with hoff | hsame
      · rw [hoff]
        exact s.keepsPace_powerOff
      · rw [hsame]
        exact .refl s
    · split
      · exact .refl s
      · have happly := keepsPace_apply
          { s with registers := s.registers.write (addr.toNat - 0xFF10) val } addr val
        exact ⟨happly.pace, happly.last⟩

theorem keepsPace_sequencerTick (s : Sound) (tick : Nat) : s.KeepsPace (s.sequencerTick tick) := by
  unfold sequencerTick
  split
  · exact .refl s
  · dsimp only
    split <;> split <;> split <;> exact ⟨rfl, rfl⟩

/-! ## Histories -/

/-- A controller, and a record of its samples. What is counted is counted from the last time that
the counters were reset. -/
structure Tally where
  sound : Sound
  /-- The multiplier that was set last. -/
  multiplier : Nat
  /-- Ticks of the sampler. -/
  ticks : Nat
  computed : Nat
  written : Nat
  /-- The sample that was computed last since the power was switched on. -/
  latest : StereoSample
  /-- Every sample that was written, and what was done with the queue. -/
  events : List Outlet.Event

namespace Tally

def start (depth : Nat) : Tally := ⟨initial depth, Pace.unit, 0, 0, 0, .silence, []⟩

def part (x : Tally) (p : Part) : Tally :=
  let sound := p.perform x.sound
  match p with
  | .compute => { x with sound, computed := x.computed + 1, latest := x.sound.nextSample }
  | .write => { x with sound, written := x.written + 1, events := x.events ++ [.write x.latest] }

def step (x : Tally) (step : Step) : Tally :=
  let sound := x.sound.perform step
  match step with
  | .write addr val =>
    if x.sound.powersOn (.write addr val) then
      { x with sound, ticks := 0, computed := 0, written := 0, latest := .silence }
    else { x with sound }
  | .setMultiplier multiplier =>
    { x with
      sound, multiplier, ticks := 0, computed := 0, written := 0
      events := x.events ++ [.request .clear] }
  | .request request => { x with sound, events := x.events ++ [.request request] }
  | .tell _ | .sequence _ => { x with sound }
  | .sample => { x.sound.tickParts.foldl part x with ticks := x.ticks + 1 }

def run (x : Tally) (steps : List Step) : Tally := steps.foldl step x

/-- The sample to be written next is the one that was computed last, and what has become of the
frames and of the queue is what the recorded samples make of them. -/
structure Tracks (depth : Nat) (x : Tally) : Prop where
  last : x.sound.last = x.latest
  outlet : x.sound.outlet = (initial depth).outlet.applyAll x.events

/-- The controller keeps pace. As many samples were computed as the sampler did ticks, and as many
written as the multiplier asks for, and the counters say so too. -/
structure Paced (depth : Nat) (x : Tally) : Prop extends Tracks depth x where
  computed : x.computed = x.ticks
  written : x.written = Pace.quota x.multiplier x.ticks
  counters : x.sound.pace = .afterTicks x.multiplier x.ticks

variable {depth : Nat} {x : Tally}

theorem outlet_record (h : x.sound.outlet = (initial depth).outlet.applyAll x.events)
    (event : Outlet.Event) :
    x.sound.outlet.apply event = (initial depth).outlet.applyAll (x.events ++ [event]) := by
  rw [Outlet.applyAll_append, ← h]
  rfl

theorem Tracks.part (h : x.Tracks depth) (p : Part) : (x.part p).Tracks depth := by
  cases p with
  | compute => exact ⟨x.sound.last_computeSample, x.sound.outlet_computeSample.trans h.outlet⟩
  | write =>
    refine ⟨x.sound.last_writeSample.trans h.last, ?_⟩
    show x.sound.writeSample.outlet = _
    rw [outlet_writeSample, h.last]
    exact outlet_record h.outlet (.write x.latest)

/-- What the parts of a tick add to the record. -/
theorem parts_counted (x : Tally) (parts : List Part) :
    (parts.foldl Tally.part x).sound = parts.foldl Part.perform x.sound ∧
      (parts.foldl Tally.part x).multiplier = x.multiplier ∧
      (parts.foldl Tally.part x).ticks = x.ticks ∧
      (parts.foldl Tally.part x).computed = x.computed + parts.count .compute ∧
      (parts.foldl Tally.part x).written = x.written + parts.count .write := by
  induction parts generalizing x with
  | nil => exact ⟨rfl, rfl, rfl, rfl, rfl⟩
  | cons p parts ih =>
    obtain ⟨hsound, hmultiplier, hticks, hcomputed, hwritten⟩ := ih (x.part p)
    rw [List.foldl_cons, hsound, hmultiplier, hticks, hcomputed, hwritten]
    cases p with
    | compute => simp [Tally.part, Nat.add_comm, Nat.add_left_comm]
    | write => simp [Tally.part, Nat.add_comm, Nat.add_left_comm]

theorem sound_step (x : Tally) (step : Step) : (x.step step).sound = x.sound.perform step := by
  cases step with
  | write addr val =>
    unfold Tally.step
    dsimp only
    split <;> rfl
  | sample =>
    exact (parts_counted x x.sound.tickParts).1.trans x.sound.performParts_tickParts
  | _ => rfl

theorem sound_run (x : Tally) (steps : List Step) :
    (x.run steps).sound = x.sound.performAll steps := by
  induction steps generalizing x with
  | nil => rfl
  | cons step steps ih =>
    refine (ih (x.step step)).trans ?_
    rw [sound_step]
    rfl

theorem Paced.multiplier (h : x.Paced depth) : x.sound.pace.multiplier = x.multiplier := by
  rw [h.counters]
  exact Pace.multiplier_afterTicks _ _

theorem Paced.sample (h : x.Paced depth) (hm : 0 < x.multiplier) :
    (x.step .sample).Paced depth := by
  obtain ⟨hsound, hsame, -, hcomputed, hwritten⟩ := parts_counted x x.sound.tickParts
  have hmultiplier : (x.step .sample).multiplier = x.multiplier := hsame
  have hcounters : x.sound.pace = .afterTicks x.sound.pace.multiplier x.ticks := by
    rw [h.multiplier]
    exact h.counters
  rw [← h.multiplier] at hm
  have htracks : (x.sound.tickParts.foldl Tally.part x).Tracks depth :=
    List.foldlRecOn x.sound.tickParts Tally.part h.toTracks fun _ hy p _ => hy.part p
  refine { htracks with computed := ?_, written := ?_, counters := ?_ }
  · show (x.sound.tickParts.foldl Tally.part x).computed = x.ticks + 1
    rw [hcomputed, h.computed, count_compute_tickParts]
  · show (x.sound.tickParts.foldl Tally.part x).written = Pace.quota _ (x.ticks + 1)
    rw [hwritten, h.written, hmultiplier, ← h.multiplier]
    exact count_write_tickParts hm hcounters
  · show (x.sound.tickParts.foldl Tally.part x).sound.pace = .afterTicks _ (x.ticks + 1)
    rw [hsound, performParts_tickParts, hmultiplier, ← h.multiplier]
    exact pace_sampleTick hm hcounters

/-- Switching the power on begins to count anew, and so does setting the speed. -/
theorem Paced.write (h : x.Paced depth) (addr : UInt16) (val : UInt8) :
    (x.step (.write addr val)).Paced depth := by
  have houtlet := (x.sound.outlet_write addr val).trans h.outlet
  unfold Tally.step
  dsimp only
  split
  · rename_i hpower
    obtain ⟨⟨rfl, hon⟩, hoff⟩ :
        (addr = 0xFF26 ∧ anySet val 0x80 = true) ∧ x.sound.powered = false := by
      simpa [powersOn] using hpower
    have hsound : x.sound.write 0xFF26 val = x.sound.powerOn := write_powerOn hoff hon
    refine ⟨⟨?_, houtlet⟩, rfl, rfl, ?_⟩
    · exact congrArg Sound.last hsound
    · refine (congrArg Sound.pace hsound).trans ?_
      show Pace.ofMultiplier x.sound.pace.multiplier = _
      rw [h.multiplier, Pace.afterTicks_zero]
  · rename_i hpower
    have hkeeps := keepsPace_write (Bool.eq_false_iff.2 hpower)
    exact ⟨⟨hkeeps.last.trans h.last, houtlet⟩, h.computed, h.written,
      hkeeps.pace.trans h.counters⟩

theorem paced_start (depth : Nat) : (start depth).Paced depth where
  last := rfl
  outlet := rfl
  computed := rfl
  written := rfl
  counters := rfl

theorem Paced.step (h : x.Paced depth) (hm : 0 < x.multiplier) (step : Step) :
    (x.step step).Paced depth := by
  cases step with
  | write addr val => exact h.write addr val
  | setMultiplier multiplier =>
    exact ⟨⟨h.last, outlet_record h.outlet (.request .clear)⟩, rfl, rfl,
      (Pace.afterTicks_zero multiplier).symm⟩
  | request request =>
    exact ⟨⟨h.last, outlet_record h.outlet (.request request)⟩, h.computed, h.written, h.counters⟩
  | tell now => exact ⟨⟨h.last, h.outlet⟩, h.computed, h.written, h.counters⟩
  | sequence tick =>
    have hkeeps := x.sound.keepsPace_sequencerTick tick
    exact ⟨⟨hkeeps.last.trans h.last, (x.sound.outlet_sequencerTick tick).trans h.outlet⟩,
      h.computed, h.written, hkeeps.pace.trans h.counters⟩
  | sample => exact h.sample hm

theorem multiplier_step (hm : 0 < x.multiplier) {step : Step}
    (hstep : ∀ multiplier, step = .setMultiplier multiplier → 1 ≤ multiplier) :
    0 < (x.step step).multiplier := by
  cases step with
  | write addr val =>
    unfold Tally.step
    dsimp only
    split <;> exact hm
  | setMultiplier multiplier => exact hstep multiplier rfl
  | sample =>
    have hsame := (parts_counted x x.sound.tickParts).2.1
    exact hsame.symm ▸ hm
  | _ => exact hm

theorem Paced.run (h : x.Paced depth) (hm : 0 < x.multiplier) {steps : List Step}
    (hspeeds : ∀ multiplier, .setMultiplier multiplier ∈ steps → 1 ≤ multiplier) :
    (x.run steps).Paced depth ∧ 0 < (x.run steps).multiplier := by
  refine List.foldlRecOn (motive := fun y => y.Paced depth ∧ 0 < y.multiplier) steps Tally.step
    ⟨h, hm⟩ fun y hy step hmem => ⟨hy.1.step hy.2 step, multiplier_step hy.2 ?_⟩
  rintro multiplier rfl
  exact hspeeds multiplier hmem

end Tally

/-- Whatever is done with a controller from the time that it is made, and at any point of it: as
many samples were computed as the sampler did ticks since the counters were reset, and as many
written as the multiplier asks for. Every sample written is the one that was computed last. The loop
that repeats a sample ends. -/
theorem speed_never_drifts (depth : Nat) (uses : List Use)
    (hspeeds : ∀ multiplier, .operate (.setMultiplier multiplier) ∈ uses → 1 ≤ multiplier) :
    ((Tally.start depth).run ((initial depth).steps uses)).sound = (initial depth).useAll uses ∧
      ∀ n, let x := (Tally.start depth).run (((initial depth).steps uses).take n)
        x.Paced depth ∧ x.sound.RepeatEnds := by
  constructor
  · rw [Tally.sound_run]
    exact performAll_steps _ _
  · intro n x
    obtain ⟨hpaced, hm⟩ : x.Paced depth ∧ 0 < x.multiplier :=
      (Tally.paced_start depth).run (show 0 < Pace.unit by decide) fun multiplier hmem =>
        hspeeds multiplier (setMultiplier_of_mem_steps (List.mem_of_mem_take hmem))
    exact ⟨hpaced, repeatEnds (hpaced.multiplier ▸ hm)⟩

/-- As long as all multipliers are set as speeds are, whatever these speeds, none of them is
zero. -/
theorem one_le_of_setSpeed {uses : List Use}
    (h : ∀ multiplier, .operate (.setMultiplier multiplier) ∈ uses →
      ∃ speed, ∀ s : Sound, s.setMultiplier multiplier = s.setSpeed speed) :
    ∀ multiplier, .operate (.setMultiplier multiplier) ∈ uses → 1 ≤ multiplier := by
  intro multiplier hmem
  obtain ⟨speed, hset⟩ := h multiplier hmem
  have hmultiplier : multiplier = Pace.multiplierOf speed :=
    congrArg (·.pace.multiplier) (hset (initial 0))
  rw [hmultiplier]
  exact Pace.one_le_multiplierOf speed

/-- At half speed for three ticks, and then half as fast again as in real time for four. -/
def slowThenFast : List Use :=
  [.operate (.setMultiplier 0x8000), .operate (.update 0), .operate (.update 200),
    .operate (.setMultiplier 0x18000), .operate (.update 600)]

theorem speed_never_drifts_slowThenFast :
    let slow := (Tally.start 2).run (((initial 2).steps slowThenFast).take 7)
    let fast := (Tally.start 2).run (((initial 2).steps slowThenFast).take 13)
    slow.ticks = 3 ∧ slow.computed = 3 ∧ slow.written = 5 ∧
      fast.ticks = 4 ∧ fast.computed = 4 ∧ fast.written = 2 := by
  intro slow fast
  have hspeeds : ∀ multiplier, .operate (.setMultiplier multiplier) ∈ slowThenFast →
      ∃ speed, ∀ s : Sound, s.setMultiplier multiplier = s.setSpeed speed := by
    intro multiplier hmem
    have hset : multiplier = 0x8000 ∨ multiplier = 0x18000 := by simpa [slowThenFast] using hmem
    rcases hset with rfl | rfl
    · exact ⟨0.5, fun s => rfl⟩
    · exact ⟨1.5, fun s => rfl⟩
  obtain ⟨-, hpaced⟩ := speed_never_drifts 2 slowThenFast (one_le_of_setSpeed hspeeds)
  have hslow : slow.ticks = 3 ∧ slow.multiplier = 0x8000 := by decide +kernel
  have hfast : fast.ticks = 4 ∧ fast.multiplier = 0x18000 := by decide +kernel
  have hpacedSlow := (hpaced 7).1
  have hpacedFast := (hpaced 13).1
  refine ⟨hslow.1, hpacedSlow.computed.trans hslow.1, hpacedSlow.written.trans ?_, hfast.1,
    hpacedFast.computed.trans hfast.1, hpacedFast.written.trans ?_⟩
  · show Pace.quota slow.multiplier slow.ticks = 5
    rw [hslow.1, hslow.2]
    decide
  · show Pace.quota fast.multiplier fast.ticks = 2
    rw [hfast.1, hfast.2]
    decide

end DotMatrix.Sound
