import DotMatrix.Cartridge.RealTimeClock
import DotMatrix.Proofs.Time.Reading

/-!
# The clock as a stopwatch

A clock that has not been written to shows how long it has run (`HasRun`), and what a write makes
of it is one of four things (`Outcome`). From this follows that the clock is a stopwatch that can
be set: a write replaces one field of what it shows, a halted clock keeps what it shows, a running
one counts the seconds, and pauses of any number leave no trace in the count
(`settable_stopwatch`).
-/

namespace DotMatrix

/-! ## Registers -/

namespace ClockRegisters

structure InRange (r : ClockRegisters) : Prop where
  seconds : r.seconds < 60
  minutes : r.minutes < 60
  hours : r.hours < 24
  days : r.days < dayCounterLimit

/-- Seconds that the registers can tell apart, the carry included. -/
def span : ℕ := 2 * dayCounterLimit * secondsPerDay

theorem inRange_ofElapsed (n : ℕ) (halt : Bool) : (ofElapsed n halt).InRange :=
  ⟨Nat.mod_lt _ (by decide), Nat.mod_lt _ (by decide), Nat.mod_lt _ (by decide),
    Nat.mod_lt _ (by decide)⟩

variable {r : ClockRegisters}

theorem InRange.write (h : r.InRange) (reg val : UInt8) : (r.write reg val).InRange := by
  have hval := val.toNat_lt
  have hdays := h.days
  unfold dayCounterLimit at hdays
  unfold ClockRegisters.write
  split
  · exact { h with seconds := Nat.mod_lt _ (by decide) }
  · exact { h with minutes := Nat.mod_lt _ (by decide) }
  · exact { h with hours := Nat.mod_lt _ (by decide) }
  · exact { h with days := show r.days / 256 * 256 + val.toNat < 512 by omega }
  · exact { h with days := show val.toNat % 2 * 256 + r.days % 256 < 512 by omega }
  · exact h

/-- Registers in their ranges are those of the seconds that they add up to. -/
theorem InRange.ofElapsed_totalSeconds (h : r.InRange) (halt : Bool) :
    ofElapsed r.totalSeconds halt = { r with halt := halt } := by
  obtain ⟨hseconds, hminutes, hhours, hdays⟩ := h
  unfold dayCounterLimit at hdays
  -- the days with those that the carry stands for
  obtain ⟨d, hd⟩ : ∃ d, d = r.days + if r.carry then dayCounterLimit else 0 := ⟨_, rfl⟩
  have htotal : r.totalSeconds = r.seconds + r.minutes * 60 + r.hours * 3600 + d * 86400 := by
    rw [hd]
    rfl
  have hmod : d % 512 = r.days ∧ decide (512 ≤ d) = r.carry := by
    unfold dayCounterLimit at hd
    cases hcarry : r.carry <;> simp [hcarry] at hd ⊢ <;> omega
  have hday : r.totalSeconds / secondsPerDay = d := by
    unfold secondsPerDay
    omega
  simp only [ofElapsed, hday, dayCounterLimit, hmod, ClockRegisters.mk.injEq, and_true]
  omega

theorem InRange.totalSeconds_lt (h : r.InRange) : r.totalSeconds < span := by
  obtain ⟨hseconds, hminutes, hhours, hdays⟩ := h
  unfold totalSeconds span
  simp only [dayCounterLimit, secondsPerDay] at *
  split <;> omega

theorem sameTime_iff {s : ClockRegisters} :
    r.sameTime s = true ↔ { r with halt := false } = { s with halt := false } := by
  simp [sameTime]

end ClockRegisters

namespace RealTimeClock

open ClockRegisters (span)

variable {τ : Type} {c c' : RealTimeClock τ}

/-! ## Written registers -/

/-- Registers are kept only while the clock is halted, and they say so. -/
structure Regular (c : RealTimeClock τ) : Prop where
  stopped : ∀ r ∈ c.written, c.stoppedAt.isSome = true
  halt : ∀ r ∈ c.written, r.halt = true
  inRange : ∀ r ∈ c.written, r.InRange

theorem Regular.of_none (h : c.written = none) : c.Regular := by
  constructor <;> intro r hr <;> rw [h] at hr <;> cases hr

theorem Regular.of_eq {c' : RealTimeClock τ} (h : c.Regular) (hwritten : c'.written = c.written)
    (hstopped : c'.stoppedAt = c.stoppedAt) : c'.Regular := by
  obtain ⟨hsome, hhalt, hrange⟩ := h
  rw [← hwritten] at hsome hhalt hrange
  rw [← hstopped] at hsome
  exact ⟨hsome, hhalt, hrange⟩

theorem Regular.written_of_running (h : c.Regular) (hstopped : c.stoppedAt = none) :
    c.written = none := by
  cases hwritten : c.written with
  | none => rfl
  | some r =>
    have hsome := h.stopped r hwritten
    rw [hstopped] at hsome
    cases hsome

variable [Timeline τ] {R : Timeline.Reading τ} {now : τ} {regs : ClockRegisters} {x x' e : ℚ}
  {n : ℕ}

/-! ## What a write does -/

/-- The clock is to show another time than it would show without the write. -/
def Moves (c : RealTimeClock τ) (now : τ) (regs : ClockRegisters) : Bool :=
  c.written.isSome || !regs.sameTime (c.current now)

def keep (c : RealTimeClock τ) (now : τ) (written : Option ClockRegisters) : RealTimeClock τ :=
  { c with stoppedAt := some (c.stoppedAt.getD now), written := written }

def startAt (c : RealTimeClock τ) (start : τ) : RealTimeClock τ :=
  { c with start := start, stoppedAt := none, written := none, dirty := true }

/-- What a write makes of the clock when its registers are to be `regs`. -/
inductive Outcome (c : RealTimeClock τ) (now : τ) (regs : ClockRegisters) :
    RealTimeClock τ → Prop
  | kept : regs.halt = true → Moves c now regs = true →
      Outcome c now regs (c.keep now (some regs))
  | halted : regs.halt = true → Moves c now regs = false → Outcome c now regs (c.keep now none)
  | resumed {stopped : τ} : regs.halt = false → Moves c now regs = false →
      c.stoppedAt = some stopped →
      Outcome c now regs (c.startAt (Timeline.skip c.start stopped now))
  | set : regs.halt = false → c.stoppedAt = none ∨ Moves c now regs = true →
      Outcome c now regs (c.startAt (Timeline.before now regs.totalSeconds))

theorem outcome_write (c : RealTimeClock τ) (now : τ) (reg val : UInt8) :
    Outcome c now ((c.current now).write reg val) (c.write now reg val) := by
  unfold write
  dsimp only
  generalize (c.current now).write reg val = regs
  split
  · rename_i hhalt
    show Outcome c now regs (c.keep now (if c.Moves now regs then some regs else none))
    cases hmoved : c.Moves now regs with
    | false => exact .halted hhalt hmoved
    | true => exact .kept hhalt hmoved
  · rename_i hruns
    have hhalt : regs.halt = false := Bool.eq_false_iff.2 hruns
    cases hstopped : c.stoppedAt with
    | none => exact .set hhalt (.inl hstopped)
    -- the clock goes on from where it stopped, unless it is to show another time
    | some stopped =>
      show Outcome c now regs (c.startAt (if c.Moves now regs then _ else _))
      cases hmoved : c.Moves now regs with
      | false => exact .resumed hhalt hmoved hstopped
      | true => exact .set hhalt (.inr hmoved)

theorem moves_eq_false_iff : Moves c now regs = false ↔
    c.written = none ∧ { regs with halt := false } = { c.current now with halt := false } := by
  simp [Moves, ClockRegisters.sameTime_iff]

/-! ## Registers that are shown -/

theorem Regular.inRange_current (h : c.Regular) (now : τ) : (c.current now).InRange := by
  unfold current
  split
  · rename_i r hr
    exact h.inRange r hr
  · exact ClockRegisters.inRange_ofElapsed _ _

theorem Regular.halt_current (h : c.Regular) (now : τ) :
    (c.current now).halt = c.stoppedAt.isSome := by
  unfold current
  split
  · rename_i r hr
    rw [h.halt r hr, h.stopped r hr]
  · rfl

theorem Outcome.regular (h : Outcome c now regs c') (hrange : regs.InRange) : c'.Regular := by
  cases h with
  | kept hhalt => constructor <;> rintro r ⟨⟩ <;> first | rfl | exact hhalt | exact hrange
  | halted => exact .of_none rfl
  | resumed => exact .of_none rfl
  | set => exact .of_none rfl

theorem Regular.write (h : c.Regular) (now : τ) (reg val : UInt8) :
    (c.write now reg val).Regular :=
  (outcome_write c now reg val).regular ((h.inRange_current now).write reg val)

/-! ## How long the clock has run -/

/-- At the time `x` the clock has run for `e` seconds, those before a halt only. -/
inductive HasRun (R : Timeline.Reading τ) (c : RealTimeClock τ) (x : ℚ) : ℚ → Prop
  | running {e : ℚ} : c.stoppedAt = none → 0 ≤ e → R.Reads c.start (x - e) → HasRun R c x e
  | halted {stopped : τ} {y e : ℚ} : c.stoppedAt = some stopped → R.Reads stopped y → y ≤ x →
      0 ≤ e → R.Reads c.start (y - e) → HasRun R c x e

theorem HasRun.current_eq (h : HasRun R c x e) (hnow : R.Reads now x) (hwritten : c.written = none) :
    c.current now = .ofElapsed ⌊e⌋₊ c.stoppedAt.isSome := by
  unfold current
  rw [hwritten]
  cases h with
  | running hstopped he hstart =>
    have helapsed := R.elapsed_eq hstart hnow
    rw [sub_sub_cancel] at helapsed
    rw [hstopped, Option.getD_none, helapsed]
  | halted hstopped hread hle he hstart =>
    have helapsed := R.elapsed_eq hstart hread
    rw [sub_sub_cancel] at helapsed
    rw [hstopped, Option.getD_some, helapsed]

theorem HasRun.wait (h : HasRun R c x e) (hle : x ≤ x') :
    HasRun R c x' (if c.stoppedAt.isSome then e else e + (x' - x)) := by
  cases h with
  | running hstopped he hstart =>
    rw [hstopped, Option.isSome_none, if_neg Bool.false_ne_true]
    refine .running hstopped (by linarith) ?_
    rwa [show x' - (e + (x' - x)) = x - e by ring]
  | halted hstopped hread hle' he hstart =>
    rw [hstopped, Option.isSome_some, if_pos rfl]
    exact .halted hstopped hread (hle'.trans hle) he hstart

/-- Halting a clock, or leaving it halted, does not add to its time. -/
theorem HasRun.keep (h : HasRun R c x e) (hnow : R.Reads now x) (written : Option ClockRegisters) :
    HasRun R (c.keep now written) x e := by
  cases h with
  | running hstopped he hstart =>
    refine .halted ?_ hnow le_rfl he hstart
    rw [RealTimeClock.keep, hstopped, Option.getD_none]
  | halted hstopped hread hle he hstart =>
    refine .halted ?_ hread hle he hstart
    rw [RealTimeClock.keep, hstopped, Option.getD_some]

/-- A resumed clock goes on with the time that it stopped at. -/
theorem HasRun.resume {stopped : τ} (h : HasRun R c x e) (hnow : R.Reads now x)
    (hstopped : c.stoppedAt = some stopped) :
    HasRun R (c.startAt (Timeline.skip c.start stopped now)) x e := by
  cases h with
  | running hnone => rw [hnone] at hstopped; cases hstopped
  | halted hstopped' hread hle he hstart =>
    obtain rfl := Option.some.inj (hstopped'.symm.trans hstopped)
    refine .running rfl he ?_
    have hskip := R.reads_skip hstart hread hnow (by linarith) hle
    rwa [show ∀ y : ℚ, y - e + (x - y) = x - e from fun y => by ring] at hskip

theorem hasRun_startAt (hnow : R.Reads now x) (hlate : R.earliest ≤ x - n) :
    HasRun R (c.startAt (Timeline.before now n)) x n :=
  .running rfl n.cast_nonneg (R.reads_before hnow hlate)

/-! ## Histories -/

/-- A clock that starts at zero, or at a saved time that is not in the future, after any writes at
times that do not go back. -/
inductive Reached (R : Timeline.Reading τ) : RealTimeClock τ → τ → ℚ → Prop
  | created {now : τ} {x : ℚ} {saved : Option τ} : R.Reads now x → R.earliest + span ≤ x →
      (∀ start ∈ saved, ∃ y ≤ x, R.Reads start y) → Reached R (.create now saved) now x
  | waited {c : RealTimeClock τ} {now now' : τ} {x x' : ℚ} : Reached R c now x →
      R.Reads now' x' → x ≤ x' → Reached R c now' x'
  | written {c : RealTimeClock τ} {now : τ} {x : ℚ} (reg val : UInt8) : Reached R c now x →
      Reached R (c.write now reg val) now x

/-- What holds of a clock at every time after every history. -/
structure Steady (R : Timeline.Reading τ) (c : RealTimeClock τ) (now : τ) (x : ℚ) : Prop where
  regular : c.Regular
  hasRun : ∃ e, HasRun R c x e
  reads : R.Reads now x
  late : R.earliest + span ≤ x

theorem Steady.earliest_le (h : Steady R c now x) (hrange : regs.InRange) :
    R.earliest ≤ x - regs.totalSeconds := by
  have hlt : (regs.totalSeconds : ℚ) < span := by exact_mod_cast hrange.totalSeconds_lt
  have hlate := h.late
  linarith

theorem Steady.wait {now' : τ} (h : Steady R c now x) (hread : R.Reads now' x') (hle : x ≤ x') :
    Steady R c now' x' :=
  have ⟨_, hrun⟩ := h.hasRun
  ⟨h.regular, ⟨_, hrun.wait hle⟩, hread, h.late.trans hle⟩

theorem Steady.outcome (h : Steady R c now x) (hrange : regs.InRange)
    (ho : Outcome c now regs c') : ∃ e, HasRun R c' x e := by
  obtain ⟨e, hrun⟩ := h.hasRun
  cases ho with
  | kept => exact ⟨e, hrun.keep h.reads _⟩
  | halted => exact ⟨e, hrun.keep h.reads _⟩
  | resumed _ _ hstopped => exact ⟨e, hrun.resume h.reads hstopped⟩
  | set => exact ⟨_, hasRun_startAt h.reads (h.earliest_le hrange)⟩

theorem Steady.write (h : Steady R c now x) (reg val : UInt8) :
    Steady R (c.write now reg val) now x where
  regular := h.regular.write now reg val
  hasRun := h.outcome ((h.regular.inRange_current now).write reg val) (outcome_write c now reg val)
  reads := h.reads
  late := h.late

theorem steady_of_reached (h : Reached R c now x) : Steady R c now x := by
  induction h with
  | @created now x saved hnow hlate hsaved =>
    have hrun : ∃ e, HasRun R (create now saved) x e := by
      cases saved with
      | none => exact ⟨0, .running rfl le_rfl (by rwa [sub_zero])⟩
      | some start =>
        obtain ⟨y, hle, hread⟩ := hsaved start rfl
        refine ⟨x - y, .running rfl (sub_nonneg.2 hle) ?_⟩
        rwa [sub_sub_cancel]
    exact ⟨.of_none rfl, hrun, hnow, hlate⟩
  | waited _ hread hle ih => exact ih.wait hread hle
  | written reg val _ ih => exact ih.write reg val

/-- A write makes the clock show what is written. -/
theorem Steady.current_outcome (h : Steady R c now x) (hrange : regs.InRange)
    (ho : Outcome c now regs c') : c'.current now = regs := by
  obtain ⟨e, hrun⟩ := h.hasRun
  have hshown {halt : Bool} (hmoved : Moves c now regs = false) (hhalt : regs.halt = halt) :
      regs = .ofElapsed ⌊e⌋₊ halt := by
    obtain ⟨hnone, hsame⟩ := moves_eq_false_iff.1 hmoved
    rw [hrun.current_eq h.reads hnone] at hsame
    calc regs = { { regs with halt := false } with halt := halt } := by rw [← hhalt]
      _ = .ofElapsed ⌊e⌋₊ halt := by rw [hsame]; rfl
  cases ho with
  | kept => rfl
  | halted hhalt hmoved =>
    rw [(hrun.keep h.reads none).current_eq h.reads rfl, hshown hmoved hhalt]
    rfl
  | resumed hhalt hmoved hstopped =>
    rw [(hrun.resume h.reads hstopped).current_eq h.reads rfl, hshown hmoved hhalt]
    rfl
  | set hhalt =>
    rw [(hasRun_startAt h.reads (h.earliest_le hrange)).current_eq h.reads rfl, Nat.floor_natCast,
      hrange.ofElapsed_totalSeconds]
    exact congrArg (fun halt => { regs with halt := halt }) hhalt.symm

theorem Steady.current_write (h : Steady R c now x) (reg val : UInt8) :
    (c.write now reg val).current now = (c.current now).write reg val :=
  h.current_outcome ((h.regular.inRange_current now).write reg val) (outcome_write c now reg val)

/-- A history in which the clock is halted and resumed but not set: time passes, and writes that
do not find the clock running or that halt it leave the time that it shows. The clock has run for
`d` seconds of it. -/
inductive Paused (R : Timeline.Reading τ) (c₀ : RealTimeClock τ) (now₀ : τ) (x₀ : ℚ) :
    RealTimeClock τ → τ → ℚ → ℚ → Prop
  | nothing : Paused R c₀ now₀ x₀ c₀ now₀ x₀ 0
  | ran {c : RealTimeClock τ} {now now' : τ} {x x' d : ℚ} : Paused R c₀ now₀ x₀ c now x d →
      (c.current now).halt = false → R.Reads now' x' → x ≤ x' →
      Paused R c₀ now₀ x₀ c now' x' (d + (x' - x))
  | stood {c : RealTimeClock τ} {now now' : τ} {x x' d : ℚ} : Paused R c₀ now₀ x₀ c now x d →
      (c.current now).halt = true → R.Reads now' x' → x ≤ x' → Paused R c₀ now₀ x₀ c now' x' d
  | written {c : RealTimeClock τ} {now : τ} {x d : ℚ} {reg val : UInt8} :
      Paused R c₀ now₀ x₀ c now x d →
      ((c.current now).write reg val).sameTime (c.current now) = true →
      (c.current now).halt = true ∨ ((c.current now).write reg val).halt = true →
      Paused R c₀ now₀ x₀ (c.write now reg val) now x d

/-- Pauses add nothing to the time that the clock has run, and take nothing away. -/
theorem Paused.hasRun {c₀ : RealTimeClock τ} {now₀ : τ} {x₀ d : ℚ} (h₀ : Steady R c₀ now₀ x₀)
    (hwritten : c₀.written = none) (hrun : HasRun R c₀ x₀ e) (h : Paused R c₀ now₀ x₀ c now x d) :
    Steady R c now x ∧ c.written = none ∧ HasRun R c x (e + d) := by
  induction h with
  | nothing => exact ⟨h₀, hwritten, by rwa [add_zero]⟩
  | ran _ hrunning hread hle ih =>
    obtain ⟨hsteady, hnone, hrun⟩ := ih
    rw [hsteady.regular.halt_current] at hrunning
    have hwait := hrun.wait hle
    rw [hrunning, if_neg Bool.false_ne_true, add_assoc] at hwait
    exact ⟨hsteady.wait hread hle, hnone, hwait⟩
  | stood _ hhalted hread hle ih =>
    obtain ⟨hsteady, hnone, hrun⟩ := ih
    rw [hsteady.regular.halt_current] at hhalted
    have hwait := hrun.wait hle
    rw [hhalted, if_pos rfl] at hwait
    exact ⟨hsteady.wait hread hle, hnone, hwait⟩
  | @written c now x d reg val _ hsame hhalts ih =>
    obtain ⟨hsteady, hnone, hrun⟩ := ih
    refine ⟨hsteady.write reg val, ?_⟩
    rw [hsteady.regular.halt_current] at hhalts
    have hstill : Moves c now ((c.current now).write reg val) = false :=
      moves_eq_false_iff.2 ⟨hnone, ClockRegisters.sameTime_iff.1 hsame⟩
    have ho := outcome_write c now reg val
    generalize c.write now reg val = c' at ho
    cases ho with
    | kept _ hmoved => rw [hstill] at hmoved; cases hmoved
    | halted => exact ⟨rfl, hrun.keep hsteady.reads none⟩
    | resumed _ _ hstopped => exact ⟨rfl, hrun.resume hsteady.reads hstopped⟩
    | set hruns hset =>
      rw [hruns] at hhalts
      rcases hset with hstopped | hmoved
      · -- a running clock is written to only to halt it
        simp [hstopped] at hhalts
      · rw [hstill] at hmoved
        cases hmoved

theorem current_of_stopped (h : c.stoppedAt.isSome = true) (now now' : τ) :
    c.current now' = c.current now := by
  obtain ⟨stopped, hstopped⟩ := Option.isSome_iff_exists.1 h
  unfold current
  rw [hstopped, Option.getD_some, Option.getD_some]

/-- The clock is a stopwatch that can be set. A write replaces one field of the registers. A
halted clock keeps them; a running one counts on from the seconds that have passed since its start
time, with a carry after 512 days. Pauses leave no trace in the count, down to fractions of a
second. -/
theorem settable_stopwatch (h : Reached R c now x) :
    (∀ val : UInt8,
      (c.write now 0x08 val).current now =
        { c.current now with seconds := val.toNat % 60 } ∧
      (c.write now 0x09 val).current now =
        { c.current now with minutes := val.toNat % 60 } ∧
      (c.write now 0x0A val).current now =
        { c.current now with hours := val.toNat % 24 } ∧
      (c.write now 0x0B val).current now =
        { c.current now with days := (c.current now).days / 256 * 256 + val.toNat } ∧
      (c.write now 0x0C val).current now =
        { c.current now with
          days := val.toNat % 2 * 256 + (c.current now).days % 256
          halt := val.toNat.testBit 6
          carry := val.toNat.testBit 7 }) ∧
    ((c.current now).halt = true → ∀ now', c.current now' = c.current now) ∧
    ((c.current now).halt = false → ∃ e : ℚ, 0 ≤ e ∧ R.Reads c.start (x - e) ∧
      (∀ (now' : τ) (d : ℕ), R.Reads now' (x + d) →
        c.current now' =
          { seconds := (⌊e⌋₊ + d) % 60
            minutes := (⌊e⌋₊ + d) / 60 % 60
            hours := (⌊e⌋₊ + d) / 3600 % 24
            days := (⌊e⌋₊ + d) / 86400 % 512
            halt := false
            carry := decide (512 ≤ (⌊e⌋₊ + d) / 86400) }) ∧
      ∀ (c' : RealTimeClock τ) (now' : τ) (x' d : ℚ), Paused R c now x c' now' x' d →
        c'.current now' = .ofElapsed ⌊e + d⌋₊ (c'.current now').halt) := by
  have hsteady := steady_of_reached h
  have hregular := hsteady.regular
  refine ⟨fun val => ?_, fun hhalt now' => ?_, fun hrunning => ?_⟩
  · have hwrite := hsteady.current_write
    refine ⟨hwrite _ _, hwrite _ _, hwrite _ _, hwrite _ _, (hwrite _ _).trans ?_⟩
    rw [← anySet_bit val 0x40 6 rfl, ← anySet_bit val 0x80 7 rfl]
    rfl
  · rw [hregular.halt_current] at hhalt
    exact current_of_stopped hhalt now now'
  · rw [hregular.halt_current] at hrunning
    have hstopped : c.stoppedAt = none := by simpa using hrunning
    have hwritten := hregular.written_of_running hstopped
    obtain ⟨e, hrun⟩ := hsteady.hasRun
    obtain ⟨he, hstart⟩ : 0 ≤ e ∧ R.Reads c.start (x - e) := by
      cases hrun with
      | running _ he hstart => exact ⟨he, hstart⟩
      | halted hsome => rw [hstopped] at hsome; cases hsome
    refine ⟨e, he, hstart, fun now' d hread => ?_, fun c' now' x' d hpaused => ?_⟩
    · have hlater := hrun.wait (show x ≤ x + (d : ℚ) by simp)
      rw [hrunning, if_neg Bool.false_ne_true, add_sub_cancel_left] at hlater
      rw [hlater.current_eq hread hwritten, hrunning, Nat.floor_add_natCast he]
      rfl
    · obtain ⟨hsteady', hnone, hrun'⟩ := hpaused.hasRun hsteady hwritten hrun
      rw [hsteady'.regular.halt_current, hrun'.current_eq hsteady'.reads hnone]

/-- A clock with a saved start time, in whole seconds. -/
theorem reached_wholeSeconds {start now : ℕ} (hle : start ≤ now) (hnow : now < 2 ^ 52) :
    Reached (.binary 0 (by decide)) (create (Float.ofNat now) (some (Float.ofNat start)))
      (Float.ofNat now) now := by
  have hearliest : (Timeline.Reading.binary 0 (by decide)).earliest + span ≤ 0 := by
    show -(2 ^ 52 - 1) / 2 ^ 0 + ((88473600 : ℕ) : ℚ) ≤ 0
    norm_num
  refine .created (Timeline.Reading.reads_ofNat hnow) (hearliest.trans now.cast_nonneg) ?_
  rintro _ ⟨⟩
  exact ⟨start, by exact_mod_cast hle, Timeline.Reading.reads_ofNat (hle.trans_lt hnow)⟩

/-- A clock that has run for 900 seconds, is halted for 4000 and then resumed, shows 15 minutes and
3 seconds after 3 more seconds. -/
theorem settable_stopwatch_pause :
    let R := Timeline.Reading.binary 0 (by decide)
    let c := create (Float.ofNat 1000) (some (Float.ofNat 100))
    let halted := c.write (Float.ofNat 1000) 0x0C 0x40
    let resumed := halted.write (Float.ofNat 5000) 0x0C 0x00
    Reached R c (Float.ofNat 1000) 1000 ∧
      Reached R resumed (Float.ofNat 5000) 5000 ∧
      resumed.current (Float.ofNat 5003) = ⟨3, 15, 0, 0, false, false⟩ := by
  intro R c halted resumed
  have hread {n : ℕ} (hn : n < 2 ^ 52) : R.Reads (Float.ofNat n) n := Timeline.Reading.reads_ofNat hn
  have h1000 : R.Reads (Float.ofNat 1000) 1000 := hread (by decide)
  have h100 : R.Reads (Float.ofNat 100) 100 := hread (by decide)
  have h5000 : R.Reads (Float.ofNat 5000) 5000 := hread (by decide)
  have h5003 : R.Reads (Float.ofNat 5003) 5003 := hread (by decide)
  have hrunning : Reached R c (Float.ofNat 1000) 1000 :=
    reached_wholeSeconds (show 100 ≤ 1000 by decide) (by decide)
  have hstanding : Reached R halted (Float.ofNat 5000) 5000 :=
    .waited (.written _ _ hrunning) h5000 (by norm_num)
  have hresumed : Reached R resumed (Float.ofNat 5000) 5000 := .written _ _ hstanding
  obtain ⟨hset, -, hruns⟩ := settable_stopwatch hrunning
  obtain ⟨e, -, hstart, hlater, hpauses⟩ := hruns rfl
  obtain rfl : e = 900 := by linarith [R.unique hstart h100]
  -- what is shown before, between and after the two writes
  have hshown : c.current (Float.ofNat 1000) = ⟨0, 15, 0, 0, false, false⟩ := by
    rw [hlater _ 0 (by simpa using h1000)]
    norm_num
  have hshown₁ : halted.current (Float.ofNat 1000) = ⟨0, 15, 0, 0, true, false⟩ := by
    rw [(hset 0x40).2.2.2.2, hshown]
    decide
  have hshown₂ : halted.current (Float.ofNat 5000) = ⟨0, 15, 0, 0, true, false⟩ := by
    have hkeeps := (settable_stopwatch (.written 0x0C 0x40 hrunning)).2.1 (by rw [hshown₁])
    rw [hkeeps, hshown₁]
  have hshown₃ : resumed.current (Float.ofNat 5000) = ⟨0, 15, 0, 0, false, false⟩ := by
    rw [((settable_stopwatch hstanding).1 0x00).2.2.2.2, hshown₂]
    decide
  refine ⟨hrunning, hresumed, ?_⟩
  have hpaused : Paused R c (Float.ofNat 1000) 1000 resumed (Float.ofNat 5003) 5003
      (0 + (5003 - 5000)) :=
    .ran (.written
        (.stood (.written .nothing (by rw [hshown]; decide) (.inr (by rw [hshown]; decide)))
          (by rw [hshown₁]) h5000 (by norm_num))
        (by rw [hshown₂]; decide) (.inl (by rw [hshown₂])))
      (by rw [hshown₃]) h5003 (by norm_num)
  have hhalt : (resumed.current (Float.ofNat 5003)).halt = false := by
    obtain ⟨_, _, _, hafter, _⟩ := (settable_stopwatch hresumed).2.2 (by rw [hshown₃])
    rw [hafter _ 3 (by norm_num; exact h5003)]
  rw [hpauses _ _ _ _ hpaused, hhalt]
  norm_num [ClockRegisters.ofElapsed, secondsPerDay, dayCounterLimit]

end RealTimeClock

end DotMatrix
