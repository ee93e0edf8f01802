import DotMatrix.Proofs.Cpu.Duration
import DotMatrix.Proofs.Display.Boundary
import DotMatrix.Proofs.Machine.DisplayAccess

/-!
# The budget of a run

A machine runs for a frame or for a number of cycles. Both are loops that a program could try to
keep going: it can halt, stop, and switch the display off and on. Every step takes a few machine
cycles, and once a period's worth of them is over, the display must run for the frame to go on, and
then its next period is near (`BeginsBy`). `ends_within_budget` says that the loops end and when.
-/

namespace DotMatrix

variable {τ : Type}

namespace Timer

theorem now_advance (t : Timer) (n : Nat) :
    (t.advance (n * machineCycle)).1.now = t.now + n * machineCycle := by
  unfold advance
  rw [Nat.mul_div_cancel n (by decide), now_ticks]

end Timer

/-! ## One step -/

namespace Bus

/-- The processor leaves the master clock as it is, and the display goes on unless it is switched
off. -/
structure Continues (b b' : Bus τ) : Prop where
  now : b'.timer.now = b.timer.now
  display : b.display.Continues b'.display

theorem Continues.refl (b : Bus τ) : b.Continues b := ⟨rfl, .refl _⟩

theorem Continues.trans {a b c : Bus τ} (hab : a.Continues b) (hbc : b.Continues c) :
    a.Continues c :=
  ⟨hbc.now.trans hab.now, hab.display.trans hbc.display⟩

/-- What touches neither the timer nor the display. -/
theorem Continues.of_eq {b b' : Bus τ} (htimer : b'.timer = b.timer)
    (hdisplay : b'.display = b.display) : b.Continues b' :=
  ⟨congrArg Timer.now htimer, hdisplay ▸ .refl b.display⟩

theorem continues_setTimer (b : Bus τ) {result : Timer × Bool} (h : result.1.now = b.timer.now) :
    b.Continues (b.setTimer result) :=
  ⟨h, .refl _⟩

theorem continues_runDma (b : Bus τ) : b.Continues b.runDma.2 := by
  -- only object memory changes
  rw [runDma_snd]
  exact ⟨rfl, .on rfl rfl rfl rfl rfl⟩

variable [Timeline τ]

theorem continues_write (b : Bus τ) (addr : UInt16) (val : UInt8) :
    b.Continues (b.write addr val) := by
  have hwritten := b.written_write addr val
  generalize b.write addr val = b' at *
  cases hwritten with
  | video i => exact ⟨rfl, b.display.continues_writeVideo i val⟩
  | objects i => exact ⟨rfl, b.display.continues_writeObjects i val⟩
  | display => exact ⟨rfl, b.display.continues_write addr val⟩
  | copy => exact ⟨rfl, b.display.continues_write addr val⟩
  | timer => exact b.continues_setTimer (b.timer.now_write addr val)
  | _ => exact .of_eq rfl rfl

theorem Becomes.continues {b b' : Bus τ} (h : b.Becomes b') : b.Continues b' :=
  h.invariant (fun c addr val hc => hc.trans (c.continues_write addr val))
    (fun c hc => hc.trans (c.continues_setTimer c.timer.now_resetDivider))
    (fun _ _ hc => hc.trans (.of_eq rfl rfl)) (.refl b)

end Bus

namespace Machine

variable [Timeline τ]

theorem continues_step (m : Machine τ) : m.bus.Continues (Core.step m.cpu m.bus).1.bus :=
  m.bus.continues_runDma.trans (Core.becomes_step m.cpu m.bus).continues

/-- After a fault no time passes. -/
theorem now_of_fault {m m' : Machine τ} {fault : Fault} (h : m.step = (.error fault, m')) :
    m'.now = m.now := by
  unfold step at h
  split at h
  · rename_i core f hcore
    obtain ⟨-, rfl⟩ := Prod.mk.inj h
    have hcontinues := m.continues_step
    rw [hcore] at hcontinues
    exact hcontinues.now
  · cases (Prod.mk.inj h).1

/-! ## The display between steps -/

/-- The display knows the time, the phase that it is in, and the phase before. -/
structure Timely (m : Machine τ) : Prop where
  inStep : m.bus.InStep
  tracked : m.bus.display.running = true → m.bus.display.Tracked

omit [Timeline τ] in
theorem Timely.now {m : Machine τ} (h : m.Timely) : m.bus.display.now = m.now := h.inStep.now

theorem Timely.step {m : Machine τ} (h : m.Timely) : m.step.2.Timely := by
  refine ⟨?_, ?_⟩
  · exact step_invariant (fun _ hb => hb.runDma) (fun _ _ hb h => h.becomes hb)
      (fun _ cycles hb => hb.advance cycles) h.inStep
  · exact step_invariant (P := fun b => b.display.running = true → b.display.Tracked)
      (fun b hb => b.continues_runDma.display.tracked hb)
      (fun _ _ hbecomes hb => hbecomes.continues.display.tracked hb)
      (fun b cycles hb => Display.tracked_update hb _) h.tracked

theorem Timely.of_step {m m' : Machine τ} {result : Except Fault Bool} (h : m.Timely)
    (hstep : m.step = (result, m')) : m'.Timely := by
  have hafter := h.step
  rw [hstep] at hafter
  exact hafter

omit [Timeline τ] in
theorem Timely.meanwhile {m m' : Machine τ} (hm : m.Meanwhile m') (h : m.Timely) : m'.Timely := by
  refine ⟨h.inStep.meanwhile hm.bus, ?_⟩
  -- only the exchange of frames may be different
  rw [hm.bus.display]
  exact h.tracked

theorem timely_of_reachable {m : Machine τ} (h : m.Reachable) : m.Timely := by
  refine h.invariant (P := Timely) (fun cartridge host boot => ?_) (fun _ hm => hm.step)
    (fun _ _ hbetween hm => hm.meanwhile hbetween)
  refine ⟨inStep_create cartridge host boot, ?_⟩
  cases boot with
  | none =>
    -- the boot program leaves the display switched on, but it does not run yet
    exact ((Display.continues_write _ _ _).trans (Display.continues_write _ _ _)).tracked
      (d := Display.initial) nofun
  | some image => exact nofun

/-- What a step that is no fault does to the time and to the display: up to six machine cycles
pass, and the display, which may have been written to, is told so. -/
theorem Timely.passes {m m' : Machine τ} {boundary : Bool} (hm : m.Timely)
    (h : m.step = (.ok boundary, m')) :
    ∃ n d, 1 ≤ n ∧ n ≤ 6 ∧ m'.now = m.now + n * machineCycle ∧
      m.bus.display.Continues d ∧ d.Gated ∧ d.now = m.now ∧
      boundary = (d.update m'.now).2.boundary ∧ m'.bus.display = (d.update m'.now).1 := by
  unfold Machine.step at h
  split at h
  · cases (Prod.mk.inj h).1
  · rename_i core hcore
    obtain ⟨hboundary, rfl⟩ := Prod.mk.inj h
    have hcontinues := m.continues_step
    have hinStep := hm.inStep.runDma.becomes (Core.becomes_step m.cpu m.bus)
    have hlasts := Core.step_lasts (show (Core.step m.cpu m.bus).2 = none by rw [hcore])
    rw [hcore] at hcontinues hinStep hlasts
    obtain ⟨n, hpos, hle, hcycles⟩ := hlasts
    refine ⟨n, core.bus.display, hpos, hle, ?_, hcontinues.display, hinStep.gated,
      hinStep.now.trans hcontinues.now, ?_, rfl⟩
    · show (core.bus.timer.advance core.cycles).1.now = _
      rw [hcycles, Timer.now_advance, hcontinues.now]
      rfl
    · exact (Except.ok.inj hboundary).symm

open Display (refreshPeriod startDelay)

/-- A step that begins no period does not put off the next one, unless the display is off
afterwards. -/
theorem Timely.beginsBy {m m' : Machine τ} {time : Nat} (hm : m.Timely)
    (hstep : m.step = (.ok false, m')) (hrunning : m'.bus.display.running = true)
    (hby : m.bus.display.BeginsBy time) : m'.bus.display.BeginsBy time := by
  obtain ⟨n, d, -, hn, hnow, hcontinues, hgated, htime, hboundary, hdisplay⟩ := hm.passes hstep
  have hshort : n * machineCycle < startDelay := by
    unfold machineCycle startDelay
    omega
  rw [hdisplay] at hrunning ⊢
  have hon : d.BeginsBy time := by
    refine hby.continues hcontinues ?_ hrunning
    rw [hm.now, hnow]
    exact Nat.add_lt_add_left hshort m.now
  refine hon.update hgated (hcontinues.tracked hm.tracked hon.1) ?_ hboundary.symm
  rw [htime, hnow]
  exact Nat.le_add_right _ _

/-! ## Runs without a limit -/

/-- A loop of steps that ends with a fault, or when it is told to stop, and not before. -/
inductive Ends (stop : Bool → Machine τ → Bool) : Machine τ → Option Fault → Machine τ → Prop where
  | fault {m m' : Machine τ} {cause : Fault} (h : m.step = (.error cause, m')) :
      Ends stop m (some cause) m'
  | stops {m m' : Machine τ} {boundary : Bool} (h : m.step = (.ok boundary, m'))
      (hstop : stop boundary m' = true) : Ends stop m none m'
  | goesOn {m m' m'' : Machine τ} {boundary : Bool} {result : Option Fault}
      (h : m.step = (.ok boundary, m')) (hstop : stop boundary m' = false)
      (rest : Ends stop m' result m'') : Ends stop m result m''

/-- The longest step, in clock cycles. -/
def longestStep : Nat := 6 * machineCycle

/-- A loop that goes on only before a time ends, and soon after that time. The steps that lead
there are enough for it. -/
theorem run_ends (stop : Bool → Machine τ → Bool) (P : Machine τ → Prop) {limit : Nat}
    (hbound : ∀ m, m.Timely → P m → m.now < limit)
    (hkeep : ∀ m m' boundary, m.Timely → P m → m.step = (.ok boundary, m') →
      stop boundary m' = false → P m')
    {m : Machine τ} (hm : m.Timely) (hP : P m) (steps : Nat)
    (hsteps : limit ≤ m.now + steps * machineCycle) :
    ∃ result m', Ends stop m result m' ∧
      m.run stop steps = (match result with | none => .finished | some cause => .fault cause, m') ∧
      m'.now < limit + longestStep ∧ (result = none → ∃ boundary, stop boundary m' = true) := by
  induction steps generalizing m with
  | zero =>
    have := hbound m hm hP
    omega
  | succ steps ih =>
    have hbefore := hbound m hm hP
    rcases hstep : m.step with ⟨fault | boundary, m'⟩
    · have hnow := now_of_fault hstep
      refine ⟨some fault, m', .fault hstep, ?_, by omega, nofun⟩
      unfold run
      rw [hstep]
    · obtain ⟨n, -, hpos, hle, hnow, -⟩ := hm.passes hstep
      have hrun : m.run stop (steps + 1) =
          if stop boundary m' then (.finished, m') else m'.run stop steps := by
        rw [run, hstep]
      have htimely : m'.Timely := hm.of_step hstep
      unfold machineCycle at hnow hsteps
      cases hstop : stop boundary m' with
      | true =>
        refine ⟨none, m', .stops hstep hstop, ?_, ?_, fun _ => ⟨boundary, hstop⟩⟩
        · rw [hrun, if_pos hstop]
        · unfold longestStep machineCycle
          omega
      | false =>
        obtain ⟨result, m'', hends, hresult, hrest⟩ :=
          ih htimely (hkeep m m' boundary hm hP hstep hstop) (by unfold machineCycle; omega)
        refine ⟨result, m'', .goesOn hstep hstop hends, ?_, hrest⟩
        rw [hrun, hstop]
        exact hresult

/-! ## Frames and cycles -/

/-- A frame is over when the display begins a period, or when it is off after a period's worth of
cycles. -/
def frameOver (start : Nat) (boundary : Bool) (m : Machine τ) : Bool :=
  boundary || (!m.bus.display.running && decide (refreshPeriod ≤ m.now - start))

def cyclesOver (deadline : Nat) (_ : Bool) (m : Machine τ) : Bool := decide (deadline ≤ m.now)

omit [Timeline τ] in
/-- The machine after a loop, which picks up a snapshot unless there was a fault. -/
def concluded (m : Machine τ) (result : Option Fault) : Machine τ :=
  if result.isSome then m else m.collectCommit

omit [Timeline τ] in
theorem now_concluded (m : Machine τ) (result : Option Fault) :
    (m.concluded result).now = m.now := by
  unfold concluded collectCommit
  split
  · rfl
  · split <;> rfl

/-- While a frame goes on, its first period's worth of cycles is not over, or the display runs and
will begin a period within another one. -/
def FrameGoesOn (start : Nat) (m : Machine τ) : Prop :=
  m.now < start + refreshPeriod ∨
    m.bus.display.BeginsBy (start + 2 * refreshPeriod + (longestStep - 1))

theorem frameGoesOn_step {start : Nat} {m m' : Machine τ} {boundary : Bool} (hm : m.Timely)
    (h : FrameGoesOn start m) (hstep : m.step = (.ok boundary, m'))
    (hover : frameOver start boundary m' = false) : FrameGoesOn start m' := by
  obtain ⟨hboundary, hrest⟩ := Bool.or_eq_false_iff.1 hover
  subst hboundary
  rcases Nat.lt_or_ge m'.now (start + refreshPeriod) with hearly | hlate
  · exact .inl hearly
  have hrunning : m'.bus.display.running = true := by
    have hperiod : refreshPeriod ≤ m'.now - start := by omega
    simpa [hperiod] using hrest
  have htimely : m'.Timely := hm.of_step hstep
  rcases h with hbefore | hby
  -- the first period has ended with this step
  · obtain ⟨n, -, -, hle, hnow, -⟩ := hm.passes hstep
    refine .inr ((htimely.inStep.gated.beginsBy hrunning).mono ?_)
    rw [htimely.now]
    unfold longestStep machineCycle at *
    omega
  · exact .inr (hm.beginsBy hstep hrunning hby)

theorem runFrame_ends {m : Machine τ} (hm : m.Timely) :
    ∃ result m', Ends (frameOver m.now) m result m' ∧
      m.runFrame = (result, m'.concluded result) ∧ m'.now < m.now + (2 * refreshPeriod + 48) := by
  obtain ⟨result, m', hends, hrun, hnow, -⟩ := run_ends
    (frameOver m.now) (FrameGoesOn m.now) (fun m' hm' h => h.elim (fun hbefore => by omega)
      (fun hby => hm'.now ▸ hby.now_lt))
    (fun _ _ _ hm h => frameGoesOn_step hm h) hm (.inl (Nat.lt_add_of_pos_right (by decide)))
    frameSteps (by unfold frameSteps longestStep refreshPeriod machineCycle; omega)
  refine ⟨result, m', hends, ?_, by unfold longestStep machineCycle at hnow; omega⟩
  unfold frameOver at hrun
  unfold runFrame
  dsimp only
  rw [hrun]
  cases result <;> rfl

theorem runCycles_ends {m : Machine τ} (hm : m.Timely) {cycles : Nat} (hpos : 0 < cycles) :
    ∃ result m', Ends (cyclesOver (m.now + cycles)) m result m' ∧
      m.runCycles cycles = (result, m'.concluded result) ∧ m'.now < m.now + cycles + 24 ∧
      (result = none → m.now + cycles ≤ m'.now) := by
  obtain ⟨result, m', hends, hrun, hnow, hdone⟩ := run_ends
    (cyclesOver (m.now + cycles)) (fun m' => m'.now < m.now + cycles) (fun _ _ h => h)
    (fun m' m'' _ _ _ _ hover => by simpa [cyclesOver] using hover) hm
    (Nat.lt_add_of_pos_right hpos) (cycles / machineCycle + 1)
    (by unfold machineCycle; omega)
  refine ⟨result, m', hends, ?_, hnow, ?_⟩
  · unfold cyclesOver at hrun
    unfold runCycles
    rw [if_neg (Nat.ne_of_gt hpos)]
    dsimp only
    rw [hrun]
    cases result <;> rfl
  · intro hresult
    obtain ⟨_, hover⟩ := hdone hresult
    simpa [cyclesOver] using hover

/-- Running for a frame and running for a number of cycles end, with a fault or without, whatever
the program does. A frame takes less than two periods and two of the longest steps. A number of
cycles is exceeded by less than the longest step. -/
theorem ends_within_budget {m : Machine τ} (h : m.Reachable) :
    (∃ result m', Ends (frameOver m.now) m result m' ∧
      m.runFrame = (result, m'.concluded result) ∧
      m.runFrame.2.now < m.now + (2 * 70224 + 48)) ∧
    (m.runCycles 0 = (none, m.concluded none) ∧ (m.runCycles 0).2.now = m.now) ∧
    ∀ cycles > 0, ∃ result m', Ends (cyclesOver (m.now + cycles)) m result m' ∧
      m.runCycles cycles = (result, m'.concluded result) ∧
      (m.runCycles cycles).2.now < m.now + cycles + 24 ∧
      ((m.runCycles cycles).1 = none → m.now + cycles ≤ (m.runCycles cycles).2.now) := by
  have hm := timely_of_reachable h
  refine ⟨?_, ⟨rfl, m.now_concluded none⟩, fun cycles hpos => ?_⟩
  · obtain ⟨result, m', hends, hframe, hnow⟩ := runFrame_ends hm
    exact ⟨result, m', hends, hframe, by rw [hframe, now_concluded]; exact hnow⟩
  · obtain ⟨result, m', hends, hcycles, hnow, hdone⟩ := runCycles_ends hm hpos
    refine ⟨result, m', hends, hcycles, ?_, ?_⟩
    · rw [hcycles, now_concluded]
      exact hnow
    · rw [hcycles, now_concluded]
      exact hdone

/-- A program that switches the display off and on without end. -/
def flicker : List UInt8 := [0x3E, 0x00, 0xE0, 0x40, 0x3E, 0x80, 0xE0, 0x40, 0x18, 0xF6]

/-- The delay of its start keeps the display of this program from ever running. -/
theorem ends_within_budget_flicker :
    (ofProgram flicker).Reachable ∧ (ofProgram flicker).runFrame.2.now < 140496 ∧
      ((ofProgram flicker).runCycles 1).2.now < 25 := by
  have h := reachable_ofProgram flicker
  obtain ⟨⟨-, -, -, -, hframe⟩, -, hcycles⟩ := ends_within_budget h
  obtain ⟨-, -, -, -, hone, -⟩ := hcycles 1 (by decide)
  exact ⟨h, hframe, hone⟩

end Machine

end DotMatrix
