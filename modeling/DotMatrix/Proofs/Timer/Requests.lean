import DotMatrix.Proofs.Timer.Steps
import Mathlib.Data.List.Induction

/-!
# Overflows and interrupt requests

The counter wraps where an edge finds it at `0xFF` (`Wraps`). The interrupt is requested for such a
wrap by the next machine cycle or clearing of the divider, unless the counter or the control was
written in between, and it is requested for nothing else (`requested_iff`). A wrap that is caused
by writing the control is an exception: the same write loads the modulo and nothing is requested.
-/

namespace DotMatrix.Timer

/-! ## Wraps -/

/-- The timer with its clock and divider moved on, after a reload that waits is completed. -/
def moved (t : Timer) (now : Nat) (divider : UInt32) : Timer := { t.reload.1 with now, divider }

theorem turn_eq (t : Timer) (now : Nat) (divider : UInt32) :
    t.turn now divider = ((t.moved now divider).sense, t.reload.2) := rfl

namespace Step

/-- The timer as it is when a step looks at the tap signal. Writing the counter or the modulo does
not look at it. -/
def sensed (t : Timer) : Step → Option Timer
  | cycle => some (t.moved (t.now + machineCycle) (t.divider + 4))
  | clearDivider => some (t.moved t.now 0)
  | setControl val => some { t with control := val &&& 0x07 }
  | setCounter _ => none
  | setModulo _ => none

/-- The steps that complete a reload and request the interrupt. -/
def Completes : Step → Prop
  | cycle => True
  | clearDivider => True
  | _ => False

def SetsModulo : Step → Prop
  | setModulo _ => True
  | _ => False

def SetsControl : Step → Prop
  | setControl _ => True
  | _ => False

instance : DecidablePred SetsControl
  | setControl _ => isTrue trivial
  | cycle | clearDivider | setCounter _ | setModulo _ => isFalse id

end Step

/-- The step makes the counter go from `0xFF` to zero. -/
def Wraps (t : Timer) (step : Step) : Prop :=
  ∃ u ∈ step.sensed t, u.counter = 0xFF ∧ u.sense.counter = 0

/-- After looking at the signal a step is over, but for the write of the control, which then
completes a reload that waits. -/
theorem apply_of_sensed {t u : Timer} {step : Step} (h : step.sensed t = some u) :
    (step.apply t).1 = if step.SetsControl then u.sense.reload.1 else u.sense := by
  cases step with
  | cycle =>
    cases h
    rw [if_neg (show ¬ Step.SetsControl .cycle from id)]
    show t.tick.1 = _
    rw [tick_eq_turn, turn_eq]
  | clearDivider =>
    cases h
    rw [if_neg (show ¬ Step.SetsControl .clearDivider from id)]
    show t.resetDivider.1 = _
    rw [resetDivider_eq_turn, turn_eq]
  | setControl val =>
    cases h
    rw [if_pos (show Step.SetsControl (.setControl val) from trivial)]
    rfl
  | setCounter val => cases h
  | setModulo val => cases h

/-- The counter goes from `0xFF` to zero exactly on an edge. -/
theorem sense_wraps_iff (u : Timer) :
    (u.counter = 0xFF ∧ u.sense.counter = 0) ↔ u.counter = 0xFF ∧ u.falls = true := by
  refine and_congr_right fun hlast => ?_
  unfold sense increment falls level
  dsimp only
  by_cases hfalls : (u.lastSignal && !signal u.divider u.control) = true
  · rw [if_pos hfalls, if_pos hlast]
    exact ⟨fun _ => hfalls, fun _ => rfl⟩
  · rw [if_neg hfalls]
    refine ⟨fun hzero => ?_, fun h => absurd h hfalls⟩
    have hsame : u.counter = 0 := hzero
    rw [hlast] at hsame
    exact absurd hsame (by decide)

theorem wraps_of_sensed {t u : Timer} {step : Step} (h : step.sensed t = some u) :
    t.Wraps step ↔ u.counter = 0xFF ∧ u.falls = true := by
  unfold Wraps
  rw [h, ← sense_wraps_iff]
  simp

theorem not_wraps_setCounter (t : Timer) (val : UInt8) : ¬ t.Wraps (.setCounter val) := by
  simp [Wraps, Step.sensed]

theorem not_wraps_setModulo (t : Timer) (val : UInt8) : ¬ t.Wraps (.setModulo val) := by
  simp [Wraps, Step.sensed]

/-- A write of the control that makes the counter wrap loads the modulo itself. -/
theorem reloaded_of_wraps {t : Timer} {val : UInt8} (h : t.Wraps (.setControl val)) :
    (t.write 0xFF07 val).1.counter = t.modulo ∧
      (t.write 0xFF07 val).1.reloadPending = false ∧ (t.write 0xFF07 val).2 = false := by
  refine ⟨?_, reload_fst_idle _, rfl⟩
  obtain ⟨u, hsensed, hwraps⟩ := h
  obtain ⟨hlast, hfalls⟩ := (sense_wraps_iff u).1 hwraps
  have hmodulo : u.modulo = t.modulo := by
    cases hsensed
    rfl
  have happly := apply_of_sensed hsensed
  rw [if_pos (show Step.SetsControl (.setControl val) from trivial)] at happly
  have hcond : (u.lastSignal && !signal u.divider u.control) = true := hfalls
  have hpending : u.sense = { u with
      counter := 0
      reloadPending := true
      lastSignal := signal u.divider u.control } := by
    unfold sense increment
    dsimp only
    rw [if_pos hcond, if_pos hlast]
  show (Step.apply t (.setControl val)).1.counter = t.modulo
  rw [happly, hpending, ← hmodulo]
  rfl

/-! ## Reloads that wait -/

/-- The divider moves on: a reload waits afterwards exactly if the counter has wrapped just now.
One that waited is completed, and it is what the interrupt is requested for. -/
theorem turn_spec {t : Timer} (ht : t.Settled) (now : Nat) (divider : UInt32) :
    ((t.turn now divider).1.reloadPending = true ↔
      (t.moved now divider).counter = 0xFF ∧ (t.moved now divider).falls = true) ∧
    (t.turn now divider).2 = t.reloadPending ∧
    (t.reloadPending = true → (t.turn now divider).1.counter = t.modulo) := by
  cases h : t.reloadPending with
  | true =>
    have hreload : t.reload.1 = { t with counter := t.modulo, reloadPending := false } :=
      congrArg Prod.fst (if_pos h)
    have hlow : t.lastSignal = false := ht.sensed.trans (ht.pending h).2
    unfold moved
    rw [turn_of_pending ht h, hreload]
    refine ⟨?_, rfl, fun _ => rfl⟩
    -- the tap is low while a reload waits, so it cannot fall
    simp [falls, hlow]
  | false =>
    have hreload : t.reload.1 = t := congrArg Prod.fst (if_neg (by simp [h]))
    unfold moved
    rw [turn_of_idle ht h, hreload]
    refine ⟨?_, rfl, fun hpending => by cases hpending⟩
    simp [falls, ht.sensed, level, and_comm]

/-- What one step does to a reload that waits: the counter wraps and a reload waits from then on,
unless it is the write of the control that makes it wrap; writing the modulo leaves a reload
waiting; every other step ends the wait. -/
theorem pending_apply {t : Timer} (ht : t.Settled) (step : Step) :
    (step.apply t).1.reloadPending = true ↔
      (t.Wraps step ∧ ¬ step.SetsControl) ∨ (step.SetsModulo ∧ t.reloadPending = true) := by
  cases step with
  | cycle =>
    have hspec := (turn_spec ht (t.now + machineCycle) (t.divider + 4)).1
    show t.tick.1.reloadPending = true ↔ _
    rw [tick_eq_turn, hspec, wraps_of_sensed rfl]
    simp [Step.SetsControl, Step.SetsModulo]
  | clearDivider =>
    have hspec := (turn_spec ht t.now 0).1
    show t.resetDivider.1.reloadPending = true ↔ _
    rw [resetDivider_eq_turn, hspec, wraps_of_sensed rfl]
    simp [Step.SetsControl, Step.SetsModulo]
  | setCounter val =>
    have hnone : (Step.apply t (.setCounter val)).1.reloadPending = false := rfl
    rw [hnone]
    simp [not_wraps_setCounter, Step.SetsModulo]
  | setModulo val =>
    have hsame : (Step.apply t (.setModulo val)).1.reloadPending = t.reloadPending := rfl
    rw [hsame]
    simp [not_wraps_setModulo, Step.SetsModulo]
  | setControl val =>
    have hnone : (Step.apply t (.setControl val)).1.reloadPending = false := reload_fst_idle _
    rw [hnone]
    simp [Step.SetsControl, Step.SetsModulo]

/-- A step requests the interrupt exactly if it completes a reload that waits, and then the counter
holds the modulo. -/
theorem requested_apply {t : Timer} (ht : t.Settled) (step : Step) :
    ((step.apply t).2 = true ↔ step.Completes ∧ t.reloadPending = true) ∧
    ((step.apply t).2 = true → (step.apply t).1.counter = t.modulo) := by
  cases step with
  | cycle =>
    obtain ⟨-, hflag, hcounter⟩ := turn_spec ht (t.now + machineCycle) (t.divider + 4)
    show (t.tick.2 = true ↔ _) ∧ (t.tick.2 = true → t.tick.1.counter = _)
    rw [tick_eq_turn, hflag]
    exact ⟨by simp [Step.Completes], hcounter⟩
  | clearDivider =>
    obtain ⟨-, hflag, hcounter⟩ := turn_spec ht t.now 0
    show (t.resetDivider.2 = true ↔ _) ∧ (t.resetDivider.2 = true → t.resetDivider.1.counter = _)
    rw [resetDivider_eq_turn, hflag]
    exact ⟨by simp [Step.Completes], hcounter⟩
  | setCounter val => exact ⟨by simp [Step.apply, write, Step.Completes], nofun⟩
  | setModulo val => exact ⟨by simp [Step.apply, write, Step.Completes], nofun⟩
  | setControl val => exact ⟨by simp [Step.apply, write, Step.Completes], nofun⟩

/-! ## Runs -/

/-- After these steps of a new timer a wrap is still to be answered: the counter has wrapped,
not by writing the control, and only the modulo was written since. -/
def Outstanding (older : List Step) : Prop :=
  ∃ before cause quiet, older = before ++ cause :: quiet ∧
    (initial.run before).1.Wraps cause ∧ ¬ cause.SetsControl ∧ ∀ step ∈ quiet, step.SetsModulo

theorem outstanding_concat (older : List Step) (step : Step) :
    Outstanding (older ++ [step]) ↔
      ((initial.run older).1.Wraps step ∧ ¬ step.SetsControl) ∨
        (step.SetsModulo ∧ Outstanding older) := by
  constructor
  · rintro ⟨before, cause, quiet, hsteps, hwraps, hcontrol, hquiet⟩
    -- the last step is the wrap, or a write of the modulo after it
    rcases List.eq_nil_or_concat quiet with rfl | ⟨earlier, last, rfl⟩
    · obtain ⟨rfl, rfl⟩ := List.append_singleton_inj.1 hsteps
      exact .inl ⟨hwraps, hcontrol⟩
    · rw [List.concat_eq_append, ← List.cons_append, ← List.append_assoc] at hsteps
      obtain ⟨rfl, rfl⟩ := List.append_singleton_inj.1 hsteps
      rw [List.concat_eq_append] at hquiet
      refine .inr ⟨hquiet _ (by simp), before, cause, earlier, rfl, hwraps, hcontrol, ?_⟩
      exact fun s hs => hquiet s (List.mem_append_left _ hs)
  · rintro (⟨hwraps, hcontrol⟩ | ⟨hmodulo, before, cause, quiet, rfl, hwraps, hcontrol, hquiet⟩)
    · exact ⟨older, step, [], rfl, hwraps, hcontrol, by simp⟩
    · refine ⟨before, cause, quiet ++ [step], by simp, hwraps, hcontrol, fun s hs => ?_⟩
      rcases List.mem_append.1 hs with hs | hs
      · exact hquiet s hs
      · rw [List.mem_singleton.1 hs]
        exact hmodulo

/-- A reload waits exactly as long as a wrap is to be answered. -/
theorem pending_run_iff (older : List Step) :
    (initial.run older).1.reloadPending = true ↔ Outstanding older := by
  induction older using List.reverseRecOn with
  | nil => simp [run, initial, Outstanding]
  | append_singleton older step ih =>
    rw [run_concat, outstanding_concat, ← ih]
    exact pending_apply (settled_run settled_initial older) step

/-- Along every run of operations, a step requests the interrupt exactly if it is a machine cycle
or a clearing of the divider and a wrap is to be answered; the counter then holds the modulo that is
current. A write of the control that makes the counter wrap loads the modulo itself. -/
theorem requested_iff (ops : List Operation) :
    initial.operate ops = initial.run (ops.flatMap Operation.steps) ∧
    ∀ older next rest, ops.flatMap Operation.steps = older ++ next :: rest →
      let t := (initial.run older).1
      let after := next.apply t
      (after.2 = true ↔ next.Completes ∧ Outstanding older) ∧
      (after.2 = true → after.1.counter = t.modulo) ∧
      (t.Wraps next ∧ next.SetsControl →
        after.1.counter = t.modulo ∧ after.1.reloadPending = false ∧ after.2 = false) := by
  refine ⟨operate_eq initial ops, fun older next rest _ => ?_⟩
  have hsettled := settled_run settled_initial older
  obtain ⟨hiff, hcounter⟩ := requested_apply hsettled next
  intro t after
  refine ⟨?_, hcounter, ?_⟩
  · rw [← pending_run_iff]
    exact hiff
  · rintro ⟨hwraps, hcontrol⟩
    cases next with
    | setControl val => exact reloaded_of_wraps hwraps
    | _ => exact absurd hcontrol id

/-- A timer counts up from `0xFF` on the fourth machine cycle and is cleared after that. -/
def wrapThenClear : List Operation :=
  [.write 0xFF05 0xFF, .write 0xFF07 0x05, .advance 4, .write 0xFF06 0x42, .resetDivider]

/-- The clearing answers the wrap with the modulo that is written after it. -/
theorem requested_wrapThenClear :
    let older : List Step :=
      [.setCounter 0xFF, .setControl 0x05, .cycle, .cycle, .cycle, .cycle, .setModulo 0x42]
    wrapThenClear.flatMap Operation.steps = older ++ .clearDivider :: [] ∧
      (initial.run older).1.resetDivider.2 = true ∧
      (initial.run older).1.resetDivider.1.counter = 0x42 := by
  intro older
  have hsteps : wrapThenClear.flatMap Operation.steps = older ++ .clearDivider :: [] := by decide
  obtain ⟨hiff, hcounter, -⟩ := (requested_iff wrapThenClear).2 older .clearDivider [] hsteps
  have hwraps : (initial.run (older.take 5)).1.Wraps .cycle := ⟨_, rfl, by decide, by decide⟩
  have hrequested := hiff.2 ⟨trivial, older.take 5, .cycle, [.setModulo 0x42], rfl, hwraps, id, by
    simp [Step.SetsModulo]⟩
  exact ⟨hsteps, hrequested, hcounter hrequested⟩

/-- Switching the timer off while the tap is high makes the counter wrap, and the machine cycle
after it does not request the interrupt. -/
theorem not_requested_of_switchOff :
    ¬ ∀ (ops : List Operation) (before quiet rest : List Step) (cause next : Step),
      ops.flatMap Operation.steps = before ++ cause :: (quiet ++ next :: rest) →
      (initial.run before).1.Wraps cause → (∀ step ∈ quiet, step.SetsModulo) → next.Completes →
      let t := (initial.run (before ++ cause :: quiet)).1
      (next.apply t).2 = true ∧ (next.apply t).1.counter = t.modulo := by
  intro hall
  have hlost := hall
    [.write 0xFF06 0x42, .write 0xFF05 0xFF, .write 0xFF07 0x05, .advance 2, .write 0xFF07 0x00,
      .advance 1]
    [.setModulo 0x42, .setCounter 0xFF, .setControl 0x05, .cycle, .cycle] [] []
    (.setControl 0x00) .cycle (by decide) ⟨_, rfl, by decide, by decide⟩ (by simp) trivial
  exact absurd hlost.1 (by decide)

end DotMatrix.Timer
