import DotMatrix.Timer

/-!
# What is done with a timer

A timer is told that machine cycles pass, its divider is cleared, and its registers are written.
Each of these operations is a row of small steps (`operate_eq`). The steps keep two facts about
every timer that they make of a new one (`Settled`): the tap was looked at after it changed last,
and while a reload waits the counter is zero and the tap is low. So a reload is always complete
before the next edge.
-/

namespace DotMatrix.Timer

/-! ## Operations and their steps -/

/-- What can be done with a timer. -/
inductive Operation where
  | write (addr : UInt16) (val : UInt8)
  /-- So many machine cycles pass. -/
  | advance (count : Nat)
  | resetDivider
deriving DecidableEq, Repr, Inhabited

def Operation.apply (t : Timer) : Operation → Timer × Bool
  | write addr val => t.write addr val
  | advance count => t.advance (machineCycle * count)
  | resetDivider => t.resetDivider

/-- Operations one after another; the flag tells whether any of them requested the interrupt. -/
def operate (t : Timer) : List Operation → Timer × Bool
  | [] => (t, false)
  | op :: ops =>
    let (t, first) := op.apply t
    let (t, later) := operate t ops
    (t, first || later)

/-- A timer that operations make of a new one. -/
def Reachable (t : Timer) : Prop := ∃ ops, (initial.operate ops).1 = t

inductive Step where
  /-- A machine cycle passes. -/
  | cycle
  | clearDivider
  | setCounter (val : UInt8)
  | setModulo (val : UInt8)
  | setControl (val : UInt8)
deriving DecidableEq, Repr, Inhabited

def Step.apply (t : Timer) : Step → Timer × Bool
  | cycle => t.tick
  | clearDivider => t.resetDivider
  | setCounter val => t.write 0xFF05 val
  | setModulo val => t.write 0xFF06 val
  | setControl val => t.write 0xFF07 val

/-- Steps one after another; the flag tells whether any of them requested the interrupt. -/
def run (t : Timer) : List Step → Timer × Bool
  | [] => (t, false)
  | step :: steps =>
    let (t, first) := step.apply t
    let (t, later) := run t steps
    (t, first || later)

/-- Writing the divider clears it whatever is written, and other addresses are not written. -/
def Step.ofWrite (addr : UInt16) (val : UInt8) : List Step :=
  match addr with
  | 0xFF04 => [clearDivider]
  | 0xFF05 => [setCounter val]
  | 0xFF06 => [setModulo val]
  | 0xFF07 => [setControl val]
  | _ => []

def Operation.steps : Operation → List Step
  | write addr val => Step.ofWrite addr val
  | advance count => List.replicate count .cycle
  | resetDivider => [.clearDivider]

theorem run_cons (t : Timer) (step : Step) (steps : List Step) :
    t.run (step :: steps) =
      (((step.apply t).1.run steps).1, (step.apply t).2 || ((step.apply t).1.run steps).2) := rfl

theorem run_append (t : Timer) (first second : List Step) :
    t.run (first ++ second) =
      (((t.run first).1.run second).1, (t.run first).2 || ((t.run first).1.run second).2) := by
  induction first generalizing t with
  | nil => rfl
  | cons step rest ih =>
    rw [List.cons_append, run_cons, run_cons, ih]
    simp only [Bool.or_assoc]

theorem run_singleton (t : Timer) (step : Step) : t.run [step] = step.apply t := by
  rw [run_cons]
  simp [run]

theorem run_concat (t : Timer) (steps : List Step) (step : Step) :
    t.run (steps ++ [step]) =
      ((step.apply (t.run steps).1).1, (t.run steps).2 || (step.apply (t.run steps).1).2) := by
  rw [run_append, run_singleton]

theorem ticks_succ (n : Nat) (t : Timer) :
    ticks (n + 1) t = ((ticks n t.tick.1).1, t.tick.2 || (ticks n t.tick.1).2) := rfl

theorem ticks_eq_run (t : Timer) (n : Nat) : ticks n t = t.run (List.replicate n .cycle) := by
  induction n generalizing t with
  | zero => rfl
  | succ n ih =>
    rw [List.replicate_succ, run_cons, ticks_succ, ih]
    rfl

theorem advance_eq_ticks (t : Timer) (n : Nat) : t.advance (machineCycle * n) = ticks n t := by
  unfold advance
  rw [Nat.mul_div_cancel_left n (by decide)]

theorem write_eq_run (t : Timer) (addr : UInt16) (val : UInt8) :
    t.write addr val = t.run (Step.ofWrite addr val) := by
  unfold Step.ofWrite
  split
  · exact (run_singleton t .clearDivider).symm
  · exact (run_singleton t (.setCounter val)).symm
  · exact (run_singleton t (.setModulo val)).symm
  · exact (run_singleton t (.setControl val)).symm
  · rename_i hdivider hcounter hmodulo hcontrol
    unfold write
    split
    · exact absurd rfl hdivider
    · exact absurd rfl hcounter
    · exact absurd rfl hmodulo
    · exact absurd rfl hcontrol
    · rfl

theorem apply_eq_run (t : Timer) (op : Operation) : op.apply t = t.run op.steps := by
  cases op with
  | write addr val => exact t.write_eq_run addr val
  | advance count => exact (t.advance_eq_ticks count).trans (t.ticks_eq_run count)
  | resetDivider => exact (run_singleton t .clearDivider).symm

theorem operate_eq (t : Timer) (ops : List Operation) :
    t.operate ops = t.run (ops.flatMap Operation.steps) := by
  induction ops generalizing t with
  | nil => rfl
  | cons op rest ih =>
    have hops : t.operate (op :: rest) =
        (((op.apply t).1.operate rest).1, (op.apply t).2 || ((op.apply t).1.operate rest).2) := rfl
    rw [hops, List.flatMap_cons, run_append, apply_eq_run, ih]

/-! ## Edges -/

/-- The tap signal as it is now. -/
def level (t : Timer) : Bool := signal t.divider t.control

/-- The signal has gone down since it was last looked at. -/
def falls (t : Timer) : Bool := t.lastSignal && !t.level

/-- While no reload waits, looking at the signal counts an edge; the counter wraps after `0xFF`,
and then a reload waits. -/
theorem sense_of_idle {t : Timer} (h : t.reloadPending = false) :
    t.sense =
      { t with
        counter := if t.falls then t.counter + 1 else t.counter
        reloadPending := t.falls && t.counter = 0xFF
        lastSignal := t.level } := by
  unfold sense
  dsimp only
  cases hfalls : t.falls with
  | false =>
    have hcond : (t.lastSignal && !signal t.divider t.control) = false := hfalls
    simp [hcond, h, level]
  | true =>
    have hcond : (t.lastSignal && !signal t.divider t.control) = true := hfalls
    rw [if_pos hcond]
    unfold increment
    by_cases hwrap : t.counter = 0xFF
    · rw [if_pos hwrap]
      simp [hwrap, level]
    · rw [if_neg hwrap]
      simp [hwrap, h, level]

/-! ## What steps keep -/

/-- The tap was looked at after it changed last. While a reload waits the counter is zero and the
tap is low, so there is no edge to count. -/
structure Settled (t : Timer) : Prop where
  sensed : t.lastSignal = t.level
  pending : t.reloadPending = true → t.counter = 0 ∧ t.level = false

/-- The divider and the clock move on, after a reload that waits is completed. -/
def turn (t : Timer) (now : Nat) (divider : UInt32) : Timer × Bool :=
  (sense { t.reload.1 with now, divider }, t.reload.2)

theorem tick_eq_turn (t : Timer) : t.tick = t.turn (t.now + machineCycle) (t.divider + 4) := by
  cases h : t.reloadPending <;> simp [tick, turn, reload, h]

theorem resetDivider_eq_turn (t : Timer) : t.resetDivider = t.turn t.now 0 := by
  cases h : t.reloadPending <;> simp [resetDivider, turn, reload, h]

/-- A reload that waits is completed, and no edge is counted on top of it. -/
theorem turn_of_pending {t : Timer} (ht : t.Settled) (h : t.reloadPending = true) (now : Nat)
    (divider : UInt32) :
    t.turn now divider =
      ({ t with
        now, divider
        counter := t.modulo
        reloadPending := false
        lastSignal := signal divider t.control }, true) := by
  have hlow : t.lastSignal = false := ht.sensed.trans (ht.pending h).2
  have hreload : t.reload = ({ t with counter := t.modulo, reloadPending := false }, true) :=
    if_pos h
  unfold turn
  rw [hreload, sense_of_idle rfl]
  simp [falls, hlow, level]

/-- While no reload waits, the edge is counted if there is one. -/
theorem turn_of_idle {t : Timer} (ht : t.Settled) (h : t.reloadPending = false) (now : Nat)
    (divider : UInt32) :
    t.turn now divider =
      ({ t with
        now, divider
        counter := if t.level && !signal divider t.control then t.counter + 1 else t.counter
        reloadPending := t.level && !signal divider t.control && t.counter = 0xFF
        lastSignal := signal divider t.control }, false) := by
  have hreload : t.reload = (t, false) := if_neg (by simp [h])
  unfold turn
  rw [hreload, sense_of_idle (t := { t with now, divider }) h]
  simp [falls, ht.sensed, level]

theorem settled_turn {t : Timer} (ht : t.Settled) (now : Nat) (divider : UInt32) :
    (t.turn now divider).1.Settled := by
  cases h : t.reloadPending with
  | true =>
    rw [turn_of_pending ht h]
    exact ⟨rfl, fun hpending => by cases hpending⟩
  | false =>
    rw [turn_of_idle ht h]
    refine ⟨rfl, fun hpending => ?_⟩
    -- a reload waits because the counter has just wrapped on a falling edge
    simp only [Bool.and_eq_true, Bool.not_eq_true', decide_eq_true_eq] at hpending
    obtain ⟨⟨hhigh, hlow⟩, hwrap⟩ := hpending
    refine ⟨?_, hlow⟩
    show (if t.level && !signal divider t.control then t.counter + 1 else t.counter) = 0
    rw [hhigh, hlow, hwrap]
    rfl

theorem write_control (t : Timer) (val : UInt8) :
    t.write 0xFF07 val = ((sense { t with control := val &&& 0x07 }).reload.1, false) := rfl

/-- Writing the control never leaves a reload waiting. -/
theorem reload_fst_idle (t : Timer) : t.reload.1.reloadPending = false := by
  unfold reload
  cases h : t.reloadPending with
  | true => rfl
  | false => simpa using h

theorem reload_fst_level (t : Timer) :
    t.reload.1.level = t.level ∧ t.reload.1.lastSignal = t.lastSignal := by
  unfold reload
  split <;> exact ⟨rfl, rfl⟩

theorem sense_sensed (t : Timer) : t.sense.lastSignal = t.sense.level := by
  unfold sense increment
  dsimp only
  split
  · split <;> rfl
  · rfl

theorem settled_apply {t : Timer} (ht : t.Settled) (step : Step) : (step.apply t).1.Settled := by
  cases step with
  | cycle =>
    show t.tick.1.Settled
    rw [tick_eq_turn]
    exact settled_turn ht _ _
  | clearDivider =>
    show t.resetDivider.1.Settled
    rw [resetDivider_eq_turn]
    exact settled_turn ht _ _
  | setCounter val => exact ⟨ht.sensed, fun hpending => by cases hpending⟩
  | setModulo val => exact ⟨ht.sensed, ht.pending⟩
  | setControl val =>
    show (t.write 0xFF07 val).1.Settled
    rw [write_control]
    obtain ⟨hlevel, hlast⟩ := reload_fst_level (sense { t with control := val &&& 0x07 })
    refine ⟨?_, fun hpending => ?_⟩
    · rw [hlevel, hlast, sense_sensed]
    · rw [reload_fst_idle] at hpending
      cases hpending

theorem settled_run {t : Timer} (ht : t.Settled) (steps : List Step) :
    (t.run steps).1.Settled := by
  induction steps generalizing t with
  | nil => exact ht
  | cons step rest ih => exact ih (settled_apply ht step)

theorem settled_initial : initial.Settled := ⟨by decide, by decide⟩

theorem Reachable.settled {t : Timer} (h : t.Reachable) : t.Settled := by
  obtain ⟨ops, rfl⟩ := h
  rw [operate_eq]
  exact settled_run settled_initial _

end DotMatrix.Timer
