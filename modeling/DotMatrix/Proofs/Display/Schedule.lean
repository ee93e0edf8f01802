import DotMatrix.Display.Schedule
import Mathlib.Tactic.SplitIfs

/-!
# Walking through the display schedule

Every display clock is a period, a line and a cycle of that line (`exists_parts`), and in these
parts the schedule is plain to read. `ofClock_nextChange` says which phase follows which, and
`ofClock_eq_of_lt_nextChange` that nothing changes in between. `exists_beginsAt_nextChange` and
`nextChange_le_beginsAt` say the same of the clocks at which phases begin: every change is one of
them, and none is left out.
-/

namespace DotMatrix.Display

namespace Phase

def next : Phase → Phase
  | objectScan l => transfer l
  | transfer l => hBlank l
  | hBlank l => if l + 1 < screenHeight then objectScan (l + 1) else vBlank (l + 1)
  | vBlank l => if l + 1 < totalLines then vBlank (l + 1) else objectScan 0

theorem next_hBlank (line : Nat) :
    (hBlank line).next =
      if line + 1 < screenHeight then objectScan (line + 1) else vBlank (line + 1) := rfl

theorem next_vBlank (line : Nat) :
    (vBlank line).next = if line + 1 < totalLines then vBlank (line + 1) else objectScan 0 := rfl

/-- What a cycle of a line belongs to. -/
def ofLine (line sub : Nat) : Phase :=
  if screenHeight ≤ line then vBlank line
  else if sub < scanEnd then objectScan line
  else if sub < transferEnd then transfer line
  else hBlank line

end Phase

theorem line_ofClock (clock : Nat) :
    (Phase.ofClock clock).line = clock % refreshPeriod / lineCycles := by
  unfold Phase.ofClock
  dsimp only
  split_ifs <;> rfl

/-- The cycle of a line at which the phase that a cycle belongs to ends. -/
def phaseEnd (line sub : Nat) : Nat :=
  if screenHeight ≤ line then lineCycles
  else if sub < scanEnd then scanEnd
  else if sub < transferEnd then transferEnd
  else lineCycles

/-- The display clock of a cycle of a line of a period. -/
def clockAt (period line sub : Nat) : Nat := period * refreshPeriod + line * lineCycles + sub

theorem exists_parts (clock : Nat) :
    ∃ period line sub, line < totalLines ∧ sub < lineCycles ∧ clock = clockAt period line sub := by
  -- the parts are quotients and remainders by two constants
  refine ⟨clock / refreshPeriod, clock % refreshPeriod / lineCycles,
    clock % refreshPeriod % lineCycles, ?_, ?_, ?_⟩
  · unfold totalLines refreshPeriod lineCycles
    omega
  · exact Nat.mod_lt _ (by decide)
  · unfold clockAt refreshPeriod lineCycles
    omega

theorem clockAt_period_zero (period : Nat) : clockAt period 0 0 = period * refreshPeriod := by
  unfold clockAt
  omega

theorem clockAt_zero_add (period line sub : Nat) :
    clockAt period line 0 + sub = clockAt period line sub := by
  unfold clockAt
  omega

theorem clockAt_lineEnd (period line : Nat) :
    clockAt period line 0 + lineCycles = clockAt period (line + 1) 0 := by
  unfold clockAt lineCycles
  omega

theorem clockAt_totalLines (period : Nat) :
    clockAt period totalLines 0 = clockAt (period + 1) 0 0 := by
  unfold clockAt totalLines refreshPeriod lineCycles
  omega

section Parts

variable {period line sub : Nat} (hline : line < totalLines) (hsub : sub < lineCycles)
include hline hsub

theorem clockAt_mod_period : clockAt period line sub % refreshPeriod = line * lineCycles + sub := by
  unfold clockAt refreshPeriod lineCycles totalLines at *
  omega

theorem clockAt_line : clockAt period line sub % refreshPeriod / lineCycles = line := by
  rw [clockAt_mod_period hline hsub]
  unfold lineCycles at *
  omega

theorem clockAt_sub : clockAt period line sub % refreshPeriod % lineCycles = sub := by
  rw [clockAt_mod_period hline hsub]
  unfold lineCycles at *
  omega

theorem ofClock_clockAt : Phase.ofClock (clockAt period line sub) = .ofLine line sub := by
  unfold Phase.ofClock Phase.ofLine
  simp only [clockAt_line hline hsub, clockAt_sub hline hsub]

theorem nextChange_clockAt :
    nextChange (clockAt period line sub) = clockAt period line 0 + phaseEnd line sub := by
  have hbase : clockAt period line sub - clockAt period line sub % refreshPeriod =
      period * refreshPeriod := by
    rw [clockAt_mod_period hline hsub]
    unfold clockAt
    omega
  have hstart : period * refreshPeriod + line * lineCycles = clockAt period line 0 :=
    (Nat.add_zero _).symm
  unfold nextChange phaseEnd
  simp only [clockAt_line hline hsub, clockAt_sub hline hsub, hbase, hstart]
  split
  · split
    · rfl
    · -- the last line ends where the period does
      rename_i hlast
      have hend : line + 1 = totalLines := by omega
      have hnext : clockAt (period + 1) 0 0 = period * refreshPeriod + refreshPeriod :=
        (clockAt_period_zero (period + 1)).trans (Nat.add_one_mul _ _)
      rw [clockAt_lineEnd, hend, clockAt_totalLines, hnext]
  · split
    · rfl
    · split <;> rfl

end Parts

/-! ## One phase after another -/

theorem ofClock_lineEnd (period : Nat) {line : Nat} (hline : line < totalLines) :
    Phase.ofClock (clockAt period line 0 + lineCycles) =
      if line + 1 < totalLines then .ofLine (line + 1) 0 else .objectScan 0 := by
  rw [clockAt_lineEnd]
  -- the last line of a period is followed by the first line of the next period
  split
  · rename_i hnext
    exact ofClock_clockAt hnext (by decide)
  · rename_i hlast
    have hend : line + 1 = totalLines := by omega
    rw [hend, clockAt_totalLines, ofClock_clockAt (by decide) (by decide)]
    rfl

/-- The schedule goes on with the next phase. -/
theorem ofClock_nextChange (clock : Nat) :
    Phase.ofClock (nextChange clock) = (Phase.ofClock clock).next := by
  obtain ⟨period, line, sub, hline, hsub, rfl⟩ := exists_parts clock
  rw [nextChange_clockAt hline hsub, ofClock_clockAt hline hsub]
  unfold phaseEnd
  -- the four phases in the order in which the schedule tells them apart
  by_cases hblank : screenHeight ≤ line
  · rw [if_pos hblank, ofClock_lineEnd period hline]
    have hvisible : screenHeight ≤ line + 1 := by omega
    simp only [Phase.ofLine, if_pos hblank, if_pos hvisible, Phase.next]
  · rw [if_neg hblank]
    by_cases hscan : sub < scanEnd
    · rw [if_pos hscan, clockAt_zero_add, ofClock_clockAt hline (by decide)]
      simp only [Phase.ofLine, if_neg hblank, if_pos hscan, Phase.next]
      rfl
    · rw [if_neg hscan]
      by_cases htransfer : sub < transferEnd
      · rw [if_pos htransfer, clockAt_zero_add, ofClock_clockAt hline (by decide)]
        simp only [Phase.ofLine, if_neg hblank, if_neg hscan, if_pos htransfer, Phase.next]
        rfl
      · -- only a line of the picture has a horizontal blank, so the period is not over
        have hnext : line + 1 < totalLines := by
          unfold screenHeight totalLines at *
          omega
        rw [if_neg htransfer, ofClock_lineEnd period hline, if_pos hnext]
        simp only [Phase.ofLine, if_neg hblank, if_neg hscan, if_neg htransfer, Phase.next]
        by_cases hlast : screenHeight ≤ line + 1
        · rw [if_pos hlast, if_neg (by omega : ¬ line + 1 < screenHeight)]
        · rw [if_neg hlast, if_pos (by omega : line + 1 < screenHeight)]
          rfl

/-- A phase lasts until the next change. -/
theorem ofClock_eq_of_lt_nextChange {start clock : Nat} (hstart : start ≤ clock)
    (hclock : clock < nextChange start) : Phase.ofClock clock = Phase.ofClock start := by
  obtain ⟨period, line, sub, hline, hsub, rfl⟩ := exists_parts start
  rw [nextChange_clockAt hline hsub] at hclock
  -- the clock is on the line of the start, at a cycle between the start and the phase's end
  obtain ⟨later, rfl⟩ : ∃ later, clock = clockAt period line later :=
    ⟨clock - clockAt period line 0, by unfold clockAt at *; omega⟩
  have hle : sub ≤ later := by
    unfold clockAt at hstart
    omega
  have hlt : later < phaseEnd line sub := by
    unfold clockAt at hclock
    omega
  have hlater : later < lineCycles := by
    unfold phaseEnd lineCycles scanEnd transferEnd at *
    split_ifs at hlt <;> omega
  rw [ofClock_clockAt hline hsub, ofClock_clockAt hline hlater]
  -- both cycles are then on the same side of each boundary
  unfold Phase.ofLine
  unfold phaseEnd at hlt
  by_cases hblank : screenHeight ≤ line
  · rw [if_pos hblank, if_pos hblank]
  · rw [if_neg hblank] at hlt
    rw [if_neg hblank, if_neg hblank]
    by_cases hscan : sub < scanEnd
    · rw [if_pos hscan] at hlt
      rw [if_pos hscan, if_pos hlt]
    · rw [if_neg hscan] at hlt
      rw [if_neg hscan, if_neg (by omega : ¬ later < scanEnd)]
      by_cases htransfer : sub < transferEnd
      · rw [if_pos htransfer] at hlt
        rw [if_pos htransfer, if_pos hlt]
      · rw [if_neg htransfer, if_neg (by omega : ¬ later < transferEnd)]

/-! ## Where phases begin -/

namespace Phase

/-- The phase is one of those that a period consists of. -/
def Occurs : Phase → Prop
  | objectScan l | transfer l | hBlank l => l < screenHeight
  | vBlank l => screenHeight ≤ l ∧ l < totalLines

/-- The display clock at which the phase begins in a period. -/
def beginsAt (period : Nat) : Phase → Nat
  | objectScan l => clockAt period l 0
  | transfer l => clockAt period l scanEnd
  | hBlank l => clockAt period l transferEnd
  | vBlank l => clockAt period l 0

end Phase

theorem lt_totalLines {line : Nat} (h : line < screenHeight) : line < totalLines :=
  Nat.lt_trans h (by decide)

theorem ofClock_beginsAt (period : Nat) {phase : Phase} (h : phase.Occurs) :
    Phase.ofClock (phase.beginsAt period) = phase := by
  cases phase with
  | objectScan l =>
    have hl : l < screenHeight := h
    show Phase.ofClock (clockAt period l 0) = _
    rw [ofClock_clockAt (lt_totalLines hl) (by decide), Phase.ofLine, if_neg (Nat.not_le.2 hl),
      if_pos (by decide)]
  | transfer l =>
    have hl : l < screenHeight := h
    show Phase.ofClock (clockAt period l scanEnd) = _
    rw [ofClock_clockAt (lt_totalLines hl) (by decide), Phase.ofLine, if_neg (Nat.not_le.2 hl),
      if_neg (by decide), if_pos (by decide)]
  | hBlank l =>
    have hl : l < screenHeight := h
    show Phase.ofClock (clockAt period l transferEnd) = _
    rw [ofClock_clockAt (lt_totalLines hl) (by decide), Phase.ofLine, if_neg (Nat.not_le.2 hl),
      if_neg (by decide), if_neg (by decide)]
  | vBlank l =>
    show Phase.ofClock (clockAt period l 0) = _
    rw [ofClock_clockAt h.2 (by decide), Phase.ofLine, if_pos h.1]

theorem occurs_ofClock (clock : Nat) : (Phase.ofClock clock).Occurs := by
  obtain ⟨period, line, sub, hline, hsub, rfl⟩ := exists_parts clock
  rw [ofClock_clockAt hline hsub]
  unfold Phase.ofLine
  split_ifs with hblank hscan htransfer
  · exact ⟨hblank, hline⟩
  · exact Nat.not_le.1 hblank
  · exact Nat.not_le.1 hblank
  · exact Nat.not_le.1 hblank

/-- At a change a phase begins. -/
theorem exists_beginsAt_nextChange (clock : Nat) :
    ∃ period, nextChange clock = (Phase.ofClock (nextChange clock)).beginsAt period := by
  obtain ⟨period, line, sub, hline, hsub, rfl⟩ := exists_parts clock
  rw [ofClock_nextChange, ofClock_clockAt hline hsub, nextChange_clockAt hline hsub]
  unfold Phase.ofLine phaseEnd
  by_cases hblank : screenHeight ≤ line
  · rw [if_pos hblank, if_pos hblank, clockAt_lineEnd]
    unfold Phase.next
    dsimp only
    split
    · exact ⟨period, rfl⟩
    · have hlast : line + 1 = totalLines := by omega
      exact ⟨period + 1, by rw [hlast, clockAt_totalLines]; rfl⟩
  · rw [if_neg hblank, if_neg hblank]
    split_ifs
    · exact ⟨period, clockAt_zero_add period line scanEnd⟩
    · exact ⟨period, clockAt_zero_add period line transferEnd⟩
    · rw [clockAt_lineEnd]
      unfold Phase.next
      dsimp only
      split <;> exact ⟨period, rfl⟩

theorem exists_beginsAt_parts {phase : Phase} (h : phase.Occurs) :
    ∃ line sub, line < totalLines ∧ (∀ period, phase.beginsAt period = clockAt period line sub) ∧
      (sub = 0 ∨ line < screenHeight ∧ (sub = scanEnd ∨ sub = transferEnd)) := by
  cases phase with
  | objectScan l => exact ⟨l, 0, lt_totalLines h, fun _ => rfl, .inl rfl⟩
  | transfer l => exact ⟨l, scanEnd, lt_totalLines h, fun _ => rfl, .inr ⟨h, .inl rfl⟩⟩
  | hBlank l => exact ⟨l, transferEnd, lt_totalLines h, fun _ => rfl, .inr ⟨h, .inr rfl⟩⟩
  | vBlank l => exact ⟨l, 0, h.2, fun _ => rfl, .inl rfl⟩

/-- No phase begins before the next change. -/
theorem nextChange_le_beginsAt {clock period : Nat} {phase : Phase} (h : phase.Occurs)
    (hlt : clock < phase.beginsAt period) : nextChange clock ≤ phase.beginsAt period := by
  obtain ⟨line, sub, hline, hbegins, hsub⟩ := exists_beginsAt_parts h
  obtain ⟨period', line', sub', hline', hsub', rfl⟩ := exists_parts clock
  rw [hbegins] at hlt ⊢
  rw [nextChange_clockAt hline' hsub']
  unfold clockAt phaseEnd refreshPeriod lineCycles screenHeight totalLines scanEnd transferEnd at *
  split_ifs <;> omega

end DotMatrix.Display
