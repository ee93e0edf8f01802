import DotMatrix.Proofs.Display.Schedule
import Mathlib.Data.List.Iterate
import Mathlib.Order.Bounds.Defs

/-!
# One period after another

The next change is the first clock at which the phase is another one, so walking from change to
change leaves out no phase and enters none twice. `Passes` says which phases such a walk enters and
where it ends. A visible line is a walk through three phases, a line of the vertical blank through
one, and put together they make a walk through a whole period, from its first clock to the first
clock of the next (`nextChange_exact`).
-/

namespace DotMatrix.Display

/-! ## The next change -/

theorem Phase.next_ne (phase : Phase) : phase.next ≠ phase := by
  cases phase with
  | objectScan l => simp [next]
  | transfer l => simp [next]
  | hBlank l =>
    rw [next_hBlank]
    split <;> simp
  | vBlank l =>
    rw [next_vBlank]
    split <;> simp

/-- The next change is the first clock with another phase. -/
theorem isLeast_nextChange (clock : Nat) :
    IsLeast {later | clock < later ∧ Phase.ofClock later ≠ Phase.ofClock clock}
      (nextChange clock) := by
  refine ⟨⟨lt_nextChange clock, ?_⟩, fun later ⟨hlt, hne⟩ => ?_⟩
  · rw [ofClock_nextChange]
    exact Phase.next_ne _
  · by_contra hbefore
    exact hne (ofClock_eq_of_lt_nextChange (Nat.le_of_lt hlt) (Nat.not_le.1 hbefore))

/-! ## Walks -/

/-- Going from change to change leads from one clock to another, and the phases that are entered
before that are the listed ones. -/
structure Passes (start finish : Nat) (phases : List Phase) : Prop where
  entered : (List.iterate nextChange start phases.length).map Phase.ofClock = phases
  arrives : nextChange^[phases.length] start = finish

namespace Passes

theorem nil (clock : Nat) : Passes clock clock [] := ⟨rfl, rfl⟩

theorem append {a b c : Nat} {first second : List Phase} (hab : Passes a b first)
    (hbc : Passes b c second) : Passes a c (first ++ second) := by
  constructor
  · rw [List.length_append, List.iterate_add, hab.arrives, List.map_append, hab.entered,
      hbc.entered]
  · rw [List.length_append, Nat.add_comm, Function.iterate_add_apply, hab.arrives, hbc.arrives]

theorem one {clock later : Nat} {phase : Phase} (hphase : Phase.ofClock clock = phase)
    (hnext : nextChange clock = later) : Passes clock later [phase] :=
  ⟨congrArg (fun phase => [phase]) hphase, hnext⟩

variable (period : Nat)

theorem visibleLine {line : Nat} (h : line < screenHeight) :
    Passes (clockAt period line 0) (clockAt period (line + 1) 0)
      [.objectScan line, .transfer line, .hBlank line] := by
  have hline := lt_totalLines h
  have hvisible : ¬ screenHeight ≤ line := Nat.not_le.2 h
  have hscan : Passes (clockAt period line 0) (clockAt period line scanEnd) [.objectScan line] := by
    refine one (ofClock_beginsAt period (show (Phase.objectScan line).Occurs from h)) ?_
    rw [nextChange_clockAt hline (by decide), phaseEnd, if_neg hvisible, if_pos (by decide),
      clockAt_zero_add]
  have htransfer : Passes (clockAt period line scanEnd) (clockAt period line transferEnd)
      [.transfer line] := by
    refine one (ofClock_beginsAt period (show (Phase.transfer line).Occurs from h)) ?_
    rw [nextChange_clockAt hline (by decide), phaseEnd, if_neg hvisible, if_neg (by decide),
      if_pos (by decide), clockAt_zero_add]
  have hblank : Passes (clockAt period line transferEnd) (clockAt period (line + 1) 0)
      [.hBlank line] := by
    refine one (ofClock_beginsAt period (show (Phase.hBlank line).Occurs from h)) ?_
    rw [nextChange_clockAt hline (by decide), phaseEnd, if_neg hvisible, if_neg (by decide),
      if_neg (by decide), clockAt_lineEnd]
  exact (hscan.append htransfer).append hblank

theorem blankLine {line : Nat} (hfrom : screenHeight ≤ line) (hline : line < totalLines) :
    Passes (clockAt period line 0) (clockAt period (line + 1) 0) [.vBlank line] := by
  refine one (ofClock_beginsAt period (show (Phase.vBlank line).Occurs from ⟨hfrom, hline⟩)) ?_
  rw [nextChange_clockAt hline (by decide), phaseEnd, if_pos hfrom, clockAt_lineEnd]

end Passes

/-! ## A whole period -/

/-- The phases of the first lines of a picture, in their order. -/
def picturePhases (lines : Nat) : List Phase :=
  (List.range lines).flatMap fun line => [.objectScan line, .transfer line, .hBlank line]

/-- The phases of the first lines of a vertical blank, in their order. -/
def blankPhases (lines : Nat) : List Phase := (List.range' 144 lines).map .vBlank

theorem passes_picture (period : Nat) {lines : Nat} (h : lines ≤ screenHeight) :
    Passes (clockAt period 0 0) (clockAt period lines 0) (picturePhases lines) := by
  -- line by line from the top
  induction lines with
  | zero => exact .nil _
  | succ line ih =>
    have hline : Passes (clockAt period line 0) (clockAt period (line + 1) 0) _ :=
      .visibleLine period h
    have hphases : picturePhases (line + 1) =
        picturePhases line ++ [.objectScan line, .transfer line, .hBlank line] := by
      unfold picturePhases
      rw [List.range_succ, List.flatMap_append, List.flatMap_singleton]
    rw [hphases]
    exact (ih (Nat.le_of_succ_le h)).append hline

theorem passes_blank (period : Nat) {lines : Nat} (h : screenHeight + lines ≤ totalLines) :
    Passes (clockAt period screenHeight 0) (clockAt period (screenHeight + lines) 0)
      (blankPhases lines) := by
  induction lines with
  | zero => exact .nil _
  | succ line ih =>
    have hline : Passes (clockAt period (screenHeight + line) 0)
        (clockAt period (screenHeight + line + 1) 0) [.vBlank (screenHeight + line)] :=
      .blankLine period (Nat.le_add_right _ _) h
    have hphases : blankPhases (line + 1) =
        blankPhases line ++ [.vBlank (screenHeight + line)] := by
      unfold blankPhases
      rw [List.range'_concat, List.map_append, Nat.one_mul]
      rfl
    rw [hphases]
    exact (ih (by omega)).append hline

theorem length_picturePhases (lines : Nat) : (picturePhases lines).length = lines * 3 := by
  simp [picturePhases, List.length_flatMap, List.map_const']

theorem length_blankPhases (lines : Nat) : (blankPhases lines).length = lines := by
  simp [blankPhases]

/-- The next change is exact. It is the first later clock at which the phase is another, whatever
the clock is, and until then the phase stays. From the beginning of a period there are 442 changes
to the beginning of the next: each of 144 lines is scanned, transferred and followed by a pause,
and ten lines of vertical blank come after them. -/
theorem nextChange_exact :
    (∀ clock,
      IsLeast {later | clock < later ∧ Phase.ofClock later ≠ Phase.ofClock clock}
        (nextChange clock) ∧
      ∀ later, clock ≤ later → later < nextChange clock →
        Phase.ofClock later = Phase.ofClock clock) ∧
    ∀ period,
      (List.iterate nextChange (period * 70224) 442).map Phase.ofClock =
        picturePhases 144 ++ blankPhases 10 ∧
      nextChange^[442] (period * 70224) = (period + 1) * 70224 := by
  refine ⟨fun clock => ⟨isLeast_nextChange clock, fun later hle hlt =>
    ofClock_eq_of_lt_nextChange hle hlt⟩, fun period => ?_⟩
  have hpicture : Passes (clockAt period 0 0) (clockAt period screenHeight 0)
      (picturePhases 144) := passes_picture period (Nat.le_refl screenHeight)
  have hblank := passes_blank period (show screenHeight + 10 ≤ totalLines by decide)
  rw [show screenHeight + 10 = totalLines from rfl] at hblank
  have hwalk := hpicture.append hblank
  have hlength : (picturePhases 144 ++ blankPhases 10).length = 442 := by
    rw [List.length_append, length_picturePhases, length_blankPhases]
  have hstart (period : Nat) : clockAt period 0 0 = period * 70224 := clockAt_period_zero period
  have hentered := hwalk.entered
  have harrives := hwalk.arrives
  rw [hlength, hstart] at hentered harrives
  rw [clockAt_totalLines, hstart] at harrives
  exact ⟨hentered, harrives⟩

/-- The last line lasts to the end of the period, where the walk through it arrives. -/
theorem nextChange_exact_lastLine :
    Phase.ofClock 70223 = .vBlank 153 ∧ nextChange 70223 = nextChange^[442] 0 := by
  obtain ⟨hchanges, hperiods⟩ := nextChange_exact
  have hsame : Phase.ofClock 70223 = Phase.ofClock 69768 :=
    (hchanges 69768).2 70223 (by decide) (by decide)
  have harrives : nextChange^[442] 0 = 70224 := (hperiods 0).2
  exact ⟨hsame.trans (by decide), Eq.trans (by decide) harrives.symm⟩

end DotMatrix.Display
