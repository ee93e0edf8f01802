import DotMatrix.Proofs.Display.CatchUp
import DotMatrix.Proofs.Display.Schedule

/-!
# Gating

The program cannot touch a memory that the display is using. Which memories are open is set when
phases are entered, while the phase that the program sees is read off the clock. `Gated` links the
two, and everything that can happen to a display keeps it.
-/

namespace DotMatrix.Display

namespace Phase

/-- Video memory is open except during a transfer. -/
def videoOpen : Phase → Bool
  | transfer _ => false
  | _ => true

/-- Object memory is open except during an object scan and a transfer. -/
def objectsOpen : Phase → Bool
  | objectScan _ | transfer _ => false
  | _ => true

theorem open_of_next_objectScan {phase : Phase} {line : Nat} (h : phase.next = objectScan line) :
    phase.videoOpen = true ∧ phase.objectsOpen = true := by
  cases phase <;> first | exact ⟨rfl, rfl⟩ | cases h

theorem open_of_next_vBlank {phase : Phase} {line : Nat} (h : phase.next = vBlank line) :
    phase.videoOpen = true ∧ phase.objectsOpen = true := by
  cases phase <;> first | exact ⟨rfl, rfl⟩ | cases h

theorem videoOpen_iff (phase : Phase) : phase.videoOpen = true ↔ phase.mode ≠ 3 := by
  cases phase <;> simp [videoOpen, mode]

theorem objectsOpen_iff (phase : Phase) : phase.objectsOpen = true ↔ phase.mode ≤ 1 := by
  cases phase <;> simp [objectsOpen, mode]

end Phase

/-! ## Entering phases -/

theorem gates_drawLine (d : Display) (line : Nat) :
    (d.drawLine line).videoOpen = d.videoOpen ∧ (d.drawLine line).objectsOpen = d.objectsOpen := by
  unfold drawLine
  split <;> exact ⟨rfl, rfl⟩

theorem gates_finishFrame (d : Display) :
    d.finishFrame.videoOpen = d.videoOpen ∧ d.finishFrame.objectsOpen = d.objectsOpen := by
  by_cases h : d.swallow = 0
  · rw [finishFrame_of_shown h]
    exact ⟨rfl, rfl⟩
  · rw [finishFrame_of_swallowed h]
    exact ⟨rfl, rfl⟩

/-- The gates are those of the phase that began at a display clock. -/
structure GatesOf (d : Display) (clock : Nat) : Prop where
  video : d.videoOpen = (Phase.ofClock clock).videoOpen
  objects : d.objectsOpen = (Phase.ofClock clock).objectsOpen

/-- Entering a phase sets the gates to those of the phase, if both memories are open wherever the
phase leaves one as it is. -/
theorem gates_enter (d : Display) (phase : Phase)
    (hscan : ∀ line, phase = .objectScan line → d.videoOpen = true)
    (hblank : ∀ line, phase = .vBlank line → d.videoOpen = true ∧ d.objectsOpen = true) :
    (d.enter phase).videoOpen = phase.videoOpen ∧
      (d.enter phase).objectsOpen = phase.objectsOpen := by
  cases phase with
  | objectScan line => exact ⟨hscan line rfl, rfl⟩
  | transfer line =>
    -- a line is drawn after the gates are shut
    rw [enter_transfer]
    split
    · exact gates_drawLine { d with videoOpen := false, objectsOpen := false } line
    · exact ⟨rfl, rfl⟩
  | hBlank line => exact ⟨rfl, rfl⟩
  | vBlank line =>
    obtain ⟨hvideo, hobjects⟩ := hblank line rfl
    obtain ⟨hvideo', hobjects'⟩ := gates_finishFrame d
    rw [enter_vBlank]
    split
    · exact ⟨hvideo'.trans hvideo, hobjects'.trans hobjects⟩
    · exact ⟨hvideo, hobjects⟩

/-- The phase that was entered last began at a display clock, and the next one is known. -/
structure Entered (d : Display) (clock : Nat) : Prop extends GatesOf d clock where
  next : d.nextEvent = nextChange clock

theorem Entered.enterNext {d : Display} {clock : Nat} (h : d.Entered clock) :
    d.enterNext.1.Entered d.nextEvent := by
  have hphase : Phase.ofClock d.nextEvent = (Phase.ofClock clock).next := by
    rw [h.next, ofClock_nextChange]
  -- the phases that leave a gate as it is come after phases that have it open
  have hgates := gates_enter d (Phase.ofClock d.nextEvent)
    (fun line hscan => by
      rw [h.video]
      exact (Phase.open_of_next_objectScan (hphase.symm.trans hscan)).1)
    (fun line hblank => by
      rw [h.video, h.objects]
      exact Phase.open_of_next_vBlank (hphase.symm.trans hblank))
  exact ⟨⟨hgates.1, hgates.2⟩, rfl⟩

theorem entered_begin {d : Display} (hvideo : d.videoOpen = true) (hnext : d.nextEvent = 0) :
    d.enterNext.1.Entered 0 := by
  have hphase : Phase.ofClock d.nextEvent = .objectScan 0 := by
    rw [hnext]
    rfl
  have hgates := gates_enter d (Phase.ofClock d.nextEvent)
    (fun _ _ => hvideo)
    (fun line hblank => by
      rw [hphase] at hblank
      cases hblank)
  rw [hnext] at hgates
  refine ⟨⟨?_, ?_⟩, ?_⟩
  · rw [← hgates.1, ← hnext]
    rfl
  · rw [← hgates.2, ← hnext]
    rfl
  · rw [← hnext]
    rfl

/-- A display that has caught up is in the phase of the clock. -/
theorem Entered.catchUp {d : Display} {entered clock : Nat} (h : d.Entered entered)
    (hle : entered ≤ clock) (events : Events) :
    ∃ e ≤ clock, (d.catchUp clock events).1.Entered e ∧
      clock < (d.catchUp clock events).1.nextEvent := by
  -- each round enters a phase, so the clock that was entered last moves along
  induction d using catchUp_induction clock generalizing entered events with
  | done d hdone =>
    rw [catchUp_of_lt hdone]
    exact ⟨entered, hle, h, hdone⟩
  | enter d henter ih =>
    rw [catchUp_of_le henter]
    exact ih h.enterNext henter _

theorem Entered.gatesOf {d : Display} {entered clock : Nat} (h : d.Entered entered)
    (hle : entered ≤ clock) (hlt : clock < d.nextEvent) : d.GatesOf clock := by
  have hsame := ofClock_eq_of_lt_nextChange hle (h.next ▸ hlt)
  exact ⟨by rw [h.video, hsame], by rw [h.objects, hsame]⟩

/-! ## The link -/

/-- A display runs from its start on while it is switched on, and its gates are those of the phase
that its clock is in. While it does not run, both memories are open. -/
structure Gated (d : Display) : Prop where
  switched : d.registers.lcdOn = d.startAt.isSome
  asleep : d.running = false → d.videoOpen = true ∧ d.objectsOpen = true ∧
    ∀ start, d.startAt = some start → d.now < start ∧ start ≤ d.now + startDelay
  awake : d.running = true → ∃ start entered, d.startAt = some start ∧ start ≤ d.now ∧
    entered ≤ d.now - start ∧ d.now - start < d.nextEvent ∧ d.Entered entered

theorem Gated.startAt_eq_none {d : Display} (h : d.Gated) (hoff : d.startAt = none) :
    d.running = false := by
  cases hrunning : d.running with
  | false => rfl
  | true =>
    obtain ⟨start, entered, hstart, -⟩ := h.awake hrunning
    rw [hoff] at hstart
    cases hstart

/-- The link is about nothing but the switch, the clock and the gates. -/
theorem Gated.of_eq {d e : Display} (h : d.Gated) (hswitch : e.registers.lcdOn = d.registers.lcdOn)
    (hstart : e.startAt = d.startAt) (hrunning : e.running = d.running)
    (hvideo : e.videoOpen = d.videoOpen) (hobjects : e.objectsOpen = d.objectsOpen)
    (hnow : e.now = d.now) (hnext : e.nextEvent = d.nextEvent) : e.Gated := by
  refine ⟨?_, ?_, ?_⟩
  · rw [hswitch, hstart, h.switched]
  · rw [hrunning, hvideo, hobjects, hstart, hnow]
    exact h.asleep
  · rw [hrunning, hstart, hnow, hnext]
    intro hrun
    obtain ⟨start, entered, hstart', hdue, hle, hlt, hentered⟩ := h.awake hrun
    exact ⟨start, entered, hstart', hdue, hle, hlt,
      ⟨hvideo.trans hentered.video, hobjects.trans hentered.objects⟩, hnext.trans hentered.next⟩

theorem gated_initial : initial.Gated := by
  refine ⟨rfl, fun _ => ⟨rfl, rfl, ?_⟩, ?_⟩
  · intro start hstart
    cases hstart
  · intro hrunning
    cases hrunning

/-! ## Writing -/

theorem Gated.writeVideo {d : Display} (h : d.Gated) (i : Nat) (val : UInt8) :
    (d.writeVideo i val).Gated := by
  unfold Display.writeVideo
  split
  · exact h.of_eq rfl rfl rfl rfl rfl rfl rfl
  · exact h

theorem Gated.writeObjects {d : Display} (h : d.Gated) (i : Nat) (val : UInt8) :
    (d.writeObjects i val).Gated := by
  unfold Display.writeObjects
  split
  · exact h.of_eq rfl rfl rfl rfl rfl rfl rfl
  · exact h

theorem gated_switchOn {d : Display} (hon : d.registers.lcdOn = true) (hrunning : d.running = false)
    (hopen : d.videoOpen = true ∧ d.objectsOpen = true) : d.switchOn.Gated := by
  refine ⟨hon, fun _ => ⟨hopen.1, hopen.2, ?_⟩, ?_⟩
  · rintro start ⟨⟩
    refine ⟨Nat.lt_add_of_pos_right (by decide), Nat.le_refl _⟩
  · intro hrun
    exact absurd (hrunning.symm.trans hrun) (by simp)

theorem gated_switchOff {d : Display} (hoff : d.registers.lcdOn = false) : d.switchOff.Gated := by
  refine ⟨hoff, fun _ => ⟨rfl, rfl, ?_⟩, ?_⟩
  · intro start hstart
    cases hstart
  · intro hrunning
    cases hrunning

theorem Gated.toggle {d : Display} (h : d.Gated) (control : UInt8) :
    (toggle { d with registers := { d.registers with control } }).Gated := by
  -- a display that runs has a start, so the switch is compared with whether there is one
  have hscheduled : (d.running || d.startAt.isSome) = d.startAt.isSome := by
    cases hstart : d.startAt with
    | none => rw [h.startAt_eq_none hstart]; rfl
    | some start => simp
  unfold Display.toggle
  dsimp only
  rw [hscheduled]
  split
  · rename_i hsame
    exact h.of_eq (hsame.trans h.switched.symm) rfl rfl rfl rfl rfl rfl
  · rename_i hnew
    split
    · rename_i hon
      have hoff : d.startAt = none := by
        cases hstart : d.startAt with
        | none => rfl
        | some start => simp [hon, hstart] at hnew
      have hrunning := h.startAt_eq_none hoff
      exact gated_switchOn hon hrunning ⟨(h.asleep hrunning).1, (h.asleep hrunning).2.1⟩
    · rename_i hoff
      exact gated_switchOff (by simpa using hoff)

theorem Gated.write {d : Display} (h : d.Gated) (addr : UInt16) (val : UInt8) :
    (d.write addr val).Gated := by
  unfold Display.write
  dsimp only
  split
  · exact h.toggle val
  all_goals first
    | exact h
    | exact h.of_eq rfl rfl rfl rfl rfl rfl rfl

/-! ## Telling the time -/

theorem Gated.catchUp (d : Display) {start entered : Nat} (hon : d.registers.lcdOn = true)
    (hrunning : d.running = true) (hstart : d.startAt = some start) (hdue : start ≤ d.now)
    (hentered : d.Entered entered) (hle : entered ≤ d.now - start) :
    (d.catchUp (d.now - start) .none).1.Gated := by
  have hsame := sameSetup_catchUp d (d.now - start) .none
  obtain ⟨e, hle', hentered', hlt⟩ := hentered.catchUp hle .none
  refine ⟨?_, ?_, ?_⟩
  · rw [hsame.registers, hsame.startAt, hon, hstart]
    rfl
  · rw [hsame.running, hrunning]
    intro hoff
    cases hoff
  · rw [hsame.startAt, hsame.now]
    exact fun _ => ⟨start, e, hstart, hdue, hle', hlt, hentered'⟩

theorem Gated.update {d : Display} (h : d.Gated) {now : Nat} (hnow : d.now ≤ now) :
    (d.update now).1.Gated := by
  cases hawake : d.awake? now with
  | none =>
    rw [update_of_asleep hawake]
    -- it is off, or the delay of its start is not over
    have hasleep : d.running = false := by
      cases hstart : d.startAt with
      | none => exact h.startAt_eq_none hstart
      | some start => exact (wait_of_asleep hawake hstart).1
    obtain ⟨hvideo, hobjects, hdelay⟩ := h.asleep hasleep
    refine ⟨h.switched, fun _ => ⟨hvideo, hobjects, ?_⟩, ?_⟩
    · intro start hstart
      have hwait := (wait_of_asleep hawake hstart).2
      have hle := (hdelay start hstart).2
      exact ⟨hwait, by show start ≤ now + startDelay; omega⟩
    · intro hrunning
      exact absurd (hasleep.symm.trans hrunning) (by simp)
  | some pair =>
    obtain ⟨awake, clock⟩ := pair
    obtain ⟨start, hstart, rfl, hcase⟩ := awake?_eq_some_iff.1 hawake
    have hon : d.registers.lcdOn = true := by
      rw [h.switched, hstart]
      rfl
    rw [update_of_awake hawake]
    rcases hcase with ⟨hrunning, rfl⟩ | ⟨hasleep, hdue, rfl⟩
    · -- it goes on from the phase that it entered last
      obtain ⟨start', entered, hstart', hdue, hle, -, hentered⟩ := h.awake hrunning
      have hsame : start' = start := Option.some.inj (hstart'.symm.trans hstart)
      subst hsame
      have hentered' : (d.withNow now).Entered entered :=
        ⟨⟨hentered.video, hentered.objects⟩, hentered.next⟩
      exact Gated.catchUp (d.withNow now) hon hrunning hstart (Nat.le_trans hdue hnow)
        hentered' (by show entered ≤ now - start'; omega)
    · -- it begins to run, and the first phase is entered before anything is said of the gates
      obtain ⟨hvideo, -, -⟩ := h.asleep hasleep
      have hentered := entered_begin (d := d.begin now) hvideo rfl
      have hsame := sameSetup_enterNext (d.begin now)
      have hnow' : (d.begin now).enterNext.1.now = now := hsame.now
      have hgated := Gated.catchUp (d.begin now).enterNext.1
        (by rw [hsame.registers]; exact hon) (by rw [hsame.running]; rfl)
        (by rw [hsame.startAt]; exact hstart) (by rw [hnow']; exact hdue) hentered
        (Nat.zero_le _)
      rw [catchUp_of_le (show (d.begin now).nextEvent ≤ now - start from Nat.zero_le _),
        catchUp_events]
      rw [hnow'] at hgated
      exact hgated

/-! ## What the program sees -/

theorem ofClock_line (clock : Nat) :
    (Phase.ofClock clock).line < totalLines ∧
      ((Phase.ofClock clock).mode = 1 ↔ screenHeight ≤ (Phase.ofClock clock).line) := by
  obtain ⟨period, line, sub, hline, hsub, rfl⟩ := exists_parts clock
  rw [ofClock_clockAt hline hsub]
  unfold Phase.ofLine
  by_cases hblank : screenHeight ≤ line
  · rw [if_pos hblank]
    exact ⟨hline, by simp [Phase.mode, Phase.line, hblank]⟩
  · rw [if_neg hblank]
    split
    · exact ⟨hline, by simp [Phase.mode, Phase.line, hblank]⟩
    · split
      · exact ⟨hline, by simp [Phase.mode, Phase.line, hblank]⟩
      · exact ⟨hline, by simp [Phase.mode, Phase.line, hblank]⟩

/-- While a display runs, the mode that it shows says which memories are open, and whether the
line that it shows is a visible one. -/
theorem Gated.of_running {d : Display} (h : d.Gated) (hrunning : d.running = true) :
    d.line < totalLines ∧ (d.mode = 1 ↔ screenHeight ≤ d.line) ∧
      (d.videoOpen = true ↔ d.mode ≠ 3) ∧ (d.objectsOpen = true ↔ d.mode ≤ 1) := by
  obtain ⟨start, entered, hstart, hdue, hle, hlt, hentered⟩ := h.awake hrunning
  have hgates := hentered.gatesOf hle hlt
  have hphase : d.currentPhase? = some (Phase.ofClock (d.now - start)) := by
    unfold currentPhase?
    rw [if_pos hrunning, hstart]
    rfl
  have hmode : d.mode = (Phase.ofClock (d.now - start)).mode := by
    unfold mode
    rw [hphase]
    rfl
  have hline : d.line = (Phase.ofClock (d.now - start)).line := by
    unfold line
    rw [hphase]
    rfl
  rw [hmode, hline, hgates.video, hgates.objects]
  exact ⟨(ofClock_line _).1, (ofClock_line _).2, Phase.videoOpen_iff _, Phase.objectsOpen_iff _⟩

theorem mode_line_of_asleep {d : Display} (hasleep : d.running = false) :
    d.mode = 0 ∧ d.line = 0 := by
  have hphase : d.currentPhase? = none := if_neg (by simp [hasleep])
  unfold mode line
  rw [hphase]
  exact ⟨rfl, rfl⟩

/-- A display does not run while it is switched off or its start is delayed, and only then. -/
theorem Gated.asleep_iff {d : Display} (h : d.Gated) :
    d.running = false ↔
      d.registers.lcdOn = false ∨
        ∃ start, d.startAt = some start ∧ d.now < start ∧ start ≤ d.now + startDelay := by
  constructor
  · intro hasleep
    cases hstart : d.startAt with
    | none =>
      left
      rw [h.switched, hstart]
      rfl
    | some start =>
      obtain ⟨hwait, hle⟩ := (h.asleep hasleep).2.2 start hstart
      exact .inr ⟨start, rfl, hwait, hle⟩
  · intro hcase
    cases hrunning : d.running with
    | false => rfl
    | true =>
      -- a running display is switched on and its start is not in the future
      obtain ⟨start, entered, hstart, hdue, -⟩ := h.awake hrunning
      rcases hcase with hoff | ⟨start', hstart', hwait, -⟩
      · rw [h.switched, hstart] at hoff
        cases hoff
      · have hsame : start' = start := Option.some.inj (hstart'.symm.trans hstart)
        omega

end DotMatrix.Display
