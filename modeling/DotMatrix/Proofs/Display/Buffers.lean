import DotMatrix.Proofs.Display.Lines

/-!
# Displays that differ in their buffers

The consumer of the frames decides which buffer the display draws into next, and so what the buffer
holds at first. Two displays that differ in nothing but the exchange and the lines not drawn yet
are `Alike`; all that happens to a display keeps them alike, and they show the same frames.
-/

namespace DotMatrix.Display

/-- The displays differ at most in the exchange and in the lines of the buffer that are still to be
drawn. -/
def Alike (d e : Display) : Prop :=
  ∃ frame slot, e = { d with frame, slot } ∧ slot.published = d.slot.published ∧
    (d.swallow = 0 → ∀ line < (Phase.ofClock d.nextEvent).drawn, ∀ x < screenWidth,
      frame.pixel x line = d.frame.pixel x line)

namespace Alike

theorem refl (d : Display) : d.Alike d := ⟨d.frame, d.slot, rfl, rfl, fun _ _ _ _ _ => rfl⟩

theorem symm {d e : Display} (h : d.Alike e) : e.Alike d := by
  obtain ⟨frame, slot, rfl, hpublished, hrows⟩ := h
  exact ⟨d.frame, d.slot, rfl, hpublished.symm,
    fun hswallow line hline x hx => (hrows hswallow line hline x hx).symm⟩

theorem trans {d e f : Display} (h : d.Alike e) (h' : e.Alike f) : d.Alike f := by
  obtain ⟨frame, slot, rfl, hpublished, hrows⟩ := h
  obtain ⟨frame', slot', rfl, hpublished', hrows'⟩ := h'
  exact ⟨frame', slot', rfl, hpublished'.trans hpublished, fun hswallow line hline x hx =>
    (hrows' hswallow line hline x hx).trans (hrows hswallow line hline x hx)⟩

/-- The consumer takes frames and gives back buffers. -/
theorem ofSlot (d : Display) {slot : FrameSlot Frame} (h : slot.published = d.slot.published) :
    d.Alike { d with slot } :=
  ⟨d.frame, slot, rfl, h, fun _ _ _ _ _ => rfl⟩

/-! ## Access -/

variable {d e : Display}

theorem readVideo (h : d.Alike e) (i : Nat) : e.readVideo i = d.readVideo i := by
  obtain ⟨frame, slot, rfl, -, -⟩ := h
  rfl

theorem readObjects (h : d.Alike e) (i : Nat) : e.readObjects i = d.readObjects i := by
  obtain ⟨frame, slot, rfl, -, -⟩ := h
  rfl

theorem read (h : d.Alike e) (addr : UInt16) : e.read addr = d.read addr := by
  obtain ⟨frame, slot, rfl, -, -⟩ := h
  rfl

/-- Alike displays are the same but for the buffer and the exchange. -/
theorem eq (h : d.Alike e) : e = { d with frame := e.frame, slot := e.slot } := by
  obtain ⟨frame, slot, rfl, -, -⟩ := h
  rfl

theorem published (h : d.Alike e) : e.slot.published = d.slot.published := by
  obtain ⟨frame, slot, rfl, hpublished, -⟩ := h
  exact hpublished

theorem openMemories (h : d.Alike e) : d.openMemories.Alike e.openMemories := by
  obtain ⟨frame, slot, rfl, hpublished, hrows⟩ := h
  exact ⟨frame, slot, rfl, hpublished, hrows⟩

theorem setObjects (h : d.Alike e) (oam : Memory objectSize) :
    ({ d with oam } : Display).Alike { e with oam } := by
  obtain ⟨frame, slot, rfl, hpublished, hrows⟩ := h
  exact ⟨frame, slot, rfl, hpublished, hrows⟩

theorem writeVideo (h : d.Alike e) (i : Nat) (val : UInt8) :
    (d.writeVideo i val).Alike (e.writeVideo i val) := by
  obtain ⟨frame, slot, rfl, hpublished, hrows⟩ := h
  unfold Display.writeVideo
  by_cases hopen : d.videoOpen = true
  · rw [if_pos hopen, if_pos hopen]
    exact ⟨frame, slot, rfl, hpublished, hrows⟩
  · rw [if_neg hopen, if_neg hopen]
    exact ⟨frame, slot, rfl, hpublished, hrows⟩

theorem writeObjects (h : d.Alike e) (i : Nat) (val : UInt8) :
    (d.writeObjects i val).Alike (e.writeObjects i val) := by
  obtain ⟨frame, slot, rfl, hpublished, hrows⟩ := h
  unfold Display.writeObjects
  by_cases hopen : d.objectsOpen = true
  · rw [if_pos hopen, if_pos hopen]
    exact ⟨frame, slot, rfl, hpublished, hrows⟩
  · rw [if_neg hopen, if_neg hopen]
    exact ⟨frame, slot, rfl, hpublished, hrows⟩

end Alike

theorem published_publish (slot : FrameSlot Frame) (frame : Frame) :
    (slot.publish Frame.blank frame).2.published = slot.published + 1 := by
  unfold FrameSlot.publish
  split <;> rfl

theorem published_showAll (slot : FrameSlot Frame) (frames : List Frame) :
    (showAll slot frames).published = slot.published + frames.length := by
  induction frames generalizing slot with
  | nil => rfl
  | cons frame frames ih =>
    show (showAll (slot.publish Frame.blank frame).2 frames).published = _
    rw [ih, published_publish, List.length_cons]
    omega

/-- Writing a register shows at most a white frame. -/
theorem slot_write (d : Display) (addr : UInt16) (val : UInt8) :
    (d.write addr val).slot = d.slot ∨
      (d.write addr val).slot = showAll d.slot [Frame.blank] := by
  have htoggle : ∀ d : Display, d.toggle.slot = d.slot ∨
      d.toggle.slot = showAll d.slot [Frame.blank] := by
    intro d
    unfold toggle
    dsimp only
    split
    · exact .inl rfl
    · split
      · exact .inl rfl
      · exact .inr rfl
  unfold write
  dsimp only
  split
  · exact htoggle _
  all_goals exact .inl rfl

namespace Alike

variable {d e : Display}

/-- A white frame is shown whatever the buffer holds. -/
theorem switchOff (h : d.Alike e) : d.switchOff.Alike e.switchOff := by
  obtain ⟨frame, slot, rfl, hpublished, -⟩ := h
  refine ⟨Frame.blank, (slot.publish Frame.blank Frame.blank).2, rfl, ?_, fun _ _ _ _ _ => rfl⟩
  show (slot.publish Frame.blank Frame.blank).2.published =
    (d.slot.publish Frame.blank Frame.blank).2.published
  rw [published_publish, published_publish, hpublished]

/-- The first frame is swallowed, and its lines are not drawn. -/
theorem switchOn (h : d.Alike e) : d.switchOn.Alike e.switchOn := by
  obtain ⟨frame, slot, rfl, hpublished, -⟩ := h
  exact ⟨frame, slot, rfl, hpublished, nofun⟩

theorem toggle (h : d.Alike e) : d.toggle.Alike e.toggle := by
  have hregisters : e.registers = d.registers := by
    obtain ⟨frame, slot, rfl, -, -⟩ := h
    rfl
  have hscheduled : (e.running || e.startAt.isSome) = (d.running || d.startAt.isSome) := by
    obtain ⟨frame, slot, rfl, -, -⟩ := h
    rfl
  unfold Display.toggle
  dsimp only
  rw [hregisters, hscheduled]
  split
  · exact h
  · split
    · exact h.switchOn
    · exact h.switchOff

theorem write (h : d.Alike e) (addr : UInt16) (val : UInt8) :
    (d.write addr val).Alike (e.write addr val) := by
  have hcontrol : (Display.toggle { d with registers := { d.registers with control := val } }).Alike
      (Display.toggle { e with registers := { e.registers with control := val } }) := by
    obtain ⟨frame, slot, rfl, hpublished, hrows⟩ := h
    exact toggle ⟨frame, slot, rfl, hpublished, hrows⟩
  obtain ⟨frame, slot, rfl, hpublished, hrows⟩ := h
  unfold Display.write
  dsimp only
  split
  · exact hcontrol
  all_goals exact ⟨frame, slot, rfl, hpublished, hrows⟩

/-! ## Time -/

/-- At the end of a picture all of it is drawn. -/
theorem shownNext (h : d.Alike e) : e.shownNext = d.shownNext := by
  obtain ⟨frame, slot, rfl, -, hrows⟩ := h
  unfold Display.shownNext
  by_cases hends : Phase.ofClock d.nextEvent = .vBlank screenHeight ∧ d.swallow = 0
  · have hframe : frame = d.frame := Frame.ext_pixel fun y hy x hx =>
      hrows hends.2 y (by rw [hends.1]; exact hy) x hx
    rw [if_pos hends, if_pos hends, hframe]
  · rw [if_neg hends, if_neg hends]

/-- Entering a phase does the same to both but for the buffers. -/
theorem exists_enter (d : Display) (frame : Frame) (slot : FrameSlot Frame) (phase : Phase) :
    ∃ frame' slot', ({ d with frame, slot } : Display).enter phase =
      { d.enter phase with frame := frame', slot := slot' } := by
  cases phase with
  | objectScan line => exact ⟨frame, slot, rfl⟩
  | transfer line =>
    rw [enter_transfer, enter_transfer]
    by_cases hswallow : d.swallow = 0
    · rw [if_pos hswallow,
        if_pos (show ({ d with frame, slot } : Display).swallow = 0 from hswallow)]
      unfold drawLine
      split
      · exact ⟨_, slot, rfl⟩
      · exact ⟨frame, slot, rfl⟩
    · rw [if_neg hswallow,
        if_neg (show ({ d with frame, slot } : Display).swallow ≠ 0 from hswallow)]
      exact ⟨frame, slot, rfl⟩
  | hBlank line => exact ⟨frame, slot, rfl⟩
  | vBlank line =>
    rw [enter_vBlank, enter_vBlank]
    split
    · by_cases hswallow : d.swallow = 0
      · rw [finishFrame_of_shown hswallow,
          finishFrame_of_shown (show ({ d with frame, slot } : Display).swallow = 0 from hswallow)]
        exact ⟨_, _, rfl⟩
      · rw [finishFrame_of_swallowed hswallow, finishFrame_of_swallowed
          (show ({ d with frame, slot } : Display).swallow ≠ 0 from hswallow)]
        exact ⟨frame, slot, rfl⟩
    · exact ⟨frame, slot, rfl⟩

theorem enterNext (h : d.Alike e) :
    d.enterNext.1.Alike e.enterNext.1 ∧ e.enterNext.2 = d.enterNext.2 := by
  have hslot := (slot_enterNext d).1
  have hslot' := (slot_enterNext e).1
  rw [h.shownNext] at hslot'
  obtain ⟨frame, slot, rfl, hpublished, hrows⟩ := h
  obtain ⟨frame', slot', henter⟩ := exists_enter d frame slot (Phase.ofClock d.nextEvent)
  have hnext : ({ d with frame, slot } : Display).enterNext.1 =
      { d.enterNext.1 with frame := frame', slot := slot' } := by
    unfold Display.enterNext
    dsimp only
    rw [henter]
  refine ⟨⟨frame', slot', hnext, ?_, fun hswallow line hline x hx => ?_⟩, ?_⟩
  · rw [hnext] at hslot'
    have hslot' : slot' = showAll slot d.shownNext := hslot'
    rw [hslot, hslot', published_showAll, published_showAll, hpublished]
  · -- the line of a transfer gets the same picture, and the lines drawn before are kept
    have hrow := row_enterNext hswallow hline hx
    have hrow' := @row_enterNext { d with frame, slot } line x (by rw [hnext]; exact hswallow)
      (by rw [hnext]; exact hline) hx
    rw [hnext] at hrow'
    rcases hrow with ⟨hshown, ⟨htransfer, hpixel⟩ | ⟨hother, hdrawn, hpixel⟩⟩
    · rcases hrow'.2 with ⟨-, hpixel'⟩ | ⟨hother, -⟩
      · rw [hpixel]
        exact hpixel'
      · exact absurd htransfer hother
    · rcases hrow'.2 with ⟨htransfer, -⟩ | ⟨-, -, hpixel'⟩
      · exact absurd htransfer hother
      · rw [hpixel, ← hrows hshown line hdrawn x hx]
        exact hpixel'
  · rfl

theorem catchUp (h : d.Alike e) (clock : Nat) (events : Events) :
    (d.catchUp clock events).1.Alike (e.catchUp clock events).1 ∧
      (e.catchUp clock events).2 = (d.catchUp clock events).2 ∧
      e.shownBy clock = d.shownBy clock := by
  induction d using catchUp_induction clock generalizing e events with
  | done d hdone =>
    have hdone' : clock < e.nextEvent := by
      obtain ⟨frame, slot, rfl, -, -⟩ := h
      exact hdone
    rw [catchUp_of_lt hdone, catchUp_of_lt hdone', shownBy_of_lt hdone, shownBy_of_lt hdone']
    exact ⟨h, rfl, rfl⟩
  | enter d henter ih =>
    have henter' : e.nextEvent ≤ clock := by
      obtain ⟨frame, slot, rfl, -, -⟩ := h
      exact henter
    obtain ⟨hnext, hevents⟩ := h.enterNext
    rw [catchUp_of_le henter, catchUp_of_le henter', shownBy_of_le henter, shownBy_of_le henter',
      hevents, h.shownNext]
    obtain ⟨hdone, hdoneEvents, hshown⟩ := ih hnext (events.join d.enterNext.2)
    exact ⟨hdone, hdoneEvents, by rw [hshown]⟩

theorem withNow (h : d.Alike e) (now : Nat) : (d.withNow now).Alike (e.withNow now) := by
  obtain ⟨frame, slot, rfl, hpublished, hrows⟩ := h
  exact ⟨frame, slot, rfl, hpublished, hrows⟩

/-- A display that begins to run has drawn nothing. -/
theorem begin (h : d.Alike e) (now : Nat) : (d.begin now).Alike (e.begin now) := by
  obtain ⟨frame, slot, rfl, hpublished, -⟩ := h
  -- the old lines do not matter, for the clock starts at the first line of a period
  refine ⟨frame, slot, rfl, hpublished, fun _ line hline => ?_⟩
  have hnone : (Phase.ofClock 0).drawn = 0 := rfl
  have hline : line < (Phase.ofClock 0).drawn := hline
  rw [hnone] at hline
  exact absurd hline (Nat.not_lt_zero line)

/-- If one of them catches up when it is told the time, so does the other. -/
theorem awake? (h : d.Alike e) (now : Nat) :
    (d.awake? now = none ∧ e.awake? now = none) ∨
      ∃ awake awake' clock, d.awake? now = some (awake, clock) ∧
        e.awake? now = some (awake', clock) ∧ awake.Alike awake' := by
  have hsame : e.startAt = d.startAt ∧ e.running = d.running := by
    obtain ⟨frame, slot, rfl, -, -⟩ := h
    exact ⟨rfl, rfl⟩
  unfold Display.awake?
  rw [hsame.1, hsame.2]
  cases d.startAt with
  | none => exact .inl ⟨rfl, rfl⟩
  | some start =>
    dsimp only
    split
    · exact .inr ⟨_, _, _, rfl, rfl, h.withNow now⟩
    · split
      · exact .inl ⟨rfl, rfl⟩
      · exact .inr ⟨_, _, _, rfl, rfl, h.begin now⟩

theorem update (h : d.Alike e) (now : Nat) :
    (d.update now).1.Alike (e.update now).1 ∧ (e.update now).2 = (d.update now).2 ∧
      e.shown now = d.shown now := by
  unfold Display.shown
  rcases h.awake? now with ⟨hasleep, hasleep'⟩ | ⟨awake, awake', clock, hawake, hawake', halike⟩
  · rw [update_of_asleep hasleep, update_of_asleep hasleep', hasleep, hasleep']
    exact ⟨h.withNow now, rfl, rfl⟩
  · rw [update_of_awake hawake, update_of_awake hawake', hawake, hawake']
    exact halike.catchUp clock .none

end Alike

end DotMatrix.Display
