import DotMatrix.Proofs.Display.CatchUp
import DotMatrix.Proofs.Display.Schedule

/-!
# The lines of a frame

A frame is drawn line by line into a buffer that may hold anything before. `Phase.drawn` tells how
many lines of the period are drawn before a phase begins, and `row_enterNext` what those lines hold
after the phase is entered, so that by the vertical blank nothing of the old buffer is left.
-/

namespace DotMatrix.Display

/-! ## Pixels -/

namespace Frame

/-- Each pixel has a place of its own. -/
theorem place_inj {x y column line : Nat} (hx : x < screenWidth) (hcolumn : column < screenWidth) :
    line * screenWidth + column = y * screenWidth + x ↔ line = y ∧ column = x := by
  unfold screenWidth at *
  omega

theorem place_lt {x y : Nat} (hx : x < screenWidth) (hy : y < screenHeight) :
    y * screenWidth + x < pixelCount := by
  unfold pixelCount screenWidth screenHeight at *
  omega

theorem pixel_setPixels (f : Frame) (colour : Nat → UInt32) {line x y count : Nat}
    (hline : line < screenHeight) (hx : x < screenWidth) (hcount : count ≤ screenWidth) :
    (f.setPixels line colour count).pixel x y =
      if line = y ∧ x < count then colour x else f.pixel x y := by
  induction count with
  | zero => simp [setPixels]
  | succ column ih =>
    have hcolumn : column < screenWidth := hcount
    have ih := ih (by omega)
    unfold pixel setPixels
    dsimp only
    rw [Vector.getElem?_setIfInBounds]
    by_cases hplace : line * screenWidth + column = y * screenWidth + x
    · obtain ⟨rfl, rfl⟩ := (place_inj hx hcolumn).1 hplace
      rw [if_pos rfl, if_pos (place_lt hx hline), if_pos ⟨rfl, by omega⟩]
      rfl
    · rw [if_neg hplace]
      refine ih.trans ?_
      have hother : ¬ (line = y ∧ column = x) := fun h => hplace ((place_inj hx hcolumn).2 h)
      by_cases hbefore : line = y ∧ x < column
      · rw [if_pos hbefore, if_pos ⟨hbefore.1, by omega⟩]
      · rw [if_neg hbefore, if_neg (by omega)]
        rfl

/-- Setting a line gives it its colours and leaves the other lines as they are. -/
theorem pixel_setLine (f : Frame) (colour : Nat → UInt32) {line x : Nat}
    (hline : line < screenHeight) (hx : x < screenWidth) (y : Nat) :
    (f.setLine line colour).pixel x y = if line = y then colour x else f.pixel x y := by
  unfold setLine
  rw [pixel_setPixels f colour hline hx (Nat.le_refl _)]
  simp [hx]

/-- A frame is its visible pixels. -/
theorem ext_pixel {f g : Frame}
    (h : ∀ y < screenHeight, ∀ x < screenWidth, f.pixel x y = g.pixel x y) : f = g := by
  obtain ⟨fPixels⟩ := f
  obtain ⟨gPixels⟩ := g
  congr 1
  refine Vector.ext fun i hi => ?_
  have hy : i / screenWidth < screenHeight := by
    unfold pixelCount at hi
    exact Nat.div_lt_of_lt_mul hi
  have hsame := h (i / screenWidth) hy (i % screenWidth) (Nat.mod_lt i (by decide))
  have hplace : i / screenWidth * screenWidth + i % screenWidth = i :=
    Nat.div_add_mod' i screenWidth
  unfold pixel at hsame
  rw [hplace] at hsame
  simpa [hi] using hsame

end Frame

/-! ## Lines drawn in a period -/

namespace Phase

/-- The lines of the picture that are drawn in a period before a phase begins. The picture is
complete when the vertical blank begins, and after that a new one is due. -/
def drawn : Phase → Nat
  | objectScan line | transfer line => line
  | hBlank line => line + 1
  | vBlank line => if line ≤ screenHeight then screenHeight else 0

theorem drawn_vBlank (line : Nat) :
    (vBlank line).drawn = if line ≤ screenHeight then screenHeight else 0 := rfl

/-- A line is drawn in its transfer and in no other phase. -/
theorem lt_drawn_of_next {phase : Phase} {line : Nat} (h : line < phase.next.drawn) :
    line < phase.drawn ∨ phase = transfer line := by
  cases phase with
  | objectScan l => exact .inl h
  | transfer l =>
    have hle : line < l + 1 := h
    by_cases hlast : line = l
    · exact .inr (by rw [hlast])
    · exact .inl (show line < l by omega)
  | hBlank l =>
    left
    show line < l + 1
    rw [next_hBlank] at h
    split at h
    · exact h
    · rw [drawn_vBlank] at h
      split at h <;> omega
  | vBlank l =>
    left
    rw [drawn_vBlank]
    rw [next_vBlank] at h
    split at h
    · rw [drawn_vBlank] at h
      split at h
      · rw [if_pos (by omega)]
        exact h
      · omega
    · exact absurd h (Nat.not_lt_zero line)

end Phase

theorem lt_of_transfer {clock line : Nat} (h : Phase.ofClock clock = .transfer line) :
    line < screenHeight := by
  obtain ⟨period, l, sub, hl, hsub, rfl⟩ := exists_parts clock
  rw [ofClock_clockAt hl hsub] at h
  unfold Phase.ofLine at h
  split_ifs at h with hblank hscan htransfer
  cases h
  omega

/-! ## Entering phases -/

/-- What a display that transfers a line now puts into it. -/
def picture (d : Display) (line x : Nat) : UInt32 :=
  pixelColour d.vram d.registers (lineObjects d.oam d.registers line) d.windowLine.toNat line x

theorem frame_enter_transfer {d : Display} (hswallow : d.swallow = 0) {line : Nat}
    (hline : line < screenHeight) :
    (d.enter (.transfer line)).frame = d.frame.setLine line (d.picture line) := by
  rw [enter_transfer, if_pos hswallow]
  unfold drawLine
  rw [if_pos hline]
  rfl

/-- Only a transfer draws, and only the end of the picture exchanges the buffer. -/
theorem frame_enter_of_ne (d : Display) {phase : Phase} (htransfer : ∀ line, phase ≠ .transfer line)
    (hblank : phase ≠ .vBlank screenHeight) : (d.enter phase).frame = d.frame := by
  cases phase with
  | objectScan line => rfl
  | transfer line => exact absurd rfl (htransfer line)
  | hBlank line => rfl
  | vBlank line =>
    rw [enter_vBlank, if_neg]
    rintro rfl
    exact hblank rfl

theorem swallow_drawLine (d : Display) (line : Nat) : (d.drawLine line).swallow = d.swallow := by
  unfold drawLine
  split <;> rfl

/-- The end of the picture uses up one frame that is not shown. -/
theorem swallow_enterNext (d : Display) :
    d.enterNext.1.swallow =
      if Phase.ofClock d.nextEvent = .vBlank screenHeight then d.swallow - 1 else d.swallow := by
  show (d.enter (Phase.ofClock d.nextEvent)).swallow = _
  cases hphase : Phase.ofClock d.nextEvent with
  | objectScan line => rfl
  | transfer line =>
    rw [if_neg nofun, enter_transfer]
    split
    · exact swallow_drawLine _ line
    · rfl
  | hBlank line => rfl
  | vBlank line =>
    rw [enter_vBlank]
    by_cases hline : line = screenHeight
    · rw [if_pos hline, if_pos (congrArg Phase.vBlank hline)]
      by_cases hswallow : d.swallow = 0
      · rw [finishFrame_of_shown hswallow]
        show d.swallow = d.swallow - 1
        omega
      · rw [finishFrame_of_swallowed hswallow]
    · rw [if_neg hline, if_neg (fun h => hline (Phase.vBlank.inj h))]

/-- The lines that are drawn after a phase is entered: the line of the transfer shows its picture,
and the others show what they showed before. -/
theorem row_enterNext {d : Display} {line x : Nat} (hswallow : d.enterNext.1.swallow = 0)
    (hline : line < (Phase.ofClock d.enterNext.1.nextEvent).drawn) (hx : x < screenWidth) :
    d.swallow = 0 ∧
      ((Phase.ofClock d.nextEvent = .transfer line ∧
          d.enterNext.1.frame.pixel x line = d.picture line x) ∨
        (Phase.ofClock d.nextEvent ≠ .transfer line ∧
          line < (Phase.ofClock d.nextEvent).drawn ∧
          d.enterNext.1.frame.pixel x line = d.frame.pixel x line)) := by
  have hnext : Phase.ofClock d.enterNext.1.nextEvent = (Phase.ofClock d.nextEvent).next :=
    ofClock_nextChange d.nextEvent
  rw [hnext] at hline
  -- nothing is drawn yet when the picture has just ended
  have hblank : Phase.ofClock d.nextEvent ≠ .vBlank screenHeight := by
    intro hblank
    rw [hblank] at hline
    exact absurd hline (Nat.not_lt_zero line)
  rw [swallow_enterNext, if_neg hblank] at hswallow
  refine ⟨hswallow, ?_⟩
  have hframe : d.enterNext.1.frame = (d.enter (Phase.ofClock d.nextEvent)).frame := rfl
  rw [hframe]
  by_cases htransfer : ∃ l, Phase.ofClock d.nextEvent = .transfer l
  · obtain ⟨l, htransfer⟩ := htransfer
    have hl := lt_of_transfer htransfer
    rw [htransfer] at hline ⊢
    rw [frame_enter_transfer hswallow hl, Frame.pixel_setLine _ _ hl hx]
    by_cases hsame : l = line
    · left
      rw [if_pos hsame, hsame]
      exact ⟨rfl, rfl⟩
    · right
      rw [if_neg hsame]
      refine ⟨fun h => hsame (Phase.transfer.inj h), ?_, rfl⟩
      exact (Phase.lt_drawn_of_next hline).resolve_right fun h => hsame (Phase.transfer.inj h)
  · right
    have hother : ∀ l, Phase.ofClock d.nextEvent ≠ .transfer l := fun l h => htransfer ⟨l, h⟩
    rw [frame_enter_of_ne d hother hblank]
    exact ⟨hother line, (Phase.lt_drawn_of_next hline).resolve_right (hother line), rfl⟩

end DotMatrix.Display
