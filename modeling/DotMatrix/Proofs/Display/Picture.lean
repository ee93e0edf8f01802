import DotMatrix.Proofs.Display.Lines
import DotMatrix.Proofs.Display.Objects

/-!
# The picture of a line

What is drawn of a line is the dot of the foremost object at each column, or that of the window or
the background (`drawLine_picture`). No content of the memories and registers makes the display
read beyond video memory: drawing with every index checked gives an answer, and the same one
(`Checked.pixelColour_eq`).
-/

namespace DotMatrix.Display

/-- The colour of a pixel from those of the background or window and of the foremost object. -/
def mix (r : Registers) (plane : Option UInt8) (object : Option (UInt8 × ScreenObject)) : UInt32 :=
  match object with
  | some (index, o) =>
    if o.behind && plane.getD 0 ≠ 0 then
      (plane.map fun index => grey (shade r.background index)).getD white
    else grey (shade (if o.secondPalette then r.objects1 else r.objects0) index)
  | none => (plane.map fun index => grey (shade r.background index)).getD white

theorem pixelColour_eq_mix (vram : Memory videoSize) (r : Registers) (objects : List ScreenObject)
    (windowLine line x : Nat) :
    pixelColour vram r objects windowLine line x =
      mix r (planeColour? vram r windowLine line x) (objectAt? vram r objects line x) := by
  unfold pixelColour mix
  rfl

/-! ## Reading within bounds -/

/-- The byte at an index, if the memory goes that far. -/
def byte? (vram : Memory videoSize) (i : Nat) : Option UInt8 := vram.cells[i]?

theorem byte?_of_lt (vram : Memory videoSize) {i : Nat} (h : i < videoSize) :
    byte? vram i = some (vram.read i) := by
  unfold byte? Memory.read
  rw [dif_pos h]
  exact Vector.getElem?_eq_getElem h

namespace Checked

/-! Drawing with every index into video memory checked. There is no answer if one is too high. -/

def tileColour (vram : Memory videoSize) (addr x y : Nat) : Option UInt8 := do
  let low ← byte? vram (addr + y * 2)
  let high ← byte? vram (addr + y * 2 + 1)
  let bit := (7 - x).toUInt8
  return (((high >>> bit) &&& 1) <<< 1) ||| ((low >>> bit) &&& 1)

def mapColour (vram : Memory videoSize) (r : Registers) (base x y : Nat) : Option UInt8 := do
  let tile ← byte? vram (base + y / 8 * 32 + x / 8)
  tileColour vram (tileAddress r tile) (x % 8) (y % 8)

def planeColour (vram : Memory videoSize) (r : Registers) (windowLine line x : Nat) :
    Option (Option UInt8) :=
  if windowCovers r line x then
    some <$> mapColour vram r (mapBase r.windowMapHigh) (x + 7 - r.windowX.toNat) windowLine
  else if r.backgroundOn then
    some <$> mapColour vram r (mapBase r.mapHigh) ((x + r.scrollX.toNat) % 256)
      ((line + r.scrollY.toNat) % 256)
  else some none

def objectColour (vram : Memory videoSize) (r : Registers) (line x : Nat) (o : ScreenObject) :
    Option UInt8 :=
  if (x : Int) < o.x || o.x + 8 ≤ x then some 0
  else
    let row := ((line : Int) - o.y).toNat
    let row := if o.flipY then (objectHeight r).toNat - 1 - row else row
    let column := ((x : Int) - o.x).toNat
    let column := if o.flipX then 7 - column else column
    let tile := if r.tallObjects then o.tile &&& 0xFE else o.tile
    tileColour vram (tile.toNat * 16 + row / 8 * 16) column (row % 8)

def objectAt (vram : Memory videoSize) (r : Registers) (objects : List ScreenObject)
    (line x : Nat) : Option (Option (UInt8 × ScreenObject)) :=
  match objects with
  | [] => some none
  | o :: rest => do
    let index ← objectColour vram r line x o
    if index ≠ 0 then some (some (index, o)) else objectAt vram r rest line x

def pixelColour (vram : Memory videoSize) (r : Registers) (objects : List ScreenObject)
    (windowLine line x : Nat) : Option UInt32 := do
  let plane ← planeColour vram r windowLine line x
  let object ← objectAt vram r objects line x
  return mix r plane object

theorem tileColour_eq (vram : Memory videoSize) {addr y : Nat} (x : Nat)
    (h : addr + y * 2 + 1 < videoSize) :
    tileColour vram addr x y = some (Display.tileColour vram addr x y) := by
  unfold tileColour
  rw [byte?_of_lt vram (by omega : addr + y * 2 < videoSize), byte?_of_lt vram h]
  rfl

theorem tileAddress_le (r : Registers) (tile : UInt8) : tileAddress r tile ≤ 0x17F0 := by
  have hlow := tile.toNat_lt
  have hhigh := (tile ^^^ 0x80).toNat_lt
  unfold tileAddress
  split <;> omega

theorem mapColour_eq (vram : Memory videoSize) (r : Registers) (high : Bool) {x y : Nat}
    (hx : x < 256) (hy : y < 256) :
    mapColour vram r (mapBase high) x y =
      some (Display.mapColour vram r (mapBase high) x y) := by
  have hbase : mapBase high ≤ 0x1C00 := by cases high <;> decide
  have hindex : mapBase high + y / 8 * 32 + x / 8 < videoSize := by
    unfold videoSize
    omega
  have htile := tileAddress_le r (vram.read (mapBase high + y / 8 * 32 + x / 8))
  unfold mapColour
  rw [byte?_of_lt vram hindex]
  refine tileColour_eq vram _
    (Nat.lt_of_le_of_lt (Nat.succ_le_succ (Nat.add_le_add_right htile _)) ?_)
  unfold videoSize
  omega

theorem planeColour_eq (vram : Memory videoSize) (r : Registers) {windowLine : Nat}
    (hwindow : windowLine < 256) (line : Nat) {x : Nat} (hx : x < screenWidth) :
    planeColour vram r windowLine line x = some (planeColour? vram r windowLine line x) := by
  have hcolumn : x + 7 - r.windowX.toNat < 256 := by
    unfold screenWidth at hx
    omega
  unfold planeColour planeColour?
  rw [mapColour_eq vram r _ hcolumn hwindow, mapColour_eq vram r _ (Nat.mod_lt _ (by decide))
    (Nat.mod_lt _ (by decide))]
  split_ifs <;> rfl

/-- A line that an object touches is one of its rows, which fill two tiles at most. -/
theorem objectColour_eq (vram : Memory videoSize) (r : Registers) {line : Nat} (x : Nat)
    {o : ScreenObject} (h : touches r line o = true) :
    objectColour vram r line x o = some (Display.objectColour vram r line x o) := by
  obtain ⟨habove, hbelow⟩ := (touches_iff r line o).1 h
  have hheight : objectHeight r ≤ 16 := by
    unfold objectHeight
    split <;> decide
  have hbound : ∀ tile : UInt8, ∀ row < 16,
      tile.toNat * 16 + row / 8 * 16 + row % 8 * 2 + 1 < videoSize := by
    intro tile row hrow
    have := tile.toNat_lt
    unfold videoSize
    omega
  unfold objectColour Display.objectColour
  by_cases houtside : (decide ((x : Int) < o.x) || decide (o.x + 8 ≤ x)) = true
  · rw [if_pos houtside, if_pos houtside]
  · rw [if_neg houtside, if_neg houtside]
    refine tileColour_eq vram _ (hbound _ _ ?_)
    split <;> omega

theorem objectAt_eq (vram : Memory videoSize) (r : Registers) {line : Nat} (x : Nat)
    {objects : List ScreenObject} (h : ∀ o ∈ objects, touches r line o = true) :
    objectAt vram r objects line x = some (objectAt? vram r objects line x) := by
  induction objects with
  | nil => rfl
  | cons o rest ih =>
    have hrest := ih fun p hp => h p (List.mem_cons_of_mem _ hp)
    unfold objectAt objectAt?
    rw [objectColour_eq vram r x (h o List.mem_cons_self), hrest]
    exact (apply_ite some _ _ _).symm

theorem touches_of_mem_lineObjects {oam : Memory objectSize} {r : Registers} {line : Nat}
    {o : ScreenObject} (h : o ∈ lineObjects oam r line) : touches r line o = true := by
  unfold lineObjects at h
  split at h
  · cases h
  · have hsorted := List.mem_mergeSort.1 (List.mem_of_mem_take h)
    exact (List.mem_filter.1 hsorted).2

/-- No index is too high on a line of the screen. -/
theorem pixelColour_eq (vram : Memory videoSize) (oam : Memory objectSize) (r : Registers)
    {windowLine : Nat} (hwindow : windowLine < 256) (line : Nat) {x : Nat}
    (hx : x < screenWidth) :
    pixelColour vram r (lineObjects oam r line) windowLine line x =
      some (Display.pixelColour vram r (lineObjects oam r line) windowLine line x) := by
  unfold pixelColour
  rw [planeColour_eq vram r hwindow line hx,
    objectAt_eq vram r x fun o ho => touches_of_mem_lineObjects ho, pixelColour_eq_mix]
  rfl

end Checked

/-! ## Pixels -/

section Pixel

variable (d : Display)

theorem planeDot_lt {line x dot : Nat} (h : d.planeDot line x = some dot) : dot < 4 := by
  unfold planeDot at h
  split_ifs at h <;> obtain rfl := Option.some.inj h <;> exact d.dot_lt _ _

/-- The colour of the background or the window, white where neither is. -/
def planeTint (line x : Nat) : UInt32 :=
  ((d.planeDot line x).map (tint d.registers.background)).getD white

theorem planeTint_eq (line x : Nat) :
    ((planeColour? d.vram d.registers d.windowLine.toNat line x).map fun index =>
      grey (shade d.registers.background index)).getD white = d.planeTint line x := by
  have hdot := d.planeColour?_eq line x
  unfold planeTint
  cases hplane : planeColour? d.vram d.registers d.windowLine.toNat line x with
  | none =>
    rw [hplane] at hdot
    rw [← hdot]
    rfl
  | some index =>
    rw [hplane] at hdot
    rw [← hdot]
    exact grey_shade _ _ (d.planeDot_lt hdot.symm)

theorem plane_getD (line x : Nat) :
    (planeColour? d.vram d.registers d.windowLine.toNat line x).getD 0 ≠ 0 ↔
      (d.planeDot line x).getD 0 ≠ 0 := by
  rw [← d.planeColour?_eq line x]
  cases planeColour? d.vram d.registers d.windowLine.toNat line x with
  | none => simp
  | some index => exact not_congr UInt8.toNat_inj.symm

theorem behind_read (i : Nat) : (ScreenObject.read d.oam i).behind = d.objectFlag i 7 :=
  anySet_bit _ _ 7 rfl

theorem secondPalette_read (i : Nat) :
    (ScreenObject.read d.oam i).secondPalette = d.objectFlag i 4 :=
  anySet_bit _ _ 4 rfl

/-- What is drawn at a column of a line. -/
def drawnAt (line x : Nat) : UInt32 :=
  pixelColour d.vram d.registers (lineObjects d.oam d.registers line) d.windowLine.toNat line x

theorem objectAt?_lineObjects (hon : d.controls 1 = true) (line x : Nat) :
    objectAt? d.vram d.registers (lineObjects d.oam d.registers line) line x =
      (d.firstShown? line x).map fun i => (d.entryColour line x i, ScreenObject.read d.oam i) := by
  rw [d.lineObjects_eq hon, objectAt?_map]
  rfl

theorem drawnAt_of_none {line x : Nat}
    (h : d.controls 1 = false ∨ ∀ i, ¬ d.Foremost line x i) :
    d.drawnAt line x = d.planeTint line x := by
  have hnone :
      objectAt? d.vram d.registers (lineObjects d.oam d.registers line) line x = none := by
    cases hon : d.controls 1 with
    | false =>
      unfold lineObjects
      rw [objectsOn_eq, hon]
      rfl
    | true =>
      have hnone := h.resolve_left (by simp [hon])
      rw [d.objectAt?_lineObjects hon, Option.map_eq_none_iff]
      exact Option.eq_none_iff_forall_ne_some.2 fun i hi => hnone i (d.foremost_iff.2 hi)
  unfold drawnAt
  rw [pixelColour_eq_mix, hnone]
  exact d.planeTint_eq line x

theorem drawnAt_of_foremost {line x i : Nat} (hon : d.controls 1 = true)
    (h : d.Foremost line x i) :
    d.drawnAt line x =
      if d.objectFlag i 7 = true ∧ (d.planeDot line x).getD 0 ≠ 0 then d.planeTint line x
      else tint (if d.objectFlag i 4 then d.registers.objects1 else d.registers.objects0)
        (d.objectDot line x i) := by
  obtain ⟨hselected, hcovers, -⟩ := h.1
  have hdot := d.toNat_entryColour hselected.2.1 x
  rw [if_pos hcovers] at hdot
  have hlt : (d.entryColour line x i).toNat < 4 := by
    rw [hdot]
    exact d.dot_lt _ _
  unfold drawnAt
  rw [pixelColour_eq_mix, d.objectAt?_lineObjects hon, d.foremost_iff.1 h, ← d.planeTint_eq, ← hdot,
    ← grey_shade _ _ hlt]
  simp only [Option.map_some, mix, behind_read, secondPalette_read, Bool.and_eq_true,
    decide_eq_true_eq, plane_getD]

end Pixel

/-! ## Lines -/

theorem drawLine_of_visible (d : Display) {line : Nat} (h : line < screenHeight) :
    d.drawLine line =
      { d with
        frame := d.frame.setLine line (d.drawnAt line)
        windowLine :=
          if d.windowDue line = true ∧ d.registers.windowX ≤ 166 then d.windowLine + 1
          else d.windowLine } := by
  unfold drawLine
  rw [if_pos h]
  simp only [d.windowShown_iff]
  rfl

/-- Drawing a line of the screen never reads beyond video memory, and changes nothing but that line
of the frame and the window line. A pixel of the line is that of the foremost object there, unless
objects are switched off, or it is behind a dot of the background or the window. The window line
moves on if the window is reached and begins on the screen. -/
theorem drawLine_picture (d : Display) {line : Nat} (hline : line < 144) :
    let drawn := d.drawLine line
    (∀ x < 160, Checked.pixelColour d.vram d.registers (lineObjects d.oam d.registers line)
      d.windowLine.toNat line x = some (drawn.frame.pixel x line)) ∧
    (∀ x < 160, ∀ y ≠ line, drawn.frame.pixel x y = d.frame.pixel x y) ∧
    (∀ x < 160,
      ((d.controls 1 = false ∨ ∀ i, ¬ d.Foremost line x i) →
        drawn.frame.pixel x line = d.planeTint line x) ∧
      ∀ i, d.controls 1 = true → d.Foremost line x i → drawn.frame.pixel x line =
        if d.objectFlag i 7 = true ∧ (d.planeDot line x).getD 0 ≠ 0 then d.planeTint line x
        else tint (if d.objectFlag i 4 then d.registers.objects1 else d.registers.objects0)
          (d.objectDot line x i)) ∧
    drawn.windowLine =
      (if d.windowDue line = true ∧ d.registers.windowX ≤ 166 then d.windowLine + 1
      else d.windowLine) ∧
    drawn = { d with frame := drawn.frame, windowLine := drawn.windowLine } := by
  intro drawn
  have hdrawn := d.drawLine_of_visible hline
  have hframe : drawn.frame = d.frame.setLine line (d.drawnAt line) := by
    show (d.drawLine line).frame = _
    rw [hdrawn]
  have hpixel : ∀ x < 160, drawn.frame.pixel x line = d.drawnAt line x := by
    intro x hx
    rw [hframe, Frame.pixel_setLine d.frame (d.drawnAt line) hline hx, if_pos rfl]
  refine ⟨fun x hx => ?_, fun x hx y hy => ?_, fun x hx => ⟨fun hnone => ?_, fun i hon hi => ?_⟩,
    ?_, ?_⟩
  · rw [hpixel x hx]
    exact Checked.pixelColour_eq d.vram d.oam d.registers d.windowLine.toNat_lt line hx
  · rw [hframe, Frame.pixel_setLine d.frame (d.drawnAt line) hline hx, if_neg hy.symm]
  · rw [hpixel x hx, d.drawnAt_of_none hnone]
  · rw [hpixel x hx, d.drawnAt_of_foremost hon hi]
  · show (d.drawLine line).windowLine = _
    rw [hdrawn]
  · show d.drawLine line =
      { d with frame := (d.drawLine line).frame, windowLine := (d.drawLine line).windowLine }
    rw [hdrawn]

/-- A display with an object in its upper left corner, whose first dot has the first colour of its
palette. Its objects are switched on or off. -/
def cornered (on : Bool) : Display :=
  { initial with
    vram := (Memory.zeros videoSize).write 0 0x80
    oam := ((Memory.zeros objectSize).write 0 16).write 1 8
    registers := { Registers.initial with control := 0x80 ||| bitsIf on 0x02, objects0 := 0xE4 } }

theorem foremost_cornered (on : Bool) : (cornered on).Foremost 0 0 0 := by
  have hother : ∀ on, ∀ j < objectCount, (cornered on).Overlaps 0 j → j = 0 := by decide +kernel
  have hshows : (cornered on).Shows 0 0 0 := by
    cases on <;> exact ⟨⟨by decide, by decide, by decide +kernel⟩, by decide, by decide⟩
  refine ⟨hshows, fun j hj => ?_⟩
  rw [hother on j hj.1.1 hj.1.2.1]
  exact ahead_irrefl _ 0

/-- With objects on, the corner has the colour of the object. -/
theorem drawLine_picture_cornered :
    0 < 144 ∧ ((cornered true).drawLine 0).frame.pixel 0 0 = 0xFFAAAAAA := by
  obtain ⟨-, -, hpixels, -⟩ := drawLine_picture (cornered true) (show 0 < 144 by decide)
  refine ⟨by decide, ?_⟩
  rw [(hpixels 0 (by decide)).2 0 (by decide) (foremost_cornered true)]
  decide

/-- With objects off, it has not, although the object is there and not behind anything. -/
theorem not_overlaid_cornered :
    (cornered false).Foremost 0 0 0 ∧ (cornered false).objectFlag 0 7 = false ∧
      ((cornered false).drawLine 0).frame.pixel 0 0 ≠
        tint (cornered false).registers.objects0 ((cornered false).objectDot 0 0 0) := by
  have hline : 0 < screenHeight := by decide
  refine ⟨foremost_cornered false, by decide, ?_⟩
  rw [drawLine_of_visible _ hline, Frame.pixel_setLine _ _ hline (by decide), if_pos rfl,
    drawnAt_of_none _ (.inl (by decide))]
  decide

end DotMatrix.Display
