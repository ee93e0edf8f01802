import DotMatrix.Display
import Mathlib.Algebra.Group.Nat.Defs
import Mathlib.Tactic.SplitIfs

/-!
# Dots

The picture is made of dots, numbers below four that palettes turn into shades. A dot of a tile is
two bits, one in each byte of a row (`dot`), and a dot of the background or the window is one of
the tile that a map has there (`planeDot`). These are said here with numbers and bits of numbers.
`toNat_tileColour` and `planeColour?_eq` say that the display, which shifts and masks bytes, finds
the same dots.
-/

namespace DotMatrix.Display

/-! ## Tiles and palettes -/

/-- A bit of a byte of video memory. -/
def videoBit (d : Display) (addr bit : Nat) : Nat := ((d.vram.read addr).toNat.testBit bit).toNat

/-- The dot at a column of a row of tile data. A row is two bytes, and the second has the high
bits. -/
def dot (d : Display) (row column : Nat) : Nat :=
  d.videoBit row (7 - column) + 2 * d.videoBit (row + 1) (7 - column)

/-- The four shades that a screen shows. -/
def greyLevel : Nat → UInt32
  | 0 => 0xFFFFFFFF
  | 1 => 0xFFAAAAAA
  | 2 => 0xFF555555
  | _ => 0xFF000000

/-- The colour that a palette gives a dot. -/
def tint (palette : UInt8) (dot : Nat) : UInt32 := greyLevel (palette.toNat / 4 ^ dot % 4)

theorem toNat_shiftRight_and_one (b : UInt8) {k : Nat} (hk : k < 8) :
    ((b >>> k.toUInt8) &&& 1).toNat = (b.toNat.testBit k).toNat := by
  have hmod : k.toUInt8.toNat % 8 = k := by simp; omega
  rw [UInt8.toNat_and, UInt8.toNat_shiftRight, hmod, UInt8.toNat_one, Nat.and_one_is_mod,
    Nat.shiftRight_eq_div_pow, Nat.toNat_testBit]

theorem toNat_tileColour (d : Display) (addr : Nat) {x : Nat} (y : Nat) :
    (tileColour d.vram addr x y).toNat = d.dot (addr + 2 * y) x := by
  have hbit : 7 - x < 8 := by omega
  have hlow := toNat_shiftRight_and_one (d.vram.read (addr + 2 * y)) hbit
  have hhigh := toNat_shiftRight_and_one (d.vram.read (addr + 2 * y + 1)) hbit
  unfold tileColour dot videoBit
  rw [Nat.mul_comm y 2, UInt8.toNat_or, hlow, UInt8.toNat_shiftLeft, hhigh]
  cases (d.vram.read (addr + 2 * y)).toNat.testBit (7 - x) <;>
    cases (d.vram.read (addr + 2 * y + 1)).toNat.testBit (7 - x) <;> rfl

theorem dot_lt (d : Display) (row column : Nat) : d.dot row column < 4 := by
  have hlow := Bool.toNat_le ((d.vram.read row).toNat.testBit (7 - column))
  have hhigh := Bool.toNat_le ((d.vram.read (row + 1)).toNat.testBit (7 - column))
  unfold dot videoBit
  omega

theorem grey_eq : ∀ s : UInt8, s.toNat < 4 → grey s = greyLevel s.toNat :=
  forall_byte (by decide +kernel)

theorem toNat_shade (palette index : UInt8) (h : index.toNat < 4) :
    (shade palette index).toNat = palette.toNat / 4 ^ index.toNat % 4 := by
  have hshift : (index * 2).toNat % 8 = 2 * index.toNat := by
    rw [UInt8.toNat_mul]
    simp
    omega
  unfold shade
  rw [UInt8.toNat_and, UInt8.toNat_shiftRight, hshift, Nat.shiftRight_eq_div_pow, Nat.pow_mul]
  exact Nat.and_two_pow_sub_one_eq_mod _ 2

theorem grey_shade (palette index : UInt8) (h : index.toNat < 4) :
    grey (shade palette index) = tint palette index.toNat := by
  have hshade := toNat_shade palette index h
  rw [grey_eq _ (by omega), hshade]
  rfl

/-! ## Background and window -/

/-- A bit of the control register. -/
def controls (d : Display) (bit : Nat) : Bool := d.registers.control.toNat.testBit bit

/-- Where a tile of the background begins. The tiles are numbered from the beginning of video
memory, or up and down from its middle. -/
def tileStart (d : Display) (tile : UInt8) : Nat :=
  if d.controls 4 then 16 * tile.toNat else (0x1000 + 16 * tile.toInt8.toInt).toNat

/-- Where a map begins, which a bit of the control register chooses. -/
def mapStart (d : Display) (bit : Nat) : Nat := if d.controls bit then 0x1C00 else 0x1800

/-- The dot of a map, which has 32 tiles in a row. -/
def mapDot (d : Display) (map x y : Nat) : Nat :=
  d.dot (d.tileStart (d.vram.read (map + 32 * (y / 8) + x / 8)) + 2 * (y % 8)) (x % 8)

/-- The window is switched on and has been reached. -/
def windowDue (d : Display) (line : Nat) : Bool :=
  d.controls 0 && d.controls 5 && decide (d.registers.windowY.toNat ≤ line)

/-- The dot of the window, or else of the background, if the background is on. -/
def planeDot (d : Display) (line x : Nat) : Option Nat :=
  if d.windowDue line = true ∧ d.registers.windowX.toNat ≤ x + 7 then
    some (d.mapDot (d.mapStart 6) (x + 7 - d.registers.windowX.toNat) d.windowLine.toNat)
  else if d.controls 0 then
    some (d.mapDot (d.mapStart 3) ((x + d.registers.scrollX.toNat) % 256)
      ((line + d.registers.scrollY.toNat) % 256))
  else none

section Control

variable (d : Display)

theorem windowMapHigh_eq : d.registers.windowMapHigh = d.controls 6 := anySet_bit _ _ 6 rfl
theorem windowOn_eq : d.registers.windowOn = d.controls 5 := anySet_bit _ _ 5 rfl
theorem tilesLow_eq : d.registers.tilesLow = d.controls 4 := anySet_bit _ _ 4 rfl
theorem mapHigh_eq : d.registers.mapHigh = d.controls 3 := anySet_bit _ _ 3 rfl
theorem tallObjects_eq : d.registers.tallObjects = d.controls 2 := anySet_bit _ _ 2 rfl
theorem objectsOn_eq : d.registers.objectsOn = d.controls 1 := anySet_bit _ _ 1 rfl
theorem backgroundOn_eq : d.registers.backgroundOn = d.controls 0 := anySet_bit _ _ 0 rfl

end Control

/-- Turning the highest bit around makes numbers from the middle numbers from the beginning. -/
theorem signed_tile : ∀ tile : UInt8,
    0x800 + (tile ^^^ 0x80).toNat * 16 = (0x1000 + 16 * tile.toInt8.toInt).toNat :=
  forall_byte (by decide +kernel)

theorem tileAddress_eq (d : Display) (tile : UInt8) :
    tileAddress d.registers tile = d.tileStart tile := by
  unfold tileAddress tileStart
  rw [tilesLow_eq, signed_tile, Nat.mul_comm]

theorem toNat_mapColour (d : Display) (map x y : Nat) :
    (mapColour d.vram d.registers map x y).toNat = d.mapDot map x y := by
  unfold mapColour mapDot
  rw [toNat_tileColour, tileAddress_eq, Nat.mul_comm (y / 8)]

theorem windowEnabled_eq (d : Display) (line : Nat) :
    windowEnabled d.registers line = d.windowDue line := by
  unfold windowEnabled windowDue
  rw [backgroundOn_eq, windowOn_eq]

theorem windowCovers_iff (d : Display) (line x : Nat) :
    windowCovers d.registers line x = true ↔
      d.windowDue line = true ∧ d.registers.windowX.toNat ≤ x + 7 := by
  unfold windowCovers
  rw [windowEnabled_eq, Bool.and_eq_true, decide_eq_true_eq]

/-- A window that begins on the screen covers the last column at least. -/
theorem windowShown_iff (d : Display) (line : Nat) :
    windowShown d.registers line = true ↔
      d.windowDue line = true ∧ d.registers.windowX ≤ 166 := by
  unfold windowShown
  rw [List.any_eq_true]
  constructor
  · rintro ⟨x, hx, hcovers⟩
    obtain ⟨hdue, hreached⟩ := (d.windowCovers_iff line x).1 hcovers
    have hcolumn : x ≤ 159 := Nat.le_of_lt_succ (List.mem_range.1 hx)
    have hbegins : d.registers.windowX.toNat ≤ 166 :=
      Nat.le_trans hreached (Nat.add_le_add_right hcolumn 7)
    exact ⟨hdue, UInt8.le_iff_toNat_le.2 hbegins⟩
  · rintro ⟨hdue, hbegins⟩
    refine ⟨159, List.mem_range.2 (by decide), (d.windowCovers_iff line 159).2 ⟨hdue, ?_⟩⟩
    exact UInt8.le_iff_toNat_le.1 hbegins

theorem planeColour?_eq (d : Display) (line x : Nat) :
    (planeColour? d.vram d.registers d.windowLine.toNat line x).map UInt8.toNat =
      d.planeDot line x := by
  have hmap : ∀ bit, mapBase (d.controls bit) = d.mapStart bit := fun _ => rfl
  unfold planeColour? planeDot
  simp only [windowCovers_iff, windowMapHigh_eq, mapHigh_eq, backgroundOn_eq, hmap]
  split_ifs <;> simp only [Option.map_some, Option.map_none, toNat_mapColour]

end DotMatrix.Display
