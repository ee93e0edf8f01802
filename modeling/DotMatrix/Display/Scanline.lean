import DotMatrix.Display.Frame
import DotMatrix.Memory
import DotMatrix.Word

/-!
# The picture of a line

What the display shows at each column of a line, as a function of its registers and memories: the
background, the window over it, and the objects in front of or behind both. Of the objects that
touch a line, those furthest left count, at most ten; among equals the earlier entry of object
memory comes first.
-/

namespace DotMatrix.Display

structure Registers where
  control : UInt8
  status : UInt8
  scrollY : UInt8
  scrollX : UInt8
  lineCompare : UInt8
  dma : UInt8
  background : UInt8
  objects0 : UInt8
  objects1 : UInt8
  windowY : UInt8
  windowX : UInt8
deriving DecidableEq, Repr, Inhabited

def Registers.initial : Registers := ⟨0, 0, 0, 0, 0, 0xFF, 0, 0, 0, 0, 0⟩

def videoSize : Nat := 0x2000

/-- The size of object memory: forty entries of four bytes. -/
def objectSize : Nat := 0xA0

def objectCount : Nat := 40

def objectsPerLine : Nat := 10

/-! ## Control bits -/

def Registers.lcdOn (r : Registers) : Bool := anySet r.control 0x80
def Registers.windowMapHigh (r : Registers) : Bool := anySet r.control 0x40
def Registers.windowOn (r : Registers) : Bool := anySet r.control 0x20
def Registers.tilesLow (r : Registers) : Bool := anySet r.control 0x10
def Registers.mapHigh (r : Registers) : Bool := anySet r.control 0x08
def Registers.tallObjects (r : Registers) : Bool := anySet r.control 0x04
def Registers.objectsOn (r : Registers) : Bool := anySet r.control 0x02
def Registers.backgroundOn (r : Registers) : Bool := anySet r.control 0x01

/-! ## Tiles -/

def mapBase (high : Bool) : Nat := if high then 0x1C00 else 0x1800

def shade (palette index : UInt8) : UInt8 := (palette >>> (index * 2)) &&& 0x03

/-- The colour index at a column and row of the tile stored at an address. -/
def tileColour (vram : Memory videoSize) (addr x y : Nat) : UInt8 :=
  let bit := (7 - x).toUInt8
  let low := (vram.read (addr + y * 2) >>> bit) &&& 1
  let high := (vram.read (addr + y * 2 + 1) >>> bit) &&& 1
  (high <<< 1) ||| low

/-- The address of a background tile. Tile numbers are signed unless the low tiles are used. -/
def tileAddress (r : Registers) (tile : UInt8) : Nat :=
  if r.tilesLow then tile.toNat * 16 else 0x800 + (tile ^^^ 0x80).toNat * 16

def mapColour (vram : Memory videoSize) (r : Registers) (base x y : Nat) : UInt8 :=
  let tile := vram.read (base + y / 8 * 32 + x / 8)
  tileColour vram (tileAddress r tile) (x % 8) (y % 8)

/-! ## Objects -/

structure ScreenObject where
  x : Int
  y : Int
  tile : UInt8
  flags : UInt8
  /-- Its place in object memory. -/
  index : Nat
deriving DecidableEq, Repr, Inhabited

namespace ScreenObject

/-- The object shows only where nothing is drawn. -/
def behind (o : ScreenObject) : Bool := anySet o.flags 0x80
def flipY (o : ScreenObject) : Bool := anySet o.flags 0x40
def flipX (o : ScreenObject) : Bool := anySet o.flags 0x20
def secondPalette (o : ScreenObject) : Bool := anySet o.flags 0x10

def read (oam : Memory objectSize) (index : Nat) : ScreenObject where
  y := (oam.read (index * 4)).toNat - 16
  x := (oam.read (index * 4 + 1)).toNat - 8
  tile := oam.read (index * 4 + 2)
  flags := oam.read (index * 4 + 3)
  index := index

/-- Further left, or as far left and earlier in object memory. -/
def precedes (o p : ScreenObject) : Bool := o.x < p.x || (o.x = p.x && o.index ≤ p.index)

end ScreenObject

def objectHeight (r : Registers) : Int := if r.tallObjects then 16 else 8

def touches (r : Registers) (line : Nat) (o : ScreenObject) : Bool :=
  o.y ≤ line && line < o.y + objectHeight r

/-- The objects that a line shows, the foremost first. -/
def lineObjects (oam : Memory objectSize) (r : Registers) (line : Nat) : List ScreenObject :=
  if !r.objectsOn then []
  else
    let all := (List.range objectCount).map (ScreenObject.read oam)
    ((all.filter (touches r line)).mergeSort ScreenObject.precedes).take objectsPerLine

/-- The colour index of an object at a column of a line, zero where it is transparent or
absent. -/
def objectColour (vram : Memory videoSize) (r : Registers) (line x : Nat) (o : ScreenObject) :
    UInt8 :=
  if (x : Int) < o.x || o.x + 8 ≤ x then 0
  else
    let row := ((line : Int) - o.y).toNat
    let row := if o.flipY then (objectHeight r).toNat - 1 - row else row
    let column := ((x : Int) - o.x).toNat
    let column := if o.flipX then 7 - column else column
    let tile := if r.tallObjects then o.tile &&& 0xFE else o.tile
    tileColour vram (tile.toNat * 16 + row / 8 * 16) column (row % 8)

/-- The foremost object that is opaque at a column, with its colour index. -/
def objectAt? (vram : Memory videoSize) (r : Registers) (objects : List ScreenObject)
    (line x : Nat) : Option (UInt8 × ScreenObject) :=
  match objects with
  | [] => none
  | o :: rest =>
    let index := objectColour vram r line x o
    if index ≠ 0 then some (index, o) else objectAt? vram r rest line x

/-! ## Pixels -/

def windowEnabled (r : Registers) (line : Nat) : Bool :=
  r.backgroundOn && r.windowOn && decide (r.windowY.toNat ≤ line)

/-- The window covers a column of a line. -/
def windowCovers (r : Registers) (line x : Nat) : Bool :=
  windowEnabled r line && r.windowX.toNat ≤ x + 7

/-- Some column of the line is drawn from the window. -/
def windowShown (r : Registers) (line : Nat) : Bool :=
  (List.range screenWidth).any (windowCovers r line)

/-- The colour index of the background or the window at a column, if one of them covers it. -/
def planeColour? (vram : Memory videoSize) (r : Registers) (windowLine line x : Nat) :
    Option UInt8 :=
  if windowCovers r line x then
    some (mapColour vram r (mapBase r.windowMapHigh) (x + 7 - r.windowX.toNat) windowLine)
  else if r.backgroundOn then
    some (mapColour vram r (mapBase r.mapHigh) ((x + r.scrollX.toNat) % 256)
      ((line + r.scrollY.toNat) % 256))
  else none

def pixelColour (vram : Memory videoSize) (r : Registers) (objects : List ScreenObject)
    (windowLine line x : Nat) : UInt32 :=
  let plane := planeColour? vram r windowLine line x
  match objectAt? vram r objects line x with
  | some (index, o) =>
    if o.behind && plane.getD 0 ≠ 0 then
      (plane.map fun index => grey (shade r.background index)).getD white
    else grey (shade (if o.secondPalette then r.objects1 else r.objects0) index)
  | none => (plane.map fun index => grey (shade r.background index)).getD white

end DotMatrix.Display
