import DotMatrix.Word

/-!
# Buttons and the joypad register

The host publishes which of the eight buttons are held. A button that goes down is remembered
until the console takes note of it. The joypad register shows the held buttons of the selected
rows, a held button as zero.
-/

namespace DotMatrix

inductive Button where
  | a | b | start | select | up | down | left | right
deriving DecidableEq, Repr, Inhabited

def Button.mask : Button → UInt8
  | a => 0x01
  | b => 0x02
  | start => 0x04
  | select => 0x08
  | up => 0x10
  | down => 0x20
  | left => 0x40
  | right => 0x80

structure Buttons where
  bits : UInt8
deriving DecidableEq, Repr, Inhabited

namespace Buttons

def none : Buttons := ⟨0⟩

def held (s : Buttons) (button : Button) : Bool := anySet s.bits button.mask

def set (s : Buttons) (button : Button) (pressed : Bool) : Buttons :=
  ⟨if pressed then s.bits ||| button.mask else s.bits &&& ~~~button.mask⟩

def insert (s : Buttons) (button : Button) : Buttons := s.set button true

def any (s : Buttons) : Bool := s.bits != 0

end Buttons

/-- What the host has published: the held buttons, and whether one went down since the console
last looked. -/
structure ButtonPanel where
  held : Buttons
  pressed : Bool
deriving DecidableEq, Repr, Inhabited

namespace ButtonPanel

def initial : ButtonPanel := ⟨Buttons.none, false⟩

/-- Publishes the held buttons; any that was not held before is a press. -/
def publish (p : ButtonPanel) (buttons : Buttons) : ButtonPanel :=
  ⟨buttons, p.pressed || anySet buttons.bits (~~~p.held.bits)⟩

def takePress (p : ButtonPanel) : Bool × ButtonPanel := (p.pressed, { p with pressed := false })

end ButtonPanel

/-- The joypad register: the row selection written by the program, and the panel it looks at. -/
structure Joypad where
  select : UInt8
  panel : ButtonPanel
deriving DecidableEq, Repr, Inhabited

namespace Joypad

def interrupt : UInt8 := 0x10

/-- The row of the direction buttons is selected by a zero in this bit. -/
def selectDirections : UInt8 := 0x10

/-- The row of the action buttons is selected by a zero in this bit. -/
def selectActions : UInt8 := 0x20

def initial : Joypad := ⟨selectDirections ||| selectActions, ButtonPanel.initial⟩

/-- The four lines of a row, lowest bit first. -/
def lines (s : Buttons) (b0 b1 b2 b3 : Button) : UInt8 :=
  bitsIf (s.held b0) 0x01 ||| bitsIf (s.held b1) 0x02
    ||| bitsIf (s.held b2) 0x04 ||| bitsIf (s.held b3) 0x08

/-- The lines of the selected rows; with both selected the rows are wired together. -/
def matrix (s : Buttons) (select : UInt8) : UInt8 :=
  (if anySet select selectDirections then 0 else lines s .right .left .up .down)
    ||| (if anySet select selectActions then 0 else lines s .a .b .select .start)

def read (j : Joypad) : UInt8 :=
  0xC0 ||| j.select ||| (~~~matrix j.panel.held j.select &&& 0x0F)

def write (j : Joypad) (val : UInt8) : Joypad :=
  { j with select := val &&& (selectDirections ||| selectActions) }

end Joypad

end DotMatrix
