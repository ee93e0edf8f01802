import DotMatrix.Display.Schedule

/-!
# Frames

A frame is one complete picture, line after line. A pixel is a colour of four bytes: opacity, red,
green and blue.
-/

namespace DotMatrix.Display

def pixelCount : Nat := screenWidth * screenHeight

def white : UInt32 := 0xFFFFFFFF

/-- The grey of a shade, from 0 for white to 3 for black. -/
def grey (shade : UInt8) : UInt32 :=
  let level : UInt32 := 0xFF - shade.toUInt32 * 0x55
  (0xFF000000 : UInt32) ||| (level <<< 16) ||| (level <<< 8) ||| level

structure Frame where
  pixels : Vector UInt32 pixelCount
deriving DecidableEq

namespace Frame

def blank : Frame := ⟨Vector.replicate pixelCount white⟩

instance : Inhabited Frame := ⟨blank⟩

def pixel (f : Frame) (x y : Nat) : UInt32 := f.pixels[y * screenWidth + x]?.getD white

def setPixels (f : Frame) (line : Nat) (colour : Nat → UInt32) : Nat → Frame
  | 0 => f
  | x + 1 =>
    let f := setPixels f line colour x
    ⟨f.pixels.setIfInBounds (line * screenWidth + x) (colour x)⟩

def setLine (f : Frame) (line : Nat) (colour : Nat → UInt32) : Frame :=
  f.setPixels line colour screenWidth

end Frame

end DotMatrix.Display
