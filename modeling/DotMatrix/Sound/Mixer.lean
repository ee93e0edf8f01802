import DotMatrix.Sound.Units

/-!
# Mixer

The four channels are added up for each side, freed of their constant part, and scaled by the
side's volume.
-/

namespace DotMatrix.Sound

structure StereoSample where
  left : Int16
  right : Int16
deriving DecidableEq, Repr, Inhabited

def StereoSample.silence : StereoSample := ⟨0, 0⟩

/-- A high-pass filter of one pole; its state follows the constant part of what goes in. -/
structure HighPass where
  state : Int
deriving DecidableEq, Repr, Inhabited

namespace HighPass

def initial : HighPass := ⟨0⟩

/-- Filters one sample. The state keeps `15/16 + 61355/2^20` of what comes out. -/
def update (f : HighPass) (input : Int) : Int × HighPass :=
  let out := input - f.state
  (out, ⟨input - (out * 15 / 16 + out * 61355 / 0x100000)⟩)

end HighPass

structure ChannelSamples where
  square1 : Int
  square2 : Int
  wave : Int
  noise : Int
deriving DecidableEq, Repr, Inhabited

/-- The sum of the channels that a side's four panning bits let through. -/
def ChannelSamples.sum (s : ChannelSamples) (panning : UInt8) : Int :=
  (if anySet panning 0x01 then s.square1 else 0) + (if anySet panning 0x02 then s.square2 else 0)
    + (if anySet panning 0x04 then s.wave else 0) + (if anySet panning 0x08 then s.noise else 0)

def clampSample (x : Int) : Int16 := Int16.ofInt (max (-32768) (min peak x))

def scale (x : Int) (volume : Nat) : Int16 := clampSample (Int.tdiv (x * (volume + 1)) 8)

end DotMatrix.Sound
