import DotMatrix.Timer

/-!
# Clock dividers

A divider turns the master clock into a slower tick count. Asked at a later time, it names the
ticks that have gone by since it was last asked; right after a reset it names the current tick
alone.
-/

namespace DotMatrix.Sound

/-- A run of ticks: the number of the first, and how many there are. -/
structure TickRun where
  first : Nat
  count : Nat
deriving DecidableEq, Repr, Inhabited

structure Divider where
  rate : Nat
  /-- The last tick that was named. -/
  last : Option Nat
deriving DecidableEq, Repr, Inhabited

namespace Divider

def ofRate (rate : Nat) : Divider := ⟨rate, none⟩

def reset (d : Divider) : Divider := { d with last := none }

def tick (d : Divider) (clock : Nat) : Nat := clock * d.rate / cyclesPerSecond

/-- The ticks up to a clock that were not named before. -/
def update (d : Divider) (clock : Nat) : TickRun × Divider :=
  let now := d.tick clock
  let first := (d.last.map (· + 1)).getD now
  (⟨first, now + 1 - first⟩, { d with last := some now })

end Divider

structure SequencerEvents where
  length : Bool
  envelope : Bool
  sweep : Bool
deriving DecidableEq, Repr, Inhabited

/-- Lengths are clocked on every second tick, envelopes on every eighth, the sweep on every
fourth. -/
def sequencerEvents (tick : Nat) : SequencerEvents :=
  ⟨tick % 2 = 0, tick % 8 = 7, tick % 4 = 2⟩

end DotMatrix.Sound
