/-!
# Display schedule

The display clock counts cycles since the display began to run. It divides into refresh periods
of 154 lines. A visible line is scanned for objects, then transferred to the screen, then followed
by a pause; ten lines of vertical blank end the period. `lt_nextChange` says that the schedule
always moves on.
-/

namespace DotMatrix.Display

def screenWidth : Nat := 160
def screenHeight : Nat := 144

def refreshPeriod : Nat := 70224

def lineCycles : Nat := 456

/-- Lines of a refresh period. -/
def totalLines : Nat := 154

/-- The cycle of a visible line at which its object scan ends. -/
def scanEnd : Nat := 80

/-- The cycle of a visible line at which its transfer ends. -/
def transferEnd : Nat := 252

/-- Cycles between switching the display on and its first line. -/
def startDelay : Nat := 244

inductive Phase where
  | objectScan (line : Nat)
  | transfer (line : Nat)
  | hBlank (line : Nat)
  | vBlank (line : Nat)
deriving DecidableEq, Repr, Inhabited

namespace Phase

def line : Phase → Nat
  | objectScan l | transfer l | hBlank l | vBlank l => l

def mode : Phase → UInt8
  | hBlank _ => 0
  | vBlank _ => 1
  | objectScan _ => 2
  | transfer _ => 3

def ofClock (clock : Nat) : Phase :=
  let cycle := clock % refreshPeriod
  let line := cycle / lineCycles
  let sub := cycle % lineCycles
  if screenHeight ≤ line then vBlank line
  else if sub < scanEnd then objectScan line
  else if sub < transferEnd then transfer line
  else hBlank line

end Phase

/-- The first display clock after the given one at which another phase begins. -/
def nextChange (clock : Nat) : Nat :=
  let cycle := clock % refreshPeriod
  let base := clock - cycle
  let line := cycle / lineCycles
  let sub := cycle % lineCycles
  let lineStart := base + line * lineCycles
  if screenHeight ≤ line then
    if line + 1 < totalLines then lineStart + lineCycles else base + refreshPeriod
  else if sub < scanEnd then lineStart + scanEnd
  else if sub < transferEnd then lineStart + transferEnd
  else lineStart + lineCycles

theorem lt_nextChange (clock : Nat) : clock < nextChange clock := by
  unfold nextChange refreshPeriod lineCycles
  dsimp only
  -- in every branch the phase ends after the cycle of the clock
  split
  · split <;> omega
  · split
    · omega
    · split <;> omega

end DotMatrix.Display
