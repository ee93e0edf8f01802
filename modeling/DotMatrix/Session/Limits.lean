import DotMatrix.Session

/-!
# Limits

A session without anyone to ask for things quits after a number of frames or after some time,
whichever comes first. Without a limit it goes on.
-/

namespace DotMatrix

structure Limits where
  /-- The number of published frames to quit at. -/
  frames : Option Nat
  /-- The time to quit at, in milliseconds of the host's stopwatch. -/
  deadline : Option Nat
deriving DecidableEq, Repr, Inhabited

namespace Limits

def fromNow (uptime : Nat) (frames duration : Option Nat) : Limits :=
  ⟨frames, duration.map (uptime + ·)⟩

def reached (l : Limits) (published uptime : Nat) : Bool :=
  l.frames.any (· ≤ published) || l.deadline.any (· ≤ uptime)

def requests (l : Limits) (published uptime : Nat) : Requests :=
  { Requests.none with quit := l.reached published uptime }

def ask {τ : Type} (l : Limits) (s : Session τ) : Requests × Limits :=
  let bus := s.console.machine.bus
  (l.requests bus.display.slot.published bus.host.uptime, l)

end Limits

end DotMatrix
