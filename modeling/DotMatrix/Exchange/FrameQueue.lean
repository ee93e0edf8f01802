/-!
# Bounded frame queue

Frames are taken in the order in which they were published. When the queue is full, publishing
discards the oldest frame and counts it. Used buffers wait in a pool of bounded size, first in
first out, and the producer goes on in the one that has waited longest, or in a blank one.
-/

namespace DotMatrix

structure FrameQueue (α : Type) where
  /-- The number of frames that may wait. -/
  depth : Nat
  /-- Waiting frames, the oldest first. -/
  frames : List α
  /-- Buffers to be used again, the first to be used first. -/
  pool : List α
  dropped : Nat
deriving Repr, Inhabited

namespace FrameQueue

variable {α : Type}

def defaultDepth : Nat := 16

/-- An empty queue; it holds at least one frame. -/
def empty (depth : Nat) : FrameQueue α := ⟨max depth 1, [], [], 0⟩

/-- Puts a used buffer into the pool, or frees it when the pool is full. -/
def recycle (q : FrameQueue α) (buffer : α) : FrameQueue α :=
  if q.pool.length < q.depth + 2 then { q with pool := q.pool ++ [buffer] } else q

/-- Makes room for one frame by discarding the oldest. -/
def makeRoom (q : FrameQueue α) : FrameQueue α :=
  match q.frames with
  | oldest :: rest =>
    if q.frames.length < q.depth then q
    else recycle { q with frames := rest, dropped := q.dropped + 1 } oldest
  | [] => q

/-- Takes the buffer that has waited longest in the pool. -/
def nextBuffer (q : FrameQueue α) (blank : α) : α × FrameQueue α :=
  match q.pool with
  | buffer :: pool => (buffer, { q with pool })
  | [] => (blank, q)

/-- Publishes a frame and answers the buffer for the next one. -/
def publish (q : FrameQueue α) (blank frame : α) : α × FrameQueue α :=
  let (buffer, q) := q.nextBuffer blank
  let q := q.makeRoom
  (buffer, { q with frames := q.frames ++ [frame] })

def take (q : FrameQueue α) : Option α × FrameQueue α :=
  match q.frames with
  | frame :: rest => (some frame, { q with frames := rest })
  | [] => (none, q)

def giveBack (q : FrameQueue α) (frame : α) : FrameQueue α := q.recycle frame

def clear (q : FrameQueue α) : FrameQueue α :=
  q.frames.foldl recycle { q with frames := [] }

def size (q : FrameQueue α) : Nat := q.frames.length

def isEmpty (q : FrameQueue α) : Bool := q.frames.isEmpty

end FrameQueue

end DotMatrix
