/-!
# Single-frame exchange

The producer draws into a private buffer and publishes it; the consumer takes the newest
published frame, if it has not seen it yet, and gives the buffer back later. At most one frame
waits at a time. Buffers circulate: the producer goes on in the frame it displaced, or else in
one that was given back, or else in a blank one.
-/

namespace DotMatrix

structure FrameSlot (α : Type) where
  /-- The published frame that the consumer has not taken. -/
  ready : Option α
  /-- Buffers given back, the latest first. -/
  spare : List α
  published : Nat
  dropped : Nat
deriving Repr, Inhabited

namespace FrameSlot

variable {α : Type}

def empty : FrameSlot α := ⟨none, [], 0, 0⟩

/-- Publishes a frame and answers the buffer for the next one. -/
def publish (slot : FrameSlot α) (blank frame : α) : α × FrameSlot α :=
  match slot.ready, slot.spare with
  | some old, spare => (old, ⟨some frame, spare, slot.published + 1, slot.dropped + 1⟩)
  | none, buffer :: spare => (buffer, ⟨some frame, spare, slot.published + 1, slot.dropped⟩)
  | none, [] => (blank, ⟨some frame, [], slot.published + 1, slot.dropped⟩)

def take (slot : FrameSlot α) : Option α × FrameSlot α :=
  (slot.ready, { slot with ready := none })

def giveBack (slot : FrameSlot α) (frame : α) : FrameSlot α :=
  { slot with spare := frame :: slot.spare }

def clear (slot : FrameSlot α) : FrameSlot α :=
  match slot.ready with
  | some frame => { slot with ready := none, spare := frame :: slot.spare }
  | none => slot

end FrameSlot

end DotMatrix
