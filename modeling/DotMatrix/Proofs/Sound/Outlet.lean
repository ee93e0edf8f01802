import DotMatrix.Proofs.Exchange.Queue
import DotMatrix.Proofs.Sound.Operations

/-!
# The way of samples to the consumer

Samples that are written fill a frame, and full frames go through a queue. This part of a sound
controller, its `outlet`, is a machine of its own: it changes by the samples that are written and
by what is done with the queue, and by nothing else (`outlet_useAll`).
-/

namespace DotMatrix.Sound

/-- The frame that is being filled, and the queue that it goes to. -/
structure Outlet where
  frame : AudioFrame
  position : Nat
  frameNumber : Nat
  queue : FrameQueue AudioFrame
deriving Inhabited

def outlet (s : Sound) : Outlet := ⟨s.frame, s.position, s.frameNumber, s.queue⟩

namespace Outlet

def publish (o : Outlet) : Outlet where
  frame := ⟨o.frameNumber + 1, Vector.replicate _ .silence⟩
  position := 0
  frameNumber := o.frameNumber + 1
  queue := (o.queue.publish (.silent 0) o.frame).2

/-- Puts a sample into the frame. -/
def put (o : Outlet) (sample : StereoSample) : Outlet :=
  { o with
    frame := { o.frame with samples := o.frame.samples.setIfInBounds o.position sample }
    position := o.position + 1 }

/-- Puts a sample into the frame, and publishes the frame when it is full. -/
def write (o : Outlet) (sample : StereoSample) : Outlet :=
  if frameLength ≤ o.position + 1 then (o.put sample).publish else o.put sample

/-- What can happen to an outlet. -/
inductive Event where
  | write (sample : StereoSample)
  | request (request : FrameQueue.Request AudioFrame)

def apply (o : Outlet) : Event → Outlet
  | .write sample => o.write sample
  | .request request => { o with queue := request.apply o.queue }

def applyAll (o : Outlet) (events : List Event) : Outlet := events.foldl apply o

theorem applyAll_append (o : Outlet) (first second : List Event) :
    o.applyAll (first ++ second) = (o.applyAll first).applyAll second := List.foldl_append

end Outlet

/-! ## Samples that are written -/

theorem outlet_writeSample (s : Sound) : s.writeSample.outlet = s.outlet.write s.last := by
  unfold writeSample Outlet.write
  dsimp only
  -- whichever buffer comes back, nothing is left of what was in it
  split <;> rename_i hfull
  · exact (if_pos hfull).symm
  · exact (if_neg hfull).symm

theorem outlet_computeSample (s : Sound) : s.computeSample.outlet = s.outlet := by
  unfold computeSample
  split <;> rfl

/-- The samples that `repeatSample` writes. -/
def repeated (s : Sound) : List StereoSample :=
  if _h : s.pace.written ≤ s.pace.computed ∧ 0 < s.pace.multiplier then
    let t := s.writeSample
    s.last :: repeated
      { t with pace := { t.pace with written := s.pace.written + s.pace.multiplier } }
  else []
termination_by s.pace.computed + 1 - s.pace.written
decreasing_by
  simp only [pace_writeSample]
  omega

/-- The samples that a tick of the sampler writes. -/
def writtenByTick (s : Sound) : List StereoSample :=
  if s.pace.multiplier = Pace.unit then [s.computeSample.last]
  else if s.pace.multiplier < Pace.unit then s.repeated
  else if s.pace.computed ≤ s.pace.written then []
  else [s.computeSample.last]

def writtenByTicks (s : Sound) : Nat → List StereoSample
  | 0 => []
  | n + 1 => s.writtenByTick ++ writtenByTicks s.sampleTick n

/-- The samples that are written when the controller is told the time, in order. -/
def writtenByUpdate (s : Sound) (now : Nat) : List StereoSample :=
  (s.sequenced now).writtenByTicks (s.due now)

theorem outlet_repeatSample (s : Sound) :
    s.repeatSample.outlet = s.repeated.foldl Outlet.write s.outlet := by
  induction s using repeatSample.induct with
  | case1 s hlag t ih =>
    rw [repeatSample, dif_pos hlag, repeated, dif_pos hlag, List.foldl_cons,
      ← outlet_writeSample]
    exact ih
  | case2 s hdone => rw [repeatSample, dif_neg hdone, repeated, dif_neg hdone, List.foldl_nil]

theorem outlet_sampleTick (s : Sound) :
    s.sampleTick.outlet = s.writtenByTick.foldl Outlet.write s.outlet := by
  unfold sampleTick writtenByTick
  -- normal, slower and faster
  split
  · rw [outlet_writeSample, outlet_computeSample]
    rfl
  · split
    · show s.repeatSample.computeSample.outlet = _
      rw [outlet_computeSample, outlet_repeatSample]
    · unfold skipSample
      dsimp only
      split
      · exact outlet_computeSample s
      · show (writeSample _).outlet = _
        rw [outlet_writeSample]
        exact congrArg (Outlet.write · s.computeSample.last) (outlet_computeSample s)

theorem outlet_sampleTicks (s : Sound) (n : Nat) :
    (s.sampleTicks n).outlet = (s.writtenByTicks n).foldl Outlet.write s.outlet := by
  induction n generalizing s with
  | zero => rfl
  | succ n ih =>
    rw [sampleTicks, writtenByTicks, List.foldl_append, ← outlet_sampleTick]
    exact ih s.sampleTick

theorem outlet_sequencerTick (s : Sound) (tick : Nat) :
    (s.sequencerTick tick).outlet = s.outlet := by
  unfold sequencerTick
  split
  · rfl
  · dsimp only
    split <;> split <;> split <;> rfl

theorem outlet_update (s : Sound) (now : Nat) :
    (s.update now).outlet = (s.writtenByUpdate now).foldl Outlet.write s.outlet := by
  have hsequenced : (s.sequenced now).outlet = s.outlet := by
    rw [sequenced_eq]
    exact sequencerTicks_invariant (P := fun t => t.outlet = s.outlet)
      (fun t tick h => (outlet_sequencerTick t tick).trans h) (s := s.told now) rfl _ _
  rw [update_eq, outlet_sampleTicks, hsequenced]
  rfl

/-! ## Registers -/

theorem outlet_apply (s : Sound) (addr : UInt16) (val : UInt8) :
    (s.apply addr val).outlet = s.outlet := by
  unfold Sound.apply outlet
  split
  all_goals first
    | rfl
    | split <;> rfl

/-- Not even the power switch reaches the samples that have been written. -/
theorem outlet_write (s : Sound) (addr : UInt16) (val : UInt8) :
    (s.write addr val).outlet = s.outlet := by
  unfold Sound.write
  split
  · rfl
  · split
    · unfold writePower powerOn powerOff outlet
      dsimp only
      split
      · rfl
      · split <;> rfl
    · split
      · rfl
      · refine (outlet_apply _ addr val).trans ?_
        unfold outlet
        rfl

/-! ## Histories -/

/-- What is done with a controller and with its queue. -/
inductive Use where
  | operate (op : Operation)
  | request (request : FrameQueue.Request AudioFrame)

def use (s : Sound) : Use → Sound
  | .operate op => op.apply s
  | .request request => { s with queue := request.apply s.queue }

def useAll (s : Sound) (uses : List Use) : Sound := uses.foldl use s

/-- What happens to the outlet in the course of a use. -/
def eventsOf (s : Sound) : Use → List Outlet.Event
  | .operate (.write _ _) => []
  -- frames that wait were made at another speed
  | .operate (.setMultiplier _) => [.request .clear]
  | .operate (.update now) => (s.writtenByUpdate now).map .write
  | .request request => [.request request]

def events (s : Sound) : List Use → List Outlet.Event
  | [] => []
  | u :: uses => s.eventsOf u ++ events (s.use u) uses

theorem Outlet.applyAll_writes (o : Outlet) (samples : List StereoSample) :
    o.applyAll (samples.map .write) = samples.foldl Outlet.write o := List.foldl_map

theorem outlet_use (s : Sound) (u : Use) :
    (s.use u).outlet = s.outlet.applyAll (s.eventsOf u) := by
  cases u with
  | operate op =>
    cases op with
    | write addr val => exact s.outlet_write addr val
    | setMultiplier multiplier => rfl
    | update now =>
      show (s.update now).outlet = s.outlet.applyAll ((s.writtenByUpdate now).map .write)
      rw [outlet_update, Outlet.applyAll_writes]
  | request request => rfl

/-- The outlet goes through the events of a history, one after another. -/
theorem outlet_useAll (s : Sound) (uses : List Use) :
    (s.useAll uses).outlet = s.outlet.applyAll (s.events uses) := by
  induction uses generalizing s with
  | nil => rfl
  | cons u uses ih =>
    rw [events, Outlet.applyAll_append, ← outlet_use]
    exact ih (s.use u)

end DotMatrix.Sound
