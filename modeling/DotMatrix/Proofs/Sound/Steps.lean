import DotMatrix.Proofs.Sound.Outlet
import DotMatrix.Proofs.Sound.TickCount

/-!
# Small steps

To tell a controller the time has many things done. Its clocks are set, the frame sequencer ticks,
and then the sampler ticks. `steps` takes what is done with a controller and with its queue apart,
and the steps in a row come to the same (`performAll_steps`). So the middle of an update can be
spoken of as well.
-/

namespace DotMatrix.Sound

inductive Step where
  | write (addr : UInt16) (val : UInt8)
  | setMultiplier (multiplier : Nat)
  | request (request : FrameQueue.Request AudioFrame)
  /-- The clocks are set and the noise is brought up to date. -/
  | tell (now : Nat)
  /-- A tick of the frame sequencer. -/
  | sequence (tick : Nat)
  /-- A tick of the sampler. -/
  | sample

def perform (s : Sound) : Step → Sound
  | .write addr val => s.write addr val
  | .setMultiplier multiplier => s.setMultiplier multiplier
  | .request request => { s with queue := request.apply s.queue }
  | .tell now => s.told now
  | .sequence tick => s.sequencerTick tick
  | .sample => s.sampleTick

/-- Steps one after another. -/
def performAll (s : Sound) (steps : List Step) : Sound := steps.foldl perform s

def stepsOf (s : Sound) : Use → List Step
  | .operate (.write addr val) => [.write addr val]
  | .operate (.setMultiplier multiplier) => [.setMultiplier multiplier]
  | .operate (.update now) =>
    .tell now :: ((ticksAt Sound.sequencer s now).map .sequence ++
      List.replicate (ticksAt Sound.sampler s now).length .sample)
  | .request request => [.request request]

/-- The steps of a history. -/
def steps (s : Sound) : List Use → List Step
  | [] => []
  | u :: uses => s.stepsOf u ++ steps (s.use u) uses

theorem performAll_append (s : Sound) (first second : List Step) :
    s.performAll (first ++ second) = (s.performAll first).performAll second := List.foldl_append

theorem performAll_samples (s : Sound) (n : Nat) :
    s.performAll (List.replicate n .sample) = s.sampleTicks n := by
  induction n generalizing s with
  | zero => rfl
  | succ n ih => exact ih s.sampleTick

theorem performAll_stepsOf (s : Sound) (u : Use) : s.performAll (s.stepsOf u) = s.use u := by
  cases u with
  | request request => rfl
  | operate op =>
    cases op with
    | write addr val => rfl
    | setMultiplier multiplier => rfl
    | update now =>
      have hsequence : (s.told now).performAll ((ticksAt Sound.sequencer s now).map .sequence) =
          (ticksAt Sound.sequencer s now).foldl sequencerTick (s.told now) := List.foldl_map
      show (s.told now).performAll (_ ++ _) = s.update now
      rw [performAll_append, hsequence, performAll_samples, update_eq_ticks]

/-- A history is its steps. -/
theorem performAll_steps (s : Sound) (uses : List Use) :
    s.performAll (s.steps uses) = s.useAll uses := by
  induction uses generalizing s with
  | nil => rfl
  | cons u uses ih =>
    rw [steps, performAll_append, performAll_stepsOf]
    exact ih (s.use u)

/-- A speed is set by a step only where it is set by a use. -/
theorem setMultiplier_of_mem_steps {s : Sound} {uses : List Use} {multiplier : Nat}
    (h : .setMultiplier multiplier ∈ s.steps uses) :
    .operate (.setMultiplier multiplier) ∈ uses := by
  induction uses generalizing s with
  | nil => cases h
  | cons u uses ih =>
    rcases List.mem_append.1 h with hhere | hlater
    · have hu : u = .operate (.setMultiplier multiplier) := by
        cases u with
        | request request => simp [stepsOf] at hhere
        | operate op => cases op <;> simp_all [stepsOf]
      exact hu ▸ List.mem_cons_self
    · exact List.mem_cons_of_mem u (ih hlater)

end DotMatrix.Sound
