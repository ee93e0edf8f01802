import DotMatrix.Proofs.Sound.Buffers

/-!
# What is done with a sound controller

Registers are written, the host sets the speed, and the controller is told the time, which does
not go back. What a new controller has and all of this keeps, every controller has that comes
about so (`Reachable.invariant`). To be told the time is a row of small steps: the clocks are set
and the noise is brought up to date, then the frame sequencer ticks, then samples are computed and
written.
-/

namespace DotMatrix.Sound

/-! ## Operations -/

/-- What can be done with a sound controller. -/
inductive Operation where
  | write (addr : UInt16) (val : UInt8)
  /-- The host sets the speed; its multiplier is a number of units. -/
  | setMultiplier (multiplier : Nat)
  | update (now : Nat)
deriving DecidableEq, Repr, Inhabited

def Operation.apply (s : Sound) : Operation → Sound
  | write addr val => s.write addr val
  | setMultiplier multiplier => s.setMultiplier multiplier
  | update now => s.update now

/-- Operations one after another. -/
def operate (s : Sound) (ops : List Operation) : Sound := ops.foldl Operation.apply s

/-- The times that a controller is told do not go back, from the present one on. -/
def InOrder (now : Nat) : List Operation → Prop
  | [] => True
  | .update next :: ops => now ≤ next ∧ InOrder next ops
  | .write _ _ :: ops | .setMultiplier _ :: ops => InOrder now ops

instance decidableInOrder (now : Nat) : (ops : List Operation) → Decidable (InOrder now ops)
  | [] => .isTrue trivial
  | .update next :: ops =>
    have := decidableInOrder next ops
    inferInstanceAs (Decidable (now ≤ next ∧ InOrder next ops))
  | .write _ _ :: ops | .setMultiplier _ :: ops => decidableInOrder now ops

/-- A controller that operations make of a new one. -/
def Reachable (s : Sound) : Prop :=
  ∃ depth ops, InOrder 0 ops ∧ (initial depth).operate ops = s

/-! ## The steps of an update -/

/-- The controller with its clocks set and its noise up to date, and no tick done yet. -/
def told (s : Sound) (now : Nat) : Sound :=
  let clock := now - s.poweredAt
  { s with
    now
    sequencer := (s.sequencer.update clock).2
    sampler := (s.sampler.update clock).2
    noise := s.noise.update clock }

/-- The ticks of the frame sequencer that are due when the controller is told the time. -/
def ticksDue (s : Sound) (now : Nat) : TickRun := (s.sequencer.update (now - s.poweredAt)).1

theorem sequenced_eq (s : Sound) (now : Nat) :
    s.sequenced now =
      (s.told now).sequencerTicks (s.ticksDue now).first (s.ticksDue now).count := rfl

section Steps

variable {P : Sound → Prop}

theorem sequencerTicks_invariant (htick : ∀ s tick, P s → P (s.sequencerTick tick)) {s : Sound}
    (h : P s) (first n : Nat) : P (s.sequencerTicks first n) := by
  induction n generalizing s first with
  | zero => exact h
  | succ n ih => exact ih (htick s first h) (first + 1)

variable (hcompute : ∀ s, P s → P s.computeSample) (hwrite : ∀ s, P s → P s.writeSample)
  (hpace : ∀ s pace, P s → P { s with pace })
include hwrite hpace

theorem repeatSample_invariant {s : Sound} (h : P s) : P s.repeatSample := by
  induction s using repeatSample.induct with
  | case1 s hlag t ih =>
    rw [repeatSample, dif_pos hlag]
    exact ih (hpace t _ (hwrite s h))
  | case2 s hdone =>
    rw [repeatSample, dif_neg hdone]
    exact h

include hcompute

/-- At any speed, a tick of the sampler computes a sample and writes samples. -/
theorem sampleTick_invariant {s : Sound} (h : P s) : P s.sampleTick := by
  unfold sampleTick
  split
  · exact hwrite _ (hcompute s h)
  · split
    · exact hpace _ _ (hcompute _ (repeatSample_invariant hwrite hpace h))
    · have hcomputed := hpace _ { s.computeSample.pace with
        computed := s.computeSample.pace.computed + Pace.unit } (hcompute s h)
      unfold skipSample
      dsimp only
      split
      · exact hcomputed
      · exact hpace _ _ (hwrite _ hcomputed)

theorem sampleTicks_invariant {s : Sound} (h : P s) (n : Nat) : P (s.sampleTicks n) := by
  induction n generalizing s with
  | zero => exact h
  | succ n ih => exact ih (sampleTick_invariant hcompute hwrite hpace h)

end Steps

/-! ## The time -/

theorem now_apply (s : Sound) (addr : UInt16) (val : UInt8) : (s.apply addr val).now = s.now := by
  unfold Sound.apply
  split
  all_goals first
    | rfl
    | split <;> rfl

theorem now_writePower (s : Sound) (val : UInt8) : (s.writePower val).now = s.now := by
  unfold writePower powerOn powerOff
  dsimp only
  split
  · rfl
  · split <;> rfl

theorem now_write (s : Sound) (addr : UInt16) (val : UInt8) : (s.write addr val).now = s.now := by
  unfold Sound.write
  split
  · rfl
  · split
    · exact s.now_writePower val
    · split
      · rfl
      · exact now_apply _ addr val

theorem now_sequencerTick (s : Sound) (tick : Nat) : (s.sequencerTick tick).now = s.now := by
  unfold sequencerTick
  split
  · rfl
  · dsimp only
    split <;> split <;> split <;> rfl

theorem now_computeSample (s : Sound) : s.computeSample.now = s.now := by
  unfold computeSample
  split <;> rfl

theorem now_writeSample (s : Sound) : s.writeSample.now = s.now := by
  show s.writeSample.generator.now = s.generator.now
  rw [generator_writeSample]

theorem now_update (s : Sound) (now : Nat) : (s.update now).now = now := by
  rw [update_eq, sequenced_eq]
  refine sampleTicks_invariant (P := fun t => t.now = now)
    (fun t h => (now_computeSample t).trans h) (fun t h => (now_writeSample t).trans h)
    (fun _ _ h => h) ?_ _
  exact sequencerTicks_invariant (P := fun t => t.now = now)
    (fun t tick h => (now_sequencerTick t tick).trans h) rfl _ _

/-! ## Histories -/

theorem operate_append (s : Sound) (first second : List Operation) :
    s.operate (first ++ second) = (s.operate first).operate second :=
  List.foldl_append

theorem now_operate_update (s : Sound) (ops : List Operation) (now : Nat) :
    (s.operate (ops ++ [.update now])).now = now := by
  rw [operate_append]
  exact now_update (s.operate ops) now

/-- What every operation keeps, operations with times in order keep. -/
theorem operate_invariant {P : Sound → Prop}
    (hwrite : ∀ s addr val, P s → P (s.write addr val))
    (hspeed : ∀ s multiplier, P s → P (s.setMultiplier multiplier))
    (htime : ∀ s now, s.now ≤ now → P s → P (s.update now))
    {s : Sound} (h : P s) {ops : List Operation} (horder : InOrder s.now ops) :
    P (s.operate ops) := by
  induction ops generalizing s with
  | nil => exact h
  | cons op ops ih =>
    cases op with
    | write addr val => exact ih (hwrite s addr val h) ((now_write s addr val).symm ▸ horder)
    | setMultiplier multiplier => exact ih (hspeed s multiplier h) horder
    | update now => exact ih (htime s now horder.1 h) ((now_update s now).symm ▸ horder.2)

theorem Reachable.invariant {P : Sound → Prop} (hinitial : ∀ depth, P (initial depth))
    (hwrite : ∀ s addr val, P s → P (s.write addr val))
    (hspeed : ∀ s multiplier, P s → P (s.setMultiplier multiplier))
    (htime : ∀ s now, s.now ≤ now → P s → P (s.update now)) {s : Sound} (h : s.Reachable) :
    P s := by
  obtain ⟨depth, ops, horder, rfl⟩ := h
  exact operate_invariant hwrite hspeed htime (hinitial depth) horder

end DotMatrix.Sound
