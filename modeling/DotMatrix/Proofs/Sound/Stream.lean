import DotMatrix.Proofs.Sound.Outlet
import Mathlib.Data.List.Infix
import Mathlib.Data.List.Nodup
import Mathlib.Data.List.Perm.Basic

/-!
# The stream of samples

The samples that are written come out in frames. `Stream` follows the outlet of a controller and
records what became of each frame, told from what waits in the queue before and after each event.
No sample is lost but with a frame that is counted as dropped or that is cleared, and no frame
overtakes another (`stream_lossless`).
-/

namespace DotMatrix.Sound

/-- An outlet, and what has come out of it. -/
structure Stream where
  outlet : Outlet
  written : List StereoSample
  published : List AudioFrame
  delivered : List AudioFrame
  dropped : List AudioFrame
  cleared : List AudioFrame

/-- The frames of a list that are not in another. -/
def without (frames others : List AudioFrame) : List AudioFrame :=
  frames.filter fun frame => frame ∉ others

namespace Stream

def start (depth : Nat) : Stream := ⟨(initial depth).outlet, [], [], [], [], []⟩

def waiting (x : Stream) : List AudioFrame := x.outlet.queue.frames

def step (x : Stream) (event : Outlet.Event) : Stream :=
  let outlet := x.outlet.apply event
  let gone := without x.waiting outlet.queue.frames
  match event with
  | .write sample =>
    { x with
      outlet
      written := x.written ++ [sample]
      published := x.published ++ without outlet.queue.frames x.waiting
      dropped := x.dropped ++ gone }
  | .request .take =>
    { x with outlet, delivered := x.delivered ++ x.outlet.queue.take.1.toList }
  | .request (.giveBack _) => { x with outlet }
  | .request .clear => { x with outlet, cleared := x.cleared ++ gone }

def run (x : Stream) (events : List Outlet.Event) : Stream := events.foldl step x

theorem outlet_step (x : Stream) (event : Outlet.Event) :
    (x.step event).outlet = x.outlet.apply event := by
  unfold step
  split <;> rfl

theorem outlet_run (x : Stream) (events : List Outlet.Event) :
    (x.run events).outlet = x.outlet.applyAll events := by
  induction events generalizing x with
  | nil => rfl
  | cons event events ih => exact (ih (x.step event)).trans (by rw [outlet_step]; rfl)

/-- Frames are numbered from zero without gaps. The samples of the published frames, followed by
those in the frame that is being filled, are the samples that were written. Every published frame
was delivered, dropped or cleared, or waits, and the dropped ones are counted. -/
structure Lossless (depth : Nat) (x : Stream) : Prop where
  numbers : x.published.map AudioFrame.number = List.range x.published.length
  samples : x.published.flatMap (·.samples.toList) ++
    x.outlet.frame.samples.toList.take x.outlet.position = x.written
  fates : (x.delivered ++ x.dropped ++ x.cleared ++ x.waiting).Perm x.published
  counted : x.outlet.queue.dropped = x.dropped.length
  order : (x.delivered.map AudioFrame.number).Pairwise (· < ·)
  size : x.outlet.queue.size ≤ max depth 1

/-- An event drops no frame but the oldest that waits, and only if the queue is full. -/
def DropsOldest (depth : Nat) (x : Stream) (event : Outlet.Event) : Prop :=
  (x.step event).dropped = x.dropped ∨
    ∃ oldest rest, x.waiting = oldest :: rest ∧ x.outlet.queue.size = max depth 1 ∧
      (x.step event).dropped = x.dropped ++ [oldest]

/-! ## What events keep -/

/-- The frame that is being filled has the next number and room for a sample, and the frames that
wait were published after those that are delivered. -/
structure Flows (depth : Nat) (x : Stream) : Prop where
  capacity : x.outlet.queue.depth = max depth 1
  size : x.waiting.length ≤ max depth 1
  position : x.outlet.position < frameLength
  number : x.outlet.frame.number = x.published.length
  frameNumber : x.outlet.frameNumber = x.published.length
  numbers : x.published.map AudioFrame.number = List.range x.published.length
  samples : x.published.flatMap (·.samples.toList) ++
    x.outlet.frame.samples.toList.take x.outlet.position = x.written
  fates : (x.delivered ++ x.dropped ++ x.cleared ++ x.waiting).Perm x.published
  counted : x.outlet.queue.dropped = x.dropped.length
  order : (x.delivered ++ x.waiting).Sublist x.published

theorem flows_start (depth : Nat) : (start depth).Flows depth :=
  ⟨rfl, Nat.zero_le _, Nat.zero_lt_succ 1023, rfl, rfl, rfl, rfl, List.Perm.refl _, rfl,
    List.Sublist.refl _⟩

theorem without_self (frames : List AudioFrame) : without frames frames = [] := by
  simp [without]

/-- Of distinct frames in a row, those in front are missing behind and those behind in front. -/
theorem without_append {front middle back : List AudioFrame}
    (h : (front ++ middle ++ back).Nodup) :
    without (front ++ middle) (middle ++ back) = front ∧
      without (middle ++ back) (front ++ middle) = back := by
  simp only [List.nodup_append, List.mem_append] at h
  obtain ⟨⟨-, -, hfront⟩, -, hback⟩ := h
  unfold without
  constructor <;> rw [List.filter_append]
  · have hstay : front.filter (fun frame => frame ∉ middle ++ back) = front := by
      refine List.filter_eq_self.2 fun frame hframe => ?_
      simp only [List.mem_append, decide_eq_true_eq, not_or]
      exact ⟨fun hmem => hfront frame hframe frame hmem rfl,
        fun hmem => hback frame (.inl hframe) frame hmem rfl⟩
    have hgo : middle.filter (fun frame => frame ∉ middle ++ back) = [] := by
      refine List.filter_eq_nil_iff.2 fun frame hframe => ?_
      simp [hframe]
    rw [hstay, hgo, List.append_nil]
  · have hgo : middle.filter (fun frame => frame ∉ front ++ middle) = [] := by
      refine List.filter_eq_nil_iff.2 fun frame hframe => ?_
      simp [hframe]
    have hstay : back.filter (fun frame => frame ∉ front ++ middle) = back := by
      refine List.filter_eq_self.2 fun frame hframe => ?_
      simp only [List.mem_append, decide_eq_true_eq, not_or]
      exact ⟨fun hmem => hback frame (.inl hmem) frame hframe rfl,
        fun hmem => hback frame (.inr hmem) frame hframe rfl⟩
    rw [hgo, hstay, List.nil_append]

/-- Writing into the first free place adds to what is in front of it. -/
theorem take_put {n i : Nat} (v : Vector StereoSample n) (hi : i < n) (sample : StereoSample) :
    (v.setIfInBounds i sample).toList.take (i + 1) = v.toList.take i ++ [sample] := by
  have hlength : i < (v.toList.set i sample).length := by
    rw [List.length_set, Vector.length_toList]
    exact hi
  have hshort : (v.toList.take i).length ≤ i := List.length_take_le i v.toList
  rw [Vector.toList_setIfInBounds, List.take_succ_eq_append_getElem hlength, List.take_set,
    List.set_eq_of_length_le hshort, List.getElem_set_self]

/-- A frame becomes full with a sample and is published. Some of those that wait are lost for it
and the others are kept. -/
structure Publishes (depth : Nat) (x y : Stream) (sample : StereoSample) (full : AudioFrame)
    (lost kept : List AudioFrame) : Prop where
  change : y =
    { x with
      outlet := y.outlet
      written := x.written ++ [sample]
      published := x.published ++ [full]
      dropped := x.dropped ++ lost }
  waiting : x.waiting = lost ++ kept
  queued : y.waiting = kept ++ [full]
  capacity : y.outlet.queue.depth = max depth 1
  room : kept.length < max depth 1
  number : full.number = x.published.length
  samples : full.samples.toList = x.outlet.frame.samples.toList.take x.outlet.position ++ [sample]
  position : y.outlet.position = 0
  fresh : y.outlet.frame.number = x.published.length + 1
  next : y.outlet.frameNumber = x.published.length + 1
  counted : y.outlet.queue.dropped = x.outlet.queue.dropped + lost.length
  oldest : lost = [] ∨ ∃ frame, lost = [frame] ∧ x.outlet.queue.frames.length = max depth 1

theorem step_put {x : Stream} (sample : StereoSample)
    (hroom : x.outlet.position + 1 < frameLength) :
    x.step (.write sample) =
      { x with outlet := x.outlet.put sample, written := x.written ++ [sample] } := by
  have houtlet : x.outlet.apply (.write sample) = x.outlet.put sample :=
    if_neg (Nat.not_le.2 hroom)
  have hgone : without x.waiting (x.outlet.put sample).queue.frames = [] := without_self _
  have hcome : without (x.outlet.put sample).queue.frames x.waiting = [] := without_self _
  simp only [step, houtlet, hgone, hcome, List.append_nil]

namespace Flows

variable {depth : Nat} {x : Stream} (h : x.Flows depth)
include h

/-- The frames that wait are told apart by their numbers. -/
theorem nodup_waiting : x.waiting.Nodup := by
  have hnumbers : (x.published.map AudioFrame.number).Nodup := h.numbers ▸ List.nodup_range
  have hsublist : x.waiting.Sublist x.published :=
    (List.sublist_append_right x.delivered x.waiting).trans h.order
  exact (List.Nodup.of_map _ hnumbers).sublist hsublist

/-- The frame that is being filled is none of those that wait. -/
theorem number_ne {frame : AudioFrame} (hframe : frame ∈ x.waiting) :
    frame.number ≠ x.published.length := by
  have hpublished : frame ∈ x.published :=
    ((List.sublist_append_right x.delivered x.waiting).trans h.order).mem hframe
  have hmem := List.mem_map_of_mem (f := AudioFrame.number) hpublished
  rw [h.numbers, List.mem_range] at hmem
  omega

/-- A sample goes behind the others, and the frame is not full yet. -/
theorem put (sample : StereoSample) (hroom : x.outlet.position + 1 < frameLength) :
    (x.step (.write sample)).Flows depth := by
  rw [step_put sample hroom]
  refine { h with position := hroom, samples := ?_ }
  show x.published.flatMap _ ++
    (x.outlet.frame.samples.setIfInBounds x.outlet.position sample).toList.take
      (x.outlet.position + 1) = x.written ++ [sample]
  rw [take_put _ h.position, ← List.append_assoc, h.samples]

/-- With this sample the frame is full. Publishing it loses no frame but the oldest. -/
theorem publishes (sample : StereoSample) (hfull : x.outlet.position + 1 = frameLength) :
    ∃ full lost kept, x.Publishes depth (x.step (.write sample)) sample full lost kept := by
  have houtlet : x.outlet.apply (.write sample) = (x.outlet.put sample).publish :=
    if_pos (Nat.le_of_eq hfull.symm)
  have hcapacity : x.outlet.queue.depth = max depth 1 := h.capacity
  obtain ⟨hdepth, lost, kept, hwaiting, hframes, hdropped, hkept, hlost⟩ :=
    FrameQueue.publish_spec (q := x.outlet.queue) (by omega) (hcapacity ▸ h.size) (.silent 0)
      (x.outlet.put sample).frame
  have hwaiting : x.waiting = lost ++ kept := hwaiting
  have hframes : (x.outlet.put sample).publish.queue.frames =
      kept ++ [(x.outlet.put sample).frame] := hframes
  have hnumber : (x.outlet.put sample).frame.number = x.published.length := h.number
  have hsamples : (x.outlet.put sample).frame.samples.toList =
      x.outlet.frame.samples.toList.take x.outlet.position ++ [sample] := by
    rw [← take_put _ h.position, hfull]
    exact (List.take_of_length_le (by simp)).symm
  -- the frames that wait before and after differ in the lost ones and in the new one
  have hdistinct : (lost ++ kept ++ [(x.outlet.put sample).frame]).Nodup := by
    rw [← hwaiting, List.nodup_append]
    refine ⟨h.nodup_waiting, by simp, fun frame hframe other hother heq => ?_⟩
    rw [List.mem_singleton] at hother
    exact h.number_ne hframe (by rw [heq, hother, hnumber])
  obtain ⟨hgone, hcome⟩ := without_append hdistinct
  have hstep : x.step (.write sample) =
      { x with
        outlet := (x.outlet.put sample).publish
        written := x.written ++ [sample]
        published := x.published ++ [(x.outlet.put sample).frame]
        dropped := x.dropped ++ lost } := by
    simp only [step, houtlet, hframes, hwaiting, hgone, hcome]
  rw [hstep]
  exact ⟨(x.outlet.put sample).frame, lost, kept, {
    change := rfl
    waiting := hwaiting
    queued := hframes
    capacity := hdepth.trans hcapacity
    room := hcapacity ▸ hkept
    number := hnumber
    samples := hsamples
    position := rfl
    fresh := congrArg (· + 1) h.frameNumber
    next := congrArg (· + 1) h.frameNumber
    counted := hdropped
    oldest := hcapacity ▸ hlost }⟩

end Flows

theorem Publishes.flows {depth : Nat} {x y : Stream} {sample : StereoSample} {full : AudioFrame}
    {lost kept : List AudioFrame} (hp : x.Publishes depth y sample full lost kept)
    (h : x.Flows depth) : y.Flows depth := by
  obtain ⟨outlet, written, published, delivered, dropped, cleared⟩ := y
  obtain ⟨rfl, rfl, rfl, rfl, rfl⟩ : written = x.written ++ [sample] ∧
      published = x.published ++ [full] ∧ delivered = x.delivered ∧
      dropped = x.dropped ++ lost ∧ cleared = x.cleared := by
    simpa using hp.change
  have hqueued : outlet.queue.frames = kept ++ [full] := hp.queued
  exact {
    capacity := hp.capacity
    size := by
      rw [hp.queued, List.length_append]
      exact hp.room
    position := by
      rw [hp.position]
      exact Nat.zero_lt_succ 1023
    number := by
      rw [List.length_append]
      exact hp.fresh
    frameNumber := by
      rw [List.length_append]
      exact hp.next
    numbers := by
      rw [List.map_append, h.numbers, List.length_append]
      show _ ++ [full.number] = List.range (x.published.length + 1)
      rw [hp.number, List.range_succ]
    samples := by
      rw [hp.position, List.take_zero, List.append_nil, List.flatMap_append,
        List.flatMap_singleton, hp.samples, ← List.append_assoc, h.samples]
    fates := by
      have hfates := List.perm_iff_count.1 h.fates
      refine List.perm_iff_count.2 fun frame => ?_
      have hcount := hfates frame
      rw [hp.waiting] at hcount
      rw [hp.queued]
      simp only [List.count_append] at hcount ⊢
      omega
    counted := by
      rw [List.length_append, ← h.counted]
      exact hp.counted
    order := by
      rw [hp.queued, ← List.append_assoc]
      have hless : (x.delivered ++ kept).Sublist (x.delivered ++ x.waiting) := by
        rw [hp.waiting]
        exact (List.sublist_append_right lost kept).append_left x.delivered
      exact (hless.trans h.order).append (List.Sublist.refl [full]) }

theorem Publishes.dropsOldest {depth : Nat} {x : Stream} {sample : StereoSample}
    {full : AudioFrame} {lost kept : List AudioFrame}
    (hp : x.Publishes depth (x.step (.write sample)) sample full lost kept) :
    x.DropsOldest depth (.write sample) := by
  rw [DropsOldest, hp.change]
  rcases hp.oldest with rfl | ⟨oldest, rfl, hsize⟩
  · exact .inl (List.append_nil _)
  · exact .inr ⟨oldest, kept, hp.waiting, hsize, rfl⟩

namespace Flows

variable {depth : Nat} {x : Stream} (h : x.Flows depth)
include h

/-! ### What the consumer does -/

/-- The oldest frame is delivered. -/
theorem take : (x.step (.request .take)).Flows depth := by
  have hframes : x.waiting = x.outlet.queue.take.1.toList ++ x.outlet.queue.take.2.frames :=
    x.outlet.queue.frames_take
  have houtlet : (x.step (.request .take)).outlet = { x.outlet with queue :=
      { x.outlet.queue with frames := x.outlet.queue.take.2.frames } } := by
    rw [outlet_step]
    exact congrArg (fun queue => { x.outlet with queue }) x.outlet.queue.take_snd
  have hstep : x.step (.request .take) =
      { x with
        outlet := { x.outlet with queue :=
          { x.outlet.queue with frames := x.outlet.queue.take.2.frames } }
        delivered := x.delivered ++ x.outlet.queue.take.1.toList } := by
    rw [← houtlet]
    rfl
  rw [hstep]
  generalize x.outlet.queue.take.1.toList = front at hframes ⊢
  generalize x.outlet.queue.take.2.frames = rest at hframes ⊢
  exact { h with
    size := by
      have hlength := congrArg List.length hframes
      rw [List.length_append] at hlength
      have hsize := h.size
      show rest.length ≤ max depth 1
      omega
    fates := by
      have hfates := List.perm_iff_count.1 h.fates
      refine List.perm_iff_count.2 fun frame => ?_
      have hcount := hfates frame
      rw [hframes] at hcount
      show (x.delivered ++ front ++ x.dropped ++ x.cleared ++ rest).count frame = _
      simp only [List.count_append] at hcount ⊢
      omega
    order := by
      show (x.delivered ++ front ++ rest).Sublist x.published
      rw [List.append_assoc, ← hframes]
      exact h.order }

/-- A buffer that comes back is no frame. -/
theorem giveBack (frame : AudioFrame) : (x.step (.request (.giveBack frame))).Flows depth := by
  have hstep : x.step (.request (.giveBack frame)) =
      { x with outlet := { x.outlet with queue :=
        { x.outlet.queue with pool := (x.outlet.queue.recycle frame).pool } } } := by
    rw [← FrameQueue.recycle_eq]
    rfl
  rw [hstep]
  exact { h with }

/-- All the frames that wait are lost. -/
theorem clear : (x.step (.request .clear)).Flows depth := by
  have hempty : x.outlet.queue.clear.frames = [] := by rw [FrameQueue.clear_eq]
  have hgone : without x.waiting [] = x.waiting := List.filter_eq_self.2 (by simp)
  have houtlet : (x.step (.request .clear)).outlet = { x.outlet with queue :=
      { x.outlet.queue with frames := [], pool := x.outlet.queue.clear.pool } } := by
    rw [outlet_step]
    exact congrArg (fun queue => { x.outlet with queue }) x.outlet.queue.clear_eq
  have hstep : x.step (.request .clear) =
      { x with
        outlet := { x.outlet with queue :=
          { x.outlet.queue with frames := [], pool := x.outlet.queue.clear.pool } }
        cleared := x.cleared ++ x.waiting } := by
    rw [← houtlet, ← hgone, ← hempty]
    rfl
  rw [hstep]
  exact { h with
    size := Nat.zero_le _
    fates := by
      show (x.delivered ++ x.dropped ++ (x.cleared ++ x.waiting) ++ []).Perm x.published
      rw [List.append_nil, ← List.append_assoc]
      exact h.fates
    order := by
      show (x.delivered ++ []).Sublist x.published
      rw [List.append_nil]
      exact (List.sublist_append_left x.delivered x.waiting).trans h.order }

/-! ### Any event -/

theorem step (event : Outlet.Event) :
    (x.step event).Flows depth ∧ x.DropsOldest depth event := by
  cases event with
  | write sample =>
    by_cases hroom : x.outlet.position + 1 < frameLength
    · exact ⟨h.put sample hroom, .inl (by rw [step_put sample hroom])⟩
    · have hposition := h.position
      obtain ⟨full, lost, kept, hp⟩ := h.publishes sample (by omega)
      exact ⟨hp.flows h, hp.dropsOldest⟩
  | request request =>
    -- what the consumer does is never counted
    cases request with
    | take => exact ⟨h.take, .inl rfl⟩
    | giveBack frame => exact ⟨h.giveBack frame, .inl rfl⟩
    | clear => exact ⟨h.clear, .inl rfl⟩

theorem run (events : List Outlet.Event) : (x.run events).Flows depth := by
  induction events generalizing x with
  | nil => exact h
  | cons event events ih => exact ih (h.step event).1

theorem lossless : x.Lossless depth where
  numbers := h.numbers
  samples := h.samples
  fates := h.fates
  counted := h.counted
  order := by
    -- published frames are in the order of their numbers, and these are some of them
    have hnumbers : (x.published.map AudioFrame.number).Pairwise (· < ·) := by
      rw [h.numbers]
      exact List.pairwise_lt_range
    have hsublist : x.delivered.Sublist x.published :=
      (List.sublist_append_left x.delivered x.waiting).trans h.order
    exact hnumbers.sublist (hsublist.map AudioFrame.number)
  size := h.size

end Flows

end Stream

/-- From the time a controller is made, whatever is done with it and with its queue, and after any
number of the events that come of it: no sample is lost but with a frame that is dropped and
counted or that is cleared, frames come in order, only the oldest is dropped to make room for
another, and publishing ends. -/
theorem stream_lossless (depth : Nat) (uses : List Use) :
    ((Stream.start depth).run ((initial depth).events uses)).outlet =
        ((initial depth).useAll uses).outlet ∧
      ∀ n, let x := (Stream.start depth).run (((initial depth).events uses).take n)
        x.Lossless depth ∧ (∀ event, x.DropsOldest depth event) ∧ x.outlet.queue.PublishEnds := by
  constructor
  · rw [Stream.outlet_run, outlet_useAll]
    rfl
  · intro n x
    have h : x.Flows depth := (Stream.flows_start depth).run _
    have hcapacity := h.capacity
    refine ⟨h.lossless, fun event => (h.step event).2, FrameQueue.publishEnds ?_ ?_⟩
    · omega
    · rw [hcapacity]
      exact h.size

end DotMatrix.Sound
