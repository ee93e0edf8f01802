import DotMatrix.Exchange.FrameQueue

/-!
# Publishing to a queue

Publishing discards the oldest frame if the queue is full, and no other (`publish_of_full`). The
producer does so by trying again: it offers the frame, and when there is no room it discards a
frame and offers it once more. Whatever the consumer does in the meantime, the second offer is
taken (`isSome_offers`), and if the consumer does nothing, the outcome is that of `publish`
(`offers_undisturbed`).
-/

namespace DotMatrix.FrameQueue

variable {α : Type}

/-! ## What buffers leave alone -/

/-- The pool has no influence on the frames that wait. -/
theorem recycle_eq (q : FrameQueue α) (buffer : α) :
    q.recycle buffer = { q with pool := (q.recycle buffer).pool } := by
  unfold recycle
  split <;> rfl

theorem nextBuffer_eq (q : FrameQueue α) (blank : α) :
    (q.nextBuffer blank).2 = { q with pool := (q.nextBuffer blank).2.pool } := by
  unfold nextBuffer
  split <;> rfl

theorem clear_eq (q : FrameQueue α) :
    q.clear = { q with frames := [], pool := q.clear.pool } := by
  have hall : ∀ (buffers : List α) (t : FrameQueue α),
      buffers.foldl recycle t = { t with pool := (buffers.foldl recycle t).pool } := by
    intro buffers
    induction buffers with
    | nil => exact fun _ => rfl
    | cons buffer buffers ih =>
      intro t
      rw [List.foldl_cons, ih, recycle_eq]
  exact hall q.frames { q with frames := [] }

theorem frames_take (q : FrameQueue α) : q.frames = q.take.1.toList ++ q.take.2.frames := by
  unfold take
  cases h : q.frames <;> simp [h]

theorem take_snd (q : FrameQueue α) : q.take.2 = { q with frames := q.take.2.frames } := by
  unfold take
  cases q.frames <;> rfl

/-! ## Publishing -/

/-- Discards the oldest frame. -/
def discard (q : FrameQueue α) : FrameQueue α :=
  match q.frames with
  | oldest :: rest => recycle { q with frames := rest, dropped := q.dropped + 1 } oldest
  | [] => q

/-- Adds a frame behind the others. -/
def add (q : FrameQueue α) (frame : α) : FrameQueue α := { q with frames := q.frames ++ [frame] }

theorem discard_eq {q : FrameQueue α} {oldest : α} {rest : List α} (h : q.frames = oldest :: rest) :
    q.discard =
      { q with frames := rest, dropped := q.dropped + 1, pool := q.discard.pool } := by
  unfold discard
  rw [h]
  exact recycle_eq _ _

theorem publish_snd (q : FrameQueue α) (blank frame : α) :
    (q.publish blank frame).2 = (q.nextBuffer blank).2.makeRoom.add frame := rfl

theorem makeRoom_of_room {q : FrameQueue α} (h : q.frames.length < q.depth) : q.makeRoom = q := by
  unfold makeRoom
  split
  · exact if_pos h
  · rfl

theorem makeRoom_of_full {q : FrameQueue α} (h : q.depth ≤ q.frames.length) :
    q.makeRoom = q.discard := by
  unfold makeRoom discard
  cases hframes : q.frames with
  | nil => rfl
  | cons oldest rest =>
    rw [hframes] at h
    exact if_neg (Nat.not_lt.2 h)

/-- A queue that is not full loses nothing. -/
theorem publish_of_room {q : FrameQueue α} (h : q.frames.length < q.depth) (blank frame : α) :
    (q.publish blank frame).2 =
      { q with frames := q.frames ++ [frame], pool := (q.publish blank frame).2.pool } := by
  have hroom : (q.nextBuffer blank).2.frames.length < (q.nextBuffer blank).2.depth := by
    rw [nextBuffer_eq]
    exact h
  rw [publish_snd, makeRoom_of_room hroom, nextBuffer_eq]
  rfl

/-- A full queue loses its oldest frame, which is counted. -/
theorem publish_of_full {q : FrameQueue α} {oldest : α} {rest : List α}
    (hframes : q.frames = oldest :: rest) (h : q.depth ≤ q.frames.length) (blank frame : α) :
    (q.publish blank frame).2 =
      { q with
        frames := rest ++ [frame]
        dropped := q.dropped + 1
        pool := (q.publish blank frame).2.pool } := by
  have hfull : (q.nextBuffer blank).2.depth ≤ (q.nextBuffer blank).2.frames.length := by
    rw [nextBuffer_eq]
    exact h
  have hframes' : (q.nextBuffer blank).2.frames = oldest :: rest := by
    rw [nextBuffer_eq]
    exact hframes
  rw [publish_snd, makeRoom_of_full hfull, discard_eq hframes', nextBuffer_eq]
  rfl

/-- Publishing to a queue loses at most one frame, the oldest, and only if the queue is full. -/
theorem publish_spec {q : FrameQueue α} (hdepth : 1 ≤ q.depth)
    (hlength : q.frames.length ≤ q.depth) (blank frame : α) :
    (q.publish blank frame).2.depth = q.depth ∧
      ∃ lost kept, q.frames = lost ++ kept ∧
        (q.publish blank frame).2.frames = kept ++ [frame] ∧
        (q.publish blank frame).2.dropped = q.dropped + lost.length ∧
        kept.length < q.depth ∧
        (lost = [] ∨ ∃ oldest, lost = [oldest] ∧ q.frames.length = q.depth) := by
  by_cases hroom : q.frames.length < q.depth
  · rw [publish_of_room hroom]
    exact ⟨rfl, [], q.frames, rfl, rfl, rfl, hroom, .inl rfl⟩
  · have hfull : q.frames.length = q.depth := by omega
    cases hframes : q.frames with
    | nil =>
      rw [hframes] at hfull
      exact absurd hfull (by simp; omega)
    | cons oldest rest =>
      rw [publish_of_full hframes (Nat.le_of_eq hfull.symm)]
      refine ⟨rfl, [oldest], rest, rfl, rfl, rfl, ?_, .inr ⟨oldest, rfl, hframes ▸ hfull⟩⟩
      rw [← hfull, hframes]
      exact Nat.lt_succ_self rest.length

/-! ## Trying again -/

/-- What the consumer can do with a queue. -/
inductive Request (α : Type) where
  | take
  /-- Any buffer can be given back, whatever is in it. -/
  | giveBack (frame : α)
  | clear
deriving DecidableEq, Repr, Inhabited

def Request.apply (q : FrameQueue α) : Request α → FrameQueue α
  | take => q.take.2
  | giveBack frame => q.giveBack frame
  | clear => q.clear

def serve (q : FrameQueue α) (requests : List (Request α)) : FrameQueue α :=
  requests.foldl Request.apply q

/-- Queues a frame if there is room for it. -/
def offer (q : FrameQueue α) (frame : α) : Option (FrameQueue α) :=
  if q.frames.length < q.depth then some (q.add frame) else none

/-- Offers a frame as often as there are rounds, until it is taken. When it is not, the oldest
frame is discarded. In each round the consumer comes in before the offer and after it. -/
def offers (frame : α) : List (List (Request α) × List (Request α)) → FrameQueue α →
    Option (FrameQueue α)
  | [], _ => none
  | (before, after) :: rounds, q =>
    match (q.serve before).offer frame with
    | some taken => some taken
    | none => offers frame rounds ((q.serve before).serve after).discard

/-- The consumer never fills a queue. -/
theorem serve_spec (q : FrameQueue α) (requests : List (Request α)) :
    (q.serve requests).depth = q.depth ∧
      (q.serve requests).frames.length ≤ q.frames.length := by
  induction requests generalizing q with
  | nil => exact ⟨rfl, Nat.le_refl _⟩
  | cons request requests ih =>
    have hrequest : (request.apply q).depth = q.depth ∧
        (request.apply q).frames.length ≤ q.frames.length := by
      cases request with
      | take =>
        have hlength := congrArg List.length q.frames_take
        rw [List.length_append] at hlength
        refine ⟨by rw [Request.apply, take_snd], ?_⟩
        show q.take.2.frames.length ≤ _
        omega
      | giveBack frame =>
        show (q.recycle frame).depth = _ ∧ (q.recycle frame).frames.length ≤ _
        rw [recycle_eq]
        exact ⟨rfl, Nat.le_refl _⟩
      | clear =>
        rw [Request.apply, clear_eq]
        exact ⟨rfl, Nat.zero_le _⟩
    obtain ⟨hdepth, hlength⟩ := ih (request.apply q)
    exact ⟨hdepth.trans hrequest.1, Nat.le_trans hlength hrequest.2⟩

theorem discard_spec (q : FrameQueue α) :
    q.discard.depth = q.depth ∧ q.discard.frames.length = q.frames.length - 1 := by
  cases h : q.frames with
  | nil =>
    have hsame : q.discard = q := by simp [discard, h]
    rw [hsame, h]
    exact ⟨rfl, rfl⟩
  | cons oldest rest =>
    rw [discard_eq h]
    exact ⟨rfl, rfl⟩

/-- The second offer at the latest is taken, whatever the consumer does in between. -/
theorem isSome_offers {q : FrameQueue α} (hdepth : 1 ≤ q.depth)
    (hlength : q.frames.length ≤ q.depth) (frame : α)
    (first second : List (Request α) × List (Request α)) :
    (offers frame [first, second] q).isSome = true := by
  obtain ⟨before, after⟩ := first
  obtain ⟨before', after'⟩ := second
  obtain ⟨hdepth₁, hlength₁⟩ := q.serve_spec before
  obtain ⟨hdepth₂, hlength₂⟩ := (q.serve before).serve_spec after
  obtain ⟨hdepth₃, hlength₃⟩ := ((q.serve before).serve after).discard_spec
  obtain ⟨hdepth₄, hlength₄⟩ := ((q.serve before).serve after).discard.serve_spec before'
  unfold offers
  split
  · rfl
  · -- one frame less than the queue holds at most
    have hroom : (((q.serve before).serve after).discard.serve before').frames.length <
        (((q.serve before).serve after).discard.serve before').depth := by
      omega
    unfold offers offer
    rw [if_pos hroom]
    rfl

/-- A producer that is not disturbed does what `publish` says. -/
theorem offers_undisturbed {q : FrameQueue α} (hdepth : 1 ≤ q.depth)
    (hlength : q.frames.length ≤ q.depth) (blank frame : α) :
    offers frame [([], []), ([], [])] (q.nextBuffer blank).2 =
      some (q.publish blank frame).2 := by
  obtain ⟨hdepth', hlength'⟩ : 1 ≤ (q.nextBuffer blank).2.depth ∧
      (q.nextBuffer blank).2.frames.length ≤ (q.nextBuffer blank).2.depth := by
    rw [nextBuffer_eq]
    exact ⟨hdepth, hlength⟩
  rw [publish_snd]
  generalize (q.nextBuffer blank).2 = t at hdepth' hlength'
  by_cases hroom : t.frames.length < t.depth
  · rw [makeRoom_of_room hroom]
    simp [offers, serve, offer, hroom]
  · -- the first offer is refused, and the second finds room
    have hdiscard := t.discard_spec
    have hroom' : t.discard.frames.length < t.discard.depth := by omega
    rw [makeRoom_of_full (Nat.le_of_not_lt hroom)]
    simp [offers, serve, offer, hroom, hroom']

/-- Publishing ends with the second offer at the latest, and does what `publish` says. -/
def PublishEnds (q : FrameQueue α) : Prop :=
  ∀ blank frame,
    (∀ first second, (offers frame [first, second] (q.nextBuffer blank).2).isSome = true) ∧
      offers frame [([], []), ([], [])] (q.nextBuffer blank).2 = some (q.publish blank frame).2

theorem publishEnds {q : FrameQueue α} (hdepth : 1 ≤ q.depth)
    (hlength : q.frames.length ≤ q.depth) : q.PublishEnds := by
  intro blank frame
  refine ⟨fun first second => ?_, offers_undisturbed hdepth hlength blank frame⟩
  refine isSome_offers ?_ ?_ frame first second <;> rw [nextBuffer_eq]
  · exact hdepth
  · exact hlength

end DotMatrix.FrameQueue
