import DotMatrix.Exchange.FrameSlot
import Mathlib.Data.List.Induction
import Mathlib.Data.List.Infix
import Mathlib.Data.List.Perm.Basic

/-!
# Frames and buffers of a slot

A producer publishes frames through a slot, and a consumer takes them and gives the buffers back.
Buffers carry numbers here, so that none can be lost or doubled unnoticed. The consumer gets what
was published last, if it was neither taken nor cleared since, and every buffer that was ever made
is in one place (`bounded_exchange`). A consumer that holds one buffer at a time makes do with
three of them.
-/

namespace DotMatrix.FrameSlot

variable {α : Type}

/-- A buffer is the same buffer whatever it holds. -/
structure Buffer (α : Type) where
  number : Nat
  content : α
deriving DecidableEq, Repr, Inhabited

inductive Operation (α : Type) where
  /-- The producer fills its buffer and publishes it. -/
  | publish (content : α)
  | take
  /-- The consumer gives back a buffer that it holds, with whatever it has put there. -/
  | giveBack (index : Nat) (content : α)
  /-- The consumer hands in a buffer that it has made itself. -/
  | donate (content : α)
  | clear
deriving DecidableEq, Repr, Inhabited

namespace Operation

/-- The frame that an operation publishes. -/
def frame? : Operation α → Option α
  | publish content => some content
  | _ => none

def isReturn : Operation α → Bool
  | giveBack _ _ | donate _ => true
  | _ => false

def isDonation : Operation α → Bool
  | donate _ => true
  | _ => false

end Operation

/-- The frames that operations publish, in order. -/
def framesOf (ops : List (Operation α)) : List α := ops.filterMap Operation.frame?

/-- The last frame that was published, if nothing was taken or cleared since. -/
def Unread (ops : List (Operation α)) (content : α) : Prop :=
  ∃ before after, ops = before ++ .publish content :: after ∧ ∀ op ∈ after, op.isReturn = true

/-- A slot with its producer and its consumer, and a record of what became of the frames. -/
structure Exchange (α : Type) where
  slot : FrameSlot (Buffer α)
  /-- The buffer that the producer fills. -/
  drawn : Buffer α
  /-- The buffers that the consumer holds. -/
  held : List (Buffer α)
  /-- The number of buffers made so far. -/
  made : Nat
  delivered : List α
  /-- The number of frames that were cleared. -/
  cleared : Nat
deriving Inhabited

namespace Exchange

variable [Inhabited α]

def start : Exchange α := ⟨.empty, ⟨0, default⟩, [], 1, [], 0⟩

def step (x : Exchange α) : Operation α → Exchange α
  | .publish content =>
    let (next, slot) := x.slot.publish ⟨x.made, default⟩ { x.drawn with content }
    -- the blank buffer exists only if the producer goes on in it
    { x with slot, drawn := next, made := if next.number = x.made then x.made + 1 else x.made }
  | .take =>
    let (frame, slot) := x.slot.take
    { x with
      slot
      held := x.held ++ frame.toList
      delivered := x.delivered ++ frame.toList.map Buffer.content }
  | .giveBack index content =>
    match x.held[index]? with
    | some buffer =>
      { x with
        slot := x.slot.giveBack { buffer with content }
        held := x.held.eraseIdx index }
    | none => x
  | .donate content =>
    { x with slot := x.slot.giveBack ⟨x.made, content⟩, made := x.made + 1 }
  | .clear =>
    { x with slot := x.slot.clear, cleared := x.cleared + x.slot.ready.toList.length }

def run (x : Exchange α) (ops : List (Operation α)) : Exchange α := ops.foldl step x

omit [Inhabited α] in
/-- All buffers, wherever they are. -/
def buffers (x : Exchange α) : List (Buffer α) :=
  x.drawn :: (x.slot.ready.toList ++ x.slot.spare ++ x.held)

theorem run_concat (x : Exchange α) (ops : List (Operation α)) (op : Operation α) :
    x.run (ops ++ [op]) = (x.run ops).step op := by
  simp [run]

/-- What every operation keeps, operations one after another keep. -/
theorem run_invariant {P : Exchange α → Prop} (hstep : ∀ x op, P x → P (x.step op))
    {x : Exchange α} (h : P x) (ops : List (Operation α)) : P (x.run ops) := by
  induction ops generalizing x with
  | nil => exact h
  | cons op ops ih => exact ih (hstep x op h)

/-! ## Steps -/

/-- The producer goes on in the frame that it displaced. -/
theorem publish_of_ready {x : Exchange α} {old : Buffer α} (h : x.slot.ready = some old)
    (hnumber : old.number ≠ x.made) (content : α) :
    x.step (.publish content) =
      { x with
        slot := ⟨some { x.drawn with content }, x.slot.spare, x.slot.published + 1,
          x.slot.dropped + 1⟩
        drawn := old } := by
  simp [step, FrameSlot.publish, h, hnumber]

/-- Or else in the spare buffer that was given back last. -/
theorem publish_of_spare {x : Exchange α} {buffer : Buffer α} {spare : List (Buffer α)}
    (hready : x.slot.ready = none) (h : x.slot.spare = buffer :: spare)
    (hnumber : buffer.number ≠ x.made) (content : α) :
    x.step (.publish content) =
      { x with
        slot := ⟨some { x.drawn with content }, spare, x.slot.published + 1, x.slot.dropped⟩
        drawn := buffer } := by
  simp [step, FrameSlot.publish, hready, h, hnumber]

/-- Or else in a new one. -/
theorem publish_of_none {x : Exchange α} (hready : x.slot.ready = none)
    (h : x.slot.spare = []) (content : α) :
    x.step (.publish content) =
      { x with
        slot := ⟨some { x.drawn with content }, [], x.slot.published + 1, x.slot.dropped⟩
        drawn := ⟨x.made, default⟩
        made := x.made + 1 } := by
  simp [step, FrameSlot.publish, hready, h]

/-! ## Buffers -/

/-- The operation needs a buffer that was not there before. -/
def makes (x : Exchange α) : Operation α → Bool
  | .publish _ => x.slot.ready.isNone && x.slot.spare.isEmpty
  | .donate _ => true
  | _ => false

omit [Inhabited α] in
/-- Every buffer that was made is in one place. -/
def Circulates (x : Exchange α) : Prop :=
  (x.buffers.map Buffer.number).Perm (List.range x.made)

theorem circulates_start : (start : Exchange α).Circulates := List.Perm.refl _

namespace Circulates

variable {x : Exchange α} (h : x.Circulates)
include h

omit [Inhabited α]

theorem made_eq :
    x.made = 1 + x.slot.ready.toList.length + x.slot.spare.length + x.held.length := by
  have hlength := h.length_eq
  simp only [buffers, List.length_map, List.length_cons, List.length_append,
    List.length_range] at hlength
  omega

/-- The next buffer to be made is none of those that there are. -/
theorem number_ne {buffer : Buffer α} (hbuffer : buffer ∈ x.buffers) :
    buffer.number ≠ x.made := by
  have hmem := h.mem_iff.1 (List.mem_map_of_mem hbuffer)
  rw [List.mem_range] at hmem
  omega

variable [Inhabited α]

theorem publish (content : α) :
    (x.step (.publish content)).Circulates ∧
      (x.step (.publish content)).made =
        if x.makes (.publish content) then x.made + 1 else x.made := by
  unfold Circulates at h ⊢
  cases hready : x.slot.ready with
  | some old =>
    have hnumber : old.number ≠ x.made := number_ne h (by simp [buffers, hready])
    rw [publish_of_ready hready hnumber]
    -- the frame that waited and the producer's buffer change places
    refine ⟨?_, by simp [makes, hready]⟩
    simp only [buffers, hready] at h ⊢
    exact (List.Perm.swap _ _ _).trans h
  | none =>
    cases hspare : x.slot.spare with
    | cons buffer spare =>
      have hnumber : buffer.number ≠ x.made := number_ne h (by simp [buffers, hready, hspare])
      rw [publish_of_spare hready hspare hnumber]
      refine ⟨?_, by simp [makes, hspare]⟩
      simp only [buffers, hready, hspare] at h ⊢
      exact (List.Perm.swap _ _ _).trans h
    | nil =>
      rw [publish_of_none hready hspare]
      refine ⟨?_, by simp [makes, hready, hspare]⟩
      simp only [buffers, hready, hspare, List.range_succ] at h ⊢
      -- the new buffer comes first, and its number last
      exact (h.cons x.made).trans (List.perm_append_singleton x.made _).symm

theorem giveBack (index : Nat) (content : α) :
    (x.step (.giveBack index content)).Circulates := by
  cases hheld : x.held[index]? with
  | none =>
    have hstep : x.step (.giveBack index content) = x := by simp [Exchange.step, hheld]
    rw [hstep]
    exact h
  | some buffer =>
    obtain ⟨hindex, hbuffer⟩ := List.getElem?_eq_some_iff.1 hheld
    have htaken : (buffer :: x.held.eraseIdx index).Perm x.held :=
      hbuffer ▸ List.getElem_cons_eraseIdx_perm hindex
    -- its number moves from the held buffers to the spare ones
    have hmoved : (buffer :: (x.slot.spare ++ x.held.eraseIdx index)).Perm
        (x.slot.spare ++ x.held) :=
      List.perm_middle.symm.trans (htaken.append_left x.slot.spare)
    have hnumbers := (hmoved.append_left (x.drawn :: x.slot.ready.toList)).map Buffer.number
    unfold Circulates at h ⊢
    simp only [buffers, Exchange.step, FrameSlot.giveBack, hheld, List.map_append, List.map_cons,
      List.cons_append, List.append_assoc] at h hnumbers ⊢
    exact hnumbers.trans h

theorem donate (content : α) : (x.step (.donate content)).Circulates := by
  unfold Circulates at h ⊢
  simp only [buffers, Exchange.step, FrameSlot.giveBack, List.map_append, List.map_cons,
    List.range_succ, List.append_assoc, List.cons_append] at h ⊢
  -- the new buffer comes first, and its number last
  have hfirst : ∀ (front back : List Nat) (n : Nat),
      (front ++ n :: back).Perm (front ++ back ++ [n]) :=
    fun front back n => List.perm_middle.trans (List.perm_append_singleton n _).symm
  refine (hfirst (x.drawn.number :: x.slot.ready.toList.map Buffer.number) _ x.made).trans ?_
  simpa using h.append_right [x.made]

theorem clear : (x.step .clear).Circulates := by
  unfold Circulates at h ⊢
  cases hready : x.slot.ready with
  | none => simpa [buffers, Exchange.step, FrameSlot.clear, hready] using h
  | some frame => simpa [buffers, Exchange.step, FrameSlot.clear, hready] using h

theorem take : (x.step .take).Circulates := by
  -- the frame that waited is the last that the consumer holds now
  have hmoved : ∀ first middle last : List (Buffer α),
      (middle ++ (last ++ first)).Perm (first ++ middle ++ last) := by
    intro first middle last
    rw [List.append_assoc, ← List.append_assoc middle]
    exact List.perm_append_comm
  exact ((hmoved _ x.slot.spare x.held).cons x.drawn).map Buffer.number |>.trans h

/-- No operation loses a buffer, and new ones are made only where the slot has none to go on in. -/
theorem step (op : Operation α) :
    (x.step op).Circulates ∧ (x.step op).made = if x.makes op then x.made + 1 else x.made := by
  cases op with
  | publish content => exact h.publish content
  | take => exact ⟨h.take, rfl⟩
  | giveBack index content =>
    refine ⟨h.giveBack index content, ?_⟩
    unfold Exchange.step
    dsimp only
    split <;> rfl
  | donate content => exact ⟨h.donate content, rfl⟩
  | clear => exact ⟨h.clear, rfl⟩

end Circulates

theorem circulates_run (ops : List (Operation α)) : (start.run ops).Circulates :=
  run_invariant (fun _ op h => (h.step op).1) circulates_start ops

/-- The consumer hands in no buffer of its own making, and never holds more than a number. -/
structure Borrows (limit : Nat) (ops : List (Operation α)) : Prop where
  own : ∀ op ∈ ops, op.isDonation = false
  few : ∀ before, before <+: ops → (start.run before).held.length ≤ limit

/-- Of the buffers that there are when a new one is made, the producer has one and the consumer
the others. -/
theorem made_le {limit : Nat} {ops : List (Operation α)} (h : Borrows limit ops) :
    (start.run ops).made ≤ limit + 2 := by
  induction ops using List.reverseRecOn with
  | nil => exact Nat.le_add_left 1 (limit + 1)
  | append_singleton ops op ih =>
    have hbefore : Borrows limit ops :=
      ⟨fun op hop => h.own op (List.mem_append_left _ hop),
        fun before hinit => h.few before (hinit.trans (List.prefix_append ops [op]))⟩
    have hmade := ih hbefore
    have hcirculates := circulates_run ops
    rw [run_concat, (hcirculates.step op).2]
    cases hmakes : (start.run ops).makes op with
    | false => simpa using hmade
    | true =>
      have hheld := hbefore.few ops (List.prefix_refl ops)
      have hcount := hcirculates.made_eq
      cases op with
      | publish content =>
        -- nothing waits and nothing is spare
        simp only [makes, Bool.and_eq_true, Option.isNone_iff_eq_none, List.isEmpty_iff] at hmakes
        rw [hmakes.1, hmakes.2] at hcount
        simp only [Option.toList_none, List.length_nil] at hcount
        simp only [if_true]
        omega
      | donate content =>
        have hown := h.own (.donate content) (List.mem_append_right _ List.mem_cons_self)
        cases hown
      | take => cases hmakes
      | giveBack index content => cases hmakes
      | clear => cases hmakes

/-! ## Frames -/

/-- The operations so far are accounted for: what waits is what is unread, and every frame was
delivered, dropped or cleared, or waits. -/
structure Accounts (x : Exchange α) (ops : List (Operation α)) : Prop where
  unread : ∀ content, x.slot.ready.map Buffer.content = some content ↔ Unread ops content
  order : (x.delivered ++ x.slot.ready.toList.map Buffer.content).Sublist (framesOf ops)
  published : x.slot.published = (framesOf ops).length
  count : x.slot.published =
    x.delivered.length + x.slot.dropped + x.cleared + x.slot.ready.toList.length

end Exchange

theorem not_unread_nil (content : α) : ¬ Unread [] content := by
  rintro ⟨before, after, hops, -⟩
  simp at hops

/-- An operation makes its own frame unread, and a return leaves unread what was. -/
theorem unread_concat (ops : List (Operation α)) (op : Operation α) (content : α) :
    Unread (ops ++ [op]) content ↔
      op = .publish content ∨ (op.isReturn = true ∧ Unread ops content) := by
  constructor
  · rintro ⟨before, after, hops, hreturns⟩
    rcases List.eq_nil_or_concat' after with rfl | ⟨rest, last, rfl⟩
    · exact .inl (List.cons.inj (List.append_inj' hops rfl).2).1
    · -- the last operation is one of the returns
      rw [← List.cons_append, ← List.append_assoc] at hops
      obtain ⟨hrest, hlast⟩ := List.append_inj' hops rfl
      rw [(List.cons.inj hlast).1]
      exact .inr ⟨hreturns last (by simp), before, rest, hrest,
        fun op hop => hreturns op (List.mem_append_left _ hop)⟩
  · rintro (rfl | ⟨hreturn, before, after, rfl, hreturns⟩)
    · exact ⟨ops, [], rfl, by simp⟩
    · refine ⟨before, after ++ [op], by simp, ?_⟩
      intro later hlater
      rcases List.mem_append.1 hlater with hmem | hmem
      · exact hreturns later hmem
      · rw [List.mem_singleton.1 hmem]
        exact hreturn

theorem framesOf_concat (ops : List (Operation α)) (op : Operation α) :
    framesOf (ops ++ [op]) = framesOf ops ++ op.frame?.toList := by
  unfold framesOf
  rw [List.filterMap_append]
  cases h : op.frame? <;> simp [h]

namespace Exchange

variable [Inhabited α] {x : Exchange α} {ops : List (Operation α)}

theorem accounts_start : (start : Exchange α).Accounts [] :=
  ⟨fun content => by simp [start, FrameSlot.empty, not_unread_nil],
    List.Sublist.refl [], rfl, rfl⟩

namespace Accounts

variable (h : x.Accounts ops)
include h

theorem publish (content : α) :
    (x.step (.publish content)).Accounts (ops ++ [.publish content]) := by
  -- wherever the next buffer comes from, the frame is the one that waits now
  have hslot : (x.step (.publish content)).slot.ready = some { x.drawn with content } ∧
      (x.step (.publish content)).slot.published = x.slot.published + 1 ∧
      (x.step (.publish content)).slot.dropped = x.slot.dropped + x.slot.ready.toList.length := by
    simp only [step, FrameSlot.publish]
    split <;> simp_all
  obtain ⟨hready, hpublished, hdropped⟩ := hslot
  have hframes : framesOf (ops ++ [.publish content]) = framesOf ops ++ [content] :=
    framesOf_concat ops _
  refine ⟨fun last => ?_, ?_, ?_, ?_⟩
  · rw [hready, unread_concat]
    simp [Operation.isReturn]
  · rw [hready, hframes]
    exact ((List.sublist_append_left _ _).trans h.order).append (List.Sublist.refl [content])
  · rw [hpublished, hframes, h.published]
    simp
  · have hcount := h.count
    rw [hpublished, hdropped, hready]
    show x.slot.published + 1 = x.delivered.length + _ + x.cleared + 1
    omega

theorem take : (x.step .take).Accounts (ops ++ [.take]) := by
  have hframes : framesOf (ops ++ [.take]) = framesOf ops := by
    simp [framesOf_concat, Operation.frame?]
  refine ⟨fun last => ?_, ?_, ?_, ?_⟩
  · rw [unread_concat]
    simp [step, FrameSlot.take, Operation.isReturn]
  · rw [hframes]
    simpa [step, FrameSlot.take] using h.order
  · rw [hframes]
    exact h.published
  · have hcount := h.count
    simp only [step, FrameSlot.take, List.length_append, List.length_map, Option.toList_none,
      List.length_nil]
    omega

theorem clear : (x.step .clear).Accounts (ops ++ [.clear]) := by
  have hframes : framesOf (ops ++ [.clear]) = framesOf ops := by
    simp [framesOf_concat, Operation.frame?]
  have hslot : x.slot.clear.ready = none ∧ x.slot.clear.published = x.slot.published ∧
      x.slot.clear.dropped = x.slot.dropped := by
    unfold FrameSlot.clear
    split <;> simp_all
  obtain ⟨hready, hpublished, hdropped⟩ := hslot
  refine ⟨fun last => ?_, ?_, ?_, ?_⟩
  · rw [unread_concat]
    simp [step, hready, Operation.isReturn]
  · rw [hframes]
    simp only [step, hready, Option.toList_none, List.map_nil, List.append_nil]
    exact (List.sublist_append_left _ _).trans h.order
  · rw [hframes]
    exact hpublished.trans h.published
  · have hcount := h.count
    simp only [step, hready, hpublished, hdropped, Option.toList_none, List.length_nil]
    omega

/-- A buffer that comes back changes nothing about the frames. -/
theorem of_return {op : Operation α} (hreturn : op.isReturn = true) :
    (x.step op).Accounts (ops ++ [op]) := by
  have hframe : op.frame? = none := by cases op <;> first | rfl | cases hreturn
  have hframes : framesOf (ops ++ [op]) = framesOf ops := by simp [framesOf_concat, hframe]
  have hsame : (x.step op).slot.ready = x.slot.ready ∧
      (x.step op).slot.published = x.slot.published ∧
      (x.step op).slot.dropped = x.slot.dropped ∧
      (x.step op).delivered = x.delivered ∧ (x.step op).cleared = x.cleared := by
    cases op with
    | giveBack index content =>
      simp only [step]
      split <;> exact ⟨rfl, rfl, rfl, rfl, rfl⟩
    | donate content => exact ⟨rfl, rfl, rfl, rfl, rfl⟩
    | publish content => cases hreturn
    | take => cases hreturn
    | clear => cases hreturn
  obtain ⟨hready, hpublished, hdropped, hdelivered, hcleared⟩ := hsame
  refine ⟨fun last => ?_, ?_, ?_, ?_⟩
  · rw [unread_concat, hready, h.unread]
    simp only [hreturn, true_and]
    refine ⟨.inr, fun hcase => hcase.resolve_left ?_⟩
    rintro rfl
    cases hreturn
  · rw [hready, hdelivered, hframes]
    exact h.order
  · rw [hpublished, hframes]
    exact h.published
  · rw [hpublished, hdropped, hdelivered, hcleared, hready]
    exact h.count

theorem step (op : Operation α) : (x.step op).Accounts (ops ++ [op]) := by
  cases op with
  | publish content => exact h.publish content
  | take => exact h.take
  | giveBack index content => exact h.of_return rfl
  | donate content => exact h.of_return rfl
  | clear => exact h.clear

end Accounts

theorem accounts_run (ops : List (Operation α)) :
    ((start : Exchange α).run ops).Accounts ops := by
  induction ops using List.reverseRecOn with
  | nil => exact accounts_start
  | append_singleton ops op ih =>
    rw [run_concat]
    exact ih.step op

end Exchange

/-! ## The exchange -/

/-- Whatever producer and consumer do, taking gives the frame that was published last, if nothing
was taken or cleared since, and nothing otherwise. So frames are delivered in the order in which
they were published, each at most once, and those that are not delivered were dropped or cleared,
or one still waits. Every buffer that was made is in one place, a new one is made only when the
slot has none to go on in, and a consumer that never holds more than a number of buffers makes do
with two more. -/
theorem bounded_exchange [Inhabited α] (ops : List (Operation α)) :
    let x := (Exchange.start : Exchange α).run ops
    (∀ content, x.slot.take.1.map Buffer.content = some content ↔ Unread ops content) ∧
      x.delivered.Sublist (framesOf ops) ∧
      x.slot.published = (framesOf ops).length ∧
      x.slot.published =
        x.delivered.length + x.slot.dropped + x.cleared + x.slot.ready.toList.length ∧
      (x.buffers.map Buffer.number).Perm (List.range x.made) ∧
      (∀ op, (x.step op).made = if x.makes op then x.made + 1 else x.made) ∧
      ∀ limit, Exchange.Borrows limit ops → x.made ≤ limit + 2 := by
  intro x
  have haccounts := Exchange.accounts_run ops
  have hcirculates := Exchange.circulates_run ops
  exact ⟨haccounts.unread, (List.sublist_append_left _ _).trans haccounts.order,
    haccounts.published, haccounts.count, hcirculates, fun op => (hcirculates.step op).2,
    fun limit hlimit => Exchange.made_le hlimit⟩

/-- The consumer holds the first frame while two more are published. -/
def slowConsumer : List (Operation Nat) := [.publish 1, .take, .publish 2, .publish 3]

/-- Three buffers are needed, and three are enough. -/
theorem bounded_exchange_slowConsumer :
    Exchange.Borrows 1 slowConsumer ∧ ((Exchange.start).run slowConsumer).made = 3 ∧
      ((Exchange.start).run slowConsumer).slot.take.1.map Buffer.content = some 3 := by
  have hborrows : Exchange.Borrows 1 slowConsumer := by
    refine ⟨by decide, fun before hinit => ?_⟩
    -- there are five states on the way
    have hall : ∀ ops ∈ slowConsumer.inits, (Exchange.start.run ops).held.length ≤ 1 := by decide
    exact hall before ((List.mem_inits before slowConsumer).2 hinit)
  obtain ⟨hunread, -, -, -, -, -, hbound⟩ := bounded_exchange slowConsumer
  exact ⟨hborrows, Nat.le_antisymm (hbound 1 hborrows) (by decide),
    (hunread 3).2 ⟨[.publish 1, .take, .publish 2], [], rfl, nofun⟩⟩

end DotMatrix.FrameSlot
