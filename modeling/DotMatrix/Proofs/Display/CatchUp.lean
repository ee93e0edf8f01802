import DotMatrix.Display
import Mathlib.Tactic.SplitIfs

/-!
# Catching up

The display is told the time at moments that nobody chose for it, and enters all phases that have
begun since. `catchUp_catchUp` says that catching up with one display clock and then with a later
one is catching up with the later one, and `update_update` that it does not matter how often the
display is told the time on the way.
-/

namespace DotMatrix.Display

/-! ## Events -/

namespace Events

def none : Events := ⟨0, false⟩

def join (a b : Events) : Events := ⟨a.requests ||| b.requests, a.boundary || b.boundary⟩

theorem none_join (a : Events) : none.join a = a := by
  simp [none, join]

theorem join_none (a : Events) : a.join none = a := by
  simp [none, join]

theorem join_assoc (a b c : Events) : (a.join b).join c = a.join (b.join c) := by
  simp [join, UInt8.or_assoc, Bool.or_assoc]

end Events

/-! ## Entering phases one by one -/

/-- What a display has when it enters a phase does not depend on when it was last told the
time. -/
def withNow (d : Display) (now : Nat) : Display := { d with now }

theorem drawLine_withNow (d : Display) (now line : Nat) :
    (d.withNow now).drawLine line = (d.drawLine line).withNow now := by
  unfold drawLine
  split <;> rfl

theorem finishFrame_of_shown {d : Display} (h : d.swallow = 0) :
    d.finishFrame =
      { ({ d with windowLine := 0 } : Display).publish with frames := d.frames + 1 } :=
  if_pos h

theorem finishFrame_of_swallowed {d : Display} (h : d.swallow ≠ 0) :
    d.finishFrame = { d with windowLine := 0, swallow := d.swallow - 1 } :=
  if_neg h

theorem finishFrame_withNow (d : Display) (now : Nat) :
    (d.withNow now).finishFrame = d.finishFrame.withNow now := by
  by_cases h : d.swallow = 0
  · rw [finishFrame_of_shown h, finishFrame_of_shown (d := d.withNow now) h]
    rfl
  · rw [finishFrame_of_swallowed h, finishFrame_of_swallowed (d := d.withNow now) h]
    rfl

theorem enter_transfer (d : Display) (line : Nat) :
    d.enter (.transfer line) =
      if d.swallow = 0 then drawLine { d with videoOpen := false, objectsOpen := false } line
      else { d with videoOpen := false, objectsOpen := false } := rfl

theorem enter_vBlank (d : Display) (line : Nat) :
    d.enter (.vBlank line) = if line = screenHeight then d.finishFrame else d := rfl

theorem enter_withNow (d : Display) (now : Nat) (phase : Phase) :
    (d.withNow now).enter phase = (d.enter phase).withNow now := by
  cases phase with
  | objectScan line => rfl
  | transfer line =>
    rw [enter_transfer, enter_transfer]
    by_cases h : d.swallow = 0
    · rw [if_pos h, if_pos (show (d.withNow now).swallow = 0 from h)]
      exact drawLine_withNow { d with videoOpen := false, objectsOpen := false } now line
    · rw [if_neg h, if_neg (show (d.withNow now).swallow ≠ 0 from h)]
      rfl
  | hBlank line => rfl
  | vBlank line =>
    rw [enter_vBlank, enter_vBlank]
    split
    · exact finishFrame_withNow d now
    · rfl

theorem enterNext_withNow (d : Display) (now : Nat) :
    (d.withNow now).enterNext = (d.enterNext.1.withNow now, d.enterNext.2) := by
  unfold enterNext
  dsimp only
  rw [show (d.withNow now).nextEvent = d.nextEvent from rfl, enter_withNow]
  cases Phase.ofClock d.nextEvent <;> rfl

theorem catchUp_of_le {d : Display} {clock : Nat} (h : d.nextEvent ≤ clock) (events : Events) :
    d.catchUp clock events = d.enterNext.1.catchUp clock (events.join d.enterNext.2) := by
  rw [catchUp, dif_pos h]
  rfl

theorem catchUp_of_lt {d : Display} {clock : Nat} (h : clock < d.nextEvent) (events : Events) :
    d.catchUp clock events = (d, events) := by
  rw [catchUp, dif_neg (by omega)]

/-- Catching up goes phase by phase: what holds of a display that has entered all phases, and of
one that has a phase to enter when it holds of it afterwards, holds of every display. -/
theorem catchUp_induction (clock : Nat) {motive : Display → Prop}
    (done : ∀ d, clock < d.nextEvent → motive d)
    (enter : ∀ d, d.nextEvent ≤ clock → motive d.enterNext.1 → motive d) (d : Display) :
    motive d := by
  by_cases h : d.nextEvent ≤ clock
  · have := d.lt_nextEvent_enterNext
    exact enter d h (catchUp_induction clock done enter d.enterNext.1)
  · exact done d (by omega)
termination_by clock + 1 - d.nextEvent
decreasing_by omega

theorem catchUp_events (d : Display) (clock : Nat) (events : Events) :
    d.catchUp clock events =
      ((d.catchUp clock .none).1, events.join (d.catchUp clock .none).2) := by
  -- `events` is an accumulator, so the induction is over all its values
  induction d using catchUp_induction clock generalizing events with
  | done d h => simp [catchUp_of_lt h, Events.join_none]
  | enter d h ih =>
    rw [catchUp_of_le h, catchUp_of_le h, ih, ih (Events.none.join _)]
    simp only [Events.none_join, Events.join_assoc]

/-- Catching up with a display clock and then with a later one is catching up with the later
one. -/
theorem catchUp_catchUp (d : Display) {clock₁ clock₂ : Nat} (h : clock₁ ≤ clock₂) :
    (d.catchUp clock₁ .none).1.catchUp clock₂ (d.catchUp clock₁ .none).2 =
      d.catchUp clock₂ .none := by
  induction d using catchUp_induction clock₁ with
  | done d hdone => rw [catchUp_of_lt hdone]
  | enter d henter ih =>
    -- the phase is due at both clocks; its events move out of the accumulators
    rw [catchUp_of_le henter, catchUp_of_le (by omega : d.nextEvent ≤ clock₂),
      catchUp_events _ clock₁, catchUp_events _ clock₂ (Events.none.join _), ← ih]
    rw [catchUp_events _ clock₂, catchUp_events _ clock₂ (d.enterNext.1.catchUp clock₁ .none).2]
    simp only [Events.join_assoc]

theorem catchUp_withNow (d : Display) (now clock : Nat) (events : Events) :
    (d.withNow now).catchUp clock events =
      ((d.catchUp clock events).1.withNow now, (d.catchUp clock events).2) := by
  induction d using catchUp_induction clock generalizing events with
  | done d h => rw [catchUp_of_lt h, catchUp_of_lt (d := d.withNow now) h]
  | enter d h ih =>
    rw [catchUp_of_le h, catchUp_of_le (d := d.withNow now) h, enterNext_withNow, ih]

/-! ## What stays as it is -/

/-- Two displays that differ only in what catching up changes. -/
structure SameSetup (d e : Display) : Prop where
  vram : e.vram = d.vram
  oam : e.oam = d.oam
  registers : e.registers = d.registers
  now : e.now = d.now
  startAt : e.startAt = d.startAt
  running : e.running = d.running

theorem SameSetup.refl (d : Display) : d.SameSetup d := ⟨rfl, rfl, rfl, rfl, rfl, rfl⟩

theorem SameSetup.trans {d e f : Display} (h : d.SameSetup e) (h' : e.SameSetup f) :
    d.SameSetup f :=
  ⟨h'.vram.trans h.vram, h'.oam.trans h.oam, h'.registers.trans h.registers, h'.now.trans h.now,
    h'.startAt.trans h.startAt, h'.running.trans h.running⟩

theorem sameSetup_drawLine (d : Display) (line : Nat) : d.SameSetup (d.drawLine line) := by
  unfold drawLine
  split <;> exact ⟨rfl, rfl, rfl, rfl, rfl, rfl⟩

theorem sameSetup_finishFrame (d : Display) : d.SameSetup d.finishFrame := by
  by_cases h : d.swallow = 0
  · rw [finishFrame_of_shown h]
    exact ⟨rfl, rfl, rfl, rfl, rfl, rfl⟩
  · rw [finishFrame_of_swallowed h]
    exact ⟨rfl, rfl, rfl, rfl, rfl, rfl⟩

theorem sameSetup_enter (d : Display) (phase : Phase) : d.SameSetup (d.enter phase) := by
  cases phase with
  | objectScan line => exact ⟨rfl, rfl, rfl, rfl, rfl, rfl⟩
  | transfer line =>
    have hclosed : d.SameSetup { d with videoOpen := false, objectsOpen := false } :=
      ⟨rfl, rfl, rfl, rfl, rfl, rfl⟩
    rw [enter_transfer]
    split
    · exact hclosed.trans (sameSetup_drawLine _ line)
    · exact hclosed
  | hBlank line => exact ⟨rfl, rfl, rfl, rfl, rfl, rfl⟩
  | vBlank line =>
    rw [enter_vBlank]
    split
    · exact sameSetup_finishFrame d
    · exact .refl d

theorem sameSetup_enterNext (d : Display) : d.SameSetup d.enterNext.1 :=
  have h := sameSetup_enter d (Phase.ofClock d.nextEvent)
  ⟨h.vram, h.oam, h.registers, h.now, h.startAt, h.running⟩

theorem sameSetup_catchUp (d : Display) (clock : Nat) (events : Events) :
    d.SameSetup (d.catchUp clock events).1 := by
  induction d using catchUp_induction clock generalizing events with
  | done d h =>
    rw [catchUp_of_lt h]
    exact .refl d
  | enter d h ih =>
    rw [catchUp_of_le h]
    exact (sameSetup_enterNext d).trans (ih _)

/-! ## Frames shown -/

/-- The frame that entering the next phase shows, if it shows one. -/
def shownNext (d : Display) : List Frame :=
  if Phase.ofClock d.nextEvent = .vBlank screenHeight ∧ d.swallow = 0 then [d.frame] else []

/-- The frames shown on the way to a display clock, in order. -/
def shownBy (d : Display) (clock : Nat) : List Frame :=
  if _h : d.nextEvent ≤ clock then
    have : d.nextEvent < d.enterNext.1.nextEvent := d.lt_nextEvent_enterNext
    d.shownNext ++ d.enterNext.1.shownBy clock
  else []
termination_by clock + 1 - d.nextEvent
decreasing_by omega

theorem shownBy_of_le {d : Display} {clock : Nat} (h : d.nextEvent ≤ clock) :
    d.shownBy clock = d.shownNext ++ d.enterNext.1.shownBy clock := by
  rw [shownBy, dif_pos h]

theorem shownBy_of_lt {d : Display} {clock : Nat} (h : clock < d.nextEvent) :
    d.shownBy clock = [] := by
  rw [shownBy, dif_neg (by omega)]

/-- What the consumer's side of the exchange becomes when frames are shown one after another. -/
def showAll (slot : FrameSlot Frame) (frames : List Frame) : FrameSlot Frame :=
  frames.foldl (fun slot frame => (slot.publish Frame.blank frame).2) slot

theorem showAll_append (slot : FrameSlot Frame) (f g : List Frame) :
    showAll slot (f ++ g) = showAll (showAll slot f) g :=
  List.foldl_append

theorem slot_drawLine (d : Display) (line : Nat) :
    (d.drawLine line).slot = d.slot ∧ (d.drawLine line).frames = d.frames := by
  unfold drawLine
  split <;> exact ⟨rfl, rfl⟩

theorem slot_enter (d : Display) (phase : Phase) :
    (d.enter phase).slot =
        showAll d.slot (if phase = .vBlank screenHeight ∧ d.swallow = 0 then [d.frame] else []) ∧
      (d.enter phase).frames =
        d.frames + if phase = .vBlank screenHeight ∧ d.swallow = 0 then 1 else 0 := by
  cases phase with
  | objectScan line => exact ⟨rfl, rfl⟩
  | transfer line =>
    rw [enter_transfer]
    split
    · exact slot_drawLine { d with videoOpen := false, objectsOpen := false } line
    · exact ⟨rfl, rfl⟩
  | hBlank line => exact ⟨rfl, rfl⟩
  | vBlank line =>
    rw [enter_vBlank]
    by_cases hline : line = screenHeight
    · subst hline
      by_cases hswallow : d.swallow = 0
      · rw [if_pos rfl, finishFrame_of_shown hswallow, if_pos ⟨rfl, hswallow⟩,
          if_pos ⟨rfl, hswallow⟩]
        exact ⟨rfl, rfl⟩
      · rw [if_pos rfl, finishFrame_of_swallowed hswallow, if_neg (fun h => hswallow h.2),
          if_neg (fun h => hswallow h.2)]
        exact ⟨rfl, rfl⟩
    · -- the later lines of the vertical blank show nothing
      have hphase : Phase.vBlank line ≠ .vBlank screenHeight := fun h => hline (Phase.vBlank.inj h)
      rw [if_neg hline, if_neg (fun h => hphase h.1), if_neg (fun h => hphase h.1)]
      exact ⟨rfl, rfl⟩

theorem slot_enterNext (d : Display) :
    d.enterNext.1.slot = showAll d.slot d.shownNext ∧
      d.enterNext.1.frames = d.frames + d.shownNext.length := by
  obtain ⟨hslot, hframes⟩ := slot_enter d (Phase.ofClock d.nextEvent)
  refine ⟨hslot, hframes.trans ?_⟩
  unfold shownNext
  split <;> rfl

theorem slot_catchUp (d : Display) (clock : Nat) (events : Events) :
    (d.catchUp clock events).1.slot = showAll d.slot (d.shownBy clock) ∧
      (d.catchUp clock events).1.frames = d.frames + (d.shownBy clock).length := by
  induction d using catchUp_induction clock generalizing events with
  | done d h =>
    rw [catchUp_of_lt h, shownBy_of_lt h]
    exact ⟨rfl, rfl⟩
  | enter d h ih =>
    obtain ⟨hslot, hframes⟩ := slot_enterNext d
    rw [catchUp_of_le h, shownBy_of_le h, showAll_append, ← hslot, List.length_append,
      ← Nat.add_assoc, ← hframes]
    exact ih _

theorem shownBy_withNow (d : Display) (now clock : Nat) :
    (d.withNow now).shownBy clock = d.shownBy clock := by
  induction d using catchUp_induction clock with
  | done d h => rw [shownBy_of_lt h, shownBy_of_lt (d := d.withNow now) h]
  | enter d h ih =>
    rw [shownBy_of_le h, shownBy_of_le (d := d.withNow now) h, enterNext_withNow, ih]
    rfl

theorem shownBy_append (d : Display) {clock₁ clock₂ : Nat} (h : clock₁ ≤ clock₂) :
    d.shownBy clock₁ ++ (d.catchUp clock₁ .none).1.shownBy clock₂ = d.shownBy clock₂ := by
  induction d using catchUp_induction clock₁ with
  | done d hdone => rw [shownBy_of_lt hdone, catchUp_of_lt hdone, List.nil_append]
  | enter d henter ih =>
    rw [shownBy_of_le henter, shownBy_of_le (by omega : d.nextEvent ≤ clock₂),
      catchUp_of_le henter, catchUp_events, List.append_assoc, ih]

/-! ## Telling the time -/

def begin (d : Display) (now : Nat) : Display :=
  { d with now, running := true, nextEvent := 0, phase := none, windowLine := 0 }

/-- The display that catches up when it is told the time, and the display clock that it catches
up with. There is none while the display is off or its start is delayed. -/
def awake? (d : Display) (now : Nat) : Option (Display × Nat) :=
  match d.startAt with
  | none => none
  | some start =>
    if d.running then some (d.withNow now, now - start)
    else if now < start then none
    else some (d.begin now, now - start)

/-- The frames that the display shows when it is told the time, in order. -/
def shown (d : Display) (now : Nat) : List Frame :=
  match d.awake? now with
  | none => []
  | some (awake, clock) => awake.shownBy clock

theorem update_eq (d : Display) (now : Nat) :
    d.update now =
      match d.startAt with
      | none => (d.withNow now, .none)
      | some start =>
        if d.running then (d.withNow now).catchUp (now - start) .none
        else if now < start then (d.withNow now, .none)
        else (d.begin now).catchUp (now - start) .none := rfl

theorem update_of_asleep {d : Display} {now : Nat} (h : d.awake? now = none) :
    d.update now = (d.withNow now, .none) := by
  rw [update_eq]
  unfold awake? at h
  cases hstart : d.startAt with
  | none => rfl
  | some start =>
    rw [hstart] at h
    by_cases hrunning : d.running = true
    · simp [hrunning] at h
    · by_cases hwait : now < start
      · simp only [if_neg hrunning, if_pos hwait]
      · simp [hrunning, hwait] at h

theorem update_of_awake {d awake : Display} {now clock : Nat}
    (h : d.awake? now = some (awake, clock)) : d.update now = awake.catchUp clock .none := by
  rw [update_eq]
  unfold awake? at h
  cases hstart : d.startAt with
  | none => simp [hstart] at h
  | some start =>
    rw [hstart] at h
    by_cases hrunning : d.running = true
    · simp only [if_pos hrunning, Option.some.injEq, Prod.mk.injEq] at h ⊢
      rw [h.1, h.2]
    · by_cases hwait : now < start
      · simp [hrunning, hwait] at h
      · simp only [if_neg hrunning, if_neg hwait, Option.some.injEq, Prod.mk.injEq] at h ⊢
        rw [h.1, h.2]

theorem awake?_eq_some_iff {d awake : Display} {now clock : Nat} :
    d.awake? now = some (awake, clock) ↔
      ∃ start, d.startAt = some start ∧ clock = now - start ∧
        (d.running = true ∧ awake = d.withNow now ∨
          d.running = false ∧ start ≤ now ∧ awake = d.begin now) := by
  unfold awake?
  cases hstart : d.startAt with
  | none => simp
  | some start =>
    cases hrunning : d.running with
    | true => simp [and_comm, eq_comm]
    | false =>
      by_cases hwait : now < start
      · simp [hwait, Nat.not_le.2 hwait]
      · simp only [Bool.false_eq_true, if_false, if_neg hwait, Option.some.injEq, Prod.mk.injEq,
          exists_eq_left', false_and, false_or, true_and]
        constructor
        · rintro ⟨rfl, rfl⟩
          exact ⟨rfl, by omega, rfl⟩
        · rintro ⟨rfl, -, rfl⟩
          exact ⟨rfl, rfl⟩

theorem wait_of_asleep {d : Display} {now start : Nat} (h : d.awake? now = none)
    (hstart : d.startAt = some start) : d.running = false ∧ now < start := by
  unfold awake? at h
  rw [hstart] at h
  cases hrunning : d.running with
  | true => simp [hrunning] at h
  | false =>
    refine ⟨rfl, Nat.lt_of_not_le fun hdue => ?_⟩
    simp [hrunning, Nat.not_lt.2 hdue] at h

/-- A display that catches up now would also do so later. -/
theorem awake?_of_le {d awake : Display} {t₁ t₂ clock : Nat} (ht : t₁ ≤ t₂)
    (h : d.awake? t₁ = some (awake, clock)) :
    ∃ later, clock ≤ later ∧ d.awake? t₂ = some (awake.withNow t₂, later) := by
  obtain ⟨start, hstart, rfl, hcase⟩ := awake?_eq_some_iff.1 h
  refine ⟨t₂ - start, by omega, awake?_eq_some_iff.2 ⟨start, hstart, rfl, ?_⟩⟩
  rcases hcase with ⟨hrunning, rfl⟩ | ⟨hrunning, hdue, rfl⟩
  · exact .inl ⟨hrunning, rfl⟩
  · exact .inr ⟨hrunning, by omega, rfl⟩

theorem awake?_of_sameSetup {d awake e : Display} {t now clock later : Nat}
    (h : d.awake? t = some (awake, clock)) (hsame : awake.SameSetup e)
    (hlater : d.awake? now = some (awake.withNow now, later)) :
    e.awake? now = some (e.withNow now, later) := by
  obtain ⟨start, hstart, rfl, hcase⟩ := awake?_eq_some_iff.1 h
  obtain ⟨start', hstart', rfl, -⟩ := awake?_eq_some_iff.1 hlater
  -- whichever way it came to catch up, it is running now
  have hawake : awake.startAt = some start' ∧ awake.running = true := by
    rcases hcase with ⟨hrunning, rfl⟩ | ⟨hrunning, hdue, rfl⟩
    · exact ⟨hstart', hrunning⟩
    · exact ⟨hstart', rfl⟩
  exact awake?_eq_some_iff.2 ⟨start', hsame.startAt.trans hawake.1, rfl,
    .inl ⟨hsame.running.trans hawake.2, rfl⟩⟩

/-- What telling the time does to the exchange is to show the frames of `shown`. -/
theorem slot_update (d : Display) (now : Nat) :
    (d.update now).1.slot = showAll d.slot (d.shown now) ∧
      (d.update now).1.frames = d.frames + (d.shown now).length := by
  unfold shown
  cases hawake : d.awake? now with
  | none =>
    rw [update_of_asleep hawake]
    exact ⟨rfl, rfl⟩
  | some pair =>
    obtain ⟨awake, clock⟩ := pair
    obtain ⟨start, -, -, hcase⟩ := awake?_eq_some_iff.1 hawake
    -- to begin to run does not touch the exchange
    have hsame : awake.slot = d.slot ∧ awake.frames = d.frames := by
      rcases hcase with ⟨-, rfl⟩ | ⟨-, -, rfl⟩ <;> exact ⟨rfl, rfl⟩
    rw [update_of_awake hawake, ← hsame.1, ← hsame.2]
    exact slot_catchUp awake clock .none

theorem clocks_update (d : Display) (now : Nat) :
    (d.update now).1.now = now ∧ (d.update now).1.startAt = d.startAt := by
  cases hawake : d.awake? now with
  | none =>
    rw [update_of_asleep hawake]
    exact ⟨rfl, rfl⟩
  | some pair =>
    obtain ⟨awake, clock⟩ := pair
    obtain ⟨start, -, -, hcase⟩ := awake?_eq_some_iff.1 hawake
    have hsame := sameSetup_catchUp awake clock .none
    rw [update_of_awake hawake, hsame.now, hsame.startAt]
    rcases hcase with ⟨-, rfl⟩ | ⟨-, -, rfl⟩ <;> exact ⟨rfl, rfl⟩

theorem now_update (d : Display) (now : Nat) : (d.update now).1.now = now :=
  (d.clocks_update now).1

theorem startAt_update (d : Display) (now : Nat) : (d.update now).1.startAt = d.startAt :=
  (d.clocks_update now).2

/-- What the program has written stays as it is. -/
theorem contents_update (d : Display) (now : Nat) :
    (d.update now).1.vram = d.vram ∧ (d.update now).1.oam = d.oam ∧
      (d.update now).1.registers = d.registers := by
  cases hawake : d.awake? now with
  | none =>
    rw [update_of_asleep hawake]
    exact ⟨rfl, rfl, rfl⟩
  | some pair =>
    obtain ⟨awake, clock⟩ := pair
    obtain ⟨start, -, -, hcase⟩ := awake?_eq_some_iff.1 hawake
    have hsame := sameSetup_catchUp awake clock .none
    rw [update_of_awake hawake, hsame.vram, hsame.oam, hsame.registers]
    rcases hcase with ⟨-, rfl⟩ | ⟨-, -, rfl⟩ <;> exact ⟨rfl, rfl, rfl⟩

/-- Telling the time on the way, with what happened on both stretches as one. -/
theorem update_join (d : Display) (t rest : Nat) :
    ((d.update t).1.update (t + rest)).1 = (d.update (t + rest)).1 ∧
      (d.update t).2.join ((d.update t).1.update (t + rest)).2 = (d.update (t + rest)).2 ∧
      d.shown t ++ (d.update t).1.shown (t + rest) = d.shown (t + rest) := by
  cases hawake : d.awake? t with
  | none =>
    -- the first stretch only changed when the display was told the time last
    have hsame : (d.withNow t).update (t + rest) = d.update (t + rest) := rfl
    have hshown : d.shown t = [] := by
      unfold shown
      rw [hawake]
    rw [update_of_asleep hawake, hsame, hshown, Events.none_join]
    exact ⟨rfl, rfl, rfl⟩
  | some pair =>
    obtain ⟨awake, clock⟩ := pair
    -- the second stretch catches up from where the first one ended, and the whole from the start
    obtain ⟨later, hle, hlater⟩ := awake?_of_le (Nat.le_add_right t rest) hawake
    have hgoesOn := awake?_of_sameSetup hawake (sameSetup_catchUp awake clock .none) hlater
    have hwhole := catchUp_catchUp awake hle
    rw [catchUp_events] at hwhole
    rw [update_of_awake hawake, update_of_awake hgoesOn, update_of_awake hlater, catchUp_withNow,
      catchUp_withNow, ← hwhole]
    refine ⟨rfl, rfl, ?_⟩
    unfold shown
    rw [hawake, hgoesOn, hlater]
    simp only [shownBy_withNow]
    exact shownBy_append awake hle

/-- Being told the time on the way changes nothing: the display is the same in the end, what
happened on both stretches together is what happened on the whole, and the same frames are shown
in the same order. -/
theorem update_update (d : Display) (t rest : Nat) :
    let first := d.update t
    let second := first.1.update (t + rest)
    let whole := d.update (t + rest)
    second.1 = whole.1 ∧
      whole.2.requests = first.2.requests ||| second.2.requests ∧
      whole.2.boundary = (first.2.boundary || second.2.boundary) ∧
      d.shown (t + rest) = d.shown t ++ first.1.shown (t + rest) ∧
      whole.1.slot = showAll d.slot (d.shown (t + rest)) := by
  obtain ⟨hdisplay, hevents, hshown⟩ := update_join d t rest
  refine ⟨hdisplay, ?_, ?_, hshown.symm, (slot_update d (t + rest)).1⟩
  · rw [← hevents]
    rfl
  · rw [← hevents]
    rfl

end DotMatrix.Display
