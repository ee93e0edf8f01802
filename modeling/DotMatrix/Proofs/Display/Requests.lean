import DotMatrix.Proofs.Display.Boundary
import Mathlib.Order.Interval.Finset.Nat

/-!
# Interrupts and pictures of a stretch of time

A display enters phase after phase when it is told the time, and each phase may request interrupts
or end a picture. `update_exact` says what all of them come to: which interrupts are requested, and
how many pictures are shown, depends only on what begins between the time that the display was told
last and the present time. The first picture after the display was switched on is swallowed, so the
displays in question are those that the program can bring about (`Reachable`).
-/

namespace DotMatrix.Display

/-! ## Interrupts -/

/-- A register setting has a phase request the status interrupt. -/
def Registers.Signals (r : Registers) : Phase → Prop
  | .objectScan line =>
    anySet r.status 0x20 = true ∨ line = r.lineCompare.toNat ∧ anySet r.status 0x40 = true
  | .transfer _ => False
  | .hBlank _ => anySet r.status 0x08 = true
  | .vBlank line =>
    line = screenHeight ∧ anySet r.status 0x10 = true ∨
      line = r.lineCompare.toNat ∧ anySet r.status 0x40 = true

/-- A register setting has a phase request the interrupt of this number. -/
def Registers.Requests (r : Registers) (phase : Phase) (k : Nat) : Prop :=
  k = 0 ∧ phase = .vBlank screenHeight ∨ k = 1 ∧ r.Signals phase

theorem testBit_vBlankInterrupt (k : Nat) : vBlankInterrupt.toNat.testBit k = decide (k = 0) := by
  show (2 ^ 0).testBit k = _
  rw [Nat.testBit_two_pow]
  exact decide_eq_decide.2 eq_comm

theorem testBit_statusRequest (d : Display) (source : UInt8) (k : Nat) :
    (d.statusRequest source).toNat.testBit k =
      (anySet d.registers.status source && decide (k = 1)) := by
  unfold statusRequest bitsIf
  cases anySet d.registers.status source with
  | false => exact Nat.zero_testBit k
  | true =>
    show (2 ^ 1).testBit k = _
    rw [Nat.testBit_two_pow]
    exact decide_eq_decide.2 eq_comm

theorem testBit_compareRequest (d : Display) (line k : Nat) :
    (d.compareRequest line).toNat.testBit k =
      (decide (line = d.registers.lineCompare.toNat) &&
        (anySet d.registers.status 0x40 && decide (k = 1))) := by
  unfold compareRequest coincidence
  by_cases h : line = d.registers.lineCompare.toNat
  · simp only [h, decide_true, if_true, testBit_statusRequest, Bool.true_and]
  · simp only [h, decide_false, Bool.false_and]
    exact Nat.zero_testBit k

/-- What a phase requests. -/
theorem testBit_phaseRequests (d : Display) (phase : Phase) (k : Nat) :
    (d.phaseRequests phase).toNat.testBit k = true ↔ d.registers.Requests phase k := by
  unfold Registers.Requests
  cases phase with
  | objectScan line =>
    simp only [phaseRequests, UInt8.toNat_or, Nat.testBit_or, testBit_statusRequest,
      testBit_compareRequest, Registers.Signals, Bool.or_eq_true, Bool.and_eq_true,
      decide_eq_true_eq]
    grind
  | transfer line => simp [phaseRequests, Registers.Signals]
  | hBlank line =>
    simp only [phaseRequests, testBit_statusRequest, Registers.Signals, Bool.and_eq_true,
      decide_eq_true_eq]
    grind
  | vBlank line =>
    by_cases hline : line = screenHeight
    · simp only [phaseRequests, if_pos hline, UInt8.toNat_or, Nat.testBit_or,
        testBit_statusRequest, testBit_vBlankInterrupt, testBit_compareRequest, Registers.Signals,
        Bool.or_eq_true, Bool.and_eq_true, decide_eq_true_eq]
      grind
    · simp only [phaseRequests, if_neg hline, UInt8.zero_or, testBit_compareRequest,
        Registers.Signals, Bool.and_eq_true, decide_eq_true_eq]
      grind

/-- A display that catches up requests what the phases request that begin on the way. -/
theorem requests_catchUp {d : Display} {entered clock : Nat}
    (hnext : d.nextEvent = nextChange entered) (k : Nat) :
    (d.catchUp clock .none).2.requests.toNat.testBit k = true ↔
      ∃ period phase, phase.Occurs ∧ entered < phase.beginsAt period ∧
        phase.beginsAt period ≤ clock ∧ d.registers.Requests phase k := by
  -- each round enters a phase, so the clock that was entered last moves along
  induction d using catchUp_induction clock generalizing entered with
  | done d hdone =>
    rw [catchUp_of_lt hdone]
    refine iff_of_false (by simp [Events.none]) ?_
    rintro ⟨period, phase, hoccurs, hlt, hle, -⟩
    have := nextChange_le_beginsAt hoccurs hlt
    omega
  | enter d henter ih =>
    have hjoin : (d.catchUp clock .none).2.requests =
        d.phaseRequests (Phase.ofClock d.nextEvent) |||
          (d.enterNext.1.catchUp clock .none).2.requests := by
      rw [catchUp_of_le henter, catchUp_events, Events.none_join]
      rfl
    have hlt := lt_nextChange entered
    rw [hjoin, UInt8.toNat_or, Nat.testBit_or, Bool.or_eq_true, ih rfl, testBit_phaseRequests,
      (sameSetup_enterNext d).registers]
    constructor
    · rintro (hnow | ⟨period, phase, hoccurs, hafter, hle, hlater⟩)
      · obtain ⟨period, hbegins⟩ := exists_beginsAt_nextChange entered
        rw [← hnext] at hbegins
        exact ⟨period, _, occurs_ofClock _, by omega, by omega, hnow⟩
      · exact ⟨period, phase, hoccurs, by omega, hle, hlater⟩
    · rintro ⟨period, phase, hoccurs, hafter, hle, hrequests⟩
      have hfirst := nextChange_le_beginsAt hoccurs hafter
      rw [← hnext] at hfirst
      -- it begins now or later
      rcases Nat.eq_or_lt_of_le hfirst with heq | hlater
      · left
        rw [heq, ofClock_beginsAt period hoccurs]
        exact hrequests
      · exact .inr ⟨period, phase, hoccurs, hlater, hle, hrequests⟩

/-! ## Pictures -/

/-- Pictures that have ended by a display clock. -/
def picturesBy (clock : Nat) : Nat :=
  (clock + (refreshPeriod - clockAt 0 screenHeight 0)) / refreshPeriod

theorem picture_ends (period : Nat) :
    (Phase.vBlank screenHeight).beginsAt period = 65664 + 70224 * period := by
  show clockAt period screenHeight 0 = _
  unfold clockAt refreshPeriod screenHeight lineCycles
  omega

theorem picturesBy_eq (clock : Nat) : picturesBy clock = (clock + 4560) / 70224 := rfl

/-- The next change ends a picture if it is the vertical blank, and otherwise no picture has ended
in between. -/
theorem picturesBy_nextChange (clock : Nat) :
    picturesBy (nextChange clock) =
      picturesBy clock +
        if Phase.ofClock (nextChange clock) = .vBlank screenHeight then 1 else 0 := by
  have hoccurs : (Phase.vBlank screenHeight).Occurs := ⟨Nat.le_refl _, by decide⟩
  have hlt := lt_nextChange clock
  have hafter : clock < (Phase.vBlank screenHeight).beginsAt (picturesBy clock) := by
    rw [picture_ends, picturesBy_eq]
    omega
  have hle := nextChange_le_beginsAt hoccurs hafter
  rw [picture_ends] at hle
  split
  · rename_i hends
    obtain ⟨period, hbegins⟩ := exists_beginsAt_nextChange clock
    rw [hends, picture_ends] at hbegins
    rw [picturesBy_eq, picturesBy_eq] at *
    omega
  · rename_i hends
    have hne : nextChange clock ≠ 65664 + 70224 * picturesBy clock := by
      intro heq
      rw [heq, ← picture_ends, ofClock_beginsAt _ hoccurs] at hends
      exact hends rfl
    rw [picturesBy_eq, picturesBy_eq] at *
    omega

/-- Until the next change no picture ends. -/
theorem picturesBy_of_lt {start clock : Nat} (hle : start ≤ clock)
    (hlt : clock < nextChange start) : picturesBy clock = picturesBy start := by
  have hoccurs : (Phase.vBlank screenHeight).Occurs := ⟨Nat.le_refl _, by decide⟩
  have hafter : start < (Phase.vBlank screenHeight).beginsAt (picturesBy start) := by
    rw [picture_ends, picturesBy_eq]
    omega
  have hnext := nextChange_le_beginsAt hoccurs hafter
  rw [picture_ends] at hnext
  rw [picturesBy_eq, picturesBy_eq] at *
  omega

/-- Of the pictures that end since the display began to run, the first is swallowed and all later
ones are shown. -/
theorem pictures_catchUp {d : Display} {entered clock : Nat}
    (hnext : d.nextEvent = nextChange entered) (hle : entered ≤ clock)
    (hswallow : d.swallow = 1 - picturesBy entered) :
    (d.catchUp clock .none).1.swallow = 1 - picturesBy clock ∧
      (d.catchUp clock .none).1.frames + (picturesBy entered - 1) =
        d.frames + (picturesBy clock - 1) := by
  induction d using catchUp_induction clock generalizing entered with
  | done d hdone =>
    rw [catchUp_of_lt hdone, picturesBy_of_lt hle (hnext ▸ hdone)]
    exact ⟨hswallow, rfl⟩
  | enter d henter ih =>
    have hends := picturesBy_nextChange entered
    rw [← hnext] at hends
    have hframes : d.enterNext.1.frames = d.frames +
        if Phase.ofClock d.nextEvent = .vBlank screenHeight ∧ d.swallow = 0 then 1 else 0 :=
      (slot_enter d (Phase.ofClock d.nextEvent)).2
    have hleft : d.enterNext.1.swallow = 1 - picturesBy d.nextEvent := by
      rw [swallow_enterNext, hswallow, hends]
      split <;> omega
    obtain ⟨hlater, hshown⟩ := ih rfl henter hleft
    rw [catchUp_of_le henter, catchUp_events]
    refine ⟨hlater, ?_⟩
    dsimp only
    by_cases hblank : Phase.ofClock d.nextEvent = .vBlank screenHeight
    · rw [if_pos hblank] at hends
      by_cases hzero : d.swallow = 0
      · rw [if_pos ⟨hblank, hzero⟩] at hframes
        omega
      · rw [if_neg fun h => hzero h.2] at hframes
        omega
    · rw [if_neg hblank] at hends
      rw [if_neg fun h => hblank h.1] at hframes
      omega

/-! ## Reachable displays -/

/-- The displays that changes lead to, if the time that a display is told never goes back. -/
inductive Reachable : Display → Prop where
  | initial : Reachable initial
  | change {d : Display} (before : d.Reachable) (change : Change)
      (ordered : ∀ now, change = .update now → d.now ≤ now) : Reachable (change.apply d)

/-- A display that waits for its start has a picture to swallow, and one that runs has swallowed
the first picture since. -/
structure Swallows (d : Display) : Prop where
  waiting : d.startAt.isSome = true → d.running = false → d.swallow = 1
  awake : d.running = true → ∀ start, d.startAt = some start →
    d.swallow = 1 - picturesBy (d.now - start)

/-- What is known of a display whenever it can be told the time. -/
structure Regular (d : Display) : Prop where
  gated : d.Gated
  tracked : d.running = true → d.Tracked
  swallows : d.Swallows

theorem Swallows.of_eq {d e : Display} (h : d.Swallows) (hnow : e.now = d.now)
    (hstart : e.startAt = d.startAt) (hrunning : e.running = d.running)
    (hswallow : e.swallow = d.swallow) : e.Swallows := by
  refine ⟨?_, ?_⟩
  · rw [hstart, hrunning, hswallow]
    exact h.waiting
  · rw [hstart, hrunning, hnow, hswallow]
    exact h.awake

theorem swallows_toggle {d : Display} (h : d.Swallows) : d.toggle.Swallows := by
  rcases toggle_cases d with ⟨-, htoggle⟩ | ⟨-, htoggle, hrunning⟩ | ⟨-, htoggle⟩
  · rw [htoggle]
    exact h
  · rw [htoggle]
    refine ⟨fun _ _ => rfl, fun hon => ?_⟩
    exact absurd (hrunning.symm.trans hon) (by simp)
  · rw [htoggle]
    exact ⟨nofun, nofun⟩

theorem Swallows.write {d : Display} (h : d.Swallows) (addr : UInt16) (val : UInt8) :
    (d.write addr val).Swallows := by
  unfold Display.write
  dsimp only
  split
  · exact swallows_toggle (h.of_eq rfl rfl rfl rfl)
  all_goals exact h.of_eq rfl rfl rfl rfl

/-- A regular display that runs knows the phase of its clock and what it has swallowed. -/
theorem Regular.exists_entered {d : Display} (h : d.Regular) {start : Nat}
    (hrunning : d.running = true) (hstart : d.startAt = some start) :
    ∃ entered, entered ≤ d.now - start ∧ d.now - start < d.nextEvent ∧
      d.nextEvent = nextChange entered ∧ d.swallow = 1 - picturesBy entered := by
  obtain ⟨start', entered, hstart', -, hle, hlt, hentered⟩ := h.gated.awake hrunning
  obtain rfl := Option.some.inj (hstart'.symm.trans hstart)
  refine ⟨entered, hle, hlt, hentered.next, ?_⟩
  rw [h.swallows.awake hrunning start' hstart, picturesBy_of_lt hle (hentered.next ▸ hlt)]

theorem swallow_update {d : Display} (h : d.Regular) {now start : Nat} (hnow : d.now ≤ now)
    (hstart : d.startAt = some start) (hruns : (d.update now).1.running = true) :
    (d.update now).1.swallow = 1 - picturesBy (now - start) := by
  cases hawake : d.awake? now with
  | none =>
    rw [update_of_asleep hawake] at hruns
    have hasleep := (wait_of_asleep hawake hstart).1
    exact absurd (hasleep.symm.trans hruns) (by simp)
  | some pair =>
    obtain ⟨awake, clock⟩ := pair
    obtain ⟨start', hstart', rfl, hcase⟩ := awake?_eq_some_iff.1 hawake
    obtain rfl := Option.some.inj (hstart'.symm.trans hstart)
    rw [update_of_awake hawake]
    rcases hcase with ⟨hrunning, rfl⟩ | ⟨hasleep, hdue, rfl⟩
    · obtain ⟨entered, hle, -, hnext, hswallow⟩ := h.exists_entered hrunning hstart
      exact (pictures_catchUp (d := d.withNow now) hnext (by omega) hswallow).1
    -- a display that begins to run enters the first phase at once, and no picture ends with it
    · have hwaiting := h.swallows.waiting (by rw [hstart]; rfl) hasleep
      rw [catchUp_of_le (show (d.begin now).nextEvent ≤ now - start' from Nat.zero_le _),
        catchUp_events]
      have hnext : (d.begin now).enterNext.1.nextEvent = nextChange 0 := by
        show nextChange (d.begin now).nextEvent = nextChange 0
        rfl
      refine (pictures_catchUp hnext (Nat.zero_le _) ?_).1
      have hscan : Phase.ofClock (d.begin now).nextEvent ≠ .vBlank screenHeight := by
        show Phase.ofClock 0 ≠ .vBlank screenHeight
        decide
      rw [swallow_enterNext, if_neg hscan]
      exact hwaiting

theorem running_of_awake {d awake : Display} {now clock : Nat}
    (h : d.awake? now = some (awake, clock)) : (d.update now).1.running = true := by
  obtain ⟨start, -, -, hcase⟩ := awake?_eq_some_iff.1 h
  rw [update_of_awake h, (sameSetup_catchUp _ _ _).running]
  rcases hcase with ⟨hrunning, rfl⟩ | ⟨-, -, rfl⟩
  · exact hrunning
  · rfl

theorem waiting_update {d : Display} (h : d.Swallows) {now : Nat}
    (hstart : d.startAt.isSome = true) (hwaits : (d.update now).1.running = false) :
    (d.update now).1.swallow = 1 := by
  cases hawake : d.awake? now with
  | none =>
    rw [update_of_asleep hawake] at hwaits ⊢
    exact h.waiting hstart hwaits
  | some pair => exact absurd ((running_of_awake hawake).symm.trans hwaits) (by simp)

theorem Regular.update {d : Display} (h : d.Regular) {now : Nat} (hnow : d.now ≤ now) :
    (d.update now).1.Regular := by
  refine ⟨h.gated.update hnow, tracked_update h.tracked now, fun hstart hwaits => ?_,
    fun hruns start hstart => ?_⟩
  · rw [startAt_update] at hstart
    exact waiting_update h.swallows hstart hwaits
  · rw [startAt_update] at hstart
    rw [now_update]
    exact swallow_update h hnow hstart hruns

theorem regular_initial : initial.Regular :=
  ⟨gated_initial, nofun, nofun, nofun⟩

theorem Reachable.regular {d : Display} (h : d.Reachable) : d.Regular := by
  induction h with
  | initial => exact regular_initial
  | @change d before change ordered ih =>
    obtain ⟨hgated, htracked, hswallows⟩ := ih
    cases change with
    | write addr val =>
      exact ⟨hgated.write addr val, (continues_write d addr val).tracked htracked,
        hswallows.write addr val⟩
    | update now => exact Regular.update ⟨hgated, htracked, hswallows⟩ (ordered now rfl)
    | _ =>
      exact ⟨hgated.of_eq rfl rfl rfl rfl rfl rfl rfl, htracked, hswallows.of_eq rfl rfl rfl rfl⟩

/-! ## Updates of a display that runs -/

theorem awake?_of_running {d : Display} {start : Nat} (hrunning : d.running = true)
    (hstart : d.startAt = some start) (now : Nat) :
    d.awake? now = some (d.withNow now, now - start) :=
  awake?_eq_some_iff.2 ⟨start, hstart, rfl, .inl ⟨hrunning, rfl⟩⟩

theorem exists_nextPeriod_le {c₁ c₂ : Nat} :
    nextPeriod c₁ ≤ c₂ ↔ ∃ m, 1 ≤ m ∧ 70224 * m ∈ Finset.Ioc c₁ c₂ := by
  simp only [Finset.mem_Ioc]
  unfold nextPeriod refreshPeriod
  constructor
  · intro h
    exact ⟨c₁ / 70224 + 1, by omega, by omega, by omega⟩
  · rintro ⟨m, -, hlt, hle⟩
    omega

/-- The pictures that end in an interval, by the clocks at which they do. -/
theorem card_pictures (c₁ c₂ : Nat) :
    ((Finset.Ioc c₁ c₂).filter fun t => t % 70224 = 65664).card =
      picturesBy c₂ - picturesBy c₁ := by
  have himage : ((Finset.Ioc c₁ c₂).filter fun t => t % 70224 = 65664) =
      (Finset.Ico (picturesBy c₁) (picturesBy c₂)).image fun m => 65664 + 70224 * m := by
    ext t
    simp only [Finset.mem_filter, Finset.mem_Ioc, Finset.mem_image, Finset.mem_Ico, picturesBy_eq]
    constructor
    · rintro ⟨⟨hlt, hle⟩, hends⟩
      exact ⟨t / 70224, ⟨by omega, by omega⟩, by omega⟩
    · rintro ⟨m, ⟨hlow, hhigh⟩, rfl⟩
      omega
  rw [himage, Finset.card_image_of_injective _ fun m n h =>
    Nat.eq_of_mul_eq_mul_left (by decide) (Nat.add_left_cancel h), Nat.card_Ico]

/-- A display that runs requests what the phases request that begin in the meantime. -/
theorem Regular.requests_update {d : Display} (h : d.Regular) {start c₁ c₂ : Nat}
    (hrunning : d.running = true) (hstart : d.startAt = some start) (hnow : d.now = start + c₁)
    (k : Nat) :
    (d.update (start + c₂)).2.requests.toNat.testBit k = true ↔
      ∃ m phase, phase.Occurs ∧ phase.beginsAt m ∈ Finset.Ioc c₁ c₂ ∧
        d.registers.Requests phase k := by
  obtain ⟨entered, hle, hlt, hnext, -⟩ := h.exists_entered hrunning hstart
  rw [hnow, Nat.add_sub_cancel_left] at hle hlt
  rw [update_of_awake (awake?_of_running hrunning hstart _), Nat.add_sub_cancel_left,
    requests_catchUp (d := d.withNow (start + c₂)) hnext]
  simp only [Finset.mem_Ioc]
  -- no phase begins between the one that was entered last and the present time
  constructor
  · rintro ⟨m, phase, hoccurs, hafter, hdue, hrequests⟩
    have hfirst := nextChange_le_beginsAt hoccurs hafter
    exact ⟨m, phase, hoccurs, ⟨by omega, hdue⟩, hrequests⟩
  · rintro ⟨m, phase, hoccurs, ⟨hafter, hdue⟩, hrequests⟩
    exact ⟨m, phase, hoccurs, by omega, hdue, hrequests⟩

theorem Regular.frames_update {d : Display} (h : d.Regular) {start c₁ c₂ : Nat}
    (hrunning : d.running = true) (hstart : d.startAt = some start) (hnow : d.now = start + c₁)
    (hle : c₁ ≤ c₂) :
    (d.update (start + c₂)).1.frames + (picturesBy c₁ - 1) = d.frames + (picturesBy c₂ - 1) := by
  obtain ⟨entered, hentered, hlt, hnext, hswallow⟩ := h.exists_entered hrunning hstart
  rw [hnow, Nat.add_sub_cancel_left] at hentered hlt
  rw [update_of_awake (awake?_of_running hrunning hstart _), Nat.add_sub_cancel_left,
    picturesBy_of_lt hentered (hnext ▸ hlt)]
  exact (pictures_catchUp (d := d.withNow (start + c₂)) hnext (by omega) hswallow).2

theorem beginsAt_eq (m line : Nat) :
    (Phase.objectScan line).beginsAt m = 70224 * m + 456 * line ∧
      (Phase.hBlank line).beginsAt m = 70224 * m + 456 * line + 252 ∧
      (Phase.vBlank line).beginsAt m = 70224 * m + 456 * line := by
  simp only [Phase.beginsAt, clockAt, refreshPeriod, lineCycles, transferEnd]
  omega

/-- Something begins that requests the status interrupt: a pause, a line, the vertical blank or
the line that the comparison asks for. -/
theorem exists_signals {r : Registers} {P : Nat → Prop} :
    (∃ m phase, phase.Occurs ∧ P (phase.beginsAt m) ∧ r.Signals phase) ↔
      (anySet r.status 0x08 = true ∧ ∃ m, ∃ line < 144, P (70224 * m + 456 * line + 252)) ∨
      (anySet r.status 0x20 = true ∧ ∃ m, ∃ line < 144, P (70224 * m + 456 * line)) ∨
      (anySet r.status 0x10 = true ∧ ∃ m, P (70224 * m + 456 * 144)) ∨
      (anySet r.status 0x40 = true ∧
        ∃ m, ∃ line < 154, line = r.lineCompare.toNat ∧ P (70224 * m + 456 * line)) := by
  constructor
  · rintro ⟨m, phase, hoccurs, hbegins, hsignals⟩
    cases phase with
    | objectScan line =>
      have hline : line < 144 := hoccurs
      rw [(beginsAt_eq m line).1] at hbegins
      rcases hsignals with hscan | ⟨hcompare, hstatus⟩
      · exact .inr (.inl ⟨hscan, m, line, hline, hbegins⟩)
      · exact .inr (.inr (.inr ⟨hstatus, m, line, by omega, hcompare, hbegins⟩))
    | transfer line => exact hsignals.elim
    | hBlank line =>
      rw [(beginsAt_eq m line).2.1] at hbegins
      exact .inl ⟨hsignals, m, line, hoccurs, hbegins⟩
    | vBlank line =>
      rw [(beginsAt_eq m line).2.2] at hbegins
      rcases hsignals with ⟨rfl, hstatus⟩ | ⟨hcompare, hstatus⟩
      · exact .inr (.inr (.inl ⟨hstatus, m, hbegins⟩))
      · exact .inr (.inr (.inr ⟨hstatus, m, line, hoccurs.2, hcompare, hbegins⟩))
  · rintro (⟨hstatus, m, line, hline, hbegins⟩ | ⟨hstatus, m, line, hline, hbegins⟩ |
      ⟨hstatus, m, hbegins⟩ | ⟨hstatus, m, line, hline, hcompare, hbegins⟩)
    · exact ⟨m, .hBlank line, hline, (beginsAt_eq m line).2.1 ▸ hbegins, hstatus⟩
    · exact ⟨m, .objectScan line, hline, (beginsAt_eq m line).1 ▸ hbegins, .inl hstatus⟩
    · exact ⟨m, .vBlank 144, ⟨Nat.le_refl _, by decide⟩, (beginsAt_eq m 144).2.2 ▸ hbegins,
        .inl ⟨rfl, hstatus⟩⟩
    -- a line that is compared with is a visible one or not
    · by_cases hvisible : line < 144
      · exact ⟨m, .objectScan line, hvisible, (beginsAt_eq m line).1 ▸ hbegins,
          .inr ⟨hcompare, hstatus⟩⟩
      · exact ⟨m, .vBlank line, ⟨Nat.not_lt.1 hvisible, hline⟩,
          (beginsAt_eq m line).2.2 ▸ hbegins, .inr ⟨hcompare, hstatus⟩⟩

theorem exists_picture_ends {P : Nat → Prop} :
    (∃ m, ∃ phase : Phase, phase.Occurs ∧ P (phase.beginsAt m) ∧ phase = .vBlank screenHeight) ↔
      ∃ m, P (65664 + 70224 * m) := by
  constructor
  · rintro ⟨m, phase, -, hbegins, rfl⟩
    exact ⟨m, picture_ends m ▸ hbegins⟩
  · rintro ⟨m, hbegins⟩
    exact ⟨m, .vBlank screenHeight, ⟨Nat.le_refl _, by decide⟩, (picture_ends m).symm ▸ hbegins,
      rfl⟩

/-- However long a display that runs was not told the time, it requests the vertical blank
interrupt if a picture has ended since, and the status interrupt if something began that its
registers ask for. It reports a boundary if a period but the first began. It has shown every
picture that has ended except the first since it was switched on. -/
theorem update_exact {d : Display} (h : d.Reachable) {start c₁ c₂ : Nat}
    (hrunning : d.running = true) (hstart : d.startAt = some start) (hnow : d.now = start + c₁)
    (hle : c₁ ≤ c₂) :
    let result := d.update (start + c₂)
    let within := Finset.Ioc c₁ c₂
    (∀ k, result.2.requests.toNat.testBit k = true ↔
      (k = 0 ∧ ∃ m, 65664 + 70224 * m ∈ within) ∨
      (k = 1 ∧
        ((anySet d.registers.status 0x08 = true ∧
          ∃ m, ∃ line < 144, 70224 * m + 456 * line + 252 ∈ within) ∨
        (anySet d.registers.status 0x20 = true ∧
          ∃ m, ∃ line < 144, 70224 * m + 456 * line ∈ within) ∨
        (anySet d.registers.status 0x10 = true ∧ ∃ m, 70224 * m + 456 * 144 ∈ within) ∨
        (anySet d.registers.status 0x40 = true ∧
          ∃ m, ∃ line < 154, line = d.registers.lineCompare.toNat ∧
            70224 * m + 456 * line ∈ within)))) ∧
    (result.2.boundary = true ↔ ∃ m, 1 ≤ m ∧ 70224 * m ∈ within) ∧
    result.1.frames + (if 65664 ∈ within then 1 else 0) =
      d.frames + (within.filter fun t => t % 70224 = 65664).card := by
  intro result within
  have hregular := h.regular
  refine ⟨fun k => ?_, ?_, ?_⟩
  · rw [hregular.requests_update hrunning hstart hnow, ← exists_signals (P := (· ∈ within)),
      ← exists_picture_ends (P := (· ∈ within))]
    unfold Registers.Requests
    constructor
    · rintro ⟨m, phase, hoccurs, hbegins, ⟨rfl, hends⟩ | ⟨rfl, hsignals⟩⟩
      · exact .inl ⟨rfl, m, phase, hoccurs, hbegins, hends⟩
      · exact .inr ⟨rfl, m, phase, hoccurs, hbegins, hsignals⟩
    · rintro (⟨rfl, m, phase, hoccurs, hbegins, hends⟩ |
        ⟨rfl, m, phase, hoccurs, hbegins, hsignals⟩)
      · exact ⟨m, phase, hoccurs, hbegins, .inl ⟨rfl, hends⟩⟩
      · exact ⟨m, phase, hoccurs, hbegins, .inr ⟨rfl, hsignals⟩⟩
  · rw [boundary_update hregular.gated (hregular.tracked hrunning) hrunning hstart, hnow,
      Nat.add_sub_cancel_left, Nat.add_sub_cancel_left]
    exact exists_nextPeriod_le
  · have hframes : result.1.frames + (picturesBy c₁ - 1) = d.frames + (picturesBy c₂ - 1) :=
      hregular.frames_update hrunning hstart hnow hle
    rw [card_pictures]
    rw [picturesBy_eq, picturesBy_eq] at *
    simp only [within, Finset.mem_Ioc]
    split <;> omega

/-- A display that has just begun to run. It asks for the status interrupt on line 153. -/
def started : Display :=
  initial.perform [.write 0xFF40 0x80, .update 244, .write 0xFF41 0x40, .write 0xFF45 153]

theorem reachable_started : started.Reachable := by
  have hbegun : ((initial.write 0xFF40 0x80).update 244).1.Reachable := by
    refine .change (.change .initial (.write 0xFF40 0x80) (fun _ h => nomatch h)) (.update 244) ?_
    rintro now ⟨⟩
    exact Nat.zero_le 244
  exact .change (.change hbegun (.write 0xFF41 0x40) (fun _ h => nomatch h)) (.write 0xFF45 153)
    (fun _ h => nomatch h)

theorem update_exact_started :
    started.Reachable ∧ started.running = true ∧ started.startAt = some 244 ∧
      started.now = 244 + 0 ∧ 0 ≤ 136000 ∧
      (∀ k, (started.update (244 + 136000)).2.requests.toNat.testBit k = decide (k < 2)) ∧
      (started.update (244 + 136000)).2.boundary = true ∧
      (started.update (244 + 136000)).1.frames = started.frames + 1 := by
  have hrunning : started.running = true :=
    running_of_awake (awake?_eq_some_iff.2 ⟨244, rfl, rfl, .inr ⟨rfl, Nat.le_refl _, rfl⟩⟩)
  have hstart : started.startAt = some 244 := startAt_update _ _
  have hnow : started.now = 244 + 0 := now_update _ _
  obtain ⟨hrequests, hboundary, hframes⟩ :=
    update_exact reachable_started hrunning hstart hnow (Nat.zero_le 136000)
  refine ⟨reachable_started, hrunning, hstart, hnow, by decide, fun k => ?_, ?_, ?_⟩
  · rw [Bool.eq_iff_iff, hrequests, decide_eq_true_eq]
    constructor
    · rintro (⟨rfl, -⟩ | ⟨rfl, -⟩) <;> decide
    · intro hlt
      rcases Nat.lt_succ_iff_lt_or_eq.1 hlt with hzero | rfl
      · exact .inl ⟨by omega, 1, Finset.mem_Ioc.2 (by decide)⟩
      · exact .inr ⟨rfl, .inr (.inr (.inr
          ⟨rfl, 0, 153, by decide, rfl, Finset.mem_Ioc.2 (by decide)⟩))⟩
  · exact hboundary.2 ⟨1, by decide, Finset.mem_Ioc.2 (by decide)⟩
  -- two pictures have ended, and the first was swallowed
  · rw [card_pictures, if_pos (Finset.mem_Ioc.2 (by decide))] at hframes
    exact Nat.add_right_cancel hframes

end DotMatrix.Display
