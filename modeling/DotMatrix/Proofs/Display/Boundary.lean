import DotMatrix.Proofs.Display.Freshness
import DotMatrix.Proofs.Display.Gating

/-!
# The beginning of a period

A display that is told the time reports whether a refresh period has begun since it was told last.
It tells this from the phase that it entered last, so that phase must be the one before the next
(`Tracked`). `boundary_update` says when the report comes for a display that runs on: as soon as
the clock reaches the next period.
-/

namespace DotMatrix.Display

/-! ## Which phases begin a period -/

/-- The phase that was entered last is the one before the next. -/
def Tracked (d : Display) : Prop :=
  ∃ phase, d.phase = some phase ∧ phase.next = Phase.ofClock d.nextEvent

theorem tracked_enterNext (d : Display) : d.enterNext.1.Tracked :=
  ⟨Phase.ofClock d.nextEvent, rfl, (ofClock_nextChange d.nextEvent).symm⟩

theorem tracked_catchUp {d : Display} (h : d.Tracked) (clock : Nat) (events : Events) :
    (d.catchUp clock events).1.Tracked := by
  induction d using catchUp_induction clock generalizing events with
  | done d hdone =>
    rw [catchUp_of_lt hdone]
    exact h
  | enter d henter ih =>
    rw [catchUp_of_le henter]
    exact ih d.tracked_enterNext _

/-- The first line is scanned after the last line of a vertical blank. -/
theorem isBoundary_of_next {phase : Phase} :
    isBoundary (some phase) phase.next = true ↔ phase.next = .objectScan 0 := by
  cases phase with
  | objectScan line => simp [Phase.next, isBoundary]
  | transfer line => simp [Phase.next, isBoundary]
  | hBlank line =>
    rw [Phase.next_hBlank]
    split <;> simp [isBoundary]
  | vBlank line =>
    rw [Phase.next_vBlank]
    split <;> simp [isBoundary]

theorem Tracked.boundary_enterNext {d : Display} (h : d.Tracked) :
    d.enterNext.2.boundary = true ↔ Phase.ofClock d.nextEvent = .objectScan 0 := by
  obtain ⟨phase, hphase, hnext⟩ := h
  show isBoundary d.phase (Phase.ofClock d.nextEvent) = true ↔ _
  rw [hphase, ← hnext]
  exact isBoundary_of_next

/-! ## Catching up -/

/-- The first display clock after the given one at which a period begins. -/
def nextPeriod (clock : Nat) : Nat := (clock / refreshPeriod + 1) * refreshPeriod

theorem lt_nextPeriod (clock : Nat) : clock < nextPeriod clock := by
  unfold nextPeriod refreshPeriod
  omega

theorem nextPeriod_le (clock : Nat) : nextPeriod clock ≤ clock + refreshPeriod := by
  unfold nextPeriod refreshPeriod
  omega

theorem nextPeriod_of_lt {start clock : Nat} (hle : start ≤ clock)
    (hlt : clock < nextPeriod start) :
    nextPeriod clock = nextPeriod start := by
  unfold nextPeriod refreshPeriod at *
  omega

/-- A phase ends at the latest with its period. -/
theorem nextChange_le_nextPeriod (clock : Nat) : nextChange clock ≤ nextPeriod clock := by
  rcases period_nextChange clock with ⟨hsame, -⟩ | ⟨hend, -⟩
  · have hlt := lt_nextPeriod (nextChange clock)
    unfold nextPeriod at *
    rw [hsame] at hlt
    exact Nat.le_of_lt hlt
  · exact Nat.le_of_eq hend

/-- Catching up reports a boundary if the period of the phase that was entered last is over. -/
theorem boundary_catchUp {d : Display} {entered clock : Nat} (h : d.Tracked)
    (hnext : d.nextEvent = nextChange entered) :
    (d.catchUp clock .none).2.boundary = true ↔ nextPeriod entered ≤ clock := by
  -- each round enters a phase, so the clock that was entered last moves along
  induction d using catchUp_induction clock generalizing entered with
  | done d hdone =>
    have hle := nextChange_le_nextPeriod entered
    rw [catchUp_of_lt hdone]
    simp only [Events.none, Bool.false_eq_true, false_iff]
    omega
  | enter d henter ih =>
    have hrest := ih d.tracked_enterNext rfl
    have hjoin : (d.catchUp clock .none).2.boundary =
        (d.enterNext.2.boundary || (d.enterNext.1.catchUp clock .none).2.boundary) := by
      rw [catchUp_of_le henter, catchUp_events, Events.none_join]
      rfl
    rw [hjoin, Bool.or_eq_true, hrest, h.boundary_enterNext, hnext]
    rcases period_nextChange entered with ⟨hsame, hscan⟩ | ⟨hend, hscan⟩
    · -- the phase belongs to the same period as the one before
      unfold nextPeriod
      rw [hsame]
      exact or_iff_right hscan
    · have hbegun : nextPeriod entered ≤ clock := by
        rw [show nextPeriod entered = nextChange entered from hend.symm, ← hnext]
        exact henter
      exact iff_of_true (.inl hscan) hbegun

/-! ## Telling the time -/

theorem tracked_update {d : Display} (h : d.running = true → d.Tracked) (now : Nat) :
    (d.update now).1.running = true → (d.update now).1.Tracked := by
  cases hawake : d.awake? now with
  | none =>
    rw [update_of_asleep hawake]
    exact h
  | some pair =>
    obtain ⟨awake, clock⟩ := pair
    obtain ⟨start, -, -, hcase⟩ := awake?_eq_some_iff.1 hawake
    rw [update_of_awake hawake]
    intro _
    rcases hcase with ⟨hrunning, rfl⟩ | ⟨-, -, rfl⟩
    · exact tracked_catchUp (d := d.withNow now) (h hrunning) clock .none
    -- a display that begins to run has no phase, but it enters the first one at once
    · rw [catchUp_of_le (show (d.begin now).nextEvent ≤ clock from Nat.zero_le _)]
      exact tracked_catchUp (tracked_enterNext _) clock _

/-- A display that runs on reports a boundary as soon as its clock reaches the next period. -/
theorem boundary_update {d : Display} (hgated : d.Gated) (htracked : d.Tracked) {start : Nat}
    (hrunning : d.running = true) (hstart : d.startAt = some start) (now : Nat) :
    (d.update now).2.boundary = true ↔ nextPeriod (d.now - start) ≤ now - start := by
  obtain ⟨start', entered, hstart', -, hle, hlt, hentered⟩ := hgated.awake hrunning
  obtain rfl := Option.some.inj (hstart'.symm.trans hstart)
  -- no period has begun between the phase that was entered last and the present time
  have hsame : nextPeriod (d.now - start') = nextPeriod entered := by
    have hchange := nextChange_le_nextPeriod entered
    rw [hentered.next] at hlt
    exact nextPeriod_of_lt hle (Nat.lt_of_lt_of_le hlt hchange)
  have hawake : d.awake? now = some (d.withNow now, now - start') :=
    awake?_eq_some_iff.2 ⟨start', hstart, rfl, .inl ⟨hrunning, rfl⟩⟩
  rw [update_of_awake hawake, hsame]
  exact boundary_catchUp htracked hentered.next

/-- A display that was told the time runs if it ran before, or if its start is over. -/
theorem running_update {d : Display} {now : Nat} (h : (d.update now).1.running = true) :
    d.running = true ∨ ∃ start, d.startAt = some start ∧ start ≤ now := by
  cases hawake : d.awake? now with
  | none =>
    rw [update_of_asleep hawake] at h
    exact .inl h
  | some pair =>
    obtain ⟨awake, clock⟩ := pair
    obtain ⟨start, hstart, -, hcase⟩ := awake?_eq_some_iff.1 hawake
    rcases hcase with ⟨hrunning, -⟩ | ⟨-, hdue, -⟩
    · exact .inl hrunning
    · exact .inr ⟨start, hstart, hdue⟩

/-! ## Writing -/

/-- What writing can make of a display that runs: it runs on, or it was switched off, and if it
was switched on again since, its start is delayed. -/
inductive Continues (d : Display) (e : Display) : Prop where
  | on (now : e.now = d.now) (startAt : e.startAt = d.startAt) (running : e.running = d.running)
      (phase : e.phase = d.phase) (nextEvent : e.nextEvent = d.nextEvent)
  | off (now : e.now = d.now) (running : e.running = false)
      (delay : ∀ start, e.startAt = some start → start = d.now + startDelay)

theorem Continues.refl (d : Display) : d.Continues d := .on rfl rfl rfl rfl rfl

theorem Continues.trans {d e f : Display} (hd : d.Continues e) (he : e.Continues f) :
    d.Continues f := by
  cases he with
  | on now startAt running phase nextEvent =>
    cases hd with
    | on now' startAt' running' phase' nextEvent' =>
      exact .on (now.trans now') (startAt.trans startAt') (running.trans running')
        (phase.trans phase') (nextEvent.trans nextEvent')
    | off now' running' delay' =>
      exact .off (now.trans now') (running.trans running') (fun start hstart =>
        delay' start (startAt.symm.trans hstart))
  | off now running delay =>
    have hnow : e.now = d.now := by
      cases hd with
      | on now' _ _ _ _ => exact now'
      | off now' _ _ => exact now'
    exact .off (now.trans hnow) running (fun start hstart => hnow ▸ delay start hstart)

theorem continues_toggle (d : Display) : d.Continues d.toggle := by
  rcases toggle_cases d with ⟨-, htoggle⟩ | ⟨-, htoggle, hrunning⟩ | ⟨-, htoggle⟩
  · rw [htoggle]
    exact .refl d
  · rw [htoggle]
    exact .off rfl hrunning (fun start hstart => (Option.some.inj hstart).symm)
  · rw [htoggle]
    exact .off rfl rfl nofun

theorem continues_write (d : Display) (addr : UInt16) (val : UInt8) :
    d.Continues (d.write addr val) := by
  unfold write
  dsimp only
  split
  · have hcontrol : d.Continues { d with registers := { d.registers with control := val } } :=
      .on rfl rfl rfl rfl rfl
    exact hcontrol.trans (continues_toggle _)
  all_goals exact .on rfl rfl rfl rfl rfl

theorem continues_writeVideo (d : Display) (i : Nat) (val : UInt8) :
    d.Continues (d.writeVideo i val) := by
  unfold writeVideo
  split <;> exact .on rfl rfl rfl rfl rfl

theorem continues_writeObjects (d : Display) (i : Nat) (val : UInt8) :
    d.Continues (d.writeObjects i val) := by
  unfold writeObjects
  split <;> exact .on rfl rfl rfl rfl rfl

theorem Continues.tracked {d e : Display} (h : d.Continues e) (hd : d.running = true → d.Tracked) :
    e.running = true → e.Tracked := by
  intro hrunning
  cases h with
  | on now startAt running phase nextEvent =>
    obtain ⟨p, hphase, hnext⟩ := hd (running ▸ hrunning)
    exact ⟨p, phase.trans hphase, by rw [nextEvent, hnext]⟩
  | off now running delay =>
    rw [running] at hrunning
    cases hrunning

/-! ## When the next period begins -/

/-- The display runs, and its next period begins by a time. -/
def BeginsBy (d : Display) (time : Nat) : Prop :=
  d.running = true ∧ ∃ start, d.startAt = some start ∧ start ≤ d.now ∧
    start + nextPeriod (d.now - start) ≤ time

section BeginsBy

variable {d e : Display} {time now : Nat}

theorem BeginsBy.now_lt (h : d.BeginsBy time) : d.now < time := by
  obtain ⟨-, start, -, hdue, hby⟩ := h
  have := lt_nextPeriod (d.now - start)
  omega

theorem BeginsBy.mono {later : Nat} (h : d.BeginsBy time) (hle : time ≤ later) :
    d.BeginsBy later := by
  obtain ⟨hrunning, start, hstart, hdue, hby⟩ := h
  exact ⟨hrunning, start, hstart, hdue, Nat.le_trans hby hle⟩

/-- A display that runs begins a period at least once in a period. -/
theorem Gated.beginsBy (h : d.Gated) (hrunning : d.running = true) :
    d.BeginsBy (d.now + refreshPeriod) := by
  obtain ⟨start, -, hstart, hdue, -⟩ := h.awake hrunning
  have := nextPeriod_le (d.now - start)
  exact ⟨hrunning, start, hstart, hdue, by omega⟩

/-- While no period begins, the next one begins when it would have begun. -/
theorem BeginsBy.update (h : d.BeginsBy time) (hgated : d.Gated) (htracked : d.Tracked)
    (hnow : d.now ≤ now) (hboundary : (d.update now).2.boundary = false) :
    (d.update now).1.BeginsBy time := by
  obtain ⟨hrunning, start, hstart, hdue, hby⟩ := h
  have hbefore : now - start < nextPeriod (d.now - start) := by
    have hiff := boundary_update hgated htracked hrunning hstart now
    rw [hboundary] at hiff
    simpa using hiff
  have hruns : (d.update now).1.running = true := by
    have hawake : d.awake? now = some (d.withNow now, now - start) :=
      awake?_eq_some_iff.2 ⟨start, hstart, rfl, .inl ⟨hrunning, rfl⟩⟩
    rw [update_of_awake hawake, (sameSetup_catchUp _ _ _).running]
    exact hrunning
  refine ⟨hruns, start, (startAt_update d now).trans hstart, ?_, ?_⟩
  · rw [now_update]
    omega
  · rw [now_update, nextPeriod_of_lt (by omega) hbefore]
    exact hby

/-- Writing does not put off the next period, unless the display is switched off. Then it stays
off for longer than a start is delayed. -/
theorem BeginsBy.continues (h : d.BeginsBy time) (hc : d.Continues e)
    (hnow : now < d.now + startDelay) (hrunning : (e.update now).1.running = true) :
    e.BeginsBy time := by
  obtain ⟨hruns, start, hstart, hdue, hby⟩ := h
  cases hc with
  | on now' startAt running phase nextEvent =>
    exact ⟨running.trans hruns, start, startAt.trans hstart, now' ▸ hdue, by rw [now']; exact hby⟩
  | off now' running delay =>
    rcases running_update hrunning with hon | ⟨start', hstart', hdue'⟩
    · rw [running] at hon
      cases hon
    · have := delay start' hstart'
      omega

end BeginsBy

end DotMatrix.Display
