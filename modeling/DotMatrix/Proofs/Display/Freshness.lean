import DotMatrix.Proofs.Display.Lines

/-!
# Fresh frames

The display draws into a buffer that it got back from the exchange, so the buffer may hold any old
frame. The history of a display lists the phases that it entered and when it was switched. While it
runs, the buffer shows the lines that it has transferred in the period (`Drawn`), and whether it is
still to swallow a frame depends on the phases since it was switched on. `published_fresh` says of
every frame that it publishes what is in it.
-/

namespace DotMatrix.Display

/-! ## Changes and history -/

/-- What can be done with a display and its exchange of frames. -/
inductive Change where
  | write (addr : UInt16) (val : UInt8)
  /-- The memories hold something else from now on. -/
  | fill (vram : Memory videoSize) (oam : Memory objectSize)
  | update (now : Nat)
  | take
  | giveBack (frame : Frame)
  | clear

def Change.apply (d : Display) : Change → Display
  | write addr val => d.write addr val
  | fill vram oam => { d with vram, oam }
  | update now => (d.update now).1
  | take => { d with slot := d.slot.take.2 }
  | giveBack frame => { d with slot := d.slot.giveBack frame }
  | clear => { d with slot := d.slot.clear }

def perform (d : Display) (changes : List Change) : Display := changes.foldl Change.apply d

inductive Event where
  | switchedOn
  | switchedOff
  /-- The next phase is entered, by this display. -/
  | entered (d : Display)

/-- The display as it is before each phase that it enters on the way to a display clock. -/
def entriesBy (d : Display) (clock : Nat) : List Display :=
  if _h : d.nextEvent ≤ clock then
    have : d.nextEvent < d.enterNext.1.nextEvent := d.lt_nextEvent_enterNext
    d :: d.enterNext.1.entriesBy clock
  else []
termination_by clock + 1 - d.nextEvent
decreasing_by omega

def entries (d : Display) (now : Nat) : List Display :=
  match d.awake? now with
  | none => []
  | some (awake, clock) => awake.entriesBy clock

/-- What a control byte that was just written does to the switch. -/
def switches (d : Display) : List Event :=
  if d.registers.lcdOn = (d.running || d.startAt.isSome) then []
  else if d.registers.lcdOn then [.switchedOn]
  else [.switchedOff]

def Change.events (d : Display) : Change → List Event
  | write addr val =>
    if addr = 0xFF40 then switches { d with registers := { d.registers with control := val } }
    else []
  | update now => (d.entries now).map .entered
  | fill .. | take | giveBack _ | clear => []

/-- What happens to a display on a row of changes, in order. -/
def history (d : Display) : List Change → List Event
  | [] => []
  | change :: changes => change.events d ++ (change.apply d).history changes

/-- The frames that an event publishes because a picture is complete. -/
def Event.shown : Event → List Frame
  | entered d => d.shownNext
  | switchedOn | switchedOff => []

/-- The frames that an event publishes. -/
def Event.published : Event → List Frame
  | entered d => d.shownNext
  | switchedOn => []
  | switchedOff => [Frame.blank]

theorem entriesBy_of_le {d : Display} {clock : Nat} (h : d.nextEvent ≤ clock) :
    d.entriesBy clock = d :: d.enterNext.1.entriesBy clock := by
  rw [entriesBy, dif_pos h]

theorem entriesBy_of_lt {d : Display} {clock : Nat} (h : clock < d.nextEvent) :
    d.entriesBy clock = [] := by
  rw [entriesBy, dif_neg (by omega)]

/-- No phase is left out: one that begins by the display clock is entered when it begins, and those
that were entered before began earlier. -/
theorem exists_entered {d : Display} {clock : Nat} {phase : Phase} {period : Nat}
    (hoccurs : phase.Occurs) (hfrom : d.nextEvent ≤ phase.beginsAt period)
    (hby : phase.beginsAt period ≤ clock) :
    ∃ before e, d.entriesBy clock = before ++ e :: e.enterNext.1.entriesBy clock ∧
      e.nextEvent = phase.beginsAt period ∧
      ∀ b ∈ before, b.nextEvent < phase.beginsAt period := by
  induction d using catchUp_induction clock with
  | done d hdone => omega
  | enter d henter ih =>
    rw [entriesBy_of_le henter]
    rcases Nat.eq_or_lt_of_le hfrom with hnow | hlater
    · exact ⟨[], d, rfl, hnow, by simp⟩
    · obtain ⟨before, e, hentries, hbegins, hbefore⟩ := ih (nextChange_le_beginsAt hoccurs hlater)
      refine ⟨d :: before, e, by rw [hentries]; rfl, hbegins, ?_⟩
      exact List.forall_mem_cons.2 ⟨hlater, hbefore⟩

theorem shownBy_eq (d : Display) (clock : Nat) :
    d.shownBy clock = (d.entriesBy clock).flatMap shownNext := by
  induction d using catchUp_induction clock with
  | done d h =>
    rw [shownBy_of_lt h, entriesBy_of_lt h]
    rfl
  | enter d h ih => rw [shownBy_of_le h, entriesBy_of_le h, List.flatMap_cons, ih]

theorem shown_eq (d : Display) (now : Nat) : d.shown now = (d.entries now).flatMap shownNext := by
  unfold shown entries
  cases d.awake? now with
  | none => rfl
  | some pair => exact shownBy_eq pair.1 pair.2

/-- The three things that writing the control byte can do. -/
theorem toggle_cases (d : Display) :
    (d.switches = [] ∧ d.toggle = d) ∨
      (d.switches = [.switchedOn] ∧ d.toggle = d.switchOn ∧ d.running = false) ∨
      (d.switches = [.switchedOff] ∧ d.toggle = d.switchOff) := by
  unfold switches toggle
  dsimp only
  by_cases hsame : d.registers.lcdOn = (d.running || d.startAt.isSome)
  · rw [if_pos hsame, if_pos hsame]
    exact .inl ⟨rfl, rfl⟩
  · rw [if_neg hsame, if_neg hsame]
    by_cases hon : d.registers.lcdOn = true
    · rw [if_pos hon, if_pos hon]
      refine .inr (.inl ⟨rfl, rfl, ?_⟩)
      cases hrunning : d.running with
      | false => rfl
      | true => exact absurd hon (by simpa [hrunning] using hsame)
    · rw [if_neg hon, if_neg hon]
      exact .inr (.inr ⟨rfl, rfl⟩)

/-! ## Periods -/

/-- The refresh period that the next phase belongs to. -/
def period (d : Display) : Nat := d.nextEvent / refreshPeriod

/-- The next phase ends the picture. -/
def EndsPicture (d : Display) : Prop := Phase.ofClock d.nextEvent = .vBlank screenHeight

instance (d : Display) : Decidable d.EndsPicture := inferInstanceAs (Decidable (_ = _))

/-- Those of the displays that transfer a line in a period. -/
def transfers (entered : List Display) (period line : Nat) : List Display :=
  entered.filter fun d => d.period = period ∧ Phase.ofClock d.nextEvent = .transfer line

theorem clockAt_period {period line sub : Nat} (hline : line < totalLines)
    (hsub : sub < lineCycles) : clockAt period line sub / refreshPeriod = period := by
  unfold clockAt refreshPeriod lineCycles totalLines at *
  omega

theorem phaseEnd_cases (line sub : Nat) :
    (scanEnd ≤ phaseEnd line sub ∧ phaseEnd line sub < lineCycles) ∨
      phaseEnd line sub = lineCycles := by
  unfold phaseEnd lineCycles scanEnd transferEnd
  split_ifs <;> omega

/-- The phases of a period come one after another, and its first phase comes after the last phase
of the period before. -/
theorem period_nextChange (clock : Nat) :
    (nextChange clock / refreshPeriod = clock / refreshPeriod ∧
        Phase.ofClock (nextChange clock) ≠ .objectScan 0) ∨
      (nextChange clock = (clock / refreshPeriod + 1) * refreshPeriod ∧
        Phase.ofClock (nextChange clock) = .objectScan 0) := by
  obtain ⟨period, line, sub, hline, hsub, rfl⟩ := exists_parts clock
  rw [nextChange_clockAt hline hsub, clockAt_period hline hsub]
  rcases phaseEnd_cases line sub with ⟨hscan, hend⟩ | hend
  · -- the line is not over
    left
    rw [clockAt_zero_add, clockAt_period hline hend, ofClock_clockAt hline hend]
    refine ⟨rfl, ?_⟩
    unfold Phase.ofLine
    split_ifs <;> first | omega | simp
  · rw [hend, clockAt_lineEnd]
    by_cases hnext : line + 1 < totalLines
    · left
      rw [clockAt_period hnext (by decide), ofClock_clockAt hnext (by decide)]
      refine ⟨rfl, ?_⟩
      unfold Phase.ofLine
      split_ifs <;> simp
    · right
      have hlast : line + 1 = totalLines := by omega
      rw [hlast, clockAt_totalLines, ofClock_clockAt (by decide) (by decide)]
      exact ⟨by unfold clockAt; omega, rfl⟩

/-- The lines drawn before a phase of the picture are also those drawn before the next one, but for
the line of a transfer. -/
theorem drawn_le_next {phase : Phase} {line : Nat} (hline : phase.next.drawn ≤ line)
    (hblank : ∀ l, phase.next ≠ .vBlank l) (hfirst : phase.next ≠ .objectScan 0) :
    phase.drawn ≤ line ∧ phase ≠ .transfer line ∧ ∀ l, phase ≠ .vBlank l := by
  cases phase with
  | objectScan l => exact ⟨hline, nofun, nofun⟩
  | transfer l =>
    have hlt : l + 1 ≤ line := hline
    refine ⟨show l ≤ line by omega, ?_, nofun⟩
    rintro ⟨⟩
    omega
  | hBlank l =>
    rw [Phase.next_hBlank] at hline hblank
    by_cases hvisible : l + 1 < screenHeight
    · rw [if_pos hvisible] at hline
      exact ⟨hline, nofun, nofun⟩
    · rw [if_neg hvisible] at hblank
      exact absurd rfl (hblank _)
  | vBlank l =>
    rw [Phase.next_vBlank] at hblank hfirst
    by_cases hmore : l + 1 < totalLines
    · rw [if_pos hmore] at hblank
      exact absurd rfl (hblank _)
    · rw [if_neg hmore] at hfirst
      exact absurd rfl hfirst

/-! ## What the buffer shows -/

/-- The display has entered these phases since it was switched on, and its buffer shows the lines
that were transferred in the period of the next phase, each of them once. The first picture since
then is swallowed. -/
structure Drawn (d : Display) (session : List Display) : Prop where
  older : ∀ b ∈ session, b.nextEvent < d.nextEvent
  swallow : d.swallow = if ∃ b ∈ session, b.EndsPicture then 0 else 1
  lines : ∀ line < (Phase.ofClock d.nextEvent).drawn, ∃ b, transfers session d.period line = [b] ∧
    (d.swallow = 0 → ∀ x < screenWidth, d.frame.pixel x line = b.picture line x)
  /-- During the picture the other lines are still to come. -/
  rest : (∀ l, Phase.ofClock d.nextEvent ≠ .vBlank l) →
    ∀ line, (Phase.ofClock d.nextEvent).drawn ≤ line → transfers session d.period line = []

theorem Drawn.of_eq {d e : Display} {session : List Display} (h : d.Drawn session)
    (hnext : e.nextEvent = d.nextEvent) (hswallow : e.swallow = d.swallow)
    (hframe : e.frame = d.frame) : e.Drawn session := by
  have hperiod : e.period = d.period := by
    unfold period
    rw [hnext]
  refine ⟨?_, ?_, ?_, ?_⟩
  · rw [hnext]
    exact h.older
  · rw [hswallow]
    exact h.swallow
  · rw [hnext, hswallow, hframe, hperiod]
    exact h.lines
  · rw [hnext, hperiod]
    exact h.rest

/-- A display that begins to run has drawn nothing. -/
theorem drawn_begin {d : Display} (hnext : d.nextEvent = 0) (hswallow : d.swallow = 1) :
    d.Drawn [] := by
  have hphase : Phase.ofClock d.nextEvent = .objectScan 0 := by
    rw [hnext]
    rfl
  refine ⟨by simp, by simpa using hswallow, ?_, fun _ _ _ => rfl⟩
  rw [hphase]
  exact fun line hline => absurd hline (Nat.not_lt_zero line)

theorem transfers_append (a b : List Display) (period line : Nat) :
    transfers (a ++ b) period line = transfers a period line ++ transfers b period line :=
  List.filter_append a b

theorem transfers_singleton_of_ne {d : Display} {period line : Nat}
    (h : Phase.ofClock d.nextEvent ≠ .transfer line) : transfers [d] period line = [] := by
  simp [transfers, h]

theorem transfers_singleton {d : Display} {line : Nat}
    (h : Phase.ofClock d.nextEvent = .transfer line) : transfers [d] d.period line = [d] := by
  simp [transfers, h]

theorem Drawn.swallow_enterNext {d : Display} {session : List Display} (h : d.Drawn session) :
    d.enterNext.1.swallow = if ∃ b ∈ session ++ [d], b.EndsPicture then 0 else 1 := by
  have hswallow := h.swallow
  have hnext := Display.swallow_enterNext d
  by_cases hends : Phase.ofClock d.nextEvent = .vBlank screenHeight
  · have hlater : ∃ b ∈ session ++ [d], b.EndsPicture := ⟨d, by simp, hends⟩
    rw [if_pos hends] at hnext
    rw [if_pos hlater, hnext, hswallow]
    split <;> rfl
  · rw [if_neg hends] at hnext
    have hends : ¬ d.EndsPicture := hends
    have hsame : (∃ b ∈ session ++ [d], b.EndsPicture) ↔ ∃ b ∈ session, b.EndsPicture := by
      simp [or_and_right, exists_or, hends]
    rw [hnext, hswallow]
    simp only [hsame]

theorem Drawn.enterNext {d : Display} {session : List Display} (h : d.Drawn session) :
    d.enterNext.1.Drawn (session ++ [d]) := by
  have hlt := d.lt_nextEvent_enterNext
  have holder : ∀ b ∈ session ++ [d], b.nextEvent < d.enterNext.1.nextEvent := by
    intro b hb
    rcases List.mem_append.1 hb with hb | hb
    · exact Nat.lt_trans (h.older b hb) hlt
    · rw [List.mem_singleton.1 hb]
      exact hlt
  have hphase : Phase.ofClock d.enterNext.1.nextEvent = (Phase.ofClock d.nextEvent).next :=
    ofClock_nextChange d.nextEvent
  refine ⟨holder, h.swallow_enterNext, ?_, ?_⟩
  all_goals
    rcases period_nextChange d.nextEvent with ⟨hsame, hfirst⟩ | ⟨hwrap, hfirst⟩
  · -- the period goes on
    intro line hline
    have hperiod : d.enterNext.1.period = d.period := hsame
    rw [hperiod, transfers_append]
    have hbefore := hline
    rw [hphase] at hbefore
    by_cases htransfer : Phase.ofClock d.nextEvent = .transfer line
    · have hnone := h.rest (by rw [htransfer]; exact nofun) line
        (by rw [htransfer]; exact Nat.le_refl line)
      rw [hnone, transfers_singleton htransfer]
      refine ⟨d, rfl, fun hswallow x hx => ?_⟩
      rcases (row_enterNext hswallow hline hx).2 with ⟨-, hrow⟩ | ⟨hother, -⟩
      · exact hrow
      · exact absurd htransfer hother
    · obtain ⟨b, honce, hrow⟩ := h.lines line
        ((Phase.lt_drawn_of_next hbefore).resolve_right htransfer)
      rw [honce, transfers_singleton_of_ne htransfer]
      refine ⟨b, rfl, fun hswallow x hx => ?_⟩
      obtain ⟨hswallow', ⟨hother, -⟩ | ⟨-, -, hsameRow⟩⟩ := row_enterNext hswallow hline hx
      · exact absurd hother htransfer
      · rw [hsameRow]
        exact hrow hswallow' x hx
  · -- a new period begins, and nothing of it is drawn
    intro line hline
    have hnone : (Phase.ofClock d.enterNext.1.nextEvent).drawn = 0 := by
      show (Phase.ofClock (nextChange d.nextEvent)).drawn = 0
      rw [hfirst]
      rfl
    rw [hnone] at hline
    exact absurd hline (Nat.not_lt_zero line)
  · intro hblank line hline
    have hperiod : d.enterNext.1.period = d.period := hsame
    have hfirst' : (Phase.ofClock d.nextEvent).next ≠ .objectScan 0 := by
      rw [← ofClock_nextChange]
      exact hfirst
    rw [hphase] at hblank hline
    obtain ⟨hle, htransfer, hpicture⟩ := drawn_le_next hline hblank hfirst'
    rw [hperiod, transfers_append, h.rest hpicture line hle, transfers_singleton_of_ne htransfer]
    rfl
  · -- all that was transferred before belongs to earlier periods
    intro _ line _
    refine List.filter_eq_nil_iff.2 fun b hb => ?_
    have hlt := holder b hb
    have hearlier : b.period < d.enterNext.1.period := by
      have hnext : d.enterNext.1.nextEvent = (d.nextEvent / refreshPeriod + 1) * refreshPeriod :=
        hwrap
      unfold period
      rw [hnext] at hlt ⊢
      rw [Nat.mul_div_cancel _ (by decide)]
      exact Nat.div_lt_of_lt_mul (by rw [Nat.mul_comm]; exact hlt)
    have hne : b.period ≠ d.enterNext.1.period := by omega
    simp [hne]

theorem Drawn.catchUp {d : Display} {session : List Display} (h : d.Drawn session) (clock : Nat)
    (events : Events) :
    (d.catchUp clock events).1.Drawn (session ++ d.entriesBy clock) ∧
      ∀ before e after, d.entriesBy clock = before ++ e :: after →
        e.Drawn (session ++ before) := by
  induction d using catchUp_induction clock generalizing session events with
  | done d hdone =>
    rw [catchUp_of_lt hdone, entriesBy_of_lt hdone, List.append_nil]
    exact ⟨h, fun before e after hsplit => by simp at hsplit⟩
  | enter d henter ih =>
    obtain ⟨hend, hway⟩ := ih h.enterNext (events.join d.enterNext.2)
    rw [catchUp_of_le henter, entriesBy_of_le henter]
    rw [List.append_assoc, List.singleton_append] at hend
    refine ⟨hend, fun before e after hsplit => ?_⟩
    cases before with
    | nil =>
      obtain ⟨rfl, -⟩ := List.cons.inj hsplit
      rw [List.append_nil]
      exact h
    | cons first before =>
      obtain ⟨rfl, hrest⟩ := List.cons.inj hsplit
      have hdrawn := hway before e after hrest
      rw [List.append_assoc, List.singleton_append] at hdrawn
      exact hdrawn

/-! ## History -/

/-- The display was switched on and has entered these phases since. -/
def Since (past : List Event) (session : List Display) : Prop :=
  ∃ earlier, past = earlier ++ .switchedOn :: session.map .entered

theorem Since.append {past : List Event} {session : List Display} (h : Since past session)
    (entered : List Display) : Since (past ++ entered.map .entered) (session ++ entered) := by
  obtain ⟨earlier, rfl⟩ := h
  exact ⟨earlier, by simp⟩

/-- A display that was switched on once has entered what it entered since then. -/
theorem Since.session_eq {entered session : List Display}
    (h : Since (.switchedOn :: entered.map .entered) session) : session = entered := by
  obtain ⟨earlier, hearlier⟩ := h
  cases earlier with
  | nil =>
    have hmap := (List.cons.inj hearlier).2
    exact ((List.map_inj_right fun _ _ heq => Event.entered.inj heq).1 hmap).symm
  | cons first earlier =>
    have hmem : Event.switchedOn ∈ entered.map .entered := by
      rw [(List.cons.inj hearlier).2]
      simp
    simp at hmem

/-- What the past of a display says about it as long as it is switched on. -/
structure Follows (d : Display) (past : List Event) : Prop where
  waiting : d.startAt.isSome = true → d.running = false → Since past [] ∧ d.swallow = 1
  awake : d.startAt.isSome = true → d.running = true →
    ∃ session, Since past session ∧ d.Drawn session

/-- Each phase in the past was entered by a display that shows what is drawn. -/
def Sound (past : List Event) : Prop :=
  ∀ older e newer, past = older ++ .entered e :: newer →
    ∃ session, Since older session ∧ e.Drawn session

theorem Follows.of_eq {d e : Display} {past : List Event} (h : d.Follows past)
    (hstart : e.startAt = d.startAt) (hrunning : e.running = d.running)
    (hnext : e.nextEvent = d.nextEvent) (hswallow : e.swallow = d.swallow)
    (hframe : e.frame = d.frame) : e.Follows past := by
  refine ⟨?_, ?_⟩
  · rw [hstart, hrunning, hswallow]
    exact h.waiting
  · rw [hstart, hrunning]
    intro hsome hrun
    obtain ⟨session, hsince, hdrawn⟩ := h.awake hsome hrun
    exact ⟨session, hsince, hdrawn.of_eq hnext hswallow hframe⟩

/-- Nothing happens to the display. -/
theorem Follows.quiet {d e : Display} {past : List Event} (h : d.Follows past) (hpast : Sound past)
    (hstart : e.startAt = d.startAt) (hrunning : e.running = d.running)
    (hnext : e.nextEvent = d.nextEvent) (hswallow : e.swallow = d.swallow)
    (hframe : e.frame = d.frame) : e.Follows (past ++ []) ∧ Sound (past ++ []) := by
  rw [List.append_nil]
  exact ⟨h.of_eq hstart hrunning hnext hswallow hframe, hpast⟩

theorem follows_initial : initial.Follows [] := ⟨nofun, nofun⟩

theorem sound_nil : Sound [] := fun older e newer hsplit => by simp at hsplit

theorem Sound.append {past added : List Event} (h : Sound past)
    (hadded : ∀ before e after, added = before ++ .entered e :: after →
      ∃ session, Since (past ++ before) session ∧ e.Drawn session) :
    Sound (past ++ added) := by
  intro older e newer hsplit
  -- the phase was entered in the past already, or it is added
  rcases List.append_eq_append_iff.1 hsplit with ⟨before, rfl, hafter⟩ | ⟨rest, rfl, hrest⟩
  · exact hadded before e newer hafter
  · cases rest with
    | nil =>
      rw [List.append_nil] at *
      have hnone := hadded [] e newer hrest.symm
      rw [List.append_nil] at hnone
      exact hnone
    | cons first rest =>
      obtain ⟨rfl, -⟩ := List.cons.inj hrest
      exact h older e rest rfl

theorem Sound.append_of_none {past added : List Event} (h : Sound past)
    (hadded : ∀ e, .entered e ∉ added) : Sound (past ++ added) :=
  h.append fun before e after hsplit => absurd (by rw [hsplit]; simp) (hadded e)

theorem Follows.toggle {d : Display} {past : List Event} (h : d.Follows past) :
    d.toggle.Follows (past ++ d.switches) := by
  rcases toggle_cases d with ⟨hevents, htoggle⟩ | ⟨hevents, htoggle, hrunning⟩ | ⟨hevents, htoggle⟩
  · rw [hevents, htoggle, List.append_nil]
    exact h
  · rw [hevents, htoggle]
    refine ⟨fun _ _ => ⟨⟨past, rfl⟩, rfl⟩, fun _ hrun => ?_⟩
    have hoff : d.running = true := hrun
    rw [hrunning] at hoff
    cases hoff
  · rw [hevents, htoggle]
    exact ⟨nofun, nofun⟩

theorem entered_not_mem_switches (d e : Display) : .entered e ∉ d.switches := by
  rcases toggle_cases d with ⟨hevents, -⟩ | ⟨hevents, -⟩ | ⟨hevents, -⟩ <;> simp [hevents]

theorem write_control (d : Display) (val : UInt8) :
    d.write 0xFF40 val = toggle { d with registers := { d.registers with control := val } } := rfl

theorem Follows.write {d : Display} {past : List Event} (h : d.Follows past) (addr : UInt16)
    (val : UInt8) : (d.write addr val).Follows (past ++ (Change.write addr val).events d) := by
  by_cases hcontrol : addr = 0xFF40
  · subst hcontrol
    show (d.write 0xFF40 val).Follows _
    rw [write_control]
    exact Follows.toggle (h.of_eq rfl rfl rfl rfl rfl)
  · have hnone : (Change.write addr val).events d = [] := if_neg hcontrol
    rw [hnone, List.append_nil]
    unfold Display.write
    dsimp only
    split <;> first | exact absurd rfl hcontrol | exact h.of_eq rfl rfl rfl rfl rfl

/-- The display that catches up has drawn what its past says. -/
theorem Follows.awake? {d awake : Display} {past : List Event} {now clock : Nat}
    (h : d.Follows past) (hawake : d.awake? now = some (awake, clock)) :
    awake.startAt.isSome = true ∧ awake.running = true ∧
      ∃ session, Since past session ∧ awake.Drawn session := by
  obtain ⟨start, hstart, -, hcase⟩ := awake?_eq_some_iff.1 hawake
  have hsome : d.startAt.isSome = true := by
    rw [hstart]
    rfl
  rcases hcase with ⟨hrunning, rfl⟩ | ⟨hasleep, -, rfl⟩
  · obtain ⟨session, hsince, hdrawn⟩ := h.awake hsome hrunning
    exact ⟨hsome, hrunning, session, hsince, hdrawn.of_eq rfl rfl rfl⟩
  · obtain ⟨hsince, hswallow⟩ := h.waiting hsome hasleep
    exact ⟨hsome, rfl, [], hsince, drawn_begin rfl hswallow⟩

theorem Follows.update {d : Display} {past : List Event} (h : d.Follows past) (hpast : Sound past)
    (now : Nat) :
    (d.update now).1.Follows (past ++ (d.entries now).map .entered) ∧
      Sound (past ++ (d.entries now).map .entered) := by
  unfold entries
  cases hawake : d.awake? now with
  | none =>
    rw [update_of_asleep hawake]
    dsimp only
    rw [List.map_nil, List.append_nil]
    exact ⟨h.of_eq rfl rfl rfl rfl rfl, hpast⟩
  | some pair =>
    obtain ⟨awake, clock⟩ := pair
    obtain ⟨hsome, hrunning, session, hsince, hdrawn⟩ := h.awake? hawake
    obtain ⟨hend, hway⟩ := hdrawn.catchUp clock .none
    have hsame := sameSetup_catchUp awake clock .none
    rw [update_of_awake hawake]
    refine ⟨⟨fun _ hoff => ?_, fun _ _ => ⟨_, hsince.append _, hend⟩⟩, hpast.append ?_⟩
    · rw [hsame.running, hrunning] at hoff
      cases hoff
    · intro before e after hsplit
      obtain ⟨entered, rest, hentered, rfl, hrest⟩ := List.map_eq_append_iff.1 hsplit
      obtain ⟨first, later, rfl, hfirst, -⟩ := List.map_eq_cons_iff.1 hrest
      cases hfirst
      exact ⟨_, hsince.append entered, hway entered e later hentered⟩

theorem Follows.apply {d : Display} {past : List Event} (h : d.Follows past) (hpast : Sound past)
    (change : Change) :
    (change.apply d).Follows (past ++ change.events d) ∧ Sound (past ++ change.events d) := by
  cases change with
  | write addr val =>
    refine ⟨h.write addr val, hpast.append_of_none fun e hmem => ?_⟩
    unfold Change.events at hmem
    dsimp only at hmem
    split at hmem
    · exact entered_not_mem_switches _ e hmem
    · exact absurd hmem List.not_mem_nil
  | update now => exact h.update hpast now
  | fill vram oam => exact h.quiet hpast rfl rfl rfl rfl rfl
  | take => exact h.quiet hpast rfl rfl rfl rfl rfl
  | giveBack frame => exact h.quiet hpast rfl rfl rfl rfl rfl
  | clear => exact h.quiet hpast rfl rfl rfl rfl rfl

theorem Follows.history {d : Display} {past : List Event} (h : d.Follows past) (hpast : Sound past)
    (changes : List Change) : Sound (past ++ d.history changes) := by
  induction changes generalizing d past with
  | nil =>
    rw [Display.history, List.append_nil]
    exact hpast
  | cons change changes ih =>
    obtain ⟨hfollows, hsound⟩ := h.apply hpast change
    rw [Display.history, ← List.append_assoc]
    exact ih hfollows hsound

/-! ## Publishing -/

/-- The consumer's part in a change of the exchange. -/
def Change.consume (slot : FrameSlot Frame) : Change → FrameSlot Frame
  | take => slot.take.2
  | giveBack frame => slot.giveBack frame
  | clear => slot.clear
  | write .. | fill .. | update _ => slot

theorem switchOff_publishes (d : Display) :
    d.switchOff.slot = (d.slot.publish Frame.blank Frame.blank).2 ∧
      d.switchOff.frames = d.frames := ⟨rfl, rfl⟩

theorem slot_toggle (d : Display) :
    d.toggle.slot = showAll d.slot (d.switches.flatMap Event.published) ∧
      d.toggle.frames = d.frames + (d.switches.flatMap Event.shown).length := by
  rcases toggle_cases d with ⟨hevents, htoggle⟩ | ⟨hevents, htoggle, -⟩ | ⟨hevents, htoggle⟩
  · rw [hevents, htoggle]
    exact ⟨rfl, rfl⟩
  · rw [hevents, htoggle]
    exact ⟨rfl, rfl⟩
  · rw [hevents, htoggle]
    exact switchOff_publishes d

theorem flatMap_entered (entered : List Display) :
    (entered.map Event.entered).flatMap Event.published = entered.flatMap shownNext ∧
      (entered.map Event.entered).flatMap Event.shown = entered.flatMap shownNext := by
  rw [List.flatMap_map, List.flatMap_map]
  exact ⟨rfl, rfl⟩

/-- A change publishes the frames of its events in their order and no others, and then the
consumer has its part. -/
theorem slot_apply (d : Display) (change : Change) :
    (change.apply d).slot =
        change.consume (showAll d.slot ((change.events d).flatMap Event.published)) ∧
      (change.apply d).frames =
        d.frames + ((change.events d).flatMap Event.shown).length := by
  cases change with
  | write addr val =>
    by_cases hcontrol : addr = 0xFF40
    · subst hcontrol
      exact slot_toggle { d with registers := { d.registers with control := val } }
    · have hnone : (Change.write addr val).events d = [] := if_neg hcontrol
      rw [hnone]
      show (d.write addr val).slot = d.slot ∧ (d.write addr val).frames = d.frames
      unfold Display.write
      dsimp only
      split <;> first | exact absurd rfl hcontrol | exact ⟨rfl, rfl⟩
  | update now =>
    obtain ⟨hpublished, hshown⟩ := flatMap_entered (d.entries now)
    have hevents : (Change.update now).events d = (d.entries now).map .entered := rfl
    rw [hevents, hpublished, hshown, ← shown_eq]
    exact slot_update d now
  | fill vram oam => exact ⟨rfl, rfl⟩
  | take => exact ⟨rfl, rfl⟩
  | giveBack frame => exact ⟨rfl, rfl⟩
  | clear => exact ⟨rfl, rfl⟩

/-- The vertical blank publishes the picture as it was transferred in its period, unless it is the
first one. -/
theorem Drawn.publishes {e : Display} {session : List Display} (h : e.Drawn session)
    (hends : e.EndsPicture) :
    if ∃ b ∈ session, b.EndsPicture then
      e.enterNext.1.slot = (e.slot.publish Frame.blank e.frame).2 ∧
      e.enterNext.1.frames = e.frames + 1 ∧
      ∀ line < screenHeight, ∃ b, transfers session e.period line = [b] ∧
        ∀ x < screenWidth, e.frame.pixel x line = b.picture line x
    else e.enterNext.1.slot = e.slot ∧ e.enterNext.1.frames = e.frames := by
  obtain ⟨hslot, hcount⟩ := slot_enterNext e
  have hswallow := h.swallow
  rw [hslot, hcount]
  unfold shownNext
  split
  · rename_i hlater
    rw [if_pos hlater] at hswallow
    rw [if_pos ⟨hends, hswallow⟩]
    refine ⟨rfl, rfl, fun line hline => ?_⟩
    have hblank : Phase.ofClock e.nextEvent = .vBlank screenHeight := hends
    obtain ⟨b, honce, hrow⟩ := h.lines line (by rw [hblank]; exact hline)
    exact ⟨b, honce, hrow hswallow⟩
  · rename_i hfirst
    rw [if_neg hfirst] at hswallow
    rw [if_neg (by simp [hswallow])]
    exact ⟨rfl, rfl⟩

theorem write_switchOff {d : Display} {control : UInt8} (hoff : anySet control 0x80 = false)
    (hscheduled : (d.running || d.startAt.isSome) = true) :
    (d.write 0xFF40 control).slot = (d.slot.publish Frame.blank Frame.blank).2 ∧
      (d.write 0xFF40 control).frames = d.frames := by
  rw [write_control]
  have hlcd : ({ d.registers with control } : Registers).lcdOn = false := hoff
  unfold toggle
  dsimp only
  rw [hlcd, hscheduled]
  exact switchOff_publishes _

/-- On every row of changes:

* A vertical blank publishes nothing if it is the first since the display was switched on. Every
  later one publishes the buffer, and each line of it is the picture that the one transfer of the
  line in this period found.
* Switching off a display that runs or waits for its start publishes one white frame.
* No change publishes any other frame than those of its events. -/
theorem published_fresh (changes : List Change) :
    let d := initial.perform changes
    let past := initial.history changes
    (∀ older e newer, past = older ++ .entered e :: newer →
      Phase.ofClock e.nextEvent = .vBlank screenHeight →
      ∃ session, Since older session ∧
        if ∃ b ∈ session, Phase.ofClock b.nextEvent = .vBlank screenHeight then
          e.enterNext.1.slot = (e.slot.publish Frame.blank e.frame).2 ∧
          e.enterNext.1.frames = e.frames + 1 ∧
          ∀ line < screenHeight, ∃ b,
            session.filter (fun b => b.nextEvent / refreshPeriod = e.nextEvent / refreshPeriod ∧
              Phase.ofClock b.nextEvent = .transfer line) = [b] ∧
            ∀ x < screenWidth, e.frame.pixel x line = pixelColour b.vram b.registers
              (lineObjects b.oam b.registers line) b.windowLine.toNat line x
        else e.enterNext.1.slot = e.slot ∧ e.enterNext.1.frames = e.frames) ∧
    (∀ control, anySet control 0x80 = false → (d.running || d.startAt.isSome) = true →
      (d.write 0xFF40 control).slot = (d.slot.publish Frame.blank Frame.blank).2 ∧
      (d.write 0xFF40 control).frames = d.frames) ∧
    ∀ change : Change,
      (change.apply d).slot =
        change.consume (showAll d.slot ((change.events d).flatMap Event.published)) ∧
      (change.apply d).frames = d.frames + ((change.events d).flatMap Event.shown).length := by
  intro d past
  have hsound : Sound past := follows_initial.history sound_nil changes
  -- who entered the blank had drawn what the past says
  refine ⟨fun older e newer hsplit hblank => ?_, fun _ => write_switchOff, slot_apply d⟩
  obtain ⟨session, hsince, hdrawn⟩ := hsound older e newer hsplit
  exact ⟨session, hsince, hdrawn.publishes hblank⟩

/-- A display that is switched off again while its start is delayed shows a white frame. One that
stays on shows nothing when its first picture is complete. When the second is, it shows that, each
line of it as it was transferred in the second period. -/
theorem published_fresh_secondPicture :
    ((initial.perform [.write 0xFF40 0x80]).write 0xFF40 0x00).slot.ready = some Frame.blank ∧
    ∃ older first between second newer,
      initial.history [.write 0xFF40 0x91, .update 140000] =
        older ++ .entered first :: (between ++ .entered second :: newer) ∧
      first.nextEvent = 65664 ∧ first.enterNext.1.slot = first.slot ∧
      second.nextEvent = 135888 ∧
      second.enterNext.1.slot = (second.slot.publish Frame.blank second.frame).2 ∧
      second.enterNext.1.frames = second.frames + 1 ∧
      ∀ line < 144, ∃ b : Display,
        b.nextEvent / 70224 = 1 ∧ Phase.ofClock b.nextEvent = .transfer line ∧
        ∀ x < 160, second.frame.pixel x line = pixelColour b.vram b.registers
          (lineObjects b.oam b.registers line) b.windowLine.toNat line x := by
  obtain ⟨-, hoff, -⟩ := published_fresh [.write 0xFF40 0x80]
  obtain ⟨hblank, -⟩ := published_fresh [.write 0xFF40 0x91, .update 140000]
  refine ⟨by rw [(hoff 0x00 (by decide) (by decide)).1]; rfl, ?_⟩
  -- both vertical blanks are entered on the way
  have hoccurs : (Phase.vBlank 144).Occurs := ⟨by decide, by decide⟩
  have hstart : ((initial.write 0xFF40 0x91).begin 140000).nextEvent ≤
      (Phase.vBlank 144).beginsAt 0 := by
    decide
  obtain ⟨before, first, hbefore, hfirst, hearlier⟩ :=
    exists_entered hoccurs hstart (show (Phase.vBlank 144).beginsAt 0 ≤ 139756 by decide)
  have hnext : first.enterNext.1.nextEvent ≤ (Phase.vBlank 144).beginsAt 1 := by
    show nextChange first.nextEvent ≤ _
    rw [hfirst]
    decide
  obtain ⟨between, second, hbetween, hsecond, -⟩ :=
    exists_entered hoccurs hnext (show (Phase.vBlank 144).beginsAt 1 ≤ 139756 by decide)
  have hhistory : initial.history [.write 0xFF40 0x91, .update 140000] =
      (.switchedOn :: before.map .entered) ++ .entered first :: (between.map .entered ++
        .entered second :: (second.enterNext.1.entriesBy 139756).map .entered) := by
    have hentries : initial.history [.write 0xFF40 0x91, .update 140000] =
        .switchedOn :: ((((initial.write 0xFF40 0x91).begin 140000).entriesBy 139756).map .entered ++
          []) := rfl
    rw [hentries, hbefore, hbetween]
    simp
  have hcomplete : first.EndsPicture ∧ second.EndsPicture := by
    unfold EndsPicture
    rw [hfirst, hsecond]
    decide
  have hnone : ¬∃ b ∈ before, Phase.ofClock b.nextEvent = .vBlank screenHeight := by
    rintro ⟨b, hmem, hends⟩
    have hlt : b.nextEvent < 65664 := hearlier b hmem
    have hline : (Phase.ofClock b.nextEvent).line = 144 := congrArg Phase.line hends
    rw [line_ofClock] at hline
    unfold refreshPeriod lineCycles at hline
    omega
  have hsome : ∃ b ∈ before ++ first :: between, Phase.ofClock b.nextEvent = .vBlank screenHeight :=
    ⟨first, by simp, hcomplete.1⟩
  obtain ⟨session, hsince, hfirstShown⟩ := hblank _ first _ hhistory hcomplete.1
  rw [hsince.session_eq, if_neg hnone] at hfirstShown
  obtain ⟨session, hsince, hsecondShown⟩ := hblank
    (.switchedOn :: (before ++ first :: between).map .entered) second
    ((second.enterNext.1.entriesBy 139756).map .entered) (by rw [hhistory]; simp) hcomplete.2
  rw [hsince.session_eq, if_pos hsome] at hsecondShown
  obtain ⟨hslot, hframes, hlines⟩ := hsecondShown
  refine ⟨_, first, _, second, _, hhistory, hfirst, hfirstShown.1, hsecond, hslot, hframes,
    fun line hline => ?_⟩
  obtain ⟨b, honce, hrow⟩ := hlines line hline
  have hb : b ∈ [b] := List.mem_cons_self
  rw [← honce, hsecond] at hb
  obtain ⟨hperiod, htransfer⟩ := of_decide_eq_true (List.mem_filter.1 hb).2
  exact ⟨b, hperiod, htransfer, hrow⟩

end DotMatrix.Display
