import DotMatrix.Proofs.Display.Buffers
import DotMatrix.Proofs.Display.Freshness

/-!
# Switching the display off and on

A display that was switched off keeps a window line and a next phase that it sets again when it
begins to run, it remembers how many frames it has shown, and its buffer and its exchange hold old
frames. None of this can be seen. So after it is switched on again it is like a new display with
the same registers and memories that is switched on at the same time (`restart_like_new`).
-/

namespace DotMatrix.Display

/-! ## Counting from another number -/

/-- The display with more frames counted. -/
def recount (d : Display) (shown published : Nat) : Display :=
  { d with
    frames := shown + d.frames
    slot := { d.slot with published := published + d.slot.published } }

section Recount

variable (d : Display) (n k : Nat)

theorem publish_recount : (d.recount n k).publish = d.publish.recount n k := by
  unfold publish FrameSlot.publish recount
  rcases d.slot with ⟨_ | old, _ | ⟨buffer, spare⟩, published, dropped⟩ <;> rfl

theorem switchOff_recount : (d.recount n k).switchOff = d.switchOff.recount n k :=
  congrArg (fun e : Display => { e with frame := Frame.blank }) (publish_recount
    { openMemories { d with running := false, startAt := none, phase := none } with
      frame := Frame.blank } n k)

theorem toggle_recount : (d.recount n k).toggle = d.toggle.recount n k := by
  unfold toggle
  dsimp only
  rw [switchOff_recount]
  show (if d.registers.lcdOn = (d.running || d.startAt.isSome) then _ else
    if d.registers.lcdOn then _ else _) = _
  split
  · rfl
  · split <;> rfl

theorem write_recount (addr : UInt16) (val : UInt8) :
    (d.recount n k).write addr val = (d.write addr val).recount n k := by
  unfold write
  dsimp only
  split
  · exact toggle_recount { d with registers := { d.registers with control := val } } n k
  all_goals rfl

theorem drawLine_recount (line : Nat) :
    (d.recount n k).drawLine line = (d.drawLine line).recount n k := by
  unfold drawLine
  split <;> rfl

theorem finishFrame_recount : (d.recount n k).finishFrame = d.finishFrame.recount n k := by
  by_cases h : d.swallow = 0
  · rw [finishFrame_of_shown h, finishFrame_of_shown (d := d.recount n k) h]
    exact congrArg (fun e : Display => { e with frames := n + d.frames + 1 })
      (publish_recount { d with windowLine := 0 } n k)
  · rw [finishFrame_of_swallowed h, finishFrame_of_swallowed (d := d.recount n k) h]
    rfl

theorem enter_recount (phase : Phase) :
    (d.recount n k).enter phase = (d.enter phase).recount n k := by
  cases phase with
  | objectScan line => rfl
  | transfer line =>
    rw [enter_transfer, enter_transfer]
    by_cases h : d.swallow = 0
    · rw [if_pos h, if_pos (show (d.recount n k).swallow = 0 from h)]
      exact drawLine_recount { d with videoOpen := false, objectsOpen := false } n k line
    · rw [if_neg h, if_neg (show (d.recount n k).swallow ≠ 0 from h)]
      rfl
  | hBlank line => rfl
  | vBlank line =>
    rw [enter_vBlank, enter_vBlank]
    split
    · exact finishFrame_recount d n k
    · rfl

theorem enterNext_recount :
    (d.recount n k).enterNext = (d.enterNext.1.recount n k, d.enterNext.2) := by
  unfold enterNext
  dsimp only
  rw [show (d.recount n k).nextEvent = d.nextEvent from rfl, enter_recount]
  cases Phase.ofClock d.nextEvent <;> rfl

theorem catchUp_recount (clock : Nat) (events : Events) :
    (d.recount n k).catchUp clock events =
        ((d.catchUp clock events).1.recount n k, (d.catchUp clock events).2) ∧
      (d.recount n k).shownBy clock = d.shownBy clock := by
  induction d using catchUp_induction clock generalizing events with
  | done d h =>
    rw [catchUp_of_lt h, catchUp_of_lt (d := d.recount n k) h, shownBy_of_lt h,
      shownBy_of_lt (d := d.recount n k) h]
    exact ⟨rfl, rfl⟩
  | enter d h ih =>
    obtain ⟨hrest, hshown⟩ := ih (events.join d.enterNext.2)
    rw [catchUp_of_le h, catchUp_of_le (d := d.recount n k) h, shownBy_of_le h,
      shownBy_of_le (d := d.recount n k) h, enterNext_recount, hrest, hshown]
    exact ⟨rfl, rfl⟩

theorem awake?_recount (now : Nat) :
    (d.recount n k).awake? now =
      (d.awake? now).map fun (awake, clock) => (awake.recount n k, clock) := by
  unfold awake?
  rw [show (d.recount n k).startAt = d.startAt from rfl,
    show (d.recount n k).running = d.running from rfl]
  cases d.startAt with
  | none => rfl
  | some start =>
    dsimp only
    split
    · rfl
    · split <;> rfl

theorem update_recount (now : Nat) :
    (d.recount n k).update now = ((d.update now).1.recount n k, (d.update now).2) ∧
      (d.recount n k).shown now = d.shown now := by
  have hawake := d.awake?_recount n k now
  unfold shown
  rw [hawake]
  cases hasleep : d.awake? now with
  | none =>
    rw [hasleep] at hawake
    rw [update_of_asleep hasleep, update_of_asleep hawake]
    exact ⟨rfl, rfl⟩
  | some pair =>
    obtain ⟨awake, clock⟩ := pair
    rw [hasleep] at hawake
    rw [update_of_awake hasleep, update_of_awake hawake]
    exact catchUp_recount awake n k clock .none

end Recount

/-! ## While it does not run -/

/-- The display with the fields that it sets when it begins to run. -/
def wiped (d : Display) : Display := { d with windowLine := 0, nextEvent := 0 }

/-- The display without what it keeps from the time before, if it does not run. -/
def rested (d : Display) : Display := if d.running then d else d.wiped

theorem rested_of_running {d : Display} (h : d.running = true) : d.rested = d := if_pos h

theorem rested_of_not_running {d : Display} (h : d.running = false) : d.rested = d.wiped :=
  if_neg (by rw [h]; exact Bool.false_ne_true)

/-- The fields make no difference to a display that does not run. -/
theorem rested_wiped {d : Display} (h : d.running = false) : d.wiped.rested = d.rested := by
  rw [rested_of_not_running h, rested_of_not_running (d := d.wiped) h]
  rfl

theorem rested_recount (d : Display) (n k : Nat) :
    (d.recount n k).rested = d.rested.recount n k := by
  unfold rested
  show (if d.running then _ else _) = _
  split <;> rfl

theorem toggle_wiped {d : Display} (h : d.running = false) :
    d.wiped.toggle = d.toggle.wiped ∧ d.toggle.running = false := by
  unfold toggle
  show (if d.registers.lcdOn = (d.running || d.startAt.isSome) then d.wiped
    else if d.registers.lcdOn then d.wiped.switchOn else d.wiped.switchOff) = _ ∧ _
  dsimp only
  split
  · exact ⟨rfl, h⟩
  · split
    · exact ⟨rfl, h⟩
    · exact ⟨rfl, rfl⟩

theorem write_wiped {d : Display} (h : d.running = false) (addr : UInt16) (val : UInt8) :
    d.wiped.write addr val = (d.write addr val).wiped ∧ (d.write addr val).running = false := by
  unfold write
  dsimp only
  split
  · exact toggle_wiped (d := { d with registers := { d.registers with control := val } }) h
  all_goals exact ⟨rfl, h⟩

/-- A display that begins to run sets the fields. -/
theorem awake?_wiped {d : Display} (h : d.running = false) (now : Nat) :
    d.wiped.awake? now = d.awake? now := by
  unfold awake?
  rw [show d.wiped.startAt = d.startAt from rfl, show d.wiped.running = d.running from rfl, h]
  rfl

theorem update_wiped {d : Display} (h : d.running = false) (now : Nat) :
    (d.wiped.update now).1.rested = (d.update now).1.rested ∧
      (d.wiped.update now).2 = (d.update now).2 ∧ d.wiped.shown now = d.shown now := by
  have hawake := awake?_wiped h now
  unfold shown
  rw [hawake]
  cases hasleep : d.awake? now with
  | none =>
    rw [hasleep] at hawake
    rw [update_of_asleep hasleep, update_of_asleep hawake]
    exact ⟨rested_wiped (d := d.withNow now) h, rfl, rfl⟩
  | some pair =>
    obtain ⟨awake, clock⟩ := pair
    rw [hasleep] at hawake
    rw [update_of_awake hasleep, update_of_awake hawake]
    exact ⟨rfl, rfl, rfl⟩

/-! ## Every change -/

/-- The frames that a change publishes. -/
def Change.published (d : Display) (change : Change) : List Frame :=
  (change.events d).flatMap Event.published

theorem published_update (d : Display) (now : Nat) :
    (Change.update now).published d = d.shown now :=
  (flatMap_entered (d.entries now)).1.trans (d.shown_eq now).symm

theorem apply_recount (d : Display) (n k : Nat) (change : Change) :
    change.apply (d.recount n k) = (change.apply d).recount n k ∧
      change.published (d.recount n k) = change.published d := by
  cases change with
  | write addr val => exact ⟨write_recount d n k addr val, rfl⟩
  | fill vram oam => exact ⟨rfl, rfl⟩
  | update now =>
    obtain ⟨hupdate, hshown⟩ := update_recount d n k now
    rw [published_update, published_update]
    exact ⟨congrArg Prod.fst hupdate, hshown⟩
  | take => exact ⟨rfl, rfl⟩
  | giveBack frame => exact ⟨rfl, rfl⟩
  | clear =>
    refine ⟨?_, rfl⟩
    unfold Change.apply FrameSlot.clear recount
    rcases d.slot with ⟨_ | old, spare, published, dropped⟩ <;> rfl

theorem apply_rested (d : Display) (change : Change) :
    (change.apply d.rested).rested = (change.apply d).rested ∧
      change.published d.rested = change.published d := by
  cases h : d.running with
  | true =>
    rw [rested_of_running h]
    exact ⟨rfl, rfl⟩
  | false =>
    rw [rested_of_not_running h]
    cases change with
    | write addr val =>
      obtain ⟨hwrite, hstops⟩ := write_wiped h addr val
      refine ⟨?_, rfl⟩
      show (d.wiped.write addr val).rested = (d.write addr val).rested
      rw [hwrite, rested_wiped hstops]
    | fill vram oam => exact ⟨rested_wiped (d := { d with vram, oam }) h, rfl⟩
    | update now =>
      obtain ⟨hupdate, -, hshown⟩ := update_wiped h now
      rw [published_update, published_update]
      exact ⟨hupdate, hshown⟩
    | take => exact ⟨rested_wiped (d := { d with slot := d.slot.take.2 }) h, rfl⟩
    | giveBack frame =>
      exact ⟨rested_wiped (d := { d with slot := d.slot.giveBack frame }) h, rfl⟩
    | clear => exact ⟨rested_wiped (d := { d with slot := d.slot.clear }) h, rfl⟩

theorem published_clear (slot : FrameSlot Frame) : slot.clear.published = slot.published := by
  unfold FrameSlot.clear
  split <;> rfl

namespace Alike

variable {d e : Display}

theorem rested (h : d.Alike e) : d.rested.Alike e.rested := by
  have hsame : e.running = d.running := by
    obtain ⟨frame, slot, rfl, -, -⟩ := h
    rfl
  cases hrunning : d.running with
  | true =>
    rw [rested_of_running hrunning, rested_of_running (hsame.trans hrunning)]
    exact h
  | false =>
    rw [rested_of_not_running hrunning, rested_of_not_running (hsame.trans hrunning)]
    obtain ⟨frame, slot, rfl, hpublished, -⟩ := h
    -- before the first phase no line is drawn
    refine ⟨frame, slot, rfl, hpublished, fun _ line hline => ?_⟩
    have hnone : (Phase.ofClock 0).drawn = 0 := rfl
    have hline : line < (Phase.ofClock 0).drawn := hline
    rw [hnone] at hline
    exact absurd hline (Nat.not_lt_zero line)

theorem setSlot (h : d.Alike e) {slot slot' : FrameSlot Frame}
    (hd : slot.published = d.slot.published) (he : slot'.published = e.slot.published) :
    ({ d with slot } : Display).Alike { e with slot := slot' } := by
  obtain ⟨frame, slot₀, rfl, hpublished, hrows⟩ := h
  exact ⟨frame, slot', rfl, (he.trans hpublished).trans hd.symm, hrows⟩

theorem apply (h : d.Alike e) (change : Change) :
    (change.apply d).Alike (change.apply e) ∧ change.published e = change.published d := by
  cases change with
  | write addr val =>
    refine ⟨h.write addr val, ?_⟩
    obtain ⟨frame, slot, rfl, -, -⟩ := h
    rfl
  | fill vram oam =>
    obtain ⟨frame, slot, rfl, hpublished, hrows⟩ := h
    exact ⟨⟨frame, slot, rfl, hpublished, hrows⟩, rfl⟩
  | update now =>
    obtain ⟨hupdate, -, hshown⟩ := h.update now
    rw [published_update, published_update]
    exact ⟨hupdate, hshown⟩
  | take => exact ⟨h.setSlot rfl rfl, rfl⟩
  | giveBack frame => exact ⟨h.setSlot rfl rfl, rfl⟩
  | clear => exact ⟨h.setSlot (published_clear _) (published_clear _), rfl⟩

end Alike

/-! ## Displays that resemble each other -/

/-- The displays differ at most in what cannot be seen, and `e` has shown `n` frames more. -/
def Resembles (n : Nat) (d e : Display) : Prop := ∃ k, (d.rested.recount n k).Alike e.rested

namespace Resembles

variable {n : Nat} {d e : Display}

theorem apply (h : d.Resembles n e) (change : Change) :
    (change.apply d).Resembles n (change.apply e) ∧ change.published e = change.published d := by
  obtain ⟨k, halike⟩ := h
  obtain ⟨hstep, hshown⟩ := halike.apply change
  obtain ⟨hcounted, hshown'⟩ := apply_recount d.rested n k change
  have hd := apply_rested d change
  have he := apply_rested e change
  refine ⟨⟨k, ?_⟩, ?_⟩
  · have hrested := hstep.rested
    rw [hcounted, rested_recount, hd.1, he.1] at hrested
    exact hrested
  · rw [← he.2, hshown, hshown', hd.2]

theorem perform (h : d.Resembles n e) (changes : List Change) :
    (d.perform changes).Resembles n (e.perform changes) ∧
      (e.history changes).flatMap Event.published =
        (d.history changes).flatMap Event.published := by
  induction changes generalizing d e with
  | nil => exact ⟨h, rfl⟩
  | cons change changes ih =>
    obtain ⟨hnext, hshown⟩ := h.apply change
    obtain ⟨hrest, hshown'⟩ := ih hnext
    refine ⟨hrest, ?_⟩
    rw [history, history, List.flatMap_append, List.flatMap_append, hshown']
    exact congrArg (· ++ _) hshown

end Resembles

/-- What there is to see of a display is the same for both. -/
structure LooksLike (d e : Display) : Prop where
  read : ∀ addr, e.read addr = d.read addr
  line : e.line = d.line
  mode : e.mode = d.mode
  running : e.running = d.running
  videoOpen : e.videoOpen = d.videoOpen
  objectsOpen : e.objectsOpen = d.objectsOpen
  vram : e.vram = d.vram
  oam : e.oam = d.oam
  update : ∀ now, (e.update now).2 = (d.update now).2

namespace LooksLike

variable {d e f : Display}

theorem refl (d : Display) : d.LooksLike d :=
  ⟨fun _ => rfl, rfl, rfl, rfl, rfl, rfl, rfl, rfl, fun _ => rfl⟩

theorem symm (h : d.LooksLike e) : e.LooksLike d :=
  ⟨fun addr => (h.read addr).symm, h.line.symm, h.mode.symm, h.running.symm, h.videoOpen.symm,
    h.objectsOpen.symm, h.vram.symm, h.oam.symm, fun now => (h.update now).symm⟩

theorem trans (h : d.LooksLike e) (h' : e.LooksLike f) : d.LooksLike f :=
  ⟨fun addr => (h'.read addr).trans (h.read addr), h'.line.trans h.line, h'.mode.trans h.mode,
    h'.running.trans h.running, h'.videoOpen.trans h.videoOpen, h'.objectsOpen.trans h.objectsOpen,
    h'.vram.trans h.vram, h'.oam.trans h.oam, fun now => (h'.update now).trans (h.update now)⟩

end LooksLike

theorem looksLike_rested (d : Display) : d.LooksLike d.rested := by
  cases h : d.running with
  | true =>
    rw [rested_of_running h]
    exact .refl d
  | false =>
    rw [rested_of_not_running h]
    exact ⟨fun _ => rfl, rfl, rfl, rfl, rfl, rfl, rfl, rfl, fun now => (update_wiped h now).2.1⟩

theorem looksLike_recount (d : Display) (n k : Nat) : d.LooksLike (d.recount n k) :=
  ⟨fun _ => rfl, rfl, rfl, rfl, rfl, rfl, rfl, rfl,
    fun now => by rw [(d.update_recount n k now).1]⟩

theorem Alike.looksLike {d e : Display} (h : d.Alike e) : d.LooksLike e := by
  have hevents (now : Nat) : (e.update now).2 = (d.update now).2 := (h.update now).2.1
  obtain ⟨frame, slot, rfl, -, -⟩ := h
  exact ⟨fun _ => rfl, rfl, rfl, rfl, rfl, rfl, rfl, rfl, hevents⟩

theorem frames_rested (d : Display) : d.rested.frames = d.frames := by
  unfold rested
  split <;> rfl

theorem Resembles.looksLike {n : Nat} {d e : Display} (h : d.Resembles n e) :
    d.LooksLike e ∧ e.frames = n + d.frames := by
  obtain ⟨k, halike⟩ := h
  have hsame : e.rested.frames = (d.rested.recount n k).frames := by
    rw [halike.eq]
  refine ⟨?_, ?_⟩
  · exact ((looksLike_rested d).trans (looksLike_recount _ n k)).trans
      (halike.looksLike.trans (looksLike_rested e).symm)
  · rw [frames_rested] at hsame
    rw [hsame, ← d.frames_rested]
    rfl

/-! ## Off and on -/

/-- The change switches the display on if it is off. -/
def Change.switchesOn : Change → Bool
  | write addr val => addr = 0xFF40 && anySet val 0x80
  | fill .. | update _ | take | giveBack _ | clear => false

/-- The display is off, and was not switched on since. -/
structure Off (d : Display) : Prop where
  running : d.running = false
  startAt : d.startAt = none
  phase : d.phase = none
  videoOpen : d.videoOpen = true
  objectsOpen : d.objectsOpen = true
  control : d.registers.lcdOn = false

theorem off_initial : initial.Off := ⟨rfl, rfl, rfl, rfl, rfl, by decide⟩

theorem off_switchOff {d : Display} {control : UInt8} (hcontrol : anySet control 0x80 = false)
    (hscheduled : (d.running || d.startAt.isSome) = true) : (d.write 0xFF40 control).Off := by
  rw [write_control]
  have hlcd : ({ d.registers with control } : Registers).lcdOn = false := hcontrol
  unfold toggle
  dsimp only
  rw [hlcd, hscheduled]
  exact ⟨rfl, rfl, rfl, rfl, rfl, hlcd⟩

theorem Off.toggle {d : Display} (h : d.Off) : d.toggle.Off := by
  unfold Display.toggle
  rw [h.control, h.running, h.startAt]
  exact h

theorem Off.apply {d : Display} (h : d.Off) {change : Change}
    (hchange : change.switchesOn = false) : (change.apply d).Off := by
  have hsame {e : Display} (hrunning : e.running = d.running) (hstart : e.startAt = d.startAt)
      (hphase : e.phase = d.phase) (hvideo : e.videoOpen = d.videoOpen)
      (hobjects : e.objectsOpen = d.objectsOpen) (hregisters : e.registers.lcdOn = false) : e.Off :=
    ⟨hrunning.trans h.running, hstart.trans h.startAt, hphase.trans h.phase,
      hvideo.trans h.videoOpen, hobjects.trans h.objectsOpen, hregisters⟩
  cases change with
  | write addr val =>
    show (d.write addr val).Off
    unfold Display.write
    dsimp only
    split
    · exact Off.toggle (hsame rfl rfl rfl rfl rfl hchange)
    all_goals exact hsame rfl rfl rfl rfl rfl h.control
  | update now =>
    show (d.update now).1.Off
    unfold Display.update
    dsimp only
    rw [h.startAt]
    exact hsame rfl h.startAt.symm rfl rfl rfl h.control
  | fill vram oam => exact hsame rfl rfl rfl rfl rfl h.control
  | take => exact hsame rfl rfl rfl rfl rfl h.control
  | giveBack frame => exact hsame rfl rfl rfl rfl rfl h.control
  | clear => exact hsame rfl rfl rfl rfl rfl h.control

theorem Off.perform {d : Display} (h : d.Off) {changes : List Change}
    (hchanges : ∀ change ∈ changes, change.switchesOn = false) : (d.perform changes).Off := by
  induction changes generalizing d with
  | nil => exact h
  | cons change changes ih =>
    exact ih (h.apply (hchanges change List.mem_cons_self)) fun c hc =>
      hchanges c (List.mem_cons_of_mem change hc)

theorem Off.switchOn {d : Display} (h : d.Off) {control : UInt8}
    (hcontrol : anySet control 0x80 = true) :
    d.write 0xFF40 control =
      { d with
        registers := { d.registers with control }
        startAt := some (d.now + startDelay)
        swallow := 1 } := by
  rw [write_control]
  have hlcd : ({ d.registers with control } : Registers).lcdOn = true := hcontrol
  unfold Display.toggle
  dsimp only
  rw [hlcd, h.running, h.startAt]
  rfl

/-! ## A new display -/

/-- The status register keeps its writable bits only. -/
def Masked (d : Display) : Prop := d.registers.status &&& 0x78 = d.registers.status

theorem Masked.of_registers {d e : Display} (h : d.Masked)
    (hstatus : e.registers.status = d.registers.status) : e.Masked := by
  unfold Masked at *
  rw [hstatus]
  exact h

theorem masked_initial : initial.Masked := by
  unfold Masked
  decide

theorem registers_toggle (d : Display) : d.toggle.registers = d.registers := by
  unfold toggle
  dsimp only
  split
  · rfl
  · split <;> rfl

theorem registers_update (d : Display) (now : Nat) : (d.update now).1.registers = d.registers := by
  cases hawake : d.awake? now with
  | none =>
    rw [update_of_asleep hawake]
    rfl
  | some pair =>
    obtain ⟨awake, clock⟩ := pair
    obtain ⟨_, _, _, hcase⟩ := awake?_eq_some_iff.1 hawake
    rw [update_of_awake hawake, (sameSetup_catchUp awake clock .none).registers]
    rcases hcase with ⟨-, rfl⟩ | ⟨-, -, rfl⟩ <;> rfl

theorem Masked.apply {d : Display} (h : d.Masked) (change : Change) : (change.apply d).Masked := by
  cases change with
  | write addr val =>
    show (d.write addr val).Masked
    unfold write
    dsimp only
    split
    · exact h.of_registers (by rw [registers_toggle])
    · show (val &&& 0x78) &&& 0x78 = val &&& 0x78
      rw [UInt8.and_assoc]
      rfl
    all_goals exact h.of_registers rfl
  | update now => exact h.of_registers (congrArg Registers.status (d.registers_update now))
  | fill vram oam => exact h.of_registers rfl
  | take => exact h.of_registers rfl
  | giveBack frame => exact h.of_registers rfl
  | clear => exact h.of_registers rfl

theorem Masked.perform {d : Display} (h : d.Masked) (changes : List Change) :
    (d.perform changes).Masked := by
  induction changes generalizing d with
  | nil => exact h
  | cons change changes ih => exact ih (h.apply change)

/-- Gives a new display the memories, the registers and the time of another one. -/
def setUp (d : Display) : List Change :=
  [.fill d.vram d.oam, .write 0xFF41 d.registers.status, .write 0xFF42 d.registers.scrollY,
    .write 0xFF43 d.registers.scrollX, .write 0xFF45 d.registers.lineCompare,
    .write 0xFF46 d.registers.dma, .write 0xFF47 d.registers.background,
    .write 0xFF48 d.registers.objects0, .write 0xFF49 d.registers.objects1,
    .write 0xFF4A d.registers.windowY, .write 0xFF4B d.registers.windowX, .update d.now]

theorem perform_setUp {e : Display} (h : e.startAt = none) (d : Display) :
    e.perform d.setUp =
      { e with
        vram := d.vram
        oam := d.oam
        registers :=
          { d.registers with
            control := e.registers.control
            status := d.registers.status &&& 0x78 }
        now := d.now } := by
  unfold perform setUp
  simp only [List.foldl, Change.apply, write, update, h]

/-- All that is left of the time before is the frames that were counted, and the exchange. -/
theorem Off.resembles {d e : Display} (hd : d.Off) (he : e.Off) (hmasked : d.Masked)
    (hframes : e.frames = 0) (hpublished : e.slot.published = 0) {control : UInt8}
    (hcontrol : anySet control 0x80 = true) :
    ((e.perform d.setUp).write 0xFF40 control).Resembles d.frames (d.write 0xFF40 control) := by
  have hnew : (e.perform d.setUp).Off := by
    rw [perform_setUp he.startAt]
    exact ⟨he.running, he.startAt, he.phase, he.videoOpen, he.objectsOpen, he.control⟩
  have hstatus : d.registers.status &&& 0x78 = d.registers.status := hmasked
  rw [hd.switchOn hcontrol, hnew.switchOn hcontrol, perform_setUp he.startAt, hstatus]
  refine ⟨d.slot.published, ?_⟩
  rw [rested_of_not_running (by exact he.running), rested_of_not_running (by exact hd.running)]
  -- the first frame will be swallowed, so the buffer does not matter
  refine ⟨d.frame, d.slot, ?_, ?_, fun hswallow => absurd hswallow Nat.one_ne_zero⟩
  · simp [wiped, recount, hd.running, he.running, hd.phase, he.phase, hd.videoOpen, he.videoOpen,
      hd.objectsOpen, he.objectsOpen, hframes]
  · simp [wiped, recount, hpublished]

/-- A display that is on or about to start is switched off, anything but switching it on is done to
it, and then it is switched on. From then on it is like a new display that was given the same
memories, registers and time and is switched on then: whatever is done to both, they read the same,
raise the same interrupts and period boundaries, and publish the same frames. The frames that the
one has counted more are those that it had counted when it was switched on.

The published frames are those of the events: by `slot_apply` a change puts these into the exchange
and no others, in their order. -/
theorem restart_like_new (past : List Change) {off : UInt8} (hoff : anySet off 0x80 = false)
    (hscheduled : ((initial.perform past).running || (initial.perform past).startAt.isSome) = true)
    {gap : List Change} (hgap : ∀ change ∈ gap, change.switchesOn = false)
    {on : UInt8} (hon : anySet on 0x80 = true) (later : List Change) :
    let quiet := ((initial.perform past).write 0xFF40 off).perform gap
    let cycled := quiet.write 0xFF40 on
    let fresh := (initial.perform quiet.setUp).write 0xFF40 on
    (fresh.perform later).LooksLike (cycled.perform later) ∧
    (cycled.history later).flatMap Event.published =
      (fresh.history later).flatMap Event.published ∧
    (cycled.perform later).frames = cycled.frames + (fresh.perform later).frames := by
  intro quiet cycled fresh
  have hmasked : quiet.Masked :=
    Masked.perform (Masked.apply (Masked.perform masked_initial past) (.write 0xFF40 off)) gap
  have hquiet : quiet.Off := (off_switchOff hoff hscheduled).perform hgap
  have hframes : cycled.frames = quiet.frames := by
    show (quiet.write 0xFF40 on).frames = _
    rw [hquiet.switchOn hon]
  obtain ⟨hresembles, hpublished⟩ :=
    (hquiet.resembles off_initial hmasked rfl rfl hon).perform later
  obtain ⟨hlooks, hcount⟩ := hresembles.looksLike
  rw [← hframes] at hcount
  exact ⟨hlooks, hpublished, hcount⟩

/-- A display that is switched off in the middle of its second line, and runs again. -/
theorem restart_like_new_midLine :
    let quiet := ((initial.perform [.write 0xFF40 0x91, .update 800]).write 0xFF40 0x11).perform
      [.write 0xFF4A 0x20, .update 1000]
    let cycled := (quiet.write 0xFF40 0x91).perform [.update 2000]
    let fresh := ((initial.perform quiet.setUp).write 0xFF40 0x91).perform [.update 2000]
    fresh.LooksLike cycled ∧ cycled.frames = fresh.frames := by
  intro quiet cycled fresh
  have hoff : anySet 0x11 0x80 = false := by decide
  have hon : anySet 0x91 0x80 = true := by decide
  have hgap : ∀ change ∈ [Change.write 0xFF4A 0x20, .update 1000], change.switchesOn = false := by
    decide
  obtain ⟨hlooks, -, hframes⟩ := restart_like_new [.write 0xFF40 0x91, .update 800] hoff
    (by decide +kernel) hgap hon [.update 2000]
  refine ⟨hlooks, hframes.trans ?_⟩
  have hnone : (quiet.write 0xFF40 0x91).frames = 0 := by decide +kernel
  rw [hnone, Nat.zero_add]

end DotMatrix.Display
