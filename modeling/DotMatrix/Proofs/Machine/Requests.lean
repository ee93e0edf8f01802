import DotMatrix.Proofs.Cpu.Writes
import DotMatrix.Proofs.Machine.HostActivity
import DotMatrix.Proofs.Machine.Interrupts

/-!
# Requests are kept

The timer, the display, the buttons and the program all write the interrupt flags. The devices
only add requests, so a request stays until its interrupt is taken or the program writes the
flags (`requested_attended`). A button that goes down is remembered until time passes, and then
becomes a request (`requested_of_press`).
-/

namespace DotMatrix

variable {τ : Type}

/-! ## The timer's request -/

namespace Timer

theorem resetDivider_snd (t : Timer) : t.resetDivider.2 = t.reloadPending := by
  unfold resetDivider reload
  cases h : t.reloadPending <;> simp

/-- Of the writes to the timer, only one to the divider requests the interrupt. -/
theorem write_snd (t : Timer) {addr : UInt16} (h : addr ≠ 0xFF04) (val : UInt8) :
    (t.write addr val).2 = false := by
  unfold write
  split
  · exact absurd rfl h
  all_goals rfl

end Timer

/-! ## The flags of a bus -/

namespace Bus

/-- Whether an interrupt is requested. -/
def requested (b : Bus τ) (number : Nat) : Bool := b.interruptFlags.toNat.testBit number

/-- What is requested as time passes. -/
def requests (b : Bus τ) (cycles : Nat) : UInt8 :=
  let (timer, overflow) := b.timer.advance cycles
  bitsIf overflow Timer.interrupt ||| (b.display.update timer.now).2.requests
    ||| bitsIf b.joypad.panel.pressed Joypad.interrupt

theorem testBit_clear (flags : UInt8) {n : Nat} (hn : n < 8) (k : Nat) :
    (flags &&& ~~~((1 : UInt8) <<< n.toUInt8)).toNat.testBit k =
      (flags.toNat.testBit k && k != n) := by
  have hmask : ∀ n k : Fin 8,
      (~~~((1 : UInt8) <<< n.val.toUInt8)).toNat.testBit k = (k.val != n.val) := by decide
  rw [UInt8.toNat_and, Nat.testBit_and]
  by_cases hk : k < 8
  · rw [hmask ⟨n, hn⟩ ⟨k, hk⟩]
  · have hlt : flags.toNat < 2 ^ k :=
      Nat.lt_of_lt_of_le flags.toNat_lt (Nat.pow_le_pow_right (by decide) (Nat.le_of_not_lt hk))
    rw [Nat.testBit_lt_two_pow hlt, Bool.false_and, Bool.false_and]

theorem requested_acknowledge (b : Bus τ) {n : Nat} (hn : n < 8) (k : Nat) :
    (b.acknowledgeInterrupt ((1 : UInt8) <<< n.toUInt8)).requested k =
      (b.requested k && k != n) :=
  testBit_clear b.interruptFlags hn k

theorem interruptFlags_runDma (b : Bus τ) :
    b.runDma.2.interruptFlags = b.interruptFlags := by rw [runDma_snd]

theorem interruptFlags_resetDivider (b : Bus τ) :
    b.resetDivider.interruptFlags =
      b.interruptFlags ||| bitsIf b.timer.reloadPending Timer.interrupt := by
  rw [← b.timer.resetDivider_snd]
  rfl

theorem interruptFlags_advance (b : Bus τ) (cycles : Nat) :
    (b.advance cycles).2.interruptFlags = b.interruptFlags ||| b.requests cycles := by
  unfold requests
  dsimp only
  rw [← UInt8.or_assoc, ← UInt8.or_assoc]
  rfl

/-! ### Writes -/

variable [Timeline τ]

theorem interruptFlags_write {b : Bus τ} {addr : UInt16} (hdivider : addr ≠ 0xFF04)
    (hflags : addr ≠ 0xFF0F) (val : UInt8) :
    (b.write addr val).interruptFlags = b.interruptFlags := by
  have hwritten := b.written_write addr val
  generalize b.write addr val = b' at *
  cases hwritten with
  | timer =>
    show b.interruptFlags ||| bitsIf (b.timer.write addr val).2 Timer.interrupt = _
    rw [Timer.write_snd _ hdivider]
    exact UInt8.or_zero
  | interruptFlags haddr => exact absurd haddr hflags
  | _ => rfl

theorem interruptFlags_write_divider (b : Bus τ) (val : UInt8) :
    (b.write 0xFF04 val).interruptFlags =
      b.interruptFlags ||| bitsIf b.timer.reloadPending Timer.interrupt :=
  b.interruptFlags_resetDivider

/-! ### What keeps a request -/

omit [Timeline τ] in
theorem requested_of_or {b b' : Bus τ} {flags : UInt8}
    (h : b'.interruptFlags = b.interruptFlags ||| flags) {k : Nat} (hk : b.requested k = true) :
    b'.requested k = true := by
  unfold requested at *
  rw [h, UInt8.toNat_or, Nat.testBit_or, hk, Bool.true_or]

theorem requested_write {b : Bus τ} {addr : UInt16} (haddr : addr ≠ 0xFF0F) (val : UInt8)
    {k : Nat} (hk : b.requested k = true) : (b.write addr val).requested k = true := by
  by_cases hdivider : addr = 0xFF04
  · rw [hdivider]
    exact requested_of_or (b.interruptFlags_write_divider val) hk
  · unfold requested
    rw [interruptFlags_write hdivider haddr]
    exact hk

theorem requested_perform {b : Bus τ} {writes : Writes} (h : ∀ val, (0xFF0F, val) ∉ writes)
    {k : Nat} (hk : b.requested k = true) : (b.perform writes).requested k = true := by
  induction writes generalizing b with
  | nil => exact hk
  | cons write rest ih =>
    have haddr : write.1 ≠ 0xFF0F := fun haddr =>
      h write.2 (haddr ▸ List.mem_cons_self)
    exact ih (fun val hmem => h val (List.mem_cons_of_mem _ hmem)) (requested_write haddr _ hk)

omit [Timeline τ] in
/-- Before its writes, an action clears no flag but that of the interrupt that it takes. -/
theorem requested_opening {b : Bus τ} {action : Action} {k : Nat}
    (hnumber : ∀ number, action = .takes number → number < 5 ∧ number ≠ k)
    (hk : b.requested k = true) : (action.opening b).requested k = true := by
  unfold Action.opening
  split
  · rename_i number
    obtain ⟨hlt, hne⟩ := hnumber number rfl
    rw [b.requested_acknowledge (by omega), hk]
    simpa using hne.symm
  · exact requested_of_or b.interruptFlags_resetDivider hk
  · exact hk

end Bus

namespace Machine

/-- The writes of the next step. -/
def writes (m : Machine τ) : Writes := Core.stepWrites m.cpu m.bus

/-! ## Steps and runs -/

theorem meanwhile_apply (m : Machine τ) (activity : Activity) :
    m.Meanwhile (activity.apply m) := by
  cases activity with
  | press buttons => exact m.meanwhile_press _
  | takeFrame => exact m.meanwhile_slot _
  | giveFrame frame => exact m.meanwhile_slot _
  | clearFrames => exact m.meanwhile_slot _
  | takeSamples => exact m.meanwhile_queue _ m.bus.sound.pace
  | giveSamples frame => exact m.meanwhile_queue _ m.bus.sound.pace
  | clearSamples => exact m.meanwhile_queue _ m.bus.sound.pace
  | setSpeed multiplier => exact m.meanwhile_queue _ _

theorem meanwhile_attend (m : Machine τ) (activities : List Activity) :
    m.Meanwhile (m.attend activities) := by
  induction activities generalizing m with
  | nil => exact .refl m
  | cons activity rest ih => exact (m.meanwhile_apply activity).trans (ih _)

theorem Meanwhile.requested {m m' : Machine τ} (h : m.Meanwhile m') (k : Nat) :
    m'.bus.requested k = m.bus.requested k := by
  unfold Bus.requested
  rw [h.bus.interruptFlags]

variable [Timeline τ]

theorem requested_step {m : Machine τ} {k : Nat} (htakes : m.action ≠ .takes k)
    (hwrites : ∀ val, (0xFF0F, val) ∉ m.writes) (hk : m.bus.requested k = true) :
    m.step.2.bus.requested k = true := by
  have hcopied : m.bus.runDma.2.requested k = true := by
    unfold Bus.requested
    rw [Bus.interruptFlags_runDma]
    exact hk
  have hopened : (m.action.opening m.bus.runDma.2).requested k = true := by
    refine Bus.requested_opening (fun number haction => ⟨(takes_spec haction).2, ?_⟩) hcopied
    rintro rfl
    exact htakes haction
  have hcore : (Core.step m.cpu m.bus).1.bus.requested k = true := by
    rw [Core.bus_step]
    exact Bus.requested_perform hwrites hopened
  rw [bus_step]
  split
  · exact hcore
  · exact Bus.requested_of_or (Bus.interruptFlags_advance _ _) hcore

/-- A request is there at the end of a run, unless a step of the run has taken the interrupt or
written the flags. -/
theorem requested_attended {m : Machine τ} {k : Nat} (hk : m.bus.requested k = true)
    (gaps : List (List Activity)) :
    (m.attended gaps).bus.requested k = true ∨
      ∃ before gap after, gaps = before ++ gap :: after ∧
        let now := (m.attended before).attend gap
        now.action = .takes k ∨ ∃ val, (0xFF0F, val) ∈ now.writes := by
  induction gaps generalizing m with
  | nil => exact .inl hk
  | cons gap gaps ih =>
    -- the first step keeps the request or is one of those looked for
    by_cases hlost : (m.attend gap).action = .takes k ∨
        ∃ val, (0xFF0F, val) ∈ (m.attend gap).writes
    · exact .inr ⟨[], gap, gaps, rfl, hlost⟩
    · rw [not_or, not_exists] at hlost
      have hattended := ((m.meanwhile_attend gap).requested k).trans hk
      rcases ih (requested_step hlost.1 hlost.2 hattended) with
        hkept | ⟨before, later, after, rfl, h⟩
      · exact .inl hkept
      · exact .inr ⟨gap :: before, later, after, rfl, h⟩

end Machine

/-! ## Presses -/

theorem anySet_not {now before mask : UInt8} (hnow : anySet now mask = true)
    (hbefore : anySet before mask = false) : anySet now (~~~before) = true := by
  unfold anySet at *
  simp only [bne_iff_ne, ne_eq, bne_eq_false_iff_eq] at *
  refine fun hnone => hnow (UInt8.toBitVec_inj.1 ?_)
  -- a bit of the mask that is set now was not set before
  ext i hi
  have hnone := congrArg (fun b : UInt8 => b.toBitVec[i]) hnone
  have hbefore := congrArg (fun b : UInt8 => b.toBitVec[i]) hbefore
  simp at hnone hbefore ⊢
  grind

namespace ButtonPanel

theorem pressed_publish {p : ButtonPanel} (h : p.pressed = true) (buttons : Buttons) :
    (p.publish buttons).pressed = true := by
  unfold publish
  rw [h, Bool.true_or]

theorem pressed_publish_of_rise {p : ButtonPanel} {buttons : Buttons} {button : Button}
    (hnow : buttons.held button = true) (hbefore : p.held.held button = false) :
    (p.publish buttons).pressed = true :=
  Bool.or_eq_true_iff.2 (.inr (anySet_not hnow hbefore))

end ButtonPanel

namespace Bus

variable {b b' : Bus τ}

theorem panel_runDma (b : Bus τ) : b.runDma.2.joypad.panel = b.joypad.panel := by rw [runDma_snd]

theorem requested_advance_of_pressed (h : b.joypad.panel.pressed = true) (cycles : Nat) :
    (b.advance cycles).2.requested 4 = true := by
  have hbutton : (bitsIf b.joypad.panel.pressed Joypad.interrupt).toNat.testBit 4 = true := by
    rw [h]
    decide
  unfold requested
  rw [interruptFlags_advance, UInt8.toNat_or, Nat.testBit_or]
  refine Bool.or_eq_true_iff.2 (.inr ?_)
  unfold requests
  rw [UInt8.toNat_or, Nat.testBit_or, hbutton, Bool.or_true]

variable [Timeline τ]

theorem panel_write (b : Bus τ) (addr : UInt16) (val : UInt8) :
    (b.write addr val).joypad.panel = b.joypad.panel := by
  have hwritten := b.written_write addr val
  generalize b.write addr val = b' at *
  cases hwritten <;> rfl

/-- The processor does not take note of presses. -/
theorem Becomes.panel (h : b.Becomes b') : b'.joypad.panel = b.joypad.panel :=
  h.invariant (fun c addr val hc => (c.panel_write addr val).trans hc) (fun _ hc => hc)
    (fun _ _ hc => hc) rfl

end Bus

namespace Machine

/-- A press that the console has not taken note of. -/
def Pressed (m : Machine τ) : Prop := m.bus.joypad.panel.pressed = true

theorem Pressed.attend {m : Machine τ} (h : m.Pressed) (activities : List Activity) :
    (m.attend activities).Pressed := by
  induction activities generalizing m with
  | nil => exact h
  | cons activity rest ih =>
    refine ih ?_
    cases activity with
    | press buttons => exact ButtonPanel.pressed_publish h buttons
    | _ => exact h

variable [Timeline τ]

theorem Pressed.core {m : Machine τ} (h : m.Pressed) :
    (Core.step m.cpu m.bus).1.bus.joypad.panel.pressed = true := by
  rw [(Core.becomes_step m.cpu m.bus).panel, Bus.panel_runDma]
  exact h

theorem bus_step_of_error {m : Machine τ} {fault : Fault} (h : m.step.1 = .error fault) :
    m.step.2.bus = (Core.step m.cpu m.bus).1.bus := by
  unfold step at *
  split at h
  · rename_i hcore
    rw [hcore]
  · cases h

theorem bus_step_of_ok {m : Machine τ} {boundary : Bool} (h : m.step.1 = .ok boundary) :
    m.step.2.bus = ((Core.step m.cpu m.bus).1.bus.advance (Core.step m.cpu m.bus).1.cycles).2 := by
  unfold step at *
  split at h
  · cases h
  · rename_i hcore
    rw [hcore]

/-- After a fault no time has passed. -/
theorem Pressed.attended {m : Machine τ} (h : m.Pressed) {gaps : List (List Activity)}
    (hfaults : ∀ outcome ∈ m.outcomes gaps, ∃ fault, outcome.result = .error fault) :
    (m.attended gaps).Pressed := by
  induction gaps generalizing m with
  | nil => exact h
  | cons gap gaps ih =>
    obtain ⟨fault, hfault⟩ := hfaults _ List.mem_cons_self
    refine ih ?_ fun outcome hmem => hfaults outcome (List.mem_cons_of_mem _ hmem)
    unfold Pressed
    rw [bus_step_of_error hfault]
    exact (h.attend gap).core

theorem requested_of_press {m : Machine τ} {buttons : Buttons} {button : Button}
    (hnow : buttons.held button = true) (hbefore : m.bus.joypad.panel.held.held button = false)
    {gaps : List (List Activity)}
    (hfaults : ∀ outcome ∈ (m.press buttons).outcomes gaps, ∃ fault, outcome.result = .error fault)
    (gap : List Activity) :
    let m' := ((m.press buttons).attended gaps).attend gap
    (∀ cycles, (m'.bus.advance cycles).2.requested 4 = true) ∧
      ∀ boundary, m'.step.1 = .ok boundary → m'.step.2.bus.requested 4 = true := by
  intro m'
  have hpressed : (m.press buttons).Pressed := ButtonPanel.pressed_publish_of_rise hnow hbefore
  have hlater : m'.Pressed := (hpressed.attended hfaults).attend gap
  refine ⟨fun cycles => Bus.requested_advance_of_pressed hlater cycles, fun boundary hok => ?_⟩
  rw [bus_step_of_ok hok]
  exact Bus.requested_advance_of_pressed hlater.core _

end Machine

end DotMatrix
