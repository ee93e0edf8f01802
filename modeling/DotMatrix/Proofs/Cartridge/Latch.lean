import DotMatrix.Proofs.Cartridge.ClockFile
import DotMatrix.Proofs.Cartridge.RamCells

/-!
# The latch of the clock

A program does not read the clock but a copy of its registers. The latch makes the copy when a value
other than zero is written to it right after a zero (`Latching`), and of all that a program can
write, this is all that changes the copy (`exists_clock_after`). A read returns a byte and no
cartridge, so that it cannot change anything.
-/

namespace DotMatrix

namespace RealTimeClock

variable {τ : Type} [Timeline τ]

/-- The copy of the registers, and whether the next value other than zero renews it. -/
def latch (k : RealTimeClock τ) : ClockRegisters × Bool := (k.latched, k.latchArmed)

/-- Whatever a write to a register does, whether it sets, halts or resumes the clock. -/
theorem latch_write (k : RealTimeClock τ) (now : τ) (reg val : UInt8) :
    (k.write now reg val).latch = k.latch := by
  unfold write latch
  dsimp only
  split <;> rfl

/-- A clock whose latch nothing was written to: its copy is of the time when it was made. -/
structure Unlatched (k : RealTimeClock τ) (now : τ) : Prop where
  latched : k.latched = k.current now
  armed : k.latchArmed = false

theorem unlatched_create (now : τ) (saved : Option τ) : (create now saved).Unlatched now :=
  ⟨rfl, rfl⟩

end RealTimeClock

namespace Cartridge

variable {τ : Type}

/-! ## The latch and the window -/

/-- Writes to this range go to the latch. -/
def InLatch (addr : UInt16) : Prop := 0x6000 ≤ addr ∧ addr < 0x8000

instance (addr : UInt16) : Decidable (InLatch addr) :=
  inferInstanceAs (Decidable (0x6000 ≤ addr ∧ addr < 0x8000))

/-- The register of the clock that is selected, if one is. -/
def register? (c : Cartridge τ) : Option UInt8 :=
  match c.controller with
  | .mbc3 m =>
    match m.select with
    | .clock reg => some reg
    | .ram _ => none
  | _ => none

theorem read_of_register {c : Cartridge τ} {k : RealTimeClock τ} {addr : UInt16} {reg : UInt8}
    (hwindow : InWindow addr) (hon : c.ramOn = true) (hselect : c.register? = some reg)
    (hclock : c.clock? = some k) : c.read addr = k.latched.read reg := by
  rw [read_of_window hwindow]
  unfold ramOn at hon
  unfold register? at hselect
  unfold clock? at hclock
  unfold readExternal
  cases hcontroller : c.controller with
  | fixed => simp [hcontroller] at hclock
  | mbc1 m => simp [hcontroller] at hclock
  | mbc3 m =>
    simp only [hcontroller] at hon hselect hclock
    cases hselected : m.select with
    | ram bank => simp [hselected] at hselect
    | clock selected =>
      simp only [hselected, Option.some.injEq] at hselect
      simp [hon, hselected, hclock, hselect]

/-! ## A write -/

variable [Timeline τ]

def latch? (c : Cartridge τ) : Option (ClockRegisters × Bool) := c.clock?.map (·.latch)

theorem latch?_saveClock (c : Cartridge τ) (host : Host τ) (always : Bool) :
    (c.saveClock host always).1.latch? = c.latch? := by
  unfold latch?
  rcases c.clock?_saveClock host always with hclock | hclock
  · rw [hclock]
  · rw [hclock, Option.map_map]
    rfl

/-- A write to the window can go to a register of the clock, and the clock can be saved then. -/
theorem latch?_writeExternal (c : Cartridge τ) (host : Host τ) (offset : Nat) (val : UInt8) :
    (c.writeExternal host offset val).1.latch? = c.latch? := by
  unfold writeExternal
  split
  · rfl
  · split <;> rfl
  · rename_i m hcontroller
    split
    · rfl
    · split
      · rfl
      · rename_i reg clock hselect hsome
        rw [latch?_saveClock]
        unfold latch?
        rw [clock?_of_mbc3 hcontroller, hsome]
        exact congrArg some (clock.latch_write host.calendar reg val)
      · rfl

theorem latch?_after_of_not {w : BusWrite τ} (h : ¬InLatch w.addr) (c : Cartridge τ) :
    (c.after w).latch? = c.latch? := by
  unfold after write
  split
  · rename_i hregister
    have hlt : w.addr < 0x6000 := UInt16.not_le.1 (fun hle => h ⟨hle, hregister⟩)
    unfold latch?
    rw [clock?_writeRegister_of_lt hlt]
  · split
    · exact c.latch?_writeExternal w.host _ w.val
    · rfl

theorem clock?_after_of_latch {w : BusWrite τ} (h : InLatch w.addr) (c : Cartridge τ) :
    (c.after w).clock? = c.clock?.map (·.writeLatch w.host.calendar w.val) := by
  unfold after write
  rw [if_pos h.2]
  exact clock?_writeRegister_of_latch h.1 c w.host.calendar w.val

/-- What a write can do to the copy and to the latch: only a write to the latch does anything. -/
theorem exists_clock_after {c : Cartridge τ} {k : RealTimeClock τ} (hclock : c.clock? = some k)
    (w : BusWrite τ) :
    ∃ k', (c.after w).clock? = some k' ∧
      k'.latched = (if InLatch w.addr ∧ w.val ≠ 0 ∧ k.latchArmed = true
        then k.current w.host.calendar else k.latched) ∧
      k'.latchArmed = if InLatch w.addr then decide (w.val = 0) else k.latchArmed := by
  by_cases hlatch : InLatch w.addr
  · refine ⟨k.writeLatch w.host.calendar w.val, ?_, ?_⟩
    · rw [clock?_after_of_latch hlatch, hclock]
      rfl
    · unfold RealTimeClock.writeLatch
      by_cases hzero : w.val = 0
      · simp [hlatch, hzero]
      · simp [hlatch, hzero]
  · -- a register of the clock may have been written, but its latch is the same
    have hsame := latch?_after_of_not hlatch c
    unfold latch? at hsame
    rw [hclock, Option.map_some] at hsame
    obtain ⟨k', hk', heq⟩ := Option.map_eq_some_iff.1 hsame
    obtain ⟨hlatched, harmed⟩ := Prod.mk.inj heq
    refine ⟨k', hk', ?_, ?_⟩
    · rw [if_neg (fun hall => hlatch hall.1)]
      exact hlatched
    · rw [if_neg hlatch]
      exact harmed

/-! ## Histories -/

section Spec

omit [Timeline τ]

/-- The value that was written last to the latch in the course of the writes, if any was. -/
def lastLatch? (ws : List (BusWrite τ)) : Option UInt8 :=
  (ws.filter fun w => InLatch w.addr).getLast?.map BusWrite.val

/-- After these writes, one more copies the registers of the clock: it writes a value other than
zero to the latch, and the write to the latch right before it wrote a zero. -/
def Latching (before : List (BusWrite τ)) (w : BusWrite τ) : Prop :=
  InLatch w.addr ∧ w.val ≠ 0 ∧ lastLatch? before = some 0

instance (before : List (BusWrite τ)) (w : BusWrite τ) : Decidable (Latching before w) :=
  inferInstanceAs (Decidable (_ ∧ _))

/-- The last of the writes that copies the registers, if any does, and all the writes before it. -/
def lastLatching? (before : List (BusWrite τ)) :
    List (BusWrite τ) → Option (List (BusWrite τ) × BusWrite τ)
  | [] => none
  | w :: ws =>
    (lastLatching? (before ++ [w]) ws).or (if Latching before w then some (before, w) else none)

theorem lastLatch?_concat (ws : List (BusWrite τ)) (w : BusWrite τ) :
    lastLatch? (ws ++ [w]) = if InLatch w.addr then some w.val else lastLatch? ws := by
  unfold lastLatch?
  rw [List.filter_append]
  by_cases hlatch : InLatch w.addr <;> simp [hlatch]

theorem lastLatching?_concat (before ws : List (BusWrite τ)) (w : BusWrite τ) :
    lastLatching? before (ws ++ [w]) =
      if Latching (before ++ ws) w then some (before ++ ws, w) else lastLatching? before ws := by
  induction ws generalizing before with
  | nil =>
    rw [List.append_nil]
    rfl
  | cons v ws ih =>
    have happend : before ++ [v] ++ ws = before ++ v :: ws := by simp
    rw [List.cons_append, lastLatching?, ih, lastLatching?, happend]
    by_cases hlatching : Latching (before ++ v :: ws) w
    · rw [if_pos hlatching, if_pos hlatching]
      rfl
    · rw [if_neg hlatching, if_neg hlatching]

end Spec

/-- What the clock of a cartridge shows at a time, if it has one. -/
def live? (c : Cartridge τ) (now : τ) : Option ClockRegisters := c.clock?.map (·.current now)

/-- What the clock showed at the last of the writes that copied its registers, or, if none of them
did, at the time when there were no writes yet. -/
def copied? (c : Cartridge τ) (now : τ) (ws : List (BusWrite τ)) : Option ClockRegisters :=
  match lastLatching? [] ws with
  | some (before, w) => (c.afterAll before).live? w.host.calendar
  | none => c.live? now

theorem copied?_concat (c : Cartridge τ) (now : τ) (ws : List (BusWrite τ)) (w : BusWrite τ) :
    c.copied? now (ws ++ [w]) =
      if Latching ws w then (c.afterAll ws).live? w.host.calendar else c.copied? now ws := by
  unfold copied?
  rw [lastLatching?_concat, List.nil_append]
  by_cases hlatching : Latching ws w
  · rw [if_pos hlatching, if_pos hlatching]
  · rw [if_neg hlatching, if_neg hlatching]

theorem afterAll_concat (c : Cartridge τ) (ws : List (BusWrite τ)) (w : BusWrite τ) :
    c.afterAll (ws ++ [w]) = (c.afterAll ws).after w :=
  List.foldl_concat after c w ws

/-- The latch after any writes. -/
structure Holds (k : RealTimeClock τ) (ws : List (BusWrite τ)) (copy : Option ClockRegisters) :
    Prop where
  armed : k.latchArmed = decide (lastLatch? ws = some 0)
  latched : copy = some k.latched

variable {c : Cartridge τ} {k : RealTimeClock τ} {now : τ}

/-- The latch is armed exactly if the last value written to it was a zero, and its copy is of the
time that `copied?` says. -/
theorem exists_holds (hclock : c.clock? = some k) (hunlatched : k.Unlatched now)
    (ws : List (BusWrite τ)) :
    ∃ k', (c.afterAll ws).clock? = some k' ∧ Holds k' ws (c.copied? now ws) := by
  -- a history grows at its end, and what is read there depends on all that was before
  induction ws using List.reverseRecOn with
  | nil =>
    refine ⟨k, hclock, hunlatched.armed, ?_⟩
    show c.clock?.map (·.current now) = some k.latched
    rw [hclock, hunlatched.latched]
    rfl
  | append_singleton ws w ih =>
    obtain ⟨k₁, hclock₁, harmed₁, hcopied₁⟩ := ih
    obtain ⟨k₂, hclock₂, hlatched₂, harmed₂⟩ := exists_clock_after hclock₁ w
    refine ⟨k₂, afterAll_concat c ws w ▸ hclock₂, ?_, ?_⟩
    · rw [harmed₂, harmed₁, lastLatch?_concat]
      split <;> simp
    · -- to be armed is to have been written a zero last
      have hready : (InLatch w.addr ∧ w.val ≠ 0 ∧ k₁.latchArmed = true) ↔ Latching ws w := by
        rw [harmed₁, decide_eq_true_iff]
        rfl
      rw [copied?_concat, hlatched₂]
      by_cases hlatching : Latching ws w
      · rw [if_pos hlatching, if_pos (hready.2 hlatching)]
        unfold live?
        rw [hclock₁]
        rfl
      · rw [if_neg hlatching, if_neg (mt hready.1 hlatching)]
        exact hcopied₁

/-! ## Loading -/

/-- A cartridge that was loaded at a time, from an image alone or from a file. -/
inductive LoadedAt (now : τ) (c : Cartridge τ) : Prop
  | image {image : ByteArray} (h : ofBytes now image = .ok c)
  | file {host host' : Host τ} {path : String} (hnow : host.calendar = now)
      (h : ofFile host path = (.ok c, host'))

theorem unlatched_of_ofBytes {image : ByteArray} (h : ofBytes now image = .ok c) :
    ∀ k ∈ c.clock?, k.Unlatched now := by
  obtain ⟨capability, controller, -, hcontroller, -, rfl⟩ := ofBytes_eq_ok_iff.1 h
  unfold controller? at hcontroller
  unfold clock?
  split at hcontroller <;> cases hcontroller
  · simp
  · simp
  · cases capability.hasTimer with
    | false => simp [Mbc3.initial]
    | true =>
      rintro k ⟨⟩
      exact RealTimeClock.unlatched_create now none

/-- A clock that is restored is made anew, and saving it then does not touch the latch. -/
theorem unlatched_restore (c : Cartridge τ) (host : Host τ) (path : String) :
    ∀ k ∈ (c.restore host path).1.clock?, k.Unlatched host.calendar := by
  intro k hk
  obtain ⟨saved, rfl | rfl⟩ := created_of_restore hk
  · exact RealTimeClock.unlatched_create host.calendar saved
  · exact ⟨rfl, rfl⟩

theorem LoadedAt.unlatched (h : c.LoadedAt now) : ∀ k ∈ c.clock?, k.Unlatched now := by
  cases h with
  | image h => exact unlatched_of_ofBytes h
  | file hnow h =>
    obtain ⟨image, fresh, -, -, rfl, -⟩ := ofFile_ok h
    exact hnow ▸ fresh.unlatched_restore _ _

/-- A cartridge with a timer has a clock. -/
theorem LoadedAt.exists_clock (h : c.LoadedAt now) (hfamily : c.capability.family = .mbc3)
    (htimer : c.capability.hasTimer = true) : ∃ k, c.clock? = some k := by
  have hsome : c.clock?.isSome = (c.capability.family = .mbc3 && c.capability.hasTimer) := by
    cases h with
    | image h => exact isSome_clock?_of_ofBytes h
    | file hnow h =>
      obtain ⟨image, fresh, -, hbytes, rfl, -⟩ := ofFile_ok h
      rw [(fresh.clock?_restore _ _).1, (fresh.restored_restore _ _).capability]
      exact isSome_clock?_of_ofBytes hbytes
  apply Option.isSome_iff_exists.1
  rw [hsome, hfamily, htimer]
  rfl

/-- Seconds are selected and latched, and then set to 30 while the copy stays as it is. -/
def latchSeconds : List (BusWrite Float) :=
  [(0x0000, 0x0A), (0x4000, 0x08), (0x6000, 0x00), (0x7FFF, 0x01), (0xA000, 0x1E),
    (0x6000, 0x01)].map fun (addr, val) => ⟨⟨default, none, Float.ofNat 2000, 0, []⟩, addr, val⟩

end Cartridge

end DotMatrix
