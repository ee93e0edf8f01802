import DotMatrix.Proofs.Cartridge.RamCells
import DotMatrix.Proofs.Cpu.Writes
import DotMatrix.Proofs.Machine.PowerCycle

/-!
# A save that is refused

A request to save external memory ends with the attempt, and the snapshot that waited goes with it,
whether the storage accepts it or not. By then the memory is not marked as modified any more. So
contents that were refused are not offered again until a write changes the memory (`refused_save`);
what waits behind them and what is changed later is saved as ever.
-/

namespace DotMatrix

variable {τ : Type}

/-! ## The answer of the storage -/

/-- A table refuses what it is told to. -/
theorem Storage.save_refused {s : Storage} {unreadable unwritable : List String} {path : String}
    (hmedium : s.medium = .table unreadable unwritable) (hpath : path ∈ unwritable)
    (bytes : ByteArray) : (s.save path bytes).1 ≠ .ok () := by
  have hfolders : s.makeFolders path = (.ok (), s) := by
    unfold makeFolders
    rw [hmedium]
  have hplace : s.place path = .error .saveRefused := by
    unfold place
    rw [hmedium]
    exact if_pos (by simpa using hpath)
  unfold save writeDeep
  rw [hfolders]
  dsimp only
  unfold write
  rw [hplace]
  intro h
  cases h

theorem Host.save_fst (h : Host τ) (what path : String) (bytes : ByteArray) :
    (h.save what path bytes).1 = true ↔ (h.storage.save path bytes).1 = .ok () := by
  unfold Host.save
  rcases h.storage.save path bytes with ⟨cause | _, storage⟩
  · exact ⟨fun h => (by cases h), fun h => (by cases h)⟩
  · exact ⟨fun _ => rfl, fun _ => rfl⟩

/-! ## What waits in the cartridge -/

namespace Cartridge

/-- The newest contents of external memory, if no one has asked yet to save them. -/
def unsaved? (c : Cartridge τ) : Option (Array UInt8) :=
  if c.capability.hasBattery && c.ram.modified then some c.ram.bytes
  else c.commit.map ExternalRam.bytes

theorem unsaved?_eq_none_iff {c : Cartridge τ} :
    c.unsaved? = none ↔ (c.capability.hasBattery && c.ram.modified) = false ∧ c.commit = none := by
  unfold unsaved?
  cases c.capability.hasBattery && c.ram.modified <;> simp

theorem commitRam_of_unsaved {c : Cartridge τ} (h : c.unsaved? = none) : c.commitRam = c := by
  unfold commitRam uncommitted
  rw [(unsaved?_eq_none_iff.1 h).1]
  rfl

/-- Only modified memory and the snapshot count. -/
theorem unsaved?_of_ram {c c' : Cartridge τ} (h : c.unsaved? = none)
    (hcapability : c'.capability = c.capability) (hram : c'.ram = c.ram)
    (hcommit : c'.commit = c.commit) : c'.unsaved? = none := by
  rw [← h]
  unfold unsaved?
  rw [hcapability, hram, hcommit]

end Cartridge

/-- A write that leaves the contents as they are does not mark the memory. -/
theorem ExternalRam.write_of_bytes {r : ExternalRam} {pos : Nat} {val : UInt8}
    (h : (r.write pos val).bytes = r.bytes) : r.write pos val = r := by
  unfold write at *
  split
  · rename_i hpos
    rw [dif_pos hpos] at h
    split
    · rfl
    · rename_i hne
      rw [if_neg hne] at h
      -- the byte that was written is another one than before
      refine absurd ?_ hne
      have hbyte : (r.bytes.set pos val)[pos]? = some val := Array.getElem?_set_self hpos
      rw [show r.bytes.set pos val = r.bytes from h, Array.getElem?_eq_getElem hpos] at hbyte
      exact Option.some.inj hbyte
  · rfl

namespace Cartridge

theorem unsaved?_writeRegister [Timeline τ] {c : Cartridge τ} (h : c.unsaved? = none) (now : τ)
    (addr : UInt16) (val : UInt8) : (c.writeRegister now addr val).unsaved? = none := by
  have hcontroller (controller : Controller τ) : { c with controller }.unsaved? = none :=
    unsaved?_of_ram h rfl rfl rfl
  have hcommit (controller : Controller τ) : { c with controller }.commitRam.unsaved? = none := by
    rw [commitRam_of_unsaved (hcontroller controller)]
    exact hcontroller controller
  unfold writeRegister
  split
  · exact h
  -- switching the memory off commits it, and the other registers are the controller's own
  all_goals
    dsimp only
    split
    · split
      · exact hcommit _
      · exact hcontroller _
    · split
      · exact hcontroller _
      · split <;> exact hcontroller _

theorem unsaved?_writeExternal [Timeline τ] {c : Cartridge τ} (h : c.unsaved? = none)
    (host : Host τ) (offset : Nat) (val : UInt8)
    (hbytes : c.capability.hasBattery = true →
      (c.writeExternal host offset val).1.ram.bytes = c.ram.bytes) :
    (c.writeExternal host offset val).1.unsaved? = none := by
  have hram {pos : Nat} (hbytes : c.capability.hasBattery = true →
      (c.ram.write pos val).bytes = c.ram.bytes) :
      { c with ram := c.ram.write pos val }.unsaved? = none := by
    cases hbattery : c.capability.hasBattery with
    | false =>
      refine unsaved?_eq_none_iff.2 ⟨?_, (unsaved?_eq_none_iff.1 h).2⟩
      rw [hbattery, Bool.false_and]
    | true => exact unsaved?_of_ram h rfl (ExternalRam.write_of_bytes (hbytes hbattery)) rfl
  unfold writeExternal at *
  split at hbytes
  · exact hram hbytes
  · split at hbytes <;> rename_i hon
    · rw [if_pos hon]
      exact hram hbytes
    · rw [if_neg hon]
      exact h
  · split at hbytes <;> rename_i hoff
    · rw [if_pos hoff]
      exact h
    · rw [if_neg hoff]
      split at hbytes
      · exact hram hbytes
      · obtain ⟨controller, hsaved⟩ := (clockSaved_saveClock _ host false).cartridge
        rw [hsaved]
        exact unsaved?_of_ram h rfl rfl rfl
      · exact h

/-- As long as a write leaves the contents that a battery keeps as they are, it leaves nothing to be
saved. -/
theorem unsaved?_write [Timeline τ] {c : Cartridge τ} (h : c.unsaved? = none) (host : Host τ)
    (addr : UInt16) (val : UInt8) (hbytes : c.capability.hasBattery = true →
      (c.write host addr val).1.ram.bytes = c.ram.bytes) :
    (c.write host addr val).1.unsaved? = none := by
  unfold write at *
  split at hbytes <;> rename_i hrom
  · rw [if_pos hrom]
    exact unsaved?_writeRegister h host.calendar addr val
  · rw [if_neg hrom]
    split at hbytes <;> rename_i hwindow
    · rw [if_pos hwindow]
      exact unsaved?_writeExternal h host _ val hbytes
    · rw [if_neg hwindow]
      exact h

end Cartridge

/-! ## Writes that change external memory -/

/-- One of the writes changes the contents of external memory. -/
def Bus.ChangesRam [Timeline τ] (b : Bus τ) : Writes → Prop
  | [] => False
  | (addr, val) :: rest =>
    (b.write addr val).cartridge.ram.bytes ≠ b.cartridge.ram.bytes ∨
      (b.write addr val).ChangesRam rest

/-- External memory has these contents, and nothing of them is still to be saved. -/
structure Cartridge.Clean (c : Cartridge τ) (bytes : Array UInt8) : Prop where
  bytes : c.ram.bytes = bytes
  unsaved : c.unsaved? = none

section Writes

variable [Timeline τ] {bytes : Array UInt8}

theorem Cartridge.Clean.write {b : Bus τ} (h : b.cartridge.Clean bytes) {addr : UInt16}
    {val : UInt8} (hbytes : (b.write addr val).cartridge.ram.bytes = b.cartridge.ram.bytes) :
    (b.write addr val).cartridge.Clean bytes := by
  refine ⟨hbytes.trans h.bytes, ?_⟩
  rcases b.write_cartridge addr val with ⟨hsame, -⟩ | ⟨hwritten, -⟩
  · rw [hsame]
    exact h.unsaved
  · rw [hwritten] at hbytes ⊢
    exact unsaved?_write h.unsaved b.host addr val fun _ => hbytes

theorem Cartridge.Clean.perform {b : Bus τ} (h : b.cartridge.Clean bytes) {writes : Writes}
    (hkeeps : ¬b.ChangesRam writes) : (b.perform writes).cartridge.Clean bytes := by
  -- write by write, from the first
  induction writes generalizing b with
  | nil => exact h
  | cons write rest ih =>
    obtain ⟨hbytes, hrest⟩ := not_or.1 hkeeps
    exact ih (h.write (not_not.1 hbytes)) hrest

end Writes

namespace Machine

variable [Timeline τ]

/-- The next step changes the contents of external memory. -/
def StepChangesRam (m : Machine τ) : Prop :=
  (m.action.opening m.bus.runDma.2).ChangesRam (Core.stepWrites m.cpu m.bus)

/-- One of the steps of a run does. -/
def RunChangesRam (stop : Bool → Machine τ → Bool) (m : Machine τ) : Nat → Prop
  | 0 => False
  | n + 1 =>
    m.StepChangesRam ∨
      match m.step with
      | (.error _, _) => False
      | (.ok boundary, m) => stop boundary m = false ∧ RunChangesRam stop m n

/-- Where a frame that began at `start` ends. -/
def frameStop (start : Nat) (boundary : Bool) (m : Machine τ) : Bool :=
  boundary || (!m.bus.display.running && decide (Display.refreshPeriod ≤ m.now - start))

/-- The operation changes the contents of external memory at some point. -/
def ChangesRam (m : Machine τ) : Operation τ → Prop
  | .write addr val => m.bus.ChangesRam [(addr, val)]
  | .step => m.StepChangesRam
  | .runFrame => m.RunChangesRam (frameStop m.now) frameSteps
  | .runCycles cycles =>
    cycles ≠ 0 ∧ m.RunChangesRam (fun _ m' => decide (m.now + cycles ≤ m'.now))
      (cycles / machineCycle + 1)
  | .trySaveRam | .press _ | .setTime _ _ => False

/-- One of the operations does. -/
def ChangesRamIn (m : Machine τ) : List (Operation τ) → Prop
  | [] => False
  | operation :: rest => m.ChangesRam operation ∨ (m.perform operation).ChangesRamIn rest

/-- The machine with its clock saved. -/
def clockSaved (m : Machine τ) : Machine τ :=
  m.withCartridge (m.bus.cartridge.saveClock m.bus.host true).1
    (m.bus.cartridge.saveClock m.bus.host true).2

/-- No snapshot of external memory waits anywhere, and none would be taken. -/
structure Clean (m : Machine τ) (bytes : Array UInt8) : Prop where
  cartridge : m.bus.cartridge.Clean bytes
  saving : m.saving = none

section Unsaved

omit [Timeline τ]

variable {m : Machine τ} (h : m.bus.cartridge.unsaved? = none)
include h

theorem collectCommit_of_unsaved : m.collectCommit = m := by
  unfold collectCommit Cartridge.takeCommit
  rw [(Cartridge.unsaved?_eq_none_iff.1 h).2]

theorem collectAll_of_unsaved : m.collectAll = m := by
  unfold collectAll Cartridge.uncommitted
  rw [collectCommit_of_unsaved h]
  dsimp only
  rw [(Cartridge.unsaved?_eq_none_iff.1 h).1]
  rfl

end Unsaved

namespace Clean

variable {m : Machine τ} {bytes : Array UInt8}

theorem step (h : m.Clean bytes) (hkeeps : ¬m.StepChangesRam) : m.step.2.Clean bytes := by
  refine ⟨?_, (saving_step m).trans h.saving⟩
  -- nothing but the writes of a step reaches the cartridge
  have hopened : (m.action.opening m.bus.runDma.2).cartridge = m.bus.cartridge := by
    rw [Bus.runDma_snd]
    unfold Action.opening
    split <;> rfl
  have hcore : (Core.step m.cpu m.bus).1.bus.cartridge.Clean bytes := by
    rw [Core.bus_step]
    exact Cartridge.Clean.perform (hopened ▸ h.cartridge) hkeeps
  rw [bus_step]
  split
  · exact hcore
  · exact hcore

theorem run {stop : Bool → Machine τ → Bool} (h : m.Clean bytes) {steps : Nat}
    (hkeeps : ¬m.RunChangesRam stop steps) : (m.run stop steps).2.Clean bytes := by
  -- step by step, until the run is told to stop or its steps are used up
  induction steps generalizing m with
  | zero => exact h
  | succ steps ih =>
    obtain ⟨hstep, hrest⟩ := not_or.1 hkeeps
    have hnext := h.step hstep
    unfold Machine.run
    split <;> rename_i hresult <;> rw [hresult] at hnext hrest
    · exact hnext
    · split
      · exact hnext
      · rename_i hgoesOn
        exact ih hnext fun hchanges => hrest ⟨eq_false_of_ne_true hgoesOn, hchanges⟩

omit [Timeline τ] in
/-- There is nothing to save, forced or not. -/
theorem trySaveRam (h : m.Clean bytes) (force : Bool) : m.trySaveRam force = (false, m) := by
  have hgathered : (if force then m.collectAll else m) = m := by
    rw [collectAll_of_unsaved h.cartridge.unsaved]
    exact ite_self m
  obtain ⟨cpu, bus, saving⟩ := m
  obtain rfl : saving = none := h.saving
  unfold Machine.trySaveRam
  dsimp only
  rw [hgathered]
  cases bus.cartridge.paths <;> rfl

theorem flush (h : m.Clean bytes) : m.flush = m.clockSaved := by
  unfold Machine.flush
  rw [h.trySaveRam true]
  rfl

theorem runFrame (h : m.Clean bytes) (hkeeps : ¬m.ChangesRam .runFrame) :
    m.runFrame.2.Clean bytes := by
  unfold ChangesRam at hkeeps
  unfold Machine.runFrame
  generalize frameSteps = steps at *
  have hrun : (m.run (frameStop m.now) steps).2.Clean bytes := h.run hkeeps
  unfold frameStop at hrun
  dsimp only
  split <;> rename_i hresult <;> rw [hresult] at hrun
  · exact hrun
  · rw [collectCommit_of_unsaved hrun.cartridge.unsaved]
    exact hrun

theorem runCycles (h : m.Clean bytes) {cycles : Nat} (hkeeps : ¬m.ChangesRam (.runCycles cycles)) :
    (m.runCycles cycles).2.Clean bytes := by
  unfold Machine.runCycles
  split
  · rw [collectCommit_of_unsaved h.cartridge.unsaved]
    exact h
  · rename_i hcycles
    have hrun := h.run fun hchanges => hkeeps ⟨hcycles, hchanges⟩
    dsimp only
    split <;> rename_i hresult <;> rw [hresult] at hrun
    · exact hrun
    · rw [collectCommit_of_unsaved hrun.cartridge.unsaved]
      exact hrun

theorem perform (h : m.Clean bytes) {operation : Operation τ} (hkeeps : ¬m.ChangesRam operation) :
    (m.perform operation).Clean bytes := by
  cases operation with
  | write addr val =>
    have hkeeps : ¬m.bus.ChangesRam [(addr, val)] := hkeeps
    exact ⟨h.cartridge.perform hkeeps, h.saving⟩
  | step => exact h.step hkeeps
  | runFrame => exact h.runFrame hkeeps
  | runCycles cycles => exact h.runCycles hkeeps
  | trySaveRam =>
    show (m.trySaveRam false).2.Clean bytes
    rw [h.trySaveRam false]
    exact h
  | press buttons => exact ⟨h.cartridge, h.saving⟩
  | setTime calendar uptime => exact ⟨h.cartridge, h.saving⟩

theorem performAll (h : m.Clean bytes) {operations : List (Operation τ)}
    (hkeeps : ¬m.ChangesRamIn operations) : (m.performAll operations).Clean bytes := by
  induction operations generalizing m with
  | nil => exact h
  | cons operation rest ih =>
    obtain ⟨hfirst, hrest⟩ := not_or.1 hkeeps
    exact ih (h.perform hfirst) hrest

end Clean

/-! ## Attempts -/

section Attempts

omit [Timeline τ]

/-- The machine at the attempt to save: forcing it picks up everything first. -/
def gathered (m : Machine τ) (force : Bool) : Machine τ := if force then m.collectAll else m

/-- When everything is picked up, nothing is left in the cartridge, and what was there waits to be
saved. -/
theorem collectAll_eq (m : Machine τ) :
    ∃ cartridge saving, m.collectAll = { m with bus := { m.bus with cartridge }, saving } ∧
      cartridge.paths = m.bus.cartridge.paths ∧ cartridge.Clean m.bus.cartridge.ram.bytes ∧
      ∀ bytes, m.bus.cartridge.unsaved? = some bytes →
        ∃ snapshot, saving = some snapshot ∧ snapshot.bytes = bytes ∧
          snapshot.savePending = true := by
  unfold collectAll collectCommit Cartridge.takeCommit Cartridge.uncommitted Cartridge.unsaved?
  cases hcommit : m.bus.cartridge.commit with
  | none =>
    dsimp only
    cases hchanged : m.bus.cartridge.capability.hasBattery && m.bus.cartridge.ram.modified with
    | false =>
      refine ⟨m.bus.cartridge, m.saving, rfl, rfl, ⟨rfl, ?_⟩, fun bytes h => (by cases h)⟩
      exact Cartridge.unsaved?_eq_none_iff.2 ⟨hchanged, hcommit⟩
    | true =>
      refine ⟨_, _, rfl, rfl, ⟨rfl, ?_⟩, fun bytes h => ⟨_, rfl, Option.some.inj h, rfl⟩⟩
      exact Cartridge.unsaved?_eq_none_iff.2 ⟨Bool.and_false _, hcommit⟩
  | some committed =>
    dsimp only [withCartridge]
    cases hchanged : m.bus.cartridge.capability.hasBattery && m.bus.cartridge.ram.modified with
    | false =>
      refine ⟨_, _, rfl, rfl, ⟨rfl, ?_⟩, fun bytes h => ⟨_, rfl, Option.some.inj h, rfl⟩⟩
      exact Cartridge.unsaved?_eq_none_iff.2 ⟨hchanged, rfl⟩
    | true =>
      refine ⟨_, _, rfl, rfl, ⟨rfl, ?_⟩, fun bytes h => ⟨_, rfl, Option.some.inj h, rfl⟩⟩
      exact Cartridge.unsaved?_eq_none_iff.2 ⟨Bool.and_false _, rfl⟩

theorem gathered_eq (m : Machine τ) (force : Bool) :
    ∃ cartridge saving, m.gathered force = { m with bus := { m.bus with cartridge }, saving } ∧
      cartridge.paths = m.bus.cartridge.paths ∧
      (force = true ∨ m.bus.cartridge.unsaved? = none →
        cartridge.Clean m.bus.cartridge.ram.bytes) := by
  unfold gathered
  cases force with
  | false => exact ⟨_, _, rfl, rfl, fun h => ⟨rfl, h.resolve_left Bool.false_ne_true⟩⟩
  | true =>
    obtain ⟨cartridge, saving, hcollected, hpaths, hclean, -⟩ := m.collectAll_eq
    exact ⟨cartridge, saving, hcollected, hpaths, fun _ => hclean⟩

/-- An attempt asks the storage once, and whatever the storage answers, nothing waits after it. -/
theorem trySaveRam_of_due {m : Machine τ} {force : Bool} {paths : SavePaths}
    {snapshot : ExternalRam} (hpaths : m.bus.cartridge.paths = some paths)
    (hsaving : (m.gathered force).saving = some snapshot)
    (hdue : snapshot.due m.bus.host.uptime force = true) :
    let asked := m.bus.host.save "cartridge RAM" paths.ram ⟨snapshot.bytes⟩
    m.trySaveRam force =
      (asked.1, { m.gathered force with
        bus := { (m.gathered force).bus with host := asked.2 }, saving := none }) := by
  intro asked
  have hgathered : m.gathered force = if force then m.collectAll else m := rfl
  obtain ⟨cartridge, saving, heq, hpaths', -⟩ := m.gathered_eq force
  rw [heq] at hsaving ⊢
  obtain rfl : saving = some snapshot := hsaving
  unfold trySaveRam ExternalRam.trySave
  dsimp only
  rw [← hgathered, heq]
  dsimp only
  rw [hpaths', hpaths]
  dsimp only
  rw [if_pos hdue]
  rfl

end Attempts

/-! ## The save paths -/

theorem paths_write (b : Bus τ) (addr : UInt16) (val : UInt8) :
    (b.write addr val).cartridge.paths = b.cartridge.paths := by
  rcases b.write_cartridge addr val with ⟨hsame, -⟩ | ⟨hwritten, -⟩
  · rw [hsame]
  · rw [hwritten]
    exact (b.cartridge.written_write b.host addr val).paths

section Paths

variable {m : Machine τ} {paths : Option SavePaths} (h : m.bus.cartridge.paths = paths)
include h

theorem paths_step : m.step.2.bus.cartridge.paths = paths := by
  refine step_invariant (P := (·.cartridge.paths = paths)) ?_ ?_ (fun _ _ hb => hb) h
  · intro b hb
    rw [Bus.runDma_snd]
    exact hb
  · intro b b' hbecomes hb
    exact hbecomes.invariant (P := (·.cartridge.paths = paths))
      (fun b addr val hb => (paths_write b addr val).trans hb) (fun _ hb => hb) (fun _ _ hb => hb)
      hb

omit [Timeline τ] in
theorem paths_collectCommit : m.collectCommit.bus.cartridge.paths = paths := by
  unfold collectCommit
  split
  · rename_i htaken
    obtain ⟨-, rfl⟩ := Prod.mk.inj htaken
    exact h
  · exact h

theorem paths_perform (operation : Operation τ) :
    (m.perform operation).bus.cartridge.paths = paths := by
  cases operation with
  | write addr val => exact (paths_write m.bus addr val).trans h
  | step => exact paths_step h
  | runFrame =>
    exact runFrame_invariant (P := (·.bus.cartridge.paths = paths)) (fun _ h => paths_step h)
      (fun _ h => paths_collectCommit h) h
  | runCycles cycles =>
    exact runCycles_invariant (P := (·.bus.cartridge.paths = paths)) (fun _ h => paths_step h)
      (fun _ h => paths_collectCommit h) h cycles
  | trySaveRam =>
    show (m.trySaveRam false).2.bus.cartridge.paths = paths
    rw [trySaveRam_snd, cartridge_attemptSave]
    exact h
  | press buttons => exact h
  | setTime calendar uptime => exact h

theorem paths_performAll (operations : List (Operation τ)) :
    (m.performAll operations).bus.cartridge.paths = paths := by
  induction operations generalizing m with
  | nil => exact h
  | cons operation rest ih => exact ih (paths_perform h operation)

end Paths

/-! ## After a refusal -/

/-- The machine with another storage. -/
def onStorage (m : Machine τ) (storage : Storage) : Machine τ :=
  { m with bus := { m.bus with host := { m.bus.host with storage } } }

theorem Clean.clockSaved {m : Machine τ} {bytes : Array UInt8} (h : m.Clean bytes) :
    m.clockSaved.Clean bytes := by
  obtain ⟨controller, hsaved⟩ :=
    (Cartridge.clockSaved_saveClock m.bus.cartridge m.bus.host true).cartridge
  have hcartridge : m.clockSaved.bus.cartridge = { m.bus.cartridge with controller } := hsaved
  refine ⟨?_, h.saving⟩
  rw [hcartridge]
  exact ⟨h.cartridge.bytes, Cartridge.unsaved?_of_ram h.cartridge.unsaved rfl rfl rfl⟩

omit [Timeline τ] in
/-- What is picked up by a forced save is stored if the storage accepts it. -/
theorem forced_save_of_unsaved {m : Machine τ} {paths : SavePaths} {bytes : Array UInt8}
    (hpaths : m.bus.cartridge.paths = some paths) (hbytes : m.bus.cartridge.unsaved? = some bytes)
    (haccepts : (m.bus.host.storage.save paths.ram ⟨bytes⟩).1 = .ok ()) :
    (m.trySaveRam true).1 = true ∧
      (m.trySaveRam true).2.bus.host.storage.contents paths.ram = some ⟨bytes⟩ := by
  obtain ⟨cartridge, saving, hcollected, -, -, hwaits⟩ := m.collectAll_eq
  obtain ⟨snapshot, rfl, rfl, hpending⟩ := hwaits bytes hbytes
  have hsaving : (m.gathered true).saving = some snapshot := congrArg saving hcollected
  have hattempt := trySaveRam_of_due hpaths hsaving (due_of_pending hpending _)
  rw [hattempt]
  dsimp only
  rw [Host.save_fst, Host.storage_save]
  refine ⟨haccepts, (Storage.contents_save haccepts _).trans (if_pos rfl)⟩

/-- After an attempt nothing waits to be saved, neither if the attempt was a flush. -/
theorem attempted {m after : Machine τ} {force : Bool} {paths : SavePaths}
    {snapshot : ExternalRam} (hpaths : m.bus.cartridge.paths = some paths)
    (hsaving : (m.gathered force).saving = some snapshot)
    (hdue : snapshot.due m.bus.host.uptime force = true)
    (hafter : after = (m.trySaveRam force).2 ∨ force = true ∧ after = m.flush) :
    after.bus.cartridge.paths = some paths ∧
      (force = true ∨ m.bus.cartridge.unsaved? = none →
        after.Clean m.bus.cartridge.ram.bytes) := by
  have hattempt := trySaveRam_of_due hpaths hsaving hdue
  obtain ⟨cartridge, saving, hgathered, hsame, hclean⟩ := m.gathered_eq force
  rw [hgathered] at hattempt
  have hmade : (m.trySaveRam force).2.bus.cartridge.paths = some paths ∧
      (force = true ∨ m.bus.cartridge.unsaved? = none →
        (m.trySaveRam force).2.Clean m.bus.cartridge.ram.bytes) := by
    rw [hattempt]
    exact ⟨hsame.trans hpaths, fun h => ⟨hclean h, rfl⟩⟩
  rcases hafter with rfl | ⟨rfl, rfl⟩
  · exact hmade
  · obtain ⟨controller, hclock⟩ := (Cartridge.clockSaved_saveClock
      (m.trySaveRam true).2.bus.cartridge (m.trySaveRam true).2.bus.host true).cartridge
    refine ⟨?_, fun h => (hmade.2 h).clockSaved⟩
    have hflushed : m.flush.bus.cartridge =
        { (m.trySaveRam true).2.bus.cartridge with controller } := hclock
    rw [hflushed]
    exact hmade.1

/-- An attempt to save external memory, made because it was forced or because the request was due.
The answer tells whether the storage accepted it. If it did, the save file has the contents, and if
not, no file changes. Either way the snapshot is gone. If it was all that there was to be saved, as
it is when the attempt was forced, then no later attempt or flush saves anything, on whatever
storage, until a write changes external memory. What there is to be saved later than that is stored
by the next attempt that is forced, if the storage accepts it. -/
theorem refused_save {m : Machine τ} {force : Bool} {paths : SavePaths} {snapshot : ExternalRam}
    (hpaths : m.bus.cartridge.paths = some paths)
    (hsaving : (m.gathered force).saving = some snapshot)
    (hdue : snapshot.due m.bus.host.uptime force = true) :
    let accepted := (m.bus.host.storage.save paths.ram ⟨snapshot.bytes⟩).1 = .ok ()
    let files := (m.trySaveRam force).2.bus.host.storage
    ((m.trySaveRam force).1 = true ↔ accepted) ∧
    (accepted → files.contents paths.ram = some ⟨snapshot.bytes⟩) ∧
    (¬accepted → ∀ loc, files.fileAt? loc = m.bus.host.storage.fileAt? loc) ∧
    ∀ after, after = (m.trySaveRam force).2 ∨ force = true ∧ after = m.flush →
      ∀ operations storage,
      let later := (after.performAll operations).onStorage storage
      (force = true ∨ m.bus.cartridge.unsaved? = none → ¬after.ChangesRamIn operations →
        later.bus.cartridge.ram.bytes = m.bus.cartridge.ram.bytes ∧
        (∀ force', later.trySaveRam force' = (false, later)) ∧ later.flush = later.clockSaved) ∧
      (∀ bytes, later.bus.cartridge.unsaved? = some bytes →
        (storage.save paths.ram ⟨bytes⟩).1 = .ok () →
        (later.trySaveRam true).1 = true ∧
        (later.trySaveRam true).2.bus.host.storage.contents paths.ram = some ⟨bytes⟩) := by
  intro accepted files
  have hattempt := trySaveRam_of_due hpaths hsaving hdue
  have hfiles : files = (m.bus.host.storage.save paths.ram ⟨snapshot.bytes⟩).2 := by
    show (m.trySaveRam force).2.bus.host.storage = _
    rw [hattempt]
    exact m.bus.host.storage_save "cartridge RAM" paths.ram ⟨snapshot.bytes⟩
  refine ⟨?_, fun haccepted => ?_, fun hrefused loc => ?_,
    fun after hafter operations storage => ?_⟩
  · rw [hattempt]
    exact m.bus.host.save_fst "cartridge RAM" paths.ram ⟨snapshot.bytes⟩
  · rw [hfiles]
    exact (Storage.contents_save haccepted _).trans (if_pos rfl)
  · rw [hfiles]
    exact (Storage.addsFolders_of_refused hrefused).fileAt? loc
  · intro later
    obtain ⟨hsame, hnothing⟩ := attempted hpaths hsaving hdue hafter
    refine ⟨fun hall hkeeps => ?_, fun bytes hbytes haccepts => ?_⟩
    · have hclean := (hnothing hall).performAll hkeeps
      have hlater : later.Clean m.bus.cartridge.ram.bytes := ⟨hclean.cartridge, hclean.saving⟩
      exact ⟨hlater.cartridge.bytes, hlater.trySaveRam, hlater.flush⟩
    · have hlater : later.bus.cartridge.paths = some paths := paths_performAll hsame operations
      exact forced_save_of_unsaved hlater hbytes haccepts

/-! ## A storage that refuses once -/

/-- A storage without files, that refuses some. -/
def emptyStorage (refused : List String) : Storage := ⟨.table [] refused, [], [], []⟩

/-- A cartridge whose external memory has one bank and a save file. -/
def savedCartridge : Cartridge Float :=
  { Cartridge.oneBank with paths := some ⟨"game.sav", "game.rtc"⟩ }

def refusingHost : Host Float := ⟨emptyStorage ["game.sav"], none, 0, 0, []⟩

/-- Changes a byte of external memory, switches it off, and has the snapshot picked up. -/
def changeAndCommit : List (Operation Float) :=
  [.write 0x0000 0x0A, .write 0xA000 0x55, .write 0x0000 0x00, .runCycles 0]

@[irreducible]
def committedMachine : Machine Float :=
  (create savedCartridge refusingHost none).performAll changeAndCommit

/-- What the machine has come to, evaluated once. -/
theorem committedMachine_state :
    committedMachine.bus.cartridge.paths = some ⟨"game.sav", "game.rtc"⟩ ∧
      committedMachine.bus.cartridge.unsaved? = none ∧
      committedMachine.saving.any ExternalRam.savePending = true ∧
      committedMachine.bus.host.storage.medium = .table [] ["game.sav"] := by
  decide +kernel

theorem committedMachine_waits :
    ∃ snapshot, committedMachine.saving = some snapshot ∧ snapshot.savePending = true := by
  obtain ⟨-, -, hwaits, -⟩ := committedMachine_state
  cases hsaving : committedMachine.saving with
  | none =>
    rw [hsaving] at hwaits
    cases hwaits
  | some snapshot =>
    rw [hsaving] at hwaits
    exact ⟨snapshot, rfl, hwaits⟩

theorem committedMachine_refused (bytes : ByteArray) :
    (committedMachine.bus.host.storage.save "game.sav" bytes).1 ≠ .ok () := by
  obtain ⟨-, -, -, hmedium⟩ := committedMachine_state
  exact Storage.save_refused hmedium (by simp) bytes

/-- The byte was refused, and no later attempt saves it. Once it changes again, it is saved. -/
theorem refused_save_committedMachine :
    let after := (committedMachine.trySaveRam true).2
    (committedMachine.trySaveRam true).1 = false ∧
    (∀ storage, let later := (after.performAll [.trySaveRam]).onStorage storage
      later.trySaveRam true = (false, later)) ∧
    (((after.performAll [.write 0x0000 0x0A, .write 0xA000 0x56]).onStorage
      (emptyStorage [])).trySaveRam true).1 = true := by
  intro after
  obtain ⟨hpaths, hunsaved, -⟩ := committedMachine_state
  obtain ⟨snapshot, hsaving, hpending⟩ := committedMachine_waits
  have hgathered : (committedMachine.gathered true).saving = some snapshot :=
    (congrArg saving (collectAll_of_unsaved hunsaved)).trans hsaving
  obtain ⟨hanswer, -, -, hlater⟩ :=
    refused_save hpaths hgathered (due_of_pending hpending _)
  refine ⟨eq_false_of_ne_true fun h => committedMachine_refused _ (hanswer.1 h),
    fun storage => ?_, ?_⟩
  · have hkeeps : ¬after.ChangesRamIn [.trySaveRam] := by simp [ChangesRamIn, ChangesRam]
    exact ((hlater after (.inl rfl) [.trySaveRam] storage).1 (.inl rfl) hkeeps).2.1 true
  · have hchanged : ((((committedMachine.trySaveRam true).2.performAll
        [.write 0x0000 0x0A, .write 0xA000 0x56]).onStorage
          (emptyStorage [])).bus.cartridge.unsaved?).isSome = true := by
      decide +kernel
    obtain ⟨bytes, hbytes⟩ := Option.isSome_iff_exists.1 hchanged
    exact ((hlater after (.inl rfl) [.write 0x0000 0x0A, .write 0xA000 0x56] (emptyStorage [])).2
      bytes hbytes (Storage.save_table rfl (by simp) _)).1

/-- A snapshot that was refused is not offered to a storage that would accept it. -/
theorem not_saved_after_refusal :
    ¬ ∀ (m : Machine Float) (paths : SavePaths) (snapshot : ExternalRam) (storage : Storage),
      m.bus.cartridge.paths = some paths → m.saving = some snapshot →
      snapshot.savePending = true →
      (m.bus.host.storage.save paths.ram ⟨snapshot.bytes⟩).1 ≠ .ok () →
      (∀ bytes, (storage.save paths.ram bytes).1 = .ok ()) →
      (((m.trySaveRam true).2.onStorage storage).flush.bus.host.storage.contents
        paths.ram).isSome = true := by
  intro hall
  obtain ⟨hpaths, -⟩ := committedMachine_state
  obtain ⟨snapshot, hsaving, hpending⟩ := committedMachine_waits
  have hstored := hall committedMachine _ snapshot (emptyStorage []) hpaths hsaving hpending
    (committedMachine_refused _) (Storage.save_table rfl (by simp))
  exact absurd hstored (by decide +kernel)

end Machine

end DotMatrix
