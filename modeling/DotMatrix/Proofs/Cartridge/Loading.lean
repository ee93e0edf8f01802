import DotMatrix.Proofs.Cartridge.Battery

/-!
# Loading a cartridge

What a cartridge has right after it was loaded from a file: the image, and external memory as its
save file has it.
-/

namespace DotMatrix.Cartridge

open ExternalRam (reloaded)

variable {τ : Type} [Timeline τ]

/-! ## From an image -/

theorem controller?_isSome (capability : Capability) (now later : τ) :
    (controller? capability now).isSome = (controller? capability later).isSome := by
  unfold controller?
  cases capability.family <;> rfl

/-- An image makes a cartridge if its header can be read, there is such a controller, and all banks
are there; the cartridge is fresh. -/
theorem ofBytes_eq_ok_iff {now : τ} {image : ByteArray} {c : Cartridge τ} :
    ofBytes now image = .ok c ↔
      ∃ capability controller, Capability.ofHeader image = .ok capability ∧
        controller? capability now = some controller ∧
        capability.romBanks * romBankSize ≤ image.size ∧
        c = {
          rom := image
          ram := .create capability.ramSize
          capability := capability
          title := imageTitle image
          color := isColor image
          controller := controller
          paths := none
          commit := none } := by
  constructor
  · intro h
    obtain ⟨capability, hheader, h⟩ := Storage.bind_ok h
    cases hcontroller : controller? capability now with
    | none =>
      rw [hcontroller] at h
      cases h
    | some controller =>
      rw [hcontroller] at h
      by_cases hshort : image.size < capability.romBanks * romBankSize
      · simp only [if_pos hshort] at h
        cases h
      · simp only [if_neg hshort] at h
        exact ⟨capability, controller, hheader, hcontroller, Nat.not_lt.1 hshort,
          (Except.ok.inj h).symm⟩
  · rintro ⟨capability, controller, hheader, hcontroller, hsize, rfl⟩
    unfold ofBytes
    rw [hheader]
    simp only [bind, Except.bind, hcontroller, if_neg (Nat.not_lt.2 hsize)]
    rfl

theorem ofBytes_of_header (now : τ) {image : ByteArray} {capability : Capability}
    (hheader : Capability.ofHeader image = .ok capability)
    (hcontroller : (controller? capability now).isSome = true)
    (hsize : capability.romBanks * romBankSize ≤ image.size) :
    ∃ c, ofBytes now image = .ok c ∧ c.capability = capability := by
  obtain ⟨controller, hcontroller⟩ := Option.isSome_iff_exists.1 hcontroller
  exact ⟨_, ofBytes_eq_ok_iff.2 ⟨_, _, hheader, hcontroller, hsize, rfl⟩, rfl⟩

/-- The image of a cartridge makes one at any other time as well. -/
theorem ofBytes_ok {now : τ} {image : ByteArray} {c : Cartridge τ} (h : ofBytes now image = .ok c) :
    c.rom = image ∧ c.ram = .create c.capability.ramSize ∧ c.commit = none ∧
      ∀ later : τ, ∃ c', ofBytes later image = .ok c' ∧ c'.capability = c.capability := by
  obtain ⟨capability, controller, hheader, hcontroller, hsize, rfl⟩ := ofBytes_eq_ok_iff.1 h
  refine ⟨rfl, rfl, rfl, fun later => ofBytes_of_header later hheader ?_ hsize⟩
  rw [← controller?_isSome capability now, hcontroller]
  rfl

/-! ## Restoring what was saved -/

omit [Timeline τ] in
theorem restoreRam_frame (c : Cartridge τ) (host : Host τ) (path : String) :
    ∃ ram log, c.restoreRam host path = ({ c with ram }, { host with log }) := by
  have hsame : ∃ ram log, (c, host) = ({ c with ram }, { host with log }) :=
    ⟨c.ram, host.log, rfl⟩
  unfold restoreRam
  dsimp only
  split
  · split
    · split
      · exact ⟨_, host.log, rfl⟩
      · exact ⟨c.ram, _, rfl⟩
    · exact hsame
    · exact ⟨c.ram, _, rfl⟩
  · exact hsame

omit [Timeline τ] in
theorem size_restoreRam (c : Cartridge τ) (host : Host τ) (path : String) :
    (c.restoreRam host path).1.ram.bytes.size = c.ram.bytes.size := by
  unfold restoreRam
  dsimp only
  split
  · split
    · split
      · exact ExternalRam.size_load _ _
      · rfl
    · rfl
    · rfl
  · rfl

omit [Timeline τ] in
theorem modified_restoreRam {c : Cartridge τ} (h : c.ram.modified = false) (host : Host τ)
    (path : String) : (c.restoreRam host path).1.ram.modified = false := by
  unfold restoreRam
  dsimp only
  split
  · split
    · split
      · rfl
      · exact h
    · exact h
    · exact h
  · exact h

omit [Timeline τ] in
/-- Fresh memory that a battery keeps becomes what `reloaded` says. -/
theorem ram_restoreRam {c : Cartridge τ} {host : Host τ} {path : String} {size : Nat}
    {file : Option ByteArray} (hfresh : c.ram = .create size)
    (hbattery : c.capability.hasBattery = true)
    (hload : host.storage.load path size = .ok (file.map (·.extract 0 size))) :
    (c.restoreRam host path).1.ram.bytes = reloaded size file ∧
      (c.restoreRam host path).1.ram.modified = false := by
  have hsize : c.ram.size = size := by
    rw [hfresh]
    simp [ExternalRam.size, ExternalRam.create]
  have hunmodified : c.ram.modified = false := by
    rw [hfresh]
    rfl
  unfold restoreRam
  dsimp only
  rw [hsize, hload, hbattery]
  -- without external memory no file is read, and there is nothing to compare
  by_cases hzero : size = 0
  · subst hzero
    have hempty : c.ram.bytes = #[] := Array.eq_empty_of_size_eq_zero hsize
    refine ⟨?_, hunmodified⟩
    show c.ram.bytes = _
    rw [hempty]
    exact (Array.eq_empty_of_size_eq_zero (ExternalRam.size_reloaded 0 file)).symm
  · rw [if_pos (by simpa using hzero)]
    unfold reloaded
    cases file with
    | none => exact ⟨congrArg ExternalRam.bytes hfresh, hunmodified⟩
    | some bytes =>
      simp only [Option.map_some]
      -- a file that is too short is left alone
      split
      · exact ⟨congrArg (fun r => (ExternalRam.load r _).bytes) hfresh, rfl⟩
      · exact ⟨congrArg ExternalRam.bytes hfresh, hunmodified⟩

theorem restoreClock_spec (c : Cartridge τ) (host : Host τ) (path : String) :
    ∃ controller log, c.restoreClock host path = ({ c with controller }, { host with log }) := by
  have hsame : ∃ controller log, (c, host) = ({ c with controller }, { host with log }) :=
    ⟨c.controller, host.log, rfl⟩
  unfold restoreClock
  split
  · split
    · dsimp only
      split
      · exact ⟨_, host.log, rfl⟩
      · exact ⟨_, _, rfl⟩
    · exact hsame
  · exact hsame

def savePaths (folder : Option String) (path : String) : SavePaths :=
  ⟨saveLocation folder path .ram, saveLocation folder path .clock⟩

/-- Memory is restored first, then the clock, which is saved if it was set on the way. -/
theorem restore_eq (c : Cartridge τ) (host : Host τ) (path : String) :
    ∃ ram log,
      c.restoreRam host (savePaths host.saveFolder path).ram =
        ({ c with ram }, { host with log }) ∧
      c.restore host path =
        (let restored := restoreClock { c with ram } { host with log }
          (savePaths host.saveFolder path).clock
        saveClock { restored.1 with paths := some (savePaths host.saveFolder path) } restored.2
          false) := by
  obtain ⟨ram, log, hram⟩ := c.restoreRam_frame host (savePaths host.saveFolder path).ram
  refine ⟨ram, log, hram, ?_⟩
  unfold restore
  dsimp only
  rw [show c.restoreRam host (host.saveLocation path .ram) = _ from hram]
  rfl

/-- A cartridge right after its saves were restored. -/
structure Restored (c : Cartridge τ) (host : Host τ) (path : String) (c' : Cartridge τ)
    (host' : Host τ) : Prop where
  capability : c'.capability = c.capability
  paths : c'.paths = some (savePaths host.saveFolder path)
  ram : c'.ram = (c.restoreRam host (savePaths host.saveFolder path).ram).1.ram
  commit : c'.commit = c.commit
  folder : host'.saveFolder = host.saveFolder
  storage : host'.storage = host.storage ∨
    ∃ bytes, host'.storage =
      (host.storage.save (savePaths host.saveFolder path).clock bytes).2

/-- Restoring reads the two save files, and may save the clock. -/
theorem restored_restore (c : Cartridge τ) (host : Host τ) (path : String) :
    c.Restored host path (c.restore host path).1 (c.restore host path).2 := by
  obtain ⟨ram, log, hram, hrestore⟩ := c.restore_eq host path
  obtain ⟨controller, log', hclock⟩ := restoreClock_spec { c with ram } { host with log }
    (savePaths host.saveFolder path).clock
  rw [hclock] at hrestore
  have hsaved := clockSaved_saveClock
    { c with ram, controller, paths := some (savePaths host.saveFolder path) }
    { host with log := log' } false
  rw [← hrestore] at hsaved
  obtain ⟨controller', hcartridge⟩ := hsaved.cartridge
  have hhost : (c.restore host path).2.saveFolder = host.saveFolder ∧
      ((c.restore host path).2.storage = host.storage ∨
        ∃ bytes, (c.restore host path).2.storage =
          (host.storage.save (savePaths host.saveFolder path).clock bytes).2) := by
    rcases hsaved.host with hsame | ⟨paths, bytes, hpaths, hsave⟩
    · rw [hsame]
      exact ⟨rfl, .inl rfl⟩
    · obtain ⟨log'', hsnd⟩ := Host.save_snd { host with log := log' } "RTC" paths.clock bytes
      obtain rfl := Option.some.inj hpaths
      rw [hsave, hsnd]
      exact ⟨rfl, .inr ⟨bytes, rfl⟩⟩
  refine ⟨?_, ?_, ?_, ?_, hhost.1, hhost.2⟩ <;> rw [hcartridge]
  rw [hram]

/-! ## From a file -/

/-- A cartridge that was loaded from a file is one that its image makes, restored. -/
theorem ofFile_ok {host host' : Host τ} {path : String} {c : Cartridge τ}
    (h : ofFile host path = (.ok c, host')) :
    ∃ image fresh, host.storage.load path maxImageSize = .ok (some image) ∧
      ofBytes host.calendar image = .ok fresh ∧ c = (fresh.restore host path).1 ∧
      ∃ log, host' = { (fresh.restore host path).2 with log } := by
  unfold ofFile at h
  split at h
  · cases h
  · cases h
  · rename_i image hload
    split at h
    · cases h
    · rename_i fresh hbytes
      obtain ⟨hc, hhost⟩ := Prod.mk.inj h
      exact ⟨image, fresh, hload, hbytes, (Except.ok.inj hc).symm, _, hhost.symm⟩

theorem ofFile_of_load {host : Host τ} {path : String} {image : ByteArray} {fresh : Cartridge τ}
    (hload : host.storage.load path maxImageSize = .ok (some image))
    (hbytes : ofBytes host.calendar image = .ok fresh) :
    ∃ host', ofFile host path = (.ok (fresh.restore host path).1, host') := by
  unfold ofFile
  rw [hload]
  dsimp only
  rw [hbytes]
  exact ⟨_, rfl⟩

end DotMatrix.Cartridge

namespace DotMatrix

/-! ## An image with a battery and a clock -/

/-- A host with one image in a table. -/
def imageHost (image : ByteArray) : Host Float :=
  ⟨⟨.table [] [], [(["game.gb"], image)], [], []⟩, none, 0, 0, []⟩

theorem load_imageHost {image : ByteArray} {limit : Nat} (h : image.size ≤ limit) :
    (imageHost image).storage.load "game.gb" limit = .ok (some image) := by
  rw [Storage.load_table (show _ = Medium.table [] [] from rfl), if_neg (by decide)]
  have hcontents : (imageHost image).storage.contents "game.gb" = some image := by
    rfl
  rw [hcontents, Option.map_some, extract_whole h]

/-- An image of two banks for a cartridge with a battery, a clock and eight kilobytes. -/
def batteryImage : ByteArray :=
  ⟨((Array.replicate 0x8000 0).setIfInBounds 0x147 0x10).setIfInBounds 0x149 0x02⟩

theorem size_batteryImage : batteryImage.size = 0x8000 := by
  simp [batteryImage, ByteArray.size]

theorem imageByte_batteryImage {i : Nat} (h : i < 0x8000) :
    imageByte batteryImage i = if 0x149 = i then 2 else if 0x147 = i then 0x10 else 0 := by
  unfold imageByte
  rw [dif_pos (by rw [size_batteryImage]; exact h)]
  refine (Array.getElem_setIfInBounds (by simpa using h)).trans ?_
  rw [Array.getElem_setIfInBounds (by simpa using h), Array.getElem_replicate]

theorem ofHeader_batteryImage :
    Capability.ofHeader batteryImage =
      .ok ⟨0x10, .mbc3, true, true, true, false, 0x2000, 2⟩ := by
  unfold Capability.ofHeader
  rw [if_neg (by rw [size_batteryImage]; decide)]
  simp only [imageByte_batteryImage (show 0x147 < 0x8000 by decide),
    imageByte_batteryImage (show 0x148 < 0x8000 by decide),
    imageByte_batteryImage (show 0x149 < 0x8000 by decide)]
  rfl

end DotMatrix
